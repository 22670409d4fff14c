import Mathlib.Data.List.Nodup
import Mathlib.Data.List.Pairwise
import Mathlib.Data.List.Zip
import PyKvCache.Transfer.LoadPairing
import PyKvCache.Transfer.SwapPointers

/-!
# A store followed by a load reproduces the blocks

Staging memory and GPU memory are one flat memory.  A store copies the blocks
of each chunk into a staging slot and writes the slot to a file; a load reads
the file into a slot, which may be another one, and copies its sub-blocks out
to the destination blocks.

The layers may have different block sizes; the `AddressMap` says that the
tensors and the staging buffer are separate allocations.
-/

namespace PyKvCache.Transfer

open PyKvCache.Library

/-- Byte memory, staging and GPU together. -/
abbrev Memory := Int → UInt8

/-- The bytes of a file, by offset. -/
abbrev FileBytes := Nat → UInt8

/-- The addresses of the staging buffer and of the tensors, all apart. -/
structure AddressMap (layout : ParsedKvLayout) where
  stagingBase : Int
  slotCount : Nat
  numBlocks : Nat
  tensorsDisjoint :
    layout.layers.Pairwise fun left right =>
      BlocksDisjoint left.tensor (numBlocks * left.blockBytes)
        right.tensor (numBlocks * right.blockBytes)
  stagingDisjoint :
    ∀ layer ∈ layout.layers,
      BlocksDisjoint stagingBase (slotCount * layout.storageBlockBytes)
        layer.tensor (numBlocks * layer.blockBytes)

section Jobs

variable (layout : ParsedKvLayout) (map : AddressMap layout)

/-- One file of a store: copy the chunk into the slot, write the slot out. -/
def storeFile (slot : Int) (chunk : List Int) (memory : Memory) :
    Except TransferError (FileBytes × Memory) := do
  let mapping ← storeMapping layout slot chunk
  let copied :=
    BlockCopy.runAll
      (fillSwapPtrs layout map.stagingBase mapping slot false) memory
  return (fun offset =>
    copied (slotBase layout map.stagingBase slot + offset), copied)

/-- A full-size read of a file into a slot. -/
def readIntoSlot (slot : Int) (file : FileBytes) (memory : Memory) :
    Memory :=
  fun address =>
    if InBlock (slotBase layout map.stagingBase slot)
        layout.storageBlockBytes address then
      file (address - slotBase layout map.stagingBase slot).toNat
    else
      memory address

/-- One file of a load: read the file into the slot, copy the chunk out. -/
def loadFile (slot : Int) (file : FileBytes) (chunk : List Int)
    (memory : Memory) : Except TransferError Memory := do
  let mapping ← loadMapping layout slot chunk
  return BlockCopy.runAll
    (fillSwapPtrs layout map.stagingBase mapping slot true)
    (readIntoSlot layout map slot file memory)

/-- The files of a store, from number `number` on. -/
def storeFiles (slots : Nat → Int) :
    Nat → List (List Int) → Memory →
      Except TransferError (List FileBytes × Memory)
  | _, [], memory => pure ([], memory)
  | number, chunk :: later, memory => do
      let (file, copied) ← storeFile layout map (slots number) chunk memory
      let (files, final) ← storeFiles slots (number + 1) later copied
      return (file :: files, final)

/-- The files of a load, from number `number` on. -/
def loadFiles (slots : Nat → Int) :
    Nat → List (List Int) → List FileBytes → Memory →
      Except TransferError Memory
  | number, chunk :: chunks, file :: files, memory => do
      let copied ← loadFile layout map (slots number) file chunk memory
      loadFiles slots (number + 1) chunks files copied
  | _, _, _, memory => pure memory

/-- A store job: `split_block_ids_for_files`, then every file. -/
def storeJob (slots : Nat → Int) (sources : List Int) (fileCount : Nat)
    (memory : Memory) : Except TransferError (List FileBytes × Memory) := do
  let chunks ← splitBlockIdsForFiles layout sources fileCount 0
  storeFiles layout map slots 0 chunks memory

/-- A load job over published files. -/
def loadJob (slots : Nat → Int) (files : List FileBytes)
    (destinations : List Int) (firstBlockIndex : Int) (memory : Memory) :
    Except TransferError Memory := do
  let chunks ←
    splitBlockIdsForFiles layout destinations files.length firstBlockIndex
  loadFiles layout map slots 0 chunks files memory

end Jobs

section Addresses

variable {layout : ParsedKvLayout} (map : AddressMap layout)

/-- A slot index of the staging buffer. -/
def AddressMap.ValidSlot (slot : Int) : Prop :=
  0 ≤ slot ∧ slot < map.slotCount

/-- A block id every tensor has. -/
def AddressMap.ValidBlock (blockId : Int) : Prop :=
  0 ≤ blockId ∧ blockId < map.numBlocks

/-- Where block `blockId` of a layer starts. -/
def blockAddress (layer : Layer) (blockId : Int) : Int :=
  layer.tensor + blockId * layer.blockBytes

/-- Where sub-block `sub` of a layer starts in a slot. -/
def partAddress (slot : Int) (layer : Layer) (sub : Nat) : Int :=
  slotBase layout map.stagingBase slot + layer.stagingOffset +
    (sub : Int) * layer.blockBytes

/-- The staging buffer contains `address`. -/
def AddressMap.InStaging (address : Int) : Prop :=
  InBlock map.stagingBase (map.slotCount * layout.storageBlockBytes) address

theorem succ_mul_le {index bound : Int} (size : Nat) (small : index < bound) :
    index * size + size ≤ bound * size := by
  have scaled :
      (index + 1) * (size : Int) ≤ bound * size :=
    Int.mul_le_mul_of_nonneg_right (by omega) (by omega)
  linarith [add_mul index 1 (size : Int)]

theorem inTensor_of_inBlock
    {layer : Layer} {blockId address : Int}
    (valid : map.ValidBlock blockId)
    (inside : InBlock (blockAddress layer blockId) layer.blockBytes address) :
    InBlock layer.tensor (map.numBlocks * layer.blockBytes) address := by
  obtain ⟨nonneg, bound⟩ := valid
  obtain ⟨lower, upper⟩ := inside
  have scaled := succ_mul_le layer.blockBytes bound
  have start : 0 ≤ blockId * (layer.blockBytes : Int) :=
    Int.mul_nonneg nonneg (by omega)
  simp only [blockAddress] at lower upper
  constructor
  · omega
  · push_cast
    omega

theorem inSlot_of_inPart
    {slot : Int} {layer : Layer} {sub : Nat} {address : Int}
    (member : layer ∈ layout.layers)
    (small : sub < layout.storageBlockSizeFactor)
    (inside :
      InBlock (partAddress map slot layer sub) layer.blockBytes address) :
    InBlock (slotBase layout map.stagingBase slot)
      layout.storageBlockBytes address := by
  have part := Layer.part_le member
  have scaled :
      (sub + 1) * layer.blockBytes ≤
        layout.storageBlockSizeFactor * layer.blockBytes :=
    Nat.mul_le_mul_right _ small
  rw [Nat.succ_mul] at scaled
  obtain ⟨lower, upper⟩ := inside
  simp only [partAddress] at lower upper
  rw [← Nat.cast_mul] at lower upper
  constructor <;> omega

theorem inStaging_of_inSlot
    {slot address : Int} (valid : map.ValidSlot slot)
    (inside :
      InBlock (slotBase layout map.stagingBase slot)
        layout.storageBlockBytes address) :
    map.InStaging address := by
  obtain ⟨nonneg, bound⟩ := valid
  have scaled := succ_mul_le layout.storageBlockBytes bound
  have start : 0 ≤ slot * (layout.storageBlockBytes : Int) :=
    Int.mul_nonneg nonneg (by omega)
  obtain ⟨lower, upper⟩ := inside
  simp only [slotBase] at lower upper
  constructor
  · omega
  · push_cast
    omega

/-- A block of a tensor and the staging buffer have no byte in common. -/
theorem not_inStaging_of_inBlock
    {layer : Layer} {blockId address : Int}
    (member : layer ∈ layout.layers) (valid : map.ValidBlock blockId)
    (inside : InBlock (blockAddress layer blockId) layer.blockBytes address) :
    ¬ map.InStaging address :=
  fun inStaging =>
    map.stagingDisjoint layer member address inStaging
      (inTensor_of_inBlock map valid inside)

theorem inBlock_offset (start : Int) {size offset : Nat}
    (inside : offset < size) : InBlock start size (start + offset) :=
  ⟨by omega, by omega⟩

/-- Blocks of one layer with different ids do not overlap. -/
theorem blocksDisjoint_of_ne
    {left right base : Int} {size : Nat} (different : left ≠ right) :
    BlocksDisjoint (base + left * size) size (base + right * size) size := by
  rintro address ⟨leftLower, leftUpper⟩ ⟨rightLower, rightUpper⟩
  rcases Int.lt_or_gt_of_ne different with below | above
  · have scaled := succ_mul_le size below
    omega
  · have scaled := succ_mul_le size above
    omega

/-- The copies of a load, by sub-block and block id. -/
def loadCopies (slot : Int) (rows : List (Nat × Int)) : List BlockCopy :=
  layout.layers.flatMap fun layer =>
    rows.map fun row =>
      ⟨partAddress map slot layer row.1, blockAddress layer row.2,
        layer.blockBytes⟩

/-- The copies of a store, by sub-block and block id. -/
def storeCopies (slot : Int) (rows : List (Nat × Int)) : List BlockCopy :=
  layout.layers.flatMap fun layer =>
    rows.map fun row =>
      ⟨blockAddress layer row.2, partAddress map slot layer row.1,
        layer.blockBytes⟩

theorem expandBlock_zip (slot : Int) (first : Nat) (chunk : List Int) :
    (expandBlock slot layout.storageBlockSizeFactor first).zip chunk =
      ((List.range' first (layout.storageBlockSizeFactor - first)).zip
        chunk).map fun row =>
          (slot * layout.storageBlockSizeFactor + (row.1 : Int), row.2) := by
  rw [expandBlock, List.zip_map_left]
  rfl

theorem fillSwapPtrs_load (slot : Int) (rows : List (Nat × Int)) :
    fillSwapPtrs layout map.stagingBase
        (rows.map fun row =>
          (slot * layout.storageBlockSizeFactor + (row.1 : Int), row.2))
        slot true =
      loadCopies map slot rows := by
  simp [fillSwapPtrs, loadCopies, swapPointer, partAddress, blockAddress,
    Function.comp_def]

theorem fillSwapPtrs_store (slot : Int) (rows : List (Nat × Int)) :
    fillSwapPtrs layout map.stagingBase
        (rows.map fun row =>
          (row.2, slot * layout.storageBlockSizeFactor + (row.1 : Int)))
        slot false =
      storeCopies map slot rows := by
  simp [fillSwapPtrs, storeCopies, swapPointer, partAddress, blockAddress,
    Function.comp_def]

/-- The rows of one file: sub-blocks of the slot with valid block ids. -/
structure RowsValid (rows : List (Nat × Int)) : Prop where
  small : ∀ row ∈ rows, row.1 < layout.storageBlockSizeFactor
  valid : ∀ row ∈ rows, map.ValidBlock row.2

variable {map}

theorem mem_loadCopies {slot : Int} {rows : List (Nat × Int)}
    {copy : BlockCopy} :
    copy ∈ loadCopies map slot rows ↔
      ∃ layer ∈ layout.layers, ∃ row ∈ rows,
        copy = ⟨partAddress map slot layer row.1,
          blockAddress layer row.2, layer.blockBytes⟩ := by
  simp [loadCopies, List.mem_flatMap, eq_comm]

theorem mem_storeCopies {slot : Int} {rows : List (Nat × Int)}
    {copy : BlockCopy} :
    copy ∈ storeCopies map slot rows ↔
      ∃ layer ∈ layout.layers, ∃ row ∈ rows,
        copy = ⟨blockAddress layer row.2,
          partAddress map slot layer row.1, layer.blockBytes⟩ := by
  simp [storeCopies, List.mem_flatMap, eq_comm]

/-- No GPU block overlaps a part of a slot. -/
theorem part_block_disjoint
    {slot : Int} {rows : List (Nat × Int)} (validSlot : map.ValidSlot slot)
    (rowsValid : RowsValid map rows)
    {left right : Layer} (leftMember : left ∈ layout.layers)
    (rightMember : right ∈ layout.layers)
    {leftRow rightRow : Nat × Int} (leftIn : leftRow ∈ rows)
    (rightIn : rightRow ∈ rows) :
    BlocksDisjoint (partAddress map slot left leftRow.1) left.blockBytes
      (blockAddress right rightRow.2) right.blockBytes :=
  fun _ inPart inBlock =>
    not_inStaging_of_inBlock map rightMember
      (rowsValid.valid rightRow rightIn) inBlock
      (inStaging_of_inSlot map validSlot
        (inSlot_of_inPart map leftMember
          (rowsValid.small leftRow leftIn) inPart))

theorem blocksDisjoint_symm {left right : Int} {leftSize rightSize : Nat}
    (disjoint : BlocksDisjoint left leftSize right rightSize) :
    BlocksDisjoint right rightSize left leftSize :=
  fun address inRight inLeft => disjoint address inLeft inRight

/-- Different layers have their tensors apart. -/
theorem tensors_apart (map : AddressMap layout) {left right : Layer}
    (leftMember : left ∈ layout.layers) (rightMember : right ∈ layout.layers)
    (different : left ≠ right) :
    BlocksDisjoint left.tensor (map.numBlocks * left.blockBytes)
      right.tensor (map.numBlocks * right.blockBytes) := by
  have symmetric :
      Std.Symm fun left right : Layer =>
        BlocksDisjoint left.tensor (map.numBlocks * left.blockBytes)
          right.tensor (map.numBlocks * right.blockBytes) :=
    ⟨fun _ _ disjoint => blocksDisjoint_symm disjoint⟩
  exact map.tensorsDisjoint.forall leftMember rightMember different

/-- The destination blocks of a load do not overlap when its block ids are
distinct. -/
theorem loadCopies_pairwise
    {slot : Int} {rows : List (Nat × Int)} (rowsValid : RowsValid map rows)
    (distinct : rows.Pairwise fun left right => left.2 ≠ right.2) :
    (loadCopies map slot rows).Pairwise fun left right =>
      BlocksDisjoint left.dst left.size right.dst right.size := by
  rw [loadCopies, List.pairwise_flatMap]
  constructor
  · intro layer _
    rw [List.pairwise_map]
    exact distinct.imp fun different => blocksDisjoint_of_ne different
  · refine map.tensorsDisjoint.imp ?_
    intro left right disjoint leftCopy leftIn rightCopy rightIn
    obtain ⟨leftRow, leftRowIn, rfl⟩ := List.mem_map.mp leftIn
    obtain ⟨rightRow, rightRowIn, rfl⟩ := List.mem_map.mp rightIn
    intro address inLeft inRight
    exact disjoint address
      (inTensor_of_inBlock map (rowsValid.valid leftRow leftRowIn) inLeft)
      (inTensor_of_inBlock map (rowsValid.valid rightRow rightRowIn) inRight)

/-- The parts a store writes do not overlap when its sub-blocks are
distinct. -/
theorem storeCopies_pairwise
    {slot : Int} {rows : List (Nat × Int)} (rowsValid : RowsValid map rows)
    (distinct : rows.Pairwise fun left right => left.1 ≠ right.1) :
    (storeCopies map slot rows).Pairwise fun left right =>
      BlocksDisjoint left.dst left.size right.dst right.size := by
  rw [storeCopies, List.pairwise_flatMap]
  constructor
  · intro layer _
    rw [List.pairwise_map]
    exact distinct.imp fun different =>
      blocksDisjoint_of_ne (by exact_mod_cast different)
  · refine (layers_pairwise_parts layout).imp ?_
    intro left right follows leftCopy leftIn rightCopy rightIn
    obtain ⟨leftRow, leftRowIn, rfl⟩ := List.mem_map.mp leftIn
    obtain ⟨rightRow, rightRowIn, rfl⟩ := List.mem_map.mp rightIn
    rintro address ⟨_, leftUpper⟩ ⟨rightLower, _⟩
    have scaled :
        (leftRow.1 + 1) * left.blockBytes ≤
          layout.storageBlockSizeFactor * left.blockBytes :=
      Nat.mul_le_mul_right _ (rowsValid.small leftRow leftRowIn)
    have start : 0 ≤ (rightRow.1 : Int) * (right.blockBytes : Int) :=
      Int.mul_nonneg (by omega) (by omega)
    rw [Nat.succ_mul] at scaled
    simp only [partAddress] at leftUpper rightLower
    rw [← Nat.cast_mul] at leftUpper
    omega

/-- A load copy delivers the bytes of the slot. -/
theorem runAll_loadCopies
    {slot : Int} {rows : List (Nat × Int)} (validSlot : map.ValidSlot slot)
    (rowsValid : RowsValid map rows)
    (distinct : rows.Pairwise fun left right => left.2 ≠ right.2)
    (memory : Memory) {layer : Layer} (member : layer ∈ layout.layers)
    {row : Nat × Int} (rowIn : row ∈ rows) {offset : Nat}
    (inside : offset < layer.blockBytes) :
    BlockCopy.runAll (loadCopies map slot rows) memory
        (blockAddress layer row.2 + offset) =
      memory (partAddress map slot layer row.1 + offset) := by
  refine BlockCopy.runAll_of_mem
    (loadCopies_pairwise rowsValid distinct) ?_
    ⟨partAddress map slot layer row.1, blockAddress layer row.2,
      layer.blockBytes⟩
    (mem_loadCopies.mpr ⟨layer, member, row, rowIn, rfl⟩) inside memory
  intro reader readerIn writer writerIn
  obtain ⟨readLayer, readMember, readRow, readRowIn, rfl⟩ :=
    mem_loadCopies.mp readerIn
  obtain ⟨writeLayer, writeMember, writeRow, writeRowIn, rfl⟩ :=
    mem_loadCopies.mp writerIn
  exact part_block_disjoint validSlot rowsValid readMember writeMember
    readRowIn writeRowIn

/-- A store copy delivers the bytes of the GPU block. -/
theorem runAll_storeCopies
    {slot : Int} {rows : List (Nat × Int)} (validSlot : map.ValidSlot slot)
    (rowsValid : RowsValid map rows)
    (distinct : rows.Pairwise fun left right => left.1 ≠ right.1)
    (memory : Memory) {layer : Layer} (member : layer ∈ layout.layers)
    {row : Nat × Int} (rowIn : row ∈ rows) {offset : Nat}
    (inside : offset < layer.blockBytes) :
    BlockCopy.runAll (storeCopies map slot rows) memory
        (partAddress map slot layer row.1 + offset) =
      memory (blockAddress layer row.2 + offset) := by
  refine BlockCopy.runAll_of_mem
    (storeCopies_pairwise rowsValid distinct) ?_
    ⟨blockAddress layer row.2, partAddress map slot layer row.1,
      layer.blockBytes⟩
    (mem_storeCopies.mpr ⟨layer, member, row, rowIn, rfl⟩) inside memory
  intro reader readerIn writer writerIn
  obtain ⟨readLayer, readMember, readRow, readRowIn, rfl⟩ :=
    mem_storeCopies.mp readerIn
  obtain ⟨writeLayer, writeMember, writeRow, writeRowIn, rfl⟩ :=
    mem_storeCopies.mp writerIn
  exact blocksDisjoint_symm
    (part_block_disjoint validSlot rowsValid writeMember readMember
      writeRowIn readRowIn)

end Addresses

section Files

variable {layout : ParsedKvLayout} {map : AddressMap layout}

/-- Sub-block `sub` of a file has, in every layer, the bytes block `blockId`
has in `memory`. -/
def HoldsBlock (layout : ParsedKvLayout) (memory : Memory)
    (file : FileBytes) (sub : Nat) (blockId : Int) : Prop :=
  ∀ layer ∈ layout.layers, ∀ offset, offset < layer.blockBytes →
    file (layer.stagingOffset + sub * layer.blockBytes + offset) =
      memory (blockAddress layer blockId + offset)

/-- Block `target` has, in every layer, the bytes `origin` had before. -/
def DeliversBlock (layout : ParsedKvLayout) (before after : Memory)
    (origin target : Int) : Prop :=
  ∀ layer ∈ layout.layers, ∀ offset, offset < layer.blockBytes →
    after (blockAddress layer target + offset) =
      before (blockAddress layer origin + offset)

/-- Some layer has `address` in one of the blocks. -/
def InSomeBlock (layout : ParsedKvLayout) (blockIds : List Int)
    (address : Int) : Prop :=
  ∃ layer ∈ layout.layers, ∃ blockId ∈ blockIds,
    InBlock (blockAddress layer blockId) layer.blockBytes address

/-- The sub-blocks from `first` on, side by side with the ids of a chunk. -/
def chunkRows (factor first : Nat) (chunk : List Int) :
    List (Nat × Int) :=
  (List.range' first (factor - first)).zip chunk

theorem mem_chunkRows (factor first : Nat) {index : Nat} {chunk : List Int}
    (inChunk : index < chunk.length) (inFile : first + index < factor) :
    (first + index, chunk[index]) ∈ chunkRows factor first chunk := by
  rw [chunkRows, List.mem_iff_getElem]
  refine ⟨index, ?_, ?_⟩
  · simp only [List.length_zip, List.length_range']
    omega
  · simp

theorem chunkRows_valid (map : AddressMap layout) {first : Nat}
    {chunk : List Int} (inside : first ≤ layout.storageBlockSizeFactor)
    (valid : ∀ blockId ∈ chunk, map.ValidBlock blockId) :
    RowsValid map
      (chunkRows layout.storageBlockSizeFactor first chunk) where
  small := by
    intro row member
    have inRange :=
      (List.of_mem_zip (a := row.1) (b := row.2) member).1
    simp only [List.mem_range'_1] at inRange
    omega
  valid := by
    intro row member
    exact valid row.2
      (List.of_mem_zip (a := row.1) (b := row.2) member).2

theorem chunkRows_distinct_ids (factor first : Nat) {chunk : List Int}
    (nodup : chunk.Nodup) :
    (chunkRows factor first chunk).Pairwise
      fun left right => left.2 ≠ right.2 :=
  pairwise_zip_right (List.range' first (factor - first)) nodup

theorem chunkRows_distinct_subs (factor first : Nat) (chunk : List Int) :
    (chunkRows factor first chunk).Pairwise
      fun left right => left.1 ≠ right.1 := by
  have swapped :=
    pairwise_zip_right chunk
      (List.nodup_range' (s := first) (n := factor - first))
  rw [← List.zip_swap, List.pairwise_map] at swapped
  exact swapped

theorem not_inStaging_blockAddress
    {layer : Layer} {blockId : Int} {offset : Nat}
    (member : layer ∈ layout.layers) (valid : map.ValidBlock blockId)
    (inside : offset < layer.blockBytes) :
    ¬ map.InStaging (blockAddress layer blockId + offset) :=
  not_inStaging_of_inBlock map member valid (inBlock_offset _ inside)

theorem storeFile_spec {slot : Int} {chunk : List Int} (memory : Memory)
    (validSlot : map.ValidSlot slot)
    (full : chunk.length = layout.storageBlockSizeFactor)
    (valid : ∀ blockId ∈ chunk, map.ValidBlock blockId) :
    ∃ file copied,
      storeFile layout map slot chunk memory = .ok (file, copied) ∧
      (∀ sub (inside : sub < chunk.length),
        HoldsBlock layout memory file sub chunk[sub]) ∧
      ∀ address, ¬ map.InStaging address →
        copied address = memory address := by
  have rowsValid :=
    chunkRows_valid map (Nat.zero_le _) valid
  have mapping :
      chunk.zip (expandBlock slot layout.storageBlockSizeFactor 0) =
        (chunkRows layout.storageBlockSizeFactor 0 chunk).map fun row =>
          (row.2,
            slot * layout.storageBlockSizeFactor + (row.1 : Int)) := by
    rw [← List.zip_swap, expandBlock_zip, List.map_map]
    rfl
  have result :
      storeFile layout map slot chunk memory =
        .ok (fun offset =>
          BlockCopy.runAll
            (storeCopies map slot
              (chunkRows layout.storageBlockSizeFactor 0 chunk)) memory
            (slotBase layout map.stagingBase slot + offset),
          BlockCopy.runAll
            (storeCopies map slot
              (chunkRows layout.storageBlockSizeFactor 0 chunk))
            memory) := by
    rw [storeFile, storeMapping_of_eq full, mapping]
    simp only [bind, Except.bind, pure, Except.pure,
      fillSwapPtrs_store map slot]
  refine ⟨_, _, result, ?_, ?_⟩
  · intro sub inside layer member offset small
    have row :=
      mem_chunkRows layout.storageBlockSizeFactor 0 inside (by omega)
    rw [Nat.zero_add] at row
    have delivered :=
      runAll_storeCopies validSlot rowsValid
        (chunkRows_distinct_subs _ _ _) memory member row small
    have address :
        slotBase layout map.stagingBase slot +
            ((layer.stagingOffset + sub * layer.blockBytes + offset : Nat) :
              Int) =
          partAddress map slot layer sub + offset := by
      simp only [partAddress]
      push_cast
      ring
    simp only [address, delivered]
  · intro address outside
    apply BlockCopy.runAll_of_not_written
    intro copy copyIn inCopy
    obtain ⟨layer, member, row, rowIn, rfl⟩ := mem_storeCopies.mp copyIn
    exact outside
      (inStaging_of_inSlot map validSlot
        (inSlot_of_inPart map member (rowsValid.small row rowIn) inCopy))

theorem readIntoSlot_part {slot : Int} {file : FileBytes}
    {memory : Memory} {layer : Layer} {sub offset : Nat}
    (member : layer ∈ layout.layers)
    (small : sub < layout.storageBlockSizeFactor)
    (inside : offset < layer.blockBytes) :
    readIntoSlot layout map slot file memory
        (partAddress map slot layer sub + offset) =
      file (layer.stagingOffset + sub * layer.blockBytes + offset) := by
  have inSlot :=
    inSlot_of_inPart map member small
      (inBlock_offset (partAddress map slot layer sub) inside)
  rw [readIntoSlot, if_pos inSlot]
  congr 1
  simp only [partAddress]
  rw [← Nat.cast_mul]
  omega

theorem readIntoSlot_outside {slot : Int} (file : FileBytes)
    (memory : Memory) {address : Int} (validSlot : map.ValidSlot slot)
    (outside : ¬ map.InStaging address) :
    readIntoSlot layout map slot file memory address =
      memory address := by
  rw [readIntoSlot, if_neg]
  exact fun inSlot =>
    outside (inStaging_of_inSlot map validSlot inSlot)

theorem loadFile_spec {slot : Int} (file : FileBytes) {chunk : List Int}
    (memory : Memory) {first : Nat} (validSlot : map.ValidSlot slot)
    (inside : first < layout.storageBlockSizeFactor)
    (ends : first + chunk.length = layout.storageBlockSizeFactor)
    (nodup : chunk.Nodup)
    (valid : ∀ blockId ∈ chunk, map.ValidBlock blockId) :
    ∃ copied,
      loadFile layout map slot file chunk memory = .ok copied ∧
      (∀ index (small : index < chunk.length), ∀ layer ∈ layout.layers,
        ∀ offset, offset < layer.blockBytes →
          copied (blockAddress layer chunk[index] + offset) =
            file (layer.stagingOffset +
              (first + index) * layer.blockBytes + offset)) ∧
      ∀ address, ¬ map.InStaging address →
        ¬ InSomeBlock layout chunk address →
          copied address = memory address := by
  have rowsValid :=
    chunkRows_valid map (Nat.le_of_lt inside) valid
  have start : layout.storageBlockSizeFactor - chunk.length = first := by
    omega
  have result :
      loadFile layout map slot file chunk memory =
        .ok (BlockCopy.runAll
          (loadCopies map slot
            (chunkRows layout.storageBlockSizeFactor first chunk))
          (readIntoSlot layout map slot file memory)) := by
    rw [loadFile, loadMapping_of_le (by omega) (by omega), start,
      expandBlock_zip]
    simp only [bind, Except.bind, pure, Except.pure,
      fillSwapPtrs_load map slot, chunkRows]
  refine ⟨_, result, ?_, ?_⟩
  · intro index small layer member offset bound
    have row :=
      mem_chunkRows layout.storageBlockSizeFactor first small (by omega)
    have delivered :=
      runAll_loadCopies validSlot rowsValid
        (chunkRows_distinct_ids _ _ nodup)
        (readIntoSlot layout map slot file memory) member row bound
    rw [delivered]
    exact readIntoSlot_part member (rowsValid.small _ row) bound
  · intro address outside untouched
    rw [BlockCopy.runAll_of_not_written,
      readIntoSlot_outside file memory validSlot outside]
    intro copy copyIn inCopy
    obtain ⟨layer, member, row, rowIn, rfl⟩ := mem_loadCopies.mp copyIn
    exact untouched ⟨layer, member, row.2,
      (List.of_mem_zip (a := row.1) (b := row.2) rowIn).2, inCopy⟩

/-- Memories that agree outside the staging buffer have the same blocks. -/
theorem HoldsBlock.congr (map : AddressMap layout)
    {before after : Memory} {file : FileBytes} {sub : Nat} {blockId : Int}
    (valid : map.ValidBlock blockId)
    (same : ∀ address, ¬ map.InStaging address →
      after address = before address)
    (holds : HoldsBlock layout after file sub blockId) :
    HoldsBlock layout before file sub blockId := by
  intro layer member offset small
  rw [holds layer member offset small]
  exact same _ (not_inStaging_blockAddress member valid small)

end Files

section Jobs

variable {layout : ParsedKvLayout} {map : AddressMap layout}

/-- Every file of a store holds its blocks of the source memory. -/
theorem storeFiles_spec
    {slots : Nat → Int} (validSlots : ∀ number, map.ValidSlot (slots number))
    {fileCount : Nat} (number : Nat) {sources : List Int} (memory : Memory)
    (whole :
      sources.length = fileCount * layout.storageBlockSizeFactor)
    (valid : ∀ blockId ∈ sources, map.ValidBlock blockId) :
    ∃ files final,
      storeFiles layout map slots number
          (splitLoop layout.storageBlockSizeFactor fileCount
            layout.storageBlockSizeFactor sources).1 memory =
        .ok (files, final) ∧
      files.length = fileCount ∧
      (∀ file (inFiles : file < files.length) (sub : Nat),
        sub < layout.storageBlockSizeFactor →
          HoldsBlock layout memory files[file] sub
            (sources.getD (file * layout.storageBlockSizeFactor + sub)
              0)) ∧
      ∀ address, ¬ map.InStaging address →
        final address = memory address := by
  induction fileCount generalizing number sources memory with
  | zero =>
      refine ⟨[], memory, rfl, rfl, ?_, fun _ _ => rfl⟩
      intro file inFiles
      cases inFiles
  | succ fileCount inductionHypothesis =>
      rw [Nat.succ_mul] at whole
      have chunkLength :
          (sources.take layout.storageBlockSizeFactor).length =
            layout.storageBlockSizeFactor := by
        rw [List.length_take]
        omega
      obtain ⟨file, copied, stored, holds, unchanged⟩ :=
        storeFile_spec memory (validSlots number) chunkLength
          (fun blockId member => valid blockId (List.mem_of_mem_take member))
      obtain ⟨files, final, storedLater, count, holdsLater, same⟩ :=
        @inductionHypothesis (number + 1)
          (sources.drop layout.storageBlockSizeFactor) copied
          (by rw [List.length_drop]; omega)
          (fun blockId member => valid blockId (List.mem_of_mem_drop member))
      refine ⟨file :: files, final, ?_, by simp [count], ?_,
        fun address outside =>
          (same address outside).trans (unchanged address outside)⟩
      · simp only [splitLoop, storeFiles, stored, storedLater, bind,
          Except.bind, pure, Except.pure]
      · intro index inFiles sub small
        cases index with
        | zero =>
            have held := holds sub (by omega)
            rw [List.getElem_take] at held
            simpa [List.getD_eq_getElem?_getD,
              List.getElem?_eq_getElem
                (show sub < sources.length by omega)] using held
        | succ index =>
            have position :
                layout.storageBlockSizeFactor +
                    (index * layout.storageBlockSizeFactor + sub) =
                  (index + 1) * layout.storageBlockSizeFactor + sub := by
              rw [Nat.succ_mul]
              omega
            have inLater : index < files.length := by
              simpa using inFiles
            have before :
                (index + 1) * layout.storageBlockSizeFactor ≤
                  fileCount * layout.storageBlockSizeFactor :=
              Nat.mul_le_mul_right _ (by omega)
            rw [Nat.succ_mul] at before
            have held := holdsLater index inLater sub small
            have sameId :
                (sources.drop layout.storageBlockSizeFactor).getD
                    (index * layout.storageBlockSizeFactor + sub) 0 =
                  sources.getD
                    ((index + 1) * layout.storageBlockSizeFactor + sub)
                    0 := by
              rw [List.getD_eq_getElem?_getD, List.getElem?_drop,
                position, ← List.getD_eq_getElem?_getD]
            rw [sameId] at held
            refine HoldsBlock.congr map ?_ unchanged held
            apply valid
            rw [List.getD_eq_getElem?_getD,
              List.getElem?_eq_getElem (by omega), Option.getD_some]
            exact List.getElem_mem _

/-- A load of files that hold the blocks `source` delivers them in order, and
touches no other GPU byte. -/
theorem loadFiles_spec
    {slots : Nat → Int} (validSlots : ∀ number, map.ValidSlot (slots number))
    (source : Nat → Int) (before : Memory)
    {later : Nat} (number : Nat) {first : Nat} {destinations : List Int}
    {files : List FileBytes} (memory : Memory)
    (inside : first < layout.storageBlockSizeFactor)
    (count : files.length = later + 1)
    (aligned :
      first + destinations.length =
        (later + 1) * layout.storageBlockSizeFactor)
    (nodup : destinations.Nodup)
    (valid : ∀ blockId ∈ destinations, map.ValidBlock blockId)
    (holds : ∀ file (inFiles : file < files.length) (sub : Nat),
      sub < layout.storageBlockSizeFactor →
        HoldsBlock layout before files[file] sub
          (source (file * layout.storageBlockSizeFactor + sub))) :
    ∃ final,
      loadFiles layout map slots number
          (splitLoop layout.storageBlockSizeFactor (later + 1)
            (layout.storageBlockSizeFactor - first) destinations).1
          files memory =
        .ok final ∧
      (∀ index (small : index < destinations.length),
        DeliversBlock layout before final (source (first + index))
          destinations[index]) ∧
      ∀ address, ¬ map.InStaging address →
        ¬ InSomeBlock layout destinations address →
          final address = memory address := by
  induction later generalizing number first destinations files memory
    source with
  | zero =>
      obtain ⟨file, rfl⟩ := List.length_eq_one_iff.mp count
      have whole :
          destinations.take (layout.storageBlockSizeFactor - first) =
            destinations :=
        List.take_of_length_le (by omega)
      obtain ⟨copied, loaded, delivered, unchanged⟩ :=
        loadFile_spec file memory (validSlots number) inside
          (by omega) nodup valid
      refine ⟨copied, ?_, ?_, unchanged⟩
      · simp only [splitLoop, whole, loadFiles, loaded, bind, Except.bind,
          pure, Except.pure]
      · intro index small layer member offset bound
        rw [delivered index small layer member offset bound]
        have held :=
          holds 0 (by simp) (first + index) (by omega) layer member offset
            bound
        rw [Nat.zero_mul, Nat.zero_add] at held
        exact held
  | succ later inductionHypothesis =>
      obtain ⟨file, files, rfl⟩ := List.exists_cons_of_length_eq_add_one count
      rw [Nat.succ_mul, Nat.succ_mul] at aligned
      have more :
          layout.storageBlockSizeFactor - first ≤ destinations.length := by
        omega
      generalize split :
        layout.storageBlockSizeFactor - first = size at more
      have chunkLength : (destinations.take size).length = size := by
        rw [List.length_take, Nat.min_eq_left more]
      have ends :
          first + (destinations.take size).length =
            layout.storageBlockSizeFactor := by
        omega
      obtain ⟨copied, loaded, delivered, unchanged⟩ :=
        loadFile_spec file memory (validSlots number) inside ends
          (nodup.sublist (List.take_sublist _ _))
          (fun blockId member => valid blockId (List.mem_of_mem_take member))
      obtain ⟨final, loadedLater, deliveredLater, unchangedLater⟩ :=
        @inductionHypothesis
          (fun position => source (layout.storageBlockSizeFactor + position))
          (number + 1) 0 (destinations.drop size) files copied
          layout.factorPositive (by simpa using count)
          (by
            rw [List.length_drop, Nat.succ_mul]
            omega)
          (nodup.sublist (List.drop_sublist _ _))
          (fun blockId member => valid blockId (List.mem_of_mem_drop member))
          (by
            intro index inFiles sub small
            have held :=
              holds (index + 1) (by simpa using inFiles) sub small
            rw [Nat.succ_mul] at held
            simpa [Nat.add_comm, Nat.add_left_comm, Nat.add_assoc]
              using held)
      rw [Nat.sub_zero] at loadedLater
      refine ⟨final, ?_, ?_, ?_⟩
      · rw [splitLoop]
        simp only [loadFiles, loaded, loadedLater, bind, Except.bind]
      · intro index small
        by_cases inFirst : index < size
        · intro layer member offset bound
          have inTake : index < (destinations.take size).length := by
            omega
          have address :=
            delivered index inTake layer member offset bound
          rw [List.getElem_take] at address
          have validHere :=
            valid destinations[index] (List.getElem_mem _)
          have notLater :
              ¬ InSomeBlock layout (destinations.drop size)
                (blockAddress layer destinations[index] + offset) := by
            rintro ⟨other, otherMember, blockId, inDrop, inBlock⟩
            have validOther :=
              valid blockId (List.mem_of_mem_drop inDrop)
            have here :=
              inBlock_offset (blockAddress layer destinations[index]) bound
            by_cases sameLayer : layer = other
            · subst sameLayer
              have different : destinations[index] ≠ blockId := by
                intro equal
                rw [List.mem_iff_getElem] at inDrop
                obtain ⟨place, inRest, atPlace⟩ := inDrop
                rw [List.getElem_drop] at atPlace
                rw [← atPlace] at equal
                have samePlace := (nodup.getElem_inj_iff).mp equal
                omega
              exact blocksDisjoint_of_ne different _ here inBlock
            · exact tensors_apart map member otherMember sameLayer _
                (inTensor_of_inBlock map validHere here)
                (inTensor_of_inBlock map validOther inBlock)
          rw [unchangedLater _
            (not_inStaging_blockAddress member validHere bound) notLater,
            address]
          have held :=
            holds 0 (by simp) (first + index) (by omega) layer member
              offset bound
          rw [Nat.zero_mul, Nat.zero_add] at held
          exact held
        · have inRest : index - size < (destinations.drop size).length := by
            rw [List.length_drop]
            omega
          have deliveredHere := deliveredLater (index - size) inRest
          have position :
              layout.storageBlockSizeFactor + (0 + (index - size)) =
                first + index := by
            omega
          rw [List.getElem_drop] at deliveredHere
          have sameIndex : size + (index - size) = index := by omega
          simpa only [position, sameIndex] using deliveredHere
      · intro address outside untouched
        rw [unchangedLater address outside, unchanged address outside]
        · rintro ⟨layer, member, blockId, inTake, inBlock⟩
          exact untouched
            ⟨layer, member, blockId, List.mem_of_mem_take inTake, inBlock⟩
        · rintro ⟨layer, member, blockId, inDrop, inBlock⟩
          exact untouched
            ⟨layer, member, blockId, List.mem_of_mem_drop inDrop, inBlock⟩

/-- Store `fileCount` files, then load `count` of them from number `run` on
into distinct blocks, starting at sub-block `first_block_index % factor`: the
load delivers the source blocks in order and changes no other GPU byte. -/
theorem store_then_load
    (layout : ParsedKvLayout) (map : AddressMap layout)
    (sources destinations : List Int) (fileCount run count : Nat)
    (firstBlockIndex : Int) (storeSlots loadSlots : Nat → Int)
    (before memory : Memory)
    (storeValid : ∀ number, map.ValidSlot (storeSlots number))
    (loadValid : ∀ number, map.ValidSlot (loadSlots number))
    (whole : sources.length = fileCount * layout.storageBlockSizeFactor)
    (sourcesValid : ∀ blockId ∈ sources, map.ValidBlock blockId)
    (contained : run + count ≤ fileCount) (someFile : 1 ≤ count)
    (aligned :
      firstBlockSkip layout firstBlockIndex + destinations.length =
        count * layout.storageBlockSizeFactor)
    (nodup : destinations.Nodup)
    (destinationsValid : ∀ blockId ∈ destinations, map.ValidBlock blockId) :
    ∃ files stored final,
      storeJob layout map storeSlots sources fileCount before =
        .ok (files, stored) ∧
      loadJob layout map loadSlots ((files.drop run).take count)
        destinations firstBlockIndex memory = .ok final ∧
      (∀ index (small : index < destinations.length),
        ∃ origin,
          sources[run * layout.storageBlockSizeFactor +
              (firstBlockSkip layout firstBlockIndex + index)]? =
            some origin ∧
          DeliversBlock layout before final origin destinations[index]) ∧
      (∀ address, ¬ map.InStaging address →
        stored address = before address) ∧
      ∀ address, ¬ map.InStaging address →
        ¬ InSomeBlock layout destinations address →
          final address = memory address := by
  obtain ⟨later, rfl⟩ : ∃ later, count = later + 1 :=
    ⟨count - 1, by omega⟩
  obtain ⟨files, stored, storedAll, filesCount, holds, unchanged⟩ :=
    storeFiles_spec storeValid 0 before whole
      sourcesValid
  have inside := firstBlockSkip_lt layout firstBlockIndex
  have runLength : ((files.drop run).take (later + 1)).length = later + 1 := by
    rw [List.length_take, List.length_drop]
    omega
  have runHolds :
      ∀ file (inFiles : file < ((files.drop run).take (later + 1)).length)
        (sub : Nat), sub < layout.storageBlockSizeFactor →
          HoldsBlock layout before ((files.drop run).take (later + 1))[file]
            sub
            ((fun position =>
              sources.getD
                (run * layout.storageBlockSizeFactor + position) 0)
              (file * layout.storageBlockSizeFactor + sub)) := by
    intro file inFiles sub small
    have held :=
      holds (run + file) (by rw [runLength] at inFiles; omega) sub small
    rw [Nat.add_mul, Nat.add_assoc] at held
    simpa only [List.getElem_take, List.getElem_drop] using held
  obtain ⟨final, loadedAll, delivered, untouched⟩ :=
    loadFiles_spec loadValid
      (fun position =>
        sources.getD (run * layout.storageBlockSizeFactor + position) 0)
      before 0 memory inside runLength aligned nodup destinationsValid runHolds
  refine ⟨files, stored, final, ?_, ?_, ?_, unchanged, untouched⟩
  · have positive : 1 ≤ fileCount := by omega
    obtain ⟨otherFiles, rfl⟩ : ∃ otherFiles, fileCount = otherFiles + 1 :=
      ⟨fileCount - 1, by omega⟩
    have start : firstBlockSkip layout 0 = 0 := by
      simp [firstBlockSkip]
    rw [storeJob, splitBlockIdsForFiles_succ, start, if_pos]
    · simpa only [bind, Except.bind, Nat.sub_zero] using storedAll
    · rw [whole, Nat.succ_mul]
      omega
  · rw [loadJob, runLength, splitBlockIdsForFiles_succ, if_pos]
    · simpa only [bind, Except.bind] using loadedAll
    · rw [Nat.succ_mul] at aligned
      omega
  · intro index small
    have inRun :
        run * layout.storageBlockSizeFactor +
            (firstBlockSkip layout firstBlockIndex + index) <
          sources.length := by
      have scaled :
          (run + (later + 1)) * layout.storageBlockSizeFactor ≤
            fileCount * layout.storageBlockSizeFactor :=
        Nat.mul_le_mul_right _ contained
      rw [Nat.add_mul] at scaled
      omega
    refine ⟨_, List.getElem?_eq_getElem inRun, ?_⟩
    have deliveredHere := delivered index small
    simpa only [List.getD_eq_getElem?_getD,
      List.getElem?_eq_getElem inRun, Option.getD_some] using deliveredHere

/-- Two layers of one- and two-byte blocks, two blocks to a file. -/
def raggedLayout : ParsedKvLayout where
  gpuTensors := [100, 200]
  bytesPerKernelBlock := [1, 2]
  storageBlockSizeFactor := 2
  sameLayers := rfl
  factorPositive := by decide

/-- Four blocks in each tensor, two staging slots at address zero. -/
def raggedMap : AddressMap raggedLayout where
  stagingBase := 0
  slotCount := 2
  numBlocks := 4
  tensorsDisjoint := by
    simp only [raggedLayout, ParsedKvLayout.layers,
      ParsedKvLayout.stagingLayerOffsets, layerOffsetsFrom, List.zip_cons_cons,
      List.zip_nil_left, List.map_cons, List.map_nil, List.pairwise_cons,
      List.mem_singleton, forall_eq, List.not_mem_nil, false_imp_iff,
      implies_true, and_true, List.Pairwise.nil]
    rintro address ⟨_, upper⟩ ⟨lower, _⟩
    omega
  stagingDisjoint := by
    simp only [raggedLayout, ParsedKvLayout.layers,
      ParsedKvLayout.stagingLayerOffsets, layerOffsetsFrom, List.zip_cons_cons,
      List.zip_nil_left, List.map_cons, List.map_nil, List.mem_cons,
      List.not_mem_nil, or_false, forall_eq_or_imp, forall_eq]
    constructor <;> rintro address ⟨_, upper⟩ ⟨lower, _⟩ <;>
      simp only [ParsedKvLayout.storageBlockBytes, List.sum_cons,
        List.sum_nil] at upper <;>
      omega

/-- Blocks 0 to 3 stored in two files, the last three of them loaded back into
blocks 3, 1 and 0 from sub-block one of the first file. -/
theorem raggedLayout_store_then_load :
    ∃ files stored final,
      storeJob raggedLayout raggedMap (fun _ => 0) [0, 1, 2, 3] 2
          (fun address => UInt8.ofNat address.toNat) = .ok (files, stored) ∧
      loadJob raggedLayout raggedMap (fun _ => 1) ((files.drop 0).take 2)
        [3, 1, 0] 1 (fun _ => 0) = .ok final ∧
      (∀ index (small : index < [(3 : Int), 1, 0].length),
        ∃ origin,
          [(0 : Int), 1, 2, 3][0 * 2 +
            (firstBlockSkip raggedLayout 1 + index)]? = some origin ∧
          DeliversBlock raggedLayout
            (fun address => UInt8.ofNat address.toNat) final origin
            [(3 : Int), 1, 0][index]) ∧
      (∀ address, ¬ raggedMap.InStaging address →
        stored address = UInt8.ofNat address.toNat) ∧
      ∀ address, ¬ raggedMap.InStaging address →
        ¬ InSomeBlock raggedLayout [3, 1, 0] address →
          final address = 0 :=
  store_then_load raggedLayout raggedMap [0, 1, 2, 3] [3, 1, 0] 2 0 2 1
    (fun _ => 0) (fun _ => 1) (fun address => UInt8.ofNat address.toNat)
    (fun _ => 0) (fun _ => ⟨by decide, by decide⟩)
    (fun _ => ⟨by decide, by decide⟩) rfl
    (by simp [AddressMap.ValidBlock, raggedMap]) (by decide) (by decide)
    rfl (by decide) (by simp [AddressMap.ValidBlock, raggedMap])

end Jobs

end PyKvCache.Transfer
