import Mathlib.Data.List.Basic
import Mathlib.Data.Int.ModEq
import Mathlib.Tactic.Ring
import Mathlib.Tactic.Linarith

/-!
# Block mappings between GPU blocks and storage files

One file holds `storage_block_size_factor` GPU blocks.  A load or a store cuts
the GPU block ids into one chunk for each file
(`split_block_ids_for_files`), and `build_block_mapping` pairs the sub-blocks
of a staging slot with the ids of a chunk.

Block ids are `np.int64` in the source; they are unbounded integers here.
-/

namespace PyKvCache.Transfer

/-- The `ValueError`s of `transfer.py` that the mapping functions raise. -/
inductive TransferError where
  | skipTooLarge
  | countsDoNotLineUp
  | shapeMismatch
  deriving DecidableEq, Repr

/-- The message of the exception. -/
def TransferError.message : TransferError → String
  | .skipTooLarge => "skip_count must be smaller than block_size_factor"
  | .countsDoNotLineUp =>
      "source and destination block counts do not line up"
  | .shapeMismatch => "could not broadcast input array"

/-- `ParsedKvLayout`: the base address of each GPU tensor, the bytes of one of
its blocks, and the number of GPU blocks in a storage block. -/
structure ParsedKvLayout where
  gpuTensors : List Int
  bytesPerKernelBlock : List Nat
  storageBlockSizeFactor : Nat
  sameLayers : gpuTensors.length = bytesPerKernelBlock.length
  factorPositive : 0 < storageBlockSizeFactor

namespace ParsedKvLayout

/-- `storage_block_bytes`. -/
def storageBlockBytes (layout : ParsedKvLayout) : Nat :=
  layout.storageBlockSizeFactor * layout.bytesPerKernelBlock.sum

/-- `gpu_blocks_per_storage_block`. -/
def gpuBlocksPerStorageBlock (layout : ParsedKvLayout) : Nat :=
  layout.storageBlockSizeFactor

end ParsedKvLayout

/-- One round of the loop of `_expand_block_ids`:
`base_block_id + np.arange(first, factor)`. -/
def expandBlock (blockId : Int) (factor first : Nat) : List Int :=
  (List.range' first (factor - first)).map
    fun sub : Nat => blockId * factor + (sub : Int)

/-- `_expand_block_ids`; only the first block id skips sub-blocks. -/
def expandBlockIds (blockIds : List Int) (factor skip : Nat) :
    Except TransferError (List Int) :=
  if factor ≤ skip then
    throw .skipTooLarge
  else
    match blockIds with
    | [] => pure []
    | first :: others =>
        pure (expandBlock first factor skip ++
          others.flatMap fun blockId => expandBlock blockId factor 0)

/-- `build_block_mapping`: the rows written to `output[:n]`, where `output`
has room for `rows` of them. -/
def buildBlockMapping
    (srcBlocks : List Int) (srcFactor : Nat)
    (dstBlocks : List Int) (dstFactor : Nat) (rows : Nat) :
    Except TransferError (List (Int × Int)) := do
  let srcSubBlocks : Int := srcBlocks.length * srcFactor
  let dstSubBlocks : Nat := dstBlocks.length * dstFactor
  let skip : Nat := (-(dstBlocks.length : Int) % srcFactor).toNat
  if (dstSubBlocks : Int) ≠ srcSubBlocks - skip then
    throw .countsDoNotLineUp
  let sources ← expandBlockIds srcBlocks srcFactor skip
  -- numpy refuses a slice shorter than the values assigned to it
  if rows < dstSubBlocks then
    throw .shapeMismatch
  let destinations ← expandBlockIds dstBlocks dstFactor 0
  return sources.zip destinations

/-- The loop of `split_block_ids_for_files` over the ids not yet handed out:
the chunks and the ids left over. -/
def splitLoop (blocksPerFile : Nat) :
    Nat → Nat → List Int → List (List Int) × List Int
  | 0, _, remaining => ([], remaining)
  | files + 1, size, remaining =>
      let (chunks, leftover) :=
        splitLoop blocksPerFile files blocksPerFile (remaining.drop size)
      (remaining.take size :: chunks, leftover)

/-- `first_block_skip`: the sub-block of file zero a transfer starts at. -/
def firstBlockSkip (layout : ParsedKvLayout) (firstBlockIndex : Int) : Nat :=
  (firstBlockIndex % layout.gpuBlocksPerStorageBlock).toNat

/-- `split_block_ids_for_files`. -/
def splitBlockIdsForFiles
    (layout : ParsedKvLayout) (blockIds : List Int) (fileCount : Nat)
    (firstBlockIndex : Int) : Except TransferError (List (List Int)) :=
  if fileCount = 0 then
    pure []
  else
    let blocksPerFile := layout.gpuBlocksPerStorageBlock
    let firstSize :=
      min blockIds.length
        (blocksPerFile - firstBlockSkip layout firstBlockIndex)
    match splitLoop blocksPerFile fileCount firstSize blockIds with
    | (chunks, []) => pure chunks
    | (_, _ :: _) => throw .countsDoNotLineUp

/-- The rows a reactor mapping buffer has room for. -/
def maxMappingEntries (layout : ParsedKvLayout) : Nat :=
  max 1 layout.storageBlockSizeFactor

/-- The mapping `_queue_load_copy` builds: staging sub-blocks of one slot to
the GPU blocks of one chunk. -/
def loadMapping (layout : ParsedKvLayout) (slotIndex : Int)
    (chunk : List Int) : Except TransferError (List (Int × Int)) :=
  buildBlockMapping [slotIndex] layout.storageBlockSizeFactor chunk 1
    (maxMappingEntries layout)

/-- The mapping `_schedule_store_copy` builds: GPU blocks of one chunk to the
staging sub-blocks of one slot. -/
def storeMapping (layout : ParsedKvLayout) (slotIndex : Int)
    (chunk : List Int) : Except TransferError (List (Int × Int)) :=
  buildBlockMapping chunk 1 [slotIndex] layout.storageBlockSizeFactor
    (maxMappingEntries layout)

/-! ## What one mapping contains -/

theorem neg_emod_factor {count factor : Nat}
    (positive : 0 < count) (bound : count ≤ factor) :
    (-(count : Int) % factor).toNat = factor - count := by
  have shifted : -(count : Int) % factor = (factor - count : Int) := by
    rw [← Int.add_emod_right]
    have reordered : -(count : Int) + factor = factor - count := by ring
    rw [reordered]
    exact Int.emod_eq_of_lt (by omega) (by omega)
  rw [shifted]
  omega

@[simp]
theorem expandBlock_one (blockId : Int) :
    expandBlock blockId 1 0 = [blockId] := by
  simp [expandBlock]

theorem expandBlockIds_one (blockIds : List Int) :
    expandBlockIds blockIds 1 0 = .ok blockIds := by
  cases blockIds with
  | nil => rfl
  | cons head tail =>
      rw [expandBlockIds, if_neg (by decide)]
      simp [pure, Except.pure]

theorem expandBlockIds_singleton {factor skip : Nat} (blockId : Int)
    (small : skip < factor) :
    expandBlockIds [blockId] factor skip =
      .ok (expandBlock blockId factor skip) := by
  rw [expandBlockIds, if_neg (by omega)]
  simp [pure, Except.pure]

/-- When the counts line up and the buffer is large enough, the mapping is the
two expansions side by side. -/
theorem buildBlockMapping_of_eq
    {srcBlocks dstBlocks sources destinations : List Int}
    {srcFactor dstFactor rows : Nat} (skip : Nat)
    (skipped : (-(dstBlocks.length : Int) % srcFactor).toNat = skip)
    (counts :
      ((dstBlocks.length * dstFactor : Nat) : Int) =
        srcBlocks.length * srcFactor - skip)
    (room : dstBlocks.length * dstFactor ≤ rows)
    (sourcesEq : expandBlockIds srcBlocks srcFactor skip = .ok sources)
    (destinationsEq :
      expandBlockIds dstBlocks dstFactor 0 = .ok destinations) :
    buildBlockMapping srcBlocks srcFactor dstBlocks dstFactor rows =
      .ok (sources.zip destinations) := by
  have notShort : ¬ rows < dstBlocks.length * dstFactor := by omega
  simp only [buildBlockMapping, skipped, counts, sourcesEq, destinationsEq,
    ne_eq, not_true_eq_false, notShort, if_false, pure, bind,
    Except.bind, Except.pure]

/-- A chunk of `count` ids takes the last `count` sub-blocks of the slot. -/
theorem loadMapping_of_le {layout : ParsedKvLayout} {slotIndex : Int}
    {chunk : List Int} (nonempty : 0 < chunk.length)
    (bound : chunk.length ≤ layout.storageBlockSizeFactor) :
    loadMapping layout slotIndex chunk =
      .ok ((expandBlock slotIndex layout.storageBlockSizeFactor
        (layout.storageBlockSizeFactor - chunk.length)).zip chunk) := by
  apply buildBlockMapping_of_eq _ (neg_emod_factor nonempty bound)
  · simp only [List.length_singleton, mul_one]
    omega
  · simp only [maxMappingEntries]
    omega
  · exact expandBlockIds_singleton slotIndex (by omega)
  · exact expandBlockIds_one chunk

/-- A store file is mapped only when its chunk fills the whole slot. -/
theorem storeMapping_of_eq {layout : ParsedKvLayout} {slotIndex : Int}
    {chunk : List Int}
    (full : chunk.length = layout.storageBlockSizeFactor) :
    storeMapping layout slotIndex chunk =
      .ok (chunk.zip
        (expandBlock slotIndex layout.storageBlockSizeFactor 0)) := by
  apply buildBlockMapping_of_eq 0
  · simp
  · simp [full]
  · simp [maxMappingEntries]
  · exact expandBlockIds_one chunk
  · exact expandBlockIds_singleton slotIndex layout.factorPositive

/-- A file left without blocks is refused. -/
theorem loadMapping_nil (layout : ParsedKvLayout) (slotIndex : Int) :
    loadMapping layout slotIndex [] = .error .countsDoNotLineUp := by
  have positive := layout.factorPositive
  have mismatch : ¬ (layout.storageBlockSizeFactor : Int) = 0 := by omega
  simp [loadMapping, buildBlockMapping, throw, throwThe,
    MonadExceptOf.throw, bind, Except.bind]
  intro equal
  exact absurd equal.symm (by omega)

/-- A mapping that was built has one row for each GPU block of the chunk. -/
theorem loadMapping_rows {layout : ParsedKvLayout} {slotIndex : Int}
    {chunk : List Int} {mapping : List (Int × Int)}
    (built : loadMapping layout slotIndex chunk = .ok mapping) :
    chunk ≠ [] ∧ mapping.map Prod.snd = chunk := by
  have nonempty : chunk ≠ [] := by
    rintro rfl
    rw [loadMapping_nil] at built
    cases built
  have positive := List.length_pos_iff.mpr nonempty
  have bound : chunk.length ≤ layout.storageBlockSizeFactor := by
    by_contra long
    have mismatch : ¬ ((chunk.length * 1 : Nat) : Int) =
        ([slotIndex].length : Int) * layout.storageBlockSizeFactor -
          ((-(chunk.length : Int) %
            layout.storageBlockSizeFactor).toNat : Int) := by
      simp only [List.length_singleton]
      omega
    simp only [loadMapping, buildBlockMapping, ne_eq, mismatch,
      not_false_eq_true, if_true, throw, throwThe, MonadExceptOf.throw,
      bind, Except.bind] at built
    cases built
  rw [loadMapping_of_le positive bound] at built
  cases built
  refine ⟨nonempty, List.map_snd_zip ?_⟩
  simp only [expandBlock, List.length_map, List.length_range']
  omega

end PyKvCache.Transfer
