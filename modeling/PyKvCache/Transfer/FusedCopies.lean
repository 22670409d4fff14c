import PyKvCache.Library.FixedArray
import PyKvCache.Transfer.RoundTrip

/-!
# Load copies in one launch

`_flush_copy_batch` writes the pointers of all load copies that are ready into
three arrays, one copy behind the other, and launches them together.  The
arrays are kept from launch to launch and only grow.
-/

namespace PyKvCache.Transfer

open PyKvCache.Library

/-! ## The copies that are ready -/

/-- `_ReadyCopy`: the slot and the mapping of a load copy. -/
structure ReadyCopy where
  slotIndex : Int
  mappingLen : Nat
  mapping : List (Int × Int)
  deriving DecidableEq, Repr

/-- `_queue_load_copy`, for one chunk of a job.  The mapping is a snapshot of
the buffer of the slot. -/
def queueLoadCopy (layout : ParsedKvLayout) (slotIndex : Int)
    (chunk : List Int) : Except TransferError ReadyCopy := do
  let mapping ← loadMapping layout slotIndex chunk
  pure ⟨slotIndex, mapping.length, mapping⟩

/-! ## The arrays -/

/-- `_fused_src_np`, `_fused_dst_np`, `_fused_sizes_np` and
`_fused_capacity`. -/
structure FusedArrays where
  capacity : Nat
  src : FixedArray Int capacity
  dst : FixedArray Int capacity
  sizes : FixedArray Int capacity

/-- `np.empty(cap)`: whatever the memory contains. -/
def npEmpty (garbage : Nat → Int) (cap : Nat) : FixedArray Int cap where
  items := (List.range cap).map garbage
  sized := by rw [List.length_map, List.length_range]

/-- `_ensure_fused_capacity`; `garbage` is what the memory contains. -/
def ensureFusedCapacity (garbage : Nat → Int) (arrays : FusedArrays)
    (entries : Nat) : FusedArrays :=
  if entries ≤ arrays.capacity then
    arrays
  else
    let cap := max (max entries (arrays.capacity * 2)) 1024
    ⟨cap, npEmpty garbage cap, npEmpty garbage cap, npEmpty garbage cap⟩

/-- An assignment to a slice that numpy may refuse. -/
def assigned {cap : Nat} :
    Option (FixedArray Int cap) → Except TransferError (FixedArray Int cap)
  | some array => pure array
  | none => throw .shapeMismatch

section Fill

variable (layout : ParsedKvLayout) (stagingBase : Int)

/-- One layer in the loop of `_fill_swap_ptrs`, from the running offset on. -/
def fillLayer (mapping : List (Int × Int)) (slotIndex : Int)
    (stagingIsSrc : Bool) (filled : FusedArrays × Nat) (layer : Layer) :
    Except TransferError (FusedArrays × Nat) := do
  let (arrays, start) := filled
  let stop := start + mapping.length
  let copies := mapping.map
    (swapPointer layout stagingBase slotIndex stagingIsSrc layer)
  let src ← assigned
    (arrays.src.assignSlice start stop (copies.map BlockCopy.src))
  let dst ← assigned
    (arrays.dst.assignSlice start stop (copies.map BlockCopy.dst))
  let sizes := arrays.sizes.fillSlice start stop layer.blockBytes
  pure (⟨arrays.capacity, src, dst, sizes⟩, stop)

/-- `_fill_swap_ptrs`, into arrays that are shared. -/
def fillSwapArrays (mapping : List (Int × Int)) (slotIndex : Int)
    (stagingIsSrc : Bool) (arrays : FusedArrays) (offset : Nat) :
    Except TransferError (FusedArrays × Nat) :=
  layout.layers.foldlM
    (fillLayer layout stagingBase mapping slotIndex stagingIsSrc)
    (arrays, offset)

/-- The three tensors of one `swap_blocks_batch`. -/
structure SwapBatch where
  src : List Int
  dst : List Int
  sizes : List Int
  deriving DecidableEq, Repr

/-- `_flush_copy_batch` as far as the launch: the arrays afterwards and the
tensors, when there is a launch. -/
def flushCopyBatch (garbage : Nat → Int) (arrays : FusedArrays)
    (ready : List ReadyCopy) :
    Except TransferError (FusedArrays × Option SwapBatch) := do
  if ready = [] then
    pure (arrays, none)
  else
    let total := (ready.map ReadyCopy.mappingLen).sum
    if total ≤ 0 then
      -- the copies are settled without a launch
      pure (arrays, none)
    else
      let grown := ensureFusedCapacity garbage arrays
        (total * layout.gpuTensors.length)
      let (filled, offset) ← ready.foldlM
        (fun filled copy => fillSwapArrays layout stagingBase copy.mapping
          copy.slotIndex true filled.1 filled.2) (grown, 0)
      pure (filled, some ⟨filled.src.items.take offset,
        filled.dst.items.take offset, filled.sizes.items.take offset⟩)

end Fill

/-! ## The mappings -/

/-- The rows of an accepted mapping are sub-blocks of the slot. -/
structure MapsSlot (layout : ParsedKvLayout) (copy : ReadyCopy) : Prop where
  counted : copy.mappingLen = copy.mapping.length
  nonempty : 0 < copy.mappingLen
  within : ∀ row ∈ copy.mapping, ∃ sub : Nat,
    sub < layout.storageBlockSizeFactor ∧
      row.1 = copy.slotIndex * layout.storageBlockSizeFactor + sub

/-- A chunk is accepted only if it fits into the slot. -/
theorem chunk_bounds_of_loadMapping {layout : ParsedKvLayout}
    {slotIndex : Int} {chunk : List Int} {mapping : List (Int × Int)}
    (accepted : loadMapping layout slotIndex chunk = .ok mapping) :
    0 < chunk.length ∧ chunk.length ≤ layout.storageBlockSizeFactor := by
  have positive := layout.factorPositive
  constructor
  · apply Nat.pos_of_ne_zero
    intro empty
    rw [List.length_eq_zero_iff] at empty
    rw [empty, loadMapping_nil] at accepted
    cases accepted
  · apply Nat.le_of_not_lt
    intro tooLong
    have skip := Int.emod_nonneg (-(chunk.length : Int))
      (by omega : (layout.storageBlockSizeFactor : Int) ≠ 0)
    have refused :
        ((chunk.length * 1 : Nat) : Int) ≠
          ([slotIndex].length : Int) * layout.storageBlockSizeFactor -
            ((-(chunk.length : Int) %
              layout.storageBlockSizeFactor).toNat : Int) := by
      simp only [List.length_singleton]
      omega
    rw [loadMapping, buildBlockMapping] at accepted
    simp only [refused, ne_eq, not_false_eq_true, if_true] at accepted
    cases accepted

theorem mapsSlot_of_queueLoadCopy {layout : ParsedKvLayout}
    {slotIndex : Int} {chunk : List Int} {copy : ReadyCopy}
    (queued : queueLoadCopy layout slotIndex chunk = .ok copy) :
    copy.slotIndex = slotIndex ∧ MapsSlot layout copy := by
  rw [queueLoadCopy] at queued
  cases accepted : loadMapping layout slotIndex chunk with
  | error raised =>
      rw [accepted] at queued
      cases queued
  | ok mapping =>
      obtain ⟨nonempty, bound⟩ := chunk_bounds_of_loadMapping accepted
      rw [accepted] at queued
      rw [loadMapping_of_le nonempty bound] at accepted
      cases queued
      cases accepted
      refine ⟨rfl, rfl, ?_, ?_⟩
      · simp only [List.length_zip, expandBlock, List.length_map,
          List.length_range']
        omega
      · intro row member
        have source := (List.of_mem_zip member).1
        rw [expandBlock, List.mem_map] at source
        obtain ⟨sub, listed, same⟩ := source
        rw [List.mem_range'_1] at listed
        exact ⟨sub, by omega, same.symm⟩

/-! ## What the arrays hold -/

/-- The arrays start with the pointers of the copies. -/
structure FusedArrays.Holds (arrays : FusedArrays)
    (copies : List BlockCopy) : Prop where
  src : copies.map BlockCopy.src <+: arrays.src.items
  dst : copies.map BlockCopy.dst <+: arrays.dst.items
  sizes : (copies.map fun copy => (copy.size : Int)) <+: arrays.sizes.items

/-- A loop went on from arrays that hold `before` and appended `new`. -/
def Appends (arrays : FusedArrays) (before new : List BlockCopy)
    (outcome : Except TransferError (FusedArrays × Nat)) : Prop :=
  ∃ after, outcome = .ok (after, (before ++ new).length) ∧
    after.capacity = arrays.capacity ∧ after.Holds (before ++ new)

section Loops

variable {layout : ParsedKvLayout} {stagingBase : Int}
  {arrays : FusedArrays} {before : List BlockCopy}

/-- One layer appends the copies of all rows. -/
theorem fillLayer_appends {mapping : List (Int × Int)} {slotIndex : Int}
    {stagingIsSrc : Bool} (layer : Layer) (held : arrays.Holds before)
    (room : before.length + mapping.length ≤ arrays.capacity) :
    Appends arrays before
      (mapping.map
        (swapPointer layout stagingBase slotIndex stagingIsSrc layer))
      (fillLayer layout stagingBase mapping slotIndex stagingIsSrc
        (arrays, before.length) layer) := by
  have sizes : (mapping.map
      (swapPointer layout stagingBase slotIndex stagingIsSrc layer)).map
        (fun copy => (copy.size : Int)) =
          List.replicate mapping.length (layer.blockBytes : Int) := by
    rw [List.map_map, List.eq_replicate_iff]
    constructor
    · rw [List.length_map]
    · intro size member
      obtain ⟨row, _, same⟩ := List.mem_map.mp member
      rw [← same]
      cases stagingIsSrc <;> rfl
  generalize mapped : mapping.map
    (swapPointer layout stagingBase slotIndex stagingIsSrc layer) = copies
    at sizes ⊢
  have count : copies.length = mapping.length := by
    rw [← mapped, List.length_map]
  obtain ⟨src, srcAssigned, srcHeld⟩ := FixedArray.assignSlice_prefix
    (copies.map BlockCopy.src) held.src (by simpa [count] using room)
  obtain ⟨dst, dstAssigned, dstHeld⟩ := FixedArray.assignSlice_prefix
    (copies.map BlockCopy.dst) held.dst (by simpa [count] using room)
  have sizesHeld := FixedArray.fillSlice_prefix mapping.length
    (layer.blockBytes : Int) held.sizes (by simpa using room)
  simp only [List.length_map, count] at srcAssigned dstAssigned sizesHeld
  have outcome : fillLayer layout stagingBase mapping slotIndex
      stagingIsSrc (arrays, before.length) layer =
        .ok (⟨arrays.capacity, src, dst,
          arrays.sizes.fillSlice before.length
            (before.length + mapping.length) layer.blockBytes⟩,
          before.length + mapping.length) := by
    simp only [fillLayer, mapped, srcAssigned, dstAssigned, assigned]
    rfl
  have length : before.length + mapping.length =
      (before ++ copies).length := by
    rw [List.length_append, count]
  rw [length] at outcome
  refine ⟨_, outcome, rfl, ?_, ?_, ?_⟩
  · rw [List.map_append]
    exact srcHeld
  · rw [List.map_append]
    exact dstHeld
  · rw [List.map_append, sizes, ← length]
    exact sizesHeld

/-- A loop whose rounds append appends what they do, one after the other. -/
theorem foldlM_appends {item : Type} (copiesOf : item → List BlockCopy)
    (round : FusedArrays × Nat → item →
      Except TransferError (FusedArrays × Nat))
    (rounds : ∀ x (arrays : FusedArrays) before, arrays.Holds before →
      before.length + (copiesOf x).length ≤ arrays.capacity →
        Appends arrays before (copiesOf x)
          (round (arrays, before.length) x))
    (items : List item) (held : arrays.Holds before)
    (room : before.length + (items.flatMap copiesOf).length ≤
      arrays.capacity) :
    Appends arrays before (items.flatMap copiesOf)
      (items.foldlM round (arrays, before.length)) := by
  induction items generalizing arrays before with
  | nil =>
      refine ⟨arrays, ?_, rfl, ?_⟩
      · simp only [List.foldlM_nil, List.flatMap_nil, List.append_nil]
        rfl
      · simpa using held
  | cons x items inductionHypothesis =>
      rw [List.flatMap_cons, List.length_append] at room
      obtain ⟨middle, first, capacity, middleHeld⟩ :=
        rounds x arrays before held (by omega)
      obtain ⟨after, others, afterCapacity, afterHeld⟩ :=
        inductionHypothesis middleHeld (by
          rw [List.length_append, capacity]
          omega)
      rw [List.append_assoc, ← List.flatMap_cons] at others afterHeld
      refine ⟨after, ?_, afterCapacity.trans capacity, afterHeld⟩
      rw [List.foldlM_cons, first]
      exact others

/-- `_fill_swap_ptrs` appends its copies at the running offset. -/
theorem fillSwapArrays_appends {mapping : List (Int × Int)}
    {slotIndex : Int} {stagingIsSrc : Bool} (held : arrays.Holds before)
    (room : before.length +
        (fillSwapPtrs layout stagingBase mapping slotIndex
          stagingIsSrc).length ≤ arrays.capacity) :
    Appends arrays before
      (fillSwapPtrs layout stagingBase mapping slotIndex stagingIsSrc)
      (fillSwapArrays layout stagingBase mapping slotIndex stagingIsSrc
        arrays before.length) := by
  apply foldlM_appends _ _ _ layout.layers held room
  intro layer arrays before held room
  rw [List.length_map] at room
  exact fillLayer_appends layer held room

end Loops

/-! ## The launch -/

/-- What a copy alone would produce. -/
def ReadyCopy.alone (layout : ParsedKvLayout) (stagingBase : Int)
    (copy : ReadyCopy) : List BlockCopy :=
  fillSwapPtrs layout stagingBase copy.mapping copy.slotIndex true

theorem ensureFusedCapacity_fits (garbage : Nat → Int)
    (arrays : FusedArrays) (entries : Nat) :
    entries ≤ (ensureFusedCapacity garbage arrays entries).capacity := by
  unfold ensureFusedCapacity
  split
  next fits => exact fits
  next => exact (Nat.le_max_left _ _).trans (Nat.le_max_left _ _)

theorem length_layers (layout : ParsedKvLayout) :
    layout.layers.length = layout.gpuTensors.length := by
  have offsets : ∀ factor acc sizes,
      (layerOffsetsFrom factor acc sizes).length = sizes.length := by
    intro factor acc sizes
    induction sizes generalizing acc with
    | nil => rfl
    | cons size sizes inductionHypothesis =>
        rw [layerOffsetsFrom, List.length_cons, inductionHypothesis,
          List.length_cons]
  have same := layout.sameLayers
  simp only [ParsedKvLayout.layers, ParsedKvLayout.stagingLayerOffsets,
    List.length_map, List.length_zip, offsets]
  omega

/-- The entries the capacity is computed for are those that are written. -/
theorem length_flatMap_alone {layout : ParsedKvLayout} (stagingBase : Int)
    {ready : List ReadyCopy}
    (mapped : ∀ copy ∈ ready, MapsSlot layout copy) :
    (ready.flatMap (ReadyCopy.alone layout stagingBase)).length =
      (ready.map ReadyCopy.mappingLen).sum *
        layout.gpuTensors.length := by
  have one : ∀ copy : ReadyCopy, copy.mappingLen = copy.mapping.length →
      (copy.alone layout stagingBase).length =
        copy.mappingLen * layout.gpuTensors.length := by
    intro copy counted
    rw [ReadyCopy.alone, fillSwapPtrs, List.length_flatMap]
    simp only [List.length_map, List.map_const', List.sum_replicate_nat,
      length_layers, counted]
    exact Nat.mul_comm _ _
  induction ready with
  | nil => simp
  | cons copy ready inductionHypothesis =>
      have later := inductionHypothesis fun other member =>
        mapped other (List.mem_cons_of_mem copy member)
      have first := one copy (mapped copy List.mem_cons_self).counted
      rw [List.flatMap_cons, List.length_append, first, later,
        List.map_cons, List.sum_cons, Nat.add_mul]

/-- The arrays and the tensors of a launch of the copies that are ready. -/
theorem flushCopyBatch_launches {layout : ParsedKvLayout}
    (stagingBase : Int) (garbage : Nat → Int) (arrays : FusedArrays)
    {ready : List ReadyCopy} (nonempty : ready ≠ [])
    (mapped : ∀ copy ∈ ready, MapsSlot layout copy) :
    ∃ after copies,
      copies = ready.flatMap (ReadyCopy.alone layout stagingBase) ∧
      copies.length ≤ after.capacity ∧
      flushCopyBatch layout stagingBase garbage arrays ready =
        .ok (after, some ⟨copies.map BlockCopy.src,
          copies.map BlockCopy.dst,
          copies.map fun copy => (copy.size : Int)⟩) := by
  have positive : ¬ (ready.map ReadyCopy.mappingLen).sum ≤ 0 := by
    obtain ⟨copy, others, same⟩ := List.exists_cons_of_ne_nil nonempty
    have member : copy ∈ ready := by
      rw [same]
      exact List.mem_cons_self
    have rows := (mapped copy member).nonempty
    rw [same, List.map_cons, List.sum_cons]
    omega
  have entries := length_flatMap_alone stagingBase mapped
  have capacity := ensureFusedCapacity_fits garbage arrays
    ((ready.map ReadyCopy.mappingLen).sum * layout.gpuTensors.length)
  rw [flushCopyBatch, if_neg nonempty]
  simp only [if_neg positive]
  generalize ensureFusedCapacity garbage arrays
    ((ready.map ReadyCopy.mappingLen).sum * layout.gpuTensors.length) =
      grown at capacity ⊢
  have empty : grown.Holds [] :=
    ⟨List.nil_prefix, List.nil_prefix, List.nil_prefix⟩
  obtain ⟨after, outcome, sameCapacity, held⟩ := foldlM_appends
    (ReadyCopy.alone layout stagingBase)
    (fun filled copy => fillSwapArrays layout stagingBase copy.mapping
      copy.slotIndex true filled.1 filled.2)
    (fun _ _ _ held room => fillSwapArrays_appends held room) ready empty
    (by rw [entries]; simpa using capacity)
  rw [List.nil_append] at outcome held
  refine ⟨after, _, rfl, ?_, ?_⟩
  · rw [entries, sameCapacity]
    exact capacity
  · have src := List.prefix_iff_eq_take.mp held.src
    have dst := List.prefix_iff_eq_take.mp held.dst
    have sizes := List.prefix_iff_eq_take.mp held.sizes
    rw [List.length_map] at src dst sizes
    rw [List.length_nil] at outcome
    rw [outcome, src, dst, sizes]
    rfl

/-! ## Where the sources lie -/

section Sources

variable {layout : ParsedKvLayout} {stagingBase : Int}
  {copy other : ReadyCopy} {layer otherLayer : Layer}
  {row otherRow : Int × Int}

/-- Where the source of a row starts in a layer. -/
def sourceOf (layout : ParsedKvLayout) (stagingBase : Int)
    (copy : ReadyCopy) (layer : Layer) (row : Int × Int) : Int :=
  (swapPointer layout stagingBase copy.slotIndex true layer row).src

/-- The sub-block of its slot that a row reads. -/
def subBlock (layout : ParsedKvLayout) (copy : ReadyCopy)
    (row : Int × Int) : Int :=
  row.1 - copy.slotIndex * layout.storageBlockSizeFactor

/-- A row reads one sub-block of the layer's part of its slot. -/
theorem sourceOf_bounds (mapped : MapsSlot layout copy)
    (inRows : row ∈ copy.mapping) :
    ∃ sub : Nat, sub < layout.storageBlockSizeFactor ∧
      subBlock layout copy row = sub ∧
      sourceOf layout stagingBase copy layer row =
        slotBase layout stagingBase copy.slotIndex +
          layer.stagingOffset + (sub : Int) * layer.blockBytes := by
  obtain ⟨sub, small, same⟩ := mapped.within row inRows
  refine ⟨sub, small, ?_, ?_⟩
  · rw [subBlock, same]
    omega
  · have local_eq : row.1 - copy.slotIndex *
        layout.storageBlockSizeFactor = (sub : Int) := by
      rw [same]
      omega
    simp only [sourceOf, swapPointer, if_true, local_eq]

/-- The part of a slot that a sub-block lies in. -/
private theorem sub_mul_le {sub factor : Nat} (size : Nat)
    (small : sub < factor) :
    (sub : Int) * size + size ≤ (factor * size : Nat) := by
  rw [Nat.cast_mul]
  exact succ_mul_le size (by omega)

/-- The source of a row lies in the layer's part of its slot. -/
theorem sourceOf_part (mapped : MapsSlot layout copy)
    (inRows : row ∈ copy.mapping) :
    slotBase layout stagingBase copy.slotIndex + layer.stagingOffset ≤
        sourceOf layout stagingBase copy layer row ∧
      sourceOf layout stagingBase copy layer row + layer.blockBytes ≤
        slotBase layout stagingBase copy.slotIndex + layer.stagingOffset +
          (layout.storageBlockSizeFactor * layer.blockBytes : Nat) := by
  obtain ⟨sub, small, _, same⟩ := @sourceOf_bounds layout stagingBase copy
    layer row mapped inRows
  have bound := sub_mul_le layer.blockBytes small
  have start : 0 ≤ (sub : Int) * (layer.blockBytes : Int) :=
    Int.mul_nonneg (by omega) (by omega)
  rw [same]
  omega

/-- The source of a row lies in the region of its slot. -/
theorem sourceOf_inside (mapped : MapsSlot layout copy)
    (inRows : row ∈ copy.mapping) (inLayers : layer ∈ layout.layers) :
    slotBase layout stagingBase copy.slotIndex ≤
        sourceOf layout stagingBase copy layer row ∧
      sourceOf layout stagingBase copy layer row + layer.blockBytes ≤
        slotBase layout stagingBase copy.slotIndex +
          layout.storageBlockBytes := by
  have part := @sourceOf_part layout stagingBase copy layer row mapped
    inRows
  have inSlot := Layer.part_le inLayers
  omega

/-- Blocks of which one ends before the other starts. -/
private theorem blocksDisjoint_of_le {left right : Int}
    {leftSize rightSize : Nat}
    (before : left + leftSize ≤ right ∨ right + rightSize ≤ left) :
    BlocksDisjoint left leftSize right rightSize := by
  intro address inLeft inRight
  obtain ⟨leftLower, leftUpper⟩ := inLeft
  obtain ⟨rightLower, rightUpper⟩ := inRight
  omega

/-- The regions of two slots follow each other. -/
private theorem slotBase_add_le {slot otherSlot : Int}
    (before : slot < otherSlot) :
    slotBase layout stagingBase slot + layout.storageBlockBytes ≤
      slotBase layout stagingBase otherSlot := by
  have regions := succ_mul_le layout.storageBlockBytes before
  simp only [slotBase]
  omega

/-- The parts of two layers follow each other. -/
private theorem layer_parts_le {index otherIndex : Nat}
    (before : index < otherIndex)
    (atIndex : layout.layers[index]? = some layer)
    (atOther : layout.layers[otherIndex]? = some otherLayer) :
    layer.stagingOffset +
        layout.storageBlockSizeFactor * layer.blockBytes ≤
      otherLayer.stagingOffset := by
  obtain ⟨bound, same⟩ := List.getElem?_eq_some_iff.mp atIndex
  obtain ⟨otherBound, otherSame⟩ := List.getElem?_eq_some_iff.mp atOther
  have ordered := List.pairwise_iff_getElem.mp
    (layers_pairwise_parts layout) index otherIndex bound otherBound before
  rwa [same, otherSame] at ordered

/-- Different sub-blocks, layers or slots have no byte in common. -/
theorem sourceOf_apart (mapped : MapsSlot layout copy)
    (otherMapped : MapsSlot layout other) (inRows : row ∈ copy.mapping)
    (inOther : otherRow ∈ other.mapping) {index otherIndex : Nat}
    (atIndex : layout.layers[index]? = some layer)
    (atOther : layout.layers[otherIndex]? = some otherLayer)
    (different : (copy.slotIndex, index, subBlock layout copy row) ≠
      (other.slotIndex, otherIndex, subBlock layout other otherRow)) :
    BlocksDisjoint (sourceOf layout stagingBase copy layer row)
      layer.blockBytes
      (sourceOf layout stagingBase other otherLayer otherRow)
      otherLayer.blockBytes := by
  have inside := @sourceOf_inside layout stagingBase copy layer row mapped
    inRows (List.mem_of_getElem? atIndex)
  have otherInside := @sourceOf_inside layout stagingBase other otherLayer
    otherRow otherMapped inOther (List.mem_of_getElem? atOther)
  have part := @sourceOf_part layout stagingBase copy layer row mapped
    inRows
  have otherPart := @sourceOf_part layout stagingBase other otherLayer
    otherRow otherMapped inOther
  rcases Int.lt_trichotomy copy.slotIndex other.slotIndex with
    before | sameSlot | behind
  · have regions := @slotBase_add_le layout stagingBase _ _ before
    exact blocksDisjoint_of_le (Or.inl (by omega))
  · rw [sameSlot] at part
    rcases Nat.lt_trichotomy index otherIndex with
      before | sameIndex | behind
    · have ordered := layer_parts_le before atIndex atOther
      exact blocksDisjoint_of_le (Or.inl (by omega))
    · rw [sameIndex, atOther] at atIndex
      have sameLayer : otherLayer = layer := Option.some.inj atIndex
      obtain ⟨sub, _, subEq, same⟩ := @sourceOf_bounds layout stagingBase
        copy layer row mapped inRows
      obtain ⟨otherSub, _, otherSubEq, otherSame⟩ := @sourceOf_bounds
        layout stagingBase other otherLayer otherRow otherMapped inOther
      have subs : (sub : Int) ≠ otherSub := by
        intro equal
        apply different
        rw [sameSlot, sameIndex, subEq, otherSubEq, equal]
      rw [same, otherSame, sameSlot, sameLayer]
      exact blocksDisjoint_of_ne subs
    · have ordered := layer_parts_le behind atOther atIndex
      exact blocksDisjoint_of_le (Or.inr (by omega))
  · have regions := @slotBase_add_le layout stagingBase _ _ behind
    exact blocksDisjoint_of_le (Or.inr (by omega))

end Sources

/-! ## Fusing -/

/-- One launch does what a launch for each copy would do, within the arrays
and within the slots. -/
structure Fuses (layout : ParsedKvLayout) (stagingBase : Int)
    (ready : List ReadyCopy) (after : FusedArrays) (batch : SwapBatch) :
    Prop where
  src : batch.src = ready.flatMap fun copy =>
    (copy.alone layout stagingBase).map BlockCopy.src
  dst : batch.dst = ready.flatMap fun copy =>
    (copy.alone layout stagingBase).map BlockCopy.dst
  sizes : batch.sizes = ready.flatMap fun copy =>
    (copy.alone layout stagingBase).map fun entry => (entry.size : Int)
  fits : batch.src.length ≤ after.capacity ∧
    batch.dst.length ≤ after.capacity ∧
    batch.sizes.length ≤ after.capacity
  inside : ∀ copy ∈ ready, ∀ entry ∈ copy.alone layout stagingBase,
    slotBase layout stagingBase copy.slotIndex ≤ entry.src ∧
      entry.src + entry.size ≤
        slotBase layout stagingBase copy.slotIndex +
          layout.storageBlockBytes
  apart : ∀ copy ∈ ready, ∀ other ∈ ready,
    ∀ (index otherIndex : Nat) layer otherLayer,
      layout.layers[index]? = some layer →
      layout.layers[otherIndex]? = some otherLayer →
      ∀ row ∈ copy.mapping, ∀ otherRow ∈ other.mapping,
        (copy.slotIndex, index, subBlock layout copy row) ≠
            (other.slotIndex, otherIndex,
              subBlock layout other otherRow) →
          BlocksDisjoint (sourceOf layout stagingBase copy layer row)
            layer.blockBytes
            (sourceOf layout stagingBase other otherLayer otherRow)
            otherLayer.blockBytes

/-- Whatever the arrays held before, the copies that are ready are launched
together as they would be one by one. -/
theorem flushCopyBatch_fuses {layout : ParsedKvLayout} (stagingBase : Int)
    (garbage : Nat → Int) (arrays : FusedArrays) {ready : List ReadyCopy}
    (nonempty : ready ≠ [])
    (queued : ∀ copy ∈ ready, ∃ chunk,
      queueLoadCopy layout copy.slotIndex chunk = .ok copy) :
    ∃ after batch,
      flushCopyBatch layout stagingBase garbage arrays ready =
        .ok (after, some batch) ∧
      Fuses layout stagingBase ready after batch := by
  have mapped : ∀ copy ∈ ready, MapsSlot layout copy := by
    intro copy member
    obtain ⟨chunk, built⟩ := queued copy member
    exact (mapsSlot_of_queueLoadCopy built).2
  obtain ⟨after, copies, fused, fits, launched⟩ :=
    flushCopyBatch_launches stagingBase garbage arrays nonempty mapped
  refine ⟨after, _, launched, ?_, ?_, ?_, ?_, ?_, ?_⟩
  · have entries := congrArg (List.map BlockCopy.src) fused
    rwa [List.map_flatMap] at entries
  · have entries := congrArg (List.map BlockCopy.dst) fused
    rwa [List.map_flatMap] at entries
  · have entries :=
      congrArg (List.map fun entry => (entry.size : Int)) fused
    rwa [List.map_flatMap] at entries
  · simp only [List.length_map]
    exact ⟨fits, fits, fits⟩
  · intro copy member entry inEntries
    rw [ReadyCopy.alone, fillSwapPtrs, List.mem_flatMap] at inEntries
    obtain ⟨layer, inLayers, rows⟩ := inEntries
    obtain ⟨row, inRows, same⟩ := List.mem_map.mp rows
    have inside := @sourceOf_inside layout stagingBase copy layer row
      (mapped copy member) inRows inLayers
    rw [← same]
    exact inside
  · intro copy member other otherMember index otherIndex layer otherLayer
      atIndex atOther row inRows otherRow inOther different
    exact sourceOf_apart (mapped copy member) (mapped other otherMember)
      inRows inOther atIndex atOther different

/-- A copy that fills the second slot and one that ends the first slot. -/
def raggedReady : List ReadyCopy :=
  [⟨1, 2, [(2, 7), (3, 4)]⟩, ⟨0, 1, [(1, 9)]⟩]

theorem raggedReady_fuses :
    ∃ after batch,
      flushCopyBatch raggedLayout 1000 (fun place => place)
        (ensureFusedCapacity (fun _ => 5)
          ⟨0, npEmpty (fun _ => 0) 0, npEmpty (fun _ => 0) 0,
            npEmpty (fun _ => 0) 0⟩ 1) raggedReady =
        .ok (after, some batch) ∧
      Fuses raggedLayout 1000 raggedReady after batch := by
  apply flushCopyBatch_fuses
  · decide
  · intro copy member
    simp only [raggedReady, List.mem_cons, List.not_mem_nil, or_false]
      at member
    rcases member with first | second
    · exact ⟨[7, 4], by rw [first]; rfl⟩
    · exact ⟨[9], by rw [second]; rfl⟩

end PyKvCache.Transfer
