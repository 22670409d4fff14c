import PyKvCache.Library.BlockCopy
import PyKvCache.Transfer.BlockMapping

/-!
# The pointer arrays of a block copy

`_fill_swap_ptrs` turns the mapping of one staging slot into the source,
destination and size of each block copy, layer by layer.  The three arrays are
one list of block copies here.

The slot's region of the staging buffer is cut into one part for each layer
(`staging_layer_offsets`).
-/

namespace PyKvCache.Transfer

open PyKvCache.Library

/-- One layer as the `zip` of `_fill_swap_ptrs` presents it. -/
structure Layer where
  tensor : Int
  blockBytes : Nat
  stagingOffset : Nat
  deriving DecidableEq, Repr

/-- The loop of `staging_layer_offsets`, started at `acc`. -/
def layerOffsetsFrom (factor : Nat) : Nat → List Nat → List Nat
  | _, [] => []
  | acc, nbytes :: later =>
      acc :: layerOffsetsFrom factor (acc + factor * nbytes) later

namespace ParsedKvLayout

/-- `staging_layer_offsets`. -/
def stagingLayerOffsets (layout : ParsedKvLayout) : List Nat :=
  layerOffsetsFrom layout.storageBlockSizeFactor 0
    layout.bytesPerKernelBlock

/-- `zip(gpu_tensors, bytes_per_kernel_block, staging_layer_offsets)`. -/
def layers (layout : ParsedKvLayout) : List Layer :=
  (layout.gpuTensors.zip
    (layout.bytesPerKernelBlock.zip layout.stagingLayerOffsets)).map
      fun entry => ⟨entry.1, entry.2.1, entry.2.2⟩

end ParsedKvLayout

/-- `slot_base`. -/
def slotBase (layout : ParsedKvLayout) (stagingBase slotIndex : Int) : Int :=
  stagingBase + slotIndex * layout.storageBlockBytes

/-- The copy of one row of a mapping in one layer. -/
def swapPointer (layout : ParsedKvLayout) (stagingBase slotIndex : Int)
    (stagingIsSrc : Bool) (layer : Layer) (row : Int × Int) : BlockCopy :=
  let stagingGlobal := if stagingIsSrc then row.1 else row.2
  let gpuBlock := if stagingIsSrc then row.2 else row.1
  let stagingLocal :=
    stagingGlobal - slotIndex * layout.storageBlockSizeFactor
  let stagingPtr :=
    slotBase layout stagingBase slotIndex + layer.stagingOffset +
      stagingLocal * layer.blockBytes
  let gpuPtr := layer.tensor + gpuBlock * layer.blockBytes
  if stagingIsSrc then
    ⟨stagingPtr, gpuPtr, layer.blockBytes⟩
  else
    ⟨gpuPtr, stagingPtr, layer.blockBytes⟩

/-- `_fill_swap_ptrs`: all rows of the first layer, then of the next. -/
def fillSwapPtrs (layout : ParsedKvLayout) (stagingBase : Int)
    (mapping : List (Int × Int)) (slotIndex : Int) (stagingIsSrc : Bool) :
    List BlockCopy :=
  layout.layers.flatMap fun layer =>
    mapping.map
      (swapPointer layout stagingBase slotIndex stagingIsSrc layer)

/-! ## The parts of a slot -/

/-- A layer's part of the slot ends before the total size. -/
theorem layerOffsetsFrom_bound
    (factor : Nat) :
    ∀ (acc : Nat) {sizes : List Nat} {entry : Nat × Nat},
      entry ∈ sizes.zip (layerOffsetsFrom factor acc sizes) →
        acc ≤ entry.2 ∧
          entry.2 + factor * entry.1 ≤ acc + factor * sizes.sum
  | _, [], _, member => by cases member
  | acc, size :: later, entry, member => by
      rw [layerOffsetsFrom, List.zip_cons_cons, List.mem_cons] at member
      rw [List.sum_cons, Nat.mul_add]
      rcases member with rfl | inLater
      · exact ⟨Nat.le_refl _, by simp only; omega⟩
      · have bound := layerOffsetsFrom_bound _ _ inLater
        exact ⟨by omega, by omega⟩

/-- The parts of different layers follow each other. -/
theorem layerOffsetsFrom_pairwise
    (factor acc : Nat) (sizes : List Nat) :
    (sizes.zip (layerOffsetsFrom factor acc sizes)).Pairwise
      fun left right => left.2 + factor * left.1 ≤ right.2 := by
  induction sizes generalizing acc with
  | nil => exact List.Pairwise.nil
  | cons size later inductionHypothesis =>
      rw [layerOffsetsFrom, List.zip_cons_cons, List.pairwise_cons]
      refine ⟨?_, inductionHypothesis _⟩
      intro entry inLater
      exact (layerOffsetsFrom_bound _ _ inLater).1

theorem mem_of_mem_zip_right {α β : Type} {left : List α} {right : List β}
    {entry : α × β} (member : entry ∈ left.zip right) :
    entry.2 ∈ right :=
  (List.of_mem_zip (a := entry.1) (b := entry.2) member).2

theorem Layer.part_le {layout : ParsedKvLayout} {layer : Layer}
    (member : layer ∈ layout.layers) :
    layer.stagingOffset +
        layout.storageBlockSizeFactor * layer.blockBytes ≤
      layout.storageBlockBytes := by
  simp only [ParsedKvLayout.layers, List.mem_map] at member
  obtain ⟨entry, inZip, rfl⟩ := member
  have bound :=
    layerOffsetsFrom_bound layout.storageBlockSizeFactor 0
      (mem_of_mem_zip_right inZip)
  simp only [ParsedKvLayout.storageBlockBytes]
  omega

theorem pairwise_zip_right {α β : Type} {relation : β → β → Prop} :
    ∀ (left : List α) {right : List β}, right.Pairwise relation →
      (left.zip right).Pairwise fun first second =>
        relation first.2 second.2
  | [], _, _ => by simp
  | _ :: _, [], _ => by simp
  | first :: left, second :: right, pairwise => by
      rw [List.pairwise_cons] at pairwise
      rw [List.zip_cons_cons, List.pairwise_cons]
      exact ⟨fun entry member =>
          pairwise.1 entry.2 (mem_of_mem_zip_right member),
        pairwise_zip_right left pairwise.2⟩

theorem layers_pairwise_parts (layout : ParsedKvLayout) :
    layout.layers.Pairwise fun left right =>
      left.stagingOffset +
          layout.storageBlockSizeFactor * left.blockBytes ≤
        right.stagingOffset := by
  rw [ParsedKvLayout.layers, List.pairwise_map]
  exact pairwise_zip_right layout.gpuTensors
    (layerOffsetsFrom_pairwise layout.storageBlockSizeFactor 0
      layout.bytesPerKernelBlock)

end PyKvCache.Transfer
