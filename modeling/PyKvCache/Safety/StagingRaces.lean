import PyKvCache.Safety.SlotOwners
import PyKvCache.Setup.Reactor
import PyKvCache.Transfer.FusedCopies

/-!
# No races on the staging memory

The kernel and the GPU read and write the staging buffer while the reactor
goes on.  Of two operations that are under way at the same time neither writes
a byte that the other one touches, a free slot is touched by none, and what is
offered for later loads is not written.
-/

namespace PyKvCache.Safety

open PyKvCache.Library PyKvCache.Staging PyKvCache.Transfer
open PyKvCache.Reactor PyKvCache.Ledger PyKvCache.Setup

variable {slotCount : Nat}

/-! ## What an operation touches -/

/-- An operation of the ring or a copy that was launched. -/
inductive Operation (slotCount : Nat) where
  | ring (op : RingOp slotCount)
  | copy (op : CopyOp slotCount)

/-- The operations that are under way. -/
def underWay (state : State slotCount) : List (Operation slotCount) :=
  state.inflight.values.map .ring ++ state.pendingCopies.map .copy

/-- Staging memory that is read or written while an operation is under way. -/
structure Access where
  start : Int
  size : Nat
  writes : Bool

section Accesses

variable (layout : ParsedKvLayout) (stagingBase : Int) (ioSize : Nat)

/-- The I/O of a ring operation. -/
def ringAccesses : RingOp slotCount → List Access
  | .reading _ slot _ => [⟨slotBase layout stagingBase slot.val, ioSize, true⟩]
  | .writing _ slot _ _ _ =>
      [⟨slotBase layout stagingBase slot.val, ioSize, false⟩]
  | _ => []

/-- The staging sides of the pointers of one load copy. -/
def loadAccesses (copy : LoadCopy slotCount) : List Access :=
  match loadMapping layout copy.source.slotIndex.val copy.file.chunk with
  | .ok mapping =>
      (fillSwapPtrs layout stagingBase mapping copy.source.slotIndex.val
        true).map fun pointer => ⟨pointer.src, pointer.size, false⟩
  | .error _ => []

/-- The staging sides of the pointers of a copy. -/
def copyAccesses : CopyOp slotCount → List Access
  | .store file slot =>
      match storeMapping layout slot.val file.chunk with
      | .ok mapping =>
          (fillSwapPtrs layout stagingBase mapping slot.val false).map
            fun pointer => ⟨pointer.dst, pointer.size, true⟩
      | .error _ => []
  | .load members => members.flatMap (loadAccesses layout stagingBase)

/-- The staging memory an operation reads and writes. -/
def Operation.accesses : Operation slotCount → List Access
  | .ring op => ringAccesses layout stagingBase ioSize op
  | .copy op => copyAccesses layout stagingBase op

end Accesses

/-- The slots an operation touches, and whether it writes them. -/
def ringTouches : RingOp slotCount → List (Fin slotCount × Bool)
  | .reading _ slot _ => [(slot, true)]
  | .writing _ slot _ _ _ => [(slot, false)]
  | _ => []

def copyTouches : CopyOp slotCount → List (Fin slotCount × Bool)
  | .store _ slot => [(slot, true)]
  | .load members => members.map fun copy => (copy.source.slotIndex, false)

def Operation.touches :
    Operation slotCount → List (Fin slotCount × Bool)
  | .ring op => ringTouches op
  | .copy op => copyTouches op

/-- The slots whose blocks are offered for loads, or about to be copied. -/
def offered (state : State slotCount) : List (Fin slotCount) :=
  state.copyReady.map (fun ready => ready.copy.source.slotIndex) ++
    state.preloadSlots.pairs.map (fun entry => entry.2.1) ++
    state.cacheSlots.map CacheSlot.slotIndex ++
    (sharedSlots state).map SharedSlot.slotIndex

/-! ## Accesses lie in their slots -/

section Inside

variable {layout : ParsedKvLayout} {stagingBase : Int} {ioSize : Nat}

/-- An access lies in the memory of a slot. -/
def Access.Within (layout : ParsedKvLayout) (stagingBase : Int)
    (slot : Fin slotCount) (access : Access) : Prop :=
  slotBase layout stagingBase slot.val ≤ access.start ∧
    access.start + access.size ≤
      slotBase layout stagingBase slot.val + layout.storageBlockBytes

/-- The memory of different slots. -/
theorem Access.Within.disjoint {left right : Access}
    {slot other : Fin slotCount}
    (inside : left.Within layout stagingBase slot)
    (otherInside : right.Within layout stagingBase other)
    (different : slot ≠ other) :
    BlocksDisjoint left.start left.size right.start right.size := by
  have apart : (slot.val : Int) ≠ other.val := by
    intro same
    exact different (Fin.ext (by omega))
  rintro address ⟨leftLower, leftUpper⟩ ⟨rightLower, rightUpper⟩
  obtain ⟨lower, upper⟩ := inside
  obtain ⟨otherLower, otherUpper⟩ := otherInside
  exact @blocksDisjoint_of_ne slot.val other.val stagingBase
    layout.storageBlockBytes apart address
    ⟨by unfold slotBase at lower; omega, by unfold slotBase at upper; omega⟩
    ⟨by unfold slotBase at otherLower; omega,
      by unfold slotBase at otherUpper; omega⟩

/-- The staging side of a pointer, when its row has a sub-block of the
slot. -/
theorem stagingSide_within {mapping : List (Int × Int)}
    {slot : Fin slotCount} {stagingIsSrc : Bool} {pointer : BlockCopy}
    (within : ∀ row ∈ mapping, ∃ sub : Nat,
      sub < layout.storageBlockSizeFactor ∧
      (if stagingIsSrc then row.1 else row.2) =
        slot.val * layout.storageBlockSizeFactor + sub)
    (member : pointer ∈
      fillSwapPtrs layout stagingBase mapping slot.val stagingIsSrc)
    (writes : Bool) :
    Access.Within layout stagingBase slot
      ⟨if stagingIsSrc then pointer.src else pointer.dst, pointer.size,
        writes⟩ := by
  obtain ⟨layer, inLayers, rows⟩ := List.mem_flatMap.mp member
  obtain ⟨row, inRows, rfl⟩ := List.mem_map.mp rows
  obtain ⟨sub, small, same⟩ := within row inRows
  have part := Layer.part_le inLayers
  have scaled : (sub + 1) * layer.blockBytes ≤
      layout.storageBlockSizeFactor * layer.blockBytes :=
    Nat.mul_le_mul_right _ small
  rw [Nat.succ_mul] at scaled
  have start : 0 ≤ (sub : Int) * (layer.blockBytes : Int) :=
    Int.mul_nonneg (by omega) (by omega)
  have place : (if stagingIsSrc then
      (swapPointer layout stagingBase slot.val stagingIsSrc layer row).src
    else
      (swapPointer layout stagingBase slot.val stagingIsSrc layer row).dst) =
        slotBase layout stagingBase slot.val + layer.stagingOffset +
          (sub : Int) * layer.blockBytes := by
    have offset : (if stagingIsSrc then row.1 else row.2) -
        slot.val * layout.storageBlockSizeFactor = (sub : Int) := by
      rw [same]
      omega
    cases stagingIsSrc with
    | false =>
        exact congrArg (fun inSlot : Int =>
          slotBase layout stagingBase slot.val + layer.stagingOffset +
            inSlot * layer.blockBytes) offset
    | true =>
        exact congrArg (fun inSlot : Int =>
          slotBase layout stagingBase slot.val + layer.stagingOffset +
            inSlot * layer.blockBytes) offset
  have size : (swapPointer layout stagingBase slot.val stagingIsSrc layer
      row).size = layer.blockBytes := by
    cases stagingIsSrc <;> rfl
  constructor
  · simp only [place]
    omega
  · simp only [place, size]
    rw [← Nat.cast_mul]
    omega

/-- The chunk of a store fills its slot. -/
theorem storeMapping_within {slot : Fin slotCount} {chunk : List Int}
    {mapping : List (Int × Int)}
    (built : storeMapping layout slot.val chunk = .ok mapping) :
    ∀ row ∈ mapping, ∃ sub : Nat, sub < layout.storageBlockSizeFactor ∧
      row.2 = slot.val * layout.storageBlockSizeFactor + sub := by
  have full : chunk.length = layout.storageBlockSizeFactor := by
    by_contra other
    have refused : ¬ (([(slot.val : Int)].length *
        layout.storageBlockSizeFactor : Nat) : Int) =
          (chunk.length : Int) * (1 : Nat) -
            ((-([(slot.val : Int)].length : Int) % (1 : Nat)).toNat : Int) := by
      simp only [List.length_singleton]
      omega
    rw [storeMapping, buildBlockMapping] at built
    simp only [ne_eq, refused, not_false_eq_true, if_true] at built
    cases built
  rw [storeMapping_of_eq full] at built
  cases built
  intro row member
  have destination := (List.of_mem_zip member).2
  rw [expandBlock, List.mem_map] at destination
  obtain ⟨sub, listed, same⟩ := destination
  rw [List.mem_range'_1] at listed
  exact ⟨sub, by omega, same.symm⟩

theorem loadMapping_within {slot : Fin slotCount} {chunk : List Int}
    {mapping : List (Int × Int)}
    (built : loadMapping layout slot.val chunk = .ok mapping) :
    ∀ row ∈ mapping, ∃ sub : Nat, sub < layout.storageBlockSizeFactor ∧
      row.1 = slot.val * layout.storageBlockSizeFactor + sub := by
  obtain ⟨nonempty, bound⟩ := chunk_bounds_of_loadMapping built
  rw [loadMapping_of_le nonempty bound] at built
  cases built
  intro row member
  have source := (List.of_mem_zip member).1
  rw [expandBlock, List.mem_map] at source
  obtain ⟨sub, listed, same⟩ := source
  rw [List.mem_range'_1] at listed
  exact ⟨sub, by omega, same.symm⟩

/-- An access is one of a slot that the operation touches in that way. -/
def Covered (layout : ParsedKvLayout) (stagingBase : Int)
    (touches : List (Fin slotCount × Bool)) (access : Access) : Prop :=
  ∃ slot, (slot, access.writes) ∈ touches ∧
    access.Within layout stagingBase slot

theorem ringAccesses_covered (whole : ioSize = layout.storageBlockBytes)
    {op : RingOp slotCount} {access : Access}
    (member : access ∈ ringAccesses layout stagingBase ioSize op) :
    Covered layout stagingBase (ringTouches op) access := by
  subst whole
  cases op with
  | reading reader slot fd =>
      rw [ringAccesses, List.mem_singleton] at member
      subst member
      exact ⟨slot, List.mem_singleton_self _, le_refl _, le_refl _⟩
  | writing file slot fd finalPath tempPath =>
      rw [ringAccesses, List.mem_singleton] at member
      subst member
      exact ⟨slot, List.mem_singleton_self _, le_refl _, le_refl _⟩
  | opening reader => cases member
  | closing fd => cases member

theorem copyAccesses_covered {op : CopyOp slotCount} {access : Access}
    (member : access ∈ copyAccesses layout stagingBase op) :
    Covered layout stagingBase (copyTouches op) access := by
  cases op with
  | store file slot =>
      rw [copyAccesses] at member
      split at member
      next mapping built =>
        obtain ⟨pointer, listed, rfl⟩ := List.mem_map.mp member
        exact ⟨slot, List.mem_singleton_self _, @stagingSide_within _ layout
          stagingBase mapping slot false pointer (storeMapping_within built)
          listed true⟩
      next => cases member
  | load members =>
      rw [copyAccesses, List.mem_flatMap] at member
      obtain ⟨copy, inMembers, member⟩ := member
      rw [loadAccesses] at member
      split at member
      next mapping built =>
        obtain ⟨pointer, listed, rfl⟩ := List.mem_map.mp member
        exact ⟨copy.source.slotIndex,
          List.mem_map_of_mem (f := fun copy : LoadCopy slotCount =>
            (copy.source.slotIndex, false)) inMembers,
          @stagingSide_within _ layout stagingBase mapping
            copy.source.slotIndex true pointer (loadMapping_within built)
            listed false⟩
      next => cases member

theorem Operation.accesses_covered
    (whole : ioSize = layout.storageBlockBytes)
    {operation : Operation slotCount} {access : Access}
    (member : access ∈ operation.accesses layout stagingBase ioSize) :
    Covered layout stagingBase operation.touches access := by
  cases operation with
  | ring op => exact ringAccesses_covered whole member
  | copy op => exact copyAccesses_covered member

end Inside

/-! ## Slots in use -/

section Slots

variable {state : State slotCount} {live : List (SharedSlot slotCount)}

/-- The slots of ring operations, of store copies and of everything else. -/
structure Parts (state : State slotCount)
    (rings stores others : List (Fin slotCount)) : Prop where
  ofRings : rings =
    state.inflight.values.flatMap fun op => op.slots.map Prod.fst
  ofStores : stores =
    state.pendingCopies.flatMap fun op => op.slots.map Prod.fst
  loads : ∀ copy ∈ state.loadCopies, copy.source.slotIndex ∈ others
  ofOffered : ∀ slot ∈ offered state, slot ∈ others
  free : ∀ slot ∈ state.free,
    slot ∉ rings ∧ slot ∉ stores ∧ slot ∉ others
  distinct : (rings ++ stores ++ others).Nodup

namespace SlotBooks

/-- The place of the slot of a load copy. -/
theorem source_mem (books : SlotBooks state live)
    {copy : LoadCopy slotCount} (member : copy ∈ state.loadCopies) :
    copy.source.slotIndex ∈
      state.loadCopies.flatMap (fun copy => copy.slots.map Prod.fst) ++
        state.preloadSlots.pairs.map (fun entry => entry.2.1) ++
        state.cacheSlots.map CacheSlot.slotIndex ++
        (sharedSlots state).map SharedSlot.slotIndex := by
  cases read : copy.source with
  | own slot =>
      refine List.mem_append_left _ (List.mem_append_left _
        (List.mem_append_left _ (List.mem_flatMap.mpr ⟨copy, member, ?_⟩)))
      simp [LoadCopy.slots, read, Source.slotIndex]
  | shared slot =>
      refine List.mem_append_right _
        (List.mem_map_of_mem (List.mem_dedup.mpr ?_))
      refine List.mem_append_right _ (List.mem_flatMap.mpr
        ⟨copy, member, ?_⟩)
      simp [readShared, read]
  | cache slot =>
      exact List.mem_append_left _ (List.mem_append_right _
        (List.mem_map_of_mem (books.eachOwned.cacheKept copy member slot
          read)))

theorem exists_parts (books : SlotBooks state live) :
    ∃ rings stores others, Parts state rings stores others := by
  have distinct : (slotPlaces state).Nodup :=
    books.slotPlaces_perm.nodup_iff.mpr (List.nodup_finRange _)
  have split : slotPlaces state =
      state.free ++
        ((state.inflight.values.flatMap fun op => op.slots.map Prod.fst) ++
          (state.pendingCopies.flatMap fun op => op.slots.map Prod.fst) ++
          (state.loadCopies.flatMap (fun copy => copy.slots.map Prod.fst) ++
            state.preloadSlots.pairs.map (fun entry => entry.2.1) ++
            state.cacheSlots.map CacheSlot.slotIndex ++
            (sharedSlots state).map SharedSlot.slotIndex)) := by
    unfold slotPlaces State.owned
    simp only [List.map_append, List.map_map, List.map_flatMap,
      List.append_assoc, Function.comp_def, List.map_id']
  rw [split, List.nodup_append] at distinct
  obtain ⟨_, used, apart⟩ := distinct
  refine ⟨_, _, _, rfl, rfl, fun copy => books.source_mem,
    fun slot member => ?_, fun slot member => ?_, used⟩
  · unfold offered at member
    simp only [List.mem_append] at member ⊢
    rcases member with ((ready | preloaded) | cached) | shared
    · obtain ⟨copy, queued, rfl⟩ := List.mem_map.mp ready
      have source := books.source_mem
        (List.mem_append_left _ (List.mem_map_of_mem queued))
      simpa only [List.mem_append] using source
    · exact Or.inl (Or.inl (Or.inr preloaded))
    · exact Or.inl (Or.inr cached)
    · exact Or.inr shared
  · have unused := fun other => apart slot member other
    refine ⟨fun inRings => ?_, fun inStores => ?_, fun inOthers => ?_⟩
    · exact unused slot (List.mem_append_left _
        (List.mem_append_left _ inRings)) rfl
    · exact unused slot (List.mem_append_left _
        (List.mem_append_right _ inStores)) rfl
    · exact unused slot (List.mem_append_right _ inOthers) rfl

end SlotBooks

namespace Parts

variable {rings stores others : List (Fin slotCount)}
  (parts : Parts state rings stores others)

theorem mem_rings_of_touches {op : RingOp slotCount}
    {touch : Fin slotCount × Bool} (member : touch ∈ ringTouches op) :
    touch.1 ∈ op.slots.map Prod.fst := by
  cases op with
  | reading reader slot fd =>
      rw [ringTouches, List.mem_singleton] at member
      subst member
      exact List.mem_singleton_self _
  | writing file slot fd finalPath tempPath =>
      rw [ringTouches, List.mem_singleton] at member
      subst member
      exact List.mem_singleton_self _
  | opening reader => cases member
  | closing fd => cases member

/-- A copy writes the slot of its store, and reads those of its loads. -/
theorem copy_touch {op : CopyOp slotCount} {touch : Fin slotCount × Bool}
    (member : touch ∈ copyTouches op) :
    touch.1 ∈ op.slots.map Prod.fst ∨
      touch.2 = false ∧ ∃ copy ∈ op.members,
        copy.source.slotIndex = touch.1 := by
  cases op with
  | store file slot =>
      rw [copyTouches, List.mem_singleton] at member
      subst member
      exact Or.inl (List.mem_singleton_self _)
  | load members =>
      obtain ⟨copy, listed, rfl⟩ := List.mem_map.mp member
      exact Or.inr ⟨rfl, copy, listed, rfl⟩

include parts

theorem ring_mem {op : RingOp slotCount} (listed : op ∈ state.inflight.values)
    {touch : Fin slotCount × Bool} (member : touch ∈ ringTouches op) :
    touch.1 ∈ rings := by
  rw [parts.ofRings]
  exact List.mem_flatMap.mpr ⟨op, listed, mem_rings_of_touches member⟩

theorem copy_mem {op : CopyOp slotCount} (listed : op ∈ state.pendingCopies)
    {touch : Fin slotCount × Bool} (member : touch ∈ copyTouches op) :
    touch.1 ∈ op.slots.map Prod.fst ∧ touch.1 ∈ stores ∨
      touch.2 = false ∧ touch.1 ∈ others := by
  rcases copy_touch member with own | ⟨reads, copy, inMembers, same⟩
  · rw [parts.ofStores]
    exact Or.inl ⟨own, List.mem_flatMap.mpr ⟨op, listed, own⟩⟩
  · rw [← same]
    exact Or.inr ⟨reads, parts.loads copy (List.mem_append_right _
      (List.mem_flatMap.mpr ⟨op, listed, inMembers⟩))⟩

/-- Two operations that are under way, of which one writes a slot, touch
different slots. -/
theorem touches_apart :
    (underWay state).Pairwise fun left right =>
      ∀ a ∈ left.touches, ∀ b ∈ right.touches,
        a.2 = true ∨ b.2 = true → a.1 ≠ b.1 := by
  have distinct := parts.distinct
  rw [List.nodup_append, List.nodup_append] at distinct
  obtain ⟨⟨ringsDistinct, storesDistinct, ringStore⟩, _, otherApart⟩ :=
    distinct
  rw [parts.ofRings, List.nodup_flatMap] at ringsDistinct
  rw [parts.ofStores, List.nodup_flatMap] at storesDistinct
  unfold underWay
  rw [List.pairwise_append, List.pairwise_map, List.pairwise_map]
  refine ⟨ringsDistinct.2.imp ?_, storesDistinct.2.imp_of_mem ?_, ?_⟩
  · intro left right disjoint a inLeft b inRight _ same
    have shared := mem_rings_of_touches inRight
    rw [← same] at shared
    exact disjoint (mem_rings_of_touches inLeft) shared
  · intro left right leftListed rightListed disjoint a inLeft b inRight
      writes same
    rcases parts.copy_mem leftListed inLeft with
      ⟨own, store⟩ | ⟨reads, other⟩
    · rcases parts.copy_mem rightListed inRight with
        ⟨rightOwn, _⟩ | ⟨_, rightOther⟩
      · rw [← same] at rightOwn
        exact disjoint own rightOwn
      · exact otherApart _ (List.mem_append_right _ store) _ rightOther same
    · rcases parts.copy_mem rightListed inRight with
        ⟨_, rightStore⟩ | ⟨rightReads, _⟩
      · exact otherApart _ (List.mem_append_right _ rightStore) _ other
          same.symm
      · rw [reads, rightReads] at writes
        rcases writes with impossible | impossible <;> cases impossible
  · intro left inRings right inCopies a inLeft b inRight _ same
    obtain ⟨op, listed, rfl⟩ := List.mem_map.mp inRings
    obtain ⟨copy, copyListed, rfl⟩ := List.mem_map.mp inCopies
    have ring := parts.ring_mem listed inLeft
    rcases parts.copy_mem copyListed inRight with ⟨_, store⟩ | ⟨_, other⟩
    · exact ringStore _ ring _ store same
    · exact otherApart _ (List.mem_append_left _ ring) _ other same

/-- No operation touches a free slot. -/
theorem free_untouched {slot : Fin slotCount} (free : slot ∈ state.free)
    {operation : Operation slotCount} (listed : operation ∈ underWay state)
    {touch : Fin slotCount × Bool} (member : touch ∈ operation.touches) :
    slot ≠ touch.1 := by
  rintro rfl
  obtain ⟨noRing, noStore, noOther⟩ := parts.free _ free
  rcases List.mem_append.mp listed with ring | copy
  · obtain ⟨ringOp, inRing, rfl⟩ := List.mem_map.mp ring
    exact noRing (parts.ring_mem inRing member)
  · obtain ⟨copyOp, inCopies, rfl⟩ := List.mem_map.mp copy
    rcases parts.copy_mem inCopies member with ⟨_, store⟩ | ⟨_, other⟩
    · exact noStore store
    · exact noOther other

/-- No operation writes a slot whose block is offered. -/
theorem offered_unwritten {slot : Fin slotCount}
    (offers : slot ∈ offered state)
    {operation : Operation slotCount} (listed : operation ∈ underWay state)
    {touch : Fin slotCount × Bool} (member : touch ∈ operation.touches)
    (writes : touch.2 = true) : slot ≠ touch.1 := by
  rintro rfl
  have distinct := parts.distinct
  rw [List.nodup_append] at distinct
  have other := parts.ofOffered _ offers
  rcases List.mem_append.mp listed with ring | copy
  · obtain ⟨ringOp, inRing, rfl⟩ := List.mem_map.mp ring
    exact distinct.2.2 _ (List.mem_append_left _
      (parts.ring_mem inRing member)) _ other rfl
  · obtain ⟨copyOp, inCopies, rfl⟩ := List.mem_map.mp copy
    rcases parts.copy_mem inCopies member with ⟨_, store⟩ | ⟨reads, _⟩
    · exact distinct.2.2 _ (List.mem_append_right _ store) _ other rfl
    · rw [reads] at writes
      cases writes

end Parts

end Slots

/-! ## The buffer of a reactor -/

/-- The staging memory of one reactor while it runs. -/
structure StagingSafe (reactor : IoReactor)
    (state : State reactor.slotCount) : Prop where
  raceFree : (underWay state).Pairwise fun left right =>
    ∀ a ∈ left.accesses reactor.env.layout reactor.stagingBuffer.dataPtr
      reactor.env.ioSize,
    ∀ b ∈ right.accesses reactor.env.layout reactor.stagingBuffer.dataPtr
      reactor.env.ioSize,
    a.writes = true ∨ b.writes = true →
      BlocksDisjoint a.start a.size b.start b.size
  inBuffer : ∀ operation ∈ underWay state,
    ∀ access ∈ operation.accesses reactor.env.layout
      reactor.stagingBuffer.dataPtr reactor.env.ioSize,
    reactor.stagingBuffer.dataPtr ≤ access.start ∧
      access.start + access.size ≤ reactor.stagingBuffer.dataPtr +
        reactor.slotCount * reactor.env.layout.storageBlockBytes
  arrays : ∀ op ∈ state.inflight.values,
    ∀ access ∈ ringAccesses reactor.env.layout
      reactor.stagingBuffer.dataPtr reactor.env.ioSize op,
    ∃ (slot : Fin reactor.slotCount) (array : ByteArrayView),
      IoArray reactor.env.layout reactor.stagingBuffer slot.val
        reactor.env.ioSize array ∧
      access.start = array.address ∧ access.size = array.nbytes
  freeUntouched : ∀ slot ∈ state.free, ∀ operation ∈ underWay state,
    ∀ access ∈ operation.accesses reactor.env.layout
      reactor.stagingBuffer.dataPtr reactor.env.ioSize,
    BlocksDisjoint
      (slotBase reactor.env.layout reactor.stagingBuffer.dataPtr slot.val)
      reactor.env.layout.storageBlockBytes access.start access.size
  offeredUnwritten : ∀ slot ∈ offered state, ∀ operation ∈ underWay state,
    ∀ access ∈ operation.accesses reactor.env.layout
      reactor.stagingBuffer.dataPtr reactor.env.ioSize,
    access.writes = true →
    BlocksDisjoint
      (slotBase reactor.env.layout reactor.stagingBuffer.dataPtr slot.val)
      reactor.env.layout.storageBlockBytes access.start access.size

/-- The memory of a whole slot. -/
theorem within_self {layout : ParsedKvLayout} {stagingBase : Int}
    (slot : Fin slotCount) (writes : Bool) :
    Access.Within layout stagingBase slot
      ⟨slotBase layout stagingBase slot.val, layout.storageBlockBytes,
        writes⟩ :=
  ⟨le_refl _, le_refl _⟩

/-- The memory of a slot is in the buffer. -/
theorem Access.Within.inBuffer {layout : ParsedKvLayout} {stagingBase : Int}
    {slot : Fin slotCount} {access : Access}
    (inside : access.Within layout stagingBase slot) :
    stagingBase ≤ access.start ∧
      access.start + access.size ≤
        stagingBase + slotCount * layout.storageBlockBytes := by
  obtain ⟨lower, upper⟩ := inside
  have bound : (slot.val : Int) < slotCount := by
    have small := slot.isLt
    omega
  have scaled := succ_mul_le layout.storageBlockBytes bound
  have start : 0 ≤ (slot.val : Int) * (layout.storageBlockBytes : Int) :=
    Int.mul_nonneg (by omega) (by omega)
  unfold slotBase at lower upper
  omega

/-- Until the stop marker is taken in, in a reactor that its constructor
built: of two operations that are under way neither writes staging memory
that the other one touches; they stay in the buffer, and the ring is given
whole slots that pass the check of direct I/O; no operation touches a free
slot, and none writes a slot whose block is offered or about to be copied. -/
theorem staging_raceFree {config : SharedFileConfig}
    {layout : ParsedKvLayout} {outside : Outside} {reactor : IoReactor}
    (built : IoReactor.init config layout outside = .ok reactor)
    (quiet : reactor.env.Quiet) {machine : Machine reactor.slotCount}
    (reached : Machine.Reachable reactor.env machine)
    (running : machine.phase.Running)
    (unstopped : machine.state.stop = false) :
    StagingSafe reactor machine.state := by
  have spec := built_of_init built
  obtain ⟨live, books⟩ := slotBooks quiet reached running unstopped
  obtain ⟨rings, stores, others, parts⟩ := books.exists_parts
  have whole : reactor.env.ioSize = reactor.env.layout.storageBlockBytes := by
    rw [spec.ioSize, spec.sameLayout]
  refine ⟨parts.touches_apart.imp ?_, ?_, ?_, ?_, ?_⟩
  · intro left right apart a inLeft b inRight writes
    obtain ⟨slot, touch, inside⟩ := Operation.accesses_covered whole inLeft
    obtain ⟨other, otherTouch, otherInside⟩ :=
      Operation.accesses_covered whole inRight
    exact inside.disjoint otherInside (apart _ touch _ otherTouch writes)
  · intro operation listed access member
    obtain ⟨slot, _, inside⟩ := Operation.accesses_covered whole member
    exact inside.inBuffer
  · intro op listed access member
    have allocated := spec.buffer
    rw [← spec.sameLayout] at allocated
    obtain ⟨_, divides, _⟩ := allocateStagingBuffer_eq_ok_iff.mp allocated
    have aligned : alignUp reactor.env.layout.storageBlockBytes =
        reactor.env.ioSize := by
      rw [alignUp_of_dvd (by omega), whole]
    have array := exists_ioArray allocated
    rw [aligned] at array
    have same : ∀ slot : Fin reactor.slotCount, ∀ writes,
        access = ⟨slotBase reactor.env.layout reactor.stagingBuffer.dataPtr
          slot.val, reactor.env.ioSize, writes⟩ →
        ∃ (slot : Fin reactor.slotCount) (array : ByteArrayView),
          IoArray reactor.env.layout reactor.stagingBuffer slot.val
            reactor.env.ioSize array ∧
          access.start = array.address ∧ access.size = array.nbytes := by
      rintro slot writes rfl
      obtain ⟨view, valid⟩ := array slot
      have exact := valid.exact
      exact ⟨slot, view, valid, valid.address.symm, by
        simp only
        omega⟩
    cases op with
    | reading reader slot fd => exact same slot _ (List.mem_singleton.mp member)
    | writing file slot fd finalPath tempPath =>
        exact same slot _ (List.mem_singleton.mp member)
    | opening reader => cases member
    | closing fd => cases member
  · intro slot free operation listed access member
    obtain ⟨other, touch, inside⟩ := Operation.accesses_covered whole member
    exact (within_self slot false).disjoint inside
      (parts.free_untouched free listed touch)
  · intro slot offers operation listed access member writes
    obtain ⟨other, touch, inside⟩ := Operation.accesses_covered whole member
    exact (within_self slot false).disjoint inside
      (parts.offered_unwritten offers listed touch writes)

section Examples

/-- The reactor of the small configuration. -/
def smallReactor (completions : Nat → List (Nat × Int)) : IoReactor where
  slotCount := 5
  env :=
    { Env.smooth true completions with
      layout := pageLayout
      ioSize := 4096 }
  stagingBuffer := ⟨8192, 5, 4096⟩
  ringDepth := 21

theorem init_smallReactor (completions : Nat → List (Nat × Int)) :
    IoReactor.init smallConfig pageLayout (calmOutside completions) =
      .ok (smallReactor completions) := by
  have counted : computeSlotCount smallConfig.stagingMem
      (alignUp (pageLayout.storageBlockBytes : Nat))
      ((max 1 smallConfig.iodepth).toNat +
        max 4 ((max 1 smallConfig.iodepth).toNat / 2) : Nat) =
      .ok ⟨5, by decide⟩ := by
    rw [computeSlotCount_eq_ok_iff]
    exact ⟨by decide, 10737, by decide +kernel, by decide⟩
  have uncached : ∀ slots, stagingCachePolicy (calmOutside completions).repr
      smallConfig slots = .ok none := by
    intro slots
    have kind : cacheKind smallConfig = "off" := by decide +kernel
    exact if_neg fun used => used.1 kind
  have allocated : allocateStagingBuffer
      (calmOutside completions).transferCopyAvailable
      (calmOutside completions).emptyPinned pageLayout 5 =
        .ok ⟨8192, 5, 4096⟩ := by
    rw [allocateStagingBuffer_eq_ok_iff]
    exact ⟨rfl, by decide, 5000, rfl, rfl⟩
  have nonempty : ¬ ((pageLayout.storageBlockBytes : Nat) : Int) ≤ 0 := by
    decide
  have size : (alignUp (pageLayout.storageBlockBytes : Nat)).toNat = 4096 :=
    by decide
  simp only [IoReactor.init, ite_throw_eq_ok_iff, bind_eq_ok_iff, nonempty,
    size, not_false_eq_true, true_and]
  exact ⟨Bool.noConfusion, Bool.noConfusion, _, counted, _, allocated, (),
    rfl, (), rfl, _, uncached _, (), rfl, rfl⟩

/-- The open and the read of a whole block succeed. -/
def wholeRead : IoReactor :=
  smallReactor fun calls =>
    if calls = 6 then [(1, 3)]
    else if calls = 9 then [(2, 4096)]
    else []

/-- The copy of the block has been launched. -/
def copyingWhole : Machine wholeRead.slotCount :=
  (Machine.init wholeRead.env).play wholeRead.env
    (waitingLoad oneFileLoad 28)

theorem copyingWhole_raceFree :
    copyingWhole.state.pendingCopies ≠ [] ∧
      StagingSafe wholeRead copyingWhole.state :=
  ⟨by decide +kernel, staging_raceFree (init_smallReactor _)
    (fun _ _ _ => rfl) (Machine.reachable_play _ (by decide +kernel))
    (by decide +kernel) (by decide +kernel)⟩

end Examples

end PyKvCache.Safety
