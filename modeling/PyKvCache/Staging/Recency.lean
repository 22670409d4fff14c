import PyKvCache.Library.Chronology
import PyKvCache.Staging.Capacity

/-!
# The LRU policy and the time of the last use

A clock stamps every insertion and every hit of `get`.  The order of the
policy is the order of these stamps, so the victim is the unpinned entry whose
last use is longest ago.
-/

namespace PyKvCache.Staging

open PyKvCache.Library

/-! ## What an operation does to the order -/

namespace Ledger

variable {Slot : Type} [DecidableEq Slot]

/-- The hash an operation uses: one that is cached from now on, or one that
`get` finds. -/
def used (ledger : Ledger Slot) : Operation Slot → Option BlockHash
  | .put blockHash slotIndex =>
      if ledger.cache.contains blockHash = false ∧
          (ledger.cache.put blockHash slotIndex).2.contains blockHash =
            true then
        some blockHash
      else
        none
  | .get blockHash => (ledger.cache.get blockHash).1.map fun _ => blockHash
  | _ => none

/-- The keys of an order after an operation: some are dropped, and a hash that
is used stands last. -/
inductive Reordered (before after : List BlockHash) :
    Option BlockHash → Prop
  | dropped (fewer : after.Sublist before) : Reordered before after none
  | used {blockHash : BlockHash} {rest : List BlockHash}
      (fewer : rest.Sublist before) (absent : blockHash ∉ rest)
      (last : after = rest ++ [blockHash]) :
      Reordered before after (some blockHash)

variable {ledger : Ledger Slot} {order : KeyOrder}

/-- What is admitted stands last. -/
private theorem keys_admitted (order : KeyOrder) (blockHash : BlockHash) :
    KeyOrder.keys ((order.set blockHash ()).moveToEnd blockHash) =
      order.keys.filter (fun k => k ≠ blockHash) ++ [blockHash] := by
  have present : blockHash ∈ KeyOrder.keys (order.set blockHash ()) :=
    KeyOrder.mem_keys_set.mpr (Or.inl rfl)
  rw [KeyOrder.keys_moveToEnd present]
  by_cases known : blockHash ∈ order.keys
  · rw [KeyOrder.keys_set_of_mem known]
  · rw [KeyOrder.keys_set_of_notMem known, List.filter_append]
    simp

private theorem notMem_filter_ne (keys : List BlockHash)
    (blockHash : BlockHash) :
    blockHash ∉ keys.filter fun k => k ≠ blockHash := by
  simp

/-- An entry that is inserted is used. -/
private theorem contains_insert (cache : StagingDataCache Slot)
    (blockHash : BlockHash) (slotIndex : Slot) :
    (cache.insert blockHash slotIndex).contains blockHash = true := by
  rw [StagingDataCache.contains_iff]
  refine ⟨⟨cache.nextOid, blockHash, slotIndex⟩, ?_⟩
  change (cache.slots.set blockHash _).find? blockHash = _
  rw [OrderedDict.find?_set, if_pos rfl]

/-- The order after `put`. -/
private theorem put_reordered (lru : ledger.cache.policy = .lru order)
    (blockHash : BlockHash) (slotIndex : Slot) :
    ∃ next, (ledger.after (.put blockHash slotIndex)).cache.policy =
        .lru next ∧
      Reordered order.keys next.keys
        (ledger.used (.put blockHash slotIndex)) := by
  have outcome := ledger.cache.put_outcome blockHash slotIndex
  simp only [used, Ledger.after]
  generalize ledger.cache.put blockHash slotIndex = result at outcome ⊢
  cases outcome with
  | declined _ =>
      refine ⟨order, lru, ?_⟩
      rw [if_neg (by simp)]
      exact .dropped (List.Sublist.refl _)
  | room _ missing _ =>
      have unknown := OrderedDict.contains_eq_false_iff.mpr missing
      have known := contains_insert ledger.cache blockHash slotIndex
      refine ⟨_, congrArg (EvictionPolicy.admitKey blockHash) lru, ?_⟩
      rw [if_pos ⟨unknown, known⟩]
      exact .used List.filter_sublist (notMem_filter_ne _ _)
        (keys_admitted order blockHash)
  | pinned _ missing _ _ =>
      have unknown := OrderedDict.contains_eq_false_iff.mpr missing
      have known := contains_insert ledger.cache blockHash slotIndex
      refine ⟨_, congrArg (EvictionPolicy.admitKey blockHash) lru, ?_⟩
      rw [if_pos ⟨unknown, known⟩]
      exact .used List.filter_sublist (notMem_filter_ne _ _)
        (keys_admitted order blockHash)
  | @replaced _ missing _ freed smaller evicted =>
      have unknown := OrderedDict.contains_eq_false_iff.mpr missing
      have known := contains_insert smaller blockHash slotIndex
      obtain ⟨victim, _, _, _, same⟩ :=
        StagingDataCache.evictOne_eq_some evicted
      have smallerLru : smaller.policy =
          .lru (order.erase victim.blockHash) := by
        rw [same]
        change ledger.cache.policy.evict victim.blockHash = _
        rw [lru]
        rfl
      refine ⟨_, congrArg (EvictionPolicy.admitKey blockHash) smallerLru,
        ?_⟩
      rw [if_pos ⟨unknown, known⟩]
      have fewer : (KeyOrder.keys (order.erase victim.blockHash)).Sublist
          order.keys := by
        rw [KeyOrder.keys_erase]
        exact List.filter_sublist
      exact .used (List.filter_sublist.trans fewer)
        (notMem_filter_ne _ _) (keys_admitted _ blockHash)

/-- The order after any operation. -/
theorem reordered_after (lru : ledger.cache.policy = .lru order)
    (operation : Operation Slot) :
    ∃ next, (ledger.after operation).cache.policy = .lru next ∧
      Reordered order.keys next.keys (ledger.used operation) := by
  have unchanged : Reordered order.keys order.keys none :=
    .dropped (List.Sublist.refl _)
  cases operation with
  | put blockHash slotIndex => exact put_reordered lru blockHash slotIndex
  | get blockHash =>
      simp only [used, Ledger.after, StagingDataCache.get]
      cases found : ledger.cache.slots.find? blockHash with
      | none => exact ⟨order, lru, unchanged⟩
      | some slot =>
          have tracked := ledger.cache.tracked blockHash slot found
          rw [lru] at tracked
          refine ⟨_, congrArg (EvictionPolicy.touch blockHash) lru, ?_⟩
          exact .used List.filter_sublist (notMem_filter_ne _ _)
            (KeyOrder.keys_moveToEnd tracked)
  | pin slot => exact ⟨order, lru, unchanged⟩
  | unpin slot => exact ⟨order, lru, unchanged⟩
  | evictOne =>
      simp only [used, Ledger.after]
      cases evicted : ledger.cache.evictOne with
      | none => exact ⟨order, lru, unchanged⟩
      | some victim =>
          obtain ⟨slot, _, _, _, same⟩ :=
            StagingDataCache.evictOne_eq_some evicted
          refine ⟨order.erase slot.blockHash, ?_, ?_⟩
          · change victim.2.policy = _
            rw [same]
            exact congrArg (EvictionPolicy.evict slot.blockHash) lru
          · rw [KeyOrder.keys_erase]
            exact .dropped List.filter_sublist
  | drain =>
      exact ⟨.empty, congrArg EvictionPolicy.clear lru,
        .dropped (List.nil_sublist _)⟩

end Ledger

/-! ## The clock -/

/-- A cache with the LRU policy, a clock and the stamp of the last use of each
hash. -/
structure Timed (Slot : Type) where
  ledger : Ledger Slot
  clock : Nat
  lastUse : BlockHash → Nat

namespace Timed

variable {Slot : Type}

/-- An empty cache with the LRU policy. -/
def start (capacity : Nat) : Timed Slot :=
  ⟨.start (.lru .empty) capacity, 0, fun _ => 0⟩

/-- An unpinned entry is the least recently used of the unpinned ones. -/
structure LeastRecent (timed : Timed Slot) (slot : CacheSlot Slot) :
    Prop where
  resident : slot ∈ timed.ledger.cache.slots.values
  unpinned : timed.ledger.cache.copiesInflight slot ≤ 0
  least : ∀ other ∈ timed.ledger.cache.slots.values,
    timed.ledger.cache.copiesInflight other ≤ 0 → other ≠ slot →
      timed.lastUse slot.blockHash < timed.lastUse other.blockHash

variable [DecidableEq Slot]

/-- An operation; what it uses is stamped. -/
def after (timed : Timed Slot) (operation : Operation Slot) : Timed Slot :=
  match timed.ledger.used operation with
  | none => { timed with ledger := timed.ledger.after operation }
  | some blockHash =>
      { ledger := timed.ledger.after operation
        clock := timed.clock + 1
        lastUse :=
          Function.update timed.lastUse blockHash timed.clock }

/-- Operations one after the other, whatever they are. -/
def run (timed : Timed Slot) (operations : List (Operation Slot)) :
    Timed Slot :=
  operations.foldl Timed.after timed

/-- The order of the policy is the order of the stamps. -/
def InOrder (timed : Timed Slot) : Prop :=
  ∃ order, timed.ledger.cache.policy = .lru order ∧
    Chronological timed.lastUse timed.clock order.keys

variable {timed : Timed Slot}

/-- Every operation keeps the order. -/
theorem InOrder.after (inOrder : timed.InOrder)
    (operation : Operation Slot) : (timed.after operation).InOrder := by
  obtain ⟨order, lru, chronological⟩ := inOrder
  obtain ⟨next, nextLru, reordered⟩ :=
    Ledger.reordered_after lru operation
  unfold Timed.after
  generalize timed.ledger.used operation = use at reordered ⊢
  cases reordered with
  | dropped fewer => exact ⟨next, nextLru, chronological.sublist fewer⟩
  | used fewer absent last =>
      refine ⟨next, nextLru, ?_⟩
      rw [last]
      exact (chronological.sublist fewer).use absent

theorem inOrder_run (capacity : Nat)
    (operations : List (Operation Slot)) :
    ((start capacity).run operations).InOrder := by
  induction operations using List.reverseRecOn with
  | nil => exact ⟨.empty, rfl, .nil⟩
  | append_singleton prior operation inductionHypothesis =>
      rw [run, List.foldl_append]
      exact inductionHypothesis.after operation

/-! ## The victim -/

/-- The victims of a cache with the LRU policy. -/
structure EvictsLeastRecent (timed : Timed Slot) : Prop where
  evictOne : ∀ freed smaller,
    timed.ledger.cache.evictOne = some (freed, smaller) →
      ∃ slot, timed.LeastRecent slot ∧ slot.slotIndex = freed ∧
        smaller.slots = timed.ledger.cache.slots.erase slot.blockHash
  put : ∀ blockHash slotIndex, 0 < timed.ledger.cache.capacity →
    timed.ledger.cache.contains blockHash = false →
    timed.ledger.cache.capacity ≤ timed.ledger.cache.len →
    ∀ freed cache,
      timed.ledger.cache.put blockHash slotIndex = (some freed, cache) →
        ∃ slot entry, timed.LeastRecent slot ∧ slot.slotIndex = freed ∧
          cache.slots =
            (timed.ledger.cache.slots.erase slot.blockHash).set
              blockHash entry
  pinned : ∀ blockHash slotIndex,
    timed.ledger.cache.capacity ≤ timed.ledger.cache.len →
    (timed.ledger.cache.evictOne = none ∨
      (timed.ledger.cache.put blockHash slotIndex).1 = none) →
    ∀ slot ∈ timed.ledger.cache.slots.values,
      0 < timed.ledger.cache.copiesInflight slot

omit [DecidableEq Slot] in
/-- What `evict_one` picks from an order of stamps. -/
theorem InOrder.evictOne (inOrder : timed.InOrder) {freed : Slot}
    {smaller : StagingDataCache Slot}
    (evicted : timed.ledger.cache.evictOne = some (freed, smaller)) :
    ∃ slot, timed.LeastRecent slot ∧ slot.slotIndex = freed ∧
      smaller = timed.ledger.cache.evict slot.blockHash := by
  obtain ⟨order, lru, chronological⟩ := inOrder
  simp only [StagingDataCache.evictOne, Option.map_eq_some_iff] at evicted
  obtain ⟨slot, chosen, same⟩ := evicted
  rw [lru] at chosen
  obtain ⟨blockHash, picks, least⟩ := chronological.findSome?_least chosen
  simp only [StagingDataCache.evictable, Option.filter_eq_some_iff,
    decide_eq_true_eq] at picks
  obtain ⟨found, unpinned⟩ := picks
  have key := timed.ledger.cache.keyed blockHash slot found
  cases same
  refine ⟨slot, ⟨OrderedDict.mem_values_of_find? found, unpinned, ?_⟩,
    rfl, rfl⟩
  intro other listed idle different
  obtain ⟨otherHash, otherFound⟩ :=
    OrderedDict.exists_find?_of_mem_values listed
  have otherKey := timed.ledger.cache.keyed otherHash other otherFound
  have tracked := timed.ledger.cache.tracked otherHash other otherFound
  rw [lru] at tracked
  rw [key, otherKey]
  apply least otherHash tracked
  · intro sameHash
    rw [sameHash, found] at otherFound
    exact different (Option.some.inj otherFound).symm
  · simp [StagingDataCache.evictable, otherFound, idle]

/-- After any operations every victim is the unpinned entry with the earliest
stamp, and there is none only while every entry is pinned. -/
theorem run_evictsLeastRecent (capacity : Nat)
    (operations : List (Operation Slot)) :
    ((start capacity).run operations).EvictsLeastRecent := by
  have inOrder := inOrder_run capacity operations
  generalize (start capacity).run operations = timed at inOrder ⊢
  have victim_iff :=
    @StagingDataCache.evictOne_ne_none_iff _ timed.ledger.cache
  constructor
  · intro freed smaller evicted
    obtain ⟨slot, least, index, same⟩ := inOrder.evictOne evicted
    exact ⟨slot, least, index, by rw [same]; rfl⟩
  · intro blockHash slotIndex positive unknown full freed cache put
    have outcome := timed.ledger.cache.put_outcome blockHash slotIndex
    rw [put] at outcome
    cases outcome with
    | declined useless =>
        rcases useless with zero | known
        · omega
        · rw [known] at unknown
          cases unknown
    | replaced _ _ _ evicted =>
        obtain ⟨slot, least, index, same⟩ := inOrder.evictOne evicted
        exact ⟨slot, _, least, index, by rw [same]; rfl⟩
  · intro blockHash slotIndex full none slot listed
    have kept : timed.ledger.cache.evictOne = Option.none := by
      rcases none with kept | inserted
      · exact kept
      · have outcome := timed.ledger.cache.put_outcome blockHash slotIndex
        generalize timed.ledger.cache.put blockHash slotIndex = result
          at outcome inserted
        cases outcome with
        | declined _ => cases inserted
        | room _ _ space => exact absurd space (Nat.not_lt.mpr full)
        | pinned _ _ _ kept => exact kept
        | replaced _ _ _ _ => cases inserted
    by_contra unpinned
    exact victim_iff.mpr ⟨slot, listed, Int.not_lt.mp unpinned⟩ kept

end Timed

end PyKvCache.Staging
