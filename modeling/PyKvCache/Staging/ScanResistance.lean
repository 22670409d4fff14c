import PyKvCache.Staging.Capacity

/-!
# A scan leaves the reused entries alone

A scan puts hashes the ARC policy has never seen.  It takes a victim from the
second list only while the first one is not longer than the target, and each
such victim makes the first list longer by one.
-/

namespace PyKvCache.Staging

open PyKvCache.Library

theorem KeyOrder.length_erase {order : KeyOrder} {key : BlockHash}
    (present : key ∈ order.keys) :
    (KeyOrder.keys (order.erase key)).length + 1 = order.keys.length := by
  obtain ⟨value, found⟩ := OrderedDict.contains_iff.mp
    (KeyOrder.contains_iff.mpr present)
  have perm := OrderedDict.entries_perm_erase found
  rw [KeyOrder.keys, KeyOrder.keys, List.length_map, List.length_map]
  exact perm.length_eq.symm

/-! ## The policy -/

namespace ArcPolicy

/-- One of the four lists has the key. -/
def Knows (policy : ArcPolicy) (key : BlockHash) : Prop :=
  ∃ keys ∈ policy.lists, key ∈ keys

/-- What putting new hashes does to the policy.  A victim from the second list
is paid for by the growth of the first one towards the target. -/
structure Scanned (new : List BlockHash) (before after : ArcPolicy) :
    Prop where
  target : after.p = before.p
  reused : after.t2.keys.Sublist before.t2.keys
  paid :
    before.t2.keys.length + (before.p + 1 - after.t1.keys.length) ≤
      after.t2.keys.length + (before.p + 1 - before.t1.keys.length)
  known : ∀ key, after.Knows key → before.Knows key ∨ key ∈ new

variable {policy middle after : ArcPolicy} {key victim : BlockHash}
  {new later : List BlockHash}

theorem Scanned.refl (policy : ArcPolicy) (new : List BlockHash) :
    Scanned new policy policy where
  target := rfl
  reused := List.Sublist.refl _
  paid := Nat.le_refl _
  known := fun _ known => Or.inl known

theorem Scanned.trans (first : Scanned new policy middle)
    (second : Scanned later middle after) :
    Scanned (new ++ later) policy after where
  target := second.target.trans first.target
  reused := second.reused.trans first.reused
  paid := by
    have paidFirst := first.paid
    have paidSecond := second.paid
    rw [first.target] at paidSecond
    omega
  known := by
    intro key known
    rw [List.mem_append]
    rcases second.known key known with before | isLater
    · exact (first.known key before).imp_right Or.inl
    · exact Or.inr (Or.inr isLater)

theorem knows_iff :
    policy.Knows key ↔
      key ∈ policy.t1.keys ∨ key ∈ policy.t2.keys ∨
        key ∈ policy.b1.keys ∨ key ∈ policy.b2.keys := by
  simp [Knows, lists]

/-- Trimming the ghosts makes nothing known. -/
private theorem knows_of_trimGhosts
    (known : policy.trimGhosts.Knows key) : policy.Knows key := by
  rw [knows_iff] at known ⊢
  rcases known with first | second | third | fourth
  · exact Or.inl first
  · exact Or.inr (Or.inl second)
  · exact Or.inr (Or.inr (Or.inl (mem_keepNewest third)))
  · exact Or.inr (Or.inr (Or.inr (mem_keepNewest fourth)))

/-- A hash the policy has never seen is admitted into the first list. -/
private theorem admitKey_of_unknown (unknown : ¬ policy.Knows key) :
    (policy.admitKey key).p = policy.p ∧
      (policy.admitKey key).t1.keys = policy.t1.keys ++ [key] ∧
      (policy.admitKey key).t2 = policy.t2 ∧
      ∀ other, (policy.admitKey key).Knows other →
        policy.Knows other ∨ other = key := by
  rw [knows_iff, not_or, not_or, not_or] at unknown
  obtain ⟨first, second, third, fourth⟩ := unknown
  have opened : policy.admitKey key =
      trimGhosts { policy with t1 := policy.t1.set key () } := by
    rw [admitKey, if_neg (KeyOrder.contains_iff.not.mpr third),
      if_neg (KeyOrder.contains_iff.not.mpr fourth)]
  rw [opened]
  refine ⟨rfl, KeyOrder.keys_set_of_notMem first, rfl, ?_⟩
  intro other known
  have before := knows_iff.mp (knows_of_trimGhosts known)
  simp only [KeyOrder.mem_keys_set] at before
  rw [knows_iff]
  tauto

/-- A victim from the first list. -/
private theorem evict_of_mem_first (member : victim ∈ policy.t1.keys) :
    (policy.evict victim).p = policy.p ∧
      (policy.evict victim).t1 = policy.t1.erase victim ∧
      (policy.evict victim).t2 = policy.t2 ∧
      ∀ other, (policy.evict victim).Knows other → policy.Knows other := by
  have opened : policy.evict victim =
      trimGhosts { policy with
        t1 := policy.t1.erase victim
        b1 := policy.b1.set victim () } := by
    rw [evict, if_pos (KeyOrder.contains_iff.mpr member)]
  rw [opened]
  refine ⟨rfl, rfl, rfl, ?_⟩
  intro other known
  have before := knows_iff.mp (knows_of_trimGhosts known)
  simp only [KeyOrder.mem_keys_set, KeyOrder.mem_keys_erase] at before
  rw [knows_iff]
  by_cases same : other = victim
  · rw [same]
    exact Or.inl member
  · tauto

/-- A victim from the second list. -/
private theorem evict_of_mem_second (absent : victim ∉ policy.t1.keys)
    (member : victim ∈ policy.t2.keys) :
    (policy.evict victim).p = policy.p ∧
      (policy.evict victim).t1 = policy.t1 ∧
      (policy.evict victim).t2 = policy.t2.erase victim ∧
      ∀ other, (policy.evict victim).Knows other → policy.Knows other := by
  have opened : policy.evict victim =
      trimGhosts { policy with
        t2 := policy.t2.erase victim
        b2 := policy.b2.set victim () } := by
    rw [evict, if_neg (KeyOrder.contains_iff.not.mpr absent),
      if_pos (KeyOrder.contains_iff.mpr member)]
  rw [opened]
  refine ⟨rfl, rfl, rfl, ?_⟩
  intro other known
  have before := knows_iff.mp (knows_of_trimGhosts known)
  simp only [KeyOrder.mem_keys_set, KeyOrder.mem_keys_erase] at before
  rw [knows_iff]
  by_cases same : other = victim
  · rw [same]
    exact Or.inr (Or.inl member)
  · tauto

/-- The first victim is from the second list only while the first list is not
longer than the target. -/
theorem first_victim {rest : List BlockHash}
    (order : policy.victims = victim :: rest) :
    victim ∈ policy.t1.keys ∨
      victim ∈ policy.t2.keys ∧ policy.t1.keys.length ≤ policy.p := by
  have same : policy.t1.keys.length = policy.t1.entries.length :=
    List.length_map _
  rw [victims] at order
  split at order
  next long =>
    left
    cases keys : policy.t1.keys with
    | nil =>
        rw [keys, List.length_nil] at same
        omega
    | cons head tail =>
        rw [keys, List.cons_append] at order
        rw [(List.cons.inj order).1]
        exact List.mem_cons_self
  next short =>
    cases keys : policy.t2.keys with
    | nil =>
        rw [keys, List.nil_append] at order
        left
        rw [order]
        exact List.mem_cons_self
    | cons head tail =>
        rw [keys, List.cons_append] at order
        right
        rw [(List.cons.inj order).1]
        exact ⟨List.mem_cons_self, by omega⟩

/-- A new hash is admitted. -/
theorem scanned_admitKey (unknown : ¬ policy.Knows key) :
    Scanned [key] policy (policy.admitKey key) := by
  obtain ⟨target, first, second, known⟩ := admitKey_of_unknown unknown
  constructor
  · exact target
  · rw [second]
  · rw [first, second, List.length_append]
    omega
  · intro other isKnown
    rw [List.mem_singleton]
    exact known other isKnown

/-- A new hash takes the place of the first victim. -/
theorem scanned_replace {capacity : Nat} (books : policy.Books capacity)
    (unknown : ¬ policy.Knows key) {rest : List BlockHash}
    (order : policy.victims = victim :: rest) :
    Scanned [key] policy ((policy.evict victim).admitKey key) := by
  rcases first_victim order with inFirst | ⟨inSecond, short⟩
  · obtain ⟨evictTarget, evictFirst, evictSecond, evictKnown⟩ :=
      evict_of_mem_first inFirst
    have still : ¬ (policy.evict victim).Knows key :=
      fun known => unknown (evictKnown key known)
    obtain ⟨target, first, second, known⟩ := admitKey_of_unknown still
    have erased := KeyOrder.length_erase inFirst
    constructor
    · rw [target, evictTarget]
    · rw [second, evictSecond]
    · rw [first, second, evictFirst, evictSecond, List.length_append,
        List.length_singleton]
      omega
    · intro other isKnown
      rw [List.mem_singleton]
      exact (known other isKnown).imp_left (evictKnown other)
  · have apart := lists_pairwise_iff.mp books.apart victim
    have absent : victim ∉ policy.t1.keys :=
      fun inFirst => (apart.1 inFirst).1 inSecond
    obtain ⟨evictTarget, evictFirst, evictSecond, evictKnown⟩ :=
      evict_of_mem_second absent inSecond
    have still : ¬ (policy.evict victim).Knows key :=
      fun known => unknown (evictKnown key known)
    obtain ⟨target, first, second, known⟩ := admitKey_of_unknown still
    have erased := KeyOrder.length_erase inSecond
    constructor
    · rw [target, evictTarget]
    · rw [second, evictSecond, KeyOrder.keys_erase]
      exact List.filter_sublist
    · rw [first, second, evictFirst, evictSecond, List.length_append,
        List.length_singleton]
      omega
    · intro other isKnown
      rw [List.mem_singleton]
      exact (known other isKnown).imp_left (evictKnown other)

end ArcPolicy

/-! ## The cache -/

namespace StagingDataCache

variable {Slot : Type}

/-- No entry is pinned. -/
def Idle (cache : StagingDataCache Slot) : Prop :=
  ∀ slot ∈ cache.slots.values, cache.copiesInflight slot ≤ 0

instance (cache : StagingDataCache Slot) : Decidable cache.Idle :=
  inferInstanceAs (Decidable (∀ slot ∈ cache.slots.values, _))

variable {cache smaller : StagingDataCache Slot} {capacity : Nat}
  {freed : Slot}

/-- In a cache without pinned entries the first victim is taken. -/
theorem evictOne_first (named : cache.Named capacity) (idle : cache.Idle)
    (evicted : cache.evictOne = some (freed, smaller)) :
    ∃ victim rest, cache.policy.victims = victim :: rest ∧
      smaller = cache.evict victim := by
  simp only [evictOne, Option.map_eq_some_iff] at evicted
  obtain ⟨slot, chosen, same⟩ := evicted
  cases order : cache.policy.victims with
  | nil =>
      rw [order] at chosen
      cases chosen
  | cons victim rest =>
      have member : victim ∈ cache.policy.victims := by
        rw [order]
        exact List.mem_cons_self
      obtain ⟨entry, found⟩ :=
        contains_iff.mp ((named.resident victim).mp member)
      have unpinned := idle entry (OrderedDict.mem_values_of_find? found)
      have picks : cache.evictable victim = some entry := by
        simp [evictable, found, unpinned]
      rw [order, List.findSome?_cons, picks] at chosen
      have key := cache.keyed victim entry found
      cases chosen
      cases same
      exact ⟨victim, rest, rfl, by rw [key]⟩

theorem Idle.evictOne (idle : cache.Idle)
    (evicted : cache.evictOne = some (freed, smaller)) : smaller.Idle := by
  obtain ⟨slot, found, _, _, same⟩ := evictOne_eq_some evicted
  rw [same]
  intro other listed
  have perm := OrderedDict.values_perm_erase found
  exact idle other (perm.mem_iff.mpr (List.mem_cons_of_mem slot listed))

variable [DecidableEq Slot] {blockHash : BlockHash} {slotIndex : Slot}

theorem Idle.insert (idle : cache.Idle)
    (missing : cache.slots.find? blockHash = none) :
    (cache.insert blockHash slotIndex).Idle := by
  intro other listed
  have perm : (cache.insert blockHash slotIndex).slots.values.Perm
      (⟨cache.nextOid, blockHash, slotIndex⟩ :: cache.slots.values) :=
    OrderedDict.values_set_of_none missing
  change Function.update cache.copiesInflight _ 0 other ≤ 0
  rw [Function.update_apply]
  split
  next => exact Int.le_refl 0
  next different =>
    rcases List.mem_cons.mp (perm.mem_iff.mp listed) with new | old
    · exact absurd new different
    · exact idle other old

theorem Idle.put (idle : cache.Idle) :
    (cache.put blockHash slotIndex).2.Idle := by
  rcases cache.put_cases blockHash slotIndex with
    same | ⟨missing, put⟩ | ⟨freed, smaller, missing, evicted, put⟩
  · rw [same]
    exact idle
  · rw [put]
    exact idle.insert missing
  · rw [put]
    exact (idle.evictOne evicted).insert
      (missing_evictOne evicted missing)

/-- One put of a scan. -/
theorem put_scanned {arc : ArcPolicy} (slotIndex : Slot)
    (named : cache.Named capacity) (idle : cache.Idle)
    (policy : cache.policy = .arc arc)
    (unknown : ¬ arc.Knows blockHash) :
    ∃ after, (cache.put blockHash slotIndex).2.policy = .arc after ∧
      ArcPolicy.Scanned [blockHash] arc after := by
  have outcome := cache.put_outcome blockHash slotIndex
  generalize cache.put blockHash slotIndex = result at outcome ⊢
  cases outcome with
  | declined _ => exact ⟨arc, policy, .refl arc _⟩
  | room _ _ _ =>
      exact ⟨arc.admitKey blockHash,
        congrArg (EvictionPolicy.admitKey blockHash) policy,
        ArcPolicy.scanned_admitKey unknown⟩
  | pinned _ _ _ _ =>
      exact ⟨arc.admitKey blockHash,
        congrArg (EvictionPolicy.admitKey blockHash) policy,
        ArcPolicy.scanned_admitKey unknown⟩
  | replaced _ _ _ evicted =>
      obtain ⟨victim, rest, order, same⟩ :=
        evictOne_first named idle evicted
      have books := named.policy
      rw [policy] at order books
      have smallerPolicy := congrArg (EvictionPolicy.evict victim) policy
      refine ⟨(arc.evict victim).admitKey blockHash, ?_,
        ArcPolicy.scanned_replace books unknown order⟩
      rw [same]
      exact congrArg (EvictionPolicy.admitKey blockHash) smallerPolicy

end StagingDataCache

/-! ## Scans -/

namespace Ledger

variable {Slot : Type} [DecidableEq Slot] {ledger : Ledger Slot}
  {capacity : Nat}

/-- The puts of a scan. -/
def scanPuts (scan : List (BlockHash × Slot)) : List (Operation Slot) :=
  scan.map fun entry => .put entry.1 entry.2

theorem named_after (named : ledger.cache.Named capacity)
    (operation : Operation Slot) :
    (ledger.after operation).cache.Named capacity := by
  cases operation with
  | put blockHash slotIndex => exact named.put
  | get blockHash => exact named.get
  | pin slot => exact ⟨named.policy, named.resident⟩
  | unpin slot => exact ⟨named.policy, named.resident⟩
  | evictOne =>
      unfold Ledger.after
      cases evicted : ledger.cache.evictOne with
      | none => exact named
      | some victim => exact named.evictOne evicted
  | drain => exact named.drain

theorem named_run (named : ledger.cache.Named capacity)
    (operations : List (Operation Slot)) :
    (ledger.run operations).cache.Named capacity := by
  induction operations generalizing ledger with
  | nil => exact named
  | cons operation operations inductionHypothesis =>
      exact inductionHypothesis (named_after named operation)

/-- The policy after a scan. -/
theorem scan_scanned {arc : ArcPolicy}
    (named : ledger.cache.Named capacity) (idle : ledger.cache.Idle)
    (policy : ledger.cache.policy = .arc arc)
    (scan : List (BlockHash × Slot)) (distinct : (scan.map Prod.fst).Nodup)
    (unknown : ∀ blockHash ∈ scan.map Prod.fst, ¬ arc.Knows blockHash) :
    ∃ after, (ledger.run (scanPuts scan)).cache.policy = .arc after ∧
      ArcPolicy.Scanned (scan.map Prod.fst) arc after := by
  induction scan generalizing ledger arc with
  | nil => exact ⟨arc, policy, .refl arc _⟩
  | cons entry scan inductionHypothesis =>
      obtain ⟨blockHash, slotIndex⟩ := entry
      obtain ⟨notLater, distinctLater⟩ := List.nodup_cons.mp distinct
      obtain ⟨middle, middlePolicy, first⟩ :=
        StagingDataCache.put_scanned slotIndex named idle policy
          (unknown blockHash List.mem_cons_self)
      have stillUnknown : ∀ other ∈ scan.map Prod.fst,
          ¬ middle.Knows other := by
        intro other member known
        rcases first.known other known with before | isNew
        · exact unknown other (List.mem_cons_of_mem _ member) before
        · rw [List.mem_singleton.mp isNew] at member
          exact notLater member
      obtain ⟨after, afterPolicy, second⟩ := inductionHypothesis
        (named_after named (.put blockHash slotIndex)) idle.put
        middlePolicy distinctLater stillUnknown
      exact ⟨after, afterPolicy, first.trans second⟩

/-- The target stays, nothing joins the second list, and only as many of its
entries are evicted as the first list was short of exceeding the target. -/
structure Withstands (arc : ArcPolicy) (ledger : Ledger Slot) : Prop where
  target : ∃ after, ledger.cache.policy = .arc after ∧
    after.p = arc.p ∧ after.t2.keys.Sublist arc.t2.keys
  evicted :
    (arc.t2.keys.filter fun blockHash =>
        !ledger.cache.contains blockHash).length ≤
      arc.p + 1 - arc.t1.keys.length

/-- ARC mode is scan resistant. -/
theorem scan_withstands {arc : ArcPolicy}
    (operations : List (Operation Slot))
    (policy : ((start (.arc (.init capacity)) capacity).run
      operations).cache.policy = .arc arc)
    (idle : ((start (.arc (.init capacity)) capacity).run
      operations).cache.Idle)
    (scan : List (BlockHash × Slot)) (distinct : (scan.map Prod.fst).Nodup)
    (new : ∀ blockHash ∈ scan.map Prod.fst,
      ((start (.arc (.init capacity)) capacity).run
          operations).cache.contains blockHash = false ∧
        blockHash ∉ arc.b1.keys ∧ blockHash ∉ arc.b2.keys) :
    Withstands arc (((start (.arc (.init capacity)) capacity).run
      operations).run (scanPuts scan)) := by
  have built : (start (.arc (.init capacity)) capacity :
      Ledger Slot).cache.Named capacity := .init .arc
  have named := named_run built operations
  generalize (start (.arc (.init capacity)) capacity : Ledger Slot).run
    operations = ledger at policy idle new named ⊢
  have unknown : ∀ blockHash ∈ scan.map Prod.fst,
      ¬ arc.Knows blockHash := by
    intro blockHash member known
    obtain ⟨absent, notFirst, notSecond⟩ := new blockHash member
    have unnamed := (named.resident blockHash).not.mpr
      (by rw [absent]; exact Bool.false_ne_true)
    rw [policy, EvictionPolicy.victims, EvictionPolicy.mem_arc_victims,
      not_or] at unnamed
    rw [ArcPolicy.knows_iff] at known
    tauto
  obtain ⟨after, afterPolicy, scanned⟩ :=
    scan_scanned named idle policy scan distinct unknown
  have afterNamed := named_run named (scanPuts scan)
  constructor
  · exact ⟨after, afterPolicy, scanned.target, scanned.reused⟩
  · have resident : ∀ blockHash ∈ after.t2.keys,
        (ledger.run (scanPuts scan)).cache.contains blockHash = true := by
      intro blockHash member
      apply (afterNamed.resident blockHash).mp
      rw [afterPolicy, EvictionPolicy.victims,
        EvictionPolicy.mem_arc_victims]
      exact Or.inr member
    have kept : after.t2.keys.Sublist (arc.t2.keys.filter fun blockHash =>
        (ledger.run (scanPuts scan)).cache.contains blockHash) := by
      have filtered := scanned.reused.filter fun blockHash =>
        (ledger.run (scanPuts scan)).cache.contains blockHash
      rwa [List.filter_eq_self.mpr resident] at filtered
    have split := List.length_eq_length_filter_add (l := arc.t2.keys)
      fun blockHash =>
        (ledger.run (scanPuts scan)).cache.contains blockHash
    have enough := kept.length_le
    have paid := scanned.paid
    omega

/-- A block that was used twice and one that was used once, in a cache for
three. -/
def reusedBlock : Ledger Nat :=
  (start (.arc (.init 3)) 3).run [.put [1] 5, .get [1], .put [2] 6]

/-- Three new blocks go through a cache that holds a reused one. -/
theorem reusedBlock_withstands :
    ∃ arc, reusedBlock.cache.policy = .arc arc ∧
      Withstands arc
        (reusedBlock.run (scanPuts [([3], 7), ([4], 8), ([5], 9)])) :=
  ⟨_, rfl, scan_withstands _ rfl (by decide +kernel) _ (by decide)
    (by decide +kernel)⟩

end Ledger

end PyKvCache.Staging
