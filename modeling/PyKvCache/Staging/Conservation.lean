import PyKvCache.Staging.StagingCache

/-!
# The staging cache conserves slots

Over any sequence of operations the policy names exactly the hashes that are
cached, and every slot that was put is held by one entry or was handed back.
-/

namespace PyKvCache.Staging

open PyKvCache.Library

/-! ## The policies -/

namespace ArcPolicy

/-- The four lists. -/
def lists (policy : ArcPolicy) : List (List BlockHash) :=
  [policy.t1.keys, policy.t2.keys, policy.b1.keys, policy.b2.keys]

/-- The lists have nothing in common, the ghosts and the target are
bounded. -/
structure Books (capacity : Nat) (policy : ArcPolicy) : Prop where
  c : policy.c = max 1 capacity
  apart : policy.lists.Pairwise List.Disjoint
  b1 : policy.b1.entries.length ≤ policy.c
  b2 : policy.b2.entries.length ≤ policy.c
  p : policy.p ≤ policy.c

variable {policy : ArcPolicy} {capacity : Nat} {key : BlockHash}

theorem lists_pairwise_iff :
    policy.lists.Pairwise List.Disjoint ↔
      ∀ other,
        (other ∈ policy.t1.keys → other ∉ policy.t2.keys ∧
          other ∉ policy.b1.keys ∧ other ∉ policy.b2.keys) ∧
        (other ∈ policy.t2.keys →
          other ∉ policy.b1.keys ∧ other ∉ policy.b2.keys) ∧
        (other ∈ policy.b1.keys → other ∉ policy.b2.keys) := by
  simp only [lists, List.pairwise_cons, List.mem_cons, List.not_mem_nil,
    or_false, forall_eq_or_imp, forall_eq, List.Disjoint, imp_false,
    List.Pairwise.nil, and_true, false_imp_iff, implies_true]
  constructor
  · intro apart other
    exact ⟨fun first => ⟨apart.1.1 first, apart.1.2.1 first,
        apart.1.2.2 first⟩,
      fun second => ⟨apart.2.1.1 second, apart.2.1.2 second⟩,
      fun third => apart.2.2 third⟩
  · intro each
    exact ⟨⟨fun other first => (((each other).1 first).1),
        fun other first => ((each other).1 first).2.1,
        fun other first => ((each other).1 first).2.2⟩,
      ⟨fun other second => ((each other).2.1 second).1,
        fun other second => ((each other).2.1 second).2⟩,
      fun other third => (each other).2.2 third⟩

/-- A key that is in one list only, while the others stay where they are. -/
private theorem lists_pairwise_of_moved {before after : ArcPolicy}
    (apart : before.lists.Pairwise List.Disjoint)
    (others : ∀ other, other ≠ key →
      (other ∈ after.t1.keys → other ∈ before.t1.keys) ∧
      (other ∈ after.t2.keys → other ∈ before.t2.keys) ∧
      (other ∈ after.b1.keys → other ∈ before.b1.keys) ∧
      (other ∈ after.b2.keys → other ∈ before.b2.keys))
    (once : (key ∉ after.t2.keys ∧ key ∉ after.b1.keys ∧
        key ∉ after.b2.keys) ∨
      key ∉ after.t1.keys ∧ key ∉ after.b2.keys ∧
        (key ∉ after.b1.keys ∨ key ∉ after.t2.keys) ∨
      key ∉ after.t1.keys ∧ key ∉ after.t2.keys ∧ key ∉ after.b1.keys) :
    after.lists.Pairwise List.Disjoint := by
  rw [lists_pairwise_iff] at apart ⊢
  intro other
  by_cases same : other = key
  · subst same
    rcases once with first | ⟨t1, b2, b1 | t2⟩ | ⟨t1, t2, b1⟩
    · exact ⟨fun _ => first, fun second => absurd second first.1,
        fun third => absurd third first.2.1⟩
    · exact ⟨fun first => absurd first t1, fun _ => ⟨b1, b2⟩, fun _ => b2⟩
    · exact ⟨fun first => absurd first t1, fun second => absurd second t2,
        fun _ => b2⟩
    · exact ⟨fun first => absurd first t1, fun second => absurd second t2,
        fun third => absurd third b1⟩
  · obtain ⟨t1, t2, b1, b2⟩ := others other same
    obtain ⟨first, second, third⟩ := apart other
    refine ⟨?_, ?_, ?_⟩
    · intro member
      have was := first (t1 member)
      exact ⟨fun in2 => was.1 (t2 in2), fun in3 => was.2.1 (b1 in3),
        fun in4 => was.2.2 (b2 in4)⟩
    · intro member
      have was := second (t2 member)
      exact ⟨fun in3 => was.1 (b1 in3), fun in4 => was.2 (b2 in4)⟩
    · intro member in4
      exact third (b1 member) (b2 in4)

theorem Books.init (capacity : Nat) : Books capacity (.init capacity) where
  c := rfl
  apart := by
    rw [lists_pairwise_iff]
    intro other
    simp [ArcPolicy.init, KeyOrder.keys, OrderedDict.empty]
  b1 := Nat.zero_le _
  b2 := Nat.zero_le _
  p := Nat.zero_le _

theorem mem_keepNewest {order : KeyOrder} {limit : Nat}
    (member : key ∈ KeyOrder.keys (order.keepNewest limit)) :
    key ∈ order.keys := by
  obtain ⟨entry, listed, rfl⟩ := List.mem_map.mp member
  exact List.mem_map_of_mem (OrderedDict.mem_keepNewest_entries listed)

/-- Trimming bounds the ghosts and keeps everything apart. -/
private theorem Books.trimGhosts (c : policy.c = max 1 capacity)
    (apart : policy.lists.Pairwise List.Disjoint)
    (p : policy.p ≤ policy.c) : Books capacity policy.trimGhosts where
  c := c
  apart := by
    rw [lists_pairwise_iff] at apart ⊢
    intro other
    obtain ⟨first, second, third⟩ := apart other
    have b1 := @mem_keepNewest other policy.b1 policy.c
    have b2 := @mem_keepNewest other policy.b2 policy.c
    refine ⟨?_, ?_, ?_⟩
    · intro member
      exact ⟨(first member).1, fun in3 => (first member).2.1 (b1 in3),
        fun in4 => (first member).2.2 (b2 in4)⟩
    · intro member
      exact ⟨fun in3 => (second member).1 (b1 in3),
        fun in4 => (second member).2 (b2 in4)⟩
    · intro member in4
      exact third (b1 member) (b2 in4)
  b1 := OrderedDict.length_keepNewest_le
  b2 := OrderedDict.length_keepNewest_le
  p := p

/-- A new key is put into one list, out of the ghosts. -/
theorem Books.admitKey (books : Books capacity policy)
    (fresh : key ∉ policy.t1.keys ∧ key ∉ policy.t2.keys) :
    Books capacity (policy.admitKey key) := by
  obtain ⟨_, _, apart⟩ := lists_pairwise_iff.mp books.apart key
  unfold ArcPolicy.admitKey
  split
  next ghost =>
    rw [KeyOrder.contains_iff] at ghost
    apply Books.trimGhosts
    · exact books.c
    · apply @lists_pairwise_of_moved key _ _ books.apart
      · intro other different
        simp [KeyOrder.mem_keys_set, KeyOrder.mem_keys_erase, different]
      · right
        left
        exact ⟨fresh.1, apart ghost, Or.inl fun member =>
          (KeyOrder.mem_keys_erase.mp member).2 rfl⟩
    · exact Nat.min_le_left _ _
  next unknown =>
    rw [KeyOrder.contains_iff] at unknown
    split
    next ghost =>
      apply Books.trimGhosts
      · exact books.c
      · apply @lists_pairwise_of_moved key _ _ books.apart
        · intro other different
          simp [KeyOrder.mem_keys_set, KeyOrder.mem_keys_erase, different]
        · right
          left
          exact ⟨fresh.1, fun member =>
            (KeyOrder.mem_keys_erase.mp member).2 rfl, Or.inl unknown⟩
      · exact Nat.le_trans (Nat.sub_le _ _) books.p
    next noGhost =>
      rw [KeyOrder.contains_iff] at noGhost
      apply Books.trimGhosts
      · exact books.c
      · apply @lists_pairwise_of_moved key _ _ books.apart
        · intro other different
          simp [KeyOrder.mem_keys_set, different]
        · left
          exact ⟨fresh.2, unknown, noGhost⟩
      · exact books.p

/-- An access moves a key to the second list. -/
theorem Books.touch (books : Books capacity policy) :
    Books capacity (policy.touch key) := by
  obtain ⟨apart, _⟩ := lists_pairwise_iff.mp books.apart key
  unfold ArcPolicy.touch
  split
  next resident =>
    rw [KeyOrder.contains_iff] at resident
    refine ⟨books.c, ?_, books.b1, books.b2, books.p⟩
    apply @lists_pairwise_of_moved key _ _ books.apart
    · intro other different
      simp [KeyOrder.mem_keys_set, KeyOrder.mem_keys_erase, different]
    · right
      left
      exact ⟨fun member => (KeyOrder.mem_keys_erase.mp member).2 rfl,
        (apart resident).2.2, Or.inl (apart resident).2.1⟩
  next =>
    split
    next =>
      refine ⟨books.c, ?_, books.b1, books.b2, books.p⟩
      have same := lists_pairwise_iff.mp books.apart
      rw [lists_pairwise_iff]
      intro other
      simp only [KeyOrder.mem_keys_moveToEnd]
      exact same other
    next => exact books

/-- A victim becomes a ghost. -/
theorem Books.evict (books : Books capacity policy) :
    Books capacity (policy.evict key) := by
  obtain ⟨first, second, _⟩ := lists_pairwise_iff.mp books.apart key
  unfold ArcPolicy.evict
  split
  next resident =>
    rw [KeyOrder.contains_iff] at resident
    apply Books.trimGhosts
    · exact books.c
    · apply @lists_pairwise_of_moved key _ _ books.apart
      · intro other different
        simp [KeyOrder.mem_keys_set, KeyOrder.mem_keys_erase, different]
      · right
        left
        exact ⟨fun member => (KeyOrder.mem_keys_erase.mp member).2 rfl,
          (first resident).2.2, Or.inr (first resident).1⟩
    · exact books.p
  next absent =>
    rw [KeyOrder.contains_iff] at absent
    split
    next resident =>
      rw [KeyOrder.contains_iff] at resident
      apply Books.trimGhosts
      · exact books.c
      · apply @lists_pairwise_of_moved key _ _ books.apart
        · intro other different
          simp [KeyOrder.mem_keys_set, KeyOrder.mem_keys_erase, different]
        · right
          right
          exact ⟨absent, fun member =>
            (KeyOrder.mem_keys_erase.mp member).2 rfl, (second resident).1⟩
      · exact books.p
    next => exact Books.trimGhosts books.c books.apart books.p

/-- Evicting a key leaves no trace of it among the residents. -/
theorem Books.not_mem_evict (books : Books capacity policy) :
    key ∉ (policy.evict key).t1.keys ∧ key ∉ (policy.evict key).t2.keys := by
  obtain ⟨first, _⟩ := lists_pairwise_iff.mp books.apart key
  unfold ArcPolicy.evict
  split
  next resident =>
    rw [KeyOrder.contains_iff] at resident
    exact ⟨fun member => (KeyOrder.mem_keys_erase.mp member).2 rfl,
      (first resident).1⟩
  next absent =>
    rw [KeyOrder.contains_iff] at absent
    split
    next =>
      exact ⟨absent, fun member =>
        (KeyOrder.mem_keys_erase.mp member).2 rfl⟩
    next missing =>
      rw [KeyOrder.contains_iff] at missing
      exact ⟨absent, missing⟩

/-- Evicting a key brings no other one in. -/
theorem mem_of_mem_evict {other : BlockHash} :
    (other ∈ (policy.evict key).t1.keys → other ∈ policy.t1.keys) ∧
      (other ∈ (policy.evict key).t2.keys → other ∈ policy.t2.keys) := by
  unfold ArcPolicy.evict
  split
  next =>
    exact ⟨fun member => (KeyOrder.mem_keys_erase.mp member).1, id⟩
  next =>
    split
    next =>
      exact ⟨id, fun member => (KeyOrder.mem_keys_erase.mp member).1⟩
    next => exact ⟨id, id⟩

end ArcPolicy

namespace EvictionPolicy

/-- The books of the policy that is in use. -/
def Books (capacity : Nat) : EvictionPolicy → Prop
  | .lru _ => True
  | .arc policy => policy.Books capacity

/-- What `make_policy` builds. -/
inductive Made (capacity : Nat) : EvictionPolicy → Prop
  | lru : Made capacity (.lru .empty)
  | arc : Made capacity (.arc (.init capacity))

variable {policy : EvictionPolicy} {capacity : Nat} {key other : BlockHash}

theorem Made.books (made : Made capacity policy) :
    policy.Books capacity ∧ policy.victims = [] := by
  cases made with
  | lru => exact ⟨trivial, rfl⟩
  | arc => exact ⟨.init capacity, rfl⟩

theorem Books.admitKey (books : policy.Books capacity)
    (fresh : key ∉ policy.victims) :
    (policy.admitKey key).Books capacity := by
  cases policy with
  | lru order => trivial
  | arc policy =>
      have apart : key ∉ policy.t1.keys ∧ key ∉ policy.t2.keys := by
        rw [victims, mem_arc_victims, not_or] at fresh
        exact fresh
      exact ArcPolicy.Books.admitKey books apart

theorem Books.touch (books : policy.Books capacity) :
    (policy.touch key).Books capacity := by
  cases policy with
  | lru order => trivial
  | arc policy => exact ArcPolicy.Books.touch books

theorem Books.evict (books : policy.Books capacity) :
    (policy.evict key).Books capacity := by
  cases policy with
  | lru order => trivial
  | arc policy => exact ArcPolicy.Books.evict books

theorem Books.clear (books : policy.Books capacity) :
    policy.clear.Books capacity ∧ policy.clear.victims = [] := by
  cases policy with
  | lru order => exact ⟨trivial, rfl⟩
  | arc policy =>
      have same : (⟨policy.c, 0, .empty, .empty, .empty, .empty⟩ :
          ArcPolicy) = .init capacity := by
        rw [ArcPolicy.init, books.c]
      simp only [EvictionPolicy.clear, same]
      exact ⟨.init capacity, rfl⟩

/-- Evicting a key loses exactly that key. -/
theorem Books.mem_victims_evict_iff (books : policy.Books capacity) :
    other ∈ (policy.evict key).victims ↔
      other ∈ policy.victims ∧ other ≠ key := by
  constructor
  · intro member
    cases policy with
    | lru order => exact KeyOrder.mem_keys_erase.mp member
    | arc policy =>
        have gone := @ArcPolicy.Books.not_mem_evict policy capacity key books
        have kept := @ArcPolicy.mem_of_mem_evict policy key other
        change other ∈ (policy.evict key).victims at member
        rw [mem_arc_victims] at member
        rw [victims, mem_arc_victims]
        constructor
        · exact member.imp kept.1 kept.2
        · rintro rfl
          exact member.elim gone.1 gone.2
  · rintro ⟨member, different⟩
    exact mem_victims_evict member different

end EvictionPolicy

/-! ## What the policy names -/

namespace StagingDataCache

variable {Slot : Type}

theorem contains_iff {cache : StagingDataCache Slot}
    {blockHash : BlockHash} :
    cache.contains blockHash = true ↔
      ∃ slot, cache.slots.find? blockHash = some slot :=
  OrderedDict.contains_iff

/-- The policy is in order and names exactly the hashes that are cached. -/
structure Named (capacity : Nat) (cache : StagingDataCache Slot) :
    Prop where
  policy : cache.policy.Books capacity
  resident : ∀ blockHash, blockHash ∈ cache.policy.victims ↔
    cache.contains blockHash = true

namespace Named

variable {capacity : Nat} {cache : StagingDataCache Slot}
  {blockHash : BlockHash}

theorem init {policy : EvictionPolicy}
    (made : EvictionPolicy.Made capacity policy) :
    Named capacity (StagingDataCache.init policy capacity :
      StagingDataCache Slot) := by
  obtain ⟨books, none⟩ := made.books
  constructor
  · exact books
  · intro other
    change other ∈ policy.victims ↔ _
    rw [none]
    simp [StagingDataCache.init, StagingDataCache.contains,
      OrderedDict.contains]

theorem evict (named : Named capacity cache) :
    Named capacity (cache.evict blockHash) := by
  constructor
  · exact named.policy.evict
  · intro other
    have before := named.resident other
    change other ∈ (cache.policy.evict blockHash).victims ↔
      (cache.slots.erase blockHash).contains other = true
    rw [named.policy.mem_victims_evict_iff, before, contains_iff,
      OrderedDict.contains_iff]
    simp only [OrderedDict.find?_erase]
    by_cases same : other = blockHash
    · simp [same]
    · simp [same]

theorem evictOne (named : Named capacity cache) {freed : Slot}
    {smaller : StagingDataCache Slot}
    (evicted : cache.evictOne = some (freed, smaller)) :
    Named capacity smaller := by
  obtain ⟨slot, _, _, _, same⟩ := evictOne_eq_some evicted
  rw [same]
  exact named.evict

theorem get (named : Named capacity cache) :
    Named capacity (cache.get blockHash).2 := by
  rw [StagingDataCache.get]
  cases cache.slots.find? blockHash with
  | none => exact named
  | some slot =>
      constructor
      · exact named.policy.touch
      · intro other
        exact EvictionPolicy.mem_victims_touch.trans (named.resident other)

theorem drain (named : Named capacity cache) :
    Named capacity cache.drain.2 := by
  obtain ⟨books, none⟩ := named.policy.clear
  constructor
  · exact books
  · intro other
    change other ∈ cache.policy.clear.victims ↔ _
    rw [none]
    simp [StagingDataCache.drain, StagingDataCache.contains,
      OrderedDict.contains]

variable [DecidableEq Slot] {slotIndex : Slot}

theorem insert (named : Named capacity cache)
    (missing : cache.slots.find? blockHash = none) :
    Named capacity (cache.insert blockHash slotIndex) := by
  have unnamed : blockHash ∉ cache.policy.victims := by
    rw [named.resident, contains_iff, missing]
    simp
  constructor
  · exact named.policy.admitKey unnamed
  · intro other
    have before := named.resident other
    change other ∈ (cache.policy.admitKey blockHash).victims ↔
      (cache.slots.set blockHash _).contains other = true
    rw [EvictionPolicy.mem_victims_admitKey, before, contains_iff,
      OrderedDict.contains_iff]
    simp only [OrderedDict.find?_set]
    by_cases same : other = blockHash
    · simp [same]
    · simp [same]

theorem put (named : Named capacity cache) :
    Named capacity (cache.put blockHash slotIndex).2 := by
  rcases cache.put_cases blockHash slotIndex with
    same | ⟨missing, put⟩ | ⟨freed, smaller, missing, evicted, put⟩
  · rw [same]
    exact named
  · rw [put]
    exact named.insert missing
  · have still : smaller.slots.find? blockHash = none :=
      missing_evictOne evicted missing
    rw [put]
    exact (named.evictOne evicted).insert still

end Named

end StagingDataCache

/-! ## Runs of the cache -/

/-- What is done to a cache; `pin` and `unpin` are given an entry. -/
inductive Operation (Slot : Type) where
  | put (blockHash : BlockHash) (slotIndex : Slot)
  | get (blockHash : BlockHash)
  | pin (slot : CacheSlot Slot)
  | unpin (slot : CacheSlot Slot)
  | evictOne
  | drain

/-- A cache, every slot that was put into it and every slot it has handed
back. -/
structure Ledger (Slot : Type) where
  cache : StagingDataCache Slot
  puts : List Slot
  handedBack : List Slot

namespace Ledger

variable {Slot : Type}

/-- The slots the entries hold. -/
def held (ledger : Ledger Slot) : List Slot :=
  ledger.cache.slots.values.map CacheSlot.slotIndex

/-- A slot that is put is not held, and only what is pinned is unpinned. -/
def Allows (ledger : Ledger Slot) : Operation Slot → Prop
  | .put _ slotIndex => slotIndex ∉ ledger.held
  | .unpin slot => 0 < ledger.cache.copiesInflight slot
  | _ => True

variable [DecidableEq Slot]

/-- An operation, and what it hands back. -/
def after (ledger : Ledger Slot) : Operation Slot → Ledger Slot
  | .put blockHash slotIndex =>
      let (freed, cache) := ledger.cache.put blockHash slotIndex
      ⟨cache, slotIndex :: ledger.puts, freed.toList ++ ledger.handedBack⟩
  | .get blockHash => { ledger with cache := (ledger.cache.get blockHash).2 }
  | .pin slot => { ledger with cache := ledger.cache.pin slot }
  | .unpin slot => { ledger with cache := ledger.cache.unpin slot }
  | .evictOne =>
      match ledger.cache.evictOne with
      | none => ledger
      | some (freed, cache) =>
          { ledger with
            cache := cache
            handedBack := freed :: ledger.handedBack }
  | .drain =>
      let (indices, cache) := ledger.cache.drain
      { ledger with
        cache := cache
        handedBack := indices ++ ledger.handedBack }

/-- What any sequence of operations gets to. -/
inductive Reaches (Slot : Type) [DecidableEq Slot] (capacity : Nat) :
    Ledger Slot → Prop
  | init {policy : EvictionPolicy}
      (made : EvictionPolicy.Made capacity policy) :
      Reaches Slot capacity ⟨.init policy capacity, [], []⟩
  | step {ledger : Ledger Slot} (reached : Reaches Slot capacity ledger)
      (operation : Operation Slot) (allowed : ledger.Allows operation) :
      Reaches Slot capacity (ledger.after operation)

/-- The policy names what is cached, and every slot is accounted for. -/
structure Books (capacity : Nat) (ledger : Ledger Slot) : Prop where
  policy : ledger.cache.policy.Books capacity
  resident : ∀ blockHash, blockHash ∈ ledger.cache.policy.victims ↔
    ledger.cache.contains blockHash = true
  counted : ∀ slot, 0 ≤ ledger.cache.copiesInflight slot
  conserved : ledger.puts.Perm (ledger.held ++ ledger.handedBack)
  single : ledger.held.Nodup

variable {capacity : Nat} {ledger : Ledger Slot}

omit [DecidableEq Slot] in
/-- The slots that are held once an entry is gone. -/
private theorem held_perm_evict {cache : StagingDataCache Slot}
    {slot : CacheSlot Slot}
    (found : cache.slots.find? slot.blockHash = some slot) :
    (cache.slots.values.map CacheSlot.slotIndex).Perm
      (slot.slotIndex :: (cache.evict slot.blockHash).slots.values.map
        CacheSlot.slotIndex) :=
  (OrderedDict.values_perm_erase found).map CacheSlot.slotIndex

omit [DecidableEq Slot] in
theorem Books.named (books : Books capacity ledger) :
    ledger.cache.Named capacity :=
  ⟨books.policy, books.resident⟩

omit [DecidableEq Slot] in
/-- What `evict_one` leaves. -/
private theorem Books.evictOne (books : Books capacity ledger) {freed : Slot}
    {smaller : StagingDataCache Slot}
    (evicted : ledger.cache.evictOne = some (freed, smaller)) :
    Books capacity ⟨smaller, ledger.puts, freed :: ledger.handedBack⟩ := by
  have named := books.named.evictOne evicted
  obtain ⟨slot, found, _, rfl, rfl⟩ :=
    StagingDataCache.evictOne_eq_some evicted
  have perm := held_perm_evict found
  constructor
  · exact named.policy
  · exact named.resident
  · exact books.counted
  · refine books.conserved.trans ?_
    exact (perm.append_right _).trans List.perm_middle.symm
  · exact (List.nodup_cons.mp (perm.nodup books.single)).2

private theorem update_nonneg {copies : CacheSlot Slot → Int}
    (slot : CacheSlot Slot) (each : ∀ other, 0 ≤ copies other) {count : Int}
    (nonnegative : 0 ≤ count) :
    ∀ other, 0 ≤ Function.update copies slot count other := by
  intro other
  rw [Function.update_apply]
  split
  · exact nonnegative
  · exact each other

/-- What a new entry leaves. -/
private theorem Books.insert (books : Books capacity ledger)
    {blockHash : BlockHash} {slotIndex : Slot}
    (missing : ledger.cache.slots.find? blockHash = none)
    (free : slotIndex ∉ ledger.held) :
    Books capacity ⟨ledger.cache.insert blockHash slotIndex,
      slotIndex :: ledger.puts, ledger.handedBack⟩ := by
  have perm : (((ledger.cache.insert blockHash slotIndex).slots.values).map
      CacheSlot.slotIndex).Perm (slotIndex :: ledger.held) :=
    (OrderedDict.values_set_of_none missing).map CacheSlot.slotIndex
  have named : (ledger.cache.insert blockHash slotIndex).Named capacity :=
    books.named.insert missing
  constructor
  · exact named.policy
  · exact named.resident
  · exact update_nonneg _ books.counted (Int.le_refl 0)
  · refine (books.conserved.cons slotIndex).trans ?_
    exact (perm.append_right _).symm
  · exact perm.nodup_iff.mpr (List.nodup_cons.mpr ⟨free, books.single⟩)

/-- Every operation keeps the books. -/
theorem Books.after (books : Books capacity ledger)
    (operation : Operation Slot) (allowed : ledger.Allows operation) :
    Books capacity (ledger.after operation) := by
  cases operation with
  | put blockHash slotIndex =>
      rcases ledger.cache.put_cases blockHash slotIndex with
        same | ⟨missing, put⟩ | ⟨freed, smaller, missing, evicted, put⟩
      · rw [Ledger.after, same]
        refine ⟨books.policy, books.resident, books.counted, ?_,
          books.single⟩
        exact (books.conserved.cons slotIndex).trans List.perm_middle.symm
      · rw [Ledger.after, put]
        exact books.insert missing allowed
      · rw [Ledger.after, put]
        have smallerBooks := books.evictOne evicted
        have still := StagingDataCache.missing_evictOne evicted missing
        obtain ⟨slot, found, _, rfl, rfl⟩ :=
          StagingDataCache.evictOne_eq_some evicted
        have free : slotIndex ∉ (ledger.cache.evict
            slot.blockHash).slots.values.map CacheSlot.slotIndex :=
          fun member => allowed ((held_perm_evict found).mem_iff.mpr
            (List.mem_cons_of_mem _ member))
        exact smallerBooks.insert still free
  | get blockHash =>
      have named : (ledger.cache.get blockHash).2.Named capacity :=
        books.named.get
      have opened : ledger.after (.get blockHash) =
          { ledger with cache := (ledger.cache.get blockHash).2 } := rfl
      rw [opened]
      rw [StagingDataCache.get] at named ⊢
      cases found : ledger.cache.slots.find? blockHash with
      | none => exact books
      | some slot =>
          rw [found] at named
          exact ⟨named.policy, named.resident, books.counted,
            books.conserved, books.single⟩
  | pin slot =>
      have counted := update_nonneg slot books.counted
        (Int.add_nonneg (books.counted slot) (by decide : (0 : Int) ≤ 1))
      exact ⟨books.policy, books.resident, counted, books.conserved,
        books.single⟩
  | unpin slot =>
      have counted := update_nonneg slot books.counted
        (Int.le_sub_one_of_lt allowed)
      exact ⟨books.policy, books.resident, counted, books.conserved,
        books.single⟩
  | evictOne =>
      unfold Ledger.after
      cases evicted : ledger.cache.evictOne with
      | none => exact books
      | some victim => exact books.evictOne evicted
  | drain =>
      have named : ledger.cache.drain.2.Named capacity :=
        books.named.drain
      exact ⟨named.policy, named.resident, books.counted, books.conserved,
        List.nodup_nil⟩

theorem Reaches.books (reached : Reaches Slot capacity ledger) :
    Books capacity ledger := by
  induction reached with
  | @init policy made =>
      have named : (StagingDataCache.init policy capacity :
          StagingDataCache Slot).Named capacity := .init made
      exact ⟨named.policy, named.resident, fun _ => Int.le_refl 0, .refl _,
        List.nodup_nil⟩
  | step reached operation allowed inductionHypothesis =>
      exact inductionHypothesis.after operation allowed

/-- What a reached cache guarantees. -/
structure Conserves (capacity : Nat) (ledger : Ledger Slot) : Prop where
  resident : ∀ blockHash, blockHash ∈ ledger.cache.policy.victims ↔
    ledger.cache.contains blockHash = true
  ghosts : ∀ arc, ledger.cache.policy = .arc arc →
    [arc.t1.keys, arc.t2.keys, arc.b1.keys, arc.b2.keys].Pairwise
        List.Disjoint ∧
      arc.b1.entries.length ≤ max 1 capacity ∧
      arc.b2.entries.length ≤ max 1 capacity ∧ arc.p ≤ max 1 capacity
  conserved : ∀ slotIndex, ledger.puts.count slotIndex =
    ledger.held.count slotIndex + ledger.handedBack.count slotIndex
  single : ∀ slotIndex, ledger.held.count slotIndex ≤ 1
  putIdle : ∀ blockHash slotIndex freed cache, slotIndex ∉ ledger.held →
    ledger.cache.put blockHash slotIndex = (some freed, cache) →
      ∀ slot ∈ ledger.cache.slots.values, slot.slotIndex = freed →
        ledger.cache.copiesInflight slot = 0
  evictIdle : ∀ freed cache, ledger.cache.evictOne = some (freed, cache) →
    ∀ slot ∈ ledger.cache.slots.values, slot.slotIndex = freed →
      ledger.cache.copiesInflight slot = 0
  pinned : ledger.cache.evictOne = none →
    ∀ slot ∈ ledger.cache.slots.values,
      0 < ledger.cache.copiesInflight slot

omit [DecidableEq Slot] in
/-- Two entries that hold one slot are the same. -/
private theorem entry_unique (single : ledger.held.Nodup)
    {first second : CacheSlot Slot}
    (one : first ∈ ledger.cache.slots.values)
    (two : second ∈ ledger.cache.slots.values)
    (same : first.slotIndex = second.slotIndex) : first = second :=
  List.inj_on_of_nodup_map single one two same

omit [DecidableEq Slot] in
private theorem Books.evictIdle (books : Books capacity ledger) {freed : Slot}
    {cache : StagingDataCache Slot}
    (evicted : ledger.cache.evictOne = some (freed, cache)) :
    ∀ slot ∈ ledger.cache.slots.values, slot.slotIndex = freed →
      ledger.cache.copiesInflight slot = 0 := by
  intro slot listed holds
  obtain ⟨victim, found, idle, same, _⟩ :=
    StagingDataCache.evictOne_eq_some evicted
  have only := entry_unique books.single listed
    (OrderedDict.mem_values_of_find? found) (holds.trans same.symm)
  subst only
  exact Int.le_antisymm idle (books.counted slot)

/-- In every run the policy names exactly what is cached, every slot that was
put is held once or was handed back, and no slot with copies in flight is. -/
theorem cache_conserves_slots (reached : Reaches Slot capacity ledger) :
    Conserves capacity ledger := by
  have books := reached.books
  constructor
  · exact books.resident
  · intro arc same
    have policy := books.policy
    rw [same] at policy
    have c := policy.c
    rw [← c]
    exact ⟨policy.apart, policy.b1, policy.b2, policy.p⟩
  · intro slotIndex
    rw [books.conserved.count_eq, List.count_append]
  · intro slotIndex
    exact List.nodup_iff_count_le_one.mp books.single slotIndex
  · intro blockHash slotIndex freed cache free put slot listed holds
    rcases ledger.cache.put_cases blockHash slotIndex with
      same | ⟨_, same⟩ | ⟨victim, smaller, _, evicted, same⟩
    · rw [same] at put
      cases put
      exact absurd (List.mem_map.mpr ⟨slot, listed, holds⟩) free
    · rw [same] at put
      cases put
    · rw [same] at put
      cases put
      exact books.evictIdle evicted slot listed holds
  · intro freed cache evicted
    exact books.evictIdle evicted
  · intro none slot listed
    obtain ⟨blockHash, found⟩ :=
      OrderedDict.exists_find?_of_mem_values listed
    by_contra unpinned
    exact StagingDataCache.evictOne_ne_none found (Int.not_lt.mp unpinned)
      none

/-- Three blocks in a cache for one, with a hit in between. -/
theorem cache_conserves_slots_sample :
    Conserves 1 ((((⟨.init (.arc (.init 1)) 1, [], []⟩ :
        Ledger Nat).after (.put [1] 5)).after (.get [1])).after
          (.put [2] 6)) :=
  cache_conserves_slots
    ((((Reaches.init .arc).step (.put [1] 5) (by
      simp [Allows, held, StagingDataCache.init, OrderedDict.values,
        OrderedDict.empty])).step (.get [1]) trivial).step (.put [2] 6) (by
      unfold Allows
      decide +kernel))

end Ledger

end PyKvCache.Staging
