import PyKvCache.Library.OrderedDict

/-!
# The staging-data cache

`StagingDataCache` keeps completed staging slots under the hash of the block
they hold.  It never touches the pool: `put` and `evict_one` return the slot
the caller has to release.  A slot with copies in flight is pinned and is
never the victim.

The eviction policy keeps its own record of the cached hashes; a cache carries
the proof that every hash it holds is one the policy can still name.
-/

namespace PyKvCache.Staging

open PyKvCache.Library

/-- `block_hash: bytes`. -/
abbrev BlockHash := List UInt8

/-- The keys of an `OrderedDict[bytes, None]`. -/
abbrev KeyOrder := OrderedDict BlockHash Unit

namespace KeyOrder

/-- The keys, oldest first. -/
def keys (order : KeyOrder) : List BlockHash :=
  order.entries.map Prod.fst

variable {order : KeyOrder} {key other : BlockHash}

theorem mem_keys_set :
    other ∈ keys (order.set key ()) ↔ other = key ∨ other ∈ keys order := by
  by_cases same : other = key
  · simp [same, keys, OrderedDict.entries_set_perm.mem_iff]
  · have different : ¬ key = other := fun equal => same equal.symm
    simp [same, different, keys, OrderedDict.entries_set_perm.mem_iff,
      OrderedDict.mem_erase_entries]

theorem mem_keys_erase :
    other ∈ keys (order.erase key) ↔ other ∈ keys order ∧ other ≠ key := by
  simp only [keys, List.mem_map, OrderedDict.mem_erase_entries]
  constructor
  · rintro ⟨entry, ⟨member, different⟩, rfl⟩
    exact ⟨⟨entry, member, rfl⟩, different⟩
  · rintro ⟨⟨entry, member, rfl⟩, different⟩
    exact ⟨entry, ⟨member, different⟩, rfl⟩

theorem contains_iff : order.contains key = true ↔ key ∈ keys order := by
  rw [← Bool.not_eq_false, OrderedDict.contains_eq_false_iff,
    OrderedDict.find?_eq_none_iff, not_not, keys]

theorem mem_keys_moveToEnd :
    other ∈ keys (order.moveToEnd key) ↔ other ∈ keys order := by
  unfold OrderedDict.moveToEnd
  split
  next => exact Iff.rfl
  next found =>
    have present : key ∈ keys order :=
      List.mem_map_of_mem (f := Prod.fst)
        (OrderedDict.find?_eq_some_iff.mp found)
    rw [mem_keys_set, mem_keys_erase]
    by_cases same : other = key
    · simp [same, present]
    · simp [same]

theorem keys_erase :
    keys (order.erase key) = (keys order).filter fun k => k ≠ key := by
  simp only [keys, OrderedDict.erase, List.filter_map]
  rfl

theorem keys_set_of_notMem (absent : key ∉ keys order) :
    keys (order.set key ()) = keys order ++ [key] := by
  have missing := OrderedDict.find?_eq_none_iff.mpr absent
  rw [keys, OrderedDict.entries_set_of_none missing, List.map_append]
  rfl

theorem keys_set_of_mem (present : key ∈ keys order) :
    keys (order.set key ()) = keys order := by
  have listed : key ∈ order.entries.map Prod.fst := present
  rw [keys, OrderedDict.set, dif_pos listed]
  exact OrderedDict.map_fst_replace order.entries key ()

/-- A key that is there is moved behind the others. -/
theorem keys_moveToEnd (present : key ∈ keys order) :
    keys (order.moveToEnd key) =
      (keys order).filter (fun k => k ≠ key) ++ [key] := by
  obtain ⟨value, found⟩ := OrderedDict.contains_iff.mp
    (contains_iff.mpr present)
  have gone : key ∉ keys (order.erase key) := by
    rw [keys_erase]
    simp
  rw [OrderedDict.moveToEnd, found]
  change keys ((order.erase key).set key ()) = _
  rw [keys_set_of_notMem gone, keys_erase]

end KeyOrder

/-! ## Eviction policies -/

/-- `ArcPolicy`: two resident lists, two ghost lists and the target for the
first of them. -/
structure ArcPolicy where
  c : Nat
  p : Nat
  t1 : KeyOrder
  t2 : KeyOrder
  b1 : KeyOrder
  b2 : KeyOrder

namespace ArcPolicy

/-- `ArcPolicy.__init__`. -/
def init (capacity : Nat) : ArcPolicy :=
  ⟨max 1 capacity, 0, .empty, .empty, .empty, .empty⟩

/-- `_trim_ghosts`. -/
def trimGhosts (policy : ArcPolicy) : ArcPolicy :=
  { policy with
    b1 := policy.b1.keepNewest policy.c
    b2 := policy.b2.keepNewest policy.c }

/-- The step of the target on a ghost hit; `len(hit)` is positive there. -/
def delta (hit missed : KeyOrder) : Nat :=
  max 1 (missed.entries.length / max 1 hit.entries.length)

/-- `admit`. -/
def admitKey (policy : ArcPolicy) (key : BlockHash) : ArcPolicy :=
  trimGhosts <|
    if policy.b1.contains key then
      { policy with
        p := min policy.c (policy.p + delta policy.b1 policy.b2)
        b1 := policy.b1.erase key
        t2 := policy.t2.set key () }
    else if policy.b2.contains key then
      { policy with
        p := policy.p - delta policy.b2 policy.b1
        b2 := policy.b2.erase key
        t2 := policy.t2.set key () }
    else
      { policy with t1 := policy.t1.set key () }

/-- `touch`. -/
def touch (policy : ArcPolicy) (key : BlockHash) : ArcPolicy :=
  if policy.t1.contains key then
    { policy with
      t1 := policy.t1.erase key
      t2 := policy.t2.set key () }
  else if policy.t2.contains key then
    { policy with t2 := policy.t2.moveToEnd key }
  else
    policy

/-- `evict`. -/
def evict (policy : ArcPolicy) (key : BlockHash) : ArcPolicy :=
  trimGhosts <|
    if policy.t1.contains key then
      { policy with
        t1 := policy.t1.erase key
        b1 := policy.b1.set key () }
    else if policy.t2.contains key then
      { policy with
        t2 := policy.t2.erase key
        b2 := policy.b2.set key () }
    else
      policy

/-- `victims`. -/
def victims (policy : ArcPolicy) : List BlockHash :=
  if policy.p < policy.t1.entries.length then
    policy.t1.keys ++ policy.t2.keys
  else
    policy.t2.keys ++ policy.t1.keys

end ArcPolicy

/-- The two policies `make_policy` builds. -/
inductive EvictionPolicy where
  | lru (order : KeyOrder)
  | arc (policy : ArcPolicy)

namespace EvictionPolicy

/-- `admit`. -/
def admitKey (key : BlockHash) : EvictionPolicy → EvictionPolicy
  | .lru order => .lru ((order.set key ()).moveToEnd key)
  | .arc policy => .arc (policy.admitKey key)

/-- `touch`. -/
def touch (key : BlockHash) : EvictionPolicy → EvictionPolicy
  | .lru order => .lru (order.moveToEnd key)
  | .arc policy => .arc (policy.touch key)

/-- `evict`. -/
def evict (key : BlockHash) : EvictionPolicy → EvictionPolicy
  | .lru order => .lru (order.erase key)
  | .arc policy => .arc (policy.evict key)

/-- `victims`: the resident keys in the order they are given up. -/
def victims : EvictionPolicy → List BlockHash
  | .lru order => order.keys
  | .arc policy => policy.victims

/-- `clear`. -/
def clear : EvictionPolicy → EvictionPolicy
  | .lru _ => .lru .empty
  | .arc policy =>
      .arc ⟨policy.c, 0, .empty, .empty, .empty, .empty⟩

variable {policy : EvictionPolicy} {key other : BlockHash}

theorem mem_arc_victims {policy : ArcPolicy} :
    other ∈ policy.victims ↔
      other ∈ policy.t1.keys ∨ other ∈ policy.t2.keys := by
  unfold ArcPolicy.victims
  split
  · exact List.mem_append
  · rw [List.mem_append, or_comm]

theorem mem_victims_admitKey :
    other ∈ (policy.admitKey key).victims ↔
      other = key ∨ other ∈ policy.victims := by
  cases policy with
  | lru order =>
      exact KeyOrder.mem_keys_moveToEnd.trans KeyOrder.mem_keys_set
  | arc policy =>
      simp only [admitKey, victims, mem_arc_victims, ArcPolicy.admitKey,
        ArcPolicy.trimGhosts]
      split
      · rw [KeyOrder.mem_keys_set]
        tauto
      · split
        · rw [KeyOrder.mem_keys_set]
          tauto
        · rw [KeyOrder.mem_keys_set]
          tauto

theorem mem_victims_touch :
    other ∈ (policy.touch key).victims ↔ other ∈ policy.victims := by
  cases policy with
  | lru order => exact KeyOrder.mem_keys_moveToEnd
  | arc policy =>
      simp only [touch, victims, mem_arc_victims, ArcPolicy.touch]
      split
      next resident =>
        rw [KeyOrder.contains_iff] at resident
        rw [KeyOrder.mem_keys_erase, KeyOrder.mem_keys_set]
        by_cases same : other = key
        · simp [same, resident]
        · simp [same]
      next =>
        split
        · rw [KeyOrder.mem_keys_moveToEnd]
        · exact Iff.rfl

/-- Evicting a key loses no other one. -/
theorem mem_victims_evict (member : other ∈ policy.victims)
    (different : other ≠ key) : other ∈ (policy.evict key).victims := by
  cases policy with
  | lru order => exact KeyOrder.mem_keys_erase.mpr ⟨member, different⟩
  | arc policy =>
      simp only [victims, mem_arc_victims] at member
      simp only [evict, victims, mem_arc_victims, ArcPolicy.evict,
        ArcPolicy.trimGhosts]
      split
      · rw [KeyOrder.mem_keys_erase]
        tauto
      · split
        · rw [KeyOrder.mem_keys_erase]
          tauto
        · exact member

end EvictionPolicy

/-! ## The cache -/

/-- `_CacheSlot`.  `oid` is the identity of the object; its mutable
`copies_inflight` is kept by the cache. -/
structure CacheSlot (Slot : Type) where
  oid : Nat
  blockHash : BlockHash
  slotIndex : Slot
  deriving DecidableEq, Repr

/-- `StagingDataCache`, over any type of slot indices. -/
structure StagingDataCache (Slot : Type) where
  capacity : Nat
  policy : EvictionPolicy
  slots : OrderedDict BlockHash (CacheSlot Slot)
  copiesInflight : CacheSlot Slot → Int
  nextOid : Nat
  keyed : ∀ hash slot, slots.find? hash = some slot → slot.blockHash = hash
  fresh : ∀ hash slot, slots.find? hash = some slot → slot.oid < nextOid
  tracked : ∀ hash slot, slots.find? hash = some slot →
    hash ∈ policy.victims

namespace StagingDataCache

variable {Slot : Type}

/-- An empty cache. -/
def init (policy : EvictionPolicy) (capacity : Nat) :
    StagingDataCache Slot where
  capacity := capacity
  policy := policy
  slots := .empty
  copiesInflight := fun _ => 0
  nextOid := 0
  keyed := by simp
  fresh := by simp
  tracked := by simp

variable (cache : StagingDataCache Slot)

/-- `__contains__`. -/
def contains (hash : BlockHash) : Bool :=
  cache.slots.contains hash

/-- The hit of `get`: the policy learns of the access. -/
def touched (hash : BlockHash) : StagingDataCache Slot :=
  { cache with
    policy := cache.policy.touch hash
    tracked := fun other slot found =>
      EvictionPolicy.mem_victims_touch.mpr
        (cache.tracked other slot found) }

/-- `get`. -/
def get (hash : BlockHash) :
    Option (CacheSlot Slot) × StagingDataCache Slot :=
  match cache.slots.find? hash with
  | none => (none, cache)
  | some slot => (some slot, cache.touched hash)

/-- The entry under a hash, unless it is missing or pinned. -/
def evictable (hash : BlockHash) : Option (CacheSlot Slot) :=
  (cache.slots.find? hash).filter fun slot =>
    cache.copiesInflight slot ≤ 0

/-- `del self._slots[hash]; self._policy.evict(hash)`. -/
def evict (hash : BlockHash) : StagingDataCache Slot where
  capacity := cache.capacity
  policy := cache.policy.evict hash
  slots := cache.slots.erase hash
  copiesInflight := cache.copiesInflight
  nextOid := cache.nextOid
  keyed := by
    intro other slot found
    rw [OrderedDict.find?_erase] at found
    split at found
    · cases found
    · exact cache.keyed other slot found
  fresh := by
    intro other slot found
    rw [OrderedDict.find?_erase] at found
    split at found
    · cases found
    · exact cache.fresh other slot found
  tracked := by
    intro other slot found
    rw [OrderedDict.find?_erase] at found
    split at found
    · cases found
    next different =>
      exact EvictionPolicy.mem_victims_evict
        (cache.tracked other slot found) different

/-- `evict_one`. -/
def evictOne : Option (Slot × StagingDataCache Slot) :=
  (cache.policy.victims.findSome? cache.evictable).map fun slot =>
    (slot.slotIndex, cache.evict slot.blockHash)

/-- `drain`. -/
def drain : List Slot × StagingDataCache Slot :=
  (cache.slots.values.map CacheSlot.slotIndex,
    { cache with
      policy := cache.policy.clear
      slots := .empty
      keyed := by simp
      fresh := by simp
      tracked := by simp })

section Victims

variable {cache : StagingDataCache Slot} {hash : BlockHash} {slotIndex : Slot}

/-- The victim is an unpinned entry of the cache. -/
theorem evictOne_eq_some {after : StagingDataCache Slot}
    (evicted : cache.evictOne = some (slotIndex, after)) :
    ∃ slot, cache.slots.find? slot.blockHash = some slot ∧
      cache.copiesInflight slot ≤ 0 ∧ slot.slotIndex = slotIndex ∧
      after = cache.evict slot.blockHash := by
  simp only [evictOne, Option.map_eq_some_iff] at evicted
  obtain ⟨slot, chosen, equal⟩ := evicted
  obtain ⟨hash, _, evictable⟩ := List.exists_of_findSome?_eq_some chosen
  simp only [StagingDataCache.evictable, Option.filter_eq_some_iff,
    decide_eq_true_eq] at evictable
  cases equal
  have key := cache.keyed hash slot evictable.1
  exact ⟨slot, key ▸ evictable.1, evictable.2, rfl, rfl⟩

/-- A hash that is not cached is not cached after an eviction. -/
theorem missing_evictOne {after : StagingDataCache Slot}
    (evicted : cache.evictOne = some (slotIndex, after))
    (missing : cache.slots.find? hash = none) :
    after.slots.find? hash = none := by
  obtain ⟨slot, _, _, _, same⟩ := evictOne_eq_some evicted
  rw [same]
  change (cache.slots.erase slot.blockHash).find? hash = none
  rw [OrderedDict.find?_erase, missing, ite_self]

/-- While some entry is unpinned, `evict_one` finds a victim. -/
theorem evictOne_ne_none {slot : CacheSlot Slot}
    (found : cache.slots.find? hash = some slot)
    (unpinned : cache.copiesInflight slot ≤ 0) :
    cache.evictOne ≠ none := by
  intro none
  simp only [evictOne, Option.map_eq_none_iff,
    List.findSome?_eq_none_iff] at none
  have refused := none hash (cache.tracked hash slot found)
  simp [evictable, found] at refused
  omega

end Victims

variable [DecidableEq Slot]

/-- `pin`. -/
def pin (slot : CacheSlot Slot) : StagingDataCache Slot :=
  { cache with
    copiesInflight :=
      Function.update cache.copiesInflight slot
        (cache.copiesInflight slot + 1) }

/-- `unpin`. -/
def unpin (slot : CacheSlot Slot) : StagingDataCache Slot :=
  { cache with
    copiesInflight :=
      Function.update cache.copiesInflight slot
        (cache.copiesInflight slot - 1) }

/-- A new entry for a hash that has none, and its admission. -/
def insert (hash : BlockHash) (slotIndex : Slot) :
    StagingDataCache Slot where
  capacity := cache.capacity
  policy := cache.policy.admitKey hash
  slots := cache.slots.set hash ⟨cache.nextOid, hash, slotIndex⟩
  copiesInflight :=
    Function.update cache.copiesInflight ⟨cache.nextOid, hash, slotIndex⟩ 0
  nextOid := cache.nextOid + 1
  keyed := by
    intro other slot found
    rw [OrderedDict.find?_set] at found
    split at found
    next same =>
      cases found
      exact same.symm
    next => exact cache.keyed other slot found
  fresh := by
    intro other slot found
    rw [OrderedDict.find?_set] at found
    split at found
    · cases found
      exact Nat.lt_succ_self _
    · exact Nat.lt_succ_of_lt (cache.fresh other slot found)
  tracked := by
    intro other slot found
    rw [OrderedDict.find?_set] at found
    rw [EvictionPolicy.mem_victims_admitKey]
    split at found
    next same => exact Or.inl same
    next => exact Or.inr (cache.tracked other slot found)

/-- `put`: the slot the caller has to release, and the cache afterwards. -/
def put (hash : BlockHash) (slotIndex : Slot) :
    Option Slot × StagingDataCache Slot :=
  if cache.capacity = 0 then
    (some slotIndex, cache)
  else if cache.contains hash then
    (some slotIndex, cache)
  else if cache.capacity ≤ cache.slots.entries.length then
    match cache.evictOne with
    | none => (none, cache.insert hash slotIndex)
    | some (freed, smaller) => (some freed, smaller.insert hash slotIndex)
  else
    (none, cache.insert hash slotIndex)

/-- What `put` does, by what it finds. -/
inductive PutOutcome (hash : BlockHash) (slotIndex : Slot) :
    Option Slot × StagingDataCache Slot → Prop
  | declined
      (useless : cache.capacity = 0 ∨ cache.contains hash = true) :
      PutOutcome hash slotIndex (some slotIndex, cache)
  | room (positive : 0 < cache.capacity)
      (missing : cache.slots.find? hash = none)
      (space : cache.slots.entries.length < cache.capacity) :
      PutOutcome hash slotIndex (none, cache.insert hash slotIndex)
  | pinned (positive : 0 < cache.capacity)
      (missing : cache.slots.find? hash = none)
      (full : cache.capacity ≤ cache.slots.entries.length)
      (kept : cache.evictOne = none) :
      PutOutcome hash slotIndex (none, cache.insert hash slotIndex)
  | replaced (positive : 0 < cache.capacity)
      (missing : cache.slots.find? hash = none)
      (full : cache.capacity ≤ cache.slots.entries.length)
      {freed : Slot} {smaller : StagingDataCache Slot}
      (evicted : cache.evictOne = some (freed, smaller)) :
      PutOutcome hash slotIndex
        (some freed, smaller.insert hash slotIndex)

theorem put_outcome (hash : BlockHash) (slotIndex : Slot) :
    cache.PutOutcome hash slotIndex (cache.put hash slotIndex) := by
  unfold put
  split
  next zero => exact .declined (Or.inl zero)
  next positive =>
    rw [← ne_eq, ← Nat.pos_iff_ne_zero] at positive
    split
    next known => exact .declined (Or.inr known)
    next absent =>
      rw [Bool.not_eq_true, contains,
        OrderedDict.contains_eq_false_iff] at absent
      split
      next full =>
        split
        next kept => exact .pinned positive absent full kept
        next evicted => exact .replaced positive absent full evicted
      next space => exact .room positive absent (Nat.lt_of_not_le space)

theorem put_cases (hash : BlockHash) (slotIndex : Slot) :
    (cache.put hash slotIndex = (some slotIndex, cache)) ∨
      (cache.slots.find? hash = none ∧
        cache.put hash slotIndex = (none, cache.insert hash slotIndex)) ∨
      ∃ freed smaller,
        cache.slots.find? hash = none ∧
          cache.evictOne = some (freed, smaller) ∧
          cache.put hash slotIndex =
            (some freed, smaller.insert hash slotIndex) := by
  have outcome := cache.put_outcome hash slotIndex
  generalize cache.put hash slotIndex = result at outcome ⊢
  cases outcome with
  | declined _ => exact Or.inl rfl
  | room _ missing _ => exact Or.inr (Or.inl ⟨missing, rfl⟩)
  | pinned _ missing _ _ => exact Or.inr (Or.inl ⟨missing, rfl⟩)
  | replaced _ missing _ evicted =>
      exact Or.inr (Or.inr ⟨_, _, missing, evicted, rfl⟩)

end StagingDataCache

end PyKvCache.Staging
