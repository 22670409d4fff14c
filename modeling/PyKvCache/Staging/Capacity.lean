import Mathlib.Data.List.Induction
import PyKvCache.Staging.Conservation

/-!
# The bound of the staging cache

`put` asks `evict_one` for room when the cache is full.  There is none while
every entry is pinned, and the new entry is added all the same.
-/

namespace PyKvCache.Staging

open PyKvCache.Library

namespace StagingDataCache

variable {Slot : Type}

/-- `__len__`. -/
def len (cache : StagingDataCache Slot) : Nat :=
  cache.slots.entries.length

variable {cache smaller : StagingDataCache Slot} {freed : Slot}

/-- `evict_one` drops one entry. -/
theorem len_evictOne (evicted : cache.evictOne = some (freed, smaller)) :
    smaller.len + 1 = cache.len := by
  obtain ⟨slot, found, _, _, same⟩ := evictOne_eq_some evicted
  have perm := OrderedDict.entries_perm_erase found
  rw [same]
  exact perm.length_eq.symm

theorem capacity_evictOne
    (evicted : cache.evictOne = some (freed, smaller)) :
    smaller.capacity = cache.capacity := by
  obtain ⟨slot, _, _, _, same⟩ := evictOne_eq_some evicted
  rw [same]
  rfl

/-- There is no victim exactly when every entry is pinned. -/
theorem evictOne_ne_none_iff :
    cache.evictOne ≠ none ↔
      ∃ slot ∈ cache.slots.values, cache.copiesInflight slot ≤ 0 := by
  constructor
  · intro victim
    obtain ⟨⟨freed, smaller⟩, evicted⟩ := Option.ne_none_iff_exists'.mp victim
    obtain ⟨slot, found, unpinned, _⟩ := evictOne_eq_some evicted
    exact ⟨slot, OrderedDict.mem_values_of_find? found, unpinned⟩
  · intro unpinned
    obtain ⟨slot, listed, idle⟩ := unpinned
    obtain ⟨hash, found⟩ := OrderedDict.exists_find?_of_mem_values listed
    exact evictOne_ne_none found idle

variable [DecidableEq Slot] {hash : BlockHash} {slotIndex : Slot}

theorem len_insert (missing : cache.slots.find? hash = none) :
    (cache.insert hash slotIndex).len = cache.len + 1 :=
  OrderedDict.length_set_of_none missing

end StagingDataCache

namespace Ledger

variable {Slot : Type}

/-- A cache that was built, before the first operation. -/
def start (policy : EvictionPolicy) (capacity : Nat) : Ledger Slot :=
  ⟨.init policy capacity, [], []⟩

/-- The cache honours its bound. -/
def Fits (ledger : Ledger Slot) : Prop :=
  ledger.cache.len ≤ ledger.cache.capacity

instance (ledger : Ledger Slot) : Decidable ledger.Fits :=
  inferInstanceAs (Decidable (_ ≤ _))

/-- If a new hash is put while the cache is full, some entry is unpinned. -/
def HasRoom (ledger : Ledger Slot) : Operation Slot → Prop
  | .put blockHash _ =>
      0 < ledger.cache.capacity →
      ledger.cache.contains blockHash = false →
      ledger.cache.capacity ≤ ledger.cache.len →
      ∃ slot ∈ ledger.cache.slots.values,
        ledger.cache.copiesInflight slot ≤ 0
  | _ => True

variable [DecidableEq Slot]

/-- Operations one after the other, whatever they are. -/
def run (ledger : Ledger Slot) (operations : List (Operation Slot)) :
    Ledger Slot :=
  operations.foldl Ledger.after ledger

variable {ledger : Ledger Slot}

theorem run_append_singleton (operations : List (Operation Slot))
    (operation : Operation Slot) :
    ledger.run (operations ++ [operation]) =
      (ledger.run operations).after operation := by
  rw [run, List.foldl_append]
  rfl

/-- A new hash in a cache that has room, or makes some. -/
private theorem put_fits_iff (fits : ledger.Fits)
    (blockHash : BlockHash) (slotIndex : Slot) :
    (ledger.after (.put blockHash slotIndex)).Fits ↔
      ledger.HasRoom (.put blockHash slotIndex) := by
  have outcome := ledger.cache.put_outcome blockHash slotIndex
  have victim_iff := @StagingDataCache.evictOne_ne_none_iff _ ledger.cache
  have before : ledger.cache.len ≤ ledger.cache.capacity := fits
  simp only [HasRoom, Fits, Ledger.after]
  generalize ledger.cache.put blockHash slotIndex = result at outcome ⊢
  cases outcome with
  | declined useless =>
      constructor
      · intro _ positive unknown _
        rcases useless with zero | known
        · omega
        · rw [known] at unknown
          cases unknown
      · intro _
        exact fits
  | room _ missing space =>
      have grown := @StagingDataCache.len_insert _ _ _ _ slotIndex missing
      constructor
      · intro _ _ _ filled
        exact absurd space (Nat.not_lt.mpr filled)
      · intro _
        change (ledger.cache.insert blockHash slotIndex).len ≤
          ledger.cache.capacity
        rw [grown]
        exact space
  | pinned positive missing full kept =>
      have grown := @StagingDataCache.len_insert _ _ _ _ slotIndex missing
      constructor
      · intro small
        change (ledger.cache.insert blockHash slotIndex).len ≤
          ledger.cache.capacity at small
        rw [grown] at small
        exact absurd small (Nat.not_le.mpr (Nat.lt_succ_of_le full))
      · intro room
        have unknown := OrderedDict.contains_eq_false_iff.mpr missing
        exact absurd kept (victim_iff.mpr (room positive unknown full))
  | replaced _ missing _ evicted =>
      have shrunk := StagingDataCache.len_evictOne evicted
      have still := StagingDataCache.missing_evictOne evicted missing
      have grown := @StagingDataCache.len_insert _ _ _ _ slotIndex still
      have capacity := StagingDataCache.capacity_evictOne evicted
      constructor
      · intro _ _ _ _
        rw [← victim_iff, evicted]
        exact Option.some_ne_none _
      · intro _
        change (StagingDataCache.insert _ blockHash slotIndex).len ≤
          StagingDataCache.capacity _
        rw [grown, shrunk]
        exact le_of_le_of_eq before capacity.symm

/-- What one operation does to the bound. -/
theorem after_fits_iff (fits : ledger.Fits)
    (operation : Operation Slot) :
    (ledger.after operation).Fits ↔ ledger.HasRoom operation := by
  cases operation with
  | put blockHash slotIndex => exact put_fits_iff fits blockHash slotIndex
  | get blockHash =>
      simp only [HasRoom, iff_true, Fits, Ledger.after,
        StagingDataCache.get]
      cases ledger.cache.slots.find? blockHash with
      | none => exact fits
      | some slot => exact fits
  | pin slot =>
      simp only [HasRoom, iff_true]
      exact fits
  | unpin slot =>
      simp only [HasRoom, iff_true]
      exact fits
  | evictOne =>
      simp only [HasRoom, iff_true, Fits, Ledger.after]
      cases evicted : ledger.cache.evictOne with
      | none => exact fits
      | some victim =>
          obtain ⟨freed, smaller⟩ := victim
          have shrunk := StagingDataCache.len_evictOne evicted
          have capacity := StagingDataCache.capacity_evictOne evicted
          have before : ledger.cache.len ≤ ledger.cache.capacity := fits
          change smaller.len ≤ smaller.capacity
          omega
  | drain =>
      simp only [HasRoom, iff_true]
      exact Nat.zero_le _

/-- A run stays within the capacity if and only if no new hash is put while
the cache is full and every entry is pinned. -/
theorem run_fits_iff (policy : EvictionPolicy) (capacity : Nat)
    (operations : List (Operation Slot)) :
    (∀ prior, prior <+: operations →
        ((start policy capacity).run prior).Fits) ↔
      ∀ prior operation, prior ++ [operation] <+: operations →
        ((start policy capacity).run prior).HasRoom operation := by
  constructor
  · intro within prior operation done
    have before := within prior ((List.prefix_append _ _).trans done)
    have after := within (prior ++ [operation]) done
    rw [run_append_singleton] at after
    exact (after_fits_iff before operation).mp after
  · intro room prior
    induction prior using List.reverseRecOn with
    | nil =>
        intro _
        exact Nat.zero_le capacity
    | append_singleton prior operation inductionHypothesis =>
        intro done
        have before := inductionHypothesis
          ((List.prefix_append _ _).trans done)
        rw [run_append_singleton]
        exact (after_fits_iff before operation).mpr
          (room prior operation done)

/-- A cache for one block whose entry is pinned when a second block comes. -/
def pinnedPut : List (Operation Nat) :=
  [.put [1] 5, .get [1], .pin ⟨0, [1], 5⟩, .put [2] 6]

/-- Under either policy the cache for one block holds two. -/
theorem pinnedPut_exceeds :
    ¬ ((start (.lru .empty) 1).run pinnedPut).Fits ∧
      ¬ ((start (.arc (.init 1)) 1).run pinnedPut).Fits := by
  constructor
  · decide +kernel
  · decide +kernel

end Ledger

end PyKvCache.Staging
