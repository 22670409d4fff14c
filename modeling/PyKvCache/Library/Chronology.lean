import Mathlib.Data.List.Pairwise
import Mathlib.Logic.Function.Basic
import Mathlib.Tactic.Common

/-!
# Lists in the order of their last use

Every use of a key is stamped with the reading of a clock that then goes on.
A list is chronological when its keys stand in the order of their stamps, so
the first key of a kind is the one of that kind whose use is longest ago.
-/

namespace PyKvCache.Library

variable {key value : Type*}

/-- The keys stand in the order of their stamps, which all lie in the past. -/
structure Chronological (stamp : key → Nat) (clock : Nat)
    (keys : List key) : Prop where
  ordered : keys.Pairwise fun earlier later => stamp earlier < stamp later
  past : ∀ k ∈ keys, stamp k < clock

namespace Chronological

variable {stamp : key → Nat} {clock : Nat} {keys fewer : List key} {k : key}

theorem nil : Chronological stamp clock [] :=
  ⟨List.Pairwise.nil, nofun⟩

/-- Keys may be dropped anywhere. -/
theorem sublist (order : Chronological stamp clock keys)
    (dropped : fewer.Sublist keys) : Chronological stamp clock fewer :=
  ⟨order.ordered.sublist dropped,
    fun k member => order.past k (dropped.subset member)⟩

/-- A key that is used stands last. -/
theorem use [DecidableEq key] (order : Chronological stamp clock keys)
    (absent : k ∉ keys) :
    Chronological (Function.update stamp k clock) (clock + 1)
      (keys ++ [k]) := by
  have others : ∀ other ∈ keys,
      Function.update stamp k clock other = stamp other := by
    intro other member
    apply Function.update_of_ne
    intro same
    rw [same] at member
    exact absent member
  constructor
  · rw [List.pairwise_append]
    refine ⟨?_, List.pairwise_singleton _ _, ?_⟩
    · apply order.ordered.imp_of_mem
      intro earlier later earlierMember laterMember before
      rw [others earlier earlierMember, others later laterMember]
      exact before
    · intro other member last isLast
      rw [List.mem_singleton] at isLast
      rw [isLast, Function.update_self, others other member]
      exact order.past other member
  · intro other member
    rcases List.mem_append.mp member with before | last
    · rw [others other before]
      exact Nat.lt_succ_of_lt (order.past other before)
    · rw [List.mem_singleton.mp last, Function.update_self]
      exact Nat.lt_succ_self clock

/-- The first key that is picked is the one whose use is longest ago among
those that would be. -/
theorem findSome?_least {pick : key → Option value} {picked : value}
    (order : Chronological stamp clock keys)
    (found : keys.findSome? pick = some picked) :
    ∃ k, pick k = some picked ∧
      ∀ other ∈ keys, other ≠ k → pick other ≠ none →
        stamp k < stamp other := by
  obtain ⟨before, k, after, split, picks, passed⟩ :=
    List.findSome?_eq_some_iff.mp found
  refine ⟨k, picks, ?_⟩
  intro other member different eligible
  have ordered := order.ordered
  rw [split, List.pairwise_append] at ordered
  rw [split, List.mem_append, List.mem_cons] at member
  rcases member with early | same | late
  · exact absurd (passed other early) eligible
  · exact absurd same different
  · exact (List.pairwise_cons.mp ordered.2.1).1 other late

end Chronological

end PyKvCache.Library
