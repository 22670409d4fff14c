import Mathlib.Data.Finset.Union
import Mathlib.Data.Int.Interval
import Mathlib.Order.Interval.Finset.Basic
import Mathlib.Tactic.Common

/-!
# The union of a list of half-open intervals

`covered` is the set of points that lie in some interval of a list.  A sweep
over intervals in the order of their starts extends an open interval while the
next one touches it (`covered_cons_cons_of_le`), and closes it when the next
one starts behind it (`disjoint_covered_of_le`).
-/

namespace PyKvCache.Library

section Cover

variable {point : Type*} [LinearOrder point] [LocallyFiniteOrder point]

/-- The points that lie in some interval `[start, stop)` of the list. -/
def covered (intervals : List (point × point)) : Finset point :=
  intervals.toFinset.biUnion fun interval =>
    Finset.Ico interval.1 interval.2

theorem mem_covered
    {intervals : List (point × point)} {instant : point} :
    instant ∈ covered intervals ↔
      ∃ interval ∈ intervals,
        interval.1 ≤ instant ∧ instant < interval.2 := by
  simp [covered]

@[simp]
theorem covered_nil : covered ([] : List (point × point)) = ∅ := by
  simp [covered]

theorem covered_cons
    (start stop : point) (rest : List (point × point)) :
    covered ((start, stop) :: rest) =
      Finset.Ico start stop ∪ covered rest := by
  simp [covered]

/-- An interval that starts inside the open one, or where it stops, prolongs
it. -/
theorem covered_cons_cons_of_le
    {start stop nextStart nextStop : point}
    (rest : List (point × point))
    (ordered : start ≤ nextStart)
    (inhabited : nextStart < nextStop)
    (touching : nextStart ≤ stop) :
    covered ((start, stop) :: (nextStart, nextStop) :: rest) =
      covered ((start, max stop nextStop) :: rest) := by
  have union :
      Finset.Ico start stop ∪ Finset.Ico nextStart nextStop =
        Finset.Ico start (max stop nextStop) := by
    rw [Finset.Ico_union_Ico' touching
        (ordered.trans inhabited.le), min_eq_left ordered]
  rw [covered_cons, covered_cons, covered_cons, ← union,
    Finset.union_assoc]

/-- Intervals that all start behind the open one share no point with it. -/
theorem disjoint_covered_of_le
    {start stop : point} {rest : List (point × point)}
    (behind : ∀ interval ∈ rest, stop ≤ interval.1) :
    Disjoint (Finset.Ico start stop) (covered rest) := by
  rw [Finset.disjoint_left]
  intro instant inOpen inRest
  rw [Finset.mem_Ico] at inOpen
  obtain ⟨interval, member, started, _⟩ := mem_covered.mp inRest
  have late := behind interval member
  exact absurd inOpen.2 (not_lt.mpr (late.trans started))

/-- The points of the list are those of its head and those of its tail, when
the tail starts behind the head. -/
theorem card_covered_cons_of_le
    {start stop : point} {rest : List (point × point)}
    (behind : ∀ interval ∈ rest, stop ≤ interval.1) :
    (covered ((start, stop) :: rest)).card =
      (Finset.Ico start stop).card + (covered rest).card := by
  rw [covered_cons,
    Finset.card_union_of_disjoint (disjoint_covered_of_le behind)]

end Cover

end PyKvCache.Library
