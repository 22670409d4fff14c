import Mathlib.Data.List.Basic

/-!
# The verdict on a task of several parts

The parts of a task end one after the other, each with an error or without.
The first error decides the task; if there is none, it is decided when the last
part has ended.  A verdict is never revised.
-/

namespace PyKvCache.Library

variable {error : Type} {left : Nat} {ends more : List (Option error)}

/-- The verdict on a task with `left` parts to end. -/
def verdict (left : Nat) : List (Option error) → Option (Except error Unit)
  | [] => none
  | some failure :: _ => some (.error failure)
  | none :: later => if left ≤ 1 then some (.ok ()) else verdict (left - 1) later

/-- The task is undecided as long as a part is left and none has failed. -/
theorem verdict_eq_none_iff (some_left : 0 < left) :
    verdict left ends = none ↔
      (∀ ended ∈ ends, ended = none) ∧ ends.length < left := by
  induction ends generalizing left with
  | nil => simp [verdict, some_left]
  | cons ended later inductionHypothesis =>
      cases ended with
      | some failure => simp [verdict]
      | none =>
          unfold verdict
          split
          next last => simp; omega
          next =>
            rw [inductionHypothesis (by omega)]
            simp only [List.mem_cons, forall_eq_or_imp, true_and,
              List.length_cons]
            exact and_congr_right fun _ => by omega

/-- Parts that end later do not change a verdict. -/
theorem verdict_append {decided : Except error Unit}
    (settled : verdict left ends = some decided) :
    verdict left (ends ++ more) = some decided := by
  induction ends generalizing left with
  | nil => cases settled
  | cons ended later inductionHypothesis =>
      cases ended with
      | some failure => exact settled
      | none =>
          simp only [List.cons_append, verdict] at settled ⊢
          split at settled
          next last => rwa [if_pos last]
          next further =>
          rw [if_neg further]
          exact inductionHypothesis settled

/-- The next end of an undecided task decides it if it is an error or the last
one. -/
theorem verdict_concat {ended : Option error} (some_left : 0 < left)
    (undecided : verdict left ends = none) :
    verdict left (ends ++ [ended]) =
      match ended with
      | some failure => some (.error failure)
      | none => if ends.length + 1 = left then some (.ok ()) else none := by
  induction ends generalizing left with
  | nil =>
      cases ended with
      | some failure => rfl
      | none =>
          have last : left ≤ 1 ↔ 1 = left := by omega
          simp only [List.nil_append, verdict, last, List.length_nil]
  | cons first later inductionHypothesis =>
      cases first with
      | some failure => cases undecided
      | none =>
          simp only [List.cons_append, verdict] at undecided ⊢
          split at undecided
          next => cases undecided
          next more =>
            rw [if_neg more, inductionHypothesis (by omega) undecided]
            have same : later.length + 1 = left - 1 ↔
                later.length + 1 + 1 = left := by omega
            simp only [same, List.length_cons]

end PyKvCache.Library
