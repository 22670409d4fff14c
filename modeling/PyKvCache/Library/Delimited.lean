import Mathlib.Data.List.Basic
import Mathlib.Tactic.Common

/-!
# Lists with a separator

Pieces that are strung together with a separator none of them contains can be
told apart again, from the front and from the back.
-/

namespace PyKvCache.Library

variable {item : Type*} {sep : item} {first second : List item}
  {front back : List item}

/-- The part before the first separator. -/
theorem append_cons_inj_of_notMem_front [DecidableEq item]
    (inFirst : sep ∉ first) (inSecond : sep ∉ second)
    (same : first ++ sep :: front = second ++ sep :: back) :
    first = second ∧ front = back := by
  have pieces := congrArg (fun items => items.splitOn sep) same
  simp only [List.splitOn_append_cons_self_of_not_mem inFirst,
    List.splitOn_append_cons_self_of_not_mem inSecond] at pieces
  have equal : first = second := (List.cons.inj pieces).1
  rw [equal] at same
  exact ⟨equal, (List.cons.inj (List.append_cancel_left same)).2⟩

/-- The part behind the last separator. -/
theorem append_cons_inj_of_notMem_back [DecidableEq item]
    (inFront : sep ∉ front) (inBack : sep ∉ back)
    (same : first ++ sep :: front = second ++ sep :: back) :
    first = second ∧ front = back := by
  have reversed := congrArg List.reverse same
  simp only [List.reverse_append, List.reverse_cons, List.append_assoc,
    List.singleton_append] at reversed
  obtain ⟨sameFront, sameFirst⟩ := append_cons_inj_of_notMem_front
    (by simpa using inFront) (by simpa using inBack) reversed
  exact ⟨List.reverse_injective sameFirst,
    List.reverse_injective sameFront⟩

/-- A list and the pieces behind it, each after a separator. -/
def strung (sep : item) (start : List item) (pieces : List (List item)) :
    List item :=
  pieces.foldl (fun items piece => items ++ sep :: piece) start

/-- The pieces can be read off from the back. -/
theorem strung_injective [DecidableEq item] {start other : List item}
    {pieces others : List (List item)}
    (inPieces : ∀ piece ∈ pieces, sep ∉ piece)
    (inOthers : ∀ piece ∈ others, sep ∉ piece)
    (sameLength : pieces.length = others.length)
    (same : strung sep start pieces = strung sep other others) :
    start = other ∧ pieces = others := by
  induction pieces generalizing start other others with
  | nil =>
      cases others with
      | nil => exact ⟨same, rfl⟩
      | cons head tail => cases sameLength
  | cons piece pieces inductionHypothesis =>
      cases others with
      | nil => cases sameLength
      | cons head tail =>
          obtain ⟨starts, tails⟩ := inductionHypothesis
            (fun x member => inPieces x (List.mem_cons_of_mem _ member))
            (fun x member => inOthers x (List.mem_cons_of_mem _ member))
            (Nat.succ.inj sameLength) same
          obtain ⟨sameStart, samePiece⟩ := append_cons_inj_of_notMem_back
            (inPieces piece List.mem_cons_self)
            (inOthers head List.mem_cons_self) starts
          rw [sameStart, samePiece, tails]
          exact ⟨rfl, rfl⟩

/-- A piece of a split list has no separator. -/
theorem notMem_of_mem_splitOn [DecidableEq item] {items : List item}
    {piece : List item} (member : piece ∈ items.splitOn sep) :
    sep ∉ piece := by
  induction items generalizing piece with
  | nil =>
      rw [List.splitOn_nil, List.mem_singleton] at member
      rw [member]
      exact List.not_mem_nil
  | cons head tail inductionHypothesis =>
      rw [List.splitOn_cons_eq_if_modifyHead] at member
      split at member
      next =>
        rcases List.mem_cons.mp member with empty | later
        · rw [empty]
          exact List.not_mem_nil
        · exact inductionHypothesis later
      next different =>
        cases pieces : tail.splitOn sep with
        | nil => exact absurd pieces (List.splitOn_ne_nil sep tail)
        | cons first rest =>
            rw [pieces, List.modifyHead_cons] at member
            rw [pieces] at inductionHypothesis
            rcases List.mem_cons.mp member with longer | later
            · rw [longer, List.mem_cons, not_or]
              constructor
              · intro same
                rw [same] at different
                exact different (beq_self_eq_true head)
              · exact inductionHypothesis List.mem_cons_self
            · exact inductionHypothesis (List.mem_cons_of_mem _ later)

section Ends

variable {pieces : List (List item)} {piece : List item}

/-- Pieces that are strung together start as the first one does. -/
theorem head?_intercalate (inhabited : piece ≠ []) :
    ([sep].intercalate (piece :: pieces)).head? = piece.head? := by
  cases pieces with
  | nil => rw [List.intercalate_singleton]
  | cons head tail =>
      rw [List.intercalate_cons_cons, List.append_assoc,
        List.head?_append_of_ne_nil _ inhabited]

/-- Pieces that are strung together end as one of them does. -/
theorem getLast?_intercalate
    (inhabited : ∀ piece ∈ pieces, piece ≠ []) (nonempty : pieces ≠ []) :
    ∃ piece ∈ pieces,
      ([sep].intercalate pieces).getLast? = piece.getLast? := by
  induction pieces with
  | nil => exact absurd rfl nonempty
  | cons head tail inductionHypothesis =>
      cases tail with
      | nil =>
          exact ⟨head, List.mem_cons_self,
            by rw [List.intercalate_singleton]⟩
      | cons next rest =>
          obtain ⟨last, member, same⟩ := inductionHypothesis
            (fun x member => inhabited x (List.mem_cons_of_mem _ member))
            (List.cons_ne_nil _ _)
          have lastInhabited := inhabited last
            (List.mem_cons_of_mem _ member)
          refine ⟨last, List.mem_cons_of_mem _ member, ?_⟩
          rw [List.intercalate_cons_cons, List.getLast?_append, same]
          cases ending : last.getLast? with
          | none =>
              exact absurd (List.getLast?_eq_none_iff.mp ending)
                lastInhabited
          | some _ => rfl

end Ends

end PyKvCache.Library
