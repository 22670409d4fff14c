import Mathlib.Algebra.Field.Basic
import Mathlib.Data.List.GetD
import Mathlib.Data.List.Sort
import Mathlib.Order.Basic

/-!
# Checked list access and division

Indexing and division that can raise, in the way a scripting language does it:
a negative index counts from the end.  Where the index is in range and the
divisor is not zero, they are the total operations; a loop whose every round
succeeds is a map.
-/

namespace PyKvCache.Library

/-- What indexing, division and argument checks raise. -/
inductive PyError where
  | valueError (message : String)
  | indexError
  | zeroDivisionError
  deriving DecidableEq, Repr

/-- A check in front of a computation. -/
theorem ite_throw_eq_ok_iff {error value : Type} {condition : Prop}
    [Decidable condition] {raised : error}
    {rest : Except error value} {result : value} :
    (if condition then throw raised else rest) = .ok result ↔
      ¬condition ∧ rest = .ok result := by
  by_cases holds : condition
  · simp [holds, throw, throwThe, MonadExceptOf.throw]
  · simp [holds]

/-- Two computations in a row succeed when both do. -/
theorem bind_eq_ok_iff {error first second : Type}
    {computed : Except error first} {next : first → Except error second}
    {result : second} :
    computed >>= next = .ok result ↔
      ∃ value, computed = .ok value ∧ next value = .ok result := by
  cases computed with
  | error raised =>
      constructor
      · intro succeeded
        cases succeeded
      · rintro ⟨value, succeeded, _⟩
        cases succeeded
  | ok value =>
      constructor
      · intro succeeded
        exact ⟨value, rfl, succeeded⟩
      · rintro ⟨other, same, succeeded⟩
        cases same
        exact succeeded

section Lists

variable {item value error : Type}

/-- `xs[i]`. -/
def getItem (xs : List item) (i : Int) : Except PyError item :=
  let position := if i < 0 then i + xs.length else i
  if position < 0 then
    throw .indexError
  else
    match xs[position.toNat]? with
    | none => throw .indexError
    | some x => pure x

theorem getItem_natCast {xs : List item} {i : Nat} {fallback : item}
    (inside : i < xs.length) :
    getItem xs (i : Int) = .ok (xs.getD i fallback) := by
  have nonnegative : ¬ (i : Int) < 0 := by omega
  simp only [getItem, if_neg nonnegative, Int.toNat_natCast,
    List.getElem?_eq_getElem inside, List.getD_eq_getElem _ _ inside]
  rfl

/-- A negative index counts from the end. -/
theorem getItem_fromEnd {xs : List item} {fallback : item} (back : Nat)
    (positive : 0 < back) (inside : back ≤ xs.length) :
    getItem xs (-(back : Int)) =
      .ok (xs.getD (xs.length - back) fallback) := by
  have negative : -(back : Int) < 0 := by omega
  have position :
      -(back : Int) + xs.length = ((xs.length - back : Nat) : Int) := by
    omega
  have nonnegative : ¬ ((xs.length - back : Nat) : Int) < 0 := by omega
  have small : xs.length - back < xs.length := by omega
  simp only [getItem, if_pos negative, position, if_neg nonnegative,
    Int.toNat_natCast, List.getElem?_eq_getElem small,
    List.getD_eq_getElem _ _ small]
  rfl

/-- A loop whose every round succeeds. -/
theorem mapM_eq_ok {xs : List item} {f : item → Except error value}
    {g : item → value} (each : ∀ x ∈ xs, f x = .ok (g x)) :
    xs.mapM f = .ok (xs.map g) := by
  induction xs with
  | nil => rfl
  | cons head tail inductionHypothesis =>
      have first := each head List.mem_cons_self
      have rest := inductionHypothesis fun x member =>
        each x (List.mem_cons_of_mem _ member)
      rw [List.mapM_cons, first, rest]
      rfl

/-- Every round of a loop that succeeds has succeeded. -/
theorem mapM_eq_ok_iff {xs : List item} {f : item → Except error value}
    {ys : List value} :
    xs.mapM f = .ok ys ↔ List.Forall₂ (fun x y => f x = .ok y) xs ys := by
  induction xs generalizing ys with
  | nil =>
      rw [List.mapM_nil, List.forall₂_nil_left_iff]
      constructor
      · intro same
        cases same
        rfl
      · intro empty
        rw [empty]
        rfl
  | cons head tail inductionHypothesis =>
      rw [List.mapM_cons, List.forall₂_cons_left_iff]
      constructor
      · intro succeeded
        cases first : f head with
        | error raised =>
            rw [first] at succeeded
            cases succeeded
        | ok y =>
            rw [first] at succeeded
            cases rest : tail.mapM f with
            | error raised =>
                rw [rest] at succeeded
                cases succeeded
            | ok later =>
                rw [rest] at succeeded
                cases succeeded
                exact ⟨y, later, rfl, inductionHypothesis.mp rest, rfl⟩
      · rintro ⟨y, later, first, rest, rfl⟩
        rw [first, inductionHypothesis.mpr rest]
        rfl

/-- A loop of checks that fails has failed at one of them. -/
theorem exists_of_forM_eq_error {xs : List item}
    {f : item → Except error Unit} {raised : error}
    (failed : forM xs f = .error raised) : ∃ x ∈ xs, f x = .error raised := by
  induction xs with
  | nil => cases failed
  | cons head tail inductionHypothesis =>
      rw [List.forM_cons] at failed
      cases first : f head with
      | error other =>
          rw [first] at failed
          cases failed
          exact ⟨head, List.mem_cons_self, first⟩
      | ok done =>
          rw [first] at failed
          obtain ⟨x, member, found⟩ := inductionHypothesis failed
          exact ⟨x, List.mem_cons_of_mem _ member, found⟩

/-- A table whose every entry succeeds. -/
theorem ofFnM_eq_ok {n : Nat} {f : Fin n → Except error value}
    {g : Fin n → value} (each : ∀ i, f i = .ok (g i)) :
    Vector.ofFnM f = .ok (Vector.ofFn g) := by
  have total : f = fun i => pure (g i) := funext each
  rw [total, Vector.ofFnM_pure]
  rfl

end Lists

section Numbers

variable {K : Type} [Field K] [LinearOrder K]

/-- `a / b`. -/
def divide (a b : K) : Except PyError K :=
  if b = 0 then throw .zeroDivisionError else pure (a / b)

theorem divide_of_ne {a b : K} (nonzero : b ≠ 0) :
    divide a b = .ok (a / b) :=
  if_neg nonzero

/-- `bisect.bisect_right(xs, x)` on a sorted list. -/
def bisectRight (xs : List K) (x : K) : Nat :=
  (xs.takeWhile fun knot => knot ≤ x).length

omit [Field K] in
theorem bisectRight_le_length {xs : List K} {x : K} :
    bisectRight xs x ≤ xs.length :=
  (List.takeWhile_prefix _).length_le

/-- What lies before the insertion point is not larger. -/
theorem getD_le_of_lt_bisectRight {xs : List K} {x : K} {i : Nat}
    (before : i < bisectRight xs x) : xs.getD i 0 ≤ x := by
  have initial : xs.takeWhile (fun knot => knot ≤ x) <+: xs :=
    List.takeWhile_prefix _
  have inside := before.trans_le bisectRight_le_length
  have member := List.getElem_mem before
  have small := List.all_eq_true.mp List.all_takeWhile _ member
  rw [initial.getElem before, decide_eq_true_eq] at small
  rw [List.getD_eq_getElem _ _ inside]
  exact small

/-- What lies at the insertion point is larger. -/
theorem lt_getD_bisectRight {xs : List K} {x : K}
    (inside : bisectRight xs x < xs.length) :
    x < xs.getD (bisectRight xs x) 0 := by
  induction xs with
  | nil => cases inside
  | cons head tail inductionHypothesis =>
      by_cases small : head ≤ x
      · have grown : bisectRight (head :: tail) x =
            bisectRight tail x + 1 := by
          simp [bisectRight, small]
        rw [grown, List.length_cons] at inside
        rw [grown, List.getD_cons_succ]
        exact inductionHypothesis (by omega)
      · have stopped : bisectRight (head :: tail) x = 0 := by
          simp [bisectRight, small]
        rw [stopped, List.getD_cons_zero]
        exact lt_of_not_ge small

end Numbers

end PyKvCache.Library
