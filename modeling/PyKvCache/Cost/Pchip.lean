import PyKvCache.Library.Checked
import PyKvCache.Library.MonotoneCubic
import Mathlib.Data.Rat.Defs
import Mathlib.Algebra.Order.Ring.Rat
import Mathlib.Data.List.Chain

/-!
# The cost interpolant

`Pchip` over exact rational arithmetic.  Every list access and every division
of the source is checked; on the knots the constructor accepts none of them
fails, and the interpolant is a monotone cubic between any two knots.
-/

namespace PyKvCache.Cost

open PyKvCache.Library

/-! ## The source -/

/-- `_sign`. -/
def sign (v : ℚ) : Int :=
  (if 0 < v then 1 else 0) - (if v < 0 then 1 else 0)

/-- `_edge_derivative`. -/
def edgeDerivative (h0 h1 m0 m1 : ℚ) : Except PyError ℚ := do
  let d ← divide ((2 * h0 + h1) * m0 - h0 * m1) (h0 + h1)
  if sign d ≠ sign m0 then
    pure 0
  else if sign m0 ≠ sign m1 ∧ |3 * m0| < |d| then
    pure (3 * m0)
  else
    pure d

/-- `xs[i + 1] - xs[i]`. -/
def widthAt (xs : List ℚ) (i : Nat) : Except PyError ℚ := do
  pure ((← getItem xs (i + 1)) - (← getItem xs i))

/-- `(ys[i + 1] - ys[i]) / h[i]`. -/
def secantAt (ys h : List ℚ) (i : Nat) : Except PyError ℚ := do
  divide ((← getItem ys (i + 1)) - (← getItem ys i)) (← getItem h i)

/-- The derivative at an inner knot; it stays `0.0` at a flat or turning
one. -/
def innerDerivative (h m : List ℚ) (k : Nat) : Except PyError ℚ := do
  let mPrev ← getItem m (k - 1)
  let mNext ← getItem m k
  if mPrev = 0 ∨ mNext = 0 ∨ sign mPrev ≠ sign mNext then
    pure 0
  else
    let w1 := 2 * (← getItem h k) + (← getItem h (k - 1))
    let w2 := (← getItem h k) + 2 * (← getItem h (k - 1))
    divide (w1 + w2) ((← divide w1 mPrev) + (← divide w2 mNext))

/-- `_derivatives`. -/
def derivatives (xs ys : List ℚ) : Except PyError (List ℚ) := do
  let n := xs.length
  if n < 2 then
    throw (.valueError "Pchip needs at least two knots")
  else
    let h ← (List.range (n - 1)).mapM (widthAt xs)
    let m ← (List.range (n - 1)).mapM (secantAt ys h)
    if n = 2 then
      pure [← getItem m 0, ← getItem m 0]
    else
      let inner ← (List.range' 1 (n - 2)).mapM (innerDerivative h m)
      let first ← edgeDerivative (← getItem h 0) (← getItem h 1)
        (← getItem m 0) (← getItem m 1)
      let last ← edgeDerivative (← getItem h (-1)) (← getItem h (-2))
        (← getItem m (-1)) (← getItem m (-2))
      pure (first :: inner ++ [last])

/-- `Pchip`: the knots, the anchor included, and the slopes at them. -/
structure Pchip where
  xs : List ℚ
  ys : List ℚ
  ds : List ℚ

namespace Pchip

/-- `Pchip.__init__`. -/
def init (xs ys : List ℚ) (floor : ℚ) : Except PyError Pchip := do
  if xs = [] then
    throw (.valueError "Pchip requires at least two knots, got 0")
  else
    let first ← getItem xs 0
    let xs := if first ≠ 0 then 0 :: xs else xs
    let ys := if first ≠ 0 then floor :: ys else ys
    if xs.length < 2 then
      throw (.valueError
        s!"Pchip requires at least two knots, got {xs.length}")
    else if (xs.zip xs.tail).any fun pair => pair.2 ≤ pair.1 then
      throw (.valueError "Pchip requires strictly increasing xs")
    else
      pure ⟨xs, ys, ← derivatives xs ys⟩

/-- `Pchip.__call__`. -/
def call (pchip : Pchip) (x : ℚ) : Except PyError ℚ := do
  let first ← getItem pchip.xs 0
  if x ≤ first then
    pure ((← getItem pchip.ys 0) + (← getItem pchip.ds 0) * (x - first))
  else
    let last ← getItem pchip.xs (-1)
    if last ≤ x then
      pure ((← getItem pchip.ys (-1)) +
        (← getItem pchip.ds (-1)) * (x - last))
    else
      let i : Int := bisectRight pchip.xs x - 1
      let h := (← getItem pchip.xs (i + 1)) - (← getItem pchip.xs i)
      let t ← divide (x - (← getItem pchip.xs i)) h
      let h00 := 2 * t ^ 3 - 3 * t ^ 2 + 1
      let h10 := t ^ 3 - 2 * t ^ 2 + t
      let h01 := -2 * t ^ 3 + 3 * t ^ 2
      let h11 := t ^ 3 - t ^ 2
      pure (h00 * (← getItem pchip.ys i) + h10 * h * (← getItem pchip.ds i) +
        h01 * (← getItem pchip.ys (i + 1)) +
        h11 * h * (← getItem pchip.ds (i + 1)))

end Pchip

/-! ## Signs -/

section Signs

variable {v w : ℚ}

theorem sign_of_pos (positive : 0 < v) : sign v = 1 := by
  simp [sign, positive, positive.le]

theorem sign_of_neg (negative : v < 0) : sign v = -1 := by
  simp [sign, negative, negative.le]

@[simp]
theorem sign_zero : sign 0 = 0 := by
  simp [sign]

theorem sign_neg : sign (-v) = -sign v := by
  simp only [sign, Left.neg_pos_iff, Left.neg_neg_iff]
  ring

theorem sign_eq_one_iff : sign v = 1 ↔ 0 < v := by
  rcases lt_trichotomy v 0 with negative | rfl | positive
  · simp [sign_of_neg negative, negative.le]
  · simp
  · simp [sign_of_pos positive, positive]

theorem sign_eq_neg_one_iff : sign v = -1 ↔ v < 0 := by
  rcases lt_trichotomy v 0 with negative | rfl | positive
  · simp [sign_of_neg negative, negative]
  · simp
  · simp [sign_of_pos positive, positive.le]

theorem sign_eq_zero_iff : sign v = 0 ↔ v = 0 := by
  rcases lt_trichotomy v 0 with negative | rfl | positive
  · simp [sign_of_neg negative, negative.ne]
  · simp
  · simp [sign_of_pos positive, positive.ne']

end Signs

/-! ## Accepted knots -/

/-- Knots without the checks: at least two, a value for each, and strictly
increasing. -/
structure Knots where
  xs : List ℚ
  ys : List ℚ
  two : 2 ≤ xs.length
  covered : xs.length = ys.length
  increasing : xs.Pairwise (· < ·)

namespace Knots

variable (knots : Knots)

/-- The number of knots. -/
def count : Nat :=
  knots.xs.length

/-- The place of a knot. -/
def x (i : Nat) : ℚ :=
  knots.xs.getD i 0

/-- The value at a knot. -/
def y (i : Nat) : ℚ :=
  knots.ys.getD i 0

/-- The distance to the next knot. -/
def width (i : Nat) : ℚ :=
  knots.x (i + 1) - knots.x i

/-- The secant to the next knot. -/
def secant (i : Nat) : ℚ :=
  (knots.y (i + 1) - knots.y i) / knots.width i

/-- The slope at a knot with neighbours on both sides. -/
def innerSlope (k : Nat) : ℚ :=
  if knots.secant (k - 1) = 0 ∨ knots.secant k = 0 ∨
      sign (knots.secant (k - 1)) ≠ sign (knots.secant k) then
    0
  else
    harmonicMean (2 * knots.width k + knots.width (k - 1))
      (knots.width k + 2 * knots.width (k - 1))
      (knots.secant (k - 1)) (knots.secant k)

/-- The slope at an end, from the nearest secant and the one behind it. -/
def edgeSlope (h0 h1 m0 m1 : ℚ) : ℚ :=
  if sign (edgeEstimate h0 h1 m0 m1) ≠ sign m0 then
    0
  else if sign m0 ≠ sign m1 ∧ |3 * m0| < |edgeEstimate h0 h1 m0 m1| then
    3 * m0
  else
    edgeEstimate h0 h1 m0 m1

/-- The slope at a knot. -/
def slope (k : Nat) : ℚ :=
  if knots.count = 2 then
    knots.secant 0
  else if k = 0 then
    edgeSlope (knots.width 0) (knots.width 1) (knots.secant 0)
      (knots.secant 1)
  else if k + 1 = knots.count then
    edgeSlope (knots.width (k - 1)) (knots.width (k - 2))
      (knots.secant (k - 1)) (knots.secant (k - 2))
  else
    knots.innerSlope k

/-- The cubic between a knot and the next one, over `[0, 1]`. -/
def piece (i : Nat) (t : ℚ) : ℚ :=
  hermite (knots.width i) (knots.y i) (knots.slope i) (knots.y (i + 1))
    (knots.slope (i + 1)) t

/-- The interpolant. -/
def value (v : ℚ) : ℚ :=
  if v ≤ knots.x 0 then
    knots.y 0 + knots.slope 0 * (v - knots.x 0)
  else if knots.x (knots.count - 1) ≤ v then
    knots.y (knots.count - 1) +
      knots.slope (knots.count - 1) * (v - knots.x (knots.count - 1))
  else
    knots.piece (bisectRight knots.xs v - 1)
      ((v - knots.x (bisectRight knots.xs v - 1)) /
        knots.width (bisectRight knots.xs v - 1))

/-- The interpolant as the constructor builds it. -/
def pchip : Pchip :=
  ⟨knots.xs, knots.ys, (List.range knots.count).map knots.slope⟩

variable {knots}

theorem x_lt {i j : Nat} (before : i < j) (inside : j < knots.count) :
    knots.x i < knots.x j := by
  unfold x
  rw [List.getD_eq_getElem _ _ (before.trans inside),
    List.getD_eq_getElem _ _ inside]
  exact List.pairwise_iff_getElem.mp knots.increasing _ _ _ _ before

theorem x_le {i j : Nat} (before : i ≤ j) (inside : j < knots.count) :
    knots.x i ≤ knots.x j := by
  rcases Nat.lt_or_eq_of_le before with earlier | rfl
  · exact (x_lt earlier inside).le
  · exact le_refl _

theorem width_pos {i : Nat} (inside : i + 1 < knots.count) :
    0 < knots.width i :=
  sub_pos.mpr (x_lt (Nat.lt_succ_self i) inside)

/-! ### The slopes are admissible -/

theorem edgeSlope_neg {h0 h1 m0 m1 : ℚ} :
    edgeSlope h0 h1 (-m0) (-m1) = -edgeSlope h0 h1 m0 m1 := by
  unfold edgeSlope
  simp only [edgeEstimate_neg, sign_neg, neg_inj, mul_neg, abs_neg,
    ne_eq]
  split
  · rw [neg_zero]
  · split
    · rfl
    · rfl

private theorem edgeSlope_admissible_of_pos {h0 h1 m0 m1 : ℚ}
    (positive : 0 < h0) (nextPositive : 0 < h1) (rising : 0 < m0) :
    Admissible (edgeSlope h0 h1 m0 m1) m0 := by
  unfold edgeSlope
  rw [sign_of_pos rising]
  split
  next => exact admissible_zero
  next same =>
    have estimateRises : 0 < edgeEstimate h0 h1 m0 m1 :=
      sign_eq_one_iff.mp (not_not.mp same)
    split
    next => exact admissible_mul (by norm_num) (le_refl 3)
    next bounded =>
      apply admissible_of_pos rising estimateRises.le
      rcases not_and_or.mp bounded with sameSign | small
      · have nextRises : 0 < m1 :=
          sign_eq_one_iff.mp (not_not.mp sameSign).symm
        exact edgeEstimate_le positive nextPositive rising.le nextRises.le
      · rw [abs_of_pos estimateRises,
          abs_of_pos (mul_pos three_pos rising)] at small
        exact not_lt.mp small

/-- The slope at an end is admissible for its secant. -/
theorem edgeSlope_admissible {h0 h1 m0 m1 : ℚ} (positive : 0 < h0)
    (nextPositive : 0 < h1) : Admissible (edgeSlope h0 h1 m0 m1) m0 := by
  rcases lt_trichotomy m0 0 with falling | rfl | rising
  · have mirrored := @edgeSlope_admissible_of_pos h0 h1 (-m0) (-m1) positive
      nextPositive (neg_pos.mpr falling)
    rw [edgeSlope_neg] at mirrored
    exact admissible_neg.mp mirrored
  · unfold edgeSlope
    rw [sign_zero]
    split
    next => exact admissible_zero
    next same =>
      have estimate : edgeEstimate h0 h1 0 m1 = 0 :=
        sign_eq_zero_iff.mp (not_not.mp same)
      rw [estimate, mul_zero, ite_self]
      exact admissible_zero
  · exact edgeSlope_admissible_of_pos positive nextPositive rising

private theorem harmonicMean_comm {w1 w2 m1 m2 : ℚ} :
    harmonicMean w1 w2 m1 m2 = harmonicMean w2 w1 m2 m1 := by
  unfold harmonicMean
  rw [add_comm w1, add_comm (w1 / m1)]

/-- The slope at an inner knot is admissible for both secants. -/
theorem innerSlope_admissible {k : Nat} (positive : 0 < k)
    (inside : k + 1 < knots.count) :
    Admissible (knots.innerSlope k) (knots.secant (k - 1)) ∧
      Admissible (knots.innerSlope k) (knots.secant k) := by
  have before : 0 < knots.width (k - 1) := width_pos (by omega)
  have after : 0 < knots.width k := width_pos inside
  have firstPositive : 0 < 2 * knots.width k + knots.width (k - 1) := by
    linarith
  have secondPositive : 0 < knots.width k + 2 * knots.width (k - 1) := by
    linarith
  have both : ∀ m1 m2 : ℚ, 0 < m1 → 0 < m2 →
      Admissible (harmonicMean (2 * knots.width k + knots.width (k - 1))
          (knots.width k + 2 * knots.width (k - 1)) m1 m2) m1 ∧
        Admissible (harmonicMean (2 * knots.width k + knots.width (k - 1))
          (knots.width k + 2 * knots.width (k - 1)) m1 m2) m2 := by
    intro m1 m2 rising alsoRising
    constructor
    · exact harmonicMean_admissible firstPositive secondPositive rising
        alsoRising (by linarith)
    · rw [harmonicMean_comm]
      exact harmonicMean_admissible secondPositive firstPositive alsoRising
        rising (by linarith)
  unfold innerSlope
  split
  next => exact ⟨admissible_zero, admissible_zero⟩
  next turning =>
    push Not at turning
    obtain ⟨steep, alsoSteep, same⟩ := turning
    rcases lt_or_gt_of_ne steep with falling | rising
    · have alsoFalling : knots.secant k < 0 := by
        rw [sign_of_neg falling] at same
        exact sign_eq_neg_one_iff.mp same.symm
      have mirrored := both _ _ (neg_pos.mpr falling)
        (neg_pos.mpr alsoFalling)
      rw [harmonicMean_neg, admissible_neg, admissible_neg] at mirrored
      exact mirrored
    · have alsoRising : 0 < knots.secant k := by
        rw [sign_of_pos rising] at same
        exact sign_eq_one_iff.mp same.symm
      exact both _ _ rising alsoRising

private theorem secant_admissible (i : Nat) :
    Admissible (knots.secant i) (knots.secant i) := by
  have once : Admissible (1 * knots.secant i) (knots.secant i) :=
    admissible_mul (by norm_num) (by norm_num)
  rwa [one_mul] at once

/-- The slope at the start of a piece. -/
theorem slope_admissible {i : Nat} (inside : i + 1 < knots.count) :
    Admissible (knots.slope i) (knots.secant i) := by
  unfold slope
  split
  next two =>
    have first : i = 0 := by omega
    subst first
    exact secant_admissible 0
  next more =>
    split
    next first =>
      subst first
      exact edgeSlope_admissible (width_pos inside) (width_pos (by omega))
    next later =>
      rw [if_neg (by omega)]
      exact (innerSlope_admissible (by omega) inside).2

/-- The slope at the end of a piece. -/
theorem slope_succ_admissible {i : Nat} (inside : i + 1 < knots.count) :
    Admissible (knots.slope (i + 1)) (knots.secant i) := by
  unfold slope
  split
  next two =>
    have first : i = 0 := by omega
    subst first
    exact secant_admissible 0
  next more =>
    rw [if_neg (Nat.succ_ne_zero i)]
    split
    next last =>
      have earlier : i - 1 + 1 < knots.count := by omega
      have shifted : i + 1 - 2 = i - 1 := by omega
      rw [Nat.add_sub_cancel, shifted]
      exact edgeSlope_admissible (width_pos inside) (width_pos earlier)
    next => exact (innerSlope_admissible (Nat.succ_pos i) (by omega)).1

end Knots

end PyKvCache.Cost
