import PyKvCache.Cost.Pchip
import Mathlib.Order.Interval.Set.UnorderedInterval

/-!
# The interpolant never fails and keeps its shape

On the knots the constructor accepts, the derivatives and the evaluation of
the source go through, and they are the total functions of `Knots`.
-/

namespace PyKvCache.Cost

open PyKvCache.Library

/-- Every access of an evaluation is inside the lists, and no divisor is
zero. -/
structure Pchip.Evaluates (pchip : Pchip) : Prop where
  two : 2 ≤ pchip.xs.length
  values : pchip.ys.length = pchip.xs.length
  slopes : pchip.ds.length = pchip.xs.length
  inside : ∀ tokens first last, getItem pchip.xs 0 = .ok first →
    getItem pchip.xs (-1) = .ok last → first < tokens → tokens < last →
      1 ≤ bisectRight pchip.xs tokens ∧
        bisectRight pchip.xs tokens < pchip.xs.length
  total : ∀ tokens, ∃ value, pchip.call tokens = .ok value

namespace Knots

variable {knots : Knots}

/-! ## The derivatives -/

private theorem getItem_range {f : Nat → ℚ} {n : Nat} (i : Nat)
    (inside : i < n) :
    getItem ((List.range n).map f) (i : Int) = .ok (f i) := by
  have bound : i < ((List.range n).map f).length := by simpa using inside
  rw [@getItem_natCast _ _ _ 0 bound, List.getD_eq_getElem _ _ bound,
    List.getElem_map, List.getElem_range]

private theorem getItem_range_fromEnd {f : Nat → ℚ} {n : Nat} (back : Nat)
    (positive : 0 < back) (inside : back ≤ n) :
    getItem ((List.range n).map f) (-(back : Int)) = .ok (f (n - back)) := by
  have bound : back ≤ ((List.range n).map f).length := by simpa using inside
  have small : n - back < ((List.range n).map f).length := by
    rw [List.length_map, List.length_range]
    omega
  rw [@getItem_fromEnd _ _ 0 back positive bound, List.length_map,
    List.length_range, List.getD_eq_getElem _ _ small, List.getElem_map,
    List.getElem_range]

theorem getItem_xs (i : Nat) (inside : i < knots.count) :
    getItem knots.xs (i : Int) = .ok (knots.x i) :=
  getItem_natCast inside

theorem getItem_ys (i : Nat) (inside : i < knots.count) :
    getItem knots.ys (i : Int) = .ok (knots.y i) :=
  getItem_natCast (inside.trans_eq knots.covered)

theorem widthAt_eq {i : Nat} (inside : i + 1 < knots.count) :
    widthAt knots.xs i = .ok (knots.width i) := by
  have later := getItem_xs (i + 1) inside
  rw [Nat.cast_succ] at later
  rw [widthAt, later, getItem_xs i (by omega)]
  rfl

theorem secantAt_eq {i : Nat} (inside : i + 1 < knots.count) :
    secantAt knots.ys ((List.range (knots.count - 1)).map knots.width) i =
      .ok (knots.secant i) := by
  have later := getItem_ys (i + 1) inside
  rw [Nat.cast_succ] at later
  rw [secantAt, later, getItem_ys i (by omega),
    getItem_range _ (by omega)]
  exact divide_of_ne (width_pos inside).ne'

private theorem edgeDerivative_eq {h0 h1 m0 m1 : ℚ} (positive : 0 < h0)
    (nextPositive : 0 < h1) :
    edgeDerivative h0 h1 m0 m1 = .ok (edgeSlope h0 h1 m0 m1) := by
  rw [edgeDerivative, divide_of_ne (add_pos positive nextPositive).ne']
  unfold edgeSlope edgeEstimate
  simp only [bind, Except.bind]
  split
  · rfl
  · split
    · rfl
    · rfl

theorem innerDerivative_eq {k : Nat} (positive : 0 < k)
    (inside : k + 1 < knots.count) :
    innerDerivative ((List.range (knots.count - 1)).map knots.width)
      ((List.range (knots.count - 1)).map knots.secant) k =
      .ok (knots.innerSlope k) := by
  have before : 0 < knots.width (k - 1) := width_pos (by omega)
  have after : 0 < knots.width k := width_pos inside
  have back : ((k : Int) - 1) = ((k - 1 : Nat) : Int) := by omega
  unfold innerDerivative innerSlope
  rw [back, getItem_range _ (by omega), getItem_range _ (by omega),
    getItem_range _ (by omega), getItem_range _ (by omega)]
  simp only [bind, Except.bind, pure, Except.pure]
  split
  next => rfl
  next turning =>
    push Not at turning
    obtain ⟨steep, alsoSteep, same⟩ := turning
    rw [divide_of_ne steep, divide_of_ne alsoSteep]
    refine divide_of_ne ?_
    have firstPositive : 0 < 2 * knots.width k + knots.width (k - 1) := by
      linarith
    have secondPositive : 0 < knots.width k + 2 * knots.width (k - 1) := by
      linarith
    rcases lt_or_gt_of_ne steep with falling | rising
    · have alsoFalling : knots.secant k < 0 := by
        rw [sign_of_neg falling] at same
        exact sign_eq_neg_one_iff.mp same.symm
      have mirrored := harmonicMean_denominator_pos firstPositive
        secondPositive (neg_pos.mpr falling) (neg_pos.mpr alsoFalling)
      rw [div_neg, div_neg, ← neg_add] at mirrored
      exact (neg_pos.mp mirrored).ne
    · have alsoRising : 0 < knots.secant k := by
        rw [sign_of_pos rising] at same
        exact sign_eq_one_iff.mp same.symm
      exact (harmonicMean_denominator_pos firstPositive secondPositive
        rising alsoRising).ne'

private theorem range_split {n : Nat} (three : 3 ≤ n) :
    List.range n = 0 :: List.range' 1 (n - 2) ++ [n - 1] := by
  obtain ⟨rest, rfl⟩ : ∃ rest, n = rest + 3 := ⟨n - 3, by omega⟩
  have last : 1 + (rest + 1) = rest + 2 := by omega
  rw [List.range_eq_range', List.range'_succ, List.range'_1_concat]
  simp [last]

/-- The derivatives never fail, and they are the slopes. -/
theorem derivatives_eq :
    derivatives knots.xs knots.ys =
      .ok ((List.range knots.count).map knots.slope) := by
  have two := knots.two
  have widths : (List.range (knots.count - 1)).mapM (widthAt knots.xs) =
      .ok ((List.range (knots.count - 1)).map knots.width) := by
    apply mapM_eq_ok
    intro i member
    rw [List.mem_range] at member
    exact widthAt_eq (by omega)
  have secants : (List.range (knots.count - 1)).mapM
      (secantAt knots.ys ((List.range (knots.count - 1)).map knots.width)) =
      .ok ((List.range (knots.count - 1)).map knots.secant) := by
    apply mapM_eq_ok
    intro i member
    rw [List.mem_range] at member
    exact secantAt_eq (by omega)
  have count : knots.xs.length = knots.count := rfl
  unfold derivatives
  simp only [count] at two ⊢
  rw [if_neg (by omega), widths]
  simp only [bind, Except.bind]
  rw [secants]
  simp only
  by_cases pair : knots.count = 2
  · have first : getItem ((List.range (knots.count - 1)).map knots.secant)
        ((0 : Nat) : Int) = .ok (knots.secant 0) :=
      getItem_range _ (by omega)
    rw [Nat.cast_zero] at first
    rw [if_pos pair, first]
    simp [pair, slope, List.range_succ, pure, Except.pure]
  · have inner : (List.range' 1 (knots.count - 2)).mapM
        (innerDerivative ((List.range (knots.count - 1)).map knots.width)
          ((List.range (knots.count - 1)).map knots.secant)) =
        .ok ((List.range' 1 (knots.count - 2)).map knots.slope) := by
      apply mapM_eq_ok
      intro k member
      rw [List.mem_range'_1] at member
      rw [innerDerivative_eq (by omega) (by omega), slope, if_neg pair,
        if_neg (by omega), if_neg (by omega)]
    have ends : ∀ f : Nat → ℚ,
        getItem ((List.range (knots.count - 1)).map f) 0 = .ok (f 0) ∧
        getItem ((List.range (knots.count - 1)).map f) 1 = .ok (f 1) ∧
        getItem ((List.range (knots.count - 1)).map f) (-1) =
          .ok (f (knots.count - 1 - 1)) ∧
        getItem ((List.range (knots.count - 1)).map f) (-2) =
          .ok (f (knots.count - 1 - 2)) := by
      intro f
      exact ⟨getItem_range 0 (by omega), getItem_range 1 (by omega),
        getItem_range_fromEnd 1 (by omega) (by omega),
        getItem_range_fromEnd 2 (by omega) (by omega)⟩
    obtain ⟨width0, width1, widthLast, widthBefore⟩ := ends knots.width
    obtain ⟨secant0, secant1, secantLast, secantBefore⟩ := ends knots.secant
    have first := @edgeDerivative_eq (knots.width 0) (knots.width 1)
      (knots.secant 0) (knots.secant 1) (width_pos (by omega))
      (width_pos (by omega))
    have last := @edgeDerivative_eq (knots.width (knots.count - 1 - 1))
      (knots.width (knots.count - 1 - 2)) (knots.secant (knots.count - 1 - 1))
      (knots.secant (knots.count - 1 - 2)) (width_pos (by omega))
      (width_pos (by omega))
    rw [if_neg pair, inner, width0, width1, secant0, secant1, widthLast,
      widthBefore, secantLast, secantBefore]
    simp only
    rw [first, last, range_split (by omega), List.map_append, List.map_cons,
      List.map_singleton]
    have firstSlope : knots.slope 0 = edgeSlope (knots.width 0)
        (knots.width 1) (knots.secant 0) (knots.secant 1) := by
      rw [slope, if_neg pair, if_pos rfl]
    have lastSlope : knots.slope (knots.count - 1) =
        edgeSlope (knots.width (knots.count - 1 - 1))
          (knots.width (knots.count - 1 - 2))
          (knots.secant (knots.count - 1 - 1))
          (knots.secant (knots.count - 1 - 2)) := by
      rw [slope, if_neg pair, if_neg (by omega), if_pos (by omega)]
    rw [firstSlope, lastSlope]
    rfl

/-! ## Evaluation -/

/-- Between two knots the bisection finds the one before. -/
theorem bisectRight_eq {i : Nat} {v : ℚ} (inside : i + 1 < knots.count)
    (low : knots.x i ≤ v) (high : v < knots.x (i + 1)) :
    bisectRight knots.xs v = i + 1 := by
  have bound : bisectRight knots.xs v ≤ knots.count := bisectRight_le_length
  rcases lt_trichotomy (bisectRight knots.xs v) (i + 1) with
    early | found | late
  · have above : v < knots.x (bisectRight knots.xs v) :=
      lt_getD_bisectRight (early.trans inside)
    have below : knots.x (bisectRight knots.xs v) ≤ knots.x i :=
      x_le (by omega) (by omega)
    linarith
  · exact found
  · have below : knots.x (i + 1) ≤ v := getD_le_of_lt_bisectRight late
    linarith

/-- Inside the range the bisection finds a piece. -/
theorem exists_piece {v : ℚ} (low : knots.x 0 ≤ v)
    (high : v < knots.x (knots.count - 1)) :
    ∃ i, i + 1 < knots.count ∧ knots.x i ≤ v ∧ v < knots.x (i + 1) ∧
      bisectRight knots.xs v = i + 1 := by
  have two : 2 ≤ knots.count := knots.two
  have bound : bisectRight knots.xs v ≤ knots.count := bisectRight_le_length
  have positive : bisectRight knots.xs v ≠ 0 := by
    intro none
    have inside : bisectRight knots.xs v < knots.count := by omega
    have above : v < knots.x (bisectRight knots.xs v) :=
      lt_getD_bisectRight inside
    rw [none] at above
    linarith
  have small : bisectRight knots.xs v < knots.count := by
    by_contra all
    have before : knots.count - 1 < bisectRight knots.xs v := by omega
    have below : knots.x (knots.count - 1) ≤ v :=
      getD_le_of_lt_bisectRight before
    linarith
  obtain ⟨i, found⟩ := Nat.exists_eq_succ_of_ne_zero positive
  have below : knots.x i ≤ v := getD_le_of_lt_bisectRight (by omega)
  have above : v < knots.x (bisectRight knots.xs v) :=
    lt_getD_bisectRight small
  rw [found] at above small
  exact ⟨i, small, below, above, found⟩

/-- The evaluation never fails, and it is the interpolant. -/
theorem call_eq (v : ℚ) : knots.pchip.call v = .ok (knots.value v) := by
  have two : 2 ≤ knots.count := knots.two
  have firstX : getItem knots.xs 0 = .ok (knots.x 0) :=
    getItem_xs 0 (by omega)
  have lastX : getItem knots.xs (-1) = .ok (knots.x (knots.count - 1)) :=
    getItem_fromEnd 1 Nat.one_pos (by unfold count at two; omega)
  have slopes := fun i => @getItem_range knots.slope knots.count i
  unfold Pchip.call value pchip
  rw [firstX]
  simp only [bind, Except.bind]
  by_cases before : v ≤ knots.x 0
  · have value : getItem knots.ys 0 = .ok (knots.y 0) :=
      getItem_ys 0 (by omega)
    have slope := slopes 0 (by omega)
    rw [Nat.cast_zero] at slope
    rw [if_pos before, if_pos before, value, slope]
    rfl
  · rw [if_neg before, if_neg before, lastX]
    simp only
    by_cases behind : knots.x (knots.count - 1) ≤ v
    · have value : getItem knots.ys (-1) =
          .ok (knots.y (knots.count - 1)) := by
        have found := @getItem_fromEnd _ knots.ys 0 1 Nat.one_pos
          (by rw [← knots.covered]; unfold count at two; omega)
        rw [← knots.covered] at found
        exact found
      have slope : getItem ((List.range knots.count).map knots.slope) (-1) =
          .ok (knots.slope (knots.count - 1)) :=
        getItem_range_fromEnd 1 Nat.one_pos (by omega)
      rw [if_pos behind, if_pos behind, value, slope]
      rfl
    · obtain ⟨i, inside, _, _, found⟩ :=
        exists_piece (lt_of_not_ge before).le (lt_of_not_ge behind)
      have here : ((i + 1 : Nat) : Int) - 1 = (i : Int) := by omega
      have next : (i : Int) + 1 = ((i + 1 : Nat) : Int) := by omega
      have width := divide_of_ne (a := v - knots.x i) (width_pos inside).ne'
      rw [if_neg behind, if_neg behind, found, here, next,
        getItem_xs _ inside, getItem_xs i (by omega), getItem_ys _ inside,
        getItem_ys i (by omega), slopes _ inside, slopes i (by omega)]
      simp only
      unfold Knots.width at width
      rw [width]
      rfl

theorem evaluates : knots.pchip.Evaluates := by
  have two : 2 ≤ knots.count := knots.two
  constructor
  · exact knots.two
  · exact knots.covered.symm
  · exact (List.length_map _).trans List.length_range
  · intro tokens first last firstFound lastFound low high
    have firstX : getItem knots.xs 0 = .ok (knots.x 0) :=
      getItem_xs 0 (by omega)
    have lastX : getItem knots.xs (-1) = .ok (knots.x (knots.count - 1)) :=
      getItem_fromEnd 1 Nat.one_pos (by unfold count at two; omega)
    cases firstX.symm.trans firstFound
    cases lastX.symm.trans lastFound
    obtain ⟨i, inside, _, _, found⟩ := exists_piece low.le high
    change 1 ≤ bisectRight knots.xs tokens ∧
      bisectRight knots.xs tokens < knots.count
    rw [found]
    exact ⟨Nat.succ_pos i, inside⟩
  · intro tokens
    exact ⟨_, call_eq tokens⟩

/-- On a piece the interpolant is its cubic. -/
theorem value_eq_piece {i : Nat} {v : ℚ} (inside : i + 1 < knots.count)
    (low : knots.x i ≤ v) (high : v ≤ knots.x (i + 1)) :
    knots.value v = knots.piece i ((v - knots.x i) / knots.width i) := by
  have positive := width_pos inside
  have atStart : ∀ j, knots.piece j 0 = knots.y j := fun _ => hermite_zero
  have atEnd : ∀ j, knots.piece j 1 = knots.y (j + 1) := fun _ => hermite_one
  unfold value
  split
  next before =>
    have first : i = 0 := by
      by_contra later
      have above : knots.x 0 < knots.x i := x_lt (by omega) (by omega)
      linarith
    subst first
    have same : v = knots.x 0 := le_antisymm before low
    rw [same, sub_self, mul_zero, add_zero, zero_div, atStart]
  next after =>
    have whole : v = knots.x (i + 1) →
        (v - knots.x i) / knots.width i = 1 := by
      intro same
      rw [same]
      exact div_self positive.ne'
    split
    next behind =>
      have last : i + 1 = knots.count - 1 := by
        by_contra earlier
        have below : knots.x (i + 1) < knots.x (knots.count - 1) :=
          x_lt (by omega) (by omega)
        linarith
      rw [← last] at behind ⊢
      have same : v = knots.x (i + 1) := le_antisymm high behind
      rw [whole same, same, sub_self, mul_zero, add_zero, atEnd]
    next within =>
      rcases high.lt_or_eq with below | same
      · rw [bisectRight_eq inside low below]
        rfl
      · have more : i + 2 < knots.count := by
          by_contra last
          have only : i + 1 = knots.count - 1 := by omega
          rw [← only] at within
          exact within same.ge
        have start : knots.x (i + 1) ≤ v := same.ge
        have above : v < knots.x (i + 1 + 1) :=
          same.trans_lt (x_lt (Nat.lt_succ_self _) more)
        rw [bisectRight_eq more start above, whole same, atEnd,
          Nat.add_sub_cancel, same, sub_self, zero_div, atStart]

/-- From the last knot on the interpolant is a line. -/
theorem value_tail {v : ℚ} (behind : knots.x (knots.count - 1) ≤ v) :
    knots.value v = knots.y (knots.count - 1) +
      knots.slope (knots.count - 1) * (v - knots.x (knots.count - 1)) := by
  have two : 2 ≤ knots.count := knots.two
  have first : knots.x 0 < knots.x (knots.count - 1) :=
    x_lt (by omega) (by omega)
  rw [value, if_neg (by linarith), if_pos behind]

/-! ## The shape -/

theorem value_x {i : Nat} (inside : i < knots.count) :
    knots.value (knots.x i) = knots.y i := by
  have two : 2 ≤ knots.count := knots.two
  by_cases last : i + 1 < knots.count
  · rw [value_eq_piece last (le_refl _) (width_pos last |> sub_pos.mp).le,
      sub_self, zero_div]
    exact hermite_zero
  · obtain ⟨j, rfl⟩ : ∃ j, i = j + 1 := ⟨i - 1, by omega⟩
    have positive := width_pos inside
    rw [value_eq_piece inside (sub_pos.mp positive).le (le_refl _)]
    have whole : (knots.x (j + 1) - knots.x j) / knots.width j = 1 :=
      div_self positive.ne'
    rw [whole]
    exact hermite_one

/-- On a piece the interpolant is monotone in the direction of its secant. -/
theorem value_monotone {i : Nat} {v w : ℚ} (inside : i + 1 < knots.count)
    (low : knots.x i ≤ v) (ordered : v ≤ w) (high : w ≤ knots.x (i + 1)) :
    (knots.y i ≤ knots.y (i + 1) → knots.value v ≤ knots.value w) ∧
      (knots.y (i + 1) ≤ knots.y i → knots.value w ≤ knots.value v) := by
  have positive := width_pos inside
  rw [value_eq_piece inside low (ordered.trans high),
    value_eq_piece inside (low.trans ordered) high]
  apply hermite_monotone positive (slope_admissible inside)
    (slope_succ_admissible inside)
  · exact div_nonneg (sub_nonneg.mpr low) positive.le
  · exact div_le_div_of_nonneg_right (by linarith) positive.le
  · rw [div_le_one positive]
    unfold width
    linarith

/-- On a piece the interpolant stays between the values at its ends. -/
theorem value_between {i : Nat} {v : ℚ} (inside : i + 1 < knots.count)
    (low : knots.x i ≤ v) (high : v ≤ knots.x (i + 1)) :
    knots.value v ∈ Set.uIcc (knots.y i) (knots.y (i + 1)) := by
  have before := value_monotone inside (le_refl _) low high
  have after := value_monotone inside low high (le_refl _)
  rw [value_x (by omega)] at before
  rw [value_x inside] at after
  rcases le_total (knots.y i) (knots.y (i + 1)) with rising | falling
  · rw [Set.uIcc_of_le rising]
    exact ⟨before.1 rising, after.1 rising⟩
  · rw [Set.uIcc_of_ge falling]
    exact ⟨after.2 falling, before.2 falling⟩

section Rising

variable
  (rising : ∀ i, i + 1 < knots.count → knots.y i ≤ knots.y (i + 1))

include rising

theorem y_le {i j : Nat} (before : i ≤ j) (inside : j < knots.count) :
    knots.y i ≤ knots.y j := by
  induction j, before using Nat.le_induction with
  | base => exact le_refl _
  | succ j before inductionHypothesis =>
      exact (inductionHypothesis (by omega)).trans (rising j inside)

theorem tail_le {v w : ℚ} (behind : knots.x (knots.count - 1) ≤ v)
    (ordered : v ≤ w) : knots.value v ≤ knots.value w := by
  have two : 2 ≤ knots.count := knots.two
  have inside : knots.count - 2 + 1 < knots.count := by omega
  have last : knots.count - 2 + 1 = knots.count - 1 := by omega
  have secant : 0 ≤ knots.secant (knots.count - 2) :=
    div_nonneg (sub_nonneg.mpr (rising _ inside)) (width_pos inside).le
  have steep := ((slope_succ_admissible inside).1 secant).1
  rw [last] at steep
  have gap := mul_le_mul_of_nonneg_left
    (sub_le_sub_right ordered (knots.x (knots.count - 1))) steep
  rw [value_tail behind, value_tail (behind.trans ordered)]
  linarith

/-- Where no value is below the one before, the interpolant never falls
behind the first knot. -/
theorem value_le_value {v w : ℚ} (start : knots.x 0 ≤ v)
    (ordered : v ≤ w) : knots.value v ≤ knots.value w := by
  rcases le_or_gt (knots.x (knots.count - 1)) v with behind | early
  · exact tail_le rising behind ordered
  obtain ⟨i, inside, low, high, _⟩ := exists_piece start early
  have below := value_between inside low high.le
  rw [Set.uIcc_of_le (rising i inside)] at below
  rcases le_or_gt (knots.x (knots.count - 1)) w with behind | within
  · -- along the knots to the last one, and along the line from there
    have last : knots.value (knots.x (knots.count - 1)) =
        knots.y (knots.count - 1) := value_x (by omega)
    calc knots.value v ≤ knots.y (i + 1) := below.2
      _ ≤ knots.y (knots.count - 1) := y_le rising (by omega) (by omega)
      _ = knots.value (knots.x (knots.count - 1)) := last.symm
      _ ≤ knots.value w := tail_le rising (le_refl _) behind
  · obtain ⟨j, insideToo, lowToo, highToo, _⟩ :=
      exists_piece (start.trans ordered) within
    rcases Nat.lt_trichotomy i j with earlier | rfl | later
    · have above := value_between insideToo lowToo highToo.le
      rw [Set.uIcc_of_le (rising j insideToo)] at above
      calc knots.value v ≤ knots.y (i + 1) := below.2
        _ ≤ knots.y j := y_le rising earlier (by omega)
        _ ≤ knots.value w := above.1
    · exact (value_monotone inside low ordered highToo.le).1
        (rising i inside)
    · have misplaced : knots.x (j + 1) ≤ knots.x i :=
        x_le later (by omega)
      linarith

end Rising

end Knots

/-! ## Construction -/

/-- The points the interpolant runs through: `(0, floor)` comes before a first
point that is not at `0`. -/
def anchored (points : List (ℚ × ℚ)) (floor : ℚ) : List (ℚ × ℚ) :=
  if (points.head?.map Prod.fst).any (· ≠ 0) then
    (0, floor) :: points
  else
    points

theorem anchored_of_ne_zero {first : ℚ × ℚ} {rest : List (ℚ × ℚ)}
    {floor : ℚ} (shifted : first.1 ≠ 0) :
    anchored (first :: rest) floor = (0, floor) :: first :: rest := by
  simp [anchored, shifted]

theorem anchored_of_eq_zero {first : ℚ × ℚ} {rest : List (ℚ × ℚ)}
    {floor : ℚ} (unshifted : first.1 = 0) :
    anchored (first :: rest) floor = first :: rest := by
  simp [anchored, unshifted]

/-- The first point is always at `0`. -/
theorem anchored_start {points : List (ℚ × ℚ)} {floor : ℚ}
    (inside : 0 < (anchored points floor).length) :
    (anchored points floor)[0].1 = 0 := by
  cases points with
  | nil => cases inside
  | cons first rest =>
      by_cases shifted : first.1 = 0
      · simp only [anchored_of_eq_zero shifted, List.getElem_cons_zero,
          shifted]
      · simp only [anchored_of_ne_zero shifted, List.getElem_cons_zero]

private theorem any_descent_iff {xs : List ℚ} :
    ((xs.zip xs.tail).any fun pair => decide (pair.2 ≤ pair.1)) = true ↔
      ¬ xs.Pairwise (· < ·) := by
  rw [← List.isChain_iff_pairwise]
  induction xs with
  | nil => simp
  | cons head tail inductionHypothesis =>
      cases tail with
      | nil => simp
      | cons next rest =>
          rw [List.isChain_cons_cons, not_and_or, ← inductionHypothesis,
            not_lt]
          simp

/-- The constructor past the anchor. -/
private theorem checked_eq_ok_iff {points : List (ℚ × ℚ)} {pchip : Pchip}
    {few : String} :
    (if (points.map Prod.fst).length < 2 then
        throw (.valueError few)
      else if ((points.map Prod.fst).zip (points.map Prod.fst).tail).any
          fun pair => pair.2 ≤ pair.1 then
        throw (.valueError "Pchip requires strictly increasing xs")
      else do
        let ds ← derivatives (points.map Prod.fst) (points.map Prod.snd)
        pure ⟨points.map Prod.fst, points.map Prod.snd, ds⟩ :
          Except PyError Pchip) = .ok pchip ↔
      ∃ knots : Knots, knots.xs = points.map Prod.fst ∧
        knots.ys = points.map Prod.snd ∧ pchip = knots.pchip := by
  by_cases small : (points.map Prod.fst).length < 2
  · rw [if_pos small]
    constructor
    · intro raised
      cases raised
    · rintro ⟨knots, places, _, _⟩
      have two := knots.two
      rw [places] at two
      omega
  rw [if_neg small]
  by_cases increasing : (points.map Prod.fst).Pairwise (· < ·)
  · let knots : Knots :=
      ⟨points.map Prod.fst, points.map Prod.snd, not_lt.mp small, by simp,
        increasing⟩
    have built : derivatives (points.map Prod.fst) (points.map Prod.snd) =
        .ok ((List.range knots.count).map knots.slope) :=
      knots.derivatives_eq
    rw [if_neg (fun found => any_descent_iff.mp found increasing), built]
    constructor
    · intro same
      cases same
      exact ⟨knots, rfl, rfl, rfl⟩
    · rintro ⟨other, places, values, rfl⟩
      have same : other = knots := by
        cases other
        cases places
        cases values
        rfl
      rw [same]
      rfl
  · rw [if_pos (any_descent_iff.mpr increasing)]
    constructor
    · intro raised
      cases raised
    · rintro ⟨knots, places, _, _⟩
      have ordered := knots.increasing
      rw [places] at ordered
      exact absurd ordered increasing

/-- What the constructor accepts, and what it builds. -/
theorem init_eq_ok_iff {points : List (ℚ × ℚ)} {floor : ℚ}
    {pchip : Pchip} :
    Pchip.init (points.map Prod.fst) (points.map Prod.snd) floor =
        .ok pchip ↔
      ∃ knots : Knots, knots.xs = (anchored points floor).map Prod.fst ∧
        knots.ys = (anchored points floor).map Prod.snd ∧
        pchip = knots.pchip := by
  cases points with
  | nil =>
      constructor
      · intro raised
        cases raised
      · rintro ⟨knots, places, _, _⟩
        have two := knots.two
        rw [places] at two
        cases two
  | cons first rest =>
      have found : getItem ((first :: rest).map Prod.fst) 0 =
          .ok first.1 := rfl
      rw [Pchip.init, if_neg (by simp), found]
      simp only [bind, Except.bind]
      by_cases shifted : first.1 ≠ 0
      · simp only [if_pos shifted]
        rw [anchored_of_ne_zero shifted]
        exact @checked_eq_ok_iff ((0, floor) :: first :: rest) _ _
      · simp only [if_neg shifted]
        rw [anchored_of_eq_zero (not_not.mp shifted)]
        exact @checked_eq_ok_iff (first :: rest) _ _

/-! ## The shape of an accepted list of points -/

/-- The shape of the points, over the whole range and behind it. -/
structure KeepsShape (points : List (ℚ × ℚ)) (value : ℚ → ℚ) : Prop where
  atKnots : ∀ point ∈ points, value point.1 = point.2
  rising : ∀ i (_ : i + 1 < points.length),
    points[i].2 ≤ points[i + 1].2 →
      MonotoneOn value (Set.Icc points[i].1 points[i + 1].1)
  falling : ∀ i (_ : i + 1 < points.length),
    points[i + 1].2 ≤ points[i].2 →
      AntitoneOn value (Set.Icc points[i].1 points[i + 1].1)
  between : ∀ i (_ : i + 1 < points.length),
    ∀ v ∈ Set.Icc points[i].1 points[i + 1].1,
      value v ∈ Set.uIcc points[i].2 points[i + 1].2
  tail : ∀ i (_ : i + 2 = points.length), ∃ slope : ℚ,
    (slope = 0 ∨ sign slope = sign ((points[i + 1].2 - points[i].2) /
      (points[i + 1].1 - points[i].1))) ∧
      ∀ v, points[i + 1].1 ≤ v →
        value v = points[i + 1].2 + slope * (v - points[i + 1].1)

private theorem sign_of_admissible {slope secant : ℚ}
    (admissible : Admissible slope secant) :
    slope = 0 ∨ sign slope = sign secant := by
  rcases lt_trichotomy secant 0 with falling | rfl | rising
  · rcases ((admissible.2 falling.le).2).lt_or_eq with below | flat
    · exact Or.inr ((sign_of_neg below).trans (sign_of_neg falling).symm)
    · exact Or.inl flat
  · exact Or.inl (le_antisymm (admissible.2 (le_refl _)).2
      (admissible.1 (le_refl _)).1)
  · rcases ((admissible.1 rising.le).1).lt_or_eq with above | flat
    · exact Or.inr ((sign_of_pos above).trans (sign_of_pos rising).symm)
    · exact Or.inl flat.symm

namespace Knots

variable {knots : Knots} {points : List (ℚ × ℚ)}
  (places : knots.xs = points.map Prod.fst)
  (values : knots.ys = points.map Prod.snd)

include places in
theorem count_eq : knots.count = points.length := by
  rw [count, places, List.length_map]

include places in
theorem x_eq {i : Nat} (inside : i < points.length) :
    knots.x i = points[i].1 := by
  simp [x, places, inside]

include values in
theorem y_eq {i : Nat} (inside : i < points.length) :
    knots.y i = points[i].2 := by
  simp [y, values, inside]

include places values in
/-- The interpolant keeps the shape of its points. -/
theorem keepsShape : KeepsShape points knots.value := by
  have count := count_eq places
  constructor
  · intro point member
    obtain ⟨i, inside, rfl⟩ := List.getElem_of_mem member
    rw [← x_eq places inside, ← y_eq values inside]
    exact value_x (by omega)
  · intro i inside ordered v low w high before
    have start : i < points.length := by omega
    rw [← y_eq values start, ← y_eq values inside] at ordered
    rw [← x_eq places start, ← x_eq places inside] at low high
    exact (value_monotone (by omega) low.1 before high.2).1 ordered
  · intro i inside ordered v low w high before
    have start : i < points.length := by omega
    rw [← y_eq values start, ← y_eq values inside] at ordered
    rw [← x_eq places start, ← x_eq places inside] at low high
    exact (value_monotone (by omega) low.1 before high.2).2 ordered
  · intro i inside v within
    have start : i < points.length := by omega
    rw [← x_eq places start, ← x_eq places inside] at within
    rw [← y_eq values start, ← y_eq values inside]
    exact value_between (by omega) within.1 within.2
  · intro i last
    have start : i < points.length := by omega
    have inside : i + 1 < points.length := by omega
    have final : i + 1 = knots.count - 1 := by omega
    have admissible := @slope_succ_admissible knots i (by omega)
    refine ⟨knots.slope (i + 1), ?_, ?_⟩
    · rw [← x_eq places start, ← x_eq places inside, ← y_eq values start,
        ← y_eq values inside]
      exact sign_of_admissible admissible
    · intro v behind
      rw [← x_eq places inside] at behind ⊢
      rw [← y_eq values inside]
      rw [final] at behind ⊢
      exact value_tail behind

end Knots

end PyKvCache.Cost
