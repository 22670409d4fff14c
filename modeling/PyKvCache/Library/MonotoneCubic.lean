import Mathlib.Algebra.Order.Field.Basic
import Mathlib.Tactic.FieldSimp
import Mathlib.Tactic.Linarith
import Mathlib.Tactic.Positivity
import Mathlib.Tactic.Ring

/-!
# Monotone cubic pieces

A cubic on `[0, 1]` is given by its values and its slopes at both ends.  It is
monotone as soon as both slopes point the way of the secant and are at most
three times as steep: such a cubic lies between four monotone ones, one for
each choice of the extreme slopes.

The weighted harmonic mean of two secants and the one-sided estimate at the
end of a range are slopes of this kind.
-/

namespace PyKvCache.Library

variable {K : Type} [Field K] [LinearOrder K] [IsStrictOrderedRing K]

/-! ## Cubics from values and slopes -/

/-- The cubic in Hermite form. -/
def hermite (width leftValue leftSlope rightValue rightSlope t : K) : K :=
  (2 * t ^ 3 - 3 * t ^ 2 + 1) * leftValue +
    (t ^ 3 - 2 * t ^ 2 + t) * width * leftSlope +
    (-2 * t ^ 3 + 3 * t ^ 2) * rightValue +
    (t ^ 3 - t ^ 2) * width * rightSlope

/-- A slope that points the way of the secant and is at most three times as
steep. -/
def Admissible (slope secant : K) : Prop :=
  (0 ≤ secant → 0 ≤ slope ∧ slope ≤ 3 * secant) ∧
    (secant ≤ 0 → 3 * secant ≤ slope ∧ slope ≤ 0)

section Hermite

variable {width leftValue leftSlope rightValue rightSlope s t : K}

omit [LinearOrder K] [IsStrictOrderedRing K] in
theorem hermite_zero :
    hermite width leftValue leftSlope rightValue rightSlope 0 =
      leftValue := by
  unfold hermite
  ring

omit [LinearOrder K] [IsStrictOrderedRing K] in
theorem hermite_one :
    hermite width leftValue leftSlope rightValue rightSlope 1 =
      rightValue := by
  unfold hermite
  ring

omit [LinearOrder K] [IsStrictOrderedRing K] in
theorem hermite_neg :
    hermite width (-leftValue) (-leftSlope) (-rightValue) (-rightSlope) t =
      -hermite width leftValue leftSlope rightValue rightSlope t := by
  unfold hermite
  ring

/-- What is affine in a parameter is nonnegative on a range as soon as it is
at both ends. -/
theorem affine_nonneg {base rate bound x : K} (low : 0 ≤ x)
    (high : x ≤ bound) (left : 0 ≤ base) (right : 0 ≤ base + bound * rate) :
    0 ≤ base + x * rate := by
  rcases le_total 0 rate with rising | falling
  · exact add_nonneg left (mul_nonneg low rising)
  · have steeper := mul_le_mul_of_nonpos_right high falling
    linarith

private theorem flat_step (low : 0 ≤ s) (ordered : s ≤ t) (high : t ≤ 1) :
    0 ≤ (3 * t ^ 2 - 2 * t ^ 3) - (3 * s ^ 2 - 2 * s ^ 3) := by
  have split : (3 * t ^ 2 - 2 * t ^ 3) - (3 * s ^ 2 - 2 * s ^ 3) =
      (t - s) * (2 * (t * (1 - t)) + 2 * (s * (1 - s)) +
        (t * (1 - s) + s * (1 - t))) := by
    ring
  have later : 0 ≤ t := low.trans ordered
  have before : 0 ≤ 1 - s := by linarith
  have rest : 0 ≤ 1 - t := by linarith
  have gap : 0 ≤ t - s := by linarith
  rw [split]
  positivity

private theorem early_step (ordered : s ≤ t) (high : t ≤ 1) :
    0 ≤ (t ^ 3 - 3 * t ^ 2 + 3 * t) - (s ^ 3 - 3 * s ^ 2 + 3 * s) := by
  have powers : (1 - t) ^ 3 ≤ (1 - s) ^ 3 :=
    pow_le_pow_left₀ (by linarith) (by linarith) 3
  have split : (t ^ 3 - 3 * t ^ 2 + 3 * t) - (s ^ 3 - 3 * s ^ 2 + 3 * s) =
      (1 - s) ^ 3 - (1 - t) ^ 3 := by
    ring
  rw [split]
  exact sub_nonneg.mpr powers

private theorem both_step (ordered : s ≤ t) :
    0 ≤ (4 * t ^ 3 - 6 * t ^ 2 + 3 * t) -
      (4 * s ^ 3 - 6 * s ^ 2 + 3 * s) := by
  have split : (4 * t ^ 3 - 6 * t ^ 2 + 3 * t) -
      (4 * s ^ 3 - 6 * s ^ 2 + 3 * s) =
      (t - s) * ((4 * t + 2 * s - 3) ^ 2 / 4 + 3 * (2 * s - 1) ^ 2 / 4) := by
    ring
  have gap : 0 ≤ t - s := by linarith
  rw [split]
  positivity

/-- A cubic that rises from end to end, with admissible slopes, rises all the
way. -/
theorem hermite_le_of_rising (positive : 0 < width)
    (left : 0 ≤ leftSlope ∧
      leftSlope ≤ 3 * ((rightValue - leftValue) / width))
    (right : 0 ≤ rightSlope ∧
      rightSlope ≤ 3 * ((rightValue - leftValue) / width))
    (low : 0 ≤ s) (ordered : s ≤ t) (high : t ≤ 1) :
    hermite width leftValue leftSlope rightValue rightSlope s ≤
      hermite width leftValue leftSlope rightValue rightSlope t := by
  have scaled : ∀ slope : K,
      slope ≤ 3 * ((rightValue - leftValue) / width) →
        width * slope ≤ 3 * (rightValue - leftValue) := by
    intro slope bounded
    have product := mul_le_mul_of_nonneg_left bounded positive.le
    have cancelled : width * (3 * ((rightValue - leftValue) / width)) =
        3 * (rightValue - leftValue) := by
      field_simp
    linarith
  have leftBound := scaled leftSlope left.2
  have rightBound := scaled rightSlope right.2
  have leftSign := mul_nonneg positive.le left.1
  have rightSign := mul_nonneg positive.le right.1
  have rise : 0 ≤ rightValue - leftValue := by linarith
  have later : 0 ≤ t := low.trans ordered
  -- affine in the left slope, and at both of its ends in the right one
  have corner : ∀ slope : K, 0 ≤ slope →
      slope ≤ 3 * (rightValue - leftValue) →
        0 ≤ (rightValue - leftValue) *
            ((3 * t ^ 2 - 2 * t ^ 3) - (3 * s ^ 2 - 2 * s ^ 3)) +
          slope * ((t ^ 3 - t ^ 2) - (s ^ 3 - s ^ 2)) ∧
        0 ≤ (rightValue - leftValue) *
            ((t ^ 3 - 3 * t ^ 2 + 3 * t) - (s ^ 3 - 3 * s ^ 2 + 3 * s)) +
          slope * ((t ^ 3 - t ^ 2) - (s ^ 3 - s ^ 2)) := by
    intro slope sign bound
    constructor
    · apply affine_nonneg sign bound
      · exact mul_nonneg rise (flat_step low ordered high)
      · have cubes : s ^ 3 ≤ t ^ 3 := pow_le_pow_left₀ low ordered 3
        have product := mul_nonneg rise (sub_nonneg.mpr cubes)
        linarith
    · apply affine_nonneg sign bound
      · exact mul_nonneg rise (early_step ordered high)
      · have product := mul_nonneg rise (both_step ordered)
        linarith
  have ends := corner (width * rightSlope) rightSign rightBound
  have steepest : 0 ≤ (rightValue - leftValue) *
        ((3 * t ^ 2 - 2 * t ^ 3) - (3 * s ^ 2 - 2 * s ^ 3)) +
      width * rightSlope * ((t ^ 3 - t ^ 2) - (s ^ 3 - s ^ 2)) +
      3 * (rightValue - leftValue) *
        ((t ^ 3 - 2 * t ^ 2 + t) - (s ^ 3 - 2 * s ^ 2 + s)) := by
    linarith [ends.2]
  have total := affine_nonneg leftSign leftBound ends.1 steepest
  unfold hermite
  linarith

/-- A cubic with admissible slopes is monotone, in the direction of its
secant. -/
theorem hermite_monotone (positive : 0 < width)
    (left : Admissible leftSlope ((rightValue - leftValue) / width))
    (right : Admissible rightSlope ((rightValue - leftValue) / width))
    (low : 0 ≤ s) (ordered : s ≤ t) (high : t ≤ 1) :
    (leftValue ≤ rightValue →
      hermite width leftValue leftSlope rightValue rightSlope s ≤
        hermite width leftValue leftSlope rightValue rightSlope t) ∧
    (rightValue ≤ leftValue →
      hermite width leftValue leftSlope rightValue rightSlope t ≤
        hermite width leftValue leftSlope rightValue rightSlope s) := by
  constructor
  · intro rising
    have secant : 0 ≤ (rightValue - leftValue) / width :=
      div_nonneg (sub_nonneg.mpr rising) positive.le
    exact hermite_le_of_rising positive (left.1 secant) (right.1 secant)
      low ordered high
  · intro falling
    have secant : (rightValue - leftValue) / width ≤ 0 :=
      div_nonpos_of_nonpos_of_nonneg (sub_nonpos.mpr falling) positive.le
    have mirrored : (-rightValue - -leftValue) / width =
        -((rightValue - leftValue) / width) := by
      ring
    have turned : ∀ slope : K,
        Admissible slope ((rightValue - leftValue) / width) →
          0 ≤ -slope ∧
            -slope ≤ 3 * ((-rightValue - -leftValue) / width) := by
      intro slope admissible
      obtain ⟨steep, sign⟩ := admissible.2 secant
      rw [mirrored]
      constructor <;> linarith
    have rises := hermite_le_of_rising positive (turned _ left)
      (turned _ right) low ordered high
    rw [hermite_neg, hermite_neg] at rises
    exact neg_le_neg_iff.mp rises

end Hermite

/-! ## Admissible slopes -/

section Slopes

variable {slope secant other : K}

theorem admissible_zero : Admissible 0 secant := by
  constructor
  · intro rising
    exact ⟨le_refl 0, by linarith⟩
  · intro falling
    exact ⟨by linarith, le_refl 0⟩

theorem admissible_neg :
    Admissible (-slope) (-secant) ↔ Admissible slope secant := by
  unfold Admissible
  constructor
  · rintro ⟨rising, falling⟩
    constructor
    · intro sign
      obtain ⟨low, high⟩ := falling (by linarith)
      constructor <;> linarith
    · intro sign
      obtain ⟨low, high⟩ := rising (by linarith)
      constructor <;> linarith
  · rintro ⟨rising, falling⟩
    constructor
    · intro sign
      obtain ⟨low, high⟩ := falling (by linarith)
      constructor <;> linarith
    · intro sign
      obtain ⟨low, high⟩ := rising (by linarith)
      constructor <;> linarith

omit [IsStrictOrderedRing K] in
/-- For a rising secant only the rising bounds say anything. -/
theorem admissible_of_pos (rising : 0 < secant) (low : 0 ≤ slope)
    (high : slope ≤ 3 * secant) : Admissible slope secant :=
  ⟨fun _ => ⟨low, high⟩, fun falling => absurd rising falling.not_gt⟩

/-- The secant itself, and anything up to three times as steep. -/
theorem admissible_mul {factor : K} (low : 0 ≤ factor) (high : factor ≤ 3) :
    Admissible (factor * secant) secant := by
  constructor
  · intro rising
    exact ⟨mul_nonneg low rising, mul_le_mul_of_nonneg_right high rising⟩
  · intro falling
    exact ⟨mul_le_mul_of_nonpos_right high falling,
      mul_nonpos_of_nonneg_of_nonpos low falling⟩

/-- The weighted harmonic mean of two secants. -/
def harmonicMean (firstWeight secondWeight first second : K) : K :=
  (firstWeight + secondWeight) /
    (firstWeight / first + secondWeight / second)

variable {firstWeight secondWeight first second : K}

theorem harmonicMean_denominator_pos (firstPositive : 0 < firstWeight)
    (secondPositive : 0 < secondWeight) (rising : 0 < first)
    (alsoRising : 0 < second) :
    0 < firstWeight / first + secondWeight / second :=
  add_pos (div_pos firstPositive rising) (div_pos secondPositive alsoRising)

omit [LinearOrder K] [IsStrictOrderedRing K] in
theorem harmonicMean_neg :
    harmonicMean firstWeight secondWeight (-first) (-second) =
      -harmonicMean firstWeight secondWeight first second := by
  unfold harmonicMean
  rw [div_neg, div_neg, ← neg_add, div_neg]

/-- The mean is at most three times the first secant once its weight is at
least a third of the total. -/
theorem harmonicMean_admissible (firstPositive : 0 < firstWeight)
    (secondPositive : 0 < secondWeight) (rising : 0 < first)
    (alsoRising : 0 < second)
    (third : firstWeight + secondWeight ≤ 3 * firstWeight) :
    Admissible (harmonicMean firstWeight secondWeight first second)
      first := by
  have denominator := harmonicMean_denominator_pos firstPositive
    secondPositive rising alsoRising
  apply admissible_of_pos rising
  · exact div_nonneg (add_pos firstPositive secondPositive).le denominator.le
  · unfold harmonicMean
    rw [div_le_iff₀ denominator]
    have expanded : 3 * first * (firstWeight / first + secondWeight / second) =
        3 * firstWeight + 3 * first * (secondWeight / second) := by
      field_simp
    have rest : 0 ≤ 3 * first * (secondWeight / second) := by positivity
    linarith

/-- The three-point estimate at the end of a range. -/
def edgeEstimate (width nextWidth secant nextSecant : K) : K :=
  ((2 * width + nextWidth) * secant - width * nextSecant) /
    (width + nextWidth)

variable {width nextWidth nextSecant : K}

omit [LinearOrder K] [IsStrictOrderedRing K] in
theorem edgeEstimate_neg :
    edgeEstimate width nextWidth (-secant) (-nextSecant) =
      -edgeEstimate width nextWidth secant nextSecant := by
  unfold edgeEstimate
  rw [← neg_div]
  ring

/-- Where both secants rise the estimate is at most twice the first. -/
theorem edgeEstimate_le (positive : 0 < width) (nextPositive : 0 < nextWidth)
    (rising : 0 ≤ secant) (alsoRising : 0 ≤ nextSecant) :
    edgeEstimate width nextWidth secant nextSecant ≤ 3 * secant := by
  unfold edgeEstimate
  rw [div_le_iff₀ (add_pos positive nextPositive)]
  have first := mul_nonneg positive.le alsoRising
  have second := mul_nonneg positive.le rising
  have third := mul_nonneg nextPositive.le rising
  linarith

end Slopes

end PyKvCache.Library
