import PyKvCache.Cost.BreakEven
import PyKvCache.Cost.Interpolant
import Mathlib.Data.Int.ConditionallyCompleteOrder

/-!
# Cost tables

The tables the planner reads, baked from the curves of a break-even file over
exact arithmetic.  A table has an entry for every block count up to
`max_blocks`, and every lookup is clamped into it.
-/

namespace PyKvCache.Cost

open PyKvCache.Library

/-! ## The source -/

/-- `CostTables`. -/
structure CostTables where
  blockTokens : Int
  maxBlocks : Nat
  fS : Vector ℚ (maxBlocks + 1)
  gSsdS : Vector ℚ (maxBlocks + 1)
  gMemS : Vector ℚ (maxBlocks + 1)
  serviceS : Vector ℚ (maxBlocks + 1)
  positive : 0 < blockTokens

namespace CostTables

/-- `_clamp`. -/
def clamp (tables : CostTables) (nblocks : Int) :
    Fin (tables.maxBlocks + 1) :=
  if nblocks < 0 then
    0
  else if large : (tables.maxBlocks : Int) < nblocks then
    Fin.last _
  else
    ⟨nblocks.toNat, by omega⟩

/-- `recompute_s`. -/
def recomputeS (tables : CostTables) (nblocks : Int) : ℚ :=
  tables.fS[tables.clamp nblocks]

/-- `load_ssd_s`. -/
def loadSsdS (tables : CostTables) (nblocks : Int) : ℚ :=
  tables.gSsdS[tables.clamp nblocks]

/-- `load_mem_s`. -/
def loadMemS (tables : CostTables) (nblocks : Int) : ℚ :=
  tables.gMemS[tables.clamp nblocks]

/-- `service_s_of`. -/
def serviceSOf (tables : CostTables) (nblocks : Int) : ℚ :=
  tables.serviceS[tables.clamp nblocks]

/-- No cost is negative. -/
structure Nonnegative (tables : CostTables) : Prop where
  recompute : ∀ nblocks, 0 ≤ tables.recomputeS nblocks
  loadSsd : ∀ nblocks, 0 ≤ tables.loadSsdS nblocks
  loadMem : ∀ nblocks, 0 ≤ tables.loadMemS nblocks
  service : ∀ nblocks, 0 ≤ tables.serviceSOf nblocks

end CostTables

/-- `_build_interpolator`. -/
def buildInterpolator (curve : Curve) : Except PyError Pchip :=
  Pchip.init (curve.knots.map fun knot => (knot.1 : ℚ))
    (curve.knots.map Prod.snd) curve.floor

/-- `_golden_ok`. -/
def goldenOk (expected produced : ℚ) : Except PyError Bool := do
  let diff := |expected - produced|
  if diff ≤ 1 / 1000000 then
    pure true
  else if expected = 0 then
    pure false
  else
    pure (decide ((← divide diff |expected|) ≤ 1 / 1000))

/-- What `build_cost_tables` raises; `raised` is an error from below. -/
inductive BuildError where
  | blockTokens (given : Int)
  | maxModelLen (given : Int)
  | golden (name : CurveName) (tokens : Int) (expected produced : ℚ)
  | raised (error : PyError)
  deriving DecidableEq, Repr

/-- The text of the `ValueError` of a check of `build_cost_tables`; `repr` is
the one of strings, `number` the one of numbers. -/
def BuildError.message (repr : String → String) (number : ℚ → String) :
    BuildError → Option String
  | .blockTokens given =>
      some ("block_tokens must be positive, got " ++ toString given)
  | .maxModelLen given =>
      some ("max_model_len must be non-negative, got " ++ toString given)
  | .golden name tokens expected produced =>
      some ("cost model golden self-check failed for curve " ++
        repr name.text ++ " at " ++ toString tokens ++ " tokens: expected " ++
        number expected ++ ", produced " ++ number produced)
  | .raised _ => none

/-- A computation that knows nothing of the checks. -/
def liftError {result : Type} (computed : Except PyError result) :
    Except BuildError result :=
  computed.mapError .raised

@[simp]
theorem liftError_ok {result : Type} {value : result} :
    liftError (.ok value) = .ok value :=
  rfl

theorem liftError_eq_ok_iff {result : Type}
    {computed : Except PyError result} {value : result} :
    liftError computed = .ok value ↔ computed = .ok value := by
  cases computed with
  | error raised => simp [liftError, Except.mapError]
  | ok other => simp

/-- One golden value of the self-check. -/
def checkGolden (interpolators : CurveName → Pchip)
    (entry : GoldenPoint × CurveName) : Except BuildError Unit := do
  let expected := entry.1.value entry.2
  let produced ← liftError ((interpolators entry.2).call entry.1.tokens)
  if ← liftError (goldenOk expected produced) then
    pure ()
  else
    throw (.golden entry.2 entry.1.tokens expected produced)

/-- `curve.knots[-1][0]` of every curve, for the warning about
extrapolation. -/
def lastKnot (curves : CurveData) : Except PyError Int := do
  let f ← getItem curves.f.knots (-1)
  let gSsd ← getItem curves.gSsd.knots (-1)
  let gMem ← getItem curves.gMem.knots (-1)
  pure (min (min f.1 gSsd.1) gMem.1)

/-- The entries of the four tables for one block count. -/
structure Costs where
  f : ℚ
  gSsd : ℚ
  gMem : ℚ
  service : ℚ

/-- One round of the loop of `build_cost_tables`. -/
def costsAt (interpolators : CurveName → Pchip) (tok : Int) :
    Except PyError Costs := do
  let f ← (interpolators .f).call tok
  let ssd ← (interpolators .gSsd).call tok
  let mem ← (interpolators .gMem).call tok
  pure ⟨max 0 f, max 0 ssd, max 0 mem, max 0 (max 0 ssd - max 0 mem)⟩

/-- `build_cost_tables`. -/
def buildCostTables (curves : CurveData) (blockTokens maxModelLen : Int) :
    Except BuildError CostTables :=
  if positive : 0 < blockTokens then
    if maxModelLen < 0 then
      throw (.maxModelLen maxModelLen)
    else do
      let f ← liftError (buildInterpolator curves.f)
      let gSsd ← liftError (buildInterpolator curves.gSsd)
      let gMem ← liftError (buildInterpolator curves.gMem)
      let interpolators : CurveName → Pchip
        | .f => f
        | .gSsd => gSsd
        | .gMem => gMem
      forM (curves.golden.product CurveName.all)
        (checkGolden interpolators)
      -- only logged
      let _ ← liftError (lastKnot curves)
      let maxBlocks := (maxModelLen / blockTokens).toNat
      let rows ← Vector.ofFnM fun n : Fin (maxBlocks + 1) =>
        liftError (costsAt interpolators (n * blockTokens))
      pure ⟨blockTokens, maxBlocks, rows.map Costs.f, rows.map Costs.gSsd,
        rows.map Costs.gMem, rows.map Costs.service, positive⟩
  else
    throw (.blockTokens blockTokens)

/-! ## What the tables are baked from -/

/-- The points the interpolant of a curve runs through. -/
def Curve.points (curve : Curve) : List (ℚ × ℚ) :=
  anchored (curve.knots.map fun knot => ((knot.1 : ℚ), knot.2)) curve.floor

/-- No value is below the one before, the floor included. -/
def Curve.Rising (curve : Curve) : Prop :=
  (curve.points.map Prod.snd).Pairwise (· ≤ ·)

theorem buildInterpolator_eq_ok_iff {curve : Curve} {pchip : Pchip} :
    buildInterpolator curve = .ok pchip ↔
      ∃ knots : Knots, knots.xs = curve.points.map Prod.fst ∧
        knots.ys = curve.points.map Prod.snd ∧ pchip = knots.pchip := by
  unfold Curve.points
  rw [← init_eq_ok_iff, List.map_map, List.map_map]
  rfl

/-- The interpolants the tables are baked from. -/
structure Baked (curves : CurveData) where
  knots : CurveName → Knots
  places : ∀ name,
    (knots name).xs = (curves.curve name).points.map Prod.fst
  values : ∀ name,
    (knots name).ys = (curves.curve name).points.map Prod.snd

namespace Baked

variable {curves : CurveData} (baked : Baked curves)

/-- The entry of a table for a curve. -/
def cost (name : CurveName) (blockTokens : Int) (n : Nat) : ℚ :=
  max 0 ((baked.knots name).value ((n * blockTokens : Int) : ℚ))

/-- The tables of the interpolants. -/
def tables {blockTokens : Int} (positive : 0 < blockTokens)
    (maxBlocks : Nat) : CostTables where
  blockTokens := blockTokens
  maxBlocks := maxBlocks
  fS := Vector.ofFn fun n => baked.cost .f blockTokens n
  gSsdS := Vector.ofFn fun n => baked.cost .gSsd blockTokens n
  gMemS := Vector.ofFn fun n => baked.cost .gMem blockTokens n
  serviceS := Vector.ofFn fun n =>
    max 0 (baked.cost .gSsd blockTokens n - baked.cost .gMem blockTokens n)
  positive := positive

theorem buildInterpolator_eq (name : CurveName) :
    buildInterpolator (curves.curve name) =
      .ok (baked.knots name).pchip :=
  buildInterpolator_eq_ok_iff.mpr
    ⟨_, baked.places name, baked.values name, rfl⟩

include baked in
private theorem knots_ne_nil (name : CurveName) :
    (curves.curve name).knots ≠ [] := by
  intro none
  have two := (baked.knots name).two
  rw [baked.places name, Curve.points, none] at two
  cases two

/-- A round of the loop never fails. -/
theorem costsAt_eq (blockTokens : Int) (n : Nat) :
    costsAt (fun name => (baked.knots name).pchip) (n * blockTokens) =
      .ok ⟨baked.cost .f blockTokens n, baked.cost .gSsd blockTokens n,
        baked.cost .gMem blockTokens n,
        max 0 (baked.cost .gSsd blockTokens n -
          baked.cost .gMem blockTokens n)⟩ := by
  unfold costsAt
  rw [Knots.call_eq, Knots.call_eq, Knots.call_eq]
  rfl

include baked in
/-- The last knot is always there to be logged. -/
theorem lastKnot_eq : ∃ token, lastKnot curves = .ok token := by
  have found : ∀ name, ∃ knot,
      getItem (curves.curve name).knots (-1) = .ok knot := by
    intro name
    have some : 0 < (curves.curve name).knots.length :=
      List.length_pos_iff.mpr (baked.knots_ne_nil name)
    exact ⟨_, @getItem_fromEnd _ _ (0, 0) 1 Nat.one_pos some⟩
  obtain ⟨f, fFound⟩ := found .f
  obtain ⟨gSsd, gSsdFound⟩ := found .gSsd
  obtain ⟨gMem, gMemFound⟩ := found .gMem
  refine ⟨min (min f.1 gSsd.1) gMem.1, ?_⟩
  change getItem curves.f.knots (-1) = _ at fFound
  change getItem curves.gSsd.knots (-1) = _ at gSsdFound
  change getItem curves.gMem.knots (-1) = _ at gMemFound
  rw [lastKnot, fFound, gSsdFound, gMemFound]
  rfl

/-- The checks are all that stands between the interpolants and the
tables. -/
theorem buildCostTables_eq {blockTokens maxModelLen : Int}
    (positive : 0 < blockTokens) (nonnegative : ¬ maxModelLen < 0) :
    buildCostTables curves blockTokens maxModelLen =
      forM (curves.golden.product CurveName.all)
          (checkGolden fun name => (baked.knots name).pchip) >>= fun _ =>
        pure (baked.tables positive (maxModelLen / blockTokens).toNat) := by
  have interpolant := baked.buildInterpolator_eq
  have f : buildInterpolator curves.f = _ := interpolant .f
  have gSsd : buildInterpolator curves.gSsd = _ := interpolant .gSsd
  have gMem : buildInterpolator curves.gMem = _ := interpolant .gMem
  obtain ⟨token, logged⟩ := baked.lastKnot_eq
  have chosen : (fun name : CurveName =>
      match name with
      | .f => (baked.knots .f).pchip
      | .gSsd => (baked.knots .gSsd).pchip
      | .gMem => (baked.knots .gMem).pchip) =
      fun name => (baked.knots name).pchip := by
    funext name
    cases name <;> rfl
  have rows := fun n : Fin ((maxModelLen / blockTokens).toNat + 1) =>
    congrArg liftError (baked.costsAt_eq blockTokens n)
  rw [buildCostTables, dif_pos positive, if_neg nonnegative, f, gSsd, gMem,
    logged]
  simp only [liftError_ok, bind, Except.bind, chosen, ofFnM_eq_ok rows,
    Vector.map_ofFn]
  rfl

end Baked

theorem exists_baked {curves : CurveData}
    (built : ∀ name, ∃ pchip,
      buildInterpolator (curves.curve name) = .ok pchip) :
    Nonempty (Baked curves) := by
  have each : ∀ name, ∃ knots : Knots,
      knots.xs = (curves.curve name).points.map Prod.fst ∧
        knots.ys = (curves.curve name).points.map Prod.snd := by
    intro name
    obtain ⟨pchip, made⟩ := built name
    obtain ⟨knots, places, values, _⟩ := buildInterpolator_eq_ok_iff.mp made
    exact ⟨knots, places, values⟩
  choose knots places values using each
  exact ⟨knots, places, values⟩

/-- Tables are only baked from interpolants. -/
theorem buildCostTables_baked {curves : CurveData}
    {blockTokens maxModelLen : Int} {tables : CostTables}
    (built : buildCostTables curves blockTokens maxModelLen = .ok tables) :
    ∃ (baked : Baked curves) (positive : 0 < blockTokens) (maxBlocks : Nat),
      tables = baked.tables positive maxBlocks := by
  by_cases positive : 0 < blockTokens
  · by_cases negative : maxModelLen < 0
    · rw [buildCostTables, dif_pos positive, if_pos negative] at built
      cases built
    have baked : Nonempty (Baked curves) := by
      rw [buildCostTables, dif_pos positive, if_neg negative] at built
      obtain ⟨first, f, built⟩ := bind_eq_ok_iff.mp built
      obtain ⟨second, gSsd, built⟩ := bind_eq_ok_iff.mp built
      obtain ⟨third, gMem, _⟩ := bind_eq_ok_iff.mp built
      apply exists_baked
      intro name
      cases name with
      | f => exact ⟨first, liftError_eq_ok_iff.mp f⟩
      | gSsd => exact ⟨second, liftError_eq_ok_iff.mp gSsd⟩
      | gMem => exact ⟨third, liftError_eq_ok_iff.mp gMem⟩
    obtain ⟨baked⟩ := baked
    rw [baked.buildCostTables_eq positive negative] at built
    obtain ⟨_, _, made⟩ := bind_eq_ok_iff.mp built
    cases made
    exact ⟨baked, positive, _, rfl⟩
  · rw [buildCostTables, dif_neg positive] at built
    cases built

/-! ## A sample file -/

/-- The keys of the sample file as integers. -/
def sampleKey (key : String) : Option Int :=
  if key = "16" then some 16 else if key = "64" then some 64 else none

def sampleCurve (low high : Int) : Json :=
  .obj [("floor", .int 0),
    ("knots", .obj [("64", .int high), ("16", .int low)])]

/-- A file whose golden point is off for `g_mem`. -/
def sampleFile : Json :=
  .obj [("model_name", .str "tiny"),
    ("curves", .obj [("f", sampleCurve 1 9), ("g_ssd", sampleCurve 2 3),
      ("g_mem", sampleCurve 1 1)]),
    ("golden", .arr [.obj [("tokens", .int 16), ("f", .int 1),
      ("g_ssd", .int 2), ("g_mem", .int 2)]])]

/-- The curves of the sample file. -/
def sampleCurves (golden : List GoldenPoint) : CurveData where
  f := ⟨0, [(16, 1), (64, 9)]⟩
  gSsd := ⟨0, [(16, 2), (64, 3)]⟩
  gMem := ⟨0, [(16, 1), (64, 1)]⟩
  golden := golden
  kvBytesPerToken := none

/-! ## Rising curves make rising tables -/

theorem CostTables.clamp_monotone (tables : CostTables) :
    Monotone fun nblocks => (tables.clamp nblocks : Nat) := by
  intro fewer more ordered
  change fewer ≤ more at ordered
  simp only [CostTables.clamp]
  split_ifs <;> simp <;> omega

section Lookups

variable {curves : CurveData} (baked : Baked curves) {blockTokens : Int}
  (positive : 0 < blockTokens) (maxBlocks : Nat) (nblocks : Int)

theorem Baked.recomputeS_eq :
    (baked.tables positive maxBlocks).recomputeS nblocks =
      baked.cost .f blockTokens
        ((baked.tables positive maxBlocks).clamp nblocks) :=
  Vector.getElem_ofFn _

theorem Baked.loadSsdS_eq :
    (baked.tables positive maxBlocks).loadSsdS nblocks =
      baked.cost .gSsd blockTokens
        ((baked.tables positive maxBlocks).clamp nblocks) :=
  Vector.getElem_ofFn _

theorem Baked.loadMemS_eq :
    (baked.tables positive maxBlocks).loadMemS nblocks =
      baked.cost .gMem blockTokens
        ((baked.tables positive maxBlocks).clamp nblocks) :=
  Vector.getElem_ofFn _

theorem Baked.serviceSOf_eq :
    (baked.tables positive maxBlocks).serviceSOf nblocks =
      max 0 (baked.cost .gSsd blockTokens
          ((baked.tables positive maxBlocks).clamp nblocks) -
        baked.cost .gMem blockTokens
          ((baked.tables positive maxBlocks).clamp nblocks)) :=
  Vector.getElem_ofFn _

/-- Baked tables hold no negative cost. -/
theorem Baked.nonnegative :
    (baked.tables positive maxBlocks).Nonnegative := by
  constructor
  · intro nblocks
    rw [baked.recomputeS_eq]
    exact le_max_left _ _
  · intro nblocks
    rw [baked.loadSsdS_eq]
    exact le_max_left _ _
  · intro nblocks
    rw [baked.loadMemS_eq]
    exact le_max_left _ _
  · intro nblocks
    rw [baked.serviceSOf_eq]
    exact le_max_left _ _

end Lookups

theorem Baked.cost_monotone {curves : CurveData} (baked : Baked curves)
    {name : CurveName} (rising : (curves.curve name).Rising)
    {blockTokens : Int} (positive : 0 < blockTokens) :
    Monotone (baked.cost name blockTokens) := by
  intro fewer more ordered
  have places := baked.places name
  have values := baked.values name
  have start : (baked.knots name).x 0 ≤
      ((fewer * blockTokens : Int) : ℚ) := by
    have two := (baked.knots name).two
    rw [places, List.length_map] at two
    rw [Knots.x_eq places (Nat.zero_lt_two.trans_le two)]
    have first : (curves.curve name).points[0].1 = 0 := anchored_start _
    rw [first]
    exact Int.cast_nonneg
      (Int.mul_nonneg (Int.natCast_nonneg fewer) positive.le)
  have further : ((fewer * blockTokens : Int) : ℚ) ≤
      ((more * blockTokens : Int) : ℚ) := by
    have scaled := Int.mul_le_mul_of_nonneg_right
      (Int.ofNat_le.mpr ordered) positive.le
    exact Int.cast_le.mpr scaled
  apply max_le_max_left
  apply Knots.value_le_value _ start further
  intro i inside
  have count := Knots.count_eq places
  rw [Knots.y_eq values (by omega), Knots.y_eq values (by omega)]
  have pairwise := List.pairwise_map.mp rising
  exact List.pairwise_iff_getElem.mp pairwise _ _ _ _ (Nat.lt_succ_self i)

/-- A list of points the constructor accepts keeps its shape, and curves that
never fall make tables that never fall. -/
theorem costs_keep_shape :
    (∀ (points : List (ℚ × ℚ)) (floor : ℚ),
      (∃ pchip, Pchip.init (points.map Prod.fst) (points.map Prod.snd) floor =
          .ok pchip) ↔
        2 ≤ (anchored points floor).length ∧
          ((anchored points floor).map Prod.fst).Pairwise (· < ·)) ∧
    (∀ (points : List (ℚ × ℚ)) (floor : ℚ) (pchip : Pchip),
      Pchip.init (points.map Prod.fst) (points.map Prod.snd) floor =
          .ok pchip →
        ∃ value : ℚ → ℚ, (∀ x, pchip.call x = .ok (value x)) ∧
          KeepsShape (anchored points floor) value) ∧
    ∀ (curves : CurveData) (blockTokens maxModelLen : Int)
      (tables : CostTables),
      buildCostTables curves blockTokens maxModelLen = .ok tables →
        (curves.f.Rising → Monotone tables.recomputeS) ∧
          (curves.gSsd.Rising → Monotone tables.loadSsdS) ∧
          (curves.gMem.Rising → Monotone tables.loadMemS) := by
  refine ⟨?_, ?_, ?_⟩
  · intro points floor
    constructor
    · rintro ⟨pchip, built⟩
      obtain ⟨knots, places, _, _⟩ := init_eq_ok_iff.mp built
      have two := knots.two
      have increasing := knots.increasing
      rw [places] at two increasing
      rw [List.length_map] at two
      exact ⟨two, increasing⟩
    · rintro ⟨two, increasing⟩
      exact ⟨_, init_eq_ok_iff.mpr
        ⟨⟨_, (anchored points floor).map Prod.snd, by simpa using two,
          by simp, increasing⟩, rfl, rfl, rfl⟩⟩
  · intro points floor pchip built
    obtain ⟨knots, places, values, rfl⟩ := init_eq_ok_iff.mp built
    exact ⟨knots.value, Knots.call_eq, Knots.keepsShape places values⟩
  · intro curves blockTokens maxModelLen tables built
    obtain ⟨baked, positive, maxBlocks, rfl⟩ := buildCostTables_baked built
    have clamped := (baked.tables positive maxBlocks).clamp_monotone
    refine ⟨?_, ?_, ?_⟩
    · intro rising fewer more ordered
      rw [baked.recomputeS_eq, baked.recomputeS_eq]
      exact @Baked.cost_monotone _ baked .f rising _ positive _ _
        (clamped ordered)
    · intro rising fewer more ordered
      rw [baked.loadSsdS_eq, baked.loadSsdS_eq]
      exact @Baked.cost_monotone _ baked .gSsd rising _ positive _ _
        (clamped ordered)
    · intro rising fewer more ordered
      rw [baked.loadMemS_eq, baked.loadMemS_eq]
      exact @Baked.cost_monotone _ baked .gMem rising _ positive _ _
        (clamped ordered)

/-- A steep and then flat list of points, and the tables of the sample
curves. -/
theorem costs_keep_shape_sample :
    (∃ pchip, Pchip.init [1, 3, 4] [5, 2, 2] 1 = .ok pchip ∧
      ∃ value : ℚ → ℚ, (∀ x, pchip.call x = .ok (value x)) ∧
        KeepsShape [(0, 1), (1, 5), (3, 2), (4, 2)] value) ∧
    ∃ tables, buildCostTables (sampleCurves []) 16 64 = .ok tables ∧
      Monotone tables.recomputeS ∧ Monotone tables.loadSsdS ∧
      Monotone tables.loadMemS := by
  constructor
  · obtain ⟨pchip, built⟩ := (costs_keep_shape.1
      [(1, 5), (3, 2), (4, 2)] 1).mpr (by decide +kernel)
    exact ⟨pchip, built, costs_keep_shape.2.1 _ _ _ built⟩
  · cases built : buildCostTables (sampleCurves []) 16 64 with
    | error raised =>
        have succeeded : (buildCostTables (sampleCurves []) 16 64).toBool =
            true := by decide +kernel
        rw [built] at succeeded
        cases succeeded
    | ok tables =>
        have monotone := costs_keep_shape.2.2 _ _ _ _ built
        exact ⟨tables, rfl,
          monotone.1 (by unfold Curve.Rising; decide +kernel),
          monotone.2.1 (by unfold Curve.Rising; decide +kernel),
          monotone.2.2 (by unfold Curve.Rising; decide +kernel)⟩

/-! ## What can be raised -/

/-- An accepted curve has an interpolant. -/
theorem Curve.Accepted.buildInterpolator_ok {curve : Curve}
    (accepted : curve.Accepted) :
    ∃ knots : Knots, knots.xs = curve.points.map Prod.fst ∧
      buildInterpolator curve = .ok knots.pchip := by
  have increasing : (curve.knots.map fun knot => (knot.1 : ℚ)).Pairwise
      (· < ·) := by
    have whole := List.pairwise_map.mp accepted.increasing
    exact List.pairwise_map.mpr (whole.imp Int.cast_lt.mpr)
  have places : (curve.knots.map fun knot => ((knot.1 : ℚ), knot.2)).map
      Prod.fst = curve.knots.map fun knot => (knot.1 : ℚ) :=
    List.map_map
  have suitable : 2 ≤ (curve.points.map Prod.fst).length ∧
      (curve.points.map Prod.fst).Pairwise (· < ·) := by
    have nonempty := accepted.nonempty
    have nonnegative := accepted.nonnegative
    have anchor := accepted.anchored
    unfold Curve.points
    match knots : curve.knots, nonempty with
    | first :: rest, _ =>
        rw [knots] at increasing nonnegative anchor places
        have start := nonnegative first List.mem_cons_self
        by_cases shifted : first.1 = 0
        · have several : 2 ≤ (first :: rest).length := by
            by_contra single
            exact anchor (not_le.mp single) first List.mem_cons_self shifted
          rw [List.map_cons] at places ⊢
          rw [anchored_of_eq_zero (Int.cast_eq_zero.mpr shifted), places]
          exact ⟨by simpa using several, increasing⟩
        · have ahead : ∀ place ∈ (first :: rest).map
              fun knot => (knot.1 : ℚ), (0 : ℚ) < place := by
            have firstAhead : (0 : ℚ) < first.1 :=
              Int.cast_pos.mpr (lt_of_le_of_ne start (Ne.symm shifted))
            intro place member
            rw [List.map_cons] at member increasing
            rcases List.mem_cons.mp member with rfl | later
            · exact firstAhead
            · exact firstAhead.trans
                ((List.pairwise_cons.mp increasing).1 _ later)
          rw [List.map_cons] at places ⊢
          rw [anchored_of_ne_zero (Int.cast_ne_zero.mpr shifted),
            List.map_cons, places]
          exact ⟨by simp, List.pairwise_cons.mpr ⟨ahead, increasing⟩⟩
  exact ⟨⟨_, curve.points.map Prod.snd, suitable.1, by simp, suitable.2⟩,
    rfl, buildInterpolator_eq_ok_iff.mpr ⟨_, rfl, rfl, rfl⟩⟩

/-- The failures `build_cost_tables` announces: a bad argument, or a golden
value its curve does not reproduce. -/
inductive BuildError.Documented (curves : CurveData)
    (blockTokens maxModelLen : Int) : BuildError → Prop
  | blockTokens (small : blockTokens ≤ 0) :
      Documented curves blockTokens maxModelLen (.blockTokens blockTokens)
  | maxModelLen (positive : 0 < blockTokens) (negative : maxModelLen < 0) :
      Documented curves blockTokens maxModelLen (.maxModelLen maxModelLen)
  | golden (positive : 0 < blockTokens) (nonnegative : 0 ≤ maxModelLen)
      (point : GoldenPoint) (listed : point ∈ curves.golden)
      (name : CurveName) (pchip : Pchip) (produced : ℚ)
      (interpolant :
        buildInterpolator (curves.curve name) = .ok pchip)
      (evaluated : pchip.call point.tokens = .ok produced)
      (off : goldenOk (point.value name) produced = .ok false) :
      Documented curves blockTokens maxModelLen
        (.golden name point.tokens (point.value name) produced)

theorem goldenOk_ok (expected produced : ℚ) :
    ∃ verdict, goldenOk expected produced = .ok verdict := by
  unfold goldenOk
  simp only
  split
  · exact ⟨true, rfl⟩
  split
  · exact ⟨false, rfl⟩
  next nonzero =>
    rw [divide_of_ne (abs_ne_zero.mpr nonzero)]
    exact ⟨_, rfl⟩

private theorem checkGolden_documented {curves : CurveData}
    (baked : Baked curves) {blockTokens maxModelLen : Int}
    (positive : 0 < blockTokens) (nonnegative : 0 ≤ maxModelLen)
    {entry : GoldenPoint × CurveName} (listed : entry.1 ∈ curves.golden)
    {error : BuildError}
    (failed : checkGolden (fun name => (baked.knots name).pchip) entry =
      .error error) :
    error.Documented curves blockTokens maxModelLen := by
  have evaluated := @Knots.call_eq (baked.knots entry.2) entry.1.tokens
  obtain ⟨verdict, compared⟩ := goldenOk_ok (entry.1.value entry.2)
    ((baked.knots entry.2).value entry.1.tokens)
  unfold checkGolden at failed
  simp only at failed
  rw [evaluated, liftError_ok] at failed
  simp only [bind, Except.bind, compared, liftError_ok] at failed
  cases verdict with
  | true => cases failed
  | false =>
      cases failed
      exact .golden positive nonnegative entry.1 listed entry.2 _ _
        (baked.buildInterpolator_eq entry.2) evaluated compared

/-- Where every curve is accepted, the only failures are the announced
ones. -/
theorem buildCostTables_documented {curves : CurveData}
    (accepted : ∀ name, (curves.curve name).Accepted)
    {blockTokens maxModelLen : Int} {error : BuildError}
    (failed :
      buildCostTables curves blockTokens maxModelLen = .error error) :
    error.Documented curves blockTokens maxModelLen := by
  by_cases positive : 0 < blockTokens
  · by_cases negative : maxModelLen < 0
    · rw [buildCostTables, dif_pos positive, if_pos negative] at failed
      cases failed
      exact .maxModelLen positive negative
    · obtain ⟨baked⟩ := @exists_baked curves fun name => by
        obtain ⟨knots, _, built⟩ := (accepted name).buildInterpolator_ok
        exact ⟨_, built⟩
      rw [baked.buildCostTables_eq positive negative] at failed
      cases checked : forM (curves.golden.product CurveName.all)
          (checkGolden fun name => (baked.knots name).pchip) with
      | ok done =>
          rw [checked] at failed
          cases failed
      | error raised =>
          rw [checked] at failed
          cases failed
          obtain ⟨entry, member, found⟩ := exists_of_forM_eq_error checked
          have listed := (List.mem_product.mp member).1
          exact checkGolden_documented baked positive (not_lt.mp negative)
            listed found
  · rw [buildCostTables, dif_neg positive] at failed
    cases failed
    exact .blockTokens (not_lt.mp positive)

/-- What the parser accepts can be evaluated everywhere, and of an accepted
file only the announced checks can fail. -/
theorem accepted_curves_evaluate :
    (∀ (int : String → Option Int) (raw : Json) (curve : Curve),
      parseCurve int raw = .ok curve →
        ∃ pchip, buildInterpolator curve = .ok pchip ∧ pchip.Evaluates) ∧
    ∀ (int : String → Option Int) (load : String → Except ReadFault Json)
      (path : Option String) (modelName : String) (curves : CurveData),
      loadCurves int load path modelName = .ok (some curves) →
        ∀ (blockTokens maxModelLen : Int) (error : BuildError),
          buildCostTables curves blockTokens maxModelLen = .error error →
            error.Documented curves blockTokens maxModelLen := by
  constructor
  · intro int raw curve parsed
    obtain ⟨knots, _, built⟩ :=
      (parseCurve_accepted parsed).buildInterpolator_ok
    exact ⟨_, built, knots.evaluates⟩
  · intro int load path modelName curves loaded blockTokens maxModelLen error
      failed
    exact buildCostTables_documented (loadCurves_accepted loaded) failed

/-- The sample file parses, its curves have interpolants, and its golden point
is what fails. -/
theorem accepted_curves_evaluate_sample :
    (∃ pchip, buildInterpolator ⟨0, [(16, 1), (64, 9)]⟩ = .ok pchip ∧
      pchip.Evaluates) ∧
    BuildError.Documented (sampleCurves [⟨16, 1, 2, 2⟩]) 16 64
      (.golden .gMem 16 2 1) := by
  constructor
  · exact accepted_curves_evaluate.1 sampleKey (sampleCurve 1 9) _ rfl
  · have loaded : loadCurves sampleKey (fun _ => .ok sampleFile)
        (some "curves.json") "tiny" =
        .ok (some (sampleCurves [⟨16, 1, 2, 2⟩])) := rfl
    have failed : (match buildCostTables (sampleCurves [⟨16, 1, 2, 2⟩])
        16 64 with
      | .error raised => some raised
      | .ok _ => none) = some (.golden .gMem 16 2 1) := by decide +kernel
    split at failed
    next raised found =>
      cases failed
      exact accepted_curves_evaluate.2 _ _ _ _ _ loaded _ _ _ found
    next => cases failed

end PyKvCache.Cost
