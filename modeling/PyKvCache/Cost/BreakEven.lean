import PyKvCache.Library.Checked
import Mathlib.Data.List.Sort
import Mathlib.Data.Rat.Defs

/-!
# Break-even files

The curves of a break-even file, from the JSON document on.  Opening the file,
decoding JSON and reading an integer out of a key are parameters; numbers are
exact.
-/

namespace PyKvCache.Cost

open PyKvCache.Library

/-- What `json.load` returns; the keys of an object are in its order. -/
inductive Json where
  | null
  | bool (value : Bool)
  | int (value : Int)
  | float (value : ℚ)
  | str (value : String)
  | arr (items : List Json)
  | obj (fields : List (String × Json))

namespace Json

/-- `data.get(key)`; nothing for what is not an object. -/
def get? (key : String) : Json → Option Json
  | .obj fields =>
      (fields.find? fun field => field.1 = key).map Prod.snd
  | _ => none

/-- A number that is not a `bool`, as `float` reads it. -/
def number? : Json → Option ℚ
  | .int value => some value
  | .float value => some value
  | _ => none

/-- An integer that is not a `bool`. -/
def int? : Json → Option Int
  | .int value => some value
  | _ => none

end Json

/-- `Curve`. -/
structure Curve where
  floor : ℚ
  knots : List (Int × ℚ)
  deriving DecidableEq, Repr

/-- `GoldenPoint`. -/
structure GoldenPoint where
  tokens : Int
  f : ℚ
  gSsd : ℚ
  gMem : ℚ
  deriving DecidableEq, Repr

/-- `CurveData`. -/
structure CurveData where
  f : Curve
  gSsd : Curve
  gMem : Curve
  golden : List GoldenPoint
  kvBytesPerToken : Option Int
  deriving DecidableEq, Repr

/-- `_CURVE_NAMES`. -/
inductive CurveName where
  | f
  | gSsd
  | gMem
  deriving DecidableEq, Repr

namespace CurveName

def all : List CurveName :=
  [.f, .gSsd, .gMem]

def text : CurveName → String
  | .f => "f"
  | .gSsd => "g_ssd"
  | .gMem => "g_mem"

end CurveName

/-- `getattr(curves, name)`. -/
def CurveData.curve (curves : CurveData) : CurveName → Curve
  | .f => curves.f
  | .gSsd => curves.gSsd
  | .gMem => curves.gMem

/-- `getattr(point, name)`. -/
def GoldenPoint.value (point : GoldenPoint) : CurveName → ℚ
  | .f => point.f
  | .gSsd => point.gSsd
  | .gMem => point.gMem

/-! ## Curves -/

/-- What `_parse_curve` rejects. -/
inductive CurveFault where
  | notObject
  | floor
  | knots
  | keyNotInteger (key : String)
  | keyNegative (key : String)
  | value (key : String)
  | duplicate
  | tooFew
  deriving DecidableEq, Repr

/-- The text of the `ValueError`; `repr` is the one of strings. -/
def CurveFault.message (repr : String → String) (path name : String)
    (fault : CurveFault) : String :=
  let curve := "break-even file " ++ repr path ++ ": curve " ++ repr name
  match fault with
  | .notObject => curve ++ " must be a JSON object"
  | .floor => curve ++ " floor must be numeric"
  | .knots => curve ++ " knots must be a non-empty object"
  | .keyNotInteger key =>
      curve ++ " knot key " ++ repr key ++ " is not an integer"
  | .keyNegative key =>
      curve ++ " knot key " ++ repr key ++ " must be non-negative"
  | .value key => curve ++ " knot " ++ repr key ++ " value must be numeric"
  | .duplicate => curve ++ " has duplicate/non-monotonic knot token counts"
  | .tooFew => curve ++ " needs at least two knots"

section Parser

-- `int(key)`; nothing where it raises
variable (int : String → Option Int)

/-- One entry of the `knots` object. -/
def parseKnot (entry : String × Json) : Except CurveFault (Int × ℚ) :=
  match int entry.1 with
  | none => throw (.keyNotInteger entry.1)
  | some token =>
      if token < 0 then
        throw (.keyNegative entry.1)
      else
        match entry.2.number? with
        | none => throw (.value entry.1)
        | some value => pure (token, value)

/-- `_parse_curve`. -/
def parseCurve (raw : Json) : Except CurveFault Curve :=
  match raw with
  | .obj _ =>
      match (raw.get? "floor").bind Json.number? with
      | none => throw .floor
      | some floor =>
          match raw.get? "knots" with
          | some (.obj (entry :: entries)) => do
              let knots ← (entry :: entries).mapM (parseKnot int)
              let parsed := knots.insertionSort fun a b => a.1 ≤ b.1
              if ¬ (parsed.map Prod.fst).Nodup then
                throw .duplicate
              -- a single knot at token 0 gets no anchor
              else if parsed.length < 2 ∧ parsed.head?.map Prod.fst = some 0
              then
                throw .tooFew
              else
                pure ⟨floor, parsed⟩
          | _ => throw .knots
  | _ => throw .notObject

/-! ## Files -/

/-- What `open` and `json.load` raise. -/
inductive ReadFault where
  | osError (text : String)
  | jsonDecodeError (text : String)
  deriving DecidableEq, Repr

/-- What `load_curves` rejects. -/
inductive LoadFault where
  | unreadable (fault : ReadFault)
  | notObject
  | otherModel (found : Json)
  | curvesNotObject
  | curveNames (found : List String)
  | curve (name : CurveName) (fault : CurveFault)
  | goldenNotList
  | goldenNotObject (index : Nat)
  | goldenTokens (index : Nat)
  | goldenValue (index : Nat) (name : CurveName)
  | kvBytesPerToken

/-- `_parse_golden_point`. -/
def parseGoldenPoint (raw : Json) (index : Nat) :
    Except LoadFault GoldenPoint :=
  match raw with
  | .obj _ =>
      match (raw.get? "tokens").bind Json.int? with
      | none => throw (.goldenTokens index)
      | some tokens => do
          let value (name : CurveName) : Except LoadFault ℚ :=
            match (raw.get? name.text).bind Json.number? with
            | none => throw (.goldenValue index name)
            | some value => pure value
          pure ⟨tokens, ← value .f, ← value .gSsd, ← value .gMem⟩
  | _ => throw (.goldenNotObject index)

/-- `_read_and_validate`; another `kv_dtype` is only logged. -/
def readAndValidate (load : String → Except ReadFault Json)
    (path modelName : String) : Except LoadFault Json :=
  match load path with
  | .error fault => throw (.unreadable fault)
  | .ok (.obj fields) =>
      match (Json.obj fields).get? "model_name" with
      | none => pure (.obj fields)
      | some .null => pure (.obj fields)
      | some (.str name) =>
          if name ≠ modelName then
            throw (.otherModel (.str name))
          else
            pure (.obj fields)
      | some other => throw (.otherModel other)
  | .ok _ => throw .notObject

/-- One curve of the `curves` object. -/
def loadCurve (curvesRaw : Json) (name : CurveName) :
    Except LoadFault Curve :=
  match parseCurve int ((curvesRaw.get? name.text).getD .null) with
  | .error fault => throw (.curve name fault)
  | .ok curve => pure curve

/-- The `golden` list; a missing one is empty. -/
def loadGolden (data : Json) : Except LoadFault (List GoldenPoint) :=
  match data.get? "golden" with
  | none => pure []
  | some .null => pure []
  | some (.arr entries) =>
      entries.zipIdx.mapM fun entry => parseGoldenPoint entry.1 entry.2
  | some _ => throw .goldenNotList

/-- `kv_bytes_per_token`. -/
def loadKvBytes (data : Json) : Except LoadFault (Option Int) :=
  match data.get? "kv_bytes_per_token" with
  | none => pure none
  | some .null => pure none
  | some (.int bytes) =>
      if bytes ≤ 0 then throw .kvBytesPerToken else pure (some bytes)
  | some _ => throw .kvBytesPerToken

/-- `load_curves`. -/
def loadCurves (load : String → Except ReadFault Json)
    (path : Option String) (modelName : String) :
    Except LoadFault (Option CurveData) :=
  match path with
  | none => pure none
  | some "" => pure none
  | some path => do
      let data ← readAndValidate load path modelName
      match data.get? "curves" with
      | none => pure none
      | some .null => pure none
      | some (.obj fields) =>
          let names := fields.map Prod.fst
          if ¬ ((∀ name ∈ names, name ∈ CurveName.all.map CurveName.text) ∧
              ∀ name ∈ CurveName.all, name.text ∈ names) then
            throw (.curveNames names)
          else do
            let f ← loadCurve int (.obj fields) .f
            let gSsd ← loadCurve int (.obj fields) .gSsd
            let gMem ← loadCurve int (.obj fields) .gMem
            let golden ← loadGolden data
            pure (some ⟨f, gSsd, gMem, golden, ← loadKvBytes data⟩)
      | some _ => throw .curvesNotObject

end Parser

/-! ## Accepted curves -/

/-- What `_parse_curve` promises of the curves it returns. -/
structure Curve.Accepted (curve : Curve) : Prop where
  nonempty : curve.knots ≠ []
  nonnegative : ∀ knot ∈ curve.knots, 0 ≤ knot.1
  increasing : (curve.knots.map Prod.fst).Pairwise (· < ·)
  anchored : curve.knots.length < 2 → ∀ knot ∈ curve.knots, knot.1 ≠ 0

section Accepted

variable {int : String → Option Int}

theorem parseKnot_nonnegative {entry : String × Json} {knot : Int × ℚ}
    (parsed : parseKnot int entry = .ok knot) : 0 ≤ knot.1 := by
  unfold parseKnot at parsed
  split at parsed
  · cases parsed
  split at parsed
  · cases parsed
  next nonnegative =>
    split at parsed
    · cases parsed
    · cases parsed
      exact not_lt.mp nonnegative

private theorem knots_nonnegative {entries : List (String × Json)}
    {knots : List (Int × ℚ)}
    (parsed : entries.mapM (parseKnot int) = .ok knots) :
    ∀ knot ∈ knots, 0 ≤ knot.1 := by
  have each := mapM_eq_ok_iff.mp parsed
  induction each with
  | nil =>
      intro knot member
      cases member
  | cons head tail inductionHypothesis =>
      intro knot member
      rcases List.mem_cons.mp member with rfl | later
      · exact parseKnot_nonnegative head
      · exact inductionHypothesis (mapM_eq_ok_iff.mpr tail) knot later

private theorem sorted_pairwise {knots : List (Int × ℚ)}
    (distinct : ((knots.insertionSort fun a b => a.1 ≤ b.1).map
      Prod.fst).Nodup) :
    ((knots.insertionSort fun a b => a.1 ≤ b.1).map Prod.fst).Pairwise
      (· < ·) := by
  have sorted := List.pairwise_insertionSort
    (fun a b : Int × ℚ => a.1 ≤ b.1) knots
  have ordered := List.pairwise_map.mpr sorted
  exact (ordered.and distinct).imp fun both => lt_of_le_of_ne both.1 both.2

private theorem accepted_of_sorted {floor : ℚ} {knots : List (Int × ℚ)}
    (nonempty : knots ≠ []) (nonnegative : ∀ knot ∈ knots, 0 ≤ knot.1)
    (increasing : (knots.map Prod.fst).Pairwise (· < ·))
    (enough : ¬ (knots.length < 2 ∧ knots.head?.map Prod.fst = some 0)) :
    Curve.Accepted ⟨floor, knots⟩ := by
  refine ⟨nonempty, nonnegative, increasing, ?_⟩
  intro single knot member zero
  apply enough
  match knots, nonempty with
  | [only], _ =>
      rw [List.mem_singleton] at member
      subst member
      exact ⟨single, congrArg some zero⟩
  | first :: second :: rest, _ =>
      simp only [List.length_cons] at single
      omega

/-- An accepted curve has all that the interpolant asks for. -/
theorem parseCurve_accepted {raw : Json} {curve : Curve}
    (parsed : parseCurve int raw = .ok curve) : curve.Accepted := by
  unfold parseCurve at parsed
  split at parsed
  next fields =>
    split at parsed
    next => cases parsed
    next floor _ =>
      split at parsed
      next entry entries _ =>
        cases read : (entry :: entries).mapM (parseKnot int) with
        | error fault =>
            rw [read] at parsed
            cases parsed
        | ok knots =>
            have size := (mapM_eq_ok_iff.mp read).length_eq
            have nonnegative := knots_nonnegative read
            rw [read] at parsed
            simp only [bind, Except.bind] at parsed
            split at parsed
            next => cases parsed
            next distinct =>
              split at parsed
              next => cases parsed
              next enough =>
                cases parsed
                have same := List.perm_insertionSort
                  (fun a b : Int × ℚ => a.1 ≤ b.1) knots
                apply accepted_of_sorted
                · intro none
                  have filled := same.length_eq
                  rw [none, List.length_nil] at filled
                  rw [List.length_cons] at size
                  omega
                · intro knot member
                  exact nonnegative knot (same.mem_iff.mp member)
                · exact sorted_pairwise (not_not.mp distinct)
                · exact enough
      next => cases parsed
  next => cases parsed

private theorem loadCurve_accepted {curvesRaw : Json} {name : CurveName}
    {curve : Curve} (loaded : loadCurve int curvesRaw name = .ok curve) :
    curve.Accepted := by
  unfold loadCurve at loaded
  split at loaded
  next => cases loaded
  next parsed =>
    cases loaded
    exact parseCurve_accepted parsed

/-- Every curve of a file that loads is accepted. -/
theorem loadCurves_accepted {load : String → Except ReadFault Json}
    {path : Option String} {modelName : String} {curves : CurveData}
    (loaded : loadCurves int load path modelName = .ok (some curves))
    (name : CurveName) : (curves.curve name).Accepted := by
  unfold loadCurves at loaded
  split at loaded
  next => cases loaded
  next => cases loaded
  next path _ =>
    obtain ⟨data, _, loaded⟩ := bind_eq_ok_iff.mp loaded
    split at loaded
    next => cases loaded
    next => cases loaded
    next fields _ =>
      simp only at loaded
      split at loaded
      next => cases loaded
      next =>
        obtain ⟨f, fLoaded, loaded⟩ := bind_eq_ok_iff.mp loaded
        obtain ⟨gSsd, gSsdLoaded, loaded⟩ := bind_eq_ok_iff.mp loaded
        obtain ⟨gMem, gMemLoaded, loaded⟩ := bind_eq_ok_iff.mp loaded
        obtain ⟨golden, _, loaded⟩ := bind_eq_ok_iff.mp loaded
        obtain ⟨kvBytes, _, loaded⟩ := bind_eq_ok_iff.mp loaded
        cases loaded
        cases name with
        | f => exact loadCurve_accepted fLoaded
        | gSsd => exact loadCurve_accepted gSsdLoaded
        | gMem => exact loadCurve_accepted gMemLoaded
    next => cases loaded

/-- The bytes of a token are positive. -/
theorem loadCurves_kvBytes {load : String → Except ReadFault Json}
    {path : Option String} {modelName : String} {curves : CurveData}
    {bytes : Int}
    (loaded : loadCurves int load path modelName = .ok (some curves))
    (given : curves.kvBytesPerToken = some bytes) : 0 < bytes := by
  unfold loadCurves at loaded
  split at loaded
  next => cases loaded
  next => cases loaded
  next path _ =>
    obtain ⟨data, _, loaded⟩ := bind_eq_ok_iff.mp loaded
    split at loaded
    next => cases loaded
    next => cases loaded
    next fields _ =>
      simp only at loaded
      split at loaded
      next => cases loaded
      next =>
        obtain ⟨f, _, loaded⟩ := bind_eq_ok_iff.mp loaded
        obtain ⟨gSsd, _, loaded⟩ := bind_eq_ok_iff.mp loaded
        obtain ⟨gMem, _, loaded⟩ := bind_eq_ok_iff.mp loaded
        obtain ⟨golden, _, loaded⟩ := bind_eq_ok_iff.mp loaded
        obtain ⟨kvBytes, read, loaded⟩ := bind_eq_ok_iff.mp loaded
        cases loaded
        simp only at given
        subst given
        unfold loadKvBytes at read
        split at read
        next => cases read
        next => cases read
        next number _ =>
          split at read
          next => cases read
          next positive =>
            cases read
            omega
        next => cases read
    next => cases loaded

end Accepted

end PyKvCache.Cost
