import Mathlib.Data.Rat.Defs
import PyKvCache.Library.Checked

/-!
# `SharedFileConfig`

`from_extra_config` reads the settings one by one, checks them and fills in
the defaults.  What it accepts is what it should, an accepted configuration
reads itself back, and what it rejects it rejects for a field that it names.
-/

namespace PyKvCache.Setup

open PyKvCache.Library

/-! ## Values -/

/-- A `float`. -/
inductive PyFloat where
  | finite (value : ℚ)
  | infinite (negative : Bool)
  | nan
  deriving DecidableEq

/-- `value <= 0`. -/
def PyFloat.isNonpositive : PyFloat → Bool
  | .finite value => value ≤ 0
  | .infinite negative => negative
  | .nan => false

/-- A value of `kv_connector_extra_config`. -/
inductive ConfigValue where
  | none
  | bool (value : Bool)
  | int (value : Int)
  | float (value : PyFloat)
  | str (value : String)
  | other
  deriving DecidableEq

/-- `extra_config.get`. -/
abbrev ExtraConfig := String → ConfigValue

inductive ConfigError where
  | typeError (message : String)
  | valueError (message : String)
  | overflowError (message : String)
  deriving DecidableEq

def ConfigError.message : ConfigError → String
  | .typeError message => message
  | .valueError message => message
  | .overflowError message => message

/-- The conversions of the language: `int(value, 0)`, and `float(value)` of a
string and of an integer. -/
structure Conversions where
  intOfStr : String → Except ConfigError Int
  floatOfStr : String → Except ConfigError PyFloat
  floatOfInt : Int → Except ConfigError PyFloat

/-! ## Coercions -/

section Coercions

variable (conversions : Conversions) (fieldName : String)

/-- `_coerce_str`. -/
def coerceStr : ConfigValue → Except ConfigError (Option String)
  | .none => pure none
  | .str value => pure (some value)
  | _ => throw (.typeError (fieldName ++ " must be a string when provided"))

/-- `_coerce_int`. -/
def coerceInt : ConfigValue → Except ConfigError (Option Int)
  | .none => pure none
  | .int value => pure (some value)
  | .str value => some <$> conversions.intOfStr value
  | _ => throw (.typeError (fieldName ++ " must be an integer when provided"))

/-- `_coerce_float`. -/
def coerceFloat : ConfigValue → Except ConfigError (Option PyFloat)
  | .none => pure none
  | .int value => some <$> conversions.floatOfInt value
  | .float value => pure (some value)
  | .str value => some <$> conversions.floatOfStr value
  | _ => throw (.typeError (fieldName ++ " must be a number when provided"))

/-- `str.isspace` of one character. -/
def isSpace (c : Char) : Bool :=
  c.toNat ∈ [9, 10, 11, 12, 13, 28, 29, 30, 31, 32, 0x85, 0xa0, 0x1680,
    0x2000, 0x2001, 0x2002, 0x2003, 0x2004, 0x2005, 0x2006, 0x2007, 0x2008,
    0x2009, 0x200a, 0x2028, 0x2029, 0x202f, 0x205f, 0x3000]

/-- `value.strip().lower()`, as far as it is compared with words of ASCII
letters: no other letter has one of theirs as its lower case. -/
def normalized (value : String) : String :=
  let stripped := ((value.toList.dropWhile isSpace).reverse.dropWhile
    isSpace).reverse
  String.ofList (stripped.map Char.toLower)

/-- `_coerce_bool`. -/
def coerceBool : ConfigValue → Except ConfigError (Option Bool)
  | .none => pure none
  | .bool value => pure (some value)
  | .int value => pure (some (value ≠ 0))
  | .str value =>
      if normalized value ∈ ["1", "true", "yes", "on"] then
        pure (some true)
      else if normalized value ∈ ["0", "false", "no", "off"] then
        pure (some false)
      else
        throw (.typeError (fieldName ++ " must be a boolean when provided"))
  | _ => throw (.typeError (fieldName ++ " must be a boolean when provided"))

/-- A `raise ValueError` under a condition. -/
def refuse (condition : Bool) (message : String) :
    Except ConfigError Unit :=
  if condition then throw (.valueError message) else pure ⟨⟩

/-- `_validate_positive`. -/
def validatePositive (value : Option Int) : Except ConfigError Unit :=
  refuse (value.any (· ≤ 0)) (fieldName ++ " must be positive when provided")

/-- The same check of a number that was written out. -/
def validatePositiveFloat (value : Option PyFloat) :
    Except ConfigError Unit :=
  refuse (value.any PyFloat.isNonpositive)
    (fieldName ++ " must be positive when provided")

/-- A setting that is one of some words; the first is the default. -/
def coerceWord (default : String) (words : List String) (message : String)
    (value : ConfigValue) : Except ConfigError String := do
  let read ← coerceStr fieldName value
  let word := (read.map normalized).getD default
  refuse (word ∉ words) message
  pure word

end Coercions

/-! ## The parser -/

/-- `SharedFileConfig`. -/
structure SharedFileConfig where
  rootDir : String
  syncOnStore : Bool
  iodepth : Int
  stagingMem : PyFloat
  enablePreload : Bool
  preloadShareStaging : Bool
  openLookahead : Option Int
  stagingCache : String
  prefixCacheBreakEvenPath : Option String
  loadPlanner : String
  loadPlannerDeferTolerance : PyFloat
  loadPlannerDeferDeadlineMaxS : PyFloat
  deriving DecidableEq

namespace SharedFileConfig

/-- `DEFAULT_IODEPTH`. -/
def defaultIodepth : Int := 16

/-- `DEFAULT_STAGING_MEM_GIB`. -/
def defaultStagingMemGib : PyFloat := .finite 1

/-- `DEFAULT_LOAD_PLANNER_DEFER_TOLERANCE`. -/
def defaultLoadPlannerDeferTolerance : PyFloat := .finite 2

/-- `DEFAULT_LOAD_PLANNER_DEFER_DEADLINE_MAX_S`. -/
def defaultLoadPlannerDeferDeadlineMaxS : PyFloat := .finite 2

variable (conversions : Conversions)

/-- `from_extra_config`. -/
def fromExtraConfig (extraConfig : ExtraConfig) :
    Except ConfigError SharedFileConfig := do
  let rootDir ← coerceStr "shared_storage_path"
    (extraConfig "shared_storage_path")
  refuse (rootDir.getD "" = "")
    "shared_storage_path must be provided in kv_connector_extra_config"
  let syncOnStore ← coerceBool "sync_on_store" (extraConfig "sync_on_store")
  let iodepth ← coerceInt conversions "iodepth" (extraConfig "iodepth")
  let stagingMem ← coerceFloat conversions "staging_mem"
    (extraConfig "staging_mem")
  let enablePreload ← coerceBool "enable_preload"
    (extraConfig "enable_preload")
  let preloadShareStaging ← coerceBool "preload_share_staging"
    (extraConfig "preload_share_staging")
  let openLookahead ← coerceInt conversions "open_lookahead"
    (extraConfig "open_lookahead")
  let stagingCache ← coerceWord "staging_cache" "off" ["off", "lru", "arc"]
    "staging_cache must be one of: off, lru, arc"
    (extraConfig "staging_cache")
  let prefixCacheBreakEvenPath ← coerceStr "prefix_cache_break_even_path"
    (extraConfig "prefix_cache_break_even_path")
  let loadPlanner ← coerceWord "load_planner" "off" ["off", "on"]
    "load_planner must be one of: off, on" (extraConfig "load_planner")
  refuse (extraConfig "load_planner_defer_deadline_steps" ≠ .none)
    ("load_planner_defer_deadline_steps has been removed; the defer " ++
      "deadline is now wall-clock and derived per request. Use " ++
      "load_planner_defer_tolerance instead")
  let deferTolerance ← coerceFloat conversions "load_planner_defer_tolerance"
    (extraConfig "load_planner_defer_tolerance")
  let deferDeadlineMaxS ← coerceFloat conversions
    "load_planner_defer_deadline_max_s"
    (extraConfig "load_planner_defer_deadline_max_s")
  validatePositive "iodepth" iodepth
  validatePositive "open_lookahead" openLookahead
  validatePositiveFloat "load_planner_defer_tolerance" deferTolerance
  validatePositiveFloat "load_planner_defer_deadline_max_s" deferDeadlineMaxS
  validatePositiveFloat "staging_mem" stagingMem
  pure
    { rootDir := rootDir.getD ""
      syncOnStore := syncOnStore.getD false
      iodepth := iodepth.getD defaultIodepth
      stagingMem := stagingMem.getD defaultStagingMemGib
      enablePreload := enablePreload.getD false
      preloadShareStaging := preloadShareStaging.getD true
      openLookahead := openLookahead
      stagingCache := stagingCache
      prefixCacheBreakEvenPath := prefixCacheBreakEvenPath
      loadPlanner := loadPlanner
      loadPlannerDeferTolerance :=
        deferTolerance.getD defaultLoadPlannerDeferTolerance
      loadPlannerDeferDeadlineMaxS :=
        deferDeadlineMaxS.getD defaultLoadPlannerDeferDeadlineMaxS }

/-- The settings that are read. -/
def fieldNames : List String :=
  ["shared_storage_path", "sync_on_store", "iodepth", "staging_mem",
    "enable_preload", "preload_share_staging", "open_lookahead",
    "staging_cache", "prefix_cache_break_even_path", "load_planner",
    "load_planner_defer_deadline_steps", "load_planner_defer_tolerance",
    "load_planner_defer_deadline_max_s"]

/-! ## What is accepted -/

/-- A configuration that can be set. -/
structure WellFormed (config : SharedFileConfig) : Prop where
  rooted : config.rootDir ≠ ""
  iodepth : 0 < config.iodepth
  openLookahead : ∀ lookahead, config.openLookahead = some lookahead →
    0 < lookahead
  stagingCache : config.stagingCache ∈ ["off", "lru", "arc"]
  loadPlanner : config.loadPlanner ∈ ["off", "on"]
  deferTolerance : config.loadPlannerDeferTolerance.isNonpositive = false
  deferDeadline :
    config.loadPlannerDeferDeadlineMaxS.isNonpositive = false
  stagingMem : config.stagingMem.isNonpositive = false

end SharedFileConfig

section Checks

variable {conversions : Conversions} {fieldName message : String}

@[simp]
theorem refuse_eq_ok_iff {condition : Bool} {done : Unit} :
    refuse condition message = .ok done ↔ condition = false := by
  cases condition <;> simp [refuse, pure, Except.pure]

theorem validatePositive_eq_ok_iff {value : Option Int} {done : Unit} :
    validatePositive fieldName value = .ok done ↔
      ∀ number, value = some number → 0 < number := by
  unfold validatePositive
  rw [refuse_eq_ok_iff]
  cases value with
  | none => simp
  | some number => simp

theorem validatePositiveFloat_eq_ok_iff {value : Option PyFloat}
    {done : Unit} :
    validatePositiveFloat fieldName value = .ok done ↔
      ∀ number, value = some number → number.isNonpositive = false := by
  unfold validatePositiveFloat
  rw [refuse_eq_ok_iff]
  cases value with
  | none => simp
  | some number => simp

theorem coerceWord_eq_ok_iff {default word : String} {words : List String}
    {value : ConfigValue} :
    coerceWord fieldName default words message value = .ok word ↔
      word ∈ words ∧ ∃ read, coerceStr fieldName value = .ok read ∧
        (read.map normalized).getD default = word := by
  unfold coerceWord
  simp only [bind_eq_ok_iff, refuse_eq_ok_iff, decide_eq_false_iff_not,
    not_not]
  constructor
  · rintro ⟨read, reads, _, known, same⟩
    cases same
    exact ⟨known, read, reads, rfl⟩
  · rintro ⟨known, read, reads, rfl⟩
    exact ⟨read, reads, ⟨⟩, known, rfl⟩

end Checks

namespace SharedFileConfig

variable {conversions : Conversions} {extraConfig : ExtraConfig}
  {config : SharedFileConfig}

/-- A default that passes the check of its field. -/
private theorem getD_of_forall {value : Type} {property : value → Prop}
    {read : Option value} {default : value} (passes : property default)
    (checked : ∀ found, read = some found → property found) :
    property (read.getD default) := by
  cases read with
  | none => exact passes
  | some found => exact checked found rfl

/-- What is accepted is well formed, the defaults included. -/
theorem wellFormed_of_accepted
    (accepted : fromExtraConfig conversions extraConfig = .ok config) :
    config.WellFormed := by
  simp only [fromExtraConfig, bind_eq_ok_iff, refuse_eq_ok_iff,
    decide_eq_false_iff_not, validatePositive_eq_ok_iff,
    validatePositiveFloat_eq_ok_iff, coerceWord_eq_ok_iff] at accepted
  obtain ⟨rootDir, _, _, rooted, syncOnStore, _, iodepth, _, stagingMem, _,
    enablePreload, _, preloadShareStaging, _, openLookahead, _, stagingCache,
    ⟨cacheKnown, _⟩, path, _, loadPlanner, ⟨plannerKnown, _⟩, _, _,
    deferTolerance, _, deferDeadlineMaxS, _, _, depthPositive, _,
    lookaheadPositive, _, tolerancePositive, _, deadlinePositive, _,
    memPositive, built⟩ := accepted
  cases built
  exact
    { rooted := rooted
      iodepth := @getD_of_forall Int (0 < ·) _ _ (by decide) depthPositive
      openLookahead := lookaheadPositive
      stagingCache := cacheKnown
      loadPlanner := plannerKnown
      deferTolerance := @getD_of_forall PyFloat (·.isNonpositive = false) _ _
        (by decide +kernel) tolerancePositive
      deferDeadline := @getD_of_forall PyFloat (·.isNonpositive = false) _ _
        (by decide +kernel) deadlinePositive
      stagingMem := @getD_of_forall PyFloat (·.isNonpositive = false) _ _
        (by decide +kernel) memPositive }

/-! ## The way back -/

/-- The settings of a configuration, all written out. -/
def settings (config : SharedFileConfig) : List (String × ConfigValue) :=
  [("shared_storage_path", .str config.rootDir),
    ("sync_on_store", .bool config.syncOnStore),
    ("iodepth", .int config.iodepth),
    ("staging_mem", .float config.stagingMem),
    ("enable_preload", .bool config.enablePreload),
    ("preload_share_staging", .bool config.preloadShareStaging),
    ("open_lookahead", (config.openLookahead.map ConfigValue.int).getD .none),
    ("staging_cache", .str config.stagingCache),
    ("prefix_cache_break_even_path",
      (config.prefixCacheBreakEvenPath.map ConfigValue.str).getD .none),
    ("load_planner", .str config.loadPlanner),
    ("load_planner_defer_tolerance",
      .float config.loadPlannerDeferTolerance),
    ("load_planner_defer_deadline_max_s",
      .float config.loadPlannerDeferDeadlineMaxS)]

/-- The extra config with these settings. -/
def toExtraConfig (config : SharedFileConfig) : ExtraConfig :=
  fun key => (config.settings.lookup key).getD .none

/-- A word that is written as it is compared. -/
private theorem coerceWord_known {fieldName default message word : String}
    {words : List String} (known : word ∈ words)
    (plain : ∀ word ∈ words, normalized word = word) :
    coerceWord fieldName default words message (.str word) = .ok word :=
  coerceWord_eq_ok_iff.mpr ⟨known, some word, rfl, plain word known⟩

/-- Reading back what was written out. -/
theorem fromExtraConfig_toExtraConfig (wellFormed : config.WellFormed) :
    fromExtraConfig conversions config.toExtraConfig = .ok config := by
  obtain ⟨rooted, iodepth, openLookahead, stagingCache, loadPlanner,
    deferTolerance, deferDeadline, stagingMem⟩ := wellFormed
  have cached : coerceWord "staging_cache" "off" ["off", "lru", "arc"]
      "staging_cache must be one of: off, lru, arc"
      (.str config.stagingCache) = .ok config.stagingCache :=
    coerceWord_known stagingCache (by decide +kernel)
  have planned : coerceWord "load_planner" "off" ["off", "on"]
      "load_planner must be one of: off, on" (.str config.loadPlanner) =
        .ok config.loadPlanner :=
    coerceWord_known loadPlanner (by decide +kernel)
  have lookahead : coerceInt conversions "open_lookahead"
      ((config.openLookahead.map ConfigValue.int).getD .none) =
        .ok config.openLookahead := by
    cases config.openLookahead <;> rfl
  have path : coerceStr "prefix_cache_break_even_path"
      ((config.prefixCacheBreakEvenPath.map ConfigValue.str).getD .none) =
        .ok config.prefixCacheBreakEvenPath := by
    cases config.prefixCacheBreakEvenPath <;> rfl
  have unset : config.toExtraConfig "load_planner_defer_deadline_steps" =
      .none := rfl
  simp only [fromExtraConfig, bind_eq_ok_iff, refuse_eq_ok_iff,
    decide_eq_false_iff_not, validatePositive_eq_ok_iff,
    validatePositiveFloat_eq_ok_iff]
  refine ⟨some config.rootDir, rfl, ⟨⟩, rooted, some config.syncOnStore, rfl,
    some config.iodepth, rfl, some config.stagingMem, rfl,
    some config.enablePreload, rfl, some config.preloadShareStaging, rfl,
    config.openLookahead, lookahead, config.stagingCache, cached,
    config.prefixCacheBreakEvenPath, path, config.loadPlanner, planned, ⟨⟩,
    not_not.mpr unset, some config.loadPlannerDeferTolerance, rfl,
    some config.loadPlannerDeferDeadlineMaxS, rfl, ⟨⟩, ?_, ⟨⟩,
    openLookahead, ⟨⟩, ?_, ⟨⟩, ?_, ⟨⟩, ?_, rfl⟩
  · rintro number ⟨⟩
    exact iodepth
  · rintro number ⟨⟩
    exact deferTolerance
  · rintro number ⟨⟩
    exact deferDeadline
  · rintro number ⟨⟩
    exact stagingMem

end SharedFileConfig

/-! ## What is rejected -/

section Blame

variable (conversions : Conversions) (extraConfig : ExtraConfig)

/-- An error about a setting: it names the setting, or it is the one that a
conversion of its value raises. -/
def Faults (fieldName : String) (value : ConfigValue)
    (raised : ConfigError) : Prop :=
  (∃ text, raised.message = fieldName ++ text) ∨
    (∃ text, value = .str text ∧
      (conversions.intOfStr text = .error raised ∨
        conversions.floatOfStr text = .error raised)) ∨
    ∃ number, value = .int number ∧
      conversions.floatOfInt number = .error raised

/-- An error about a setting that was given, or about the missing path. -/
def Blamed (raised : ConfigError) : Prop :=
  ∃ fieldName ∈ SharedFileConfig.fieldNames,
    Faults conversions fieldName (extraConfig fieldName) raised ∧
      (extraConfig fieldName ≠ .none ∨ fieldName = "shared_storage_path")

variable {conversions extraConfig} {fieldName : String}

/-- Whatever a program raises is so. -/
def Raises {value : Type} (blamed : ConfigError → Prop)
    (program : Except ConfigError value) : Prop :=
  ∀ raised, program = .error raised → blamed raised

theorem Raises.bind {first second : Type} {blamed : ConfigError → Prop}
    {program : Except ConfigError first}
    {next : first → Except ConfigError second}
    (raises : Raises blamed program)
    (further : ∀ value, program = .ok value → Raises blamed (next value)) :
    Raises blamed (program >>= next) := by
  intro raised failed
  cases outcome : program with
  | error early =>
      rw [outcome] at failed
      cases failed
      exact raises raised outcome
  | ok value =>
      rw [outcome] at failed
      exact further value outcome raised failed

theorem raises_ok {value : Type} {blamed : ConfigError → Prop}
    (returned : value) : Raises blamed (.ok returned) := nofun

theorem refuse_raises {blamed : ConfigError → Prop} {condition : Bool}
    {message : String}
    (about : condition = true → blamed (.valueError message)) :
    Raises blamed (refuse condition message) := by
  intro raised failed
  cases condition with
  | false => cases failed
  | true =>
      cases failed
      exact about rfl

/-- An error that names a setting that was given. -/
private theorem blamed_of_names {text : String} {raised : ConfigError}
    (known : fieldName ∈ SharedFileConfig.fieldNames)
    (given : extraConfig fieldName ≠ .none)
    (names : raised.message = fieldName ++ text) :
    Blamed conversions extraConfig raised :=
  ⟨fieldName, known, Or.inl ⟨text, names⟩, Or.inl given⟩

/-- A coercion accepts a missing value, and raises for the one it is given. -/
private theorem coerced_raises {value : Type}
    {coerce : ConfigValue → Except ConfigError (Option value)}
    (known : fieldName ∈ SharedFileConfig.fieldNames)
    (missing : coerce .none = .ok none)
    (faults : ∀ found raised, coerce found = .error raised →
      Faults conversions fieldName found raised) :
    Raises (Blamed conversions extraConfig)
      (coerce (extraConfig fieldName)) := by
  intro raised failed
  refine ⟨fieldName, known, faults _ raised failed, Or.inl ?_⟩
  intro absent
  rw [absent, missing] at failed
  cases failed

/-- A conversion that raises. -/
private theorem error_of_map {first second : Type} {f : first → second}
    {converted : Except ConfigError first} {raised : ConfigError}
    (failed : f <$> converted = .error raised) :
    converted = .error raised := by
  cases converted with
  | error early =>
      cases failed
      rfl
  | ok value => cases failed

theorem coerceStr_raises
    (known : fieldName ∈ SharedFileConfig.fieldNames) :
    Raises (Blamed conversions extraConfig)
      (coerceStr fieldName (extraConfig fieldName)) := by
  refine coerced_raises known rfl fun found raised failed => ?_
  cases found <;> cases failed <;> exact Or.inl ⟨_, rfl⟩

theorem coerceBool_raises
    (known : fieldName ∈ SharedFileConfig.fieldNames) :
    Raises (Blamed conversions extraConfig)
      (coerceBool fieldName (extraConfig fieldName)) := by
  refine coerced_raises known rfl fun found raised failed => ?_
  cases found with
  | str value =>
      simp only [coerceBool] at failed
      split at failed
      · cases failed
      · split at failed
        · cases failed
        · cases failed
          exact Or.inl ⟨_, rfl⟩
  | none => cases failed
  | bool value => cases failed
  | int value => cases failed
  | float value => cases failed; exact Or.inl ⟨_, rfl⟩
  | other => cases failed; exact Or.inl ⟨_, rfl⟩

theorem coerceInt_raises
    (known : fieldName ∈ SharedFileConfig.fieldNames) :
    Raises (Blamed conversions extraConfig)
      (coerceInt conversions fieldName (extraConfig fieldName)) := by
  refine coerced_raises known rfl fun found raised failed => ?_
  cases found with
  | str text =>
      exact Or.inr (Or.inl ⟨text, rfl, Or.inl (error_of_map failed)⟩)
  | none => cases failed
  | int value => cases failed
  | bool value => cases failed; exact Or.inl ⟨_, rfl⟩
  | float value => cases failed; exact Or.inl ⟨_, rfl⟩
  | other => cases failed; exact Or.inl ⟨_, rfl⟩

theorem coerceFloat_raises
    (known : fieldName ∈ SharedFileConfig.fieldNames) :
    Raises (Blamed conversions extraConfig)
      (coerceFloat conversions fieldName (extraConfig fieldName)) := by
  refine coerced_raises known rfl fun found raised failed => ?_
  cases found with
  | str text =>
      exact Or.inr (Or.inl ⟨text, rfl, Or.inr (error_of_map failed)⟩)
  | int value => exact Or.inr (Or.inr ⟨value, rfl, error_of_map failed⟩)
  | none => cases failed
  | float value => cases failed
  | bool value => cases failed; exact Or.inl ⟨_, rfl⟩
  | other => cases failed; exact Or.inl ⟨_, rfl⟩

theorem coerceWord_raises {default message text : String}
    {words : List String}
    (known : fieldName ∈ SharedFileConfig.fieldNames)
    (standard : default ∈ words) (names : message = fieldName ++ text) :
    Raises (Blamed conversions extraConfig)
      (coerceWord fieldName default words message
        (extraConfig fieldName)) := by
  refine (coerceStr_raises known).bind fun read reads => ?_
  refine (refuse_raises fun unknown => ?_).bind fun _ _ => raises_ok _
  have present : extraConfig fieldName ≠ .none := by
    intro missing
    rw [missing] at reads
    cases reads
    exact of_decide_eq_true unknown standard
  exact blamed_of_names known present names

/-- A setting that was coerced to a value was given. -/
private theorem given_of_coerced {value : Type} {found : value}
    {coerce : ConfigValue → Except ConfigError (Option value)}
    (missing : coerce .none = .ok none)
    (reads : coerce (extraConfig fieldName) = .ok (some found)) :
    extraConfig fieldName ≠ .none := by
  intro absent
  rw [absent, missing] at reads
  cases reads

theorem validatePositive_raises {read : Option Int}
    (known : fieldName ∈ SharedFileConfig.fieldNames)
    (reads : coerceInt conversions fieldName (extraConfig fieldName) =
      .ok read) :
    Raises (Blamed conversions extraConfig)
      (validatePositive fieldName read) := by
  refine refuse_raises fun bad => ?_
  cases read with
  | none => cases bad
  | some found => exact blamed_of_names known (given_of_coerced rfl reads) rfl

theorem validatePositiveFloat_raises {read : Option PyFloat}
    (known : fieldName ∈ SharedFileConfig.fieldNames)
    (reads : coerceFloat conversions fieldName (extraConfig fieldName) =
      .ok read) :
    Raises (Blamed conversions extraConfig)
      (validatePositiveFloat fieldName read) := by
  refine refuse_raises fun bad => ?_
  cases read with
  | none => cases bad
  | some found => exact blamed_of_names known (given_of_coerced rfl reads) rfl

/-- Every error is about one setting. -/
theorem fromExtraConfig_raises :
    Raises (Blamed conversions extraConfig)
      (SharedFileConfig.fromExtraConfig conversions extraConfig) := by
  unfold SharedFileConfig.fromExtraConfig
  refine (coerceStr_raises (by decide)).bind fun rootDir _ => ?_
  refine (refuse_raises fun _ => ?_).bind fun _ _ => ?_
  · exact ⟨"shared_storage_path", by decide, Or.inl
      ⟨" must be provided in kv_connector_extra_config", rfl⟩, Or.inr rfl⟩
  refine (coerceBool_raises (by decide)).bind fun _ _ => ?_
  refine (coerceInt_raises (by decide)).bind fun iodepth depth => ?_
  refine (coerceFloat_raises (by decide)).bind fun stagingMem mem => ?_
  refine (coerceBool_raises (by decide)).bind fun _ _ => ?_
  refine (coerceBool_raises (by decide)).bind fun _ _ => ?_
  refine (coerceInt_raises (by decide)).bind fun openLookahead lookahead => ?_
  refine (@coerceWord_raises conversions extraConfig "staging_cache" "off" _
    " must be one of: off, lru, arc" _ (by decide) (by decide) rfl).bind
      fun _ _ => ?_
  refine (coerceStr_raises (by decide)).bind fun _ _ => ?_
  refine (@coerceWord_raises conversions extraConfig "load_planner" "off" _
    " must be one of: off, on" _ (by decide) (by decide) rfl).bind
      fun _ _ => ?_
  refine (refuse_raises fun set => ?_).bind fun _ _ => ?_
  · exact @blamed_of_names conversions extraConfig
      "load_planner_defer_deadline_steps"
      (" has been removed; the defer deadline is now wall-clock and " ++
        "derived per request. Use load_planner_defer_tolerance instead") _
      (by decide) (of_decide_eq_true set) rfl
  refine (coerceFloat_raises (by decide)).bind fun _ tolerance => ?_
  refine (coerceFloat_raises (by decide)).bind fun _ deadline => ?_
  refine (validatePositive_raises (by decide) depth).bind fun _ _ => ?_
  refine (validatePositive_raises (by decide) lookahead).bind fun _ _ => ?_
  refine (validatePositiveFloat_raises (by decide) tolerance).bind
    fun _ _ => ?_
  refine (validatePositiveFloat_raises (by decide) deadline).bind
    fun _ _ => ?_
  refine (validatePositiveFloat_raises (by decide) mem).bind fun _ _ => ?_
  exact raises_ok _

end Blame

namespace SharedFileConfig

/-- The configurations that are accepted are the well-formed ones: each of
these reads itself back, with any conversions of strings, and nothing else is
ever returned.  Everything else is rejected for one setting that was given,
or for the missing path, and unless the text of a number could not be
converted the error names that setting. -/
theorem fromExtraConfig_faithful (conversions : Conversions) :
    (∀ config : SharedFileConfig,
      fromExtraConfig conversions config.toExtraConfig = .ok config ↔
        config.WellFormed) ∧
    (∀ extraConfig config,
      fromExtraConfig conversions extraConfig = .ok config →
        fromExtraConfig conversions config.toExtraConfig = .ok config) ∧
    ∀ extraConfig raised,
      fromExtraConfig conversions extraConfig = .error raised →
        Blamed conversions extraConfig raised := by
  refine ⟨fun config => ⟨wellFormed_of_accepted,
    fromExtraConfig_toExtraConfig⟩, fun extraConfig config accepted => ?_,
    fun extraConfig => fromExtraConfig_raises⟩
  exact fromExtraConfig_toExtraConfig (wellFormed_of_accepted accepted)

end SharedFileConfig

end PyKvCache.Setup
