import PyKvCache.Cost.CostModel
import PyKvCache.Reactor.Types
import PyKvCache.Setup.StagingBuffer

/-!
# The constructors

What `IoReactor.__init__` makes of a configuration, and what `_build_planner`
makes of it in the scheduler's process.  A reactor that was built is one the
other chapters are about, and the planner counts with the preload slots the
reactor has.
-/

namespace PyKvCache.Setup

open PyKvCache.Library PyKvCache.Staging PyKvCache.Transfer
  PyKvCache.Reactor PyKvCache.Cost

/-! ## The reactor -/

/-- What a reactor is given beside its configuration, and what the world
outside it does.  The modules of the reactor and of the transfers have each
found `torch` or not, the platform has `O_DIRECT` or not; and whatever is asked
for can be refused: pinned memory of a size, a ring of a depth, the streams and
pointer arrays for a number of slots, and a thread. -/
structure Outside where
  breakEven : BreakEvenThresholds
  storageBlockTokens : Int
  getFileName : BlockHash → String
  raises : ExtCall → Nat → Option Fault
  finished : Nat → Bool
  completions : Nat → List (Nat × Int)
  openedFd : Nat → Int
  tempSuffix : Nat → String
  torchCopyAvailable : Bool
  transferCopyAvailable : Bool
  hasODirect : Bool
  emptyPinned : Nat → Except SetupError Int
  ringSetup : Nat → Except SetupError Unit
  copyResources : Nat → Except SetupError Unit
  startWorker : Except SetupError Unit
  repr : String → String

/-- A reactor that was built. -/
structure IoReactor where
  slotCount : Nat
  env : Env slotCount
  stagingBuffer : StagingBuffer
  ringDepth : Nat

/-- `make_policy`. -/
def makePolicy (repr : String → String) (kind : String) (capacity : Nat) :
    Except SetupError EvictionPolicy :=
  if kind = "lru" then
    pure (.lru .empty)
  else if kind = "arc" then
    pure (.arc (.init capacity))
  else
    throw (.valueError ("unknown staging_cache policy " ++ repr kind))

/-- `cache_kind`; only compared with words of ASCII letters. -/
def cacheKind (config : SharedFileConfig) : String :=
  let kind := if config.stagingCache = "" then "off" else config.stagingCache
  kind.map Char.toLower

/-- The policy of `_staging_cache`. -/
def stagingCachePolicy (repr : String → String) (config : SharedFileConfig)
    (maxCacheSlots : Nat) : Except SetupError (Option EvictionPolicy) :=
  if cacheKind config ≠ "off" ∧ 0 < maxCacheSlots then
    some <$> makePolicy repr (cacheKind config) maxCacheSlots
  else
    pure none

/-- `config.open_lookahead or self.iodepth`, and at least one. -/
def openLookaheadOf (config : SharedFileConfig) (iodepth : Nat) : Nat :=
  (max 1 (match config.openLookahead with
    | none => (iodepth : Int)
    | some lookahead => if lookahead = 0 then iodepth else lookahead)).toNat

namespace IoReactor

/-- `IoReactor.__init__`, with the checks of `DirectIoFileStore`; a slot count
is positive, so that `StagingPool` takes it. -/
def init (config : SharedFileConfig) (layout : ParsedKvLayout)
    (outside : Outside) : Except SetupError IoReactor := do
  let payloadSize : Int := layout.storageBlockBytes
  let ioSize := alignUp payloadSize
  if outside.torchCopyAvailable = false then
    throw (.runtimeError "vLLM and torch are required for the I/O reactor")
  else if payloadSize ≤ 0 then
    throw (.valueError "payload_size must be positive")
  else if outside.hasODirect = false then
    throw (.runtimeError "direct I/O requires os.O_DIRECT support")
  else do
    let iodepth := (max 1 config.iodepth).toNat
    let copyHeadroom := max 4 (iodepth / 2)
    let minSlots := iodepth + copyHeadroom
    let slotCount ← computeSlotCount config.stagingMem ioSize minSlots
    let buffer ← allocateStagingBuffer outside.transferCopyAvailable
      outside.emptyPinned layout slotCount.val
    let openLookahead := openLookaheadOf config iodepth
    let ringDepth := max (iodepth + openLookahead + 16) 16
    outside.ringSetup ringDepth
    outside.copyResources slotCount.val
    let cachePolicy ← stagingCachePolicy outside.repr config
      (slotCount.val - iodepth)
    outside.startWorker
    pure
      { slotCount := slotCount.val
        stagingBuffer := buffer
        ringDepth := ringDepth
        env :=
          { iodepth := iodepth
            openLookahead := openLookahead
            sharePreload := config.preloadShareStaging
            cachePolicy := cachePolicy
            syncOnStore := config.syncOnStore
            breakEven := outside.breakEven
            storageBlockTokens := outside.storageBlockTokens
            layout := layout
            ioSize := ioSize.toNat
            getFileName := outside.getFileName
            raises := outside.raises
            finished := outside.finished
            completions := outside.completions
            openedFd := outside.openedFd
            tempSuffix := outside.tempSuffix
            iodepth_pos := by omega
            openLookahead_pos := by
              unfold openLookahead openLookaheadOf
              omega
            slotsEnough := by
              have enough := slotCount.property.1
              omega } }

end IoReactor

/-! ## The planner -/

/-- What `_build_planner` reads of the configuration of vLLM: whether the
planning calls exist, the setting `preload_lookahead_requests` as
`_parse_non_negative_int` returns it, and `max_model_len`. -/
structure PlannerSite where
  vllmAvailable : Bool
  planApiAvailable : Bool
  preloadLookaheadRequests : Except SetupError Int
  maxModelLen : Int
  storageBlockTokens : Int

/-- What a planner is given. -/
structure PlannerSettings where
  tables : CostTables
  maxPreloadSlots : Nat
  deferTolerance : PyFloat
  deferDeadlineMaxS : PyFloat

/-- A `raise ValueError` under a condition. -/
def reject (condition : Bool) (message : String) :
    Except SetupError Unit :=
  if condition then throw (.valueError message) else pure ()

/-- The mirror of `_max_preload_slots`. -/
def plannerPreloadSlots (config : SharedFileConfig) (ioSize : Int) :
    Except SetupError Nat := do
  let copyHeadroom := max 4 (config.iodepth / 2)
  let slotCount ← computeSlotCount config.stagingMem ioSize
    (config.iodepth + copyHeadroom)
  pure (max 0 ((slotCount.val : Int) - config.iodepth)).toNat

/-- `_build_planner`, on the curves that `load_curves` returned; the warning
about prefix caching is only logged. -/
def buildPlanner (config : SharedFileConfig) (curves : Option CurveData)
    (site : PlannerSite) (buildError : BuildError → SetupError) :
    Except SetupError PlannerSettings :=
  match curves with
  | none => throw (.valueError ("load_planner=on requires " ++
      "prefix_cache_break_even_path to point at a v2 break-even file with " ++
      "a 'curves' section; a v1 file (or none) has no curves to plan with"))
  | some curves => do
      reject (site.vllmAvailable && !site.planApiAvailable)
        ("load_planner=on requires a vLLM with the planned-defer preload " ++
          "API (vllm.v1.kv_offload.base.PlanDecision); the installed vLLM " ++
          "does not expose it, so plan_candidates would never be called")
      reject (!config.enablePreload)
        "load_planner=on requires enable_preload=true"
      reject (!config.preloadShareStaging)
        ("load_planner=on requires preload_share_staging=true; with per-" ++
          "(req_id, hash) staging the planner's shared-prefix pricing " ++
          "charges one slot where the reactor holds one per requesting " ++
          "request")
      let requests ← site.preloadLookaheadRequests
      reject (requests ≤ 0)
        "load_planner=on requires preload_lookahead_requests > 0"
      match curves.kvBytesPerToken with
      | none => throw (.valueError ("load_planner=on requires " ++
          "kv_bytes_per_token in the break-even file"))
      | some kvBytesPerToken => do
          reject (site.maxModelLen ≤ 0)
            ("load_planner=on requires a positive " ++
              "vllm_config.model_config.max_model_len")
          let tables ← (buildCostTables curves site.storageBlockTokens
            site.maxModelLen).mapError buildError
          let ioSize := alignUp (kvBytesPerToken * site.storageBlockTokens)
          let maxPreloadSlots ← plannerPreloadSlots config ioSize
          pure ⟨tables, maxPreloadSlots, config.loadPlannerDeferTolerance,
            config.loadPlannerDeferDeadlineMaxS⟩

/-! ## What is built -/

/-- A computed number of slots is that of the memory, or the least. -/
theorem computeSlotCount_eq_ok_iff {stagingMemGib : PyFloat}
    {ioSize minSlots : Int}
    {count : { count : Nat // minSlots ≤ count ∧ 1 ≤ count }} :
    computeSlotCount stagingMemGib ioSize minSlots = .ok count ↔
      ioSize ≠ 0 ∧ ∃ stagingBytes,
        stagingMemGib.timesGib.toInt = .ok stagingBytes ∧
        (count.val : Int) =
          max (max 1 minSlots) (max 1 (stagingBytes.fdiv ioSize)) := by
  unfold computeSlotCount
  simp only [bind_eq_ok_iff, floorDivide]
  constructor
  · rintro ⟨stagingBytes, read, blocks, divided, counted⟩
    split at divided
    · cases divided
    next nonzero =>
      cases divided
      cases counted
      refine ⟨nonzero, stagingBytes, read, ?_⟩
      simp only
      omega
  · rintro ⟨nonzero, stagingBytes, read, same⟩
    refine ⟨stagingBytes, read, stagingBytes.fdiv ioSize, ?_, ?_⟩
    · rw [if_neg nonzero]
      rfl
    · refine congrArg Except.ok (Subtype.ext ?_)
      simp only
      omega

/-- More bytes for each slot, fewer slots. -/
theorem computeSlotCount_antitone {stagingMemGib : PyFloat}
    {small large minSlots otherMinSlots : Int}
    {many : { count : Nat // minSlots ≤ count ∧ 1 ≤ count }}
    {few : { count : Nat // otherMinSlots ≤ count ∧ 1 ≤ count }}
    (least : minSlots = otherMinSlots)
    (positive : 0 < small) (order : small ≤ large)
    (withSmall : computeSlotCount stagingMemGib small minSlots = .ok many)
    (withLarge :
      computeSlotCount stagingMemGib large otherMinSlots = .ok few) :
    few.val ≤ many.val := by
  obtain ⟨_, stagingBytes, read, manySlots⟩ :=
    computeSlotCount_eq_ok_iff.mp withSmall
  obtain ⟨_, otherBytes, otherRead, fewSlots⟩ :=
    computeSlotCount_eq_ok_iff.mp withLarge
  rw [read] at otherRead
  cases otherRead
  rw [Int.fdiv_eq_ediv_of_nonneg _ (by omega)] at manySlots fewSlots
  by_cases sign : 0 ≤ stagingBytes
  · have fewer : stagingBytes / large ≤ stagingBytes / small := by
      apply Int.le_ediv_of_mul_le positive
      have whole := Int.ediv_mul_le stagingBytes (b := large) (by omega)
      have quotient : 0 ≤ stagingBytes / large :=
        Int.ediv_nonneg sign (by omega)
      have scaled := Int.mul_le_mul_of_nonneg_left order quotient
      omega
    omega
  · have none : stagingBytes / large < 0 :=
      Int.ediv_neg_of_neg_of_pos (by omega) (by omega)
    omega

/-- A reactor and what it was built from. -/
structure Built (config : SharedFileConfig) (layout : ParsedKvLayout)
    (outside : Outside) (reactor : IoReactor) : Prop where
  available : outside.torchCopyAvailable = true
  directIo : outside.hasODirect = true
  sameLayout : reactor.env.layout = layout
  nonempty : 0 < layout.storageBlockBytes
  ioSize : reactor.env.ioSize = layout.storageBlockBytes
  iodepth : (reactor.env.iodepth : Int) = max 1 config.iodepth
  openLookahead : reactor.env.openLookahead =
    openLookaheadOf config reactor.env.iodepth
  sharePreload : reactor.env.sharePreload = config.preloadShareStaging
  cachePolicy : stagingCachePolicy outside.repr config
    reactor.env.maxPreloadSlots = .ok reactor.env.cachePolicy
  slots : ∃ count, computeSlotCount config.stagingMem
      layout.storageBlockBytes (reactor.env.iodepth +
        max 4 (reactor.env.iodepth / 2) : Nat) = .ok count ∧
    count.val = reactor.slotCount
  buffer : allocateStagingBuffer outside.transferCopyAvailable
    outside.emptyPinned layout reactor.slotCount = .ok reactor.stagingBuffer
  ringDepth : reactor.ringDepth =
    reactor.env.iodepth + reactor.env.openLookahead + 16
  ring : outside.ringSetup reactor.ringDepth = .ok ()
  resources : outside.copyResources reactor.slotCount = .ok ()
  started : outside.startWorker = .ok ()

theorem built_of_init {config : SharedFileConfig}
    {layout : ParsedKvLayout} {outside : Outside} {reactor : IoReactor}
    (built : IoReactor.init config layout outside = .ok reactor) :
    Built config layout outside reactor := by
  simp only [IoReactor.init, ite_throw_eq_ok_iff, bind_eq_ok_iff,
    Bool.not_eq_false] at built
  obtain ⟨available, positive, directIo, count, counted, buffer, allocated,
    _, ring, _, resources, policy, made, _, started, same⟩ := built
  cases same
  obtain ⟨_, divides, _⟩ := allocateStagingBuffer_eq_ok_iff.mp allocated
  have whole : alignUp layout.storageBlockBytes =
      layout.storageBlockBytes := alignUp_of_dvd (by omega)
  rw [whole] at counted
  have depth : max ((max 1 config.iodepth).toNat +
      openLookaheadOf config (max 1 config.iodepth).toNat + 16) 16 =
        (max 1 config.iodepth).toNat +
          openLookaheadOf config (max 1 config.iodepth).toNat + 16 := by
    omega
  exact
    { available := available
      directIo := directIo
      sameLayout := rfl
      nonempty := by omega
      ioSize := by
        simp only [whole, Int.toNat_natCast]
      iodepth := by
        simp only
        omega
      openLookahead := rfl
      sharePreload := rfl
      cachePolicy := made
      slots := ⟨count, counted, rfl⟩
      buffer := allocated
      ringDepth := depth
      ring := ring
      resources := resources
      started := started }

/-! ## From a configuration -/

section Configured

variable {conversions : Conversions} {extraConfig : ExtraConfig}
  {config : SharedFileConfig} {layout : ParsedKvLayout}
  {outside : Outside}

/-- The memory is a number of bytes when it is finite and does not
overflow. -/
theorem exists_toInt_timesGib_iff {mem : PyFloat} :
    (∃ stagingBytes, mem.timesGib.toInt = .ok stagingBytes) ↔
      ∃ gib : ℚ, mem = .finite gib ∧ |gib * 2 ^ 30| < 2 ^ 1024 := by
  cases mem with
  | finite gib =>
      have scaled : (PyFloat.finite gib).timesGib =
          if 2 ^ 1024 ≤ |gib * 2 ^ 30| then
            .infinite (gib < 0)
          else
            .finite (gib * 2 ^ 30) := rfl
      by_cases overflows : 2 ^ 1024 ≤ |gib * 2 ^ 30|
      · rw [scaled, if_pos overflows]
        constructor
        · rintro ⟨_, impossible⟩
          cases impossible
        · rintro ⟨_, ⟨⟩, bounded⟩
          exact absurd overflows (not_le.mpr bounded)
      · rw [scaled, if_neg overflows]
        exact ⟨fun _ => ⟨gib, rfl, not_le.mp overflows⟩,
          fun _ => ⟨_, rfl⟩⟩
  | infinite negative =>
      constructor
      · rintro ⟨_, impossible⟩
        cases impossible
      · rintro ⟨_, impossible, _⟩
        cases impossible
  | nan =>
      constructor
      · rintro ⟨_, impossible⟩
        cases impossible
      · rintro ⟨_, impossible, _⟩
        cases impossible

/-- An accepted amount of memory, in bytes. -/
theorem toInt_timesGib (wellFormed : config.WellFormed) {gib : ℚ}
    (set : config.stagingMem = .finite gib)
    (bounded : |gib * 2 ^ 30| < 2 ^ 1024) :
    config.stagingMem.timesGib.toInt = .ok ⌊gib * 2 ^ 30⌋ ∧
      0 ≤ ⌊gib * 2 ^ 30⌋ := by
  have positive : 0 < gib := by
    have checked := wellFormed.stagingMem
    rw [set] at checked
    exact not_le.mp (of_decide_eq_false checked)
  have bytes : 0 ≤ gib * 2 ^ 30 := by positivity
  have exact : (PyFloat.finite gib).timesGib = .finite (gib * 2 ^ 30) :=
    if_neg (not_le.mpr bounded)
  rw [set, exact]
  exact ⟨congrArg Except.ok (if_pos bytes), Int.floor_nonneg.mpr bytes⟩

/-- The number of slots that the configured memory holds, or the least that
the depth needs. -/
def slotsAskedFor (config : SharedFileConfig) (layout : ParsedKvLayout)
    (gib : ℚ) : Nat :=
  (max (config.iodepth + max 4 (config.iodepth / 2))
    (⌊gib * 2 ^ 30⌋ / layout.storageBlockBytes)).toNat

/-- The slots take no more than the memory, or than the least of them. -/
theorem slotsAskedFor_mul_le (wellFormed : config.WellFormed)
    (nonempty : 0 < layout.storageBlockBytes) {gib : ℚ} :
    (slotsAskedFor config layout gib * layout.storageBlockBytes : Int) ≤
      max ⌊gib * 2 ^ 30⌋ ((config.iodepth + max 4 (config.iodepth / 2)) *
        layout.storageBlockBytes) := by
  have positive := wellFormed.iodepth
  have whole := Int.ediv_mul_le ⌊gib * 2 ^ 30⌋
    (b := (layout.storageBlockBytes : Int)) (by omega)
  unfold slotsAskedFor
  rw [Int.toNat_of_nonneg (by omega)]
  rcases le_total (config.iodepth + max 4 (config.iodepth / 2))
    (⌊gib * 2 ^ 30⌋ / layout.storageBlockBytes) with order | order
  · rw [max_eq_right order]
    exact le_trans whole (le_max_left _ _)
  · rw [max_eq_left order]
    exact le_max_right _ _

theorem computeSlotCount_eq_ok_iff_asked (wellFormed : config.WellFormed)
    (nonempty : 0 < layout.storageBlockBytes) {gib : ℚ}
    (set : config.stagingMem = .finite gib)
    (bounded : |gib * 2 ^ 30| < 2 ^ 1024) {minSlots : Int}
    (least : minSlots = config.iodepth + max 4 (config.iodepth / 2))
    {count : { count : Nat // minSlots ≤ count ∧ 1 ≤ count }} :
    computeSlotCount config.stagingMem layout.storageBlockBytes minSlots =
        .ok count ↔
      count.val = slotsAskedFor config layout gib := by
  have positive := wellFormed.iodepth
  obtain ⟨read, bytes⟩ := toInt_timesGib wellFormed set bounded
  have blocks : 0 ≤ ⌊gib * 2 ^ 30⌋ / (layout.storageBlockBytes : Int) :=
    Int.ediv_nonneg bytes (by omega)
  rw [computeSlotCount_eq_ok_iff, read]
  unfold slotsAskedFor
  constructor
  · rintro ⟨_, _, ⟨⟩, total⟩
    rw [Int.fdiv_eq_ediv_of_nonneg _ (by omega)] at total
    omega
  · intro total
    refine ⟨by omega, _, rfl, ?_⟩
    rw [Int.fdiv_eq_ediv_of_nonneg _ (by omega)]
    omega

/-- The three policies are known. -/
theorem exists_stagingCachePolicy {repr : String → String}
    (known : config.stagingCache ∈ ["off", "lru", "arc"])
    (maxCacheSlots : Nat) :
    ∃ policy, stagingCachePolicy repr config maxCacheSlots = .ok policy := by
  have kinds : cacheKind config = "off" ∨ cacheKind config = "lru" ∨
      cacheKind config = "arc" := by
    unfold cacheKind
    generalize config.stagingCache = word at known ⊢
    simp only [List.mem_cons, List.not_mem_nil, or_false] at known
    rcases known with rfl | rfl | rfl <;> decide +kernel
  unfold stagingCachePolicy
  split
  next used =>
    rcases kinds with off | lru | arc
    · exact absurd off used.1
    · exact ⟨_, by rw [lru]; rfl⟩
    · exact ⟨_, by rw [arc]; rfl⟩
  next => exact ⟨_, rfl⟩

theorem openLookaheadOf_eq (wellFormed : config.WellFormed)
    {iodepth : Nat} (depth : (iodepth : Int) = config.iodepth) :
    (openLookaheadOf config iodepth : Int) =
      config.openLookahead.getD config.iodepth := by
  have positive := wellFormed.iodepth
  unfold openLookaheadOf
  cases set : config.openLookahead with
  | none =>
      simp only [Option.getD_none]
      omega
  | some lookahead =>
      have lookaheadPositive := wellFormed.openLookahead lookahead set
      simp only [Option.getD_some]
      rw [if_neg (by omega)]
      omega

/-- When a reactor is built from a configuration that was accepted. -/
theorem exists_init_iff (wellFormed : config.WellFormed) :
    (∃ reactor, IoReactor.init config layout outside = .ok reactor) ↔
      (outside.torchCopyAvailable = true ∧
        outside.transferCopyAvailable = true ∧ outside.hasODirect = true) ∧
      0 < layout.storageBlockBytes ∧
      layout.storageBlockBytes % directIoAlignment = 0 ∧
      ∃ gib : ℚ, config.stagingMem = .finite gib ∧
        |gib * 2 ^ 30| < 2 ^ 1024 ∧
        (∃ start, outside.emptyPinned (slotsAskedFor config layout gib *
          layout.storageBlockBytes + 4095) = .ok start) ∧
        outside.ringSetup (config.iodepth +
          config.openLookahead.getD config.iodepth + 16).toNat = .ok () ∧
        outside.copyResources (slotsAskedFor config layout gib) = .ok () ∧
        outside.startWorker = .ok () := by
  have positive := wellFormed.iodepth
  have lookahead := @openLookaheadOf_eq config wellFormed
    (max 1 config.iodepth).toNat (by omega)
  have depth : max ((max 1 config.iodepth).toNat +
      openLookaheadOf config (max 1 config.iodepth).toNat + 16) 16 =
        (config.iodepth + config.openLookahead.getD config.iodepth +
          16).toNat := by
    omega
  constructor
  · rintro ⟨reactor, built⟩
    have spec := built_of_init built
    have iodepth := spec.iodepth
    obtain ⟨present, divides, start, answered, _⟩ :=
      allocateStagingBuffer_eq_ok_iff.mp spec.buffer
    obtain ⟨count, counted, slots⟩ := spec.slots
    obtain ⟨_, stagingBytes, read, _⟩ :=
      computeSlotCount_eq_ok_iff.mp counted
    obtain ⟨gib, set, bounded⟩ :=
      exists_toInt_timesGib_iff.mp ⟨stagingBytes, read⟩
    have asked := (computeSlotCount_eq_ok_iff_asked wellFormed spec.nonempty
      set bounded (by omega)).mp counted
    rw [slots] at asked
    have same : reactor.env.iodepth = (max 1 config.iodepth).toNat := by
      omega
    have ring := spec.ring
    rw [spec.ringDepth, spec.openLookahead, same] at ring
    rw [max_eq_left (by omega)] at depth
    rw [depth] at ring
    rw [asked] at answered
    have resources := spec.resources
    rw [asked] at resources
    exact ⟨⟨spec.available, present, spec.directIo⟩, spec.nonempty, divides,
      gib, set, bounded, ⟨start, answered⟩, ring, resources, spec.started⟩
  · rintro ⟨⟨available, present, directIo⟩, nonempty, divides, gib, set,
      bounded, ⟨start, answered⟩, ring, resources, started⟩
    have whole : alignUp layout.storageBlockBytes =
        layout.storageBlockBytes := alignUp_of_dvd (by
      unfold directIoAlignment at divides
      omega)
    have least : (((max 1 config.iodepth).toNat +
        max 4 ((max 1 config.iodepth).toNat / 2) : Nat) : Int) =
          config.iodepth + max 4 (config.iodepth / 2) := by
      omega
    have enough : (((max 1 config.iodepth).toNat +
        max 4 ((max 1 config.iodepth).toNat / 2) : Nat) : Int) ≤
          slotsAskedFor config layout gib ∧
        1 ≤ slotsAskedFor config layout gib := by
      unfold slotsAskedFor
      omega
    have counted : computeSlotCount config.stagingMem _ _ =
        .ok ⟨slotsAskedFor config layout gib, enough⟩ :=
      (computeSlotCount_eq_ok_iff_asked wellFormed nonempty set bounded
        least).mpr rfl
    rw [← whole] at counted
    obtain ⟨policy, made⟩ := @exists_stagingCachePolicy config outside.repr
      wellFormed.stagingCache
      (slotsAskedFor config layout gib - (max 1 config.iodepth).toNat)
    rw [← depth] at ring
    simp only [IoReactor.init, ite_throw_eq_ok_iff, bind_eq_ok_iff,
      Bool.not_eq_false]
    exact ⟨_, available, by omega, directIo, _, counted, _,
      allocateStagingBuffer_eq_ok_iff.mpr
        ⟨present, divides, start, answered, rfl⟩,
      (), ring, (), resources, policy, made, (), started, rfl⟩

/-- What a planner was built from. -/
theorem planned_of_build {curves : Option CurveData} {site : PlannerSite}
    {buildError : BuildError → SetupError} {settings : PlannerSettings}
    (planned : buildPlanner config curves site buildError = .ok settings) :
    config.preloadShareStaging = true ∧ 0 < site.storageBlockTokens ∧
      ∃ data kvBytesPerToken, curves = some data ∧
        data.kvBytesPerToken = some kvBytesPerToken ∧
        plannerPreloadSlots config
          (alignUp (kvBytesPerToken * site.storageBlockTokens)) =
            .ok settings.maxPreloadSlots := by
  have checked : ∀ {condition message done},
      reject condition message = .ok done → condition = false := by
    intro condition message done passed
    cases condition with
    | false => rfl
    | true => cases passed
  unfold buildPlanner at planned
  split at planned
  next => cases planned
  next data =>
    obtain ⟨_, _, planned⟩ := bind_eq_ok_iff.mp planned
    obtain ⟨_, _, planned⟩ := bind_eq_ok_iff.mp planned
    obtain ⟨_, shared, planned⟩ := bind_eq_ok_iff.mp planned
    obtain ⟨requests, _, planned⟩ := bind_eq_ok_iff.mp planned
    obtain ⟨_, _, planned⟩ := bind_eq_ok_iff.mp planned
    split at planned
    next => cases planned
    next kvBytesPerToken given =>
      obtain ⟨_, _, planned⟩ := bind_eq_ok_iff.mp planned
      obtain ⟨tables, baked, planned⟩ := bind_eq_ok_iff.mp planned
      obtain ⟨maxPreloadSlots, counted, planned⟩ := bind_eq_ok_iff.mp planned
      cases planned
      refine ⟨(Bool.not_eq_eq_eq_not ..).mp (checked shared), ?_, data,
        kvBytesPerToken, rfl, given, counted⟩
      by_contra unsized
      rw [buildCostTables, dif_neg unsized] at baked
      cases baked

/-- The planner's budget, as the reactor's is computed. -/
theorem plannerPreloadSlots_eq (wellFormed : config.WellFormed)
    {ioSize : Int} {slots : Nat}
    (counted : plannerPreloadSlots config ioSize = .ok slots) :
    ∃ count, computeSlotCount config.stagingMem ioSize
        (config.iodepth.toNat + max 4 (config.iodepth.toNat / 2) : Nat) =
          .ok count ∧
      slots = count.val - config.iodepth.toNat := by
  have positive := wellFormed.iodepth
  obtain ⟨count, computed, same⟩ := bind_eq_ok_iff.mp counted
  cases same
  obtain ⟨nonzero, stagingBytes, read, total⟩ :=
    computeSlotCount_eq_ok_iff.mp computed
  refine ⟨⟨count.val, ?_⟩, ?_, ?_⟩
  · have enough := count.property
    omega
  · rw [computeSlotCount_eq_ok_iff]
    refine ⟨nonzero, stagingBytes, read, ?_⟩
    simp only
    omega
  · simp only
    omega

/-- A configuration that was accepted gives a reactor exactly when `torch` and
direct I/O are there, the blocks of the layout can be transferred as they are,
the memory is a finite amount, and what the reactor asks for is granted: the
pinned memory for its slots and for their alignment, the ring, the streams and
arrays of the copies, and the thread.  The reactor then has the depth and the
lookahead that were asked for, room for preloads beside its foreground reads,
slots that lie in the memory it got and take no more than was asked for or it
cannot do without; and a planner that is built from the same configuration, in
another process and from the size of a token alone, counts with as many
preload slots as the reactor has if it finds the same size of a block, and
with no more if it finds a larger one. -/
theorem reactor_configured
    (accepted : SharedFileConfig.fromExtraConfig conversions extraConfig =
      .ok config) :
    ((∃ reactor, IoReactor.init config layout outside = .ok reactor) ↔
      (outside.torchCopyAvailable = true ∧
        outside.transferCopyAvailable = true ∧ outside.hasODirect = true) ∧
      0 < layout.storageBlockBytes ∧
      layout.storageBlockBytes % directIoAlignment = 0 ∧
      ∃ gib : ℚ, config.stagingMem = .finite gib ∧
        |gib * 2 ^ 30| < 2 ^ 1024 ∧
        (∃ start, outside.emptyPinned (slotsAskedFor config layout gib *
          layout.storageBlockBytes + 4095) = .ok start) ∧
        outside.ringSetup (config.iodepth +
          config.openLookahead.getD config.iodepth + 16).toNat = .ok () ∧
        outside.copyResources (slotsAskedFor config layout gib) = .ok () ∧
        outside.startWorker = .ok ()) ∧
    ∀ reactor, IoReactor.init config layout outside = .ok reactor →
      (reactor.env.iodepth : Int) = config.iodepth ∧
      (reactor.env.openLookahead : Int) =
        config.openLookahead.getD config.iodepth ∧
      4 ≤ reactor.env.maxPreloadSlots ∧
      (∃ gib : ℚ, config.stagingMem = .finite gib ∧
        (reactor.slotCount * layout.storageBlockBytes : Int) ≤
          max ⌊gib * 2 ^ 30⌋ ((config.iodepth + max 4 (config.iodepth / 2)) *
            layout.storageBlockBytes)) ∧
      (∃ start, outside.emptyPinned
          (reactor.slotCount * layout.storageBlockBytes + 4095) = .ok start ∧
        start ≤ reactor.stagingBuffer.dataPtr ∧
        reactor.stagingBuffer.dataPtr +
            reactor.slotCount * layout.storageBlockBytes ≤
          start + (reactor.slotCount * layout.storageBlockBytes +
            4095 : Nat)) ∧
      ∀ int load path modelName curves site buildError settings,
        loadCurves int load path modelName = .ok curves →
        buildPlanner config curves site buildError = .ok settings →
        reactor.env.sharePreload = true ∧
        ∃ data kvBytesPerToken, curves = some data ∧
          data.kvBytesPerToken = some kvBytesPerToken ∧
          let ioSize := alignUp (kvBytesPerToken * site.storageBlockTokens)
          (layout.storageBlockBytes ≤ ioSize →
            settings.maxPreloadSlots ≤ reactor.env.maxPreloadSlots) ∧
          (ioSize ≤ layout.storageBlockBytes →
            reactor.env.maxPreloadSlots ≤ settings.maxPreloadSlots) := by
  have wellFormed := SharedFileConfig.wellFormed_of_accepted accepted
  have positive := wellFormed.iodepth
  refine ⟨exists_init_iff wellFormed, fun reactor built => ?_⟩
  have spec := built_of_init built
  have depth : (reactor.env.iodepth : Int) = config.iodepth := by
    have iodepth := spec.iodepth
    omega
  have nonempty := spec.nonempty
  obtain ⟨count, counted, slots⟩ := spec.slots
  have enough := reactor.env.slotsEnough
  refine ⟨depth, ?_, ?_, ?_, allocateStagingBuffer_inside spec.buffer, ?_⟩
  · rw [spec.openLookahead]
    exact openLookaheadOf_eq wellFormed depth
  · unfold Env.maxPreloadSlots
    omega
  · obtain ⟨_, stagingBytes, counts, _⟩ :=
      computeSlotCount_eq_ok_iff.mp counted
    obtain ⟨gib, set, bounded⟩ :=
      exists_toInt_timesGib_iff.mp ⟨stagingBytes, counts⟩
    have asked := (computeSlotCount_eq_ok_iff_asked wellFormed nonempty set
      bounded (by omega)).mp counted
    rw [← slots, asked]
    exact ⟨gib, set, slotsAskedFor_mul_le wellFormed nonempty⟩
  · intro int load path modelName curves site buildError settings loaded
      planned
    obtain ⟨shared, tokens, data, kvBytesPerToken, rfl, given, budget⟩ :=
      planned_of_build planned
    have perToken := loadCurves_kvBytes loaded given
    have block : 0 < kvBytesPerToken * site.storageBlockTokens :=
      Int.mul_pos perToken tokens
    have aligned := le_alignUp (kvBytesPerToken * site.storageBlockTokens)
    obtain ⟨mirror, mirrored, same⟩ := plannerPreloadSlots_eq wellFormed
      budget
    have sameDepth : reactor.env.iodepth = config.iodepth.toNat := by omega
    have least : ((reactor.env.iodepth + max 4 (reactor.env.iodepth / 2) :
        Nat) : Int) = (config.iodepth.toNat +
          max 4 (config.iodepth.toNat / 2) : Nat) := by
      rw [sameDepth]
    refine ⟨spec.sharePreload.trans shared, data, kvBytesPerToken, rfl,
      given, fun larger => ?_, fun smaller => ?_⟩
    · have fewer := computeSlotCount_antitone least (by omega) larger counted
        mirrored
      unfold Env.maxPreloadSlots
      omega
    · have fewer := computeSlotCount_antitone least.symm (by omega) smaller mirrored
        counted
      unfold Env.maxPreloadSlots
      omega

end Configured

section Examples

/-- One read at a time, four files open, and memory for two blocks. -/
def smallConfig : SharedFileConfig where
  rootDir := "/kv"
  syncOnStore := false
  iodepth := 1
  stagingMem := .finite (1 / 100000)
  enablePreload := true
  preloadShareStaging := true
  openLookahead := some 4
  stagingCache := "off"
  prefixCacheBreakEvenPath := none
  loadPlanner := "off"
  loadPlannerDeferTolerance := .finite 2
  loadPlannerDeferDeadlineMaxS := .finite 2

/-- No text is a number. -/
def noConversions : Conversions where
  intOfStr := fun text => .error (.valueError text)
  floatOfStr := fun text => .error (.valueError text)
  floatOfInt := fun number => .ok (.finite number)

/-- One layer with blocks of 4096 bytes. -/
def pageLayout : ParsedKvLayout :=
  ⟨[100000], [4096], 1, rfl, Nat.one_pos⟩

/-- Memory that starts anywhere, and a world where nothing fails. -/
def calmOutside (completions : Nat → List (Nat × Int)) : Outside where
  breakEven := ⟨0, 0⟩
  storageBlockTokens := 1
  getFileName := fun _ => ""
  raises := fun _ _ => none
  finished := fun _ => true
  completions := completions
  openedFd := fun _ => 3
  tempSuffix := fun _ => ""
  torchCopyAvailable := true
  transferCopyAvailable := true
  hasODirect := true
  emptyPinned := fun _ => .ok 5000
  ringSetup := fun _ => .ok ()
  copyResources := fun _ => .ok ()
  startWorker := .ok ()
  repr := id

/-- Five slots are the least for one read at a time. -/
theorem smallConfig_configured :
    ∃ reactor,
      IoReactor.init smallConfig pageLayout (calmOutside fun _ => []) =
        .ok reactor ∧
      4 ≤ reactor.env.maxPreloadSlots := by
  have wellFormed : smallConfig.WellFormed :=
    ⟨by decide, by decide, by decide, by decide, by decide,
      by decide +kernel, by decide +kernel, by decide +kernel⟩
  have configured := @reactor_configured noConversions
    smallConfig.toExtraConfig smallConfig pageLayout
    (calmOutside fun _ => [])
    (SharedFileConfig.fromExtraConfig_toExtraConfig wellFormed)
  obtain ⟨reactor, built⟩ := configured.1.mpr
    ⟨⟨rfl, rfl, rfl⟩, by decide, by decide, _, rfl, by decide +kernel,
      ⟨_, rfl⟩, rfl, rfl, rfl⟩
  exact ⟨reactor, built, (configured.2 reactor built).2.2.1⟩

end Examples

end PyKvCache.Setup
