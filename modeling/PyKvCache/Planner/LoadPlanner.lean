import PyKvCache.Cost.CostModel
import PyKvCache.Library.OrderedDict
import PyKvCache.Scheduler.OffloadingManager

/-!
# The load planner

`LoadPlanner` over exact arithmetic: which cached prefixes are loaded at once,
which are read ahead, and which are computed again.  The clock is an argument
of `plan`; the profiling events are left out.
-/

namespace PyKvCache.Planner

open PyKvCache.Library PyKvCache.Cost PyKvCache.Scheduler

/-! ## Reads already scheduled -/

section Staged

variable {hash : Type} [DecidableEq hash]

/-- `xs[:n]`. -/
def sliceTo {item : Type} (xs : List item) (n : Int) : List item :=
  if n < 0 then xs.take (xs.length + n).toNat else xs.take n.toNat

/-- `_distinct_count`. -/
def distinctCount (hashes : List hash) (stagedAt : OrderedDict hash ℚ) :
    Nat :=
  hashes.countP fun blockHash => ¬ stagedAt.contains blockHash

/-- The delivery of one block; the earliest one counts. -/
def recordReady (stagedAt : OrderedDict hash ℚ) (blockHash : hash)
    (readyInS : ℚ) : OrderedDict hash ℚ :=
  match stagedAt.find? blockHash with
  | none => stagedAt.set blockHash readyInS
  | some previous =>
      if readyInS < previous then
        stagedAt.set blockHash readyInS
      else
        stagedAt

/-- `_record_staged`. -/
def recordStaged (stagedAt : OrderedDict hash ℚ) (hashes : List hash)
    (startInS endInS : ℚ) : OrderedDict hash ℚ :=
  let total : ℚ := hashes.length
  let span := max 0 (endInS - startInS)
  hashes.zipIdx.foldl
    (fun stagedAt entry =>
      recordReady stagedAt entry.1 (startInS + span * (entry.2 + 1) / total))
    stagedAt

/-- `_covered_ready_in_s`. -/
def coveredReadyInS (hashes : List hash) (stagedAt : OrderedDict hash ℚ) :
    ℚ :=
  (hashes.filterMap stagedAt.find?).max?.getD 0

end Staged

/-! ## The planner -/

/-- `CandidateCostInput`; its `position` is only logged. -/
structure CandidateCostInput (hash : Type) where
  reqId : String
  recomputeTokens : Int
  loadBlocks : Int
  loadableHashes : List hash
  blockedOnStore : Bool
  predictedDramResident : Bool

/-- `PlanResult`. -/
structure PlanResult where
  decision : LoadDecision
  preloadBlocks : Int
  deriving DecidableEq

/-- The result is not a deferral. -/
def PlanResult.Settles (result : PlanResult) : Prop :=
  result.decision = .ADMIT ∨ result.decision = .DECLINE

theorem PlanResult.settles_iff {result : PlanResult} :
    result.Settles ↔ result.decision ≠ .DEFER := by
  unfold PlanResult.Settles
  cases result.decision <;> simp

/-- `_Staging`. -/
structure Staging where
  reqId : String
  serviceS : ℚ
  startsAt : ℚ
  endsAt : ℚ
  emittedBlocks : Int
  deriving DecidableEq

/-- What a planner is made with. -/
structure Config where
  tables : CostTables
  maxPreloadSlots : Nat
  deferTolerance : ℚ
  deferDeadlineMinS : ℚ
  deferDeadlineMaxS : ℚ

/-- `_STAGED_ABSENCE_LIMIT`. -/
def stagedAbsenceLimit : Nat := 4

/-- The fields of `LoadPlanner` that change. -/
structure LoadPlanner where
  entries : List Staging
  stagingByReq : OrderedDict String Staging
  staged : OrderedDict String Nat
  deadlineAt : OrderedDict String ℚ
  deadlineAbsent : OrderedDict String Nat
  decisions : OrderedDict String PlanResult

namespace LoadPlanner

/-- `LoadPlanner.__init__`, and what `reset` leaves. -/
def init : LoadPlanner :=
  ⟨[], .empty, .empty, .empty, .empty, .empty⟩

/-- `decision_for`. -/
def decisionFor (planner : LoadPlanner) (reqId : String) :
    Option LoadDecision :=
  (planner.decisions.find? reqId).map PlanResult.decision

/-- `reset`. -/
def reset (_ : LoadPlanner) : LoadPlanner :=
  init

/-- The rounds of `_retire_shadow_entries`, over the entries that are left. -/
def retireFrom (now : ℚ) (planner : LoadPlanner) :
    List Staging → LoadPlanner
  | [] => { planner with entries := [] }
  | entry :: rest =>
      if entry.endsAt ≤ now then
        retireFrom now
          { planner with
            stagingByReq := planner.stagingByReq.erase entry.reqId
            staged := planner.staged.set entry.reqId 0 }
          rest
      else
        { planner with entries := entry :: rest }

/-- `_retire_shadow_entries`. -/
def retireShadowEntries (now : ℚ) (planner : LoadPlanner) : LoadPlanner :=
  retireFrom now planner planner.entries

/-- `_shadow_residual`. -/
def shadowResidual (now : ℚ) (planner : LoadPlanner) : ℚ :=
  match planner.entries.getLast? with
  | none => 0
  | some last => max 0 (last.endsAt - now)

/-- When the next read starts. -/
def nextStart (now : ℚ) (planner : LoadPlanner) : ℚ :=
  match planner.entries.getLast? with
  | none => now
  | some last => max now last.endsAt

/-- `_append_shadow_entry`. -/
def appendShadowEntry (reqId : String) (serviceS now : ℚ)
    (emittedBlocks : Int) (planner : LoadPlanner) : LoadPlanner :=
  let startsAt := planner.nextStart now
  let entry : Staging :=
    ⟨reqId, serviceS, startsAt, startsAt + serviceS, emittedBlocks⟩
  { planner with
    entries := planner.entries ++ [entry]
    stagingByReq := planner.stagingByReq.set reqId entry }

/-- The round of `_gc_staged` for one request. -/
def gcStagedOf (candidateIds : List String) (planner : LoadPlanner)
    (reqId : String) : LoadPlanner :=
  if reqId ∈ candidateIds then
    { planner with staged := planner.staged.set reqId 0 }
  else
    let absent := (planner.staged.find? reqId).getD 0 + 1
    if stagedAbsenceLimit < absent then
      { planner with staged := planner.staged.erase reqId }
    else
      { planner with staged := planner.staged.set reqId absent }

/-- `_gc_staged`. -/
def gcStaged (candidateIds : List String) (planner : LoadPlanner) :
    LoadPlanner :=
  (planner.staged.entries.map Prod.fst).foldl (gcStagedOf candidateIds)
    planner

/-- `_arm_deadline`. -/
def armDeadline (config : Config) (reqId : String) (now predictedWaitS : ℚ)
    (planner : LoadPlanner) : ℚ × LoadPlanner :=
  match planner.deadlineAt.find? reqId with
  | some existing => (existing, planner)
  | none =>
      let grace := min config.deferDeadlineMaxS
        (max config.deferDeadlineMinS
          (config.deferTolerance * predictedWaitS))
      let deadlineAt := now + grace
      (deadlineAt,
        { planner with
          deadlineAt := planner.deadlineAt.set reqId deadlineAt })

/-- The round of `_gc_deadlines` for one request. -/
def gcDeadlineOf (candidateIds : List String) (planner : LoadPlanner)
    (reqId : String) : LoadPlanner :=
  if reqId ∈ candidateIds then
    { planner with deadlineAbsent := planner.deadlineAbsent.erase reqId }
  else
    let absent := (planner.deadlineAbsent.find? reqId).getD 0 + 1
    if stagedAbsenceLimit < absent then
      { planner with
        deadlineAt := planner.deadlineAt.erase reqId
        deadlineAbsent := planner.deadlineAbsent.erase reqId }
    else
      { planner with
        deadlineAbsent := planner.deadlineAbsent.set reqId absent }

/-- `_gc_deadlines`. -/
def gcDeadlines (candidateIds : List String) (planner : LoadPlanner) :
    LoadPlanner :=
  (planner.deadlineAt.entries.map Prod.fst).foldl
    (gcDeadlineOf candidateIds) planner

/-- `deadline_at is not None and now >= deadline_at`. -/
def expired (planner : LoadPlanner) (reqId : String) (now : ℚ) : Prop :=
  ∃ deadlineAt ∈ planner.deadlineAt.find? reqId, deadlineAt ≤ now

instance (planner : LoadPlanner) (reqId : String) (now : ℚ) :
    Decidable (planner.expired reqId now) := by
  unfold expired
  infer_instance

end LoadPlanner

/-- What the manager asks of its planner. -/
instance : Planner LoadPlanner where
  decisionFor := LoadPlanner.decisionFor
  reset := LoadPlanner.reset

/-- `_recompute_s_for_tokens`. -/
def Config.recomputeSForTokens (config : Config) (tokens : Int) : ℚ :=
  config.tables.recomputeS
    (-(Int.fdiv (-tokens) config.tables.blockTokens))

/-- `_jobs_floor`. -/
def Config.jobsFloor (config : Config) (outstandingLoadBlocks : List Int) :
    ℚ :=
  (outstandingLoadBlocks.map config.tables.serviceSOf).sum

/-- The charge for reading blocks; nothing for none of them. -/
def Config.chargeFor (config : Config) (distinct : Nat) : ℚ :=
  if distinct = 0 then 0 else config.tables.serviceSOf distinct

/-! ## One call -/

/-- The planner and the variables of a running call. -/
structure Pass (hash : Type) where
  planner : LoadPlanner
  storageWait : ℚ
  gpuWait : ℚ
  budget : Nat
  stagedAt : OrderedDict hash ℚ
  decisions : OrderedDict String PlanResult

namespace Pass

variable {hash : Type} [DecidableEq hash]

/-- `decisions[c.req_id] = PlanResult(decision, preload_blocks)`. -/
def answer (pass : Pass hash) (reqId : String) (decision : LoadDecision)
    (preloadBlocks : Int) : Pass hash :=
  { pass with
    decisions := pass.decisions.set reqId ⟨decision, preloadBlocks⟩ }

/-- The read of an outstanding entry is recorded once more. -/
def recordOutstanding (now : ℚ) (c : CandidateCostInput hash)
    (outstanding : Staging) (pass : Pass hash) : Pass hash :=
  { pass with
    stagedAt := recordStaged pass.stagedAt
      (sliceTo c.loadableHashes outstanding.emittedBlocks)
      (max 0 (outstanding.startsAt - now))
      (max 0 (outstanding.endsAt - now)) }

/-- A new read is charged to the budget and to the storage, and is put in the
queue; its delivery is recorded. -/
def scheduleRead (config : Config) (now : ℚ) (c : CandidateCostInput hash)
    (planner : LoadPlanner) (startInS endInS : ℚ) (pass : Pass hash) :
    Pass hash :=
  let distinct := distinctCount c.loadableHashes pass.stagedAt
  let serviceS := config.chargeFor distinct
  { pass with
    budget := pass.budget - distinct
    storageWait := pass.storageWait + serviceS
    planner := planner.appendShadowEntry c.reqId serviceS now c.loadBlocks
    stagedAt := recordStaged pass.stagedAt c.loadableHashes startInS
      endInS }

/-- A candidate that waits for a store. -/
def midWrite (config : Config) (now : ℚ) (c : CandidateCostInput hash)
    (pass : Pass hash) : Pass hash :=
  match pass.planner.stagingByReq.find? c.reqId with
  | some outstanding =>
      (pass.recordOutstanding now c outstanding).answer c.reqId .DEFER
        outstanding.emittedBlocks
  | none =>
      let distinct := distinctCount c.loadableHashes pass.stagedAt
      if distinct ≤ pass.budget then
        let readStartsAt := pass.storageWait
        let storageWait := pass.storageWait + config.chargeFor distinct
        (pass.scheduleRead config now c pass.planner readStartsAt
          storageWait).answer c.reqId .DEFER c.loadBlocks
      else
        pass.answer c.reqId .DEFER 0

/-- A candidate whose read is outstanding. -/
def redefer (config : Config) (now : ℚ) (c : CandidateCostInput hash)
    (outstanding : Staging) (pass : Pass hash) : Pass hash :=
  if pass.planner.expired c.reqId now then
    { pass with
      planner := { pass.planner with
        staged := pass.planner.staged.erase c.reqId } }.answer
      c.reqId .ADMIT 0
  else
    { pass with
      planner := (pass.planner.armDeadline config c.reqId now
        (max 0 (outstanding.endsAt - now))).2 }.recordOutstanding now c
          outstanding |>.answer c.reqId .DEFER outstanding.emittedBlocks

/-- When the storage would be done with the blocks of a candidate. -/
def storageDone (config : Config) (c : CandidateCostInput hash)
    (pass : Pass hash) : ℚ :=
  let distinct := distinctCount c.loadableHashes pass.stagedAt
  let coveredReady := coveredReadyInS c.loadableHashes pass.stagedAt
  if distinct = 0 then
    coveredReady
  else
    max coveredReady (pass.storageWait + config.tables.serviceSOf distinct)

/-- `t_recompute <= t_load`. -/
def recomputes (config : Config) (c : CandidateCostInput hash)
    (pass : Pass hash) : Prop :=
  pass.gpuWait + config.recomputeSForTokens c.recomputeTokens ≤
    max (pass.storageDone config c) pass.gpuWait +
      config.tables.loadMemS c.loadBlocks

instance (config : Config) (c : CandidateCostInput hash)
    (pass : Pass hash) : Decidable (pass.recomputes config c) := by
  unfold recomputes
  infer_instance

/-- A candidate that gets as far as the prices. -/
def Prices (c : CandidateCostInput hash) (pass : Pass hash) : Prop :=
  c.blockedOnStore = false ∧ c.loadBlocks ≠ 0 ∧
    ¬ (c.predictedDramResident = true ∨
      pass.planner.staged.contains c.reqId = true) ∧
    pass.planner.stagingByReq.find? c.reqId = none

instance (c : CandidateCostInput hash) (pass : Pass hash) :
    Decidable (pass.Prices c) := by
  unfold Prices
  infer_instance

/-- A candidate that is priced. -/
def price (config : Config) (now : ℚ) (c : CandidateCostInput hash)
    (pass : Pass hash) : Pass hash :=
  let distinct := distinctCount c.loadableHashes pass.stagedAt
  let coveredReady := coveredReadyInS c.loadableHashes pass.stagedAt
  let storageDone := pass.storageDone config c
  if pass.recomputes config c then
    { pass with
      gpuWait := pass.gpuWait +
        config.recomputeSForTokens c.recomputeTokens }.answer
      c.reqId .DECLINE 0
  else if pass.planner.expired c.reqId now then
    { pass with storageWait := storageDone }.answer c.reqId .ADMIT 0
  else if distinct ≤ pass.budget then
    let readStartsAt := pass.storageWait
    let storageWait := pass.storageWait + config.chargeFor distinct
    (pass.scheduleRead config now c
      (pass.planner.armDeadline config c.reqId now storageDone).2
      (max readStartsAt (if distinct = 0 then coveredReady else 0))
      (max storageWait coveredReady)).answer c.reqId .DEFER c.loadBlocks
  else
    { pass with storageWait := storageDone }.answer c.reqId .ADMIT 0

/-- The body of the loop of `plan`. -/
def turn (config : Config) (now : ℚ) (pass : Pass hash)
    (c : CandidateCostInput hash) : Pass hash :=
  if c.blockedOnStore then
    pass.midWrite config now c
  else if c.loadBlocks = 0 then
    { pass with
      gpuWait := pass.gpuWait +
        config.recomputeSForTokens c.recomputeTokens }.answer
      c.reqId .DECLINE 0
  else if c.predictedDramResident ∨
      pass.planner.staged.contains c.reqId then
    { pass with
      planner := { pass.planner with
        staged := pass.planner.staged.erase c.reqId } }.answer
      c.reqId .ADMIT 0
  else
    match pass.planner.stagingByReq.find? c.reqId with
    | some outstanding => pass.redefer config now c outstanding
    | none => pass.price config now c

end Pass

section Plan

variable {hash : Type} [DecidableEq hash]

/-- The planner once the books of earlier calls are brought up to date. -/
def LoadPlanner.startCall (now : ℚ) (candidateIds : List String)
    (planner : LoadPlanner) : LoadPlanner :=
  ((planner.retireShadowEntries now).gcStaged candidateIds).gcDeadlines
    candidateIds

/-- The variables of a call before its loop. -/
def Pass.start (config : Config) (now : ℚ) (outstandingLoadBlocks : List Int)
    (planner : LoadPlanner) : Pass hash where
  planner := planner
  storageWait := max (planner.shadowResidual now)
    (config.jobsFloor outstandingLoadBlocks)
  gpuWait := 0
  budget := config.maxPreloadSlots
  stagedAt := .empty
  decisions := .empty

/-- What a call of `plan` reads. -/
structure Call (hash : Type) where
  now : ℚ
  candidates : List (CandidateCostInput hash)
  outstandingLoadBlocks : List Int

/-- The requests of a call. -/
def Call.candidateIds (call : Call hash) : List String :=
  call.candidates.map CandidateCostInput.reqId

/-- The variables of a call before its loop. -/
def Call.start (config : Config) (planner : LoadPlanner)
    (call : Call hash) : Pass hash :=
  .start config call.now call.outstandingLoadBlocks
    (planner.startCall call.now call.candidateIds)

/-- The variables of a call after its loop. -/
def Call.finish (config : Config) (planner : LoadPlanner)
    (call : Call hash) : Pass hash :=
  call.candidates.foldl (Pass.turn config call.now)
    (call.start config planner)

/-- `plan`: the answers, and the planner after the call. -/
def LoadPlanner.plan (config : Config) (call : Call hash)
    (planner : LoadPlanner) :
    OrderedDict String PlanResult × LoadPlanner :=
  let pass := call.finish config planner
  (pass.decisions, { pass.planner with decisions := pass.decisions })

end Plan

/-! ## A small planner -/

/-- A second to read one block, four to read two of them, and no read is worse
than computing. -/
def sampleTables : CostTables where
  blockTokens := 16
  maxBlocks := 2
  fS := #v[0, 100, 100]
  gSsdS := #v[0, 1, 4]
  gMemS := #v[0, 0, 0]
  serviceS := #v[0, 1, 4]
  positive := by decide

def sampleConfig : Config where
  tables := sampleTables
  maxPreloadSlots := 8
  deferTolerance := 1
  deferDeadlineMinS := 1 / 20
  deferDeadlineMaxS := 2

theorem sampleConfig_nonnegative :
    sampleConfig.tables.Nonnegative := by
  have each : ∀ i : Fin 3, 0 ≤ sampleTables.fS[i] ∧
      0 ≤ sampleTables.gSsdS[i] ∧ 0 ≤ sampleTables.gMemS[i] ∧
      0 ≤ sampleTables.serviceS[i] := by decide +kernel
  constructor
  · intro nblocks
    exact (each _).1
  · intro nblocks
    exact (each _).2.1
  · intro nblocks
    exact (each _).2.2.1
  · intro nblocks
    exact (each _).2.2.2

/-- A candidate that is ready, with the blocks it can load. -/
def sampleCandidate (reqId : String) (hashes : List Nat) :
    CandidateCostInput Nat :=
  ⟨reqId, 16, hashes.length, hashes, false, false⟩

end PyKvCache.Planner
