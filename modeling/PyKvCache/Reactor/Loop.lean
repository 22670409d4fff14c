import PyKvCache.Reactor.Scheduling
import Mathlib.Data.Finset.Card
import Mathlib.Logic.Relation

/-!
# The reactor thread and its callers

`_intake`, `_pump_once`, `_run` and `_fail_everything`, and the three calls
other threads make.  Other threads only touch `_incoming` and `_closed`, under
the lock, and the reactor thread looks at these only when it takes an item in
and when it closes down after a crash; so a run is a sequence of steps in which
each item taken in, each finished copy and each completion is a step, and calls
of other threads come between any two of them.
-/

namespace PyKvCache.Reactor

open PyKvCache.Library PyKvCache.Staging PyKvCache.Transfer
open PyKvCache.Library.Effect

variable {slotCount : Nat} (env : Env slotCount)

/-! ## Intake -/

/-- One hash of a `_PreloadRequest`. -/
def intakePreloadHash (request : PreloadRequest)
    (entry : BlockHash × Nat) : React slotCount PUnit := do
  let state ← get
  if state.inStagingCache entry.1 then
    pure ⟨⟩
  else do
    let owned ← preloadOwn request.reqId entry.1
    if owned then
      let info : PreloadInfo :=
        { blockHash := entry.1
          preloadId := request.preloadId
          reqId := request.reqId
          fileIndex := entry.2
          totalFiles := request.blockHashes.length }
      if env.sharePreload then do
        modify fun state =>
          { state with
            preloadRefcount := state.preloadRefcount.addOne entry.1 }
        onlyIf (state.hasAnySharedState entry.1 = false) (pendingPush info)
      else if state.knownMissing.contains entry.1 then
        modify fun state =>
          { state with
            knownMissing :=
              (state.knownMissing.pushBack entry.1 info).moveToEnd entry.1 }
      else
        pendingPush info
    else
      pure ⟨⟩

/-- The hashes of a request whose pairs are new when it is taken in. -/
def State.newDemands (state : State slotCount) (reqId : String)
    (hashes : List BlockHash) : Finset BlockHash :=
  (hashes.filter fun hash =>
    !state.inStagingCache hash &&
      !state.preloadOwned.contains (reqId, hash)).toFinset

/-- The owned pairs stay within their cap when these hashes are taken in. -/
def State.DemandsFit (state : State slotCount) (reqId : String)
    (hashes : List BlockHash) : Prop :=
  state.preloadOwned.entries.length + (state.newDemands reqId hashes).card ≤
    Env.maxPreloadOwned

/-- `_should_decline_load`. -/
def State.shouldDeclineLoad (state : State slotCount) (job : Job) : Bool :=
  let prefixTokens := job.totalFiles * env.storageBlockTokens
  if prefixTokens ≤ 0 then
    false
  else
    !env.breakEven.shouldLoad prefixTokens
      (job.blockHashes.all (state.preloadHasCopy env))

/-- `_decline_load`. -/
def declineLoad (job : Job) : React slotCount PUnit := do
  addEvent env .declineLoad
  modifyJob job fun fields =>
    { fields with
      futureSet := true
      future := some (.exception
        (.loadDeclined job.blockChunks.flatten job.reqId)) }

/-- The missed preloads a new store of their block re-arms. -/
def State.rearmed (state : State slotCount) (producer : String)
    (hash : BlockHash) : List PreloadInfo :=
  let missed := state.knownMissing.queue hash
  if env.sharePreload then
    if 0 < state.preloadRefcount.count hash then missed else []
  else
    missed.filter fun info => info.reqId ≠ producer

/-- One hash of a store job. -/
def intakeStoreHash (job : Job) (hash : BlockHash) :
    React slotCount PUnit := do
  onlyIf (env.sharePreload = true) (sharedDecref env job.reqId hash)
  modify fun state =>
    { state with
      knownMissing := state.knownMissing.erase hash
      preloadBlockedOnWrite :=
        state.preloadBlockedOnWrite.extend hash
          (state.rearmed env job.reqId hash)
      storeInflight := state.storeInflight.addOne hash }

/-- `self._active.append(job)`. -/
def activate (job : Job) : React slotCount PUnit :=
  modify fun state => { state with active := state.active ++ [job] }

/-- The job part of `_intake`. -/
def intakeJob (job : Job) : React slotCount PUnit := do
  let state ← get
  if job.isStore then do
    job.blockHashes.forM (intakeStoreHash env job)
    activate job
  else if env.breakEven.enabled && state.shouldDeclineLoad env job then
    declineLoad env job
  else do
    job.blockHashes.forM fun hash =>
      modify fun state =>
        { state with knownMissing := state.knownMissing.erase hash }
    activate job

/-- The tables the stop marker clears once their slots are released. -/
def State.cleared (state : State slotCount) : State slotCount :=
  { state with
    preloadRefcount := .empty
    preloadCachedTotal := 0
    preloadInflightTotal := 0
    preloadPending := []
    preloadPendingCount := .empty
    preloadPendingCancel := .empty
    preloadOwned := .empty
    preloadBlockedOnWrite := .empty
    knownMissing := .empty }

/-- The stop marker gives the preload slots back. -/
def releasePreloadSlots : React slotCount PUnit := do
  let state ← get
  state.preloadSlots.pairs.forM fun entry => release entry.2.1
  modify fun state => { state with preloadSlots := .empty }
  state.sharedCached.values.forM fun slot => release slot.slotIndex
  modify fun state => { state with sharedCached := .empty }

/-- The stop marker empties the staging cache. -/
def drainStagingCache : React slotCount PUnit := do
  let state ← get
  match state.stagingCache with
  | none => pure ⟨⟩
  | some cache => do
      modify fun state => { state with stagingCache := some cache.drain.2 }
      cache.drain.1.forM release
      onlyIf (cache.slots.entries ≠ [])
        (addEvent env .cacheRetainedAtShutdown)

/-- The stop part of `_intake`. -/
def intakeStop : React slotCount PUnit := do
  modify fun state => { state with stop := true }
  let state ← get
  onlyIf (state.preloadCachedTotal ≠ 0)
    (addEvent env .preloadUnclaimedAtShutdown)
  releasePreloadSlots
  drainStagingCache env
  modify State.cleared
  let state ← get
  state.preloadWaiters.pairs.forM fun entry =>
    fileTerminal env entry.2 (some (.runtimeError "reactor shutting down"))
  modify fun state => { state with preloadWaiters := .empty }

/-- `_intake`. -/
def intake (item : Item) : React slotCount PUnit :=
  match item with
  | .stop => intakeStop env
  | .preload request =>
      request.blockHashes.zipIdx.forM (intakePreloadHash env request)
  | .job job => intakeJob env job

/-! ## The pump -/

/-- `_has_work`. -/
def State.hasWork (state : State slotCount) : Bool :=
  !state.active.isEmpty ||
    !state.inflight.entries.isEmpty ||
    !state.pendingCopies.isEmpty ||
    !state.copyReady.isEmpty ||
    !state.preloadPending.isEmpty ||
    !state.preloadSlots.dict.entries.isEmpty ||
    !state.sharedCached.entries.isEmpty ||
    !state.readyFdsLoad.isEmpty ||
    !state.readyFdsPreload.isEmpty

/-- `_pump_once`. -/
def pumpOnce : React slotCount PUnit := do
  drainCudaCopies env
  pollRingCompletions env
  scheduleWork env
  flushCopyBatch env
  external env .submitPending
  finishJobs

/-! ## The crash handler -/

/-- Fail a job whose `future_set` flag is down. -/
def failUnset (exc : Exc) (job : Job) : React slotCount PUnit :=
  modifyJob job fun fields =>
    if fields.futureSet then
      fields
    else
      { fields with
        futureSet := true
        future := some (.exception exc) }

/-- `_fail_everything` up to the lock. -/
def failActive (exc : Exc) : React slotCount PUnit := do
  modify fun state => { state with stop := true }
  let state ← get
  state.active.forM (failUnset (.crashed exc))
  modify fun state => { state with active := [] }
  state.preloadWaiters.pairs.forM fun entry =>
    failUnset (.crashed exc) entry.2.job
  modify fun state => { state with preloadWaiters := .empty }

/-- The part of `_fail_everything` under the lock. -/
def failIncoming (exc : Exc) : React slotCount PUnit := do
  modify fun state => { state with closed := true }
  let state ← get
  modify fun state => { state with incoming := [] }
  state.incoming.forM fun item =>
    match item with
    | .job job => failUnset (.crashed exc) job
    | _ => pure ⟨⟩

/-! ## Other threads -/

namespace State

/-- `submit_job`. -/
def submitJob (job : Job) (state : State slotCount) : State slotCount :=
  if state.closed then
    state.updateJob job fun fields =>
      if fields.futureSet then
        fields
      else
        { fields with
          futureSet := true
          future :=
            some (.exception (.runtimeError "reactor is shut down")) }
  else
    { state with
      incoming := state.incoming ++ [.job job]
      accepted := state.accepted ++ [job] }

/-- `enqueue_preload`. -/
def enqueuePreload (request : PreloadRequest) (state : State slotCount) :
    State slotCount :=
  if state.closed then
    state
  else
    { state with incoming := state.incoming ++ [.preload request] }

/-- The part of `shutdown` under the lock. -/
def shutdown (state : State slotCount) : State slotCount :=
  if state.closed then
    state
  else
    { state with
      closed := true
      incoming := state.incoming ++ [.stop] }

end State

/-! ## Runs -/

/-- Where the reactor thread is. -/
inductive Phase (slotCount : Nat) where
  | loopHead
  | incoming
  | copies (todo : List (CopyOp slotCount))
  | poll
  | completions (todo : List (Nat × Int))
  | scheduling
  | flushing
  | submitting
  | finishing
  | crashed (exc : Exc)
  | closing (exc : Exc)
  | dead
  | exited
  deriving DecidableEq

/-- The reactor thread between two of its steps, and the state it shares. -/
structure Machine (slotCount : Nat) where
  phase : Phase slotCount
  state : State slotCount

namespace Machine

/-- The machine after `__init__`. -/
def init : Machine slotCount :=
  ⟨.loopHead, State.init env⟩

/-- Run a part of the loop; an exception ends in the crash handler. -/
def perform (program : React slotCount PUnit) (next : Phase slotCount)
    (state : State slotCount) : Machine slotCount :=
  match program state with
  | .ok _ final => ⟨next, final⟩
  | .error exc final => ⟨.crashed exc, final⟩

/-- The exit test of `_run`, and where the thread goes on. -/
def unlessDone (next : Phase slotCount) (state : State slotCount) :
    Machine slotCount :=
  if state.stop && !state.hasWork then
    ⟨.exited, state⟩
  else
    ⟨next, state⟩

/-- The next step of the reactor thread. -/
def advance (machine : Machine slotCount) : Machine slotCount :=
  let state := machine.state
  match machine.phase with
  | .loopHead => unlessDone .incoming state
  | .incoming =>
      match state.incoming with
      | [] => unlessDone (.copies state.pendingCopies) state
      | item :: later =>
          perform (intake env item) .incoming
            { state with incoming := later }
  | .copies [] => ⟨.poll, state⟩
  | .copies (copy :: todo) =>
      perform (drainCudaCopy env copy) (.copies todo) state
  | .poll =>
      match pollAll env state with
      | .ok completions final => ⟨.completions completions, final⟩
      | .error exc final => ⟨.crashed exc, final⟩
  | .completions [] => ⟨.scheduling, state⟩
  | .completions (completion :: todo) =>
      perform (reapCompletion env completion) (.completions todo) state
  | .scheduling => perform (scheduleWork env) .flushing state
  | .flushing => perform (flushCopyBatch env) .submitting state
  | .submitting => perform (external env .submitPending) .finishing state
  | .finishing => perform finishJobs .loopHead state
  | .crashed exc => perform (failActive exc) (.closing exc) state
  | .closing exc => perform (failIncoming exc) .dead state
  | .dead => machine
  | .exited => machine

/-- A step of the reactor thread or a call of another thread.  Every call of
`submit_job` brings a new job object. -/
inductive Step : Machine slotCount → Machine slotCount → Prop
  | advance (machine : Machine slotCount) :
      Step machine (machine.advance env)
  | submit (machine : Machine slotCount) (job : Job)
      (new : job ∉ machine.state.accepted) :
      Step machine ⟨machine.phase, machine.state.submitJob job⟩
  | preload (machine : Machine slotCount) (request : PreloadRequest) :
      Step machine ⟨machine.phase, machine.state.enqueuePreload request⟩
  | shutdown (machine : Machine slotCount) :
      Step machine ⟨machine.phase, machine.state.shutdown⟩

/-- Reachable by steps that each start in a machine meeting `condition`. -/
def ReachableUnder (condition : Machine slotCount → Prop)
    (machine : Machine slotCount) : Prop :=
  Relation.ReflTransGen
    (fun before after => condition before ∧ Step env before after)
    (init env) machine

/-- Reachable by any steps. -/
def Reachable (machine : Machine slotCount) : Prop :=
  Relation.ReflTransGen (Step env) (init env) machine

variable {env}

theorem ReachableUnder.reachable {condition : Machine slotCount → Prop}
    {machine : Machine slotCount}
    (reached : ReachableUnder env condition machine) :
    Reachable env machine := by
  induction reached with
  | refl => exact Relation.ReflTransGen.refl
  | tail _ step inductionHypothesis =>
      exact inductionHypothesis.tail step.2

/-- A condition that always holds holds before every step. -/
theorem Reachable.under {condition : Machine slotCount → Prop}
    {machine : Machine slotCount} (reached : Reachable env machine)
    (always : ∀ before, condition before) :
    ReachableUnder env condition machine := by
  induction reached with
  | refl => exact Relation.ReflTransGen.refl
  | tail _ step inductionHypothesis =>
      exact inductionHypothesis.tail ⟨always _, step⟩

end Machine

end PyKvCache.Reactor
