import PyKvCache.Crash.Settled
import PyKvCache.Reactor.Script

/-!
# After a crash

What `_fail_everything` leaves behind: every job that was ever accepted is
resolved, and `submit_job` fails every later one.
-/

namespace PyKvCache.Crash

open PyKvCache.Library PyKvCache.Staging PyKvCache.Transfer
open PyKvCache.Reactor PyKvCache.Ledger PyKvCache.Library.Effect

variable {slotCount : Nat} {env : Env slotCount} {state : State slotCount}
  {machine : Machine slotCount} {job : Job} {hash : BlockHash}

/-! ## Intake -/

/-- A program that does not raise. -/
private abbrev Returns (program : React slotCount PUnit)
    (state : State slotCount) : Prop :=
  wp program (fun _ _ => True) (fun _ _ => False) state

/-- A block that goes to the staging cache is inserted: it is not there
already. -/
def InsertsBlock (state : State slotCount) (hash : BlockHash)
    (slot : Fin slotCount) : Prop :=
  ∃ cache ∈ state.stagingCache, (cache.put hash slot).1 ≠ some slot

/-- When a request withdraws its demand for a block, the shared slot is
inserted into the staging cache: nobody else demands it, and no copy reads
it. -/
def RetiresShared (env : Env slotCount) (state : State slotCount)
    (reqId : String) (hash : BlockHash) : Prop :=
  env.sharePreload = true ∧
    state.preloadOwned.contains (reqId, hash) = true ∧
    state.preloadRefcount.count hash ≤ 1 ∧
    ∃ slot ∈ state.sharedCached.find? hash,
      (state.shared slot).copiesInflight ≤ 0 ∧
      InsertsBlock state slot.blockHash slot.slotIndex

theorem releaseOrCache_returns {slot : Fin slotCount}
    (silent : InsertsBlock state hash slot →
      env.raises (.addEvent .cacheInsert) state.calls = none) :
    Returns (releaseOrCache env hash slot) state := by
  unfold releaseOrCache
  simp only [wp_bind, wp_get]
  cases cached : state.stagingCache with
  | none => trivial
  | some cache =>
      simp only [wp_bind, wp_modify]
      have released (slots : List (Fin slotCount))
          (current : State slotCount) (same : current.calls = state.calls) :
          wp (slots.forM release)
            (fun _ (next : State slotCount) => next.calls = state.calls)
            (fun _ _ => False) current := by
        refine wp_forM (fun _ (next : State slotCount) =>
          next.calls = state.calls)
          (fun _ _ _ kept => ?_) slots same
        exact kept
      refine wp_post (released _ _ rfl) fun _ next same => ?_
      rw [wp_onlyIf]
      refine ⟨fun inserted => ?_, fun _ => trivial⟩
      unfold addEvent
      rw [wp_external, same, silent ⟨cache, cached, inserted⟩]
      exact ⟨fun _ => trivial, fun _ raised => by cases raised⟩

theorem sharedUncache_same {slot : SharedSlot slotCount} :
    wp (sharedUncache slot)
      (fun _ next => next.calls = state.calls ∧
        next.stagingCache = state.stagingCache ∧
        (next.shared slot).copiesInflight =
          (state.shared slot).copiesInflight)
      (fun _ _ => False) state := by
  unfold sharedUncache modifyShared
  simp only [wp_bind, wp_modify]
  split <;> simp [State.updateShared]

theorem sharedDecref_returns {reqId : String}
    (sharing : env.sharePreload = true)
    (silent : RetiresShared env state reqId hash →
      env.raises (.addEvent .cacheInsert) state.calls = none) :
    Returns (sharedDecref env reqId hash) state := by
  unfold sharedDecref
  simp only [wp_bind, wp_get, wp_ite, wp_modify]
  refine ⟨fun owned => ⟨fun _ => trivial, fun few => ?_⟩, fun _ => trivial⟩
  cases found : state.sharedCached.find? hash with
  | none => trivial
  | some slot =>
      refine wp_seq sharedUncache_same fun _ next same => ?_
      obtain ⟨calls, cache, copies⟩ := same
      simp only [maybeReleaseShared, wp_bind, wp_get, wp_ite]
      refine ⟨fun _ => trivial, fun free => releaseOrCache_returns ?_⟩
      rintro ⟨current, present, inserted⟩
      rw [calls]
      rw [cache] at present
      have none := not_lt.mp (not_or.mp free).2
      rw [copies] at none
      exact silent ⟨sharing, owned, not_lt.mp few, slot, found, none, current,
        present, inserted⟩

theorem intakeStoreHash_returns
    (silent : RetiresShared env state job.reqId hash →
      env.raises (.addEvent .cacheInsert) state.calls = none) :
    Returns (intakeStoreHash env job hash) state := by
  unfold intakeStoreHash
  simp only [wp_bind, wp_onlyIf, wp_modify]
  exact ⟨fun sharing => sharedDecref_returns sharing silent, fun _ => trivial⟩

/-- No profiler event that taking a job in emits raises: the declined load,
and for a store each insertion into the staging cache when it withdraws the
demand of its request. -/
def TakesIn (env : Env slotCount) (job : Job) (state : State slotCount) :
    Prop :=
  if job.isStore then
    ∀ turn ∈ turns (intakeStoreHash env job) job.blockHashes state,
      RetiresShared env turn.2 job.reqId turn.1 →
        env.raises (.addEvent .cacheInsert) turn.2.calls = none
  else
    (env.breakEven.enabled && state.shouldDeclineLoad env job) = true →
      env.raises (.addEvent .declineLoad) state.calls = none

theorem takesIn_of_silent
    (silent : ∀ name number, env.raises (.addEvent name) number = none) :
    TakesIn env job state := by
  unfold TakesIn
  split
  · exact fun _ _ _ => silent _ _
  · exact fun _ => silent _ _

theorem activate_settled (settled : Settled [job] state) :
    Settled [] { state with active := state.active ++ [job] } := by
  refine ⟨settled.flagged, fun other known unresolved => ?_⟩
  have found := settled.listed other known unresolved
  simp only [List.mem_append, List.not_mem_nil, or_false]
  exact found

/-- A declined load is resolved. -/
theorem declineLoad_settled (settled : Settled [job] state)
    (silent : env.raises (.addEvent .declineLoad) state.calls = none) :
    wp (declineLoad env job) (fun _ next => Settled [] next)
      (fun _ _ => False) state := by
  unfold declineLoad addEvent modifyJob
  simp only [wp_bind, wp_external, wp_modify]
  refine ⟨fun _ => settled.resolve _ (by simp), fun fault raised => ?_⟩
  rw [silent] at raised
  cases raised

/-- The hashes of a store job, one after the other. -/
theorem intakeStoreHashes_settled (emits : env.Emits)
    (settled : Settled [job] state)
    (silent : ∀ turn ∈ turns (intakeStoreHash env job) job.blockHashes state,
      RetiresShared env turn.2 job.reqId turn.1 →
        env.raises (.addEvent .cacheInsert) turn.2.calls = none) :
    wp (job.blockHashes.forM (intakeStoreHash env job))
      (fun _ next => Settled [job] next) (fun _ _ => False) state := by
  refine wp_forM_turns (Settled [job]) job.blockHashes
    (fun turn member findable => ?_) settled
  have kept := (settled_framed emits [job]).intakeStoreHash_keeps job turn.1
    turn.2 findable
  exact wp_mono (wp_and kept (intakeStoreHash_returns (silent turn member)))
    (fun _ _ reached => reached.1) fun _ _ reached => reached.2

/-- A job that is taken in is active or resolved afterwards. -/
theorem intakeJob_settled (emits : env.Emits)
    (settled : Settled [job] state)
    (takes : TakesIn env job state) :
    wp (intakeJob env job) (fun _ next => Settled [] next)
      (fun _ _ => False) state := by
  unfold TakesIn at takes
  unfold intakeJob activate
  simp only [wp_bind, wp_get, wp_ite]
  refine ⟨fun isStore => ?_, fun isLoad => ⟨fun declined => ?_, fun _ => ?_⟩⟩
  · rw [if_pos isStore] at takes
    exact wp_post (intakeStoreHashes_settled emits settled takes)
      fun _ _ findable => activate_settled findable
  · rw [if_neg isLoad] at takes
    exact declineLoad_settled settled (takes declined)
  · refine wp_post (wp_forM (fun _ => Settled [job])
      (fun _ _ _ findable => ?_) _ settled)
      fun _ _ findable => activate_settled findable
    exact findable

/-- An item leaves the queue and is taken in. -/
theorem intake_settled {item : Item} {later : List Item}
    (emits : env.Emits) (settled : Settled [] state)
    (first : state.incoming = item :: later)
    (takes : ∀ job, item = .job job →
      TakesIn env job { state with incoming := later }) :
    wp (intake env item) (fun _ next => Settled [] next)
      (fun _ next => Settled [] next) { state with incoming := later } := by
  have taken : SettledIn item.toJob.toList state.jobs state.active later
      state.accepted := by
    refine SettledIn.takeItem ?_
    rw [← first]
    exact settled
  cases item with
  | stop =>
      exact (settled_framed emits []).intakeStop_post taken
  | preload request =>
      exact Keeps.forM
        ((settled_framed emits []).intakePreloadHash_keeps request) _ taken
  | job job =>
      have handled : Settled [job] { state with incoming := later } := taken
      exact wp_mono (intakeJob_settled emits handled (takes job rfl))
        (fun _ _ findable => findable) fun _ _ => False.elim

theorem finishJobs_keeps :
    Findable [] (finishJobs : React slotCount PUnit) := by
  refine .modify fun state settled => ?_
  refine ⟨settled.flagged, fun job known unresolved => ?_⟩
  rcases settled.listed job known unresolved with queued | active | none
  · exact Or.inl queued
  · refine Or.inr (Or.inl (List.mem_filter.mpr ⟨active, ?_⟩))
    have unset : (state.jobs job).futureSet = false := by
      by_contra set
      rw [Bool.not_eq_false] at set
      exact settled.flagged job set unresolved
    simp [JobState.finished, unset]
  · exact Or.inr (Or.inr none)

/-! ## The crash handler -/

/-- A job that the crash handler fails is resolved, and stays so. -/
theorem failUnset_settled {exc : Exc} {out active : List Job}
    {incoming : List Item}
    (settled : SettledIn (job :: out) state.jobs active incoming
      state.accepted) :
    wp (failUnset exc job)
      (fun _ next =>
        SettledIn out next.jobs active incoming next.accepted ∧
          next.active = state.active ∧ next.incoming = state.incoming ∧
          next.closed = state.closed)
      (fun _ _ => False) state := by
  unfold failUnset modifyJob
  refine ⟨settled.resolve _ ?_, rfl, rfl, rfl⟩
  dsimp only
  split
  next set => exact settled.flagged job set
  next => exact nofun

theorem failActive_settled {exc : Exc} (settled : Settled [] state) :
    wp (failActive exc)
      (fun _ next => Settled [] next ∧ next.active = [])
      (fun _ _ => False) state := by
  unfold failActive
  simp only [wp_bind, wp_get, wp_modify]
  have listed : SettledIn state.active state.jobs [] state.incoming
      state.accepted := by
    refine ⟨settled.flagged, fun job known unresolved => ?_⟩
    have found := settled.listed job known unresolved
    simp only [List.not_mem_nil, or_false, false_or] at found ⊢
    exact found
  refine wp_post (wp_forM (fun later (next : State slotCount) =>
    SettledIn later next.jobs [] next.incoming next.accepted)
    (fun job later current kept => ?_) state.active listed) ?_
  · refine wp_post (failUnset_settled kept) ?_
    rintro _ next ⟨resolved, _, incoming, _⟩
    rwa [incoming]
  intro _ next resolved
  refine wp_post (wp_forM (fun _ (next : State slotCount) =>
    SettledIn [] next.jobs [] next.incoming next.accepted ∧
      next.active = [])
    (fun entry _ current kept => ?_) _ ⟨resolved, rfl⟩) ?_
  · refine wp_post (failUnset_settled
      (kept.1.weaken (List.nil_subset [entry.2.job]))) ?_
    rintro _ last ⟨again, active, incoming, _⟩
    rw [incoming, active]
    exact ⟨again, kept.2⟩
  · rintro _ last ⟨again, none⟩
    refine ⟨?_, none⟩
    simp only [Settled, none]
    exact again

theorem failIncoming_settled {exc : Exc} (settled : Settled [] state)
    (none : state.active = []) :
    wp (failIncoming exc)
      (fun _ next => SettledIn [] next.jobs [] [] next.accepted ∧
        next.closed = true)
      (fun _ _ => False) state := by
  unfold failIncoming
  simp only [wp_bind, wp_get, wp_modify]
  rw [Settled, none] at settled
  refine wp_forM (fun later (next : State slotCount) =>
    SettledIn [] next.jobs [] later next.accepted ∧ next.closed = true)
    (fun item later current kept => ?_) state.incoming ⟨settled, rfl⟩
  have taken := kept.1.takeItem
  cases item with
  | job job =>
      refine wp_post (failUnset_settled taken) ?_
      rintro _ next ⟨resolved, _, _, closed⟩
      exact ⟨resolved, closed.trans kept.2⟩
  | preload request => exact ⟨taken, kept.2⟩
  | stop => exact ⟨taken, kept.2⟩

/-! ## Runs -/

/-- The condition on the job that the next step takes in, if it takes one. -/
def TakesJobsIn (env : Env slotCount) (machine : Machine slotCount) : Prop :=
  machine.phase = .incoming →
    ∀ job later, machine.state.incoming = .job job :: later →
      TakesIn env job { machine.state with incoming := later }

/-- No caller waits for a thread that is gone: what was accepted is resolved,
and what is submitted next is not accepted but failed. -/
structure NobodyStranded (state : State slotCount) : Prop where
  resolved : ∀ job ∈ state.accepted, (state.jobs job).future ≠ none
  refused : ∀ job, (state.submitJob job).accepted = state.accepted ∧
    (state.submitJob job).incoming = state.incoming
  answered : ∀ job, ((state.submitJob job).jobs job).future ≠ none
  failed : ∀ job, (state.jobs job).futureSet = false →
    ((state.submitJob job).jobs job).future =
      some (.exception (.runtimeError "reactor is shut down"))

/-- What holds of the jobs between any two steps. -/
def Recoverable (machine : Machine slotCount) : Prop :=
  match machine.phase with
  | .closing _ => Settled [] machine.state ∧ machine.state.active = []
  | .dead =>
      SettledIn [] machine.state.jobs [] [] machine.state.accepted ∧
        machine.state.closed = true
  | _ => Settled [] machine.state

theorem perform_recoverable {program : React slotCount PUnit}
    {next : Phase slotCount}
    (holds : wp program (fun _ final => Recoverable ⟨next, final⟩)
      (fun _ final => Settled [] final) state) :
    Recoverable (Machine.perform program next state) := by
  unfold wp at holds
  unfold Machine.perform
  split at holds
  next returned => rwa [returned]
  next raised =>
    rw [raised]
    exact holds

theorem unlessDone_recoverable {next : Phase slotCount}
    (holds : Recoverable ⟨next, state⟩) (settled : Settled [] state) :
    Recoverable (Machine.unlessDone next state) := by
  unfold Machine.unlessDone
  split
  · exact settled
  · exact holds

/-- One step of the reactor thread. -/
theorem advance_recoverable (emits : env.Emits)
    (takes : TakesJobsIn env machine) (before : Recoverable machine) :
    Recoverable (machine.advance env) := by
  obtain ⟨phase, state⟩ := machine
  have detached := settled_detached emits []
  have settles := fun file => fileTerminal_keeps emits [] file none
  have framed := detached.framed
  unfold Machine.advance
  cases phase with
  | loopHead => exact unlessDone_recoverable before before
  | incoming =>
      dsimp only
      split
      next => exact unlessDone_recoverable before before
      next item later first =>
        refine perform_recoverable (intake_settled emits before first ?_)
        rintro job rfl
        exact takes rfl job later first
  | copies todo =>
      cases todo with
      | nil => exact before
      | cons copy todo =>
          exact perform_recoverable
            (detached.drainCudaCopy_keeps settles _ _ before)
  | poll =>
      have polled := framed.pollAll_keeps state before
      unfold wp at polled
      dsimp only
      split at polled
      next returned => rwa [returned]
      next raised => rwa [raised]
  | completions todo =>
      cases todo with
      | nil => exact before
      | cons completion todo =>
          exact perform_recoverable
            (detached.reapCompletion_keeps settles _ _ before)
  | scheduling =>
      exact perform_recoverable (detached.scheduleWork_keeps _ before)
  | flushing =>
      exact perform_recoverable (framed.flushCopyBatch_keeps
        settles (fun _ settled => settled) _ before)
  | submitting =>
      exact perform_recoverable (framed.external_keeps _ _ before)
  | finishing => exact perform_recoverable (finishJobs_keeps _ before)
  | crashed exc =>
      exact perform_recoverable (wp_mono (failActive_settled before)
        (fun _ _ reached => reached) fun _ _ => False.elim)
  | closing exc =>
      exact perform_recoverable
        (wp_mono (failIncoming_settled before.1 before.2)
          (fun _ _ reached => reached) fun _ _ => False.elim)
  | dead => exact before
  | exited => exact before

/-- `submit_job` on a reactor that is closed takes no result back. -/
theorem submitJob_closed (job : Job) {out active : List Job}
    {incoming : List Item} (closed : state.closed = true)
    (settled : SettledIn out state.jobs active incoming state.accepted) :
    SettledIn out (state.submitJob job).jobs active incoming
      (state.submitJob job).accepted := by
  rw [State.submitJob, if_pos closed]
  refine settled.update job ?_ ?_
  · dsimp only
    split
    next set => exact fun _ => settled.flagged job set
    next => exact fun _ => nofun
  · dsimp only
    split
    next => exact id
    next => exact fun _ => nofun

theorem submitJob_settled (settled : Settled [] state) :
    Settled [] (state.submitJob job) := by
  by_cases closed : state.closed = true
  · have kept := submitJob_closed job closed settled
    rw [State.submitJob, if_pos closed] at kept ⊢
    exact kept
  · rw [State.submitJob, if_neg closed]
    refine ⟨settled.flagged, fun other known unresolved => ?_⟩
    rw [List.filterMap_append, List.mem_append]
    rcases List.mem_append.mp known with accepted | same
    · rcases settled.listed other accepted unresolved with queued | found
      · exact Or.inl (Or.inl queued)
      · exact Or.inr found
    · exact Or.inl (Or.inr same)

/-- An item without a job joins the queue. -/
theorem queued_settled {item : Item} (settled : Settled [] state)
    (noJob : item.toJob = none) :
    SettledIn [] state.jobs state.active (state.incoming ++ [item])
      state.accepted := by
  refine ⟨settled.flagged, fun other known unresolved => ?_⟩
  rw [List.filterMap_append, List.filterMap_cons_none noJob,
    List.filterMap_nil, List.append_nil]
  exact settled.listed other known unresolved

theorem enqueuePreload_settled {request : PreloadRequest}
    (settled : Settled [] state) :
    Settled [] (state.enqueuePreload request) := by
  unfold State.enqueuePreload
  split
  · exact settled
  · exact queued_settled settled rfl

theorem shutdown_settled (settled : Settled [] state) :
    Settled [] state.shutdown := by
  unfold State.shutdown
  split
  · exact settled
  · exact queued_settled settled rfl

/-- A call of another thread, while the thread runs and after its crash. -/
theorem call_recoverable {change : State slotCount → State slotCount}
    (settles : Settled [] machine.state → Settled [] (change machine.state))
    (sameActive : (change machine.state).active = machine.state.active)
    (refuses : machine.state.closed = true →
      SettledIn [] machine.state.jobs [] [] machine.state.accepted →
      SettledIn [] (change machine.state).jobs [] []
          (change machine.state).accepted ∧
        (change machine.state).closed = true)
    (before : Recoverable machine) :
    Recoverable ⟨machine.phase, change machine.state⟩ := by
  obtain ⟨phase, state⟩ := machine
  cases phase with
  | closing exc => exact ⟨settles before.1, sameActive.trans before.2⟩
  | dead => exact refuses before.2 before.1
  | _ => exact settles before

theorem step_recoverable {after : Machine slotCount} (emits : env.Emits)
    (takes : TakesJobsIn env machine) (step : Machine.Step env machine after)
    (before : Recoverable machine) : Recoverable after := by
  cases step with
  | advance => exact advance_recoverable emits takes before
  | submit job _ =>
      refine call_recoverable submitJob_settled ?_ (fun closed settled => ?_)
        before
      · unfold State.submitJob
        split <;> rfl
      · refine ⟨submitJob_closed job closed settled, ?_⟩
        rw [State.submitJob, if_pos closed]
        exact closed
  | preload request =>
      refine call_recoverable enqueuePreload_settled ?_
        (fun closed settled => ?_) before
      · unfold State.enqueuePreload
        split <;> rfl
      · rw [State.enqueuePreload, if_pos closed]
        exact ⟨settled, closed⟩
  | shutdown =>
      refine call_recoverable shutdown_settled ?_
        (fun closed settled => ?_) before
      · unfold State.shutdown
        split <;> rfl
      · rw [State.shutdown, if_pos closed]
        exact ⟨settled, closed⟩

/-- The run lemma: the jobs stay recoverable in every run. -/
theorem reachable_recoverable (emits : env.Emits)
    (reached : Machine.ReachableUnder env (TakesJobsIn env) machine) :
    Recoverable machine := by
  induction reached with
  | refl => exact ⟨fun _ => nofun, fun _ => nofun⟩
  | tail _ step inductionHypothesis =>
      exact step_recoverable emits step.1 step.2 inductionHypothesis

/-- Once `_fail_everything` has run, no caller is left waiting, as long as
the transfer events of a job are emitted without raising and so are the
profiler events of its intake. -/
theorem nobodyStranded (emits : env.Emits)
    (reached : Machine.ReachableUnder env (TakesJobsIn env) machine)
    (dead : machine.phase = .dead) : NobodyStranded machine.state := by
  have recoverable := reachable_recoverable emits reached
  simp only [Recoverable, dead] at recoverable
  obtain ⟨settled, closed⟩ := recoverable
  refine ⟨fun job known unresolved => ?_, fun job => ?_, fun job => ?_,
    fun job unset => ?_⟩
  · have found := settled.listed job known unresolved
    simp at found
  · rw [State.submitJob, if_pos closed]
    exact ⟨rfl, rfl⟩
  · rw [State.submitJob, if_pos closed]
    simp only [State.updateJob, Function.update_self]
    split
    next set => exact settled.flagged job set
    next => simp
  · rw [State.submitJob, if_pos closed]
    simp [State.updateJob, unset]

section Examples

/-- A world where one kind of call raises, and every open fails. -/
def raising (call : ExtCall) : Env 5 :=
  { Env.smooth true fun calls => if calls = 3 then [(1, -2)] else [] with
    raises := fun made _ => if made = call then some .other else none }

/-- A load of one file. -/
def lonelyLoad (oid : Nat) : Job :=
  .ofChunk oid false [1] [7]

theorem raising_takesJobsIn {call : ExtCall} {machine : Machine 5}
    (other : ∀ name, ExtCall.addEvent name ≠ call) :
    TakesJobsIn (raising call) machine :=
  fun _ _ _ _ => takesIn_of_silent fun name _ => if_neg (other name)

/-- The poll raises while a job is active and another one is queued. -/
def crashedPoll : List Event :=
  .submit (lonelyLoad 0) :: List.replicate 4 .advance ++
    .submit (lonelyLoad 1) :: List.replicate 3 .advance

theorem crashedPoll_nobodyStranded :
    NobodyStranded ((Machine.init (raising .pollAll)).play
      (raising .pollAll) crashedPoll).state :=
  nobodyStranded (fun _ _ => rfl)
    ((Machine.reachable_play _ (by decide)).under
      fun _ => raising_takesJobsIn nofun)
    (by decide)

/-- The only file of a job fails and `emit_transfer_events` raises: the flag
of the job is up already, so the crash handler leaves its future alone. -/
theorem unemittedFailure_stranded :
    Machine.Reachable (raising (.emitTransferEvents false))
        ((Machine.init (raising (.emitTransferEvents false))).play
          (raising (.emitTransferEvents false))
          (.submit (lonelyLoad 0) :: List.replicate 17 .advance)) ∧
      ((Machine.init (raising (.emitTransferEvents false))).play
          (raising (.emitTransferEvents false))
          (.submit (lonelyLoad 0) :: List.replicate 17 .advance)).phase =
        .dead ∧
      ¬ NobodyStranded
        ((Machine.init (raising (.emitTransferEvents false))).play
          (raising (.emitTransferEvents false))
          (.submit (lonelyLoad 0) :: List.replicate 17 .advance)).state := by
  refine ⟨Machine.reachable_play _ (by decide), by decide, fun none => ?_⟩
  exact none.resolved (lonelyLoad 0) (by decide) (by decide)

end Examples

end PyKvCache.Crash
