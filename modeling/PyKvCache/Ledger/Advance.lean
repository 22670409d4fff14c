import PyKvCache.Ledger.Reaping
import PyKvCache.Ledger.Run

/-!
# What a step of the thread leaves alone

A condition that does not depend on the queues of items, jobs and ready copies
either is kept by every step of a running thread, whether the step raises or
not.  The steps that end files well, and the one that settles a load the gate
declines, are asked for separately.
-/

namespace PyKvCache.Ledger

open PyKvCache.Library PyKvCache.Staging PyKvCache.Transfer
open PyKvCache.Reactor PyKvCache.Library.Effect

variable {slotCount : Nat} {env : Env slotCount}
  {kept : State slotCount → Prop} {machine : Machine slotCount}

/-- The program keeps a condition that holds in its first state. -/
abbrev Retains (kept : State slotCount → Prop)
    (program : React slotCount PUnit) (state : State slotCount) : Prop :=
  wp program (fun _ next => kept next) (fun _ next => kept next) state

/-- A condition that does not depend on the queues of the thread either. -/
structure Unqueued (env : Env slotCount) (kept : State slotCount → Prop) :
    Prop extends Detached env kept where
  jobsLeft : ∀ state later, kept state → kept { state with active := later }
  flushed : ∀ state, kept state → kept { state with copyReady := [] }

/-- A condition that does not depend on what other threads ask for either. -/
structure Unasked (env : Env slotCount) (kept : State slotCount → Prop) :
    Prop extends Unqueued env kept where
  itemsLeft : ∀ state later, kept state →
    kept { state with incoming := later }
  stopped : ∀ state, kept state → kept { state with stop := true }

/-- The job the thread is about to take in is a load that the break-even gate
declines. -/
structure Declines (env : Env slotCount) (machine : Machine slotCount)
    (job : Job) (later : List Item) : Prop where
  phase : machine.phase = .incoming
  first : machine.state.incoming = .job job :: later
  loading : job.isStore = false
  enabled : env.breakEven.enabled = true
  cheap : machine.state.shouldDeclineLoad env job = true

theorem perform_state {program : React slotCount PUnit}
    {next : Phase slotCount} {state : State slotCount}
    (holds : Retains kept program state) :
    kept (Machine.perform program next state).state := by
  unfold Retains wp at holds
  unfold Machine.perform
  split at holds
  next returned => rwa [returned]
  next raised => rwa [raised]

private theorem unlessDone_state {next : Phase slotCount}
    {state : State slotCount} (holds : kept state) :
    kept (Machine.unlessDone next state).state := by
  unfold Machine.unlessDone
  split <;> exact holds

namespace Unqueued

variable (unqueued : Unqueued env kept)

include unqueued

private theorem framed : Framed env kept :=
  unqueued.toDetached.toUnbound.framed

theorem activate_keeps (job : Job) :
    Keeps kept (activate job : React slotCount _) :=
  .modify fun state => unqueued.jobsLeft state _

theorem finishJobs_keeps : Keeps kept (finishJobs : React slotCount _) :=
  .modify fun state => unqueued.jobsLeft state _

/-- An item is taken in; the stop flag and a load that the gate declines are
up to the caller. -/
theorem intake_retains {state : State slotCount} (item : Item)
    (holds : item ≠ .stop → kept state)
    (stopped : item = .stop → kept { state with stop := true })
    (declines : ∀ job, item = .job job → job.isStore = false →
      env.breakEven.enabled = true →
      state.shouldDeclineLoad env job = true →
        Retains kept (declineLoad env job) state) :
    Retains kept (intake env item) state := by
  have framed := unqueued.framed
  cases item with
  | stop => exact framed.intakeStop_post (stopped rfl)
  | preload request =>
      exact Keeps.forM (framed.intakePreloadHash_keeps _) _ (holds nofun)
  | job job =>
      have holds := holds nofun
      simp only [Retains, intake, intakeJob, wp_bind, wp_get, wp_ite]
      refine ⟨fun _ => ?_, fun loading => ⟨fun declined => ?_, fun _ => ?_⟩⟩
      · exact wp_post (Keeps.forM (framed.intakeStoreHash_keeps job) _ holds)
          fun _ _ held => unqueued.activate_keeps job _ held
      · rw [Bool.and_eq_true] at declined
        rw [Bool.not_eq_true] at loading
        exact declines job rfl loading declined.1 declined.2
      · have forgets : Keeps kept (job.blockHashes.forM fun hash =>
            (modify fun state => { state with
              knownMissing := state.knownMissing.erase hash }
              : React slotCount PUnit)) :=
          .forM fun _ => framed.modify fun _ => rfl
        exact wp_post (forgets _ holds)
          fun _ _ held => unqueued.activate_keeps job _ held

/-- A step of the thread keeps the condition if the steps that take an item in
or may end files well do. -/
theorem advance_state (running : machine.phase.Running)
    (holds : kept machine.state)
    (takes : ∀ item later, machine.phase = .incoming →
      machine.state.incoming = item :: later →
        Retains kept (intake env item)
          { machine.state with incoming := later })
    (copies : ∀ copy todo, machine.phase = .copies (copy :: todo) →
      Retains kept (drainCudaCopy env copy) machine.state)
    (completes : ∀ completion todo,
      machine.phase = .completions (completion :: todo) →
        Retains kept (reapCompletion env completion) machine.state)
    (flushes : machine.phase = .flushing →
      Retains kept (flushCopyBatch env) machine.state) :
    kept (machine.advance env).state := by
  obtain ⟨phase, state⟩ := machine
  have framed := unqueued.framed
  unfold Machine.advance
  cases phase with
  | loopHead => exact unlessDone_state holds
  | incoming =>
      dsimp only
      split
      next => exact unlessDone_state holds
      next item later first =>
        exact perform_state (takes item later rfl first)
  | copies todo =>
      cases todo with
      | nil => exact holds
      | cons copy todo => exact perform_state (copies copy todo rfl)
  | poll =>
      have polled := framed.pollAll_keeps state holds
      unfold wp at polled
      dsimp only
      split at polled
      next returned => rwa [returned]
      next raised => rwa [raised]
  | completions todo =>
      cases todo with
      | nil => exact holds
      | cons completion todo =>
          exact perform_state (completes completion todo rfl)
  | scheduling =>
      exact perform_state
        (unqueued.toDetached.toUnbound.scheduleWork_keeps _ holds)
  | flushing => exact perform_state (flushes rfl)
  | submitting => exact perform_state (framed.external_keeps _ _ holds)
  | finishing => exact perform_state (unqueued.finishJobs_keeps _ holds)
  | crashed exc => exact running.elim
  | closing exc => exact running.elim
  | dead => exact holds
  | exited => exact holds

/-- If good ends of files keep the condition, only the intake is left. -/
theorem advance_intake (settles : Settles env kept)
    (running : machine.phase.Running) (holds : kept machine.state)
    (takes : ∀ item later, machine.phase = .incoming →
      machine.state.incoming = item :: later →
        Retains kept (intake env item)
          { machine.state with incoming := later }) :
    kept (machine.advance env).state :=
  unqueued.advance_state running holds takes
    (fun copy _ _ =>
      unqueued.toDetached.drainCudaCopy_keeps settles copy _ holds)
    (fun completion _ _ =>
      unqueued.toDetached.reapCompletion_keeps settles completion _ holds)
    fun _ => unqueued.framed.flushCopyBatch_keeps settles unqueued.flushed _
      holds

end Unqueued

namespace Unasked

variable (unasked : Unasked env kept)

include unasked

/-- What comes in keeps the condition, declined loads apart. -/
theorem intake_asked {item : Item} {later : List Item}
    (phase : machine.phase = .incoming)
    (first : machine.state.incoming = item :: later)
    (holds : kept machine.state)
    (declines : ∀ job later, Declines env machine job later →
      Retains kept (declineLoad env job)
        { machine.state with incoming := later }) :
    Retains kept (intake env item)
      { machine.state with incoming := later } := by
  have taken := unasked.itemsLeft _ later holds
  refine unasked.toUnqueued.intake_retains item (fun _ => taken)
    (fun _ => unasked.stopped _ taken) ?_
  rintro job rfl loading enabled cheap
  exact declines job later ⟨phase, first, loading, enabled, cheap⟩

/-- If good ends of files keep the condition, only declined loads are left. -/
theorem advance_settles (settles : Settles env kept)
    (running : machine.phase.Running) (holds : kept machine.state)
    (declines : ∀ job later, Declines env machine job later →
      Retains kept (declineLoad env job)
        { machine.state with incoming := later }) :
    kept (machine.advance env).state :=
  unasked.toUnqueued.advance_intake settles running holds
    fun _ _ phase first => unasked.intake_asked phase first holds declines

end Unasked

end PyKvCache.Ledger
