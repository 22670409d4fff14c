import PyKvCache.Ledger.Records
import PyKvCache.Library.FirstFailure
import PyKvCache.Safety.JobFiles

/-!
# What a future says

The ends of a job's files, in their order, decide its outcome: the first
failure does, and without one the last file.  The reactor keeps no list of
them, only counters and flags; still every future holds exactly what that list
says, and what it holds never changes.
-/

namespace PyKvCache.Reactor

open PyKvCache.Library

variable {slotCount : Nat}

/-- How the files of a job that have ended did so, in their order. -/
def State.ends (state : State slotCount) (job : Job) : List (Option Exc) :=
  (state.terminals.filter fun terminal => terminal.file.job = job).map
    Terminal.error

/-- The outcome of a job on whose files there is a verdict. -/
def Job.outcome (job : Job) : Except Exc Unit → Outcome
  | .ok _ => .result job.transferSize
  | .error exc => .exception exc

/-- The outcome the ended files of a job decide. -/
def State.verdict (state : State slotCount) (job : Job) : Option Outcome :=
  (Library.verdict job.totalFiles (state.ends job)).map job.outcome

end PyKvCache.Reactor

namespace PyKvCache.Safety

open PyKvCache.Library PyKvCache.Staging PyKvCache.Transfer
open PyKvCache.Reactor PyKvCache.Ledger PyKvCache.Library.Effect

variable {slotCount : Nat} {env : Env slotCount} {slack : Slack}
  {hand hand' : Hand slotCount} {state state' : State slotCount}
  {machine later : Machine slotCount} {job : Job}

/-! ## Verdicts -/

theorem totalFiles_pos (job : Job) : 0 < job.totalFiles :=
  List.length_pos_iff.mpr job.nonempty

/-- Without a verdict no file has failed, and not all have ended. -/
theorem verdict_eq_none_iff :
    state.verdict job = none ↔
      (∀ ended ∈ state.ends job, ended = none) ∧
        (state.ends job).length < job.totalFiles := by
  unfold State.verdict
  rw [Option.map_eq_none_iff,
    Library.verdict_eq_none_iff (totalFiles_pos job)]

theorem verdict_congr (terminals : state'.terminals = state.terminals) :
    state'.verdict job = state.verdict job := by
  unfold State.verdict State.ends
  rw [terminals]

private theorem ends_ended {file : FileRef} {error : Option Exc}
    (terminals : state'.terminals =
      (Ledger.ended state file error).terminals) :
    state'.ends job =
      if job = file.job then state.ends job ++ [error]
      else state.ends job := by
  unfold State.ends
  simp only [terminals, Ledger.ended, State.updateJob, State.recordTerminal,
    List.filter_append, List.map_append]
  by_cases same : job = file.job
  · simp [same]
  · simp [same, Ne.symm same]

/-- A verdict stands when more files end. -/
private theorem verdict_ended {file : FileRef} {error : Option Exc}
    {outcome : Outcome}
    (terminals : state'.terminals =
      (Ledger.ended state file error).terminals)
    (decided : state.verdict job = some outcome) :
    state'.verdict job = some outcome := by
  unfold State.verdict at decided ⊢
  rw [ends_ended terminals]
  split
  · rw [Option.map_eq_some_iff] at decided ⊢
    obtain ⟨settled, isVerdict, same⟩ := decided
    exact ⟨settled, Library.verdict_append isVerdict, same⟩
  · exact decided

/-- A file that ends may decide its job. -/
private theorem verdict_next {file : FileRef} {error : Option Exc}
    (terminals : state'.terminals =
      (Ledger.ended state file error).terminals)
    (undecided : state.verdict file.job = none) :
    state'.verdict file.job =
      match error with
      | some exc => some (.exception exc)
      | none =>
          if (state.ends file.job).length + 1 = file.job.totalFiles then
            some (.result file.job.transferSize)
          else none := by
  unfold State.verdict at undecided ⊢
  rw [Option.map_eq_none_iff] at undecided
  rw [ends_ended terminals, if_pos rfl,
    Library.verdict_concat (totalFiles_pos file.job) undecided]
  cases error with
  | some exc => rfl
  | none =>
      dsimp only
      split <;> rfl

/-! ## The reactor agrees -/

/-- Futures, flags and failures of the jobs agree with the verdicts. -/
structure VerdictBooks (state : State slotCount) : Prop where
  decided : ∀ job outcome, state.verdict job = some outcome →
    (state.jobs job).future = some outcome
  unset : ∀ job, (state.jobs job).futureSet = false →
    state.verdict job = none
  failed : ∀ job, (state.jobs job).failed ≠ none →
    state.verdict job ≠ none
  unbegun : ∀ job, (state.jobs job).futureSet = true →
    state.verdict job = none → (state.jobs job).nextFileIndex = 0

namespace VerdictBooks

/-- Neither a future nor a record is touched. -/
private theorem kept (books : VerdictBooks state)
    (futures : ∀ job, (state'.jobs job).future = (state.jobs job).future)
    (flags : ∀ job,
      (state'.jobs job).futureSet = (state.jobs job).futureSet)
    (failures : ∀ job, (state'.jobs job).failed = (state.jobs job).failed)
    (begun : ∀ job, (state.jobs job).futureSet = true →
      state.verdict job = none →
        (state'.jobs job).nextFileIndex = (state.jobs job).nextFileIndex)
    (terminals : state'.terminals = state.terminals) :
    VerdictBooks state' where
  decided := by
    intro job outcome decided
    rw [verdict_congr terminals] at decided
    rw [futures]
    exact books.decided job outcome decided
  unset := by
    intro job isUnset
    rw [flags] at isUnset
    rw [verdict_congr terminals]
    exact books.unset job isUnset
  failed := by
    intro job hasFailed
    rw [failures] at hasFailed
    rw [verdict_congr terminals]
    exact books.failed job hasFailed
  unbegun := by
    intro job isSet undecided
    rw [flags] at isSet
    rw [verdict_congr terminals] at undecided
    rw [begun job isSet undecided]
    exact books.unbegun job isSet undecided

/-- A job none of whose files has ended is settled without them. -/
private theorem settledAside (books : VerdictBooks state) {exc : Exc}
    (undecided : state.verdict job = none)
    (unbegun : (state.jobs job).nextFileIndex = 0)
    (jobs : state'.jobs = Function.update state.jobs job
      { state.jobs job with
        futureSet := true
        future := some (.exception exc) })
    (terminals : state'.terminals = state.terminals) :
    VerdictBooks state' := by
  refine ⟨fun other outcome decided => ?_, fun other isUnset => ?_,
    fun other hasFailed => ?_, fun other isSet undecided => ?_⟩
  · rw [verdict_congr terminals] at decided
    rw [jobs, update_jobs]
    split
    next same =>
      rw [same, undecided] at decided
      cases decided
    next => exact books.decided other outcome decided
  · rw [verdict_congr terminals]
    rw [jobs, update_jobs] at isUnset
    split at isUnset
    next => cases isUnset
    next => exact books.unset other isUnset
  · rw [verdict_congr terminals]
    rw [jobs, update_jobs] at hasFailed
    split at hasFailed
    next same =>
      subst same
      exact books.failed other hasFailed
    next => exact books.failed other hasFailed
  · rw [verdict_congr terminals] at undecided
    rw [jobs, update_jobs] at isSet ⊢
    split at isSet
    next same =>
      rw [if_pos same]
      exact unbegun
    next apart =>
      rw [if_neg apart]
      exact books.unbegun other isSet undecided

/-- A job that is settled without a verdict is neither queued nor active. -/
theorem aside_of_undecided {lost : List FileRef}
    (books : VerdictBooks state) (jobs : JobBooks hand state)
    (files : FileBooks hand state lost)
    (isSet : (state.jobs job).futureSet = true)
    (undecided : state.verdict job = none) :
    job ∉ waiting hand state ∧ job ∉ state.active ∧
      (job ∈ state.accepted ∨ state.closed = true) := by
  rcases jobs.resolved job isSet with failed | all | away
  · exact absurd undecided (books.failed job failed)
  · have few := (verdict_eq_none_iff.mp undecided).2
    rw [files.done] at all
    unfold State.ends at few
    rw [List.length_map, ← List.countP_eq_length_filter] at few
    have fewer := List.countP_mono_left (l := state.terminals)
      (p := fun terminal => decide
        (terminal.file.job = job ∧ terminal.error = none))
      (q := fun terminal => decide (terminal.file.job = job))
      (by simp only [decide_eq_true_eq]; exact fun _ _ both => both.1)
    omega
  · exact away

/-- The flag of a job that has a file on the way is down while there is no
verdict. -/
private theorem unset_of_placed {lost : List FileRef}
    (books : VerdictBooks state) (jobs : JobBooks hand state)
    (files : FileBooks hand state lost) {entry : FileRef × Bool}
    (onTheWay : entry ∈ placed hand state)
    (undecided : state.verdict entry.1.job = none) :
    (state.jobs entry.1.job).futureSet = false := by
  by_contra isSet
  rw [Bool.not_eq_false] at isSet
  exact (books.aside_of_undecided jobs files isSet undecided).2.1
    (jobs.active entry onTheWay)

/-- The good ends of an undecided job are all its ends. -/
private theorem doneFiles_eq {lost : List FileRef}
    (files : FileBooks hand state lost)
    (undecided : state.verdict job = none) :
    (state.jobs job).doneFiles = (state.ends job).length := by
  have allGood := (verdict_eq_none_iff.mp undecided).1
  rw [files.done]
  unfold State.ends at allGood ⊢
  rw [List.length_map, ← List.countP_eq_length_filter]
  refine List.countP_congr fun terminal member => ?_
  simp only [decide_eq_true_eq, and_iff_left_iff_imp]
  intro ofJob
  exact allGood terminal.error (List.mem_map_of_mem
    (List.mem_filter.mpr ⟨member, decide_eq_true ofJob⟩))

/-- A file ends. -/
private theorem ended {lost : List FileRef} (books : VerdictBooks state)
    (jobBooks : JobBooks hand state) (files : FileBooks hand state lost)
    {file : FileRef} {storing : Bool} {error : Option Exc}
    (onTheWay : (file, storing) ∈ placed hand state)
    (jobs : state'.jobs = (Ledger.ended state file error).jobs)
    (terminals : state'.terminals =
      (Ledger.ended state file error).terminals) : VerdictBooks state' := by
  have other : ∀ job, job ≠ file.job →
      state'.jobs job = state.jobs job ∧
        state'.verdict job = state.verdict job := by
    intro job apart
    constructor
    · rw [jobs, ended_jobs, if_neg apart]
    · unfold State.verdict
      rw [ends_ended terminals, if_neg apart]
  -- the job of the file, with and without a verdict before
  have own : (∀ outcome, state'.verdict file.job = some outcome →
        (state'.jobs file.job).future = some outcome) ∧
      ((state'.jobs file.job).futureSet = false →
        state'.verdict file.job = none) ∧
      ((state'.jobs file.job).failed ≠ none →
        state'.verdict file.job ≠ none) ∧
      ((state'.jobs file.job).futureSet = true →
        state'.verdict file.job ≠ none) := by
    rw [jobs, ended_jobs, if_pos rfl]
    cases before : state.verdict file.job with
    | some outcome =>
        have resolved := books.decided _ _ before
        have isSet : (state.jobs file.job).futureSet = true := by
          by_contra unset
          rw [Bool.not_eq_true] at unset
          rw [books.unset _ unset] at before
          cases before
        rw [verdict_ended terminals before]
        simp only [endedJob, JobState.counted, isSet, if_true, resolved,
          Option.some.injEq, imp_self, implies_true, reduceCtorEq,
          ne_eq, not_false_eq_true, Bool.true_eq_false, and_self]
    | none =>
        have unset :=
          books.unset_of_placed jobBooks files onTheWay before
        have unfailed : (state.jobs file.job).failed = none := by
          by_contra failed
          exact books.failed _ failed before
        have count := doneFiles_eq files before
        rw [verdict_next terminals before]
        cases error with
        | some exc => simp [endedJob, JobState.counted, unset]
        | none =>
            by_cases all : (state.ends file.job).length + 1 =
                file.job.totalFiles
            · simp [endedJob, JobState.counted, unset, count, all]
            · simp [endedJob, JobState.counted, unset, count, all, unfailed]
  refine ⟨fun job outcome decided => ?_, fun job isUnset => ?_,
    fun job hasFailed => ?_, fun job isSet undecided => ?_⟩
  · by_cases same : job = file.job
    · subst same
      exact own.1 outcome decided
    · rw [(other job same).2] at decided
      rw [(other job same).1]
      exact books.decided job outcome decided
  · by_cases same : job = file.job
    · subst same
      exact own.2.1 isUnset
    · rw [(other job same).1] at isUnset
      rw [(other job same).2]
      exact books.unset job isUnset
  · by_cases same : job = file.job
    · subst same
      exact own.2.2.1 hasFailed
    · rw [(other job same).1] at hasFailed
      rw [(other job same).2]
      exact books.failed job hasFailed
  · by_cases same : job = file.job
    · subst same
      exact absurd undecided (own.2.2.2 isSet)
    · rw [(other job same).1] at isSet ⊢
      rw [(other job same).2] at undecided
      exact books.unbegun job isSet undecided

/-- No file has ended of a job that has not begun. -/
theorem ends_of_unbegun {lost : List FileRef}
    (files : FileBooks hand state lost)
    (unbegun : (state.jobs job).nextFileIndex = 0) :
    state.ends job = [] := by
  unfold State.ends
  rw [List.map_eq_nil_iff, List.filter_eq_nil_iff]
  intro terminal member
  simp only [decide_eq_true_eq]
  intro ofJob
  have begun := (files.started terminal.file).mp (by
    unfold scheduled
    exact List.mem_append_left _ (List.mem_append_right _
      (List.mem_map_of_mem member)))
  rw [ofJob, unbegun] at begun
  exact absurd begun (Nat.not_lt_zero _)

private theorem undecided_of_unbegun {lost : List FileRef}
    (files : FileBooks hand state lost)
    (unbegun : (state.jobs job).nextFileIndex = 0) :
    state.verdict job = none := by
  refine verdict_eq_none_iff.mpr ?_
  rw [ends_of_unbegun files unbegun]
  exact ⟨nofun, totalFiles_pos job⟩

/-- Every move keeps the books of the verdicts. -/
theorem move {lost : List FileRef} (books : VerdictBooks state)
    (base : Base hand state) (jobBooks : JobBooks hand state)
    (files : FileBooks hand state lost)
    (moved : Move env slack hand state hand' state') :
    VerdictBooks state' := by
  have unbegun : ∀ job, job ∈ waiting hand state ∨ job ∉ state.accepted →
      (state.jobs job).nextFileIndex = 0 := by
    intro job idle
    by_contra begun
    obtain ⟨accepted, absent⟩ :=
      jobBooks.begun job (Nat.pos_of_ne_zero begun)
    rcases idle with queued | unknown
    · exact absent queued
    · exact unknown accepted
  cases moved.files base with
  | handedOn places jobs terminals =>
      exact books.kept (fun _ => by rw [jobs]) (fun _ => by rw [jobs])
        (fun _ => by rw [jobs]) (fun _ _ _ => by rw [jobs]) terminals
  | lost file allowed places jobs terminals =>
      exact books.kept (fun _ => by rw [jobs]) (fun _ => by rw [jobs])
        (fun _ => by rw [jobs]) (fun _ _ _ => by rw [jobs]) terminals
  | started file known unfailed next places jobs terminals =>
      refine books.kept (fun job => ?_) (fun job => ?_) (fun job => ?_)
        (fun job isSet undecided => ?_) terminals
      · rw [jobs, started_jobs]
        split <;> rfl
      · rw [jobs, started_jobs]
        split <;> rfl
      · rw [jobs, started_jobs]
        split <;> rfl
      · have aside :=
          books.aside_of_undecided jobBooks files isSet undecided
        have apart : job ≠ file.job := by
          rintro rfl
          exact aside.2.1 (base.known _ known)
        rw [jobs, started_jobs, if_neg apart]
  | ended file storing error places jobs terminals =>
      exact books.ended jobBooks files
        (places.mem_iff.mpr List.mem_cons_self) jobs terminals
  | declined job exc held given incoming active accepted places jobs
      terminals =>
      have idle := unbegun job (Or.inl (by simp [waiting, held]))
      exact books.settledAside (undecided_of_unbegun files idle) idle jobs
        terminals
  | refused job new closed places jobs terminals =>
      have idle := unbegun job (Or.inr new)
      exact books.settledAside (undecided_of_unbegun files idle) idle jobs
        terminals

end VerdictBooks

theorem verdictBooks_init : VerdictBooks (State.init env) := by
  have none : ∀ job, (State.init env).verdict job = none := fun job =>
    verdict_eq_none_iff.mpr ⟨nofun, totalFiles_pos job⟩
  refine ⟨fun job _ decided => ?_, fun job _ => none job,
    fun _ failed => absurd rfl failed, fun _ _ _ => rfl⟩
  rw [none job] at decided
  cases decided

/-- The books of the files and those of the verdicts. -/
def OutcomeInv (slack : Slack) (hand : Hand slotCount)
    (state : State slotCount) : Prop :=
  FileInv slack hand state ∧ VerdictBooks state

theorem outcomeRules (quiet : env.Quiet) :
    Rules env slack (OutcomeInv slack) := by
  refine ⟨quiet, ?_⟩
  rintro hand state hand' state' base moved ⟨inv, verdicts⟩
  refine ⟨fileInv_closed base moved inv, ?_⟩
  obtain ⟨jobs, lost, _, files⟩ := inv
  exact verdicts.move base jobs files moved

theorem outcomeInv_init :
    OutcomeInv slack Hand.empty (State.init env) :=
  ⟨fileInv_init, verdictBooks_init⟩

/-! ## Jobs that are settled without their files -/

/-- The outcomes that no file decides. -/
inductive Aside (env : Env slotCount) (accepted : List Job) (job : Job) :
    Outcome → Prop
  /-- The break-even gate declined the load: for one of the two media its
  tokens are too few to be worth it. -/
  | declined (loading : job.isStore = false)
      (enabled : env.breakEven.enabled = true) (ramResident : Bool)
      (cheap : env.breakEven.shouldLoad
        (job.totalFiles * env.storageBlockTokens) ramResident = false) :
      Aside env accepted job
        (.exception (.loadDeclined job.blockChunks.flatten job.reqId))
  /-- The reactor was closed when the job was submitted. -/
  | refused (unknown : job ∉ accepted) :
      Aside env accepted job
        (.exception (.runtimeError "reactor is shut down"))

/-- A future is flagged, and it comes from a file of its job or from none. -/
structure Explained (env : Env slotCount) (state : State slotCount) :
    Prop where
  flagged : ∀ job, (state.jobs job).future ≠ none →
    (state.jobs job).futureSet = true
  explained : ∀ job outcome, (state.jobs job).future = some outcome →
    state.ends job ≠ [] ∨ Aside env state.accepted job outcome

private theorem endedJob_flagged {error : Option Exc} {fields : JobState}
    (before : fields.future ≠ none → fields.futureSet = true) :
    (endedJob job error fields).future ≠ none →
      (endedJob job error fields).futureSet = true := by
  unfold endedJob JobState.counted
  by_cases isSet : fields.futureSet = true
  · simp [isSet]
  · have none : fields.future = none := by
      by_contra resolved
      exact isSet (before resolved)
    cases error with
    | some exc => simp [isSet]
    | none =>
        by_cases all : fields.doneFiles + 1 = job.totalFiles
        · simp [isSet, all]
        · simp [isSet, all, none]

theorem explained_recorded (quiet : env.Quiet) :
    Recorded env (Explained env : State slotCount → Prop) where
  same := by
    intro state next same explained
    simp only [record, Prod.mk.injEq] at same
    obtain ⟨jobs, accepted, terminals⟩ := same
    refine ⟨by rw [jobs]; exact explained.flagged, fun job outcome => ?_⟩
    unfold State.ends
    rw [jobs, accepted, terminals]
    exact explained.explained job outcome
  starts := by
    intro owner state explained
    have fields : ∀ job, ((started state owner).jobs job).future =
          (state.jobs job).future ∧
        ((started state owner).jobs job).futureSet =
          (state.jobs job).futureSet := by
      intro job
      rw [started_jobs]
      split
      · exact ⟨rfl, rfl⟩
      · exact ⟨rfl, rfl⟩
    have later : Explained env (started state owner) := by
      refine ⟨fun job => ?_, fun job outcome => ?_⟩
      · rw [(fields job).1, (fields job).2]
        exact explained.flagged job
      · rw [(fields job).1]
        exact explained.explained job outcome
    exact later
  ends := by
    intro file error state explained
    have later : Explained env (Ledger.ended state file error) := by
      refine ⟨fun job => ?_, fun job outcome resolved => ?_⟩
      · rw [ended_jobs]
        split
        · exact endedJob_flagged (explained.flagged job)
        · exact explained.flagged job
      · rw [ends_ended rfl]
        rw [ended_jobs] at resolved
        split
        next => exact Or.inl (List.concat_ne_nil _ _)
        next apart =>
          rw [if_neg apart] at resolved
          exact explained.explained job outcome resolved
    exact wp_fileTerminal quiet.emits later
      ⟨later.flagged, later.explained⟩

/-- A load the gate declines is told its own GPU blocks. -/
theorem declineLoad_explained {later : List Item}
    (declines : Declines env machine job later)
    (explained : Explained env machine.state) :
    wp (declineLoad env job) (fun _ next => Explained env next)
      (fun _ next => Explained env next)
      { machine.state with incoming := later } := by
  have cheap := declines.cheap
  simp only [State.shouldDeclineLoad] at cheap
  split at cheap
  next => cases cheap
  rw [Bool.not_eq_true'] at cheap
  have aside : Aside env machine.state.accepted job _ :=
    .declined declines.loading declines.enabled _ cheap
  have kept : Explained env { machine.state with incoming := later } :=
    ⟨explained.flagged, explained.explained⟩
  simp only [declineLoad, addEvent, modifyJob, wp_bind, wp_external,
    wp_modify]
  refine ⟨fun _ => ⟨fun other => ?_, fun other outcome => ?_⟩,
    fun _ _ => ⟨explained.flagged, explained.explained⟩⟩
  · rw [updateJob_jobs]
    split
    · exact fun _ => rfl
    · exact explained.flagged other
  · rw [updateJob_jobs]
    split
    next same =>
      rintro ⟨⟩
      rw [same]
      exact Or.inr aside
    next => exact explained.explained other outcome

/-! ## Runs -/

/-- `submit_job` settles a job only if the reactor is closed. -/
theorem submitJob_explained (explained : Explained env state)
    (new : job ∉ state.accepted)
    (ended : state.closed = false → (state.jobs job).future ≠ none →
      state.ends job ≠ []) :
    Explained env (state.submitJob job) := by
  unfold State.submitJob
  split
  next closed =>
    refine ⟨fun other => ?_, fun other outcome => ?_⟩
    · rw [updateJob_jobs]
      split
      · split
        next isSet => exact fun _ => isSet
        next => exact fun _ => rfl
      · exact explained.flagged other
    · rw [updateJob_jobs]
      split
      next same =>
        subst same
        split
        next => exact explained.explained other outcome
        next =>
          rintro ⟨⟩
          exact Or.inr (.refused new)
      next => exact explained.explained other outcome
  next opened =>
    rw [Bool.not_eq_true] at opened
    refine ⟨explained.flagged, fun other outcome resolved => ?_⟩
    rcases explained.explained other outcome resolved with some | aside
    · exact Or.inl some
    · cases aside with
      | declined loading enabled ramResident cheap =>
          exact Or.inr (.declined loading enabled ramResident cheap)
      | refused unknown =>
          by_cases same : other = job
          · subst same
            exact Or.inl (ended opened fun none => by
              rw [none] at resolved
              cases resolved)
          · exact Or.inr (.refused (by simp [unknown, same]))

/-- In every state a running thread reaches the futures are explained. -/
theorem explained_reachable (quiet : env.Quiet)
    (reached : Machine.Reachable env machine)
    (running : machine.phase.Running) : Explained env machine.state := by
  induction reached with
  | refl => exact ⟨fun _ some => absurd rfl some, nofun⟩
  | @tail before after reached step inductionHypothesis =>
      have ran := running_of_step step running
      have explained := inductionHypothesis ran
      have held := reachable_held (outcomeRules quiet) outcomeInv_init
        reached ran
      cases step with
      | advance =>
          exact (explained_recorded quiet).advance_running ran explained
            fun job later declines =>
              declineLoad_explained declines explained
      | submit job new =>
          obtain ⟨_, ⟨⟨jobs, lost, _, files⟩, verdicts⟩⟩ := held
          refine submitJob_explained explained new
            fun opened resolved noEnds => ?_
          -- the reactor is open, so a file of the job must have settled it
          have undecided : before.state.verdict job = none :=
            verdict_eq_none_iff.mpr ⟨by rw [noEnds]; exact nofun,
              by rw [noEnds]; exact totalFiles_pos job⟩
          rcases verdicts.aside_of_undecided jobs files
            (explained.flagged job resolved) undecided with
            ⟨_, _, accepted | closed⟩
          · exact new accepted
          · rw [opened] at closed
            cases closed
      | preload request =>
          unfold State.enqueuePreload
          split
          · exact explained
          · exact ⟨explained.flagged, explained.explained⟩
      | shutdown =>
          unfold State.shutdown
          split
          · exact explained
          · exact ⟨explained.flagged, explained.explained⟩

/-- What the ended files of a job decide is in its future, and nothing else
ever is but the refusal of a job none of whose files was ever scheduled. -/
structure OutcomesTold (env : Env slotCount) (state : State slotCount) :
    Prop where
  decided : ∀ job outcome, state.verdict job = some outcome →
    (state.jobs job).future = some outcome
  aside : ∀ job outcome, state.verdict job = none →
    (state.jobs job).future = some outcome →
      Aside env state.accepted job outcome ∧ job ∉ state.active ∧
        (state.jobs job).nextFileIndex = 0 ∧ state.ends job = [] ∧
          ∀ file ∈ filesOnTheWay state, file.job ≠ job

/-- In every state a running thread reaches, every future says what its files
say. -/
theorem outcomesTold (quiet : env.Quiet)
    (reached : Machine.Reachable env machine)
    (running : machine.phase.Running) :
    OutcomesTold env machine.state := by
  obtain ⟨_, ⟨⟨jobs, lost, _, files⟩, verdicts⟩⟩ :=
    reachable_held (outcomeRules quiet) outcomeInv_init reached running
  have explained := explained_reachable quiet reached running
  refine ⟨verdicts.decided, fun job outcome undecided resolved => ?_⟩
  have isSet := explained.flagged job (by
    rw [resolved]
    exact Option.some_ne_none _)
  have unbegun := verdicts.unbegun job isSet undecided
  have noEnds := VerdictBooks.ends_of_unbegun files unbegun
  have idle := verdicts.aside_of_undecided jobs files isSet undecided
  refine ⟨(explained.explained job outcome resolved).resolve_left
    (not_not_intro noEnds), idle.2.1, unbegun, noEnds, ?_⟩
  rintro file member rfl
  obtain ⟨entry, inPlaces, rfl⟩ := List.mem_map.mp member
  rw [← placed_hand machine.phase] at inPlaces
  exact idle.2.1 (jobs.active entry inPlaces)

section Examples

/-- The open of the first of two files fails while the second one is opened:
the failure is the outcome, whatever becomes of the other file. -/
theorem failedOpen_told :
    OutcomesTold failedOpen ((Machine.init failedOpen).play failedOpen
        (.submit twoFileLoad :: List.replicate 16 .advance)).state ∧
      ((Machine.init failedOpen).play failedOpen
        (.submit twoFileLoad :: List.replicate 16 .advance)).state.verdict
          twoFileLoad =
        some (.exception (.osError 2 "io_uring openat failed")) :=
  ⟨outcomesTold Env.smooth_quiet
    (Machine.reachable_play _ (by decide +kernel)) (by decide +kernel),
    by decide +kernel⟩

end Examples

/-! ## Outcomes are final -/

/-- Futures are flagged, and none of those at the start has changed. -/
structure Final (start state : State slotCount) : Prop where
  flagged : ∀ job, (state.jobs job).future ≠ none →
    (state.jobs job).futureSet = true
  stands : ∀ job outcome, (start.jobs job).future = some outcome →
    (state.jobs job).future = some outcome

namespace Final

variable {start : State slotCount}

/-- New fields of a job that leave its future alone once it is set. -/
private theorem update (final : Final start state) (job : Job)
    {fields : JobState}
    (flagged : fields.future ≠ none → fields.futureSet = true)
    (stands : (state.jobs job).futureSet = true →
      fields.future = (state.jobs job).future) :
    Final start { state with
      jobs := Function.update state.jobs job fields } := by
  refine ⟨fun other => ?_, fun other outcome resolved => ?_⟩
  · dsimp only
    rw [update_jobs]
    split
    · exact flagged
    · exact final.flagged other
  · have before := final.stands other outcome resolved
    dsimp only
    rw [update_jobs]
    split
    next same =>
      subst same
      rw [stands (final.flagged other (by
        rw [before]
        exact Option.some_ne_none _))]
      exact before
    next => exact before

/-- A job whose flag is down is settled. -/
theorem settleUnset (final : Final start state) {outcome : Outcome} :
    Final start (state.updateJob job fun fields =>
      if fields.futureSet then fields
      else
        { fields with
          futureSet := true
          future := some outcome }) := by
  refine final.update job ?_ fun isSet => ?_
  · dsimp only
    split
    next isSet => exact fun _ => isSet
    next => exact fun _ => rfl
  · dsimp only
    rw [if_pos isSet]

private theorem record (final : Final start state)
    (same : Ledger.record state' = Ledger.record state) :
    Final start state' := by
  simp only [Ledger.record, Prod.mk.injEq] at same
  obtain ⟨jobs, _, _⟩ := same
  constructor
  · rw [jobs]
    exact final.flagged
  · rw [jobs]
    exact final.stands

end Final

theorem final_recorded (quiet : env.Quiet) (start : State slotCount) :
    Recorded env (Final start) where
  same := fun _ _ same final => final.record same
  starts := fun job state final =>
    final.update job (fun resolved => final.flagged job resolved)
      fun _ => rfl
  ends := by
    intro file error state final
    have later : Final start (Ledger.ended state file error) := by
      have recorded : Final start (state.recordTerminal file error) :=
        ⟨final.flagged, final.stands⟩
      refine recorded.update file.job
        (endedJob_flagged (final.flagged file.job)) fun isSet => ?_
      have isSet : (state.jobs file.job).futureSet = true := isSet
      simp [endedJob, JobState.counted, isSet, State.recordTerminal]
    exact wp_fileTerminal quiet.emits later (later.record rfl)

/-- A job the crash handler fails had no outcome. -/
theorem failUnset_final {start : State slotCount} (exc : Exc) (job : Job) :
    Keeps (Final start) (failUnset exc job : React slotCount _) :=
  fun _ final => final.settleUnset

theorem submitJob_final (final : Final state state) :
    Final state (state.submitJob job) := by
  unfold State.submitJob
  split
  · exact final.settleUnset
  · exact ⟨final.flagged, final.stands⟩

/-- A job that is taken in has no outcome yet. -/
theorem unset_of_waiting {lost : List FileRef} (books : VerdictBooks state)
    (jobs : JobBooks hand state) (files : FileBooks hand state lost)
    (waits : job ∈ waiting hand state) :
    (state.jobs job).futureSet = false := by
  by_contra isSet
  rw [Bool.not_eq_false] at isSet
  have unbegun : (state.jobs job).nextFileIndex = 0 := by
    by_contra begun
    exact (jobs.begun job (Nat.pos_of_ne_zero begun)).2 waits
  have undecided : state.verdict job = none ↔ _ := verdict_eq_none_iff
  rw [VerdictBooks.ends_of_unbegun files unbegun] at undecided
  exact (books.aside_of_undecided jobs files isSet
    (undecided.mpr ⟨nofun, totalFiles_pos job⟩)).1 waits

/-- One step leaves every outcome as it is. -/
theorem step_final (quiet : env.Quiet)
    (reached : Machine.Reachable env machine)
    (flagged : ∀ job, (machine.state.jobs job).future ≠ none →
      (machine.state.jobs job).futureSet = true)
    (step : Machine.Step env machine later) :
    Final machine.state later.state := by
  have final : Final machine.state machine.state :=
    ⟨flagged, fun _ _ => id⟩
  have recorded := final_recorded quiet machine.state
  cases step with
  | advance =>
      by_cases running : machine.phase.Running
      · refine recorded.advance_running running final
          fun job rest declines => ?_
        obtain ⟨_, ⟨⟨jobs, lost, _, files⟩, verdicts⟩⟩ :=
          reachable_held (outcomeRules quiet) outcomeInv_init reached
            running
        have waits : job ∈ waiting machine.phase.hand machine.state := by
          simp [waiting, declines.first, Item.toJob]
        have unset := unset_of_waiting verdicts jobs files waits
        simp only [declineLoad, addEvent, modifyJob, wp_bind, wp_external,
          wp_modify]
        have ticked : Final machine.state
            (State.tick { machine.state with incoming := rest }) :=
          ⟨flagged, fun _ _ => id⟩
        refine ⟨fun _ => ticked.update job (fun _ => rfl) ?_,
          fun _ _ => ticked⟩
        intro isSet
        have isSet : (machine.state.jobs job).futureSet = true := isSet
        rw [unset] at isSet
        cases isSet
      · exact advance_crashed recorded.same running failUnset_final final
  | submit job new => exact submitJob_final final
  | preload request =>
      unfold State.enqueuePreload
      split
      · exact final
      · exact final.record rfl
  | shutdown =>
      unfold State.shutdown
      split
      · exact final
      · exact final.record rfl

theorem flagged_reachable (quiet : env.Quiet)
    (reached : Machine.Reachable env machine) :
    ∀ job, (machine.state.jobs job).future ≠ none →
      (machine.state.jobs job).futureSet = true := by
  induction reached with
  | refl => exact fun _ some => absurd rfl some
  | tail reached step inductionHypothesis =>
      exact (step_final quiet reached inductionHypothesis step).flagged

/-- Whatever the thread, its crash handler or another thread does later, a
future that is resolved keeps its outcome. -/
theorem outcomes_final (quiet : env.Quiet)
    (reached : Machine.Reachable env machine)
    (steps : Relation.ReflTransGen (Machine.Step env) machine later)
    {outcome : Outcome}
    (resolved : (machine.state.jobs job).future = some outcome) :
    (later.state.jobs job).future = some outcome := by
  induction steps with
  | refl => exact resolved
  | tail steps step inductionHypothesis =>
      have before := reached.trans steps
      exact (step_final quiet before (flagged_reachable quiet before)
        step).stands job outcome inductionHypothesis

section Examples

/-- Where the second file of the failed load waits to be read. -/
@[irreducible]
def failedLoad : Machine 5 :=
  (Machine.init failedOpen).play failedOpen
    (.submit twoFileLoad :: List.replicate 16 .advance)

/-- The future of that load stands when its second file is read and copied. -/
theorem failedOpen_final :
    ((failedLoad.play failedOpen
        (List.replicate 40 .advance)).state.jobs twoFileLoad).future =
      some (.exception (.osError 2 "io_uring openat failed")) := by
  have reached : Machine.Reachable failedOpen failedLoad := by
    unfold failedLoad
    exact Machine.reachable_play _ (by decide +kernel)
  exact outcomes_final Env.smooth_quiet reached
    (Machine.steps_play (List.replicate 40 .advance) (by decide +kernel))
    (by decide +kernel)

end Examples

end PyKvCache.Safety
