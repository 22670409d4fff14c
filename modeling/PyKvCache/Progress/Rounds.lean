import PyKvCache.Progress.Moves

/-!
# The rounds of a scheduling pass

With nothing in the ring and no copy under way, a round of a loop of
`_schedule_work` moves something, or lets a load wait for a preload that is
under way, or changes nothing and ends its loop.
-/

namespace PyKvCache.Progress

open PyKvCache.Library PyKvCache.Staging PyKvCache.Transfer
open PyKvCache.Reactor PyKvCache.Ledger PyKvCache.Safety
open PyKvCache.Library.Effect

variable {slotCount : Nat} {env : Env slotCount}
  {start state next : State slotCount} {job : Job} {file : FileRef}
  {hash : BlockHash} {fail : Exc → State slotCount → Prop}

/-! ## Waiting for preloads -/

/-- A file that an active load has yet to schedule. -/
structure Unscheduled (state : State slotCount) (file : FileRef) : Prop where
  active : file.job ∈ state.active
  loading : file.job.isStore = false
  unfailed : (state.jobs file.job).failed = none
  next : (state.jobs file.job).nextFileIndex ≤ file.index

/-- The block of the file is being preloaded, and with sharing no slot is
registered for it. -/
def BeingPreloaded (env : Env slotCount) (state : State slotCount)
    (file : FileRef) : Prop :=
  state.hasInflightPreload file.hash = true ∧
    (env.sharePreload = true →
      state.sharedCached.find? file.hash = none)

/-- `_schedule_preload_inflight`. -/
def joined (state : State slotCount) (file : FileRef) : State slotCount :=
  { started state.tick file.job with
    preloadWaiters := state.preloadWaiters.pushBack file.hash file }

theorem schedulePreloadInflight_joins (quiet : env.Quiet)
    {post : PUnit → State slotCount → Prop} :
    wp (schedulePreloadInflight env file) post fail state ↔
      post ⟨⟩ (joined state file) := by
  simp only [schedulePreloadInflight, startFile, modifyJob,
    preloadWaiterAdd, wp_bind, wp_addEvent quiet, wp_modify]
  rfl

theorem joined_jobs :
    (joined state file).jobs job =
      if job = file.job then
        { state.jobs job with
          nextFileIndex := (state.jobs job).nextFileIndex + 1
          inflightFiles := (state.jobs job).inflightFiles + 1 }
      else state.jobs job :=
  started_jobs

theorem joined_queue :
    (joined state file).preloadWaiters.queue hash =
      if hash = file.hash then
        state.preloadWaiters.queue file.hash ++ [file]
      else state.preloadWaiters.queue hash :=
  QueueTable.queue_pushBack

/-- From `start` on, files were only made to wait for preloads under way. -/
inductive Waited (env : Env slotCount) (start : State slotCount) :
    State slotCount → Prop
  | refl : Waited env start start
  | join {state : State slotCount} (waited : Waited env start state)
      (file : FileRef) (unscheduled : Unscheduled start file)
      (next : (state.jobs file.job).nextFileIndex = file.index)
      (preloaded : BeingPreloaded env start file) :
      Waited env start (joined state file)

namespace Waited

/-- Nothing else has changed. -/
theorem same (waited : Waited env start state) :
    ∃ jobs waiters calls, state =
      { start with jobs := jobs, preloadWaiters := waiters, calls := calls }
    := by
  induction waited with
  | refl => exact ⟨_, _, _, rfl⟩
  | join waited file unscheduled next preloaded inductionHypothesis =>
      obtain ⟨jobs, waiters, calls, rfl⟩ := inductionHypothesis
      exact ⟨_, _, _, rfl⟩

/-- No job has failed or ended. -/
theorem futures (waited : Waited env start state) (job : Job) :
    (state.jobs job).failed = (start.jobs job).failed ∧
      (state.jobs job).futureSet = (start.jobs job).futureSet := by
  induction waited with
  | refl => exact ⟨rfl, rfl⟩
  | join waited file unscheduled next preloaded inductionHypothesis =>
      rw [joined_jobs]
      split
      · exact inductionHypothesis
      · exact inductionHypothesis

/-- A store has not changed at all. -/
theorem stores (waited : Waited env start state)
    (storing : job.isStore = true) : state.jobs job = start.jobs job := by
  induction waited with
  | refl => rfl
  | join waited file unscheduled next preloaded inductionHypothesis =>
      rw [joined_jobs]
      split
      next same =>
        rw [same, unscheduled.loading] at storing
        cases storing
      next => exact inductionHypothesis

theorem next_le (waited : Waited env start state) (job : Job) :
    (start.jobs job).nextFileIndex ≤ (state.jobs job).nextFileIndex := by
  induction waited with
  | refl => exact Nat.le_refl _
  | join waited file unscheduled next preloaded inductionHypothesis =>
      rw [joined_jobs]
      split
      · exact Nat.le_succ_of_le inductionHypothesis
      · exact inductionHypothesis

/-- Whoever waited still waits. -/
theorem queue (waited : Waited env start state)
    (waiting : start.preloadWaiters.queue hash ≠ []) :
    state.preloadWaiters.queue hash ≠ [] := by
  induction waited with
  | refl => exact waiting
  | join waited file unscheduled next preloaded inductionHypothesis =>
      rw [joined_queue]
      split
      · exact List.concat_ne_nil _ _
      · exact inductionHypothesis

/-- Whoever waits waited before, or was unscheduled then. -/
theorem of_queue (waited : Waited env start state)
    (waiting : state.preloadWaiters.queue hash ≠ []) :
    start.preloadWaiters.queue hash ≠ [] ∨
      ∃ file, Unscheduled start file ∧ file.hash = hash := by
  induction waited with
  | refl => exact Or.inl waiting
  | join waited file unscheduled next preloaded inductionHypothesis =>
      rw [joined_queue] at waiting
      split at waiting
      next same => exact Or.inr ⟨file, unscheduled, same.symm⟩
      next => exact inductionHypothesis waiting

/-- The files scheduled since wait, for preloads that were under way. -/
theorem covered (waited : Waited env start state) (file : FileRef)
    (before : (start.jobs file.job).nextFileIndex ≤ file.index)
    (since : file.index < (state.jobs file.job).nextFileIndex) :
    BeingPreloaded env start file ∧
      state.preloadWaiters.queue file.hash ≠ [] := by
  induction waited with
  | refl => omega
  | @join state waited added unscheduled next preloaded inductionHypothesis =>
      rw [joined_jobs] at since
      rw [joined_queue]
      by_cases last : file = added
      · subst last
        rw [if_pos rfl]
        exact ⟨preloaded, List.concat_ne_nil _ _⟩
      have earlier : file.index < (state.jobs file.job).nextFileIndex := by
        split at since
        next same =>
          have different : file.index ≠ added.index := by
            intro index
            obtain ⟨owner, number, inJob⟩ := file
            obtain ⟨owner', number', inJob'⟩ := added
            simp only at same index
            subst same index
            exact last rfl
          rw [← same] at next
          simp only at since
          omega
        next => exact since
      obtain ⟨kept, waiting⟩ := inductionHypothesis earlier
      refine ⟨kept, ?_⟩
      split
      · exact List.concat_ne_nil _ _
      · exact waiting

theorem noFewer (waited : Waited env start state) :
    NoFewer start state := by
  obtain ⟨jobs, waiters, calls, rfl⟩ := waited.same
  exact Nat.le_refl _

theorem preloaded (waited : Waited env start state)
    (preloaded : BeingPreloaded env state file) :
    BeingPreloaded env start file := by
  obtain ⟨jobs, waiters, calls, rfl⟩ := waited.same
  exact preloaded

end Waited

/-! ## The load loop -/

/-- How the load loop can go on with a file. -/
inductive LoadRound (env : Env slotCount) (start state : State slotCount)
    (file : FileRef) : Bool → State slotCount → Prop
  | moves {again : Bool} {next : State slotCount}
      (moved : Moved start next) : LoadRound env start state file again next
  | joins (preloaded : BeingPreloaded env state file) :
      LoadRound env start state file true (joined state file)
  | stops (closed : state.canOpen env = false)
      (unseen : env.sharePreload = true →
        state.preloadHasCopy env file.hash = false) :
      LoadRound env start state file false state

private theorem scheduleSharedLoad_round (answers : Answers env)
    (since : NoFewer start state)
    (sharing : env.sharePreload = true)
    (missed : state.inStagingCache file.hash = false) :
    wp (scheduleSharedLoad env file) (LoadRound env start state file)
      Crash state := by
  have framed := (moved_unbound answers.quiet start).framed
  simp only [scheduleSharedLoad, wp_bind, wp_get]
  cases cached : state.sharedCached.find? file.hash with
  | some slot =>
      exact wp_seq (sharedClaimFromCache_moves answers.quiet since slot)
        fun _ _ moved => .moves moved
  | none =>
      have stops (unread : ¬ state.hasInflightPreload file.hash = true)
          (closed : ¬ state.canOpen env = true) :
          LoadRound env start state file false state := by
        rw [Bool.not_eq_true] at unread closed
        refine .stops closed fun _ => ?_
        have unregistered :=
          OrderedDict.contains_eq_false_iff.mpr cached
        simp [State.preloadHasCopy, missed, unread, sharing, unregistered]
      simp only [wp_ite, wp_bind, wp_pure]
      refine ⟨fun inflight => ?_, fun unread => ⟨fun pending =>
        ⟨fun opens => ?_, stops unread⟩, fun _ =>
        ⟨fun opens => ?_, stops unread⟩⟩⟩
      · rw [schedulePreloadInflight_joins answers.quiet]
        exact .joins ⟨inflight, fun _ => cached⟩
      · exact wp_post (promotePendingToSharedRead_moves answers)
          fun _ _ moved => .moves moved
      · have opened : wp (submitOpenRead env file)
            (fun _ next => Moved start next) Crash state :=
          submitOpenRead_moves answers
        refine wp_post opened fun _ _ moved => ?_
        exact wp_post (stays_of_keeps (framed.sharedDecref_keeps _ _) moved)
          fun _ _ moved => .moves moved

private theorem scheduleOwnedLoad_round (answers : Answers env)
    (since : NoFewer start state) (owned : env.sharePreload = false) :
    wp (scheduleOwnedLoad env file) (LoadRound env start state file)
      Crash state := by
  have framed := (moved_unbound answers.quiet start).framed
  have unshared {prop : Prop} : env.sharePreload = true → prop := by
    rw [owned]
    exact nofun
  simp only [scheduleOwnedLoad, wp_bind, wp_get, wp_ite, wp_pure]
  refine ⟨fun cached => ?_, fun _ => ⟨fun inflight => ?_, fun _ =>
    ⟨fun opens => ?_, fun closed => ?_⟩⟩⟩
  · exact wp_post (schedulePreloadDone_moves answers.quiet since cached)
      fun _ _ moved => .moves moved
  · rw [Bool.and_eq_true] at inflight
    rw [schedulePreloadInflight_joins answers.quiet]
    exact .joins ⟨inflight.1, unshared⟩
  · have opened : wp (submitOpenRead env file)
        (fun _ next => Moved start next) Crash state :=
      submitOpenRead_moves answers
    refine wp_post opened fun _ _ moved => ?_
    exact wp_post (stays_of_keeps (framed.cancelOnePending_keeps _) moved)
      fun _ _ moved => .moves moved
  · rw [Bool.not_eq_true] at closed
    exact .stops closed unshared

/-- The load loop has nothing more to do for a job: it has failed, or all its
files are scheduled, or no further file may be opened. -/
def Halted (env : Env slotCount) (state : State slotCount) (job : Job) :
    Prop :=
  (state.jobs job).failed ≠ none ∨
    job.totalFiles ≤ (state.jobs job).nextFileIndex ∨
    (state.canOpen env = false ∧
      (env.sharePreload = true → (state.jobs job).futureSet = false →
        state.wantsRead env job = true))

theorem scheduleLoadFile_round (answers : Answers env)
    (since : NoFewer start state) (loading : job.isStore = false) :
    wp (scheduleLoadFile env job)
      (fun again next => Moved start next ∨
        (again = true ∧ ∃ file, file.job = job ∧
          (state.jobs job).failed = none ∧
          (state.jobs job).nextFileIndex = file.index ∧
          BeingPreloaded env state file ∧ next = joined state file) ∨
        (again = false ∧ next = state ∧ Halted env state job))
      Crash state := by
  simp only [scheduleLoadFile, wp_bind, wp_get]
  split
  next failed =>
    rw [Option.isSome_iff_ne_none] at failed
    exact Or.inr (Or.inr ⟨rfl, rfl, Or.inl failed⟩)
  next unfailed =>
    rw [Bool.not_eq_true, Option.isSome_eq_false_iff,
      Option.isNone_iff_eq_none] at unfailed
    split
    next inJob =>
      have ends : ∀ again next,
          LoadRound env start state
            ⟨job, (state.jobs job).nextFileIndex, inJob⟩ again next →
          Moved start next ∨
            (again = true ∧ ∃ file, file.job = job ∧
              (state.jobs job).failed = none ∧
              (state.jobs job).nextFileIndex = file.index ∧
              BeingPreloaded env state file ∧ next = joined state file) ∨
            (again = false ∧ next = state ∧ Halted env state job) := by
        intro again next round
        cases round with
        | moves moved => exact Or.inl moved
        | joins preloaded =>
            exact Or.inr (Or.inl ⟨rfl, _, rfl, unfailed, rfl, preloaded,
              rfl⟩)
        | stops closed unseen =>
            refine Or.inr (Or.inr ⟨rfl, rfl, Or.inr (Or.inr ⟨closed,
              fun sharing unset => ?_⟩)⟩)
            simp [State.wantsRead, loading, unfailed, unset, inJob,
              unseen sharing]
      rw [wp_bind]
      refine wp_getCached (fun missed => ?_) fun cache slot _ _ => ?_
      · rw [wp_ite]
        refine ⟨fun sharing => ?_, fun owned => ?_⟩
        · exact wp_post (scheduleSharedLoad_round answers since sharing
            missed) ends
        · rw [Bool.not_eq_true] at owned
          exact wp_post (scheduleOwnedLoad_round answers since owned) ends
      · exact wp_seq
          (scheduleCacheHit_moves answers.quiet (by exact since) slot)
          fun _ _ moved => Or.inl moved
    next inJob =>
      exact Or.inr (Or.inr ⟨rfl, rfl, Or.inr (Or.inl (not_lt.mp inJob))⟩)

/-- What other jobs wait for does not set a job going again. -/
private theorem Halted.other (halted : Halted env state job)
    (before : Waited env start state) (after : Waited env start next)
    (same : next.jobs job = state.jobs job) : Halted env next job := by
  obtain ⟨jobs, waiters, calls, rfl⟩ := before.same
  obtain ⟨jobs', waiters', calls', rfl⟩ := after.same
  simp only at same
  unfold Halted State.wantsRead at halted ⊢
  simp only [same] at halted ⊢
  exact halted

private theorem scheduleLoadJob_round (answers : Answers env)
    (waited : Waited env start state) (active : job ∈ start.active) :
    wp (scheduleLoadJob env job)
      (fun _ next => Moved start next ∨
        (Waited env start next ∧
          (job.isStore = false → Halted env next job) ∧
          ∀ other, other ≠ job → next.jobs other = state.jobs other))
      Crash state := by
  have framed := (moved_unbound answers.quiet start).framed
  unfold scheduleLoadJob
  split
  next storing =>
    refine Or.inr ⟨waited, fun loading => ?_, fun _ _ => rfl⟩
    rw [loading] at storing
    cases storing
  next loading =>
    rw [Bool.not_eq_true] at loading
    have ran : wp (loop (scheduleLoadFile env job) (job.totalFiles + 1))
        (fun _ next => Moved start next ∨
          (Waited env start next ∧ Halted env next job ∧
            ∀ other, other ≠ job → next.jobs other = state.jobs other))
        Crash state := by
      refine wp_loop_reaches
        (fun current => Waited env start current ∧
          ∀ other, other ≠ job → current.jobs other = state.jobs other)
        (fun current => job.totalFiles - (current.jobs job).nextFileIndex)
        (fun _ moved => stays_of_keeps (framed.scheduleLoadFile_keeps job)
          moved) ?_ (Nat.lt_succ_of_le (Nat.sub_le _ _))
        ⟨waited, fun _ _ => rfl⟩
      rintro current ⟨sofar, others⟩
      refine wp_post (scheduleLoadFile_round answers sofar.noFewer loading)
        fun again next round => ?_
      rcases round with moved |
        ⟨rfl, file, rfl, unfailed, index, preloaded, rfl⟩ |
        ⟨rfl, rfl, halted⟩
      · exact Or.inl moved
      · have unscheduled : Unscheduled start file :=
          ⟨active, loading, (sofar.futures _).1 ▸ unfailed,
            index ▸ sofar.next_le _⟩
        have inJob := file.inJob
        refine Or.inr ⟨⟨sofar.join file unscheduled index
          (sofar.preloaded preloaded), fun other different => ?_⟩, ?_⟩
        · rw [joined_jobs, if_neg different]
          exact others other different
        · rw [joined_jobs, if_pos rfl]
          simp only
          omega
      · exact Or.inr ⟨sofar, halted, others⟩
    exact wp_post ran fun _ _ reached =>
      reached.imp_right fun ⟨later, halted, others⟩ =>
        ⟨later, fun _ => halted, others⟩

/-- The load loop moves something, or makes files wait until it halts for every
job. -/
theorem scheduleLoads_moves (answers : Answers env)
    (start : State slotCount) :
    wp (start.active.forM (scheduleLoadJob env))
      (fun _ next => Moved start next ∨
        (Waited env start next ∧ ∀ job ∈ start.active,
          job.isStore = false → Halted env next job))
      Crash start := by
  have framed := (moved_unbound answers.quiet start).framed
  refine wp_forM_reaches start.active
    (fun job _ moved => stays_of_keeps (framed.scheduleLoadJob_keeps job)
      moved) ?_ .refl
  intro job active current waited
  refine wp_post (scheduleLoadJob_round answers waited active)
    fun _ next round => ?_
  refine round.imp_right fun ⟨later, halted, others⟩ =>
    ⟨later, halted, fun other before loading => ?_⟩
  by_cases same : other = job
  · exact same ▸ halted (same ▸ loading)
  · exact (before loading).other waited later (others other same)

/-! ## The store loop -/

private theorem scheduleStoreCopy_moves (quiet : env.Quiet)
    (since : NoFewer start state) (slot : Fin slotCount) :
    wp (scheduleStoreCopy env file slot) (fun _ next => Moved start next)
      Crash state := by
  have framed := (moved_unbound quiet start).framed
  simp only [scheduleStoreCopy, startFile, modifyJob, fillSlot, release,
    failStoreFile, wp_bind, wp_modify]
  rw [wp_attempt]
  have ticks : Ticks (NoFewer start) := fun _ same => same
  refine wp_mono (ticks.launchStoreCopy_keeps file slot _ (by exact since))
    (fun _ _ _ => ?_) fun exc refused sofar => ?_
  · exact Or.inl (Or.inr (Or.inl (List.concat_ne_nil _ _)))
  · simp only [wp_bind, wp_modify]
    exact wp_post (fileTerminal_moves quiet (by exact sofar))
      fun _ _ moved =>
        stays_of_keeps (framed.releaseStoreInflight_keeps _ _) moved

/-- The store loop has nothing more to do for a job. -/
def Stored (state : State slotCount) (job : Job) : Prop :=
  (state.jobs job).failed ≠ none ∨
    job.totalFiles ≤ (state.jobs job).nextFileIndex

private theorem scheduleStoreFile_round (quiet : env.Quiet)
    (since : NoFewer start state) (issues : state.canIssueStore env = true)
    (reservable : hasSpareSlot state = true ∨
      evictsPreload env state = true) :
    wp (scheduleStoreFile env job)
      (fun again next => Moved start next ∨
        (again = false ∧ next = state ∧ Stored state job))
      Crash state := by
  simp only [scheduleStoreFile, wp_bind, wp_get, issues, Bool.not_true,
    Bool.or_false]
  split
  next failed =>
    rw [Option.isSome_iff_ne_none] at failed
    exact Or.inr ⟨rfl, rfl, Or.inl failed⟩
  next =>
    split
    next inJob =>
      rw [wp_bind]
      refine wp_post (reserveForegroundSlot_finds quiet reservable) ?_
      rintro slot next ⟨found, same⟩
      cases slot with
      | none => exact absurd rfl found
      | some slot =>
          have fewer : NoFewer start next := by
            unfold NoFewer
            rw [same]
            exact since
          exact wp_seq (scheduleStoreCopy_moves quiet fewer slot)
            fun _ _ moved => Or.inl moved
    next inJob => exact Or.inr ⟨rfl, rfl, Or.inr (not_lt.mp inJob)⟩

/-- The store loop moves something, or has no file left to store. -/
theorem scheduleStores_moves (quiet : env.Quiet)
    (since : NoFewer start state) (issues : state.canIssueStore env = true)
    (reservable : hasSpareSlot state = true ∨
      evictsPreload env state = true) (jobs : List Job) :
    wp (jobs.forM (scheduleStoreJob env))
      (fun _ next => Moved start next ∨
        (next = state ∧ ∀ job ∈ jobs,
          job.isStore = true → Stored state job))
      Crash state := by
  have framed := (moved_unbound quiet start).framed
  have turn : ∀ job ∈ jobs, ∀ current, current = state →
      wp (scheduleStoreJob env job)
        (fun _ next => Moved start next ∨
          (next = state ∧ (job.isStore = true → Stored state job) ∧
            ∀ other, (other.isStore = true → Stored state other) →
              other.isStore = true → Stored state other))
        Crash current := by
    rintro job _ _ rfl
    unfold scheduleStoreJob
    split
    next storing =>
      refine wp_post (wp_loop_first
        (fun _ moved => stays_of_keeps (framed.scheduleStoreFile_keeps job)
          moved)
        (scheduleStoreFile_round quiet since issues reservable)
        job.totalFiles) fun _ _ reached => ?_
      exact reached.imp_right fun ⟨same, stored⟩ =>
        ⟨same, fun _ => stored, fun _ before => before⟩
    next loading =>
      exact Or.inr ⟨rfl, fun storing => absurd storing loading,
        fun _ before => before⟩
  exact wp_forM_reaches jobs
    (fun job _ moved => stays_of_keeps (framed.scheduleStoreJob_keeps job)
      moved) turn rfl

/-! ## Ready descriptors -/

/-- A ready load descriptor is read into a slot. -/
theorem drainReadyLoadFds_moves (answers : Answers env)
    (issues : start.dataInflight < env.iodepth)
    (reservable : hasSpareSlot start = true ∨
      evictsPreload env start = true) :
    wp (drainReadyLoadFds env)
      (fun _ next => Moved start next ∨
        (next = start ∧ start.readyFdsLoad = []))
      Crash start := by
  have unbound := moved_unbound answers.quiet start
  unfold drainReadyLoadFds
  rw [wp_bind, wp_get]
  refine wp_loop_first
    (fun _ moved => stays_of_keeps unbound.drainReadyLoadFd_keeps moved) ?_ _
  simp only [drainReadyLoadFd, wp_bind, wp_get]
  cases ready : start.readyFdsLoad with
  | nil => exact Or.inr ⟨rfl, rfl, rfl⟩
  | cons entry later =>
      obtain ⟨fd, file⟩ := entry
      simp only [issues, if_true, wp_bind]
      refine wp_post (reserveForegroundSlot_finds answers.quiet reservable) ?_
      rintro slot next ⟨found, _⟩
      cases slot with
      | none => exact absurd rfl found
      | some slot =>
          simp only [wp_bind, wp_modify, wp_pure]
          exact wp_post (submitReadFromReady_moves answers _ fd slot)
            fun _ _ moved => Or.inl moved

/-- A speculative descriptor stands first and finds no slot, while no load
needs the disk. -/
def Blocked (env : Env slotCount) (state : State slotCount) : Prop :=
  ∃ fd info later, state.readyFdsPreload = (fd, info) :: later ∧
    state.hasPreloadWaiter info.blockHash = false ∧
    state.hasRealLoadPressure env = false ∧ hasSpareSlot state = false

/-- A ready preload descriptor is read or given up, unless it blocks. -/
theorem drainReadyPreloadFds_moves (answers : Answers env)
    (start : State slotCount)
    (issues : state.dataInflight < env.iodepth)
    (reservable : hasSpareSlot state = true ∨
      evictsPreload env state = true)
    (usable : ∀ entry ∈ state.readyFdsPreload, 0 ≤ entry.1) :
    wp (drainReadyPreloadFds env)
      (fun _ next => Moved start next ∨
        (state.readyFdsPreload = [] ∨ Blocked env state))
      Crash state := by
  have unbound := moved_unbound answers.quiet start
  have read (info : PreloadInfo) (fd : Int)
      (later : List (Int × PreloadInfo)) {origin : State slotCount}
      (slot : Option (Fin slotCount)) (current : State slotCount)
      (found : slot ≠ none ∧ current.terminals = origin.terminals) :
      wp (readReadyPreload env info fd later slot)
        (fun again next => Moved start next ∨ (again = false ∧
          (state.readyFdsPreload = [] ∨ Blocked env state)))
        Crash current := by
    cases slot with
    | none => exact absurd rfl found.1
    | some slot =>
        simp only [readReadyPreload, wp_bind, wp_modify, wp_pure]
        exact wp_post (submitReadFromReady_moves answers _ fd slot)
          fun _ _ moved => Or.inl moved
  unfold drainReadyPreloadFds
  rw [wp_bind, wp_get]
  refine wp_loop_first
    (fun _ moved => stays_of_keeps unbound.drainReadyPreloadFd_keeps moved)
    ?_ _
  simp only [drainReadyPreloadFd, wp_bind, wp_get]
  cases ready : state.readyFdsPreload with
  | nil => exact Or.inr ⟨rfl, Or.inl rfl⟩
  | cons entry later =>
      obtain ⟨fd, info⟩ := entry
      have usableFd : 0 ≤ fd := usable (fd, info)
        (ready ▸ List.mem_cons_self)
      rw [ready] at read
      simp only [wp_ite, wp_pure, wp_bind, wp_modify, issues, true_and,
        forall_const, not_true_eq_false, false_implies, and_true,
        decide_true, Bool.true_and]
      refine ⟨fun _ => ?_, fun unawaited => ⟨fun _ => ?_, fun unpressed =>
        ⟨fun _ => ?_, fun pressed => ?_⟩⟩⟩
      · exact wp_post (reserveForegroundSlot_finds answers.quiet reservable)
          (read info fd later)
      · simp only [yieldOpenFd, preloadInflightRemove, pendingPush, wp_bind,
          wp_modify, wp_addEvent answers.quiet]
        exact wp_post (asyncClose_moves answers usableFd)
          fun _ _ moved => Or.inl moved
      · cases spare : hasSpareSlot state with
        | true =>
            exact wp_post (reservePreloadSlot_finds answers.quiet spare)
              (read info fd later)
        | false =>
            refine wp_post (reservePreloadSlot_misses spare) ?_
            rintro _ _ ⟨rfl, rfl⟩
            rw [Bool.not_eq_true] at unawaited unpressed
            exact Or.inr ⟨rfl, Or.inr ⟨fd, info, later, ready, unawaited,
              unpressed, spare⟩⟩
      · rw [State.canIssueSpeculativePreload] at pressed
        rw [Bool.not_eq_true] at unpressed
        exact absurd (by rw [unpressed]; rfl) pressed

end PyKvCache.Progress
