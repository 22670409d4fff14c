import PyKvCache.Progress.Rounds

/-!
# The next pump

With nothing in the ring, no copy under way and a job that is not over, the
next `_pump_once` puts something into the ring, launches a copy or ends a
file; except that with sharing a speculative descriptor that finds no slot can
hold up every load behind it.
-/

namespace PyKvCache.Progress

open PyKvCache.Library PyKvCache.Staging PyKvCache.Transfer
open PyKvCache.Reactor PyKvCache.Ledger PyKvCache.Safety
open PyKvCache.Library.Effect

variable {slotCount : Nat} {env : Env slotCount}
  {start state next : State slotCount} {machine : Machine slotCount}
  {job : Job} {file : FileRef} {fail : Exc → State slotCount → Prop}

/-! ## Progress and its failure -/

/-- The next `_pump_once` returns, and what it leaves shows an operation in
the ring, a copy under way or one more file that has ended. -/
def PumpProgresses (env : Env slotCount) (state : State slotCount) : Prop :=
  ∃ after, pumpOnce env state = .ok ⟨⟩ after ∧ Issued state after

/-- All that is left to do is up to preloads whose descriptors are ready, and
the first of these is one nobody needs: no slot is free and the staging cache
is empty, so it finds no slot. -/
structure HeldUp (env : Env slotCount) (state : State slotCount) : Prop where
  sharing : env.sharePreload = true
  launched : state.copyReady = []
  noLoads : state.readyFdsLoad = []
  noStores : ∀ job ∈ state.active, job.isStore = true → Stored state job
  full : hasSpareSlot state = false
  preloaded : ∀ file, Unscheduled state file → BeingPreloaded env state file
  unneeded : ∃ fd info later, state.readyFdsPreload = (fd, info) :: later ∧
    state.hasPreloadWaiter info.blockHash = false ∧
    ∀ file, Unscheduled state file → file.hash ≠ info.blockHash

theorem HeldUp.of_tick (heldUp : HeldUp env state.tick) :
    HeldUp env state :=
  ⟨heldUp.sharing, heldUp.launched, heldUp.noLoads, heldUp.noStores,
    heldUp.full, fun file unscheduled => heldUp.preloaded file
      ⟨unscheduled.active, unscheduled.loading, unscheduled.unfailed,
        unscheduled.next⟩,
    heldUp.unneeded.imp fun _ => .imp fun _ => .imp fun _ =>
      .imp_right (.imp_right fun apart file unscheduled => apart file
        ⟨unscheduled.active, unscheduled.loading, unscheduled.unfailed,
          unscheduled.next⟩)⟩

theorem HeldUp.tick (heldUp : HeldUp env state) : HeldUp env state.tick :=
  ⟨heldUp.sharing, heldUp.launched, heldUp.noLoads, heldUp.noStores,
    heldUp.full, fun file unscheduled => heldUp.preloaded file
      ⟨unscheduled.active, unscheduled.loading, unscheduled.unfailed,
        unscheduled.next⟩,
    heldUp.unneeded.imp fun _ => .imp fun _ => .imp fun _ =>
      .imp_right (.imp_right fun apart file unscheduled => apart file
        ⟨unscheduled.active, unscheduled.loading, unscheduled.unfailed,
          unscheduled.next⟩)⟩

theorem AtRest.waited (rest : AtRest start)
    (waited : Waited env start state) : AtRest state := by
  obtain ⟨jobs, waiters, calls, rfl⟩ := waited.same
  exact ⟨rest.ring, rest.copies, rest.ready⟩

theorem AtRest.issues (rest : AtRest state)
    (inv : RestInv env Hand.empty state) :
    state.dataInflight < env.iodepth := by
  rw [rest.dataInflight inv]
  exact_mod_cast env.iodepth_pos

/-! ## A pass that moves something -/

/-- The passes over the jobs have moved nothing. -/
structure Exhausted (env : Env slotCount) (start state : State slotCount) :
    Prop where
  waited : Waited env start state
  noLoads : start.readyFdsLoad = []
  halted : ∀ job ∈ start.active, job.isStore = false → Halted env state job
  stored : ∀ job ∈ start.active, job.isStore = true → Stored state job

/-- `_schedule_work` up to the preloads moves something, or all it can still do
is up to preloads under way. -/
theorem scheduleJobs_moves (answers : Answers env)
    (issues : start.dataInflight < env.iodepth)
    (reservable : hasSpareSlot start = true ∨
      evictsPreload env start = true) :
    wp (scheduleJobs env)
      (fun _ next => Moved start next ∨ Exhausted env start next)
      Crash start := by
  have framed := (moved_unbound answers.quiet start).framed
  unfold scheduleJobs
  refine wp_seq (drainReadyLoadFds_moves answers issues reservable) ?_
  rintro _ drained (moved | ⟨rfl, noLoads⟩)
  · rw [wp_bind, wp_get]
    refine wp_seq (stays_of_keeps
      (.forM framed.scheduleLoadJob_keeps) moved) fun _ _ moved => ?_
    exact wp_post (stays_of_keeps
      (.forM framed.scheduleStoreJob_keeps) moved) fun _ _ => Or.inl
  · rw [wp_bind, wp_get]
    refine wp_seq (scheduleLoads_moves answers drained) ?_
    rintro _ loaded (moved | ⟨waited, halted⟩)
    · exact wp_post (stays_of_keeps
        (.forM framed.scheduleStoreJob_keeps) moved) fun _ _ => Or.inl
    · have unchanged := waited.same
      obtain ⟨jobs, waiters, calls, rfl⟩ := unchanged
      refine wp_post (scheduleStores_moves answers.quiet waited.noFewer
        (decide_eq_true issues) (by exact reservable) drained.active) ?_
      rintro _ stored (moved | ⟨rfl, complete⟩)
      · exact Or.inl moved
      · exact Or.inr ⟨waited, noLoads, halted, complete⟩

namespace Exhausted

variable (exhausted : Exhausted env start state)
  (held : Held (RestInv env) Hand.empty state)

include exhausted held

/-- A job that is not over waits for a preload whose descriptor is ready. -/
theorem ready (rest : AtRest start) (active : job ∈ start.active)
    (unset : (start.jobs job).futureSet = false) :
    state.readyFdsPreload ≠ [] := by
  intro none
  have restNow := rest.waited exhausted.waited
  have unsetNow : (state.jobs job).futureSet = false :=
    (exhausted.waited.futures job).2.trans unset
  have noLoads : state.readyFdsLoad = [] := by
    obtain ⟨_, _, _, rfl⟩ := exhausted.waited.same
    exact exhausted.noLoads
  have opens : state.canOpen env = true := by
    unfold State.canOpen
    rw [restNow.openInflight held.inv, noLoads, none, decide_eq_true_eq]
    exact_mod_cast env.openLookahead_pos
  have unfailed := held.inv.futures.unfailed job unsetNow
  have scheduled : job.totalFiles ≤ (state.jobs job).nextFileIndex := by
    cases storing : job.isStore with
    | true =>
        exact (exhausted.stored job active storing).resolve_left
          (not_not_intro unfailed)
    | false =>
        rcases exhausted.halted job active storing with
          failed | all | ⟨closed, _⟩
        · exact absurd unfailed failed
        · exact all
        · rw [opens] at closed
          cases closed
  obtain ⟨hash, waiting⟩ :=
    waits_of_scheduled held restNow noLoads unsetNow scheduled
  obtain ⟨entry, listed, _⟩ := ready_of_waits held restNow waiting
  rw [none] at listed
  cases listed

/-- Where the first descriptor blocks, every file that was left waits for a
preload. -/
private theorem scheduled_of_unpressed
    (unpressed : state.hasRealLoadPressure env = false)
    (sharing : env.sharePreload = true)
    (unscheduled : Unscheduled start file) :
    file.index < (state.jobs file.job).nextFileIndex := by
  have active : file.job ∈ state.active := by
    obtain ⟨_, _, _, rfl⟩ := exhausted.waited.same
    exact unscheduled.active
  have unfailed : (state.jobs file.job).failed = none :=
    (exhausted.waited.futures file.job).1.trans unscheduled.unfailed
  rcases exhausted.halted file.job unscheduled.active unscheduled.loading with
    failed | all | ⟨_, wants⟩
  · exact absurd unfailed failed
  · exact file.inJob.trans_le all
  · by_contra later
    have left : (state.jobs file.job).nextFileIndex < file.job.totalFiles :=
      (Nat.le_of_not_lt later).trans_lt file.inJob
    have wanted := wants sharing (unset_of_left held active unfailed left)
    have pressed : state.hasRealLoadPressure env = true := by
      unfold State.hasRealLoadPressure
      rw [Bool.or_eq_true, List.any_eq_true]
      exact Or.inr ⟨file.job, active, wanted⟩
    rw [unpressed] at pressed
    cases pressed

/-- The descriptor that blocks held up the loads from the start. -/
theorem heldUp (rest : AtRest start) (unstopped : start.stop = false)
    (blocked : Blocked env state) : HeldUp env start := by
  obtain ⟨fd, info, later, ready, unawaited, unpressed, full⟩ := blocked
  have restNow := rest.waited exhausted.waited
  have unstoppedNow : state.stop = false := by
    obtain ⟨_, _, _, rfl⟩ := exhausted.waited.same
    exact unstopped
  obtain ⟨live, books⟩ := slotBooks_of_held held unstoppedNow
  have sharing : env.sharePreload = true := by
    by_contra owned
    rw [Bool.not_eq_true] at owned
    have spare :=
      restNow.spare_of_owned held.inv unstoppedNow books owned
    rw [full] at spare
    cases spare
  have since : ∀ file, Unscheduled start file →
      BeingPreloaded env start file ∧
        state.preloadWaiters.queue file.hash ≠ [] := fun file unscheduled =>
    exhausted.waited.covered file unscheduled.next
      (exhausted.scheduled_of_unpressed held unpressed sharing unscheduled)
  have nobody : state.preloadWaiters.queue info.blockHash = [] := by
    rw [State.hasPreloadWaiter, ← Bool.not_eq_true,
      QueueTable.contains_iff, not_not] at unawaited
    exact unawaited
  refine ⟨sharing, rest.ready, exhausted.noLoads, ?_, ?_,
    fun file unscheduled => (since file unscheduled).1, fd, info, later, ?_,
    ?_, fun file unscheduled same => ?_⟩
  · intro job active storing
    have stored := exhausted.stored job active storing
    unfold Stored at stored ⊢
    rwa [exhausted.waited.stores storing] at stored
  · obtain ⟨_, _, _, rfl⟩ := exhausted.waited.same
    exact full
  · obtain ⟨_, _, _, rfl⟩ := exhausted.waited.same
    exact ready
  · rw [State.hasPreloadWaiter, ← Bool.not_eq_true, QueueTable.contains_iff]
    exact fun waiting => exhausted.waited.queue waiting nobody
  · exact (since file unscheduled).2 (same ▸ nobody)

end Exhausted

/-- `_schedule_work` moves something, unless a speculative descriptor held up
the loads from the start. -/
theorem scheduleWork_moves (answers : Answers env)
    (held : Held (RestInv env) Hand.empty start) (rest : AtRest start)
    (unstopped : start.stop = false)
    (usable : ∀ entry ∈ start.readyFdsPreload, 0 ≤ entry.1)
    (active : job ∈ start.active)
    (unset : (start.jobs job).futureSet = false) :
    wp (scheduleWork env)
      (fun _ next => Moved start next ∨ HeldUp env start) Crash start := by
  have unbound := moved_unbound answers.quiet start
  have rules := restRules answers
  obtain ⟨live, books⟩ := slotBooks_of_held held unstopped
  have kept := scheduleJobs_held rules idle_empty
    (fun round _ => roundPermits answers round.1 round.2) rfl
    (drainReadyLoadFds_held rules allows_crash idle_empty held)
  have moves := scheduleJobs_moves answers (rest.issues held.inv)
    (rest.reservable held.inv books)
  rw [scheduleWork_eq]
  refine wp_seq (wp_mono (wp_and kept moves) (fun _ _ both => both)
    fun _ _ _ => trivial) ?_
  rintro _ middle ⟨heldNow, moved | exhausted⟩
  · exact wp_post (stays_of_keeps unbound.schedulePreloads_keeps moved)
      fun _ _ => Or.inl
  · have restNow := rest.waited exhausted.waited
    have unstoppedNow : middle.stop = false := by
      obtain ⟨_, _, _, rfl⟩ := exhausted.waited.same
      exact unstopped
    have usableNow : ∀ entry ∈ middle.readyFdsPreload, 0 ≤ entry.1 := by
      obtain ⟨_, _, _, rfl⟩ := exhausted.waited.same
      exact usable
    obtain ⟨liveNow, booksNow⟩ := slotBooks_of_held heldNow unstoppedNow
    have onward : Keeps (Moved start)
        (do
          let state ← get
          loop drainCancelledPending (state.preloadPending.length + 1)
          let state ← get
          onlyIf (state.canIssueSpeculativePreload env = true)
            (loop (speculate env) (state.preloadPending.length + 1))) :=
      .bind .get fun _ =>
        .bind (.loop unbound.framed.drainCancelledPending_keeps _) fun _ =>
          .bind .get fun _ =>
            .onlyIf (.loop unbound.framed.speculate_keeps _)
    refine wp_seq (drainReadyPreloadFds_moves answers start
      (restNow.issues heldNow.inv) (restNow.reservable heldNow.inv booksNow)
      usableNow) ?_
    rintro _ drained (moved | none | blocked)
    · exact wp_post (stays_of_keeps onward moved) fun _ _ => Or.inl
    · exact absurd none (exhausted.ready heldNow rest active unset)
    · have heldUp := exhausted.heldUp heldNow rest unstopped blocked
      exact wp_post wp_trivial fun _ _ _ => Or.inr heldUp

/-! ## The rest of the pump -/

private theorem launchFusedCopy_returns (answers : Answers env) :
    wp (launchFusedCopy env) (fun _ _ => True) (fun _ _ => False)
      state := by
  simp only [launchFusedCopy, wp_bind, wp_external]
  exact ⟨fun _ => ⟨fun _ => ⟨fun _ => trivial,
    fun _ raised => answers.refuses raised (by simp)⟩,
    fun _ raised => answers.refuses raised (by simp)⟩,
    fun _ raised => answers.refuses raised (by simp)⟩

/-- The copies that are ready are launched or settled. -/
theorem flushCopyBatch_issues (answers : Answers env)
    (since : NoFewer start state) (moved : Moved start state) :
    wp (flushCopyBatch env) (fun _ next => Issued start next)
      Crash state := by
  have framed := (issued_unbound answers.quiet start).framed
  have counting := (noFewer_unbound answers.quiet start).framed
  unfold flushCopyBatch
  rw [wp_bind, wp_get]
  by_cases ready : state.copyReady = []
  · rw [if_pos ready]
    exact moved.resolve_right (not_not_intro ready)
  rw [if_neg ready, wp_bind, wp_modify]
  obtain ⟨first, later, isReady⟩ := List.exists_cons_of_ne_nil ready
  split
  · rw [isReady, List.map_cons]
    refine wp_seq (wp_seq (stays_of_keeps
      (counting.settleLoadSlot_keeps first.copy) (by exact since))
      fun _ _ sofar => fileTerminal_issues answers.quiet sofar) ?_
    intro _ _ issued
    exact stays_of_keeps (.forM fun copy => framed.settleMember_keeps
      (fileTerminal_issued answers.quiet copy.file none)) issued
  · refine wp_seq wp_trivial fun _ _ _ => wp_seq wp_trivial fun _ _ _ => ?_
    rw [wp_bind, wp_attempt]
    exact wp_mono (launchFusedCopy_returns answers)
      (fun _ _ _ => Or.inr (Or.inl (List.concat_ne_nil _ _)))
      fun _ _ => False.elim

/-- With nothing in the ring and no copy under way a pump finds no copy and no
completion to look at. -/
theorem wp_pumpOnce (answers : Answers env)
    (ring : start.inflight.entries = []) (copies : start.pendingCopies = [])
    {post : PUnit → State slotCount → Prop}
    (onward : wp (do
        scheduleWork env
        flushCopyBatch env
        external env .submitPending
        finishJobs) post fail start.tick) :
    wp (pumpOnce env) post fail start := by
  have polled : wp (pollRingCompletions env)
      (fun _ next => next = start.tick) fail start := by
    simp only [pollRingCompletions, pollAll, wp_bind, wp_get, wp_external,
      wp_pure]
    refine ⟨fun _ => ?_, fun _ raised =>
      (answers.refuses raised (by simp)).elim⟩
    refine wp_forM (fun _ current => current = start.tick) ?_ _ rfl
    rintro completion _ _ rfl
    have absent : start.tick.inflight.find? completion.1 = none := by
      rw [OrderedDict.find?_eq_none_iff]
      simp [State.tick, ring]
    simp only [reapCompletion, wp_bind, wp_get, absent, wp_pure]
  unfold pumpOnce drainCudaCopies
  rw [wp_bind, wp_bind, wp_get, copies]
  refine wp_seq polled ?_
  rintro _ _ rfl
  exact onward

/-- A pump issues something, unless a speculative descriptor holds up the
loads. -/
theorem pumpOnce_issues (answers : Answers env)
    (held : Held (RestInv env) Hand.empty start)
    (ring : start.inflight.entries = []) (copies : start.pendingCopies = [])
    (unstopped : start.stop = false)
    (usable : ∀ entry ∈ start.readyFdsPreload, 0 ≤ entry.1)
    (active : job ∈ start.active)
    (unset : (start.jobs job).futureSet = false) :
    wp (pumpOnce env)
      (fun _ next => Issued start next ∨ HeldUp env start) Crash start := by
  have issued := issued_unbound answers.quiet start
  have counting := noFewer_unbound answers.quiet start
  have moved := moved_unbound answers.quiet start
  have worked : wp (scheduleWork env)
      (fun _ next => Moved start next ∨ HeldUp env start)
      Crash start.tick := by
    by_cases ready : start.copyReady = []
    · refine wp_post (scheduleWork_moves answers
        ((restRules answers).move held .tick) ⟨ring, copies, ready⟩
        unstopped usable active unset) fun _ _ reached => ?_
      exact reached.imp_right HeldUp.of_tick
    · exact wp_post (stays_of_keeps moved.scheduleWork_keeps
        (Or.inr (by exact ready))) fun _ _ => Or.inl
  have since : wp (scheduleWork env) (fun _ next => NoFewer start next)
      Crash start.tick :=
    stays_of_keeps counting.scheduleWork_keeps (Nat.le_refl _)
  refine wp_pumpOnce answers ring copies ?_
  refine wp_seq (wp_mono (wp_and worked since) (fun _ _ both => both)
    fun _ _ _ => trivial) ?_
  rintro _ next ⟨moved | heldUp, sofar⟩
  · refine wp_seq (flushCopyBatch_issues answers sofar moved) ?_
    intro _ _ flushed
    refine wp_seq (stays_of_keeps (issued.framed.external_keeps _) flushed)
      fun _ _ submitted => ?_
    exact Or.inl submitted
  · exact wp_post wp_trivial fun _ _ _ => Or.inr heldUp

/-! ## A pump that moves nothing -/

/-- Still nothing in the ring and no copy, no file has ended, and preloads get
no slot. -/
structure Idles (env : Env slotCount) (start state : State slotCount) :
    Prop where
  rest : AtRest state
  terminals : state.terminals = start.terminals
  noSlots : state.preloadSlotsAvailable env = false

private theorem scheduleSharedLoad_joins (quiet : env.Quiet)
    (inflight : state.hasInflightPreload file.hash = true)
    (uncached : state.sharedCached.find? file.hash = none) :
    wp (scheduleSharedLoad env file)
      (fun _ next => next = joined state file) fail state := by
  simp only [scheduleSharedLoad, wp_bind, wp_get]
  rw [uncached]
  simp only [inflight, if_true, wp_bind, wp_pure]
  exact (schedulePreloadInflight_joins quiet).mpr rfl

namespace HeldUp

variable (heldUp : HeldUp env start)

include heldUp

private theorem scheduleLoadFile_waits (answers : Answers env)
    (waited : Waited env start state)
    (unstaged : ∀ hash, start.inStagingCache hash = false)
    (active : job ∈ start.active) (loading : job.isStore = false) :
    wp (scheduleLoadFile env job) (fun _ next => Waited env start next)
      fail state := by
  simp only [scheduleLoadFile, wp_bind, wp_get]
  split
  · exact waited
  next unfailed =>
    split
    next inJob =>
      rw [Bool.not_eq_true, Option.isSome_eq_false_iff,
        Option.isNone_iff_eq_none] at unfailed
      let file : FileRef := ⟨job, (state.jobs job).nextFileIndex, inJob⟩
      have unscheduled : Unscheduled start file :=
        ⟨active, loading, (waited.futures job).1 ▸ unfailed,
          waited.next_le job⟩
      have preloaded := heldUp.preloaded file unscheduled
      have joins := waited.join file unscheduled rfl preloaded
      have missed : state.inStagingCache file.hash = false := by
        obtain ⟨_, _, _, rfl⟩ := waited.same
        exact unstaged file.hash
      have inflight : state.hasInflightPreload file.hash = true := by
        obtain ⟨_, _, _, rfl⟩ := waited.same
        exact preloaded.1
      have uncached : state.sharedCached.find? file.hash = none := by
        obtain ⟨_, _, _, rfl⟩ := waited.same
        exact preloaded.2 heldUp.sharing
      rw [wp_bind]
      refine wp_getCached (fun _ => ?_) fun cache slot staged found => ?_
      · rw [heldUp.sharing, if_pos rfl]
        refine wp_post (scheduleSharedLoad_joins answers.quiet inflight
          uncached) ?_
        rintro _ _ rfl
        exact joins
      · rw [State.inStagingCache, staged, Option.any_some] at missed
        have contained := OrderedDict.contains_iff.mpr ⟨slot, found⟩
        rw [StagingDataCache.contains, contained] at missed
        cases missed
    next => exact waited

private theorem scheduleLoads_wait (answers : Answers env)
    (unstaged : ∀ hash, start.inStagingCache hash = false) :
    wp (start.active.forM (scheduleLoadJob env))
      (fun _ next => Waited env start next) fail start := by
  refine wp_forM_turns (fun current => Waited env start current) _
    (fun turn member waited => ?_) .refl
  have active := mem_of_mem_turns member
  unfold scheduleLoadJob
  split
  · exact waited
  next loading =>
    rw [Bool.not_eq_true] at loading
    exact wp_loop _ (fun _ sofar => heldUp.scheduleLoadFile_waits answers
      sofar unstaged active loading) _ waited

private theorem scheduleStores_stop (waited : Waited env start state) :
    wp (start.active.forM (scheduleStoreJob env))
      (fun _ next => next = state) fail state := by
  refine wp_forM_turns (fun current => current = state) _
    (fun turn member same => ?_) rfl
  have active := mem_of_mem_turns member
  rw [same]
  unfold scheduleStoreJob
  split
  next storing =>
    have stored := heldUp.noStores turn.1 active storing
    unfold Stored at stored
    rw [← waited.stores storing] at stored
    have stops : wp (scheduleStoreFile env turn.1)
        (fun again next => False ∨ (again = false ∧ next = state))
        fail state := by
      simp only [scheduleStoreFile, wp_bind, wp_get]
      split
      · exact Or.inr ⟨rfl, rfl⟩
      next issues =>
        simp only [Bool.or_eq_true, not_or, Bool.not_eq_true,
          Option.isSome_eq_false_iff, Option.isNone_iff_eq_none] at issues
        have all := stored.resolve_left (not_not_intro issues.1)
        rw [dif_neg (Nat.not_lt.mpr all)]
        exact Or.inr ⟨rfl, rfl⟩
    exact wp_post (wp_loop_first (fun _ => False.elim) stops _)
      fun _ _ reached => reached.resolve_left id
  next => rfl

private theorem unpressed (rest : AtRest start)
    (waited : Waited env start state) :
    state.hasRealLoadPressure env = false := by
  have noLoads : state.readyFdsLoad = [] := by
    obtain ⟨_, _, _, rfl⟩ := waited.same
    exact heldUp.noLoads
  unfold State.hasRealLoadPressure
  rw [noLoads, (rest.waited waited).values]
  simp only [List.isEmpty_nil, Bool.not_true, List.any_nil, Bool.or_false,
    Bool.false_or, List.any_eq_false]
  intro job active
  unfold State.wantsRead
  simp only
  split
  · exact Bool.false_ne_true
  next open' =>
    simp only [Bool.or_eq_true, not_or, Bool.not_eq_true,
      Option.isSome_eq_false_iff, Option.isNone_iff_eq_none] at open'
    split
    next inJob =>
      have listed : job ∈ start.active := by
        obtain ⟨_, _, _, rfl⟩ := waited.same
        exact active
      have unscheduled : Unscheduled start
          ⟨job, (state.jobs job).nextFileIndex, inJob⟩ :=
        ⟨listed, open'.1.1, (waited.futures job).1 ▸ open'.1.2,
          waited.next_le job⟩
      have inflight := (heldUp.preloaded _ unscheduled).1
      have same : state.hasInflightPreload = start.hasInflightPreload := by
        obtain ⟨_, _, _, rfl⟩ := waited.same
        rfl
      rw [← same] at inflight
      simp [State.preloadHasCopy, inflight]
    next => exact Bool.false_ne_true

private theorem drainReadyPreloadFds_stops (rest : AtRest start)
    (waited : Waited env start state) :
    wp (drainReadyPreloadFds env) (fun _ next => next = state)
      fail state := by
  obtain ⟨fd, info, later, ready, unawaited, apart⟩ := heldUp.unneeded
  have readyNow : state.readyFdsPreload = (fd, info) :: later := by
    obtain ⟨_, _, _, rfl⟩ := waited.same
    exact ready
  have full : hasSpareSlot state = false := by
    obtain ⟨_, _, _, rfl⟩ := waited.same
    exact heldUp.full
  have nobody : ¬ state.hasPreloadWaiter info.blockHash = true := by
    rw [State.hasPreloadWaiter, QueueTable.contains_iff]
    intro waiting
    rcases waited.of_queue waiting with before | ⟨file, unscheduled, same⟩
    · rw [State.hasPreloadWaiter, ← Bool.not_eq_true,
        QueueTable.contains_iff] at unawaited
      exact unawaited before
    · exact apart file unscheduled same
  have calm := heldUp.unpressed rest waited
  have stops : wp (drainReadyPreloadFd env)
      (fun again next => False ∨ (again = false ∧ next = state))
      fail state := by
    simp only [drainReadyPreloadFd, wp_bind, wp_get]
    rw [readyNow]
    simp only
    rw [if_neg nobody, calm, if_neg Bool.false_ne_true, wp_ite]
    refine ⟨fun _ => ?_, fun _ => Or.inr ⟨rfl, rfl⟩⟩
    refine wp_seq (reservePreloadSlot_misses full) ?_
    rintro _ _ ⟨rfl, rfl⟩
    exact Or.inr ⟨rfl, rfl⟩
  unfold drainReadyPreloadFds
  rw [wp_bind, wp_get]
  exact wp_post (wp_loop_first (fun _ => False.elim) stops _)
    fun _ _ reached => reached.resolve_left id

private theorem schedulePreloads_idles (rest : AtRest start)
    (noSlots : start.preloadSlotsAvailable env = false)
    (waited : Waited env start state) :
    wp (schedulePreloads env) (fun _ next => Idles env start next)
      fail state := by
  have idles : Idles env start state := by
    have restNow := rest.waited waited
    obtain ⟨_, _, _, rfl⟩ := waited.same
    exact ⟨restNow, rfl, noSlots⟩
  unfold schedulePreloads
  refine wp_seq (heldUp.drainReadyPreloadFds_stops rest waited) ?_
  rintro _ _ rfl
  rw [wp_bind, wp_get]
  refine wp_seq (wp_loop _ (fun current sofar => ?_) _ idles) ?_
  · simp only [drainCancelledPending, wp_bind, wp_get]
    split
    · exact sofar
    · simp only [consumePendingCancel, dropFirstPending, pendingDec, wp_ite,
        wp_bind, wp_modify, wp_pure]
      exact ⟨fun _ => ⟨⟨sofar.rest.ring, sofar.rest.copies,
        sofar.rest.ready⟩, sofar.terminals, sofar.noSlots⟩, fun _ => sofar⟩
  · intro _ drained idlesNow
    simp only [wp_bind, wp_get, wp_onlyIf]
    refine ⟨fun _ => wp_loop _ (fun current sofar => ?_) _ idlesNow,
      fun _ => idlesNow⟩
    simp only [speculate, wp_bind, wp_get, sofar.noSlots, Bool.and_false,
      Bool.false_eq_true, if_false]
    split
    · exact sofar
    · exact sofar

/-- A pump that is held up issues nothing. -/
theorem pumpOnce_idles (answers : Answers env)
    (held : Held (RestInv env) Hand.empty start)
    (ring : start.inflight.entries = []) (copies : start.pendingCopies = [])
    (unstopped : start.stop = false) :
    wp (pumpOnce env) (fun _ next => ¬ Issued start next) fail start := by
  have ticked := heldUp.tick
  have rest : AtRest start.tick := ⟨ring, copies, heldUp.launched⟩
  have heldNow := (restRules answers).move held .tick
  obtain ⟨live, books⟩ := slotBooks_of_held heldNow unstopped
  have unstaged := rest.unstaged_of_no_spare books.lent ticked.full
  have noSlots :=
    rest.not_preloadSlotsAvailable heldNow.inv unstopped books ticked.full
  have drained : wp (drainReadyLoadFds env)
      (fun _ next => next = start.tick) fail start.tick := by
    have none : start.tick.readyFdsLoad = [] := ticked.noLoads
    simp only [drainReadyLoadFds, drainReadyLoadFd, wp_bind, wp_get, none,
      List.length_nil, loop, wp_pure, Bool.false_eq_true,
      if_false]
  refine wp_pumpOnce answers ring copies ?_
  unfold scheduleWork
  simp only [bind_assoc]
  refine wp_seq drained ?_
  rintro _ _ rfl
  rw [wp_bind, wp_get]
  refine wp_seq (ticked.scheduleLoads_wait answers unstaged)
    fun _ loaded waited => ?_
  refine wp_seq (ticked.scheduleStores_stop waited) ?_
  rintro _ _ rfl
  refine wp_seq (ticked.schedulePreloads_idles rest noSlots waited)
    fun _ last idles => ?_
  have unready : last.copyReady = [] := idles.rest.ready
  simp only [flushCopyBatch, unready, if_true, wp_bind, wp_get, wp_pure,
    wp_external, finishJobs, wp_modify]
  refine ⟨fun _ => ?_,
    fun _ raised => (answers.refuses raised (by simp)).elim⟩
  rintro (queued | copied | more)
  · exact queued idles.rest.ring
  · exact copied idles.rest.copies
  · exact absurd more (Nat.not_lt.mpr
      (Nat.le_of_eq (congrArg List.length idles.terminals)))

end HeldUp

/-! ## The next pump -/

private theorem pumpOnce_returns (answers : Answers env)
    (held : Held (RestInv env) Hand.empty start)
    (ring : start.inflight.entries = [])
    (copies : start.pendingCopies = []) :
    wp (pumpOnce env) (fun _ _ => True) (fun _ _ => False) start := by
  have rules := restRules answers
  have allows : Allows env fun (_ : Exc) (_ : State slotCount) => False :=
    Or.inl answers.steady
  have worked := scheduleWork_held rules allows idle_empty
    (fun round _ => roundPermits answers round.1 round.2) rfl
    (rules.move held .tick)
  refine wp_pumpOnce answers ring copies ?_
  refine wp_seq worked fun _ _ kept => ?_
  refine wp_seq (flushCopyBatch_held rules allows rfl idle_empty kept)
    fun _ _ _ => ?_
  rw [wp_bind, wp_external]
  exact ⟨fun _ => trivial, fun _ raised => answers.refuses raised nofun⟩

theorem hand_of_copies (base : Base machine.phase.hand machine.state)
    (copies : machine.state.pendingCopies = []) :
    machine.phase.hand = Hand.empty := by
  obtain ⟨phase, state⟩ := machine
  cases phase with
  | copies todo =>
      have rest := base.todo
      rw [copies, List.sublist_nil] at rest
      have none : todo = [] := rest
      subst none
      rfl
  | _ => rfl

section Examples

/-- A load of three blocks, for a request that preloads them. -/
def preloadedLoad : Job :=
  { Job.ofChunks 0 false [[4], [5], [8]] [[7], [8], [9]] rfl (by decide) with
    reqId := "a" }

/-- Every operation succeeds.  The opens of blocks nine and eight complete
last, after everything else. -/
def lateDescriptors : Env 5 :=
  .smooth true fun calls =>
    match calls with
    | 6 => [(1, 3), (2, 4), (3, 5)]
    | 9 => [(5, 1)]
    | 14 => [(7, 1)]
    | 19 => [(9, 1)]
    | 31 => [(11, 6), (12, 7)]
    | 34 => [(14, 1)]
    | 47 => [(16, 1)]
    | 61 => [(4, 8), (13, 9), (6, 0), (8, 0), (10, 0), (15, 0), (17, 0)]
    | _ => []

/-- Five shared blocks fill the pool, two of them promoted for the load beyond
the cap of the preloads. -/
def fullPool : List Event :=
  .preload ⟨[[1], [2], [3], [9], [4], [5], [8]], "p", "a"⟩ ::
    .preload ⟨[[1], [2], [3], [4], [5]], "q", "b"⟩ ::
      List.replicate 53 .advance ++
        .submit preloadedLoad :: List.replicate 68 .advance

/-- Where that run ends. -/
@[irreducible]
def filledUp : Machine 5 :=
  (Machine.init lateDescriptors).play lateDescriptors fullPool

theorem answers_lateDescriptors : Answers lateDescriptors :=
  fun _ _ => Or.inl rfl

theorem filledUp_reached : Machine.ReachableUnder lateDescriptors
    (ServesWaiter lateDescriptors) filledUp := by
  unfold filledUp
  exact (Machine.reachable_play _ (by decide +kernel)).under
    fun _ => servesWaiter_of_sharing rfl

private theorem filledUp_state :
    filledUp.phase = .loopHead ∧ filledUp.state.stop = false ∧
      filledUp.state.incoming = [] ∧
      filledUp.state.inflight.entries = [] ∧
      filledUp.state.pendingCopies = [] ∧
      preloadedLoad ∈ filledUp.state.active ∧
      (filledUp.state.jobs preloadedLoad).future = none ∧
      (filledUp.state.readyFdsPreload.map fun entry => entry.2.blockHash) =
        [[9], [8]] ∧
      filledUp.state.hasPreloadWaiter [8] = true := by
  decide +kernel

private theorem filledUp_stuck :
    ¬ PumpProgresses lateDescriptors filledUp.state := by
  rintro ⟨after, ran, issued⟩
  have left : (pumpOnce lateDescriptors).leaves filledUp.state = after := by
    unfold leaves
    rw [ran]
  rw [← left] at issued
  exact absurd issued (by decide +kernel)

end Examples

end PyKvCache.Progress
