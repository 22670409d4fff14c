import PyKvCache.Ledger.Completions

/-!
# Scheduling as moves

The parts of `_schedule_work` start and end with nothing in hand.  A file is
started only for a job of the list the loop runs over.
-/

namespace PyKvCache.Ledger

open PyKvCache.Library PyKvCache.Staging PyKvCache.Transfer
open PyKvCache.Reactor PyKvCache.Library.Effect

variable {slotCount : Nat} {env : Env slotCount} {slack : Slack}
  {inv : Hand slotCount → State slotCount → Prop}
  {hand : Hand slotCount} {state : State slotCount}
  {post : PUnit → State slotCount → Prop}
  {fail : Exc → State slotCount → Prop}

/-! ## Calls nobody handles -/

/-- The ring takes every close, and CUDA makes every event. -/
structure Steady (env : Env slotCount) : Prop where
  closes : ∀ userData fd number,
    env.raises (.queueClose userData fd) number = none
  events : ∀ number, env.raises .newEvent number = none

/-- Scheduling meets no exception that nobody handles, or it may raise. -/
def Allows (env : Env slotCount) (fail : Exc → State slotCount → Prop) :
    Prop :=
  Steady env ∨ ∀ exc final, fail exc final

theorem allows_crash : Allows env Crash :=
  Or.inr fun _ _ => trivial

theorem asyncClose_allowed (rules : Rules env slack inv)
    (allows : Allows env fail) (held : Held inv hand state) (fd : Int) :
    wp (asyncClose env fd) (fun _ next => Held inv hand next)
      fail state := by
  have closed := asyncClose_held rules held fd
  rcases allows with steady | allowed
  · unfold asyncClose at closed ⊢
    simp only [newUserData, wp_ite, wp_bind, wp_modifyGet, wp_attempt,
      wp_external, wp_modify, steady.closes] at closed ⊢
    refine ⟨closed.1, fun usable => ⟨(closed.2 usable).1, by simp⟩⟩
  · exact wp_mono closed (fun _ _ kept => kept)
      fun exc final _ => allowed exc final

theorem newEvent_allowed (rules : Rules env slack inv)
    (allows : Allows env fail) (held : Held inv hand state) :
    wp (external env .newEvent) (fun _ next => Held inv hand next)
      fail state := by
  rw [wp_external]
  refine ⟨fun _ => rules.move held .tick, fun fault raised => ?_⟩
  rcases allows with steady | allowed
  · rw [steady.events] at raised
    cases raised
  · exact allowed _ _

/-! ## Files that may start -/

/-- The next file of an active job that has not failed. -/
structure Startable (hand : Hand slotCount) (state : State slotCount)
    (file : FileRef) : Prop where
  known : file.job ∈ hand.known
  unfailed : (state.jobs file.job).failed = none
  next : (state.jobs file.job).nextFileIndex = file.index

theorem Startable.transfer {other : Hand slotCount}
    {next : State slotCount} {file : FileRef}
    (startable : Startable hand state file)
    (known : other.known = hand.known)
    (jobs : next.jobs = state.jobs) : Startable other next file :=
  ⟨known ▸ startable.known, jobs ▸ startable.unfailed,
    jobs ▸ startable.next⟩

theorem startLoad_held (rules : Rules env slack inv)
    (held : Held inv hand state) {file : FileRef}
    (loading : file.job.isStore = false)
    (startable : Startable hand state file) :
    Held inv { hand with files := file :: hand.files }
      (started state file.job) :=
  rules.move held
    (.startLoad loading startable.known startable.unfailed startable.next)

/-! ## Submissions -/

theorem submitOpenRead_held (rules : Rules env slack inv)
    (held : Held inv hand state) {file : FileRef}
    (loading : file.job.isStore = false)
    (startable : Startable hand state file)
    (opens : state.canOpen env = true) (unprimed : hand.primed = 0) :
    wp (submitOpenRead env file) (fun _ next => Held inv hand next)
      fail state := by
  have begun := startLoad_held rules held loading startable
  have ticked := rules.move (rules.move begun .userData) .tick
  simp only [submitOpenRead, startFile, modifyJob, newUserData, wp_bind,
    wp_modify, wp_modifyGet, wp_attempt, wp_external]
  constructor
  · intro _
    exact rules.move ticked
      (.openLoad rfl begun.base.next_unused (Nat.le_refl _) opens
        unprimed)
  · intro _ _
    exact endLoad_held rules ticked rfl _

theorem submitOpenPreload_held (rules : Rules env slack inv)
    (hand : Hand slotCount) (noDue : hand.due = [])
    (unprimed : hand.primed = 0) (noRooms : hand.rooms = 0)
    (info : PreloadInfo) {clean : Bool}
    (held : Held inv
      { hand with tokens := (info.blockHash, clean) :: hand.tokens } state)
    (served : clean = true ∨ info.blockHash ∈ hand.promised)
    (opens : state.canOpen env = true)
    (room : state.OpenQueued env info.blockHash →
      (env.sharePreload = true ∧ slack.overdraws = true) ∨
        state.preloadSlotsAvailable env = true) :
    wp (submitOpenPreload env info)
      (fun _ next => Held inv hand next ∧ next.jobs = state.jobs ∧
        (state.OpenQueued env info.blockHash →
          0 < next.preloadInflightHashes.count info.blockHash))
      fail state := by
  have ticked := rules.move (rules.move held .userData) .tick
  simp only [submitOpenPreload, preloadInflightAdd, newUserData, wp_bind,
    wp_modify, wp_modifyGet, wp_attempt, wp_external, wp_pure]
  constructor
  · intro queued
    refine ⟨rules.move ticked (.openPreload rfl served (room queued) noDue
      held.base.next_unused (Nat.le_refl _) opens unprimed noRooms), rfl,
      fun _ => ?_⟩
    rw [CountTable.count_addOne, if_pos rfl]
    exact Nat.succ_pos _
  · intro _ raised
    refine ⟨rules.move ticked (.tokenDrop rfl), rfl, fun queued => ?_⟩
    have accepted : env.raises _ _ = none := queued
    rw [accepted] at raised
    cases raised

/-- What a reader without a slot leaves in hand. -/
def Hand.reader (hand : Hand slotCount) : Reader → Hand slotCount
  | .load file => { hand with files := file :: hand.files }
  | .preload info => { hand with preloads := info :: hand.preloads }

theorem failReadyRead_held (rules : Rules env slack inv)
    {reader : Reader} (exc : Exc)
    (held : Held inv (hand.reader reader) state) :
    wp (failReadyRead env reader exc) (fun _ next => Held inv hand next)
      fail state := by
  cases reader with
  | load file => exact endLoad_held rules held rfl _
  | preload info =>
      simp only [failReadyRead, preloadInflightRemove, wp_bind,
        wp_addEvent rules.quiet, wp_modify, wp_ite, wp_pure]
      have ticked := rules.move held .tick
      have done := preloadDone_held rules false ticked (by simp)
      refine ⟨fun sharing => ?_, fun owned => ?_⟩
      · exact wp_post (failAllPreloadWaiters_held rules
          { hand with tokens := (info.blockHash, false) :: hand.tokens }
          sharing done _)
          fun _ _ kept => rules.move kept.1 (.tokenDrop rfl)
      · rw [Bool.not_eq_true] at owned
        refine preloadWaiterPop_owned rules
          { hand with tokens := (info.blockHash, false) :: hand.tokens }
          owned done
          (fun kept _ => rules.move kept (.tokenDrop rfl)) ?_
        intro file later next _ _ woken
        have dropped := rules.move woken (.tokenDrop rfl)
        exact endLoad_held rules dropped rfl _

theorem submitReadFromReady_held (rules : Rules env slack inv)
    (allows : Allows env fail) (reader : Reader) {slot : Fin slotCount}
    (fd : Int) (unit : state.dataInflight < env.iodepth)
    (held : Held inv (hand.readDone slot none reader) state) :
    wp (submitReadFromReady env reader fd slot)
      (fun _ next => Held inv hand next) fail state := by
  have ticked := rules.move (rules.move held .userData) .tick
  have unused := held.base.next_unused
  simp only [submitReadFromReady, fillSlot, newUserData, release, wp_bind,
    wp_modify, wp_modifyGet, wp_attempt, wp_external]
  constructor
  · intro _
    cases reader with
    | load file =>
        exact rules.move ticked
          (.readLoad fd rfl rfl unused (Nat.le_refl _) unit)
    | preload info =>
        exact rules.move ticked
          (.readPreload fd rfl rfl unused (Nat.le_refl _) unit)
  · intro _ _
    refine wp_post (asyncClose_allowed rules allows ticked fd) ?_
    intro _ next closed
    refine failReadyRead_held rules _ ?_
    cases reader with
    | load file => exact rules.move closed (.release rfl)
    | preload info => exact rules.move closed (.release rfl)

/-! ## Load files -/

/-- Where a load finds its file in the staging cache, its request does not
demand the block. -/
def HitUndemanded (env : Env slotCount) (state : State slotCount)
    (file : FileRef) : Prop :=
  env.sharePreload = true →
    ∀ cache slot, state.stagingCache = some cache →
      cache.slots.find? file.hash = some slot →
      ∀ mapping,
        loadMapping env.layout (slot.slotIndex : Nat) file.chunk =
            .ok mapping →
          state.preloadOwned.contains (file.job.reqId, file.hash) = false

/-- A round of the load loop makes no slip that is not allowed. -/
structure RoundPermits (env : Env slotCount) (slack : Slack) (job : Job)
    (state : State slotCount) : Prop where
  opens : slack.strands = true ∨ ∀ file ∈ state.nextLoad job,
    state.promotes env file = true → state.OpenQueued env file.hash
  fits : slack.overdraws = true ∨ ∀ file ∈ state.nextLoad job,
    state.promotes env file = true → state.OpenQueued env file.hash →
      state.preloadSlotsAvailable env = true
  returns : slack.retains = true ∨ ∀ file ∈ state.nextLoad job,
    HitUndemanded env state file

theorem scheduleCacheHit_held (rules : Rules env slack inv)
    (held : Held inv hand state) {file : FileRef}
    {cache : StagingDataCache (Fin slotCount)}
    {slot : CacheSlot (Fin slotCount)}
    (loading : file.job.isStore = false)
    (startable : Startable hand state file)
    (cached : state.stagingCache = some cache)
    (found : cache.slots.find? file.hash = some slot)
    (given : GivenBack env slack state file slot.slotIndex) :
    wp (scheduleCacheHit env file slot) (fun _ next => Held inv hand next)
      fail state := by
  have keyed := cache.keyed _ _ found
  have ticked := rules.move held .tick
  have pinned := rules.move ticked (.cachePin cached (keyed ▸ found))
  have begun := startLoad_held rules pinned loading
    (startable.transfer rfl rfl)
  have pinnedEq :
      (state.tick.stagingCache.map fun cache => cache.pin slot) =
        some (cache.pin slot) := by
    rw [show state.tick.stagingCache = some cache from cached]
    rfl
  simp only [scheduleCacheHit, pinCache, unpinCache, startFile, modifyJob,
    wp_bind, wp_addEvent rules.quiet, wp_modify, wp_handling, pinnedEq]
  refine wp_queueLoadCopy (fun mapping mapped => ?_) fun error _ => ?_
  · have queued :=
      rules.move begun (.queueCache mapping rfl rfl keyed.symm)
    exact rules.move queued (.serve rfl
      (given.imp_right fun rest => rest.imp_right fun given =>
        given mapping mapped))
  · have unpinned := rules.move begun (.cacheUnpin rfl rfl)
    exact endLoad_held rules unpinned rfl _

theorem schedulePreloadDone_held (rules : Rules env slack inv)
    (owned : env.sharePreload = false) (held : Held inv hand state)
    {file : FileRef} (loading : file.job.isStore = false)
    (startable : Startable hand state file) :
    wp (schedulePreloadDone env file) (fun _ next => Held inv hand next)
      fail state := by
  simp only [schedulePreloadDone, preloadCachePop, wp_bind, wp_modifyGet]
  cases popped : state.preloadSlots.popFront file.hash with
  | none => exact held
  | some entry =>
      obtain ⟨⟨slot, info⟩, table⟩ := entry
      obtain ⟨later, queued, rfl⟩ :=
        QueueTable.popFront_eq_some_iff.mp popped
      have taken := rules.move held (.preloadPop queued)
      have ticked := rules.move taken .tick
      have begun := startLoad_held rules ticked loading
        (startable.transfer rfl rfl)
      simp only [startFile, modifyJob, wp_bind, wp_addEvent rules.quiet,
        wp_modify, wp_handling]
      refine queueOwnCopy_held rules (Or.inr (Or.inl owned)) begun
        fun error _ => ?_
      simp only [release, wp_modify]
      exact endLoad_held rules (rules.move begun (.release rfl)) rfl _

theorem schedulePreloadInflight_held (rules : Rules env slack inv)
    (held : Held inv hand state) {file : FileRef}
    (loading : file.job.isStore = false)
    (startable : Startable hand state file)
    (room : (env.sharePreload = true ∧ slack.strands = true) ∨
      WaitRoom env state file.hash) :
    wp (schedulePreloadInflight env file)
      (fun _ next => Held inv hand next ∧
        next.preloadWaiters.queue file.hash ≠ [])
      fail state := by
  have ticked := rules.move held .tick
  have begun := startLoad_held rules ticked loading
    (startable.transfer rfl rfl)
  simp only [schedulePreloadInflight, startFile, modifyJob,
    preloadWaiterAdd, wp_bind, wp_addEvent rules.quiet, wp_modify]
  refine ⟨rules.move begun (.wait rfl room), ?_⟩
  rw [QueueTable.queue_pushBack, if_pos rfl]
  simp

theorem sharedClaimFromCache_held (rules : Rules env slack inv)
    (idle : Idle hand) (held : Held inv hand state) {file : FileRef}
    {slot : SharedSlot slotCount} (loading : file.job.isStore = false)
    (startable : Startable hand state file)
    (cached : state.sharedCached.find? file.hash = some slot) :
    wp (sharedClaimFromCache env file slot)
      (fun _ next => Held inv hand next) fail state := by
  have keyed := (held.base.registered _ _ cached).1
  have ticked := rules.move held .tick
  have begun := startLoad_held rules ticked loading
    (startable.transfer rfl rfl)
  have registered :
      (started state.tick file.job).sharedCached.find? slot.blockHash =
        some slot := by
    rw [keyed]
    exact cached
  have claimed := rules.move begun (.claim (Or.inr registered))
  simp only [sharedClaimFromCache, startFile, modifyJob, claimShared,
    unclaimShared, modifyShared, wp_bind, wp_addEvent rules.quiet,
    wp_modify, wp_handling]
  refine wp_queueLoadCopy (fun mapping _ => ?_) fun error _ => ?_
  · have queued :=
      rules.move claimed (.queueShared mapping rfl rfl keyed.symm)
    exact wp_post (sharedDecref_served rules hand idle.loose rfl queued)
      fun _ _ done => done.1
  · have unclaimed := rules.move claimed (.unclaim rfl)
    refine wp_post (endLoad_held rules unclaimed rfl _) ?_
    intro _ next ended
    refine wp_post (maybeReleaseShared_held rules ended rfl ?_ ?_) ?_
    · simp [idle.loose]
    · simp [idle.fresh]
    · rintro _ last ⟨kept, _⟩
      exact wp_post (sharedDecref_held rules kept idle.loose _ _)
        fun _ _ done => done.1

theorem promotePendingToSharedRead_held (rules : Rules env slack inv)
    (idle : Idle hand) (sharing : env.sharePreload = true)
    (held : Held inv hand state) {file : FileRef}
    (loading : file.job.isStore = false)
    (startable : Startable hand state file)
    (uncached : state.sharedCached.find? file.hash = none)
    (unread : state.preloadInflightHashes.count file.hash = 0)
    (pending : 0 < state.preloadPendingCount.count file.hash)
    (opens : state.canOpen env = true)
    (queues : slack.strands = true ∨ state.OpenQueued env file.hash)
    (fits : slack.overdraws = true ∨
      (state.OpenQueued env file.hash →
        state.preloadSlotsAvailable env = true)) :
    wp (promotePendingToSharedRead env file)
      (fun _ next => Held inv hand next) fail state := by
  have promised := rules.move held (.promise file.hash)
  -- the opened read is waited for as soon as the file is scheduled
  have opened : ∀ cancels : CountTable BlockHash,
      Held inv
        { hand with
          promised := file.hash :: hand.promised
          tokens := (file.hash, false) :: hand.tokens }
        { state with preloadPendingCancel := cancels } →
      wp (do
          submitOpenPreload env (makePreloadInfoForJob file)
          schedulePreloadInflight env file)
        (fun _ last => Held inv hand last) fail
        { state with preloadPendingCancel := cancels } := by
    intro cancels allowed
    refine wp_seq (submitOpenPreload_held rules
      { hand with promised := file.hash :: hand.promised } idle.due
      idle.primed idle.rooms (makePreloadInfoForJob file) allowed
      (Or.inr List.mem_cons_self) opens ?_) ?_
    · intro queued
      rcases fits with overdraws | fits
      · exact Or.inl ⟨sharing, overdraws⟩
      · exact Or.inr (fits queued)
    rintro _ middle ⟨kept, sameJobs, counted⟩
    have room : (env.sharePreload = true ∧ slack.strands = true) ∨
        WaitRoom env middle file.hash := by
      rcases queues with strands | queued
      · exact Or.inl ⟨sharing, strands⟩
      · refine Or.inr ?_
        unfold WaitRoom
        rw [if_pos sharing]
        exact counted queued
    refine wp_post (schedulePreloadInflight_held rules kept loading
      ⟨startable.known, ?_, ?_⟩ room) ?_
    · rw [sameJobs]
      exact startable.unfailed
    · rw [sameJobs]
      exact startable.next
    · rintro _ last ⟨waiting, queued⟩
      exact rules.move waiting (.fulfil rfl queued)
  simp only [promotePendingToSharedRead, cancelOnePending, wp_bind,
    wp_modifyGet]
  split
  next cancelled =>
    exact (wp_bind _ _).mp (opened state.preloadPendingCancel
      (rules.move promised (.tokenPromoted
        sharing uncached unread pending cancelled idle.tokens)))
  next live =>
    exact (wp_bind _ _).mp (opened _ (rules.move promised
      (.pendingCancel (not_le.mp live))))

theorem scheduleSharedLoad_held (rules : Rules env slack inv)
    (idle : Idle hand) (sharing : env.sharePreload = true)
    (held : Held inv hand state) {file : FileRef}
    (loading : file.job.isStore = false)
    (startable : Startable hand state file)
    (missed : state.inStagingCache file.hash = false)
    (next : file ∈ state.nextLoad file.job)
    (permits : RoundPermits env slack file.job state) :
    wp (scheduleSharedLoad env file) (fun _ next => Held inv hand next)
      fail state := by
  simp only [scheduleSharedLoad, wp_bind, wp_get]
  cases cached : state.sharedCached.find? file.hash with
  | some slot =>
      exact wp_seq (sharedClaimFromCache_held rules idle held loading
        startable cached) fun _ _ kept => kept
  | none =>
      simp only [wp_ite, wp_bind, wp_pure]
      refine ⟨fun inflight => ?_, fun unread => ⟨fun pending =>
        ⟨fun opens => ?_, fun _ => held⟩,
        fun _ => ⟨fun opens => ?_, fun _ => held⟩⟩⟩
      · have room : WaitRoom env state file.hash := by
          unfold WaitRoom
          rw [if_pos sharing]
          simpa [State.hasInflightPreload] using inflight
        exact wp_post (schedulePreloadInflight_held rules held loading
          startable (Or.inr room)) fun _ _ kept => kept.1
      · have idleRead :
            state.preloadInflightHashes.count file.hash = 0 := by
          simpa [State.hasInflightPreload] using unread
        have promoted : state.promotes env file = true := by
          simp [State.promotes, sharing, missed, cached,
            OrderedDict.contains, unread, pending, opens]
        exact promotePendingToSharedRead_held rules idle sharing held
          loading startable cached idleRead pending opens
          (permits.opens.imp_right fun opened =>
            opened file next promoted)
          (permits.fits.imp_right fun fits => fits file next promoted)
      · refine wp_post (submitOpenRead_held rules held loading startable
          opens idle.primed) ?_
        intro _ last kept
        exact wp_post (sharedDecref_held rules kept idle.loose _ _)
          fun _ _ done => done.1

theorem scheduleOwnedLoad_held (rules : Rules env slack inv)
    (idle : Idle hand) (owned : env.sharePreload = false)
    (held : Held inv hand state) {file : FileRef}
    (loading : file.job.isStore = false)
    (startable : Startable hand state file) :
    wp (scheduleOwnedLoad env file) (fun _ next => Held inv hand next)
      fail state := by
  simp only [scheduleOwnedLoad, wp_bind, wp_get, wp_ite, wp_pure]
  refine ⟨fun _ => ?_, fun _ => ⟨fun inflight => ?_, fun _ =>
    ⟨fun opens => ?_, fun _ => held⟩⟩⟩
  · exact schedulePreloadDone_held rules owned held loading startable
  · have room : WaitRoom env state file.hash := by
      unfold WaitRoom
      rw [owned, if_neg Bool.false_ne_true]
      simp only [Bool.and_eq_true, State.preloadWaiterRoom,
        decide_eq_true_eq] at inflight
      exact inflight.2
    exact wp_post (schedulePreloadInflight_held rules held loading
      startable (Or.inr room)) fun _ _ kept => kept.1
  · refine wp_post (submitOpenRead_held rules held loading startable
      opens idle.primed) ?_
    intro _ next kept
    simp only [cancelOnePending, wp_modifyGet]
    split
    next => exact kept
    next live =>
      have cancelled := rules.move kept (.pendingCancel (not_le.mp live))
      exact rules.move cancelled (.tokenDrop rfl)

/-- A hit of the staging cache tells the policy; a miss changes nothing. -/
theorem wp_getCached {hash : BlockHash}
    {post : Option (CacheSlot (Fin slotCount)) → State slotCount → Prop}
    (missed : state.inStagingCache hash = false → post none state)
    (hit : ∀ cache slot, state.stagingCache = some cache →
      cache.slots.find? hash = some slot →
      post (some slot)
        { state with stagingCache := some (cache.touched hash) }) :
    wp (getCached hash) post fail state := by
  simp only [getCached, wp_modifyGet]
  cases cached : state.stagingCache with
  | none =>
      exact missed (by simp [State.inStagingCache, cached])
  | some cache =>
      cases found : cache.slots.find? hash with
      | none =>
          have same :
              { state with stagingCache := some cache } = state := by
            rw [← cached]
          simp only [StagingDataCache.get, found, same]
          exact missed (by
            simp [State.inStagingCache, cached, StagingDataCache.contains,
              OrderedDict.contains, found])
      | some slot =>
          simp only [StagingDataCache.get, found]
          exact hit cache slot cached found

theorem scheduleLoadFile_held (rules : Rules env slack inv)
    (idle : Idle hand) (held : Held inv hand state) {job : Job}
    (loading : job.isStore = false) (known : job ∈ hand.known)
    (permits : RoundPermits env slack job state) :
    wp (scheduleLoadFile env job) (fun _ next => Held inv hand next)
      fail state := by
  simp only [scheduleLoadFile, wp_bind, wp_get]
  split
  · exact held
  next unfailed =>
    split
    next inJob =>
      have startable : Startable hand state
          ⟨job, (state.jobs job).nextFileIndex, inJob⟩ := by
        refine ⟨known, ?_, rfl⟩
        rwa [Bool.not_eq_true, Option.isSome_eq_false_iff,
          Option.isNone_iff_eq_none] at unfailed
      have next : (⟨job, (state.jobs job).nextFileIndex, inJob⟩ : FileRef) ∈
          state.nextLoad job := by
        simp [State.nextLoad, unfailed, inJob]
      rw [wp_bind]
      refine wp_getCached (fun missed => ?_) ?_
      · rw [wp_ite]
        refine ⟨fun sharing => scheduleSharedLoad_held rules idle sharing
          held loading startable missed next permits, fun owned => ?_⟩
        rw [Bool.not_eq_true] at owned
        exact scheduleOwnedLoad_held rules idle owned held loading startable
      · intro cache slot cached found
        have kept := rules.move held (.cacheTouch
          (⟨job, (state.jobs job).nextFileIndex, inJob⟩ : FileRef).hash
          cached)
        have given : GivenBack env slack state
            ⟨job, (state.jobs job).nextFileIndex, inJob⟩
            slot.slotIndex := by
          rcases permits.returns with allowed | undemanded
          · exact Or.inl allowed
          cases sharing : env.sharePreload with
          | false => exact Or.inr (Or.inl sharing)
          | true =>
              exact Or.inr (Or.inr
                (undemanded _ next sharing cache slot cached found))
        exact wp_seq (scheduleCacheHit_held rules kept loading
          (startable.transfer rfl rfl) rfl found given)
          fun _ _ done => done
    next => exact held

theorem scheduleLoadJob_held (rules : Rules env slack inv)
    (idle : Idle hand) (held : Held inv hand state) {job : Job}
    (known : job ∈ hand.known)
    (permits : job.isStore = false →
      ∀ round ∈ rounds (scheduleLoadFile env job) (job.totalFiles + 1) state,
        RoundPermits env slack job round) :
    wp (scheduleLoadJob env job) (fun _ next => Held inv hand next)
      fail state := by
  unfold scheduleLoadJob
  split
  · exact held
  next loading =>
    rw [Bool.not_eq_true] at loading
    exact wp_loop_rounds _ _ (fun current started kept =>
      scheduleLoadFile_held rules idle kept loading known
        (permits loading current started)) held

/-! ## Store files -/

theorem scheduleStoreCopy_held (rules : Rules env slack inv)
    {file : FileRef} {slot : Fin slotCount}
    (storing : file.job.isStore = true)
    (startable : Startable hand state file)
    (unit : state.dataInflight < env.iodepth)
    (held : Held inv
      { hand with slots := (slot, none) :: hand.slots } state) :
    wp (scheduleStoreCopy env file slot) (fun _ next => Held inv hand next)
      fail state := by
  have begun := rules.move held (.startStore storing startable.known
    startable.unfailed startable.next)
  simp only [scheduleStoreCopy, startFile, modifyJob, fillSlot, release,
    wp_bind, wp_modify]
  rw [wp_attempt]
  have units : Ticks fun current : State slotCount =>
      current.dataInflight = state.dataInflight := fun _ same => same
  refine wp_mono (wp_and
    ((rules.silent _).ticks.launchStoreCopy_keeps file slot _ begun)
    (units.launchStoreCopy_keeps file slot _ rfl))
    (fun _ _ launched => ?_) fun exc _ refused => ?_
  · obtain ⟨kept, same⟩ := launched
    exact rules.move kept (.launchStore rfl rfl (same ▸ unit))
  · have released := rules.move refused.1 (.release rfl)
    exact failStoreFile_held rules released

theorem scheduleStoreFile_held (rules : Rules env slack inv)
    (idle : Idle hand) (held : Held inv hand state) {job : Job}
    (storing : job.isStore = true) (known : job ∈ hand.known) :
    wp (scheduleStoreFile env job) (fun _ next => Held inv hand next)
      fail state := by
  simp only [scheduleStoreFile, wp_bind, wp_get]
  split
  · exact held
  next unfailed =>
    split
    next inJob =>
      refine wp_seq (reserveForegroundSlot_held rules held idle.loose) ?_
      rintro slot next ⟨queues, kept⟩
      cases slot with
      | none => exact kept
      | some slot =>
          simp only [Bool.or_eq_true, not_or, Bool.not_eq_true,
            Option.isSome_eq_false_iff, Option.isNone_iff_eq_none,
            Bool.not_eq_false', State.canIssueStore,
            decide_eq_true_eq] at unfailed
          obtain ⟨none, unit⟩ := unfailed
          have startable : Startable hand next
              ⟨job, (state.jobs job).nextFileIndex, inJob⟩ :=
            ⟨known, by rw [queues.jobs]; exact none,
              by rw [queues.jobs]⟩
          rw [← queues.dataInflight] at unit
          exact wp_seq (scheduleStoreCopy_held rules storing startable unit
            kept) fun _ _ done => done
    next => exact held

theorem scheduleStoreJob_held (rules : Rules env slack inv)
    (idle : Idle hand) (held : Held inv hand state) {job : Job}
    (known : job ∈ hand.known) :
    wp (scheduleStoreJob env job) (fun _ next => Held inv hand next)
      fail state := by
  unfold scheduleStoreJob
  split
  next storing =>
    exact wp_loop _ (fun current kept =>
      scheduleStoreFile_held rules idle kept storing known) _ held
  · exact held

/-! ## Ready descriptors -/

theorem drainReadyLoadFd_held (rules : Rules env slack inv)
    (allows : Allows env fail) (idle : Idle hand)
    (held : Held inv hand state) :
    wp (drainReadyLoadFd env) (fun _ next => Held inv hand next)
      fail state := by
  simp only [drainReadyLoadFd, wp_bind, wp_get]
  cases ready : state.readyFdsLoad with
  | nil => exact held
  | cons entry later =>
      obtain ⟨fd, file⟩ := entry
      simp only [wp_ite, wp_pure, wp_bind]
      refine ⟨fun unit => ?_, fun _ => held⟩
      refine wp_post (reserveForegroundSlot_held rules held idle.loose) ?_
      rintro slot next ⟨queues, kept⟩
      cases slot with
      | none => exact kept
      | some slot =>
          have first : next.readyFdsLoad = (fd, file) :: later :=
            queues.readyFdsLoad.trans ready
          have taken := rules.move kept (.takeLoadFd first)
          rw [← queues.dataInflight] at unit
          simp only [wp_bind, wp_modify, wp_pure]
          exact submitReadFromReady_held rules allows (.load file) fd unit
            taken

theorem drainReadyLoadFds_held (rules : Rules env slack inv)
    (allows : Allows env fail) (idle : Idle hand)
    (held : Held inv hand state) :
    wp (drainReadyLoadFds env) (fun _ next => Held inv hand next)
      fail state :=
  wp_loop (fun current => Held inv hand current)
    (fun _ kept => drainReadyLoadFd_held rules allows idle kept)
    (state.readyFdsLoad.length + 1) held

theorem readReadyPreload_held (rules : Rules env slack inv)
    (allows : Allows env fail) {info : PreloadInfo} {fd : Int} {later : List (Int × PreloadInfo)}
    {slot : Option (Fin slotCount)} {origin : State slotCount}
    (ready : origin.readyFdsPreload = (fd, info) :: later)
    (unit : origin.dataInflight < env.iodepth)
    (reserved : Reserved inv hand origin slot state) :
    wp (readReadyPreload env info fd later slot)
      (fun _ next => Held inv hand next) fail state := by
  obtain ⟨queues, kept⟩ := reserved
  cases slot with
  | none => exact kept
  | some slot =>
      have first : state.readyFdsPreload = (fd, info) :: later :=
        queues.readyFdsPreload.trans ready
      have taken := rules.move kept (.takePreloadFd first)
      rw [← queues.dataInflight] at unit
      simp only [readReadyPreload, wp_bind, wp_modify]
      exact submitReadFromReady_held rules allows (.preload info) fd unit
        taken

theorem drainReadyPreloadFd_held (rules : Rules env slack inv)
    (allows : Allows env fail) (idle : Idle hand)
    (held : Held inv hand state) :
    wp (drainReadyPreloadFd env) (fun _ next => Held inv hand next)
      fail state := by
  simp only [drainReadyPreloadFd, wp_bind, wp_get]
  cases ready : state.readyFdsPreload with
  | nil => exact held
  | cons entry later =>
      obtain ⟨fd, info⟩ := entry
      simp only [wp_ite, wp_pure, wp_bind, wp_modify]
      refine ⟨fun _ => ⟨fun unit => ?_, fun _ => held⟩, fun unawaited =>
        ⟨fun _ => ?_, fun _ => ⟨fun allowed => ?_, fun _ => held⟩⟩⟩
      · exact wp_post (reserveForegroundSlot_held rules held idle.loose)
          fun _ _ reserved =>
            readReadyPreload_held rules allows ready unit reserved
      · simp only [yieldOpenFd, preloadInflightRemove, pendingPush,
          wp_bind, wp_modify, wp_addEvent rules.quiet]
        have empty : state.preloadWaiters.queue info.blockHash = [] := by
          rwa [State.hasPreloadWaiter, QueueTable.contains_iff,
            ne_eq, not_not] at unawaited
        have taken := rules.move held (.takePreloadFd ready)
        have done := preloadDone_held rules false taken (by simp)
        have served := rules.move done (.dueDone rfl empty)
        have pushed := rules.move served (.pendingPush rfl)
        have ticked := rules.move pushed .tick
        exact asyncClose_allowed rules allows ticked fd
      · have unit : state.dataInflight < env.iodepth := by
          simp only [Bool.and_eq_true, decide_eq_true_eq] at allowed
          exact allowed.1
        exact wp_post (reservePreloadSlot_held rules held)
          fun _ _ reserved =>
            readReadyPreload_held rules allows ready unit reserved

/-! ## Pending preloads -/

theorem dropCancelled_held (rules : Rules env slack inv)
    (held : Held inv hand state) {info : PreloadInfo}
    {later : List PreloadInfo}
    (first : state.preloadPending = info :: later)
    (cancelled :
      0 < state.preloadPendingCancel.count info.blockHash) :
    wp (do
        consumePendingCancel info.blockHash
        dropFirstPending info.blockHash)
      (fun _ next => Held inv hand next) fail state := by
  simp only [consumePendingCancel, dropFirstPending, pendingDec, wp_bind,
    wp_modify, first, List.tail_cons]
  exact rules.move held (.pendingDrop first cancelled)

theorem drainCancelledPending_held (rules : Rules env slack inv)
    (held : Held inv hand state) :
    wp drainCancelledPending (fun _ next => Held inv hand next)
      fail state := by
  simp only [drainCancelledPending, wp_bind, wp_get]
  cases first : state.preloadPending with
  | nil => exact held
  | cons info later =>
      simp only [wp_ite, wp_pure, wp_bind]
      exact ⟨fun cancelled =>
        (wp_bind _ _).mp (dropCancelled_held rules held first cancelled),
        fun _ => held⟩

theorem speculate_held (rules : Rules env slack inv)
    (idle : Idle hand) (held : Held inv hand state) :
    wp (speculate env) (fun _ next => Held inv hand next)
      fail state := by
  simp only [speculate, wp_bind, wp_get]
  cases first : state.preloadPending with
  | nil => exact held
  | cons info later =>
      simp only [wp_ite, wp_pure, wp_bind]
      refine ⟨fun opens => ⟨fun cancelled => ?_, fun live =>
        ⟨fun storing => ?_, fun _ => ?_⟩⟩, fun _ => held⟩
      · exact (wp_bind _ _).mp
          (dropCancelled_held rules held first cancelled)
      all_goals
        have uncancelled :
            state.preloadPendingCancel.count info.blockHash = 0 := by
          omega
        have taken := rules.move held (.pendingTake first uncancelled)
        simp only [dropFirstPending, pendingDec, wp_bind, wp_modify, first,
          List.tail_cons]
      · simp only [blockOnWrite, wp_modify, wp_addEvent rules.quiet]
        have parked := rules.move taken (.park rfl storing)
        exact rules.move parked .tick
      · rw [Bool.and_eq_true] at opens
        exact wp_post (submitOpenPreload_held rules hand idle.due
          idle.primed idle.rooms _ taken (Or.inl rfl) opens.1
          fun _ => Or.inr opens.2) fun _ _ kept => kept.1

theorem schedulePreloads_held (rules : Rules env slack inv)
    (allows : Allows env fail) (idle : Idle hand)
    (held : Held inv hand state) :
    wp (schedulePreloads env) (fun _ next => Held inv hand next)
      fail state := by
  unfold schedulePreloads drainReadyPreloadFds
  refine wp_seq (wp_loop (fun current => Held inv hand current)
    (fun current kept => drainReadyPreloadFd_held rules allows idle kept)
    (state.readyFdsPreload.length + 1) held) fun _ next kept => ?_
  rw [wp_bind, wp_get]
  refine wp_seq (wp_loop _
    (fun current kept => drainCancelledPending_held rules kept) _ kept) ?_
  intro _ last dropped
  simp only [wp_bind, wp_get, wp_onlyIf]
  exact ⟨fun _ => wp_loop _
    (fun current kept => speculate_held rules idle kept) _ dropped,
    fun _ => dropped⟩

/-- The jobs `_schedule_work` runs over are those active when its first drain
has ended. -/
theorem scheduleJobs_held (rules : Rules env slack inv)
    (idle : Idle hand)
    (permits : ∀ round ∈ state.loadRounds env,
      RoundPermits env slack round.1 round.2)
    (unwatched : hand.known = [])
    (drained : wp (drainReadyLoadFds env)
      (fun _ next => Held inv hand next) fail state) :
    wp (scheduleJobs env) (fun _ next => Held inv hand next) fail state := by
  unfold scheduleJobs
  refine wp_seq (wp_run drained) ?_
  rintro _ next ⟨ran, kept⟩
  rw [wp_bind, wp_get]
  have watched := rules.move kept .watchJobs
  have idleWatched : Idle { hand with known := next.active } :=
    ⟨idle.files, idle.copies, idle.loose, idle.fresh, idle.tokens,
      idle.promised, idle.due, idle.primed, idle.rooms⟩
  have loaded : wp (next.active.forM (scheduleLoadJob env))
      (fun _ after => Held inv { hand with known := next.active } after)
      fail next := by
    refine wp_forM_turns _ _ (fun turn member reached => ?_) watched
    refine scheduleLoadJob_held rules idleWatched reached
      (mem_of_mem_turns member) fun loading round started => ?_
    apply permits (turn.1, round)
    simp only [State.loadRounds, ran, List.mem_flatMap]
    refine ⟨turn, member, ?_⟩
    rw [loading, if_neg Bool.false_ne_true]
    exact List.mem_map_of_mem started
  refine wp_seq loaded fun _ middle afterLoads => ?_
  have stored : wp (next.active.forM (scheduleStoreJob env))
      (fun _ after => Held inv { hand with known := next.active } after)
      fail middle :=
    wp_forM_turns _ _ (fun turn member reached =>
      scheduleStoreJob_held rules idleWatched reached
        (mem_of_mem_turns member)) afterLoads
  refine wp_post stored fun _ last afterStores => ?_
  have released := rules.move afterStores .unwatchJobs
  rw [← unwatched] at released
  exact released

theorem scheduleWork_held (rules : Rules env slack inv)
    (allows : Allows env fail) (idle : Idle hand)
    (permits : ∀ round ∈ state.loadRounds env,
      RoundPermits env slack round.1 round.2)
    (unwatched : hand.known = [])
    (held : Held inv hand state) :
    wp (scheduleWork env) (fun _ next => Held inv hand next)
      fail state := by
  rw [scheduleWork_eq]
  exact wp_seq (scheduleJobs_held rules idle permits unwatched
    (drainReadyLoadFds_held rules allows idle held))
    fun _ _ kept => schedulePreloads_held rules allows idle kept

/-! ## The fused launch -/

theorem failMembers_held (rules : Rules env slack inv)
    (loose : hand.loose = []) (fresh : hand.fresh = none) (exc : Exc)
    (members : List (LoadCopy slotCount))
    (held : Held inv { hand with copies := members } state) :
    wp (members.forM (failMember env exc))
      (fun _ next => Held inv { hand with copies := [] } next)
      fail state := by
  refine wp_forM
    (fun copies next => Held inv { hand with copies := copies } next)
    ?_ members held
  intro copy copies current kept
  unfold failMember
  refine wp_seq (settleLoadSlot_held rules kept loose fresh rfl) ?_
  intro _ next settled
  exact endLoad_held rules settled rfl _

theorem flushCopyBatch_held (rules : Rules env slack inv)
    (allows : Allows env fail) (reaps : slack.reaps = true)
    (idle : Idle hand) (held : Held inv hand state) :
    wp (flushCopyBatch env) (fun _ next => Held inv hand next)
      fail state := by
  have taken := rules.move held (.takeReady reaps idle.copies)
  have emptied : ∀ {next : State slotCount},
      Held inv { hand with copies := [] } next → Held inv hand next := by
    intro next kept
    rw [← idle.copies] at kept
    exact kept
  simp only [flushCopyBatch, wp_bind, wp_get, wp_ite, wp_pure, wp_modify]
  refine ⟨fun _ => held, fun _ => ⟨fun _ => ?_, fun _ => ?_⟩⟩
  · exact wp_post
      (settleMembers_held rules { hand with copies := [] } idle.loose
        idle.fresh _ taken)
      fun _ _ done => emptied done
  · refine wp_post (newEvent_allowed rules allows taken) ?_
    intro _ _ first
    refine wp_post (newEvent_allowed rules allows first) ?_
    intro _ _ second
    refine (wp_attempt _).mpr ?_
    have launched : wp (launchFusedCopy env)
        (fun _ next => Held inv
          { hand with copies := state.copyReady.map ReadyCopy.copy } next)
        (fun _ next => Held inv
          { hand with copies := state.copyReady.map ReadyCopy.copy } next)
        _ :=
      wp_seq (external_held rules second _) fun _ _ recorded =>
        wp_seq (external_held rules recorded _) fun _ _ swapped =>
          external_held rules swapped _
    refine wp_mono launched ?_ ?_
    · intro _ next kept
      exact emptied (rules.move kept (.launchLoads rfl))
    · intro exc next kept
      exact wp_post (failMembers_held rules idle.loose idle.fresh exc _
        kept) fun _ _ done => emptied done

end PyKvCache.Ledger
