import PyKvCache.Ledger.Calls
import PyKvCache.Ledger.Held

/-!
# The helpers as moves

Every helper of `Reactor.Slots` takes what it needs out of the hand, leaves
the rest of the hand alone, and keeps every closed invariant.
-/

namespace PyKvCache.Ledger

open PyKvCache.Library PyKvCache.Staging PyKvCache.Transfer
open PyKvCache.Reactor PyKvCache.Library.Effect

variable {slotCount : Nat} {env : Env slotCount} {slack : Slack}
  {inv : Hand slotCount → State slotCount → Prop}
  {hand : Hand slotCount} {state : State slotCount}
  {post : PUnit → State slotCount → Prop}
  {fail : Exc → State slotCount → Prop}

/-- The tables and budgets a change of slots leaves alone. -/
structure QueuesKept (state next : State slotCount) : Prop where
  jobs : next.jobs = state.jobs
  dataInflight : next.dataInflight = state.dataInflight
  openInflight : next.openInflight = state.openInflight
  readyFdsLoad : next.readyFdsLoad = state.readyFdsLoad
  readyFdsPreload : next.readyFdsPreload = state.readyFdsPreload
  preloadWaiters : next.preloadWaiters = state.preloadWaiters

theorem QueuesKept.refl (state : State slotCount) :
    QueuesKept state state :=
  ⟨rfl, rfl, rfl, rfl, rfl, rfl⟩

theorem QueuesKept.trans {first second third : State slotCount}
    (left : QueuesKept first second) (right : QueuesKept second third) :
    QueuesKept first third :=
  ⟨right.jobs.trans left.jobs,
    right.dataInflight.trans left.dataInflight,
    right.openInflight.trans left.openInflight,
    right.readyFdsLoad.trans left.readyFdsLoad,
    right.readyFdsPreload.trans left.readyFdsPreload,
    right.preloadWaiters.trans left.preloadWaiters⟩

/-! ## Calls outside the reactor -/

theorem wp_profiler (quiet : env.Quiet) {call : ExtCall}
    (profiler : call.isProfiler = true) :
    wp (external env call) post fail state ↔ post ⟨⟩ state.tick := by
  rw [wp_external]
  simp [quiet call state.calls profiler]

theorem wp_addEvent (quiet : env.Quiet) {name : EventName} :
    wp (addEvent env name) post fail state ↔ post ⟨⟩ state.tick :=
  wp_profiler quiet rfl

theorem Rules.silent (rules : Rules env slack inv)
    (hand : Hand slotCount) : Silent (Held inv hand) where
  ticks := fun _ held => rules.move held .tick
  handsOver := fun _ entry held => rules.move held (.handOver entry)

/-- A call outside the reactor keeps the invariant, raised or not. -/
theorem external_held (rules : Rules env slack inv)
    (held : Held inv hand state) (call : ExtCall) :
    wp (external env call) (fun _ next => Held inv hand next)
      (fun _ next => Held inv hand next) state :=
  (rules.silent hand).ticks.external_keeps call state held

/-- The number `_new_user_data` hands out is not in use. -/
theorem Base.next_unused (base : Base hand state) :
    state.inflight.find? (state.nextUserData + 1) = none := by
  cases found : state.inflight.find? (state.nextUserData + 1) with
  | none => rfl
  | some op =>
      exact absurd (base.numbered _ op found) (by omega)

theorem asyncClose_held (rules : Rules env slack inv)
    (held : Held inv hand state) (fd : Int) :
    wp (asyncClose env fd) (fun _ next => Held inv hand next)
      (fun _ next => Held inv hand next) state := by
  unfold asyncClose
  rw [wp_ite]
  refine ⟨fun _ => held, fun _ => ?_⟩
  have numbered := rules.move held .userData
  simp only [newUserData, wp_bind, wp_modifyGet, wp_attempt, wp_external,
    wp_modify]
  constructor
  · intro _
    have ticked := rules.move numbered .tick
    exact rules.move (rules.move ticked (.handOver (.given fd)))
      (.close fd held.base.next_unused (Nat.le_refl _))
  · intro _ _
    exact (rules.silent hand).closeQuietly_keeps fd _
      (rules.move numbered .tick)

/-! ## The end of a file -/

@[simp]
theorem updateJob_jobs_self (job : Job) (change : JobState → JobState) :
    (state.updateJob job change).jobs job = change (state.jobs job) := by
  simp [State.updateJob]

theorem updateJob_updateJob (job : Job)
    (first second : JobState → JobState) :
    (state.updateJob job first).updateJob job second =
      state.updateJob job (second ∘ first) := by
  simp [State.updateJob, Function.update_idem]

theorem updateJob_congr {job : Job} {first : JobState → JobState}
    (second : JobState → JobState)
    (same : first (state.jobs job) = second (state.jobs job)) :
    state.updateJob job first = state.updateJob job second := by
  simp only [State.updateJob, same]

theorem updateJob_tick_updateJob (job : Job)
    (first second : JobState → JobState) :
    (state.updateJob job first).tick.updateJob job second =
      (state.updateJob job (second ∘ first)).tick :=
  congrArg State.tick (updateJob_updateJob job first second)

/-- `_file_terminal`, when the transfer events are emitted. -/
theorem wp_fileTerminal (emits : env.Emits) {file : FileRef}
    {error : Option Exc}
    (reached : post ⟨⟩ (ended state file error))
    (emitted : post ⟨⟩ (ended state file error).tick) :
    wp (fileTerminal env file error) post fail state := by
  have emitting : ∀ {success : Bool} {post : PUnit → State slotCount → Prop}
      {fail : Exc → State slotCount → Prop} {state : State slotCount},
      wp (external env (.emitTransferEvents success)) post fail state ↔
        post ⟨⟩ state.tick := by
    intro success post fail state
    simp [emits success]
  unfold ended at reached emitted
  simp only [fileTerminal, modifyJob, wp_bind, wp_modify, wp_get, wp_ite,
    wp_pure, updateJob_jobs_self]
  constructor
  · intro unchanged
    rwa [updateJob_congr (endedJob file.job error)
      (by simp only [endedJob, unchanged, if_true])]
  · intro unset
    cases error with
    | some exc =>
        simp only [wp_bind, wp_modify, emitting]
        rwa [updateJob_updateJob, updateJob_tick_updateJob,
          updateJob_congr (endedJob file.job (some exc))
            (by simp only [endedJob, unset, Function.comp_apply,
              Bool.false_eq_true, if_false])]
    | none =>
        simp only [wp_bind, wp_modify, wp_ite, wp_pure, emitting]
        constructor
        · intro complete
          rwa [updateJob_updateJob, updateJob_tick_updateJob,
            updateJob_congr (endedJob file.job none)
              (by simp only [endedJob, unset, complete, Function.comp_apply,
                Bool.false_eq_true, if_false, if_true])]
        · intro incomplete
          rwa [updateJob_congr (endedJob file.job none)
            (by simp only [endedJob, unset, incomplete, Bool.false_eq_true,
              if_false])]

theorem endLoad_kept (rules : Rules env slack inv)
    (held : Held inv hand state) {file : FileRef} {files : List FileRef}
    (inHand : hand.files = file :: files) (error : Option Exc) :
    wp (fileTerminal env file error)
      (fun _ next => Held inv { hand with files := files } next ∧
        next.preloadWaiters = state.preloadWaiters)
      fail state :=
  have done := rules.move held (.endLoad error inHand)
  wp_fileTerminal rules.quiet.emits ⟨done, rfl⟩ ⟨rules.move done .tick, rfl⟩

theorem endLoad_held (rules : Rules env slack inv)
    (held : Held inv hand state) {file : FileRef} {files : List FileRef}
    (inHand : hand.files = file :: files) (error : Option Exc) :
    wp (fileTerminal env file error)
      (fun _ next => Held inv { hand with files := files } next)
      fail state :=
  wp_post (endLoad_kept rules held inHand error) fun _ _ kept => kept.1

theorem endStore_held (rules : Rules env slack inv)
    (held : Held inv hand state) {file : FileRef} {stores : List FileRef}
    (inHand : hand.stores = file :: stores) (error : Option Exc) :
    wp (fileTerminal env file error)
      (fun _ next => Held inv
        { hand with stores := stores, releases := file :: hand.releases }
        next)
      fail state :=
  have done := rules.move held (.endStore error inHand)
  wp_fileTerminal rules.quiet.emits done (rules.move done .tick)

theorem dueAfter_sharing (sharing : env.sharePreload = true)
    (due : List BlockHash) (hash : BlockHash) :
    dueAfter env due hash = due :=
  if_pos sharing

theorem dueAfter_owned (owned : env.sharePreload = false)
    (due : List BlockHash) (hash : BlockHash) :
    dueAfter env due hash = due.erase hash := by
  unfold dueAfter
  rw [owned, if_neg Bool.false_ne_true]

/-- A waiter taken off its queue is in hand, and wants the hash it waited
for. -/
theorem preloadWaiterPop_held (rules : Rules env slack inv)
    (held : Held inv hand state) {hash : BlockHash}
    (ended : hash ∈ hand.due ∨
      slack.loses = true ∧ env.sharePreload = false)
    {post : Option FileRef → State slotCount → Prop}
    (empty : state.preloadWaiters.queue hash = [] → post none state)
    (woken : ∀ file later next,
      state.preloadWaiters.queue hash = file :: later →
      file.hash = hash →
      next = { state with
        preloadWaiters := state.preloadWaiters.keep hash later } →
      Held inv
        { hand with
          files := file :: hand.files
          due := dueAfter env hand.due hash } next →
      post (some file) next) :
    wp (preloadWaiterPop hash) post fail state := by
  simp only [preloadWaiterPop, wp_modifyGet]
  cases popped : state.preloadWaiters.popFront hash with
  | none => exact empty (QueueTable.popFront_eq_none_iff.mp popped)
  | some entry =>
      obtain ⟨file, table⟩ := entry
      obtain ⟨later, queued, rfl⟩ :=
        QueueTable.popFront_eq_some_iff.mp popped
      have queuedFile : file ∈ state.preloadWaiters.queue hash := by
        rw [queued]
        exact List.mem_cons_self
      exact woken file later _ queued
        (held.base.waiters _ (QueueTable.mem_pairs_of_mem_queue queuedFile))
        rfl (rules.move held (.wake ended queued))

/-- The waiter of a multi-copy read that has ended. -/
theorem preloadWaiterPop_owned (rules : Rules env slack inv)
    (hand : Hand slotCount) (owned : env.sharePreload = false)
    {hash : BlockHash}
    (held : Held inv { hand with due := hash :: hand.due } state)
    {post : Option FileRef → State slotCount → Prop}
    (empty : Held inv hand state →
      state.preloadWaiters.queue hash = [] → post none state)
    (woken : ∀ file later next,
      state.preloadWaiters.queue hash = file :: later →
      file.hash = hash →
      Held inv { hand with files := file :: hand.files } next →
      post (some file) next) :
    wp (preloadWaiterPop hash) post fail state := by
  refine preloadWaiterPop_held rules held (Or.inl List.mem_cons_self) ?_ ?_
  · intro unawaited
    exact empty (rules.move held (.dueDone rfl unawaited)) unawaited
  · intro file later next queued wants _ kept
    rw [dueAfter_owned owned, List.erase_cons_head] at kept
    exact woken file later next queued wants kept

/-- All waiters of a shared read fail. -/
theorem failAllPreloadWaiters_held (rules : Rules env slack inv)
    (hand : Hand slotCount) (sharing : env.sharePreload = true)
    {hash : BlockHash}
    (held : Held inv { hand with due := hash :: hand.due } state)
    (exc : Exc) :
    wp (failAllPreloadWaiters env hash exc)
      (fun failed next => Held inv hand next ∧
        (failed = true ↔ state.preloadWaiters.queue hash ≠ []))
      fail state := by
  have round : ∀ current,
      Held inv { hand with due := hash :: hand.due } current →
      wp (failOnePreloadWaiter env hash exc)
        (fun again next =>
          if again then
            Held inv { hand with due := hash :: hand.due } next ∧
              (next.preloadWaiters.queue hash).length <
                (current.preloadWaiters.queue hash).length
          else Held inv hand next)
        fail current := by
    intro current kept
    unfold failOnePreloadWaiter
    rw [wp_bind]
    refine preloadWaiterPop_held rules kept (Or.inl List.mem_cons_self)
      (fun empty => ?_) ?_
    · exact rules.move kept (.dueDone rfl empty)
    · intro file later next queued _ sameNext woken
      rw [dueAfter_sharing sharing] at woken
      refine wp_seq (endLoad_kept rules woken rfl _) ?_
      rintro _ last ⟨done, waiters⟩
      refine ⟨done, ?_⟩
      rw [waiters, sameNext, QueueTable.queue_keep, if_pos rfl, queued]
      exact Nat.lt_succ_self _
  simp only [failAllPreloadWaiters, wp_bind, wp_get, wp_pure]
  refine wp_post (wp_loop_exit _
    (fun current => (current.preloadWaiters.queue hash).length)
    round (Nat.lt_succ_self _) held) ?_
  intro _ next kept
  exact ⟨kept, by simp [List.length_pos_iff]⟩

/-! ## Giving a slot back -/

theorem releaseOrCache_held (rules : Rules env slack inv)
    (held : Held inv hand state) {hash : BlockHash}
    {slot : Fin slotCount} {slots : List (Fin slotCount × Option BlockHash)}
    (inHand : hand.slots = (slot, some hash) :: slots) :
    wp (releaseOrCache env hash slot)
      (fun _ next => Held inv { hand with slots := slots } next ∧
        QueuesKept state next)
      fail state := by
  simp only [releaseOrCache, wp_bind, wp_get]
  split
  next uncached =>
    exact ⟨rules.move held (.release inHand), ⟨rfl, rfl, rfl, rfl, rfl, rfl⟩⟩
  next cache cached =>
    simp only [wp_bind, wp_modify]
    have event : ∀ {next : State slotCount} {condition : Prop}
        [Decidable condition],
        Held inv { hand with slots := slots } next →
        QueuesKept state next →
        wp (onlyIf condition (addEvent env .cacheInsert))
          (fun _ next => Held inv { hand with slots := slots } next ∧
            QueuesKept state next) fail next := by
      intro next condition _ kept queues
      rw [wp_onlyIf, wp_addEvent rules.quiet]
      exact ⟨fun _ => ⟨rules.move kept .tick,
        queues.trans ⟨rfl, rfl, rfl, rfl, rfl, rfl⟩⟩, fun _ => ⟨kept, queues⟩⟩
    rcases cache.put_cases hash slot with
      same | ⟨absent, inserted⟩ | ⟨freed, smaller, absent, evicted, inserted⟩
    · rw [same]
      have released := rules.move held (.release inHand)
      rw [← cached]
      exact event released ⟨rfl, rfl, rfl, rfl, rfl, rfl⟩
    · rw [inserted]
      exact event (rules.move held (.cacheInsert cached absent inHand))
        ⟨rfl, rfl, rfl, rfl, rfl, rfl⟩
    · rw [inserted]
      have stillAbsent : smaller.slots.find? hash = none := by
        obtain ⟨victim, _, _, _, rfl⟩ :=
          StagingDataCache.evictOne_eq_some evicted
        simp only [StagingDataCache.evict, OrderedDict.find?_erase, absent,
          ite_self]
      have evictedHeld := rules.move held (.cacheEvict cached evicted)
      rw [inHand] at evictedHeld
      have swapped :=
        rules.move evictedHeld (.shuffle (List.Perm.swap _ _ _))
      have insertedHeld :=
        rules.move swapped (.cacheInsert rfl stillAbsent rfl)
      exact event (rules.move insertedHeld (.release rfl))
        ⟨rfl, rfl, rfl, rfl, rfl, rfl⟩

/-- The end of a slot nobody else holds: it is let go, or kept for a copy that
still reads from it. -/
theorem maybeReleaseShared_held (rules : Rules env slack inv)
    (held : Held inv hand state) {slot : SharedSlot slotCount}
    {loose : List (SharedSlot slotCount)}
    (inHand : hand.loose = slot :: loose) (last : slot ∉ loose)
    (made : hand.fresh ≠ some slot) :
    wp (maybeReleaseShared env slot)
      (fun _ next => Held inv { hand with loose := loose } next ∧
        QueuesKept state next)
      fail state := by
  simp only [maybeReleaseShared, wp_bind, wp_get, wp_ite, wp_pure]
  constructor
  · intro alive
    have stillAlive :
        (state.shared slot).cached = true ∨
          0 < (state.shared slot).copiesInflight ∨
          hand.fresh = some slot := by
      tauto
    exact ⟨rules.move held (.looseDrop inHand stillAlive),
      QueuesKept.refl state⟩
  · intro done
    rw [not_or, Bool.not_eq_true, not_lt] at done
    exact releaseOrCache_held rules
      (rules.move held (.looseTake inHand done.1 done.2 last made)) rfl

/-- `_shared_uncache` of a registered slot. -/
theorem sharedUncache_held (rules : Rules env slack inv)
    (held : Held inv hand state) {slot : SharedSlot slotCount}
    (cached : state.sharedCached.find? slot.blockHash = some slot) :
    wp (sharedUncache slot)
      (fun _ next =>
        Held inv { hand with loose := slot :: hand.loose } next ∧
        QueuesKept state next ∧
        (next.shared slot).cached = false ∧
        (next.shared slot).copiesInflight =
          (state.shared slot).copiesInflight ∧
        next.sharedCached.find? slot.blockHash = none)
      fail state := by
  have moved := rules.move held (.sharedUncache cached)
  simp only [sharedUncache, modifyShared, wp_bind, wp_modify, if_pos cached]
  exact ⟨moved, ⟨rfl, rfl, rfl, rfl, rfl, rfl⟩, by simp [State.updateShared],
    by simp [State.updateShared],
    by simp [State.updateShared, OrderedDict.find?_erase]⟩

/-- A slot registered as cached is not the one a handler has just made. -/
theorem Base.fresh_ne_registered (base : Base hand state)
    {hash : BlockHash} {slot : SharedSlot slotCount}
    (cached : state.sharedCached.find? hash = some slot) :
    hand.fresh ≠ some slot := by
  intro made
  have uncached := (base.fresh slot made).1
  rw [(base.registered hash slot cached).2.1] at uncached
  cases uncached

/-- `_shared_decref`: the pair is owned no longer, and what may be done then
is done before the slot of the last demand is let go. -/
private theorem sharedDecref_then (rules : Rules env slack inv)
    (hand hand' : Hand slotCount) {reqId : String} {hash : BlockHash}
    (settles : ∀ {loose : List (SharedSlot slotCount)}
      {current : State slotCount},
      current.preloadOwned.contains (reqId, hash) = false →
      Held inv { hand with loose := loose } current →
      Held inv { hand' with loose := loose } current)
    (fresh : hand'.fresh = hand.fresh)
    (held : Held inv { hand with loose := [] } state) :
    wp (sharedDecref env reqId hash)
      (fun _ next => Held inv { hand' with loose := [] } next ∧
        QueuesKept state next)
      fail state := by
  have given (owned : OrderedDict (String × BlockHash) Unit) :
      (owned.erase (reqId, hash)).contains (reqId, hash) = false := by
    rw [OrderedDict.contains_eq_false_iff, OrderedDict.find?_erase,
      if_pos rfl]
  simp only [sharedDecref, wp_bind, wp_get, wp_ite, wp_modify, wp_pure]
  constructor
  · intro owned
    constructor
    · intro more
      have dropped := rules.move held (.demandDrop owned (Or.inl more))
      exact ⟨settles (given _) dropped, ⟨rfl, rfl, rfl, rfl, rfl, rfl⟩⟩
    · intro _
      split
      next unfound =>
        have dropped := rules.move held
          (.demandDrop owned (Or.inr unfound))
        exact ⟨settles (given _) dropped, ⟨rfl, rfl, rfl, rfl, rfl, rfl⟩⟩
      next slot cached =>
        have keyed := (held.base.registered hash slot cached).1
        have made := held.base.fresh_ne_registered cached
        subst keyed
        -- the slot leaves the table before its last demand does
        have uncached := rules.move held (.sharedUncache cached)
        have dropped := rules.move uncached (.demandDrop owned (Or.inr (by
          simp [State.updateShared, OrderedDict.find?_erase])))
        have settled := settles (given _) dropped
        simp only [sharedUncache, modifyShared, wp_bind, wp_modify,
          if_pos cached]
        refine wp_post (maybeReleaseShared_held rules settled rfl
          List.not_mem_nil (fresh ▸ made)) ?_
        rintro _ last ⟨kept, queues⟩
        exact ⟨kept, queues.jobs, queues.dataInflight,
          queues.openInflight, queues.readyFdsLoad,
          queues.readyFdsPreload, queues.preloadWaiters⟩
  · intro unowned
    rw [Bool.not_eq_true] at unowned
    exact ⟨settles unowned held, QueuesKept.refl state⟩

theorem sharedDecref_held (rules : Rules env slack inv)
    (held : Held inv hand state) (none : hand.loose = [])
    (reqId : String) (hash : BlockHash) :
    wp (sharedDecref env reqId hash)
      (fun _ next => Held inv hand next ∧ QueuesKept state next)
      fail state := by
  have nothingLoose : { hand with loose := [] } = hand := by rw [← none]
  rw [← nothingLoose] at held ⊢
  exact sharedDecref_then rules hand hand (fun _ kept => kept) rfl held

/-- A load that has been served gives its demand back. -/
theorem sharedDecref_served (rules : Rules env slack inv)
    (hand : Hand slotCount) (none : hand.loose = []) {file : FileRef}
    {hash : BlockHash} (wants : file.hash = hash)
    (held : Held inv
      { hand with served := file :: hand.served } state) :
    wp (sharedDecref env file.job.reqId hash)
      (fun _ next => Held inv hand next ∧ QueuesKept state next)
      fail state := by
  subst wants
  have nothingLoose : { hand with loose := [] } = hand := by rw [← none]
  rw [← nothingLoose] at held ⊢
  exact sharedDecref_then rules
    { hand with served := file :: hand.served } hand
    (fun unowned kept =>
      rules.move kept (.serve rfl (Or.inr (Or.inr unowned)))) rfl held

/-- A finished load copy gives its slot back and leaves its file in hand. -/
theorem settleLoadSlot_held (rules : Rules env slack inv)
    (held : Held inv hand state) (none : hand.loose = [])
    (made : hand.fresh = .none) {copy : LoadCopy slotCount}
    {copies : List (LoadCopy slotCount)}
    (inHand : hand.copies = copy :: copies) :
    wp (settleLoadSlot env copy)
      (fun _ next => Held inv
        { hand with copies := copies, files := copy.file :: hand.files }
        next)
      fail state := by
  obtain ⟨file, source⟩ := copy
  cases source with
  | own slot =>
      exact wp_post (releaseOrCache_held rules
        (rules.move held (.openOwn inHand)) rfl) fun _ _ done => done.1
  | shared slot =>
      simp only [settleLoadSlot, unclaimShared, modifyShared, wp_bind,
        wp_modify]
      have opened := rules.move held (.openShared inHand)
      have unclaimed := rules.move opened (.unclaim rfl)
      refine wp_post (maybeReleaseShared_held rules unclaimed rfl ?_ ?_)
        fun _ _ done => done.1
      · simp [none]
      · simp [made]
  | cache slot =>
      simp only [settleLoadSlot, unpinCache, wp_modify]
      have opened := rules.move held (.openCache inHand)
      cases cached : state.stagingCache with
      | none =>
          exact rules.move opened (.cacheUnpinNone cached rfl)
      | some cache => exact rules.move opened (.cacheUnpin cached rfl)

/-! ## Reserving a slot -/

theorem tryReserve_held (rules : Rules env slack inv)
    (held : Held inv hand state) :
    wp tryReserve
      (fun slot next => QueuesKept state next ∧
        match slot with
        | none => Held inv hand next
        | some slot => Held inv
            { hand with slots := (slot, none) :: hand.slots } next)
      fail state := by
  simp only [tryReserve, wp_modifyGet]
  cases available : state.free with
  | nil => exact ⟨QueuesKept.refl state, held⟩
  | cons slot free =>
      exact ⟨⟨rfl, rfl, rfl, rfl, rfl, rfl⟩,
        rules.move held (.reserve available)⟩

theorem evictOneCacheSlot_held (rules : Rules env slack inv)
    (held : Held inv hand state) :
    wp (evictOneCacheSlot env)
      (fun _ next => QueuesKept state next ∧ Held inv hand next)
      fail state := by
  simp only [evictOneCacheSlot, wp_bind, wp_get]
  split
  next => exact ⟨QueuesKept.refl state, held⟩
  next slot smaller evicted =>
    obtain ⟨cache, cached, chosen⟩ := Option.bind_eq_some_iff.mp evicted
    simp only [release, wp_bind, wp_modify, wp_addEvent rules.quiet, wp_pure]
    have moved := rules.move held (.cacheEvict cached chosen)
    have released := rules.move moved (.release rfl)
    exact ⟨⟨rfl, rfl, rfl, rfl, rfl, rfl⟩, rules.move released .tick⟩

theorem evictOneSharedSlot_held (rules : Rules env slack inv)
    (held : Held inv hand state) (none : hand.loose = []) :
    wp (evictOneSharedSlot env)
      (fun _ next => QueuesKept state next ∧ Held inv hand next)
      fail state := by
  simp only [evictOneSharedSlot, wp_bind, wp_get]
  split
  next => exact ⟨QueuesKept.refl state, held⟩
  next hash slot chosen =>
    have cached : state.sharedCached.find? hash = some slot :=
      OrderedDict.find?_eq_some_iff.mpr (List.mem_of_find?_eq_some chosen)
    have unused : (state.shared slot).copiesInflight ≤ 0 := by
      simpa using List.find?_some chosen
    have keyed := (held.base.registered hash slot cached).1
    have made := held.base.fresh_ne_registered cached
    rw [wp_bind]
    refine wp_post (sharedUncache_held rules held (keyed ▸ cached)) ?_
    rintro _ next ⟨uncached, queues, flag, copies, unfound⟩
    rw [none] at uncached
    rw [keyed] at unfound
    simp only [purgeOwnedForHash, release, wp_bind, wp_modify,
      wp_addEvent rules.quiet, wp_pure]
    have taken := rules.move uncached
      (.looseTake rfl flag (copies ▸ unused) List.not_mem_nil made)
    have purged := rules.move taken (.demandPurge (Or.inl unfound))
    have ticked := rules.move purged .tick
    have released := rules.move ticked (.release rfl)
    rw [← none] at released
    exact ⟨queues.trans ⟨rfl, rfl, rfl, rfl, rfl, rfl⟩, released⟩

theorem evictOneOwnedSlot_held (rules : Rules env slack inv)
    (held : Held inv hand state) :
    wp (evictOneOwnedSlot env)
      (fun _ next => QueuesKept state next ∧ Held inv hand next)
      fail state := by
  simp only [evictOneOwnedSlot, wp_bind, wp_get]
  split
  next => exact ⟨QueuesKept.refl state, held⟩
  next hash oldest =>
    simp only [preloadCachePop, wp_bind, wp_modifyGet]
    cases popped : state.preloadSlots.popFront hash with
    | none => exact ⟨QueuesKept.refl state, held⟩
    | some entry =>
        obtain ⟨⟨slot, info⟩, table⟩ := entry
        obtain ⟨later, queued, rfl⟩ :=
          QueueTable.popFront_eq_some_iff.mp popped
        simp only [release, wp_bind, wp_modify, wp_addEvent rules.quiet,
          wp_pure]
        have taken := rules.move held (.preloadPop queued)
        have ticked := rules.move taken .tick
        exact ⟨⟨rfl, rfl, rfl, rfl, rfl, rfl⟩, rules.move ticked (.release rfl)⟩

theorem evictOnePreloadSlot_held (rules : Rules env slack inv)
    (held : Held inv hand state) (none : hand.loose = []) :
    wp (evictOnePreloadSlot env)
      (fun _ next => QueuesKept state next ∧ Held inv hand next)
      fail state := by
  unfold evictOnePreloadSlot
  split
  · exact evictOneSharedSlot_held rules held none
  · exact evictOneOwnedSlot_held rules held

/-- What a reservation leaves: a slot in hand, or nothing. -/
def Reserved (inv : Hand slotCount → State slotCount → Prop)
    (hand : Hand slotCount) (state : State slotCount)
    (slot : Option (Fin slotCount)) (next : State slotCount) : Prop :=
  QueuesKept state next ∧
    match slot with
    | none => Held inv hand next
    | some slot => Held inv
        { hand with slots := (slot, none) :: hand.slots } next

theorem reserveAfter_held (rules : Rules env slack inv)
    {evict : React slotCount Bool} {origin : State slotCount}
    (evicts : ∀ {current : State slotCount}, Held inv hand current →
      wp evict
        (fun _ next => QueuesKept current next ∧ Held inv hand next)
        fail current)
    {slot : Option (Fin slotCount)}
    (held : Reserved inv hand origin slot state) :
    wp (reserveAfter evict slot) (Reserved inv hand origin) fail state := by
  cases slot with
  | some slot => exact held
  | none =>
      refine wp_seq (evicts held.2) ?_
      rintro evicted next ⟨queues, kept⟩
      have sofar := held.1.trans queues
      cases evicted with
      | false => exact ⟨sofar, kept⟩
      | true =>
          refine wp_post (tryReserve_held rules kept) ?_
          rintro slot last ⟨sameQueues, reserved⟩
          exact ⟨sofar.trans sameQueues, reserved⟩

theorem reservePreloadSlot_held (rules : Rules env slack inv)
    (held : Held inv hand state) :
    wp (reservePreloadSlot env) (Reserved inv hand state) fail state := by
  unfold reservePreloadSlot
  refine wp_seq (tryReserve_held rules held) fun slot next reserved => ?_
  exact reserveAfter_held rules (evictOneCacheSlot_held rules) reserved

theorem reserveForegroundSlot_held (rules : Rules env slack inv)
    (held : Held inv hand state) (none : hand.loose = []) :
    wp (reserveForegroundSlot env) (Reserved inv hand state)
      fail state := by
  unfold reserveForegroundSlot
  refine wp_seq (tryReserve_held rules held) fun slot next reserved => ?_
  refine wp_seq (reserveAfter_held rules (evictOneCacheSlot_held rules)
    reserved) fun slot next reserved => ?_
  exact reserveAfter_held rules
    (fun kept => evictOnePreloadSlot_held rules kept none) reserved

/-! ## Load copies and ended stores -/

/-- `_queue_load_copy` appends one ready copy, or raises and changes
nothing. -/
theorem wp_queueLoadCopy {file : FileRef} {source : Source slotCount}
    (queued : ∀ mapping,
      loadMapping env.layout source.slotIndex file.chunk = .ok mapping →
        post ⟨⟩ { state with
          copyReady := state.copyReady ++ [⟨⟨file, source⟩, mapping⟩] })
    (refused : ∀ error,
      loadMapping env.layout source.slotIndex file.chunk = .error error →
        fail (.mapping error) state) :
    wp (queueLoadCopy env file source) post fail state := by
  unfold queueLoadCopy
  split
  next error mapped => exact refused error mapped
  next mapping mapped => exact queued mapping mapped

/-- The requeued preloads of a hash each use up a token. -/
theorem requeueAll_held (rules : Rules env slack inv)
    (owned : env.sharePreload = false) (infos : List PreloadInfo)
    (held : Held inv hand state) :
    wp (infos.forM pendingPush) (fun _ next => Held inv hand next)
      fail state := by
  refine wp_forM (fun _ current => Held inv hand current) ?_ infos
    held
  intro info _ current kept
  have allowed := rules.move kept (.tokenOwned info.blockHash owned)
  exact rules.move allowed (.pendingPush rfl)

theorem releaseStoreInflight_held (rules : Rules env slack inv)
    (held : Held inv hand state) {file : FileRef}
    {releases : List FileRef} (inHand : hand.releases = file :: releases)
    (ok : Bool) :
    wp (releaseStoreInflight env file.hash ok)
      (fun _ next => Held inv { hand with releases := releases } next)
      fail state := by
  simp only [releaseStoreInflight, wp_bind, wp_get, wp_modify, wp_ite,
    wp_pure]
  refine ⟨fun more => rules.move held (.storeDone inHand more), ?_⟩
  intro last
  have ended := rules.move held (.storeEnded inHand (not_lt.mp last))
  cases blocked : state.preloadBlockedOnWrite.queue file.hash with
  | nil =>
      simp only [blocked, if_true] at ended
      exact ended
  | cons first others =>
      have queued :
          first ∈ state.preloadBlockedOnWrite.queue file.hash := by
        rw [blocked]
        exact List.mem_cons_self
      have keyed : first.blockHash = file.hash :=
        held.base.blocked (file.hash, first)
          (QueueTable.mem_pairs_of_mem_queue queued)
      simp only [blocked, reduceCtorEq, if_false] at ended
      have dropped := rules.move ended (.tokenDrop rfl)
      have purged (unstopped : state.stop = false) := rules.move ended
        (.demandPurge (Or.inr ⟨unstopped, true, hand.tokens, rfl⟩))
      simp only [wp_ite, wp_pure, wp_bind, wp_onlyIf, purgeOwnedForHash,
        wp_modify]
      refine ⟨fun _ => dropped, fun goesOn => ⟨fun _ => ⟨fun _ => ?_,
        fun _ => dropped⟩, fun _ => ⟨fun _ => ?_, fun owned => ?_⟩⟩⟩
      · have unstopped : state.stop = false := by
          rw [Bool.not_eq_true, Bool.or_eq_false_iff] at goesOn
          exact goesOn.2
        exact rules.move (purged unstopped) (.tokenDrop rfl)
      · simp only [pendingPush, wp_modify, wp_addEvent rules.quiet]
        have token : (file.hash, true) :: hand.tokens =
            (first.blockHash, true) :: hand.tokens := by
          rw [keyed]
        have pushed := rules.move ended (.pendingPush token)
        exact rules.move pushed .tick
      · rw [Bool.not_eq_true] at owned
        refine wp_post (requeueAll_held rules owned _ dropped) ?_
        intro _ next kept
        rw [wp_addEvent rules.quiet]
        exact rules.move kept .tick

end PyKvCache.Ledger
