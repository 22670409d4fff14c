import PyKvCache.Ledger.Scheduling

/-!
# Whole runs as moves

The intake of an item, the pump and the calls of other threads, and from them
the run lemma: what every move keeps holds in every state the thread reaches
before it crashes.
-/

namespace PyKvCache.Ledger

open PyKvCache.Library PyKvCache.Staging PyKvCache.Transfer
open PyKvCache.Reactor PyKvCache.Library.Effect

variable {slotCount : Nat} {env : Env slotCount} {slack : Slack}
  {inv : Hand slotCount → State slotCount → Prop}
  {hand : Hand slotCount} {state : State slotCount}
  {fail : Exc → State slotCount → Prop}

/-! ## Intake of preloads -/

/-- A hash of a request that is neither in the staging cache nor owned. -/
structure Fresh (state : State slotCount) (reqId : String)
    (hash : BlockHash) : Prop where
  uncached : state.inStagingCache hash = false
  unowned : state.preloadOwned.contains (reqId, hash) = false

theorem newDemands_cons_of_fresh {reqId : String} {hash : BlockHash}
    {hashes : List BlockHash} (fresh : Fresh state reqId hash) :
    state.newDemands reqId (hash :: hashes) =
      insert hash (state.newDemands reqId hashes) := by
  simp [State.newDemands, fresh.uncached, fresh.unowned]

/-- A new demand that fits finds room. -/
theorem room_of_demandsFit {reqId : String} {hash : BlockHash}
    {hashes : List BlockHash}
    (fits : state.DemandsFit reqId (hash :: hashes))
    (fresh : Fresh state reqId hash) :
    state.preloadOwned.entries.length < Env.maxPreloadOwned := by
  unfold State.DemandsFit at fits
  rw [newDemands_cons_of_fresh fresh] at fits
  have some := Finset.card_pos.mpr
    (Finset.insert_nonempty hash (state.newDemands reqId hashes))
  omega

/-- The owned pairs after a hash of a request was taken in. -/
def ownedAfter (limit : Nat) (state : State slotCount) (reqId : String)
    (hash : BlockHash) : OrderedDict (String × BlockHash) Unit :=
  if state.inStagingCache hash ||
      state.preloadOwned.contains (reqId, hash) then
    state.preloadOwned
  else
    (state.preloadOwned.set (reqId, hash) ()).keepNewest limit

/-- The rest of the request fits as before. -/
theorem demandsFit_next {next : State slotCount} {reqId : String}
    {hash : BlockHash} {hashes : List BlockHash}
    (fits : state.DemandsFit reqId (hash :: hashes))
    (cache : next.stagingCache = state.stagingCache)
    (owned : next.preloadOwned =
      ownedAfter Env.maxPreloadOwned state reqId hash) :
    next.DemandsFit reqId hashes := by
  have sameCache : ∀ other,
      next.inStagingCache other = state.inStagingCache other := by
    intro other
    unfold State.inStagingCache
    rw [cache]
  unfold ownedAfter at owned
  split at owned
  next old =>
    rw [Bool.or_eq_true] at old
    have same : state.newDemands reqId (hash :: hashes) =
        state.newDemands reqId hashes := by
      rcases old with cached | demanded
      · simp [State.newDemands, cached]
      · simp [State.newDemands, demanded]
    unfold State.DemandsFit at fits ⊢
    rw [same] at fits
    simpa only [State.newDemands, sameCache, owned] using fits
  next new =>
    rw [Bool.or_eq_true, not_or, Bool.not_eq_true, Bool.not_eq_true] at new
    have fresh : Fresh state reqId hash := ⟨new.1, new.2⟩
    have room := room_of_demandsFit fits fresh
    have grown : (state.preloadOwned.set (reqId, hash) ()).entries.length =
        state.preloadOwned.entries.length + 1 :=
      OrderedDict.length_set_of_none
        (OrderedDict.contains_eq_false_iff.mp fresh.unowned)
    rw [OrderedDict.keepNewest_eq_self (by omega)] at owned
    have rest : next.newDemands reqId hashes =
        (state.newDemands reqId hashes).erase hash := by
      ext other
      simp only [State.newDemands, sameCache, owned, List.mem_toFinset,
        Finset.mem_erase, List.mem_filter, Bool.and_eq_true,
        Bool.not_eq_true', OrderedDict.contains_eq_false_iff,
        OrderedDict.find?_set, Prod.mk.injEq, true_and]
      by_cases same : other = hash
      · simp [same]
      · simp [same]
    unfold State.DemandsFit at fits ⊢
    have counted := Finset.card_erase_add_one
      (Finset.mem_insert_self hash (state.newDemands reqId hashes))
    rw [Finset.erase_insert_eq_erase] at counted
    rw [newDemands_cons_of_fresh fresh] at fits
    rw [owned, rest, grown]
    omega

/-- What the intake of a hash does to the owned pairs, and tables it does not
touch. -/
theorem intakePreloadHash_owned (request : PreloadRequest)
    (entry : BlockHash × Nat) :
    wp (intakePreloadHash env request entry)
      (fun _ next =>
        next.preloadOwned =
          ownedAfter Env.maxPreloadOwned state request.reqId entry.1 ∧
        next.stagingCache = state.stagingCache ∧
        next.copyReady = state.copyReady)
      fail state := by
  unfold intakePreloadHash preloadOwn
  generalize Env.maxPreloadOwned = limit
  simp only [wp_bind, wp_get, wp_ite, wp_pure, wp_modifyGet, ownedAfter]
  constructor
  · intro cached
    simp [cached]
  · intro uncached
    split
    next owned => simp [owned]
    next unowned =>
      rw [Bool.not_eq_true] at uncached unowned
      refine ⟨fun _ => ?_, fun impossible => absurd rfl impossible⟩
      simp only [uncached, unowned, Bool.or_self, Bool.false_eq_true,
        if_false]
      refine ⟨fun _ => ?_, fun _ => ⟨fun _ => ?_, fun _ => ?_⟩⟩
      · rw [wp_modify, wp_onlyIf]
        exact ⟨fun _ => ⟨rfl, rfl, rfl⟩, fun _ => ⟨rfl, rfl, rfl⟩⟩
      · exact ⟨rfl, rfl, rfl⟩
      · exact ⟨rfl, rfl, rfl⟩

theorem intakePreloadHash_held (rules : Rules env slack inv)
    (unused : hand.tokens = []) (demands : slack.demands = true)
    (held : Held inv hand state) (request : PreloadRequest)
    (entry : BlockHash × Nat)
    (room : slack.forgets = true ∨ env.sharePreload = false ∨
      (Fresh state request.reqId entry.1 →
        state.preloadOwned.entries.length < Env.maxPreloadOwned)) :
    wp (intakePreloadHash env request entry)
      (fun _ next => Held inv hand next) fail state := by
  simp only [intakePreloadHash, preloadOwn, wp_bind, wp_get, wp_ite,
    wp_pure, wp_modifyGet]
  refine ⟨fun _ => held, fun uncached => ?_⟩
  rw [Bool.not_eq_true] at uncached
  split
  · exact ⟨by simp, fun _ => held⟩
  next unowned =>
    rw [Bool.not_eq_true] at unowned
    refine ⟨fun _ => ?_, fun impossible => absurd rfl impossible⟩
    simp only [pendingPush, wp_modify, wp_onlyIf]
    refine ⟨fun sharing => ?_, fun multi => ?_⟩
    · have fits : slack.forgets = true ∨
          state.preloadOwned.entries.length < Env.maxPreloadOwned := by
        rcases room with forgets | multi | fits
        · exact Or.inl forgets
        · rw [multi] at sharing
          cases sharing
        · exact Or.inr (fits ⟨uncached, unowned⟩)
      have counted := rules.move held
        (.demandAdd sharing demands unowned fits)
      refine ⟨fun none => ?_, fun _ => counted⟩
      have granted := rules.move counted (.tokenNew none unused)
      exact rules.move granted (.pendingPush rfl)
    · rw [Bool.not_eq_true] at multi
      have owned := rules.move held (.ownCopies multi
        ((state.preloadOwned.set (request.reqId, entry.1) ()).keepNewest
          Env.maxPreloadOwned))
      refine ⟨fun _ => ?_, fun _ => ?_⟩
      · exact rules.move owned (.missJoin ⟨entry.1,
          request.preloadId, request.reqId, entry.2,
          request.blockHashes.length⟩ multi)
      · have granted := rules.move owned (.tokenOwned entry.1 multi)
        exact rules.move granted (.pendingPush rfl)

theorem intakePreload_held (rules : Rules env slack inv)
    (unused : hand.tokens = []) (demands : slack.demands = true)
    (held : Held inv hand state) (request : PreloadRequest)
    (room : slack.forgets = true ∨ env.sharePreload = false ∨
      state.DemandsFit request.reqId request.blockHashes) :
    wp (request.blockHashes.zipIdx.forM (intakePreloadHash env request))
      (fun _ next => Held inv hand next) fail state := by
  have start : slack.forgets = true ∨ env.sharePreload = false ∨
      state.DemandsFit request.reqId
        (request.blockHashes.zipIdx.map Prod.fst) := by
    rwa [List.zipIdx_map_fst]
  refine wp_post (wp_forM
    (fun entries next => Held inv hand next ∧
      (slack.forgets = true ∨ env.sharePreload = false ∨
        next.DemandsFit request.reqId (entries.map Prod.fst)))
    ?_ _ ⟨held, start⟩) fun _ _ done => done.1
  rintro entry entries current ⟨kept, fits⟩
  have taken : wp (intakePreloadHash env request entry)
      (fun _ next => Held inv hand next) fail current :=
    intakePreloadHash_held rules unused demands kept request entry
      (fits.imp_right fun rest => rest.imp_right fun fits fresh =>
        room_of_demandsFit fits fresh)
  have both := wp_and taken
    (@intakePreloadHash_owned _ env current fail request entry)
  refine wp_mono both ?_ fun _ _ raised => raised.1
  rintro _ next ⟨done, owned, cache, _⟩
  exact ⟨done, fits.imp_right fun rest => rest.imp_right fun fits =>
    demandsFit_next fits cache owned⟩

/-! ## Intake of jobs -/

theorem intakeStoreHash_held (rules : Rules env slack inv)
    (loose : hand.loose = []) {job : Job} {arrived : List BlockHash}
    (storing : job.isStore = true) (hash : BlockHash)
    (held : Held inv
      { hand with job := some job, arrived := arrived } state) :
    wp (intakeStoreHash env job hash)
      (fun _ next => Held inv
        { hand with job := some job, arrived := arrived ++ [hash] } next)
      fail state := by
  have arrives : ∀ {next : State slotCount},
      Held inv { hand with job := some job, arrived := arrived } next →
      Held inv
        { hand with job := some job, arrived := arrived ++ [hash] }
        { next with
          knownMissing := next.knownMissing.erase hash
          preloadBlockedOnWrite :=
            next.preloadBlockedOnWrite.extend hash
              (next.rearmed env job.reqId hash)
          storeInflight := next.storeInflight.addOne hash } :=
    fun kept => rules.move kept (.arrive rfl storing)
  simp only [intakeStoreHash, wp_bind, wp_onlyIf, wp_modify]
  refine ⟨fun _ => ?_, fun _ => arrives held⟩
  exact wp_post (sharedDecref_held rules held loose _ _)
    fun _ _ done => arrives done.1

theorem intakeJob_held (rules : Rules env slack inv)
    (loose : hand.loose = []) (noArrival : hand.arrived = [])
    (noJob : hand.job = none) {job : Job}
    (held : Held inv { hand with job := some job } state) :
    wp (intakeJob env job) (fun _ next => Held inv hand next)
      fail state := by
  have handed : ∀ {next : State slotCount},
      Held inv { hand with job := none } next → Held inv hand next := by
    intro next kept
    rw [← noJob] at kept
    exact kept
  simp only [intakeJob, wp_bind, wp_get, wp_ite]
  refine ⟨fun storing => ?_, fun loading => ?_⟩
  · have started : Held inv
        { hand with job := some job, arrived := [] } state := by
      rw [← noArrival]
      exact held
    refine wp_post (wp_forM
      (fun hashes next => ∃ arrived,
        arrived ++ hashes = job.blockHashes ∧
          Held inv { hand with job := some job, arrived := arrived } next)
      ?_ job.blockHashes ⟨[], rfl, started⟩) ?_
    · rintro hash hashes current ⟨arrived, split, kept⟩
      refine wp_post (intakeStoreHash_held rules loose storing hash kept) ?_
      intro _ next done
      exact ⟨arrived ++ [hash], by simpa using split, done⟩
    · rintro _ next ⟨arrived, complete, kept⟩
      rw [List.append_nil] at complete
      have activated := rules.move kept
        (.activateStore rfl storing complete)
      refine handed ?_
      rw [← noArrival] at activated
      exact activated
  · rw [Bool.not_eq_true] at loading
    refine ⟨fun _ => ?_, fun _ => ?_⟩
    · simp only [declineLoad, modifyJob, wp_bind,
        wp_addEvent rules.quiet, wp_modify]
      have ticked := rules.move held .tick
      exact handed (rules.move ticked (.decline rfl loading _))
    · refine wp_post (wp_forM
        (fun _ next =>
          Held inv { hand with job := some job } next)
        (fun hash _ _ kept =>
          (wp_modify _).mpr (rules.move kept (.forget hash))) _ held) ?_
      intro _ next kept
      exact handed (rules.move kept (.activateLoad rfl loading))

/-! ## The stop marker -/

/-- Nothing is lent: no copy is counted for a registered shared slot or for an
entry of the staging cache. -/
structure LendsNothing (state : State slotCount) : Prop where
  shared : ∀ slot ∈ state.sharedCached.values,
    (state.shared slot).copiesInflight ≤ 0
  cache : ∀ cache, state.stagingCache = some cache →
    ∀ slot ∈ cache.slots.values, cache.copiesInflight slot ≤ 0

/-- The slots a table gave up go back to the pool one by one, while the table
still lists them. -/
theorem releaseAll_held (rules : Rules env slack inv) {item : Type}
    (place : item → Fin slotCount × Option BlockHash)
    (emptied : State slotCount → State slotCount)
    (frees : ∀ (current : State slotCount) (free : List (Fin slotCount)),
      emptied { current with free := free } =
        { emptied current with free := free })
    (same : ∀ current, (emptied current).free = current.free)
    (items : List item)
    (held : Held inv { hand with slots := items.map place ++ hand.slots }
      (emptied state)) :
    wp (items.forM fun item => release (place item).1)
      (fun _ next => Held inv hand (emptied next) ∧
        ∃ free, next = { state with free := free })
      fail state := by
  refine wp_forM (fun items next =>
    Held inv { hand with slots := items.map place ++ hand.slots }
        (emptied next) ∧
      ∃ free, next = { state with free := free })
    ?_ items ⟨held, state.free, rfl⟩
  rintro item items current ⟨kept, free, rfl⟩
  have first : (item :: items).map place ++ hand.slots =
      ((place item).1, (place item).2) ::
        (items.map place ++ hand.slots) := rfl
  have released := rules.move kept (.release first)
  rw [same, ← frees] at released
  exact ⟨released, _, rfl⟩

theorem releasePreloadSlots_held (rules : Rules env slack inv)
    (idle : Idle hand) (stopped : state.stop = true)
    (unread : slack.pulls = true ∨ ∀ slot ∈ state.sharedCached.values,
      (state.shared slot).copiesInflight ≤ 0)
    (held : Held inv hand state) :
    wp releasePreloadSlots
      (fun _ next => Held inv hand next ∧ ∃ free, next =
        { state with
          free := free, preloadSlots := .empty, sharedCached := .empty })
      fail state := by
  unfold releasePreloadSlots
  have dropped := rules.move held (.dropPreloads stopped)
  rw [wp_bind, wp_get]
  refine wp_seq (releaseAll_held rules
    (fun entry : BlockHash × Fin slotCount × PreloadInfo =>
      (entry.2.1, some entry.1))
    (fun current => { current with preloadSlots := .empty })
    (fun _ _ => rfl) (fun _ => rfl) _ dropped) ?_
  rintro _ _ ⟨kept, free, rfl⟩
  have taken := rules.move kept (.dropShared stopped idle.loose idle.fresh
    unread)
  rw [wp_bind, wp_modify]
  refine wp_seq (releaseAll_held rules
    (fun slot : SharedSlot slotCount =>
      (slot.slotIndex, some slot.blockHash))
    (fun current => { current with sharedCached := .empty })
    (fun _ _ => rfl) (fun _ => rfl) _ taken) ?_
  rintro _ _ ⟨freed, free, rfl⟩
  rw [wp_modify]
  exact ⟨freed, free, rfl⟩

theorem drainStagingCache_held (rules : Rules env slack inv)
    (stopped : state.stop = true)
    (unread : slack.pulls = true ∨
      ∀ cache, state.stagingCache = some cache →
        ∀ slot ∈ cache.slots.values, cache.copiesInflight slot ≤ 0)
    (held : Held inv hand state) :
    wp (drainStagingCache env)
      (fun _ next => Held inv hand next ∧ next.stop = true ∧
        next.sharedCached = state.sharedCached)
      fail state := by
  unfold drainStagingCache
  rw [wp_bind, wp_get]
  split
  next => exact ⟨held, stopped, rfl⟩
  next cache cached =>
    have dropped := rules.move held (.dropCache stopped cached
      (unread.imp_right fun unread => unread cache cached))
    have released :
        (cache.drain.1.forM release : React slotCount PUnit) =
          cache.slots.values.forM fun slot => release slot.slotIndex :=
      List.forM_map
    rw [wp_bind, wp_modify, released]
    refine wp_seq (releaseAll_held rules
      (fun slot : CacheSlot (Fin slotCount) =>
        (slot.slotIndex, some slot.blockHash))
      id (fun _ _ => rfl) (fun _ => rfl) _ dropped) ?_
    rintro _ _ ⟨kept, free, rfl⟩
    rw [wp_onlyIf, wp_addEvent rules.quiet]
    exact ⟨fun _ => ⟨rules.move kept .tick, stopped, rfl⟩,
      fun _ => ⟨kept, stopped, rfl⟩⟩

/-- The waiters end one by one while they are still queued; the queues are
emptied behind the last of them. -/
theorem failWaiters_held (rules : Rules env slack inv) (exc : Exc)
    (files : hand.files = []) (stopped : state.stop = true)
    (held : Held inv hand state) :
    wp (do
        state.preloadWaiters.pairs.forM fun entry =>
          fileTerminal env entry.2 (some exc)
        modify fun state => { state with preloadWaiters := .empty })
      (fun _ next => Held inv hand next) fail state := by
  have woken := rules.move held (.wakeAll stopped files)
  refine wp_seq (wp_forM
    (fun entries next => Held inv
      { hand with files := entries.map Prod.snd }
      { next with preloadWaiters := .empty })
    ?_ state.preloadWaiters.pairs woken) ?_
  · intro entry entries current kept
    have done := rules.move kept (.endLoad (some exc) rfl)
    exact wp_fileTerminal rules.quiet.emits done (rules.move done .tick)
  · intro _ next kept
    rw [wp_modify]
    rw [List.map_nil, ← files] at kept
    exact kept

theorem intakeStop_held (rules : Rules env slack inv) (idle : Idle hand)
    (unread : slack.pulls = true ∨ LendsNothing state)
    (held : Held inv hand state) :
    wp (intakeStop env) (fun _ next => Held inv hand next) fail state := by
  unfold intakeStop
  have stopped := rules.move held .stop
  rw [wp_bind, wp_modify, wp_bind, wp_get]
  have counted (unclaimed : Prop) [Decidable unclaimed] :
      wp (onlyIf unclaimed (addEvent env .preloadUnclaimedAtShutdown))
        (fun _ next => Held inv hand next ∧ next.stop = true ∧
          (slack.pulls = true ∨ LendsNothing next)) fail
        { state with stop := true } := by
    have still : slack.pulls = true ∨
        LendsNothing { state with stop := true } :=
      unread.imp_right fun nothing => ⟨nothing.shared, nothing.cache⟩
    rw [wp_onlyIf, wp_addEvent rules.quiet]
    refine ⟨fun _ => ⟨rules.move stopped .tick, rfl, ?_⟩,
      fun _ => ⟨stopped, rfl, still⟩⟩
    exact still.imp_right fun nothing => ⟨nothing.shared, nothing.cache⟩
  refine wp_seq (counted _) ?_
  rintro _ next ⟨kept, isStopped, unread⟩
  refine wp_seq (releasePreloadSlots_held rules idle isStopped
    (unread.imp_right LendsNothing.shared) kept) ?_
  rintro _ _ ⟨kept, free, rfl⟩
  have caches := unread.imp_right LendsNothing.cache
  refine wp_seq (drainStagingCache_held rules isStopped caches kept) ?_
  rintro _ last ⟨kept, isStopped, emptied⟩
  have cleared := rules.move kept (.clear isStopped emptied)
  rw [wp_bind, wp_modify, wp_bind, wp_get]
  exact failWaiters_held rules _ idle.files (by exact isStopped) cleared

/-! ## One item -/

/-- An item leaves the queue and is taken in. -/
theorem intake_held (rules : Rules env slack inv) (idle : Idle hand)
    (noArrival : hand.arrived = []) (noJob : hand.job = none)
    {item : Item} {later : List Item}
    (first : state.incoming = item :: later)
    (admits : slack.demands = true ∨ ∀ request, item ≠ .preload request)
    (remembers : slack.forgets = true ∨ env.sharePreload = false ∨
      ∀ request, item = .preload request →
        state.DemandsFit request.reqId request.blockHashes)
    (unread : slack.pulls = true ∨ (item = .stop → LendsNothing state))
    (held : Held inv hand state) :
    wp (intake env item) (fun _ next => Held inv hand next) Crash
      { state with incoming := later } := by
  cases item with
  | stop =>
      have taken := rules.move held (.takeOther first nofun)
      have still : slack.pulls = true ∨
          LendsNothing { state with incoming := later } :=
        unread.imp_right fun calm => ⟨(calm rfl).shared, (calm rfl).cache⟩
      exact intakeStop_held rules idle still taken
  | preload request =>
      have taken := rules.move held (.takeOther first nofun)
      have demands : slack.demands = true :=
        admits.resolve_right fun none => none request rfl
      exact intakePreload_held rules idle.tokens demands taken request
        (remembers.imp_right fun rest => rest.imp_right fun fits =>
          fits request rfl)
  | job job =>
      have taken := rules.move held (.takeJob first noJob)
      exact intakeJob_held rules idle.loose noArrival noJob taken

/-! ## Runs -/

end PyKvCache.Ledger

namespace PyKvCache.Reactor.Phase

variable {slotCount : Nat}

/-- The thread has not crashed. -/
def Running : Phase slotCount → Prop
  | .crashed _ => False
  | .closing _ => False
  | .dead => False
  | _ => True

instance (phase : Phase slotCount) : Decidable phase.Running := by
  cases phase <;> simp only [Running] <;> infer_instance

/-- What the thread holds between two of its steps: the rest of the copies
`_drain_cuda_copies` runs over. -/
def hand : Phase slotCount → Ledger.Hand slotCount
  | .copies todo => { Ledger.Hand.empty with todo := todo }
  | _ => .empty

end PyKvCache.Reactor.Phase

namespace PyKvCache.Ledger

open PyKvCache.Library PyKvCache.Staging PyKvCache.Transfer
open PyKvCache.Reactor PyKvCache.Library.Effect

variable {slotCount : Nat} {env : Env slotCount} {slack : Slack}
  {inv : Hand slotCount → State slotCount → Prop}
  {hand : Hand slotCount} {state : State slotCount}

theorem idle_empty : Idle (Hand.empty : Hand slotCount) :=
  ⟨rfl, rfl, rfl, rfl, rfl, rfl, rfl, rfl, rfl⟩

/-- The completion the thread is about to reap finds a waiter it can serve. -/
def ServesWaiter (env : Env slotCount) (machine : Machine slotCount) :
    Prop :=
  ∀ completion todo, machine.phase = .completions (completion :: todo) →
    WaiterMapped env machine.state completion

/-- If the thread is about to finish jobs, the store jobs it drops have
scheduled all their files. -/
def DropsOnlyScheduled (machine : Machine slotCount) : Prop :=
  machine.phase = .finishing → DropsScheduled machine.state

/-- The thread does not take a preload request in next. -/
def TakesNoDemand (machine : Machine slotCount) : Prop :=
  machine.phase = .incoming → ∀ request later,
    machine.state.incoming ≠ .preload request :: later

/-- If the thread takes a preload request in next, its pairs fit. -/
def DemandsFit (machine : Machine slotCount) : Prop :=
  machine.phase = .incoming → ∀ request later,
    machine.state.incoming = .preload request :: later →
      machine.state.DemandsFit request.reqId request.blockHashes

/-- The completion the thread is about to reap serves no load whose request
still demands the block. -/
def ReadsUndemanded (env : Env slotCount) (machine : Machine slotCount) :
    Prop :=
  ∀ completion todo, machine.phase = .completions (completion :: todo) →
    OwnReadUndemanded env machine.state completion

/-- A shared slot is registered only for the hash of the read that is reaped
next, if at all. -/
def Registers (slack : Slack) (machine : Machine slotCount) : Prop :=
  ∀ completion todo info slot fd,
    machine.phase = .completions (completion :: todo) →
    machine.state.inflight.find? completion.1 =
        some (.reading (.preload info) slot fd) →
      slack.registers info.blockHash = true

/-- If the thread takes the stop marker in next, nothing is lent. -/
def StopsCalm (machine : Machine slotCount) : Prop :=
  machine.phase = .incoming → ∀ later,
    machine.state.incoming = .stop :: later → LendsNothing machine.state

/-- The next step makes no slip that is not allowed. -/
structure Permits (env : Env slotCount) (slack : Slack)
    (machine : Machine slotCount) : Prop where
  serves : slack.loses = true ∨ ServesWaiter env machine
  schedules : slack.leaks = true ∨ DropsOnlyScheduled machine
  rounds : machine.phase = .scheduling →
    ∀ round ∈ machine.state.loadRounds env,
      RoundPermits env slack round.1 round.2
  returns : slack.retains = true ∨ ReadsUndemanded env machine
  remembers : slack.forgets = true ∨ env.sharePreload = false ∨
    DemandsFit machine
  admits : slack.demands = true ∨ TakesNoDemand machine
  calm : slack.pulls = true ∨ StopsCalm machine
  registers : Registers slack machine

/-- All slips are allowed. -/
theorem permits_any {machine : Machine slotCount} :
    Permits env .any machine where
  serves := Or.inl rfl
  schedules := Or.inl rfl
  rounds := fun _ _ _ => ⟨Or.inl rfl, Or.inl rfl, Or.inl rfl⟩
  returns := Or.inl rfl
  remembers := Or.inl rfl
  admits := Or.inl rfl
  calm := Or.inl rfl
  registers := fun _ _ _ _ _ _ _ => rfl

/-- The invariant at a machine whose thread runs. -/
def HeldAt (inv : Hand slotCount → State slotCount → Prop)
    (machine : Machine slotCount) : Prop :=
  machine.phase.Running → Held inv machine.phase.hand machine.state

/-- What holds when the program returns, if it does. -/
theorem perform_post {program : React slotCount PUnit}
    {next : Phase slotCount} {post : Phase slotCount → State slotCount → Prop}
    (keeps : wp program (fun _ final => post next final) Crash state)
    (running : (Machine.perform program next state).phase.Running) :
    post (Machine.perform program next state).phase
      (Machine.perform program next state).state := by
  unfold wp at keeps
  unfold Machine.perform at running ⊢
  cases outcome : program state with
  | ok _ final =>
      simp only [outcome] at keeps ⊢
      exact keeps
  | error exc final =>
      simp only [outcome] at running
      cases running

theorem perform_held {program : React slotCount PUnit}
    {next : Phase slotCount}
    (keeps : wp program (fun _ final => Held inv next.hand final) Crash
      state) :
    HeldAt inv (Machine.perform program next state) :=
  @perform_post _ state program next (fun phase => Held inv phase.hand) keeps

theorem unlessDone_held {next : Phase slotCount}
    (idle : Held inv Hand.empty state) (kept : Held inv next.hand state) :
    HeldAt inv (Machine.unlessDone next state) := by
  intro _
  unfold Machine.unlessDone
  split
  · exact idle
  · exact kept

/-- A step of the thread keeps what every move keeps. -/
theorem advance_held (rules : Rules env slack inv)
    (reaps : slack.reaps = true)
    {machine : Machine slotCount} (permits : Permits env slack machine)
    (held : HeldAt inv machine) : HeldAt inv (machine.advance env) := by
  obtain ⟨phase, state⟩ := machine
  have now : phase.Running → Held inv phase.hand state := held
  cases phase with
  | loopHead => exact unlessDone_held (now trivial) (now trivial)
  | incoming =>
      have kept : Held inv Hand.empty state := now trivial
      simp only [Machine.advance]
      cases first : state.incoming with
      | nil =>
          exact unlessDone_held kept (rules.move kept (.watchCopies rfl))
      | cons item later =>
          refine perform_held (intake_held rules idle_empty rfl rfl first
            ?_ ?_ ?_ kept)
          · refine permits.admits.imp_right fun none request same => ?_
            subst same
            exact none rfl request later first
          · refine permits.remembers.imp_right fun rest =>
              rest.imp_right fun fits request same => ?_
            subst same
            exact fits rfl request later first
          · refine permits.calm.imp_right fun calm same => ?_
            subst same
            exact calm rfl later first
  | copies todo =>
      cases todo with
      | nil => exact fun _ => now trivial
      | cons copy todo =>
          exact perform_held (drainCudaCopy_held rules Hand.empty reaps
            idle_empty (now trivial))
  | poll =>
      have kept : Held inv Hand.empty state := now trivial
      intro running
      have polled := external_held rules kept (.pollAll)
      simp only [Machine.advance, pollAll, bind, EStateM.bind, get_run,
        pure, EStateM.pure] at running ⊢
      unfold wp at polled
      cases outcome : external env .pollAll state with
      | ok _ final =>
          simp only [outcome] at polled ⊢
          exact polled
      | error exc final =>
          simp only [outcome] at running
          cases running
  | completions todo =>
      cases todo with
      | nil => exact fun _ => now trivial
      | cons completion todo =>
          exact perform_held (reapCompletion_held rules reaps idle_empty
            completion
            (permits.serves.imp_right fun serves =>
              serves completion todo rfl)
            (permits.returns.imp_right fun undemanded =>
              undemanded completion todo rfl)
            (fun info slot fd =>
              permits.registers completion todo info slot fd rfl)
            (now trivial))
  | scheduling =>
      exact perform_held (scheduleWork_held rules allows_crash idle_empty
        (permits.rounds rfl) rfl (now trivial))
  | flushing =>
      exact perform_held (flushCopyBatch_held rules allows_crash reaps
        idle_empty (now trivial))
  | submitting =>
      exact perform_held (keeps_of_both
        (external_held rules (now trivial) _))
  | finishing =>
      refine perform_held ?_
      unfold finishJobs
      rw [wp_modify]
      exact rules.move (now trivial) (.finish rfl
        (permits.schedules.imp_right fun scheduled => scheduled rfl))
  | crashed exc =>
      intro running
      simp only [Machine.advance, Machine.perform] at running
      split at running
      · cases running
      · cases running
  | closing exc =>
      intro running
      simp only [Machine.advance, Machine.perform] at running
      split at running
      · cases running
      · cases running
  | dead => exact held
  | exited => exact held

theorem step_held (rules : Rules env slack inv)
    (reaps : slack.reaps = true)
    {before after : Machine slotCount} (permits : Permits env slack before)
    (held : HeldAt inv before) (step : Machine.Step env before after) :
    HeldAt inv after := by
  cases step with
  | advance => exact advance_held rules reaps permits held
  | submit job new =>
      exact fun running => rules.move (held running) (.submit job new)
  | preload request =>
      exact fun running => rules.move (held running) (.enqueue request)
  | shutdown =>
      exact fun running => rules.move (held running) .shutdown

/-- A thread that has crashed does not run again. -/
theorem running_of_step {machine next : Machine slotCount}
    (step : Machine.Step env machine next) (running : next.phase.Running) :
    machine.phase.Running := by
  cases step with
  | advance =>
      obtain ⟨phase, state⟩ := machine
      cases phase with
      | crashed exc =>
          simp only [Machine.advance, Machine.perform] at running
          split at running
          · exact running
          · exact running
      | closing exc =>
          simp only [Machine.advance, Machine.perform] at running
          split at running
          · exact running
          · exact running
      | dead => exact running
      | _ => trivial
  | submit => exact running
  | preload => exact running
  | shutdown => exact running

theorem base_init : Base Hand.empty (State.init env) where
  numbered := by
    intro userData op found
    cases found
  waiters := by
    intro pair member
    cases member
  blocked := by
    intro pair member
    cases member
  missing := by
    intro pair member
    cases member
  registered := by
    intro hash slot found
    cases found
  fresh := by
    intro slot made
    cases made
  todo := List.Sublist.refl _
  known := by
    intro job member
    cases member

/-- What every move keeps, and the constructor establishes, holds as long as
the thread runs and makes no slip that is not allowed. -/
theorem reachableUnder_held (rules : Rules env slack inv)
    (reaps : slack.reaps = true)
    (condition : Machine slotCount → Prop)
    (permits : ∀ machine, condition machine → Permits env slack machine)
    (start : inv Hand.empty (State.init env))
    {machine : Machine slotCount}
    (reached : Machine.ReachableUnder env condition machine) :
    HeldAt inv machine := by
  induction reached with
  | refl => exact fun _ => ⟨base_init, start⟩
  | tail _ step inductionHypothesis =>
      exact step_held rules reaps (permits _ step.1)
        inductionHypothesis step.2

/-- The same of every run, where all slips are allowed. -/
theorem reachable_held (rules : Rules env .any inv)
    (start : inv Hand.empty (State.init env))
    {machine : Machine slotCount} (reached : Machine.Reachable env machine) :
    HeldAt inv machine :=
  reachableUnder_held rules rfl (fun _ => True)
    (fun _ _ => permits_any) start (reached.under fun _ => trivial)

end PyKvCache.Ledger
