import PyKvCache.Ledger.Owned
import PyKvCache.Safety.SlotOwners

/-!
# The demands in every state of a run

That a hash counts the requests that own a demand for it, and that a load that
is served gives its demand back.
-/

namespace PyKvCache.Reactor

open PyKvCache.Staging PyKvCache.Library

variable {slotCount : Nat}

/-- The requests that own a demand for a hash. -/
def State.owners (state : State slotCount) (hash : BlockHash) :
    Finset String :=
  (((state.preloadOwned.entries.map Prod.fst).filter fun pair =>
    pair.2 = hash).map Prod.fst).toFinset

end PyKvCache.Reactor

namespace PyKvCache.Safety

open PyKvCache.Library PyKvCache.Staging PyKvCache.Transfer
open PyKvCache.Reactor PyKvCache.Ledger PyKvCache.Library.Effect

variable {slotCount : Nat} {env : Env slotCount} {slack : Slack}
  {hand : Hand slotCount} {state : State slotCount}
  {machine : Machine slotCount}

/-! ## The invariant -/

/-- The books about demands. -/
structure DemandInv (env : Env slotCount) (slack : Slack)
    (hand : Hand slotCount) (state : State slotCount) : Prop where
  counts : CountBooks hand state
  demands : DemandBooks env hand state
  owns : OwnBooks env slack state
  keeps : KeptBooks env state

theorem demandInv_closed :
    Closed env slack (@DemandInv slotCount env slack) := by
  intro hand state hand' state' base moved inv
  exact ⟨inv.counts.move moved, inv.demands.move inv.counts moved,
    inv.owns.move moved, inv.keeps.move inv.demands moved⟩

theorem demandInv_init :
    DemandInv env slack Hand.empty (State.init env) where
  counts := countBooks_init
  demands := demandBooks_init
  owns := fun _ _ _ => rfl
  keeps := nofun

/-- The slips of a run that drops no demand uncounted. -/
def remembersAll : Slack := { Slack.any with forgets := false }

theorem permits_remembersAll (fits : DemandsFit machine) :
    Permits env remembersAll machine where
  serves := Or.inl rfl
  schedules := Or.inl rfl
  rounds := fun _ _ _ => ⟨Or.inl rfl, Or.inl rfl, Or.inl rfl⟩
  returns := Or.inl rfl
  remembers := Or.inr (Or.inr fits)
  admits := Or.inl rfl
  calm := Or.inl rfl
  registers := fun _ _ _ _ _ _ _ => rfl

theorem demandInv (quiet : env.Quiet)
    (reached : Machine.ReachableUnder env DemandsFit machine)
    (running : machine.phase.Running) :
    Held (DemandInv env remembersAll) machine.phase.hand machine.state :=
  reachableUnder_held
    (⟨quiet, demandInv_closed⟩ :
      Rules env remembersAll (DemandInv env remembersAll))
    rfl DemandsFit (fun _ fits => permits_remembersAll fits) demandInv_init
    reached running

/-! ## The demand count -/

theorem mem_owners {hash : BlockHash} {reqId : String} :
    reqId ∈ state.owners hash ↔
      state.preloadOwned.contains (reqId, hash) = true := by
  simp only [State.owners, List.mem_toFinset, List.mem_map,
    List.mem_filter, decide_eq_true_eq, OrderedDict.contains_iff,
    OrderedDict.find?_eq_some_iff]
  constructor
  · rintro ⟨pair, ⟨⟨entry, member, rfl⟩, rfl⟩, rfl⟩
    exact ⟨entry.2, member⟩
  · rintro ⟨owner, member⟩
    exact ⟨_, ⟨⟨_, member, rfl⟩, rfl⟩, rfl⟩

/-- Every pair of a hash has another request. -/
theorem card_owners (hash : BlockHash) :
    (state.owners hash).card = state.ownerCount hash := by
  have distinct := state.preloadOwned.distinct.filter
    fun pair => decide (pair.2 = hash)
  have apart := distinct.map_on (f := Prod.fst) (by
    intro first inFirst second inSecond same
    have firstHash := (List.mem_filter.mp inFirst).2
    have secondHash := (List.mem_filter.mp inSecond).2
    simp only [decide_eq_true_eq] at firstHash secondHash
    exact Prod.ext same (firstHash.trans secondHash.symm))
  unfold State.owners State.ownerCount
  rw [List.toFinset_card_of_nodup apart, List.length_map,
    ← List.countP_eq_length_filter, List.countP_map]
  rfl

/-- Every hash counts as many demands as requests own one. -/
def DemandsExact (state : State slotCount) : Prop :=
  ∀ hash, state.preloadRefcount.count hash = (state.owners hash).card

/-- With sharing the demand count is exact, as long as the owned pairs stay
within their cap. -/
theorem demandsExact (quiet : env.Quiet)
    (sharing : env.sharePreload = true)
    (reached : Machine.ReachableUnder env DemandsFit machine)
    (running : machine.phase.Running) : DemandsExact machine.state := by
  intro hash
  have held := demandInv quiet reached running
  rw [card_owners]
  exact held.inv.owns sharing rfl hash

section Examples

instance (reqId : String) (hashes : List BlockHash) :
    Decidable (state.DemandsFit reqId hashes) :=
  inferInstanceAs (Decidable (_ ≤ _))

instance : DecidablePred (@DemandsFit slotCount) := fun machine =>
  match first : machine.state.incoming with
  | .preload request :: later =>
      decidable_of_iff (machine.phase = .incoming →
          machine.state.DemandsFit request.reqId request.blockHashes)
        ⟨fun fits taking other rest same => by
          rw [first, List.cons.injEq, Item.preload.injEq] at same
          rw [← same.1]
          exact fits taking,
        fun fits taking => fits taking request later first⟩
  | [] => isTrue fun _ other rest same => by
      rw [first] at same
      cases same
  | .job _ :: _ => isTrue fun _ other rest same => by
      rw [first] at same
      cases same
  | .stop :: _ => isTrue fun _ other rest same => by
      rw [first] at same
      cases same

theorem twoDemanders_demandsExact :
    twoDemanders.state.preloadRefcount.count [1] = 2 ∧
      DemandsExact twoDemanders.state :=
  ⟨by decide +kernel, demandsExact Env.smooth_quiet rfl
    (Machine.reachableUnder_play _ Relation.ReflTransGen.refl
      (by decide +kernel)) (by decide +kernel)⟩

/-- While a request is taken in, hashes that are not waiting any more are
demanded. -/
structure Crowding (limit : Nat) (reqId : String)
    (hashes waiting : List BlockHash) (state : State slotCount) : Prop where
  running : state.stop = false
  cacheless : state.stagingCache = none
  capped : state.preloadOwned.entries.length ≤ limit
  demanded : ∀ hash, state.preloadOwned.contains (reqId, hash) = true →
    0 < state.preloadRefcount.count hash
  taken : ∀ hash ∈ hashes,
    hash ∈ waiting ∨ 0 < state.preloadRefcount.count hash

theorem intakePreloadHash_crowding (sharing : env.sharePreload = true)
    (request : PreloadRequest) (entry : BlockHash × Nat)
    {hashes waiting : List BlockHash}
    (crowding : Crowding Env.maxPreloadOwned request.reqId hashes
      (entry.1 :: waiting) state) :
    wp (intakePreloadHash env request entry)
      (fun _ next => Crowding Env.maxPreloadOwned request.reqId hashes
        waiting next)
      (fun _ _ => False) state := by
  have uncached : state.inStagingCache entry.1 = false := by
    unfold State.inStagingCache
    rw [crowding.cacheless]
    rfl
  revert crowding
  unfold intakePreloadHash preloadOwn
  generalize Env.maxPreloadOwned = limit
  intro crowding
  simp only [wp_bind, wp_get, wp_ite, wp_pure, wp_modifyGet]
  refine ⟨fun cached => ?_, fun _ => ?_⟩
  · rw [uncached] at cached
    cases cached
  split
  next owned =>
    refine ⟨by simp, fun _ => ⟨crowding.running, crowding.cacheless,
      crowding.capped, crowding.demanded, fun hash member => ?_⟩⟩
    rcases crowding.taken hash member with later | counted
    · rcases List.mem_cons.mp later with rfl | later
      · exact Or.inr (crowding.demanded _ owned)
      · exact Or.inl later
    · exact Or.inr counted
  next unowned =>
    refine ⟨fun _ => ?_, fun impossible => absurd rfl impossible⟩
    refine ⟨fun _ => ?_, fun multi => absurd sharing multi⟩
    have next : Crowding limit request.reqId hashes waiting
        { state with
          preloadOwned := (state.preloadOwned.set
            (request.reqId, entry.1) ()).keepNewest limit
          preloadRefcount := state.preloadRefcount.addOne entry.1 } := by
      refine ⟨crowding.running, crowding.cacheless,
        OrderedDict.length_keepNewest_le, fun hash owned => ?_,
        fun hash member => ?_⟩
      · simp only [CountTable.count_addOne]
        split
        · omega
        next different =>
          refine crowding.demanded hash ?_
          obtain ⟨value, found⟩ := OrderedDict.contains_iff.mp owned
          have kept := OrderedDict.mem_keepNewest_entries
            (OrderedDict.find?_eq_some_iff.mp found)
          rw [← OrderedDict.find?_eq_some_iff, OrderedDict.find?_set,
            if_neg (by simpa using different)] at kept
          exact OrderedDict.contains_iff.mpr ⟨value, kept⟩
      · simp only [CountTable.count_addOne]
        by_cases same : hash = entry.1
        · exact Or.inr (by rw [if_pos same]; omega)
        · rw [if_neg same]
          refine (crowding.taken hash member).imp_left fun later => ?_
          exact (List.mem_cons.mp later).resolve_left same
    simp only [wp_modify, wp_onlyIf, pendingPush]
    exact ⟨fun _ => ⟨next.running, next.cacheless, next.capped, next.demanded,
      next.taken⟩, fun _ => next⟩

/-- Distinct hashes that are all demanded, and more than may be owned. -/
theorem Crowding.not_demandsExact {limit : Nat} {reqId : String}
    {hashes : List BlockHash} (crowding : Crowding limit reqId hashes [] state)
    (distinct : hashes.Nodup) (many : limit < hashes.length) :
    ¬ DemandsExact state := by
  intro exact
  have owned : hashes ⊆
      state.preloadOwned.entries.map fun entry => entry.1.2 := by
    intro hash member
    have counted : 0 < state.preloadRefcount.count hash :=
      (crowding.taken hash member).resolve_left List.not_mem_nil
    rw [exact hash, Finset.card_pos] at counted
    obtain ⟨owner, inOwners⟩ := counted
    obtain ⟨value, found⟩ :=
      OrderedDict.contains_iff.mp (mem_owners.mp inOwners)
    exact List.mem_map.mpr
      ⟨_, OrderedDict.find?_eq_some_iff.mp found, rfl⟩
  have fewer := (List.subperm_of_subset distinct owned).length_le
  rw [List.length_map] at fewer
  have capped := crowding.capped
  omega

/-- One hash more than pairs may be owned. -/
def crowdedRequest : PreloadRequest where
  blockHashes := (List.range (Env.maxPreloadOwned + 1)).map fun n =>
    [UInt8.ofNat (n / 256), UInt8.ofNat n]
  reqId := ""
  preloadId := ""

/-- Two bytes tell the numbers below 65536 apart. -/
theorem bytes_injective {first second : Nat} (inFirst : first < 65536)
    (inSecond : second < 65536)
    (same : [UInt8.ofNat (first / 256), UInt8.ofNat first] =
      [UInt8.ofNat (second / 256), UInt8.ofNat second]) :
    first = second := by
  simp only [List.cons.injEq, and_true] at same
  have high := congrArg UInt8.toNat same.1
  have low := congrArg UInt8.toNat same.2
  simp only [UInt8.toNat_ofNat'] at high low
  omega

theorem crowdedRequest_distinct : crowdedRequest.blockHashes.Nodup := by
  have few : Env.maxPreloadOwned + 1 ≤ 65536 := by decide
  unfold crowdedRequest
  generalize Env.maxPreloadOwned + 1 = count at few ⊢
  refine List.nodup_range.map_on fun first inFirst second inSecond same => ?_
  rw [List.mem_range] at inFirst inSecond
  exact bytes_injective (inFirst.trans_le few) (inSecond.trans_le few) same

theorem crowdedRequest_many :
    Env.maxPreloadOwned < crowdedRequest.blockHashes.length := by
  unfold crowdedRequest
  rw [List.length_map, List.length_range]
  exact Nat.lt_succ_self _

/-- Taking a request in, with nothing owned and no staging cache. -/
theorem intake_crowding (sharing : env.sharePreload = true)
    (request : PreloadRequest) (running : state.stop = false)
    (cacheless : state.stagingCache = none)
    (nobody : state.preloadOwned = .empty) :
    wp (intake env (.preload request))
      (fun _ next => Crowding Env.maxPreloadOwned request.reqId
        request.blockHashes [] next)
      (fun _ _ => False) state := by
  have start : Crowding Env.maxPreloadOwned request.reqId
      request.blockHashes (request.blockHashes.zipIdx.map Prod.fst)
      state := by
    refine ⟨running, cacheless, ?_, fun hash owned => ?_, fun hash member => ?_⟩
    · rw [nobody]
      exact Nat.zero_le _
    · rw [nobody] at owned
      cases owned
    · rw [List.zipIdx_map_fst]
      exact Or.inl member
  exact wp_forM (fun entries next => Crowding Env.maxPreloadOwned
      request.reqId request.blockHashes (entries.map Prod.fst) next)
    (fun entry entries _ crowding =>
      intakePreloadHash_crowding sharing request entry crowding)
    request.blockHashes.zipIdx start

/-- The machine after one request is taken in. -/
def afterRequest (request : PreloadRequest) : Machine 5 :=
  (Machine.init (.smooth true fun _ => [])).play (.smooth true fun _ => [])
    [.preload request, .advance, .advance]

theorem afterRequest_eq (request : PreloadRequest) :
    afterRequest request =
      Machine.perform
        (intake (.smooth true fun _ => []) (.preload request))
        .incoming (State.init (Env.smooth true fun _ => [])) :=
  rfl

theorem reachable_afterRequest (request : PreloadRequest) :
    Machine.Reachable (.smooth true fun _ => []) (afterRequest request) :=
  Machine.reachable_play _
    ⟨trivial, trivial, trivial, trivial, trivial, trivial, trivial⟩

/-- More distinct hashes than may be owned are counted, but not owned. -/
theorem afterRequest_inexact {request : PreloadRequest}
    (distinct : request.blockHashes.Nodup)
    (many : Env.maxPreloadOwned < request.blockHashes.length) :
    (afterRequest request).phase.Running ∧
      (afterRequest request).state.stop = false ∧
        ¬ DemandsExact (afterRequest request).state := by
  have taken := @intake_crowding 5 (.smooth true fun _ => [])
    (State.init (.smooth true fun _ => [])) rfl request rfl rfl rfl
  rw [afterRequest_eq]
  unfold wp at taken
  unfold Machine.perform
  cases outcome : intake (Env.smooth true fun _ => []) (.preload request)
      (State.init (.smooth true fun _ => [])) with
  | ok _ final =>
      simp only [outcome] at taken
      exact ⟨trivial, taken.running, taken.not_demandsExact distinct many⟩
  | error exc final =>
      simp only [outcome] at taken

theorem crowdedRequest_inexact :
    Machine.Reachable (.smooth true fun _ => [])
        (afterRequest crowdedRequest) ∧
      (afterRequest crowdedRequest).phase.Running ∧
        (afterRequest crowdedRequest).state.stop = false ∧
          ¬ DemandsExact (afterRequest crowdedRequest).state :=
  ⟨reachable_afterRequest _,
    afterRequest_inexact crowdedRequest_distinct crowdedRequest_many⟩

end Examples

/-! ## Loads that give their demand back -/

/-- A step gives back the demands of the loads it serves: the copies it queues
are for requests that own no demand any more, the demand count is exact, and a
slot stays registered only for a request that still owns a demand. -/
structure DemandsReturned (before after : State slotCount) : Prop where
  returned : ∀ ready ∈ after.copyReady, ready ∉ before.copyReady →
    after.preloadOwned.contains
      (ready.copy.file.job.reqId, ready.copy.file.hash) = false
  exact : DemandsExact after
  kept : ∀ hash slot, after.sharedCached.find? hash = some slot →
    (after.owners hash).Nonempty

/-- The owned pairs stay within their cap, and no load that is about to be
served from the staging cache or by its own read demands its block. -/
structure ReturnsDemands (env : Env slotCount) (machine : Machine slotCount) :
    Prop where
  fits : DemandsFit machine
  hits : machine.phase = .scheduling →
    ∀ round ∈ machine.state.loadRounds env,
      ∀ file ∈ round.2.nextLoad round.1, HitUndemanded env round.2 file
  reads : ReadsUndemanded env machine

/-- The slips of a step that takes no demand in and lets no load keep its
own. -/
def returnsAll : Slack :=
  { Slack.any with demands := false, retains := false }

theorem permits_returnsAll (returns : ReturnsDemands env machine)
    (none : TakesNoDemand machine) : Permits env returnsAll machine where
  serves := Or.inl rfl
  schedules := Or.inl rfl
  rounds := fun scheduling round started =>
    ⟨Or.inl rfl, Or.inl rfl,
      Or.inr (returns.hits scheduling round started)⟩
  returns := Or.inr returns.reads
  remembers := Or.inl rfl
  admits := Or.inr none
  calm := Or.inl rfl
  registers := fun _ _ _ _ _ _ _ => rfl

/-- A request that is taken in queues no copy. -/
theorem intakePreload_copyReady (request : PreloadRequest) :
    wp (intake env (.preload request))
      (fun _ final => final.copyReady = state.copyReady) Crash state := by
  refine wp_forM
    (fun _ (next : State slotCount) => next.copyReady = state.copyReady)
    (fun entry _ current same => ?_) request.blockHashes.zipIdx rfl
  refine wp_post
    (@intakePreloadHash_owned _ env current Crash request entry) ?_
  rintro _ next ⟨_, _, kept⟩
  exact kept.trans same

/-- No step that takes a request in queues a copy. -/
theorem copyReady_of_demand {next : Machine slotCount}
    (demand : ¬ TakesNoDemand machine)
    (step : Machine.Step env machine next) (running : next.phase.Running) :
    next.state.copyReady = machine.state.copyReady := by
  cases step with
  | advance =>
      simp only [TakesNoDemand, not_forall, not_not] at demand
      obtain ⟨taking, request, later, first⟩ := demand
      have performed : machine.advance env =
          Machine.perform (intake env (.preload request)) .incoming
            { machine.state with incoming := later } := by
        simp only [Machine.advance, taking, first]
      rw [performed] at running ⊢
      exact @perform_post _ _ _ _
        (fun _ final => final.copyReady = machine.state.copyReady)
        (intakePreload_copyReady request) running
  | submit job new =>
      unfold State.submitJob
      split <;> rfl
  | preload request =>
      unfold State.enqueuePreload
      split <;> rfl
  | shutdown =>
      unfold State.shutdown
      split <;> rfl

theorem servedBooks_closed (sharing : env.sharePreload = true)
    (start : State slotCount) :
    Closed env returnsAll (ServedBooks start) :=
  fun _ _ _ _ _ moved books => books.move sharing rfl rfl moved

/-- The copies a step queues are for requests that own no demand any more. -/
theorem copies_returned (quiet : env.Quiet)
    (sharing : env.sharePreload = true) {next : Machine slotCount}
    (base : machine.phase.Running → Base machine.phase.hand machine.state)
    (returns : ReturnsDemands env machine)
    (step : Machine.Step env machine next) (running : next.phase.Running) :
    ∀ ready ∈ next.state.copyReady, ready ∉ machine.state.copyReady →
      next.state.preloadOwned.contains
        (ready.copy.file.job.reqId, ready.copy.file.hash) = false := by
  intro ready queued new
  by_cases demand : TakesNoDemand machine
  · have start : HeldAt (ServedBooks machine.state) machine :=
      fun runs => ⟨base runs, fun _ member => Or.inl member⟩
    have books := step_held
      ⟨quiet, servedBooks_closed sharing machine.state⟩ rfl
      (permits_returnsAll returns demand) start step running
    have nobody : next.phase.hand.served = [] := by
      cases next.phase <;> rfl
    rcases books.inv ready queued with old | inHand | gone
    · exact absurd old new
    · rw [nobody] at inHand
      cases inHand
    · exact gone
  · rw [copyReady_of_demand demand step running] at queued
    exact absurd queued new

/-- Every load that is served gives its demand back, as long as the owned
pairs stay within their cap and no load demands the block that the staging
cache or its own read serves it. -/
theorem demandsReturned (quiet : env.Quiet)
    (sharing : env.sharePreload = true)
    (reached : Machine.ReachableUnder env (ReturnsDemands env) machine)
    (returns : ReturnsDemands env machine) {next : Machine slotCount}
    (step : Machine.Step env machine next) (running : next.phase.Running) :
    DemandsReturned machine.state next.state := by
  have fitting : Machine.ReachableUnder env DemandsFit machine :=
    Relation.ReflTransGen.mono
      (fun _ _ moved => ⟨moved.1.fits, moved.2⟩) _ _ reached
  have held := demandInv quiet
    (fitting.tail ⟨returns.fits, step⟩) running
  have exact : DemandsExact next.state := fun hash => by
    rw [card_owners]
    exact held.inv.owns sharing rfl hash
  refine ⟨copies_returned quiet sharing
    (fun runs => (demandInv quiet fitting runs).base) returns step running,
    exact, fun hash slot cached => ?_⟩
  have counted := held.inv.keeps sharing hash slot cached
  rw [exact hash] at counted
  exact Finset.card_pos.mp counted

section Examples

/-- The owned pairs fit, no staging cache is looked at, and no load opens or
reads a file of its own. -/
def OnlyWaits (env : Env slotCount) (machine : Machine slotCount) : Prop :=
  DemandsFit machine ∧
    (machine.phase = .scheduling →
      ∀ round ∈ machine.state.loadRounds env,
        round.2.stagingCache.isNone = true) ∧
    ∀ op ∈ machine.state.inflight.values, op.isLoad = false

instance : DecidablePred (OnlyWaits env) := fun machine =>
  inferInstanceAs (Decidable (DemandsFit machine ∧
    (machine.phase = .scheduling → _) ∧ _))

theorem OnlyWaits.returnsDemands (waits : OnlyWaits env machine) :
    ReturnsDemands env machine := by
  obtain ⟨fits, cacheless, noLoads⟩ := waits
  refine ⟨fits, fun scheduling round started file _ => ?_, ?_⟩
  · intro _ cache slot cached
    have none := cacheless scheduling round started
    rw [cached] at none
    cases none
  · intro completion todo _ file slot fd _ found
    have noLoad := noLoads _ (OrderedDict.mem_values_of_find? found)
    cases noLoad

/-- The read a load waits for is about to be reaped. -/
def readEnding : Machine 5 :=
  (Machine.init (readWorld true 6 9)).play (readWorld true 6 9)
    (waitingLoad oneFileLoad 24)

theorem readEnding_demandsReturned :
    readEnding.state.copyReady = [] ∧
      (readEnding.advance (readWorld true 6 9)).state.copyReady ≠ [] ∧
      DemandsReturned readEnding.state
        (readEnding.advance (readWorld true 6 9)).state := by
  have reached : Machine.ReachableUnder (readWorld true 6 9)
      (OnlyWaits (readWorld true 6 9)) readEnding :=
    Machine.reachableUnder_play _ Relation.ReflTransGen.refl (by decide)
  have waits : OnlyWaits (readWorld true 6 9) readEnding := by
    decide +kernel
  refine ⟨by decide, by decide, demandsReturned Env.smooth_quiet rfl
    (Relation.ReflTransGen.mono
      (fun _ _ moved => ⟨moved.1.returnsDemands, moved.2⟩) _ _ reached)
    waits.returnsDemands (.advance readEnding) (by decide)⟩

/-- A world with a staging cache. -/
def cachedWorld : Env 5 :=
  { readWorld true 3 6 with cachePolicy := some (.lru .empty) }

/-- A load of the same block for another request. -/
def otherLoad : Job :=
  { Job.ofChunk 1 false [1] [8] with reqId := "b" }

/-- The block a request demands is in the staging cache since another request
has loaded it, and a load of the request is about to find it there. -/
def hitting : Machine 5 :=
  (Machine.init cachedWorld).play cachedWorld
    (.submit oneFileLoad :: List.replicate 8 .advance ++
      .preload ⟨[[1]], "", "b"⟩ :: List.replicate 33 .advance ++
      .submit otherLoad :: List.replicate 6 .advance)

/-- A load that the staging cache serves keeps its demand. -/
theorem cacheHit_keepsDemand :
    Machine.Reachable cachedWorld hitting ∧
      hitting.state.stop = false ∧
      (hitting.advance cachedWorld).phase.Running ∧
      ¬ DemandsReturned hitting.state
        (hitting.advance cachedWorld).state := by
  refine ⟨Machine.reachable_play _ (by decide +kernel), by decide +kernel,
    by decide +kernel, fun given => ?_⟩
  obtain ⟨ready, queued, new, owned⟩ :
      ∃ ready ∈ (hitting.advance cachedWorld).state.copyReady,
        ready ∉ hitting.state.copyReady ∧
          (hitting.advance cachedWorld).state.preloadOwned.contains
            (ready.copy.file.job.reqId, ready.copy.file.hash) = true := by
    decide +kernel
  rw [given.returned ready queued new] at owned
  cases owned

end Examples

end PyKvCache.Safety
