import PyKvCache.Ledger.Owners
import PyKvCache.Safety.JobFiles
import Mathlib.Data.List.Dedup

/-!
# One owner for every slot, and the right block in it

Until the stop marker is taken in, every staging slot is in exactly one place,
the copies out of lent slots are counted, and what is copied to the GPU or
offered under a hash is the block of that hash.
-/

namespace PyKvCache.Safety

open PyKvCache.Library PyKvCache.Staging PyKvCache.Transfer
open PyKvCache.Reactor PyKvCache.Ledger

variable {slotCount : Nat} {env : Env slotCount} {slack : Slack}
  {hand hand' : Hand slotCount} {state state' : State slotCount}
  {machine : Machine slotCount}

/-! ## The invariant -/

/-- The counts and the demand for preloads; and, as long as the stop marker
has taken no slot from under a copy, lent slots, fitting copies and one place
for each slot. -/
structure OwnerInv (env : Env slotCount) (slack : Slack)
    (hand : Hand slotCount) (state : State slotCount) : Prop where
  counts : CountBooks hand state
  demand : DemandBooks env hand state
  owners : state.stop = false ∨ slack.pulls = false →
    LentBooks hand state ∧ CopiesFit hand state ∧
      ∃ live, PlaceBooks hand state live

/-- The stop marker is never taken back. -/
theorem stop_of_move (moved : Move env slack hand state hand' state')
    (running : state'.stop = false) : state.stop = false := by
  cases moved with
  | stop => cases running
  | submit job new =>
      unfold State.submitJob at running
      split at running
      · exact running
      · exact running
  | enqueue request =>
      unfold State.enqueuePreload at running
      split at running
      · exact running
      · exact running
  | shutdown =>
      unfold State.shutdown at running
      split at running
      · exact running
      · exact running
  | _ => exact running

theorem ownerInv_closed :
    Closed env slack (OwnerInv env slack) := by
  intro hand state hand' state' base moved inv
  refine ⟨inv.counts.move moved, inv.demand.move inv.counts moved,
    fun calm => ?_⟩
  have before := calm.imp_left (stop_of_move moved)
  obtain ⟨lent, fit, live, places⟩ := inv.owners before
  exact ⟨lent.move base inv.demand before moved, fit.move base moved,
    places.move base lent inv.demand before moved⟩

theorem lentBooks_init :
    LentBooks Hand.empty (State.init env) := by
  have unlent : ∀ source, (State.init env).lent source = 0 := by
    intro source
    cases source with
    | own slot => rfl
    | shared slot => rfl
    | cache slot =>
        unfold State.lent State.init
        cases env.cachePolicy <;> rfl
  refine ⟨fun source => (unlent source).trans rfl, nofun, fun slot => ?_,
    fun cache cached slot counted => ?_⟩
  · exact fun counted => absurd counted (Int.lt_irrefl 0)
  · have zero := unlent (.cache slot)
    simp only [State.lent, cached] at zero
    omega

theorem placeBooks_init :
    PlaceBooks Hand.empty (State.init env) [] := by
  have nothing : (State.init env).cacheSlots = [] := by
    unfold State.cacheSlots State.init
    cases env.cachePolicy <;> rfl
  have allFree : tagged Hand.empty (State.init env) [] =
      (List.finRange slotCount).reverse.map fun slot => (slot, none) := by
    have empty : tagged Hand.empty (State.init env) [] =
        (List.finRange slotCount).reverse.map (fun slot => (slot, none)) ++
          (State.init env).cacheSlots.map
            (fun slot => (slot.slotIndex, some slot.blockHash)) ++ [] := by
      simp [tagged, owned, State.owned, State.init, Hand.empty,
        State.loadCopies, OrderedDict.values, OrderedDict.empty,
        QueueTable.pairs, QueueTable.empty]
    rw [empty, nothing, List.map_nil, List.append_nil, List.append_nil]
  refine ⟨List.nodup_nil, fun slot => ?_, by simp, ?_, ?_⟩
  · simp [Alive, State.init, Hand.empty]
  · rw [allFree, List.map_map]
    refine (List.Perm.of_eq ?_).trans (List.reverse_perm _)
    exact List.map_id _
  · intro entry member hash holds
    rw [allFree, List.mem_map] at member
    obtain ⟨slot, _, rfl⟩ := member
    cases holds

theorem countBooks_init : CountBooks Hand.empty (State.init env) :=
  ⟨fun _ => rfl, fun _ => rfl⟩

theorem demandBooks_init : DemandBooks env Hand.empty (State.init env) :=
  fun _ _ _ => ⟨Nat.zero_le _, Nat.le_refl _, nofun, nofun, nofun⟩

theorem ownerInv_init :
    OwnerInv env slack Hand.empty (State.init env) where
  counts := countBooks_init
  demand := demandBooks_init
  owners := fun _ => ⟨lentBooks_init, nofun, [], placeBooks_init⟩

/-- The books of the slots, with nothing in hand. -/
structure SlotBooks (state : State slotCount)
    (live : List (SharedSlot slotCount)) : Prop where
  base : Base Hand.empty state
  lent : LentBooks Hand.empty state
  fit : CopiesFit Hand.empty state
  places : PlaceBooks Hand.empty state live

theorem slotBooks_of_heldAt (held : HeldAt (OwnerInv env slack) machine)
    (running : machine.phase.Running)
    (calm : machine.state.stop = false ∨ slack.pulls = false) :
    ∃ live, SlotBooks machine.state live := by
  obtain ⟨base, inv⟩ := held running
  obtain ⟨lent, fit, live, places⟩ := inv.owners calm
  obtain ⟨todo, rest⟩ : ∃ todo,
      machine.phase.hand = { Hand.empty with todo := todo } := by
    cases machine.phase <;> exact ⟨_, rfl⟩
  rw [rest] at base lent fit places
  exact ⟨live,
    ⟨base.numbered, base.waiters, base.blocked, base.missing,
      base.registered, base.fresh, List.nil_sublist _, base.known⟩,
    ⟨lent.lent, lent.flagged, lent.numbered, lent.pinned⟩, fit,
    ⟨places.distinct, places.alive, places.numbered, places.places,
      places.filled⟩⟩

theorem slotBooks (quiet : env.Quiet)
    (reached : Machine.Reachable env machine)
    (running : machine.phase.Running)
    (unstopped : machine.state.stop = false) :
    ∃ live, SlotBooks machine.state live := by
  have rules : Rules env .any (OwnerInv env .any) := ⟨quiet, ownerInv_closed⟩
  exact slotBooks_of_heldAt (reachable_held rules ownerInv_init reached)
    running (Or.inl unstopped)

/-! ## One owner -/

/-- The shared slots a copy reads. -/
def readShared (copy : LoadCopy slotCount) : List (SharedSlot slotCount) :=
  match copy.source with
  | .shared slot => [slot]
  | _ => []

/-- The shared preload slots: the registered ones and those a copy reads. -/
def sharedSlots (state : State slotCount) : List (SharedSlot slotCount) :=
  (state.sharedCached.values ++ state.loadCopies.flatMap readShared).dedup

/-- Every place of a slot: the tables of `State.owned` and the shared preload
slots. -/
def slotPlaces (state : State slotCount) : List (Fin slotCount) :=
  state.owned.map Prod.fst ++ (sharedSlots state).map SharedSlot.slotIndex

/-- How many load copies read from a source. -/
def readers (state : State slotCount) (source : Source slotCount) : Nat :=
  state.loadCopies.countP fun copy => copy.source = source

/-- Every slot is in one place, and the copies that do not own the slot they
read are counted where it is kept. -/
structure SlotsOwned (state : State slotCount) : Prop where
  once : ∀ slot, (slotPlaces state).count slot = 1
  sharedCounted : ∀ slot ∈ sharedSlots state,
    (state.shared slot).copiesInflight = readers state (.shared slot)
  cacheCounted : ∀ cache, state.stagingCache = some cache →
    ∀ slot ∈ cache.slots.values,
      cache.copiesInflight slot = readers state (.cache slot)
  cacheKept : ∀ copy ∈ state.loadCopies, ∀ slot,
    copy.source = .cache slot → slot ∈ state.cacheSlots

theorem count_borrowed {source : Source slotCount}
    (notOwned : ∀ slot, source ≠ .own slot) :
    (borrowed Hand.empty state).count source = readers state source := by
  have each : ∀ copies : List (LoadCopy slotCount),
      (copies.flatMap LoadCopy.borrowed).count source =
        copies.countP fun copy => copy.source = source := by
    intro copies
    induction copies with
    | nil => rfl
    | cons head tail inductionHypothesis =>
        rw [List.flatMap_cons, List.count_append, inductionHypothesis,
          List.countP_cons, Nat.add_comm]
        congr 1
        unfold LoadCopy.borrowed
        cases equal : head.source with
        | own slot =>
            have different : (Source.own slot : Source slotCount) ≠ source :=
              fun same => notOwned slot same.symm
            simp [different]
        | shared slot => simp [List.count_singleton]
        | cache slot => simp [List.count_singleton]
  exact each state.loadCopies

namespace SlotBooks

variable {live : List (SharedSlot slotCount)}

theorem readers_eq (books : SlotBooks state live)
    (source : Source slotCount) (notOwned : ∀ slot, source ≠ .own slot) :
    (readers state source : Int) = state.lent source := by
  rw [books.lent.lent, count_borrowed notOwned]

/-- The shared slots that are alive are those of the table and the copies. -/
theorem mem_live (books : SlotBooks state live)
    {slot : SharedSlot slotCount} :
    slot ∈ live ↔ slot ∈ sharedSlots state := by
  have registered : slot ∈ state.sharedCached.values ↔
      state.sharedCached.find? slot.blockHash = some slot := by
    constructor
    · intro member
      obtain ⟨hash, found⟩ := OrderedDict.exists_find?_of_mem_values member
      rw [(books.base.registered hash slot found).1]
      exact found
    · exact OrderedDict.mem_values_of_find?
  have read : slot ∈ state.loadCopies.flatMap readShared ↔
      0 < (state.shared slot).copiesInflight := by
    have positive := books.readers_eq (.shared slot) nofun
    simp only [State.lent] at positive
    rw [← positive, Int.natCast_pos, readers, List.countP_pos_iff,
      List.mem_flatMap]
    refine exists_congr fun copy => and_congr_right fun _ => ?_
    unfold readShared
    cases copy.source <;> simp [eq_comm]
  rw [books.places.alive, sharedSlots, List.mem_dedup, List.mem_append,
    registered, read]
  unfold Alive
  simp [Hand.empty]

theorem slotPlaces_perm (books : SlotBooks state live) :
    (slotPlaces state).Perm (List.finRange slotCount) := by
  have shared : (sharedSlots state).Perm live :=
    (List.perm_ext_iff_of_nodup (List.nodup_dedup _)
      books.places.distinct).mpr fun _ => books.mem_live.symm
  have perm := books.places.places
  rw [tagged, List.map_append, List.map_map] at perm
  exact ((shared.map SharedSlot.slotIndex).append_left _).trans perm

theorem eachOwned (books : SlotBooks state live) : SlotsOwned state := by
  refine ⟨fun slot => ?_, fun slot _ => ?_, fun cache cached slot _ => ?_,
    fun copy member slot read => ?_⟩
  · rw [books.slotPlaces_perm.count_eq]
    exact List.count_eq_one_of_mem (List.nodup_finRange _)
      (List.mem_finRange _)
  · exact (books.readers_eq (.shared slot) nofun).symm
  · rw [books.readers_eq (.cache slot) nofun, State.lent, cached]
  · have counted : 0 < state.lent (.cache slot) := by
      rw [← books.readers_eq (.cache slot) nofun,
        Int.natCast_pos, readers, List.countP_pos_iff]
      exact ⟨copy, member, by simpa using read⟩
    unfold State.lent at counted
    cases cached : state.stagingCache with
    | none =>
        simp only [cached] at counted
        cases counted
    | some cache =>
        simp only [cached] at counted
        have found := books.lent.pinned cache cached slot counted
        simp only [State.cacheSlots, cached, Option.toList_some,
          List.flatMap_cons, List.flatMap_nil, List.append_nil]
        exact OrderedDict.mem_values_of_find? found

end SlotBooks

/-- Until the stop marker is taken in, every staging slot has one owner. -/
theorem slotsOwned (quiet : env.Quiet)
    (reached : Machine.Reachable env machine)
    (running : machine.phase.Running)
    (unstopped : machine.state.stop = false) : SlotsOwned machine.state := by
  obtain ⟨live, books⟩ := slotBooks quiet reached running unstopped
  exact books.eachOwned

section Examples

/-- A load has waited for the shared preload of its block, and its copy has
been launched. -/
def copying : Machine 5 :=
  (Machine.init (readWorld true 6 9)).play (readWorld true 6 9)
    (waitingLoad oneFileLoad 28)

theorem copying_slotsOwned :
    copying.state.loadCopies ≠ [] ∧ SlotsOwned copying.state :=
  ⟨by decide +kernel, slotsOwned Env.smooth_quiet
    (Machine.reachable_play _ (by decide +kernel)) (by decide +kernel)
    (by decide +kernel)⟩

/-- The first preload is opened and read in full, the second one is not. -/
def firstRead : Env 5 :=
  .smooth true fun calls =>
    if calls = 4 then [(1, 3)]
    else if calls = 7 then [(3, 1)]
    else []

/-- Of two blocks a request demands, the one that another request demands as
well is registered, and the other one is being read. -/
def twoDemanders : Machine 5 :=
  (Machine.init firstRead).play firstRead
    (.preload ⟨[[1], [2]], "", "a"⟩ :: .preload ⟨[[1]], "", "b"⟩ ::
      List.replicate 26 .advance)

end Examples

/-! ## The right block -/

/-- Copies deliver, and tables offer, the block of the hash they are for. -/
structure BlocksMatch (state : State slotCount) : Prop where
  delivered : ∀ copy ∈ state.loadCopies,
    state.content copy.source.slotIndex = some copy.file.hash
  preloaded : ∀ hash, ∀ entry ∈ state.preloadSlots.queue hash,
    state.content entry.1 = some hash
  shared : ∀ hash slot, state.sharedCached.find? hash = some slot →
    state.content slot.slotIndex = some hash
  cached : ∀ cache, state.stagingCache = some cache →
    ∀ hash slot, cache.slots.find? hash = some slot →
      state.content slot.slotIndex = some hash

namespace SlotBooks

variable {live : List (SharedSlot slotCount)}

/-- The block in a place of the tables. -/
theorem content_owned (books : SlotBooks state live)
    {slot : Fin slotCount} {hash : BlockHash}
    (member : (slot, some hash) ∈ state.owned) :
    state.content slot = some hash :=
  books.places.filled (slot, some hash)
    (List.mem_append_left _ (List.mem_append_right _ member)) hash rfl

theorem content_shared (books : SlotBooks state live)
    {slot : SharedSlot slotCount} (alive : Alive Hand.empty state slot) :
    state.content slot.slotIndex = some slot.blockHash :=
  books.places.filled slot.entry
    (List.mem_append_right _
      (List.mem_map_of_mem ((books.places.alive slot).mpr alive)))
    slot.blockHash rfl

theorem content_cached (books : SlotBooks state live)
    {cache : StagingDataCache (Fin slotCount)}
    (cached : state.stagingCache = some cache) {hash : BlockHash}
    {slot : CacheSlot (Fin slotCount)}
    (found : cache.slots.find? hash = some slot) :
    state.content slot.slotIndex = some hash := by
  refine books.content_owned (List.mem_append_right _ ?_)
  rw [← cache.keyed hash slot found]
  refine List.mem_map_of_mem (f := fun entry : CacheSlot (Fin slotCount) =>
    (entry.slotIndex, some entry.blockHash)) ?_
  simp only [State.cacheSlots, cached, Option.toList_some,
    List.flatMap_cons, List.flatMap_nil, List.append_nil]
  exact OrderedDict.mem_values_of_find? found

theorem eachMatches (books : SlotBooks state live) : BlocksMatch state := by
  refine ⟨fun copy member => ?_, fun hash entry queued => ?_,
    fun hash slot found => ?_, fun cache cached hash slot found =>
      books.content_cached cached found⟩
  · have lent : ∀ source, copy.source = source →
        (∀ slot, source ≠ .own slot) → 0 < state.lent source := by
      intro source equal notOwned
      rw [← books.readers_eq _ notOwned, Int.natCast_pos, readers,
        List.countP_pos_iff]
      exact ⟨copy, member, by simpa using equal⟩
    have fits := books.fit copy member
    unfold LoadCopy.Fits at fits
    cases equal : copy.source with
    | own slot =>
        refine books.content_owned (List.mem_append_left _
          (List.mem_append_left _ (List.mem_append_right _ ?_)))
        refine List.mem_flatMap.mpr ⟨copy, member, ?_⟩
        simp [LoadCopy.slots, equal, Source.slotIndex]
    | shared slot =>
        simp only [equal] at fits
        rw [fits]
        exact books.content_shared (Or.inr (Or.inl (lent _ equal (by simp))))
    | cache slot =>
        simp only [equal] at fits
        have counted := lent _ equal (by simp)
        unfold State.lent at counted
        cases cached : state.stagingCache with
        | none =>
            simp only [cached] at counted
            cases counted
        | some cache =>
            simp only [cached] at counted
            rw [fits]
            exact books.content_cached cached
              (books.lent.pinned cache cached slot counted)
  · refine books.content_owned
      (List.mem_append_left _ (List.mem_append_right _ ?_))
    exact List.mem_map.mpr
      ⟨(hash, entry), QueueTable.mem_pairs_of_mem_queue queued, rfl⟩
  · rw [← (books.base.registered hash slot found).1]
    refine books.content_shared (Or.inl ?_)
    rw [(books.base.registered hash slot found).1]
    exact found

end SlotBooks

/-- Until the stop marker is taken in, every load copy delivers the block of
its file, and every table offers the block it names. -/
theorem blocksMatch (quiet : env.Quiet)
    (reached : Machine.Reachable env machine)
    (running : machine.phase.Running)
    (unstopped : machine.state.stop = false) : BlocksMatch machine.state := by
  obtain ⟨live, books⟩ := slotBooks quiet reached running unstopped
  exact books.eachMatches

section Examples

theorem copying_blocksMatch :
    copying.state.loadCopies ≠ [] ∧ BlocksMatch copying.state :=
  ⟨by decide +kernel, blocksMatch Env.smooth_quiet
    (Machine.reachable_play _ (by decide +kernel)) (by decide +kernel)
    (by decide +kernel)⟩

end Examples

end PyKvCache.Safety
