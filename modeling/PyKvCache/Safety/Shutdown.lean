import PyKvCache.Safety.Demands

/-!
# Copies under the stop marker

The stop marker gives back every slot of the preload cache, of the registered
shared slots and of the staging cache, whether a copy still reads it or not.
Where nothing is lent when it is taken in, every slot keeps its one owner
until the thread exits, and the copies that are left keep the slots they read.
-/

namespace PyKvCache.Safety

open PyKvCache.Library PyKvCache.Staging PyKvCache.Transfer
open PyKvCache.Reactor PyKvCache.Ledger PyKvCache.Library.Effect

variable {slotCount : Nat} {env : Env slotCount} {state : State slotCount}
  {machine : Machine slotCount}

/-! ## What a copy reads stays its own -/

/-- A slot that a queued or running load copy reads is not free, and no read
and no store works on it; and no slot is free twice. -/
structure ReadersKeepSlots (state : State slotCount) : Prop where
  unfreed : ∀ copy ∈ state.loadCopies, copy.source.slotIndex ∉ state.free
  unread : ∀ copy ∈ state.loadCopies, ∀ op ∈ state.inflight.values,
    copy.source.slotIndex ∉ op.slots.map Prod.fst
  unstored : ∀ copy ∈ state.loadCopies, ∀ other ∈ state.pendingCopies,
    copy.source.slotIndex ∉ other.slots.map Prod.fst
  releasedOnce : state.free.Nodup

/-- The free slots and those of reads and stores. -/
def workedPlaces (state : State slotCount) : List (Fin slotCount) :=
  state.free ++ (state.inflight.values.flatMap RingOp.slots).map Prod.fst ++
    (state.pendingCopies.flatMap CopyOp.slots).map Prod.fst

/-- The slots of load copies, of the caches and of shared slots. -/
def keptPlaces (state : State slotCount) : List (Fin slotCount) :=
  (state.loadCopies.flatMap LoadCopy.slots).map Prod.fst ++
    state.preloadSlots.pairs.map (fun entry => entry.2.1) ++
    state.cacheSlots.map CacheSlot.slotIndex ++
    (sharedSlots state).map SharedSlot.slotIndex

theorem slotPlaces_eq :
    slotPlaces state = workedPlaces state ++ keptPlaces state := by
  simp [slotPlaces, State.owned, workedPlaces, keptPlaces, Function.comp_def]

namespace SlotsOwned

theorem apart (owned : SlotsOwned state) :
    (workedPlaces state ++ keptPlaces state).Nodup := by
  rw [← slotPlaces_eq, List.nodup_iff_count_le_one]
  exact fun slot => (owned.once slot).le

/-- What a copy reads is kept: by the copy itself, by a shared slot or by the
staging cache. -/
theorem read_mem_keptPlaces (owned : SlotsOwned state)
    {copy : LoadCopy slotCount} (member : copy ∈ state.loadCopies) :
    copy.source.slotIndex ∈ keptPlaces state := by
  unfold keptPlaces
  cases read : copy.source with
  | own slot =>
      have inCopies : slot ∈
          (state.loadCopies.flatMap LoadCopy.slots).map Prod.fst := by
        refine List.mem_map.mpr ⟨(slot, some copy.file.hash), ?_, rfl⟩
        refine List.mem_flatMap.mpr ⟨copy, member, ?_⟩
        simp [LoadCopy.slots, read]
      simp only [Source.slotIndex, List.mem_append, inCopies, true_or]
  | shared slot =>
      have inShared : slot ∈ sharedSlots state := by
        rw [sharedSlots, List.mem_dedup, List.mem_append]
        refine Or.inr (List.mem_flatMap.mpr ⟨copy, member, ?_⟩)
        simp [readShared, read]
      exact List.mem_append_right _ (List.mem_map_of_mem inShared)
  | cache slot =>
      have inCache := owned.cacheKept copy member slot read
      refine List.mem_append_left _ (List.mem_append_right _ ?_)
      exact List.mem_map_of_mem inCache

theorem read_notMem_workedPlaces (owned : SlotsOwned state)
    {copy : LoadCopy slotCount} (member : copy ∈ state.loadCopies) :
    copy.source.slotIndex ∉ workedPlaces state := by
  have apart := (List.nodup_append.mp owned.apart).2.2
  exact fun worked => apart _ worked _ (owned.read_mem_keptPlaces member) rfl

theorem readersKeepSlots (owned : SlotsOwned state) :
    ReadersKeepSlots state where
  unfreed := by
    intro copy member free
    refine owned.read_notMem_workedPlaces member ?_
    exact List.mem_append_left _ (List.mem_append_left _ free)
  unread := by
    intro copy member op running worked
    refine owned.read_notMem_workedPlaces member (List.mem_append_left _
      (List.mem_append_right _ ?_))
    rw [List.map_flatMap]
    exact List.mem_flatMap.mpr ⟨op, running, worked⟩
  unstored := by
    intro copy member other pending worked
    refine owned.read_notMem_workedPlaces member (List.mem_append_right _ ?_)
    rw [List.map_flatMap]
    exact List.mem_flatMap.mpr ⟨other, pending, worked⟩
  releasedOnce := by
    have worked := (List.nodup_append.mp owned.apart).1
    exact (List.nodup_append.mp (List.nodup_append.mp worked).1).1

end SlotsOwned

/-! ## Runs -/

/-- The slips of a run whose stop marker pulls no slot. -/
def pullsNothing : Slack := { Slack.any with pulls := false }

theorem permits_pullsNothing (calm : StopsCalm machine) :
    Permits env pullsNothing machine where
  serves := Or.inl rfl
  schedules := Or.inl rfl
  rounds := fun _ _ _ => ⟨Or.inl rfl, Or.inl rfl, Or.inl rfl⟩
  returns := Or.inl rfl
  remembers := Or.inl rfl
  admits := Or.inl rfl
  calm := Or.inr calm
  registers := fun _ _ _ _ _ _ _ => rfl

/-- If nothing is lent when the stop marker is taken in, every slot has one
owner through the whole run, and a copy keeps the slot it reads. -/
theorem slotsKept (quiet : env.Quiet)
    (reached : Machine.ReachableUnder env StopsCalm machine)
    (running : machine.phase.Running) :
    SlotsOwned machine.state ∧ ReadersKeepSlots machine.state := by
  have rules : Rules env pullsNothing (OwnerInv env pullsNothing) :=
    ⟨quiet, ownerInv_closed⟩
  have held := reachableUnder_held rules rfl StopsCalm
    (fun _ calm => permits_pullsNothing calm) ownerInv_init reached
  obtain ⟨live, books⟩ := slotBooks_of_heldAt held running (Or.inr rfl)
  exact ⟨books.eachOwned, books.eachOwned.readersKeepSlots⟩

/-! ## Exactly then -/

section StopMarker

variable {fail : Exc → State slotCount → Prop}

theorem wp_releaseAll {item : Type} (slotOf : item → Fin slotCount)
    (items : List item) {post : PUnit → State slotCount → Prop} :
    wp (items.forM fun item => release (slotOf item)) post fail state ↔
      post ⟨⟩ { state with
        free := (items.map slotOf).reverse ++ state.free } := by
  induction items generalizing state with
  | nil => exact Iff.rfl
  | cons head tail inductionHypothesis =>
      refine (wp_bind _ _).trans (inductionHypothesis.trans ?_)
      rw [List.map_cons, List.reverse_cons, List.append_assoc,
        List.singleton_append]

theorem releasePreloadSlots_frees :
    wp releasePreloadSlots
      (fun _ next => next.loadCopies = state.loadCopies ∧
        next.stagingCache = state.stagingCache ∧
        ∀ slot ∈ state.sharedCached.values, slot.slotIndex ∈ next.free)
      fail state := by
  unfold releasePreloadSlots
  rw [wp_bind, wp_get, wp_bind, wp_releaseAll, wp_bind, wp_modify, wp_bind,
    wp_releaseAll, wp_modify]
  refine ⟨rfl, rfl, fun slot member => ?_⟩
  refine List.mem_append_left _ (List.mem_reverse.mpr ?_)
  exact List.mem_map_of_mem member

theorem drainStagingCache_frees (quiet : env.Quiet) :
    wp (drainStagingCache env)
      (fun _ next => next.loadCopies = state.loadCopies ∧
        (∀ slot ∈ state.free, slot ∈ next.free) ∧
        ∀ cache, state.stagingCache = some cache →
          ∀ slot ∈ cache.slots.values, slot.slotIndex ∈ next.free)
      fail state := by
  simp only [drainStagingCache, wp_bind, wp_get]
  split
  next none =>
    refine ⟨rfl, fun _ free => free, fun cache cached => ?_⟩
    rw [none] at cached
    cases cached
  next cache cached =>
    have drained : ∀ slot, slot ∈ cache.drain.1 ∨ slot ∈ state.free →
        slot ∈ (cache.drain.1.map id).reverse ++ state.free := by
      intro slot
      rw [List.map_id, List.mem_append, List.mem_reverse]
      exact id
    have freed : ∀ other, state.stagingCache = some other →
        ∀ slot ∈ other.slots.values,
          slot.slotIndex ∈ (cache.drain.1.map id).reverse ++ state.free := by
      intro other same slot member
      rw [cached, Option.some.injEq] at same
      subst same
      exact drained _ (Or.inl (List.mem_map_of_mem member))
    have released :=
      @wp_releaseAll slotCount { state with stagingCache := some cache.drain.2 }
        fail _ id cache.drain.1
    simp only [wp_bind, wp_modify, wp_onlyIf, wp_addEvent quiet]
    refine released.mpr ⟨fun _ => ?_, fun _ => ?_⟩
    · exact ⟨rfl, fun slot free => drained slot (Or.inr free), freed⟩
    · exact ⟨rfl, fun slot free => drained slot (Or.inr free), freed⟩

/-- The slot of every registered shared slot and of every entry of the staging
cache has become free, and the copies are the same. -/
structure GaveBack (before after : State slotCount) : Prop where
  copies : after.loadCopies = before.loadCopies
  shared : ∀ slot ∈ before.sharedCached.values, slot.slotIndex ∈ after.free
  cache : ∀ cache, before.stagingCache = some cache →
    ∀ slot ∈ cache.slots.values, slot.slotIndex ∈ after.free

theorem intakeStop_frees (quiet : env.Quiet) :
    wp (intakeStop env) (fun _ next => GaveBack state next) fail state := by
  unfold intakeStop
  rw [wp_bind, wp_modify, wp_bind, wp_get]
  have counted (unclaimed : Prop) [Decidable unclaimed] :
      wp (onlyIf unclaimed (addEvent env .preloadUnclaimedAtShutdown))
        (fun _ next => next.loadCopies = state.loadCopies ∧
          next.sharedCached = state.sharedCached ∧
          next.stagingCache = state.stagingCache)
        fail { state with stop := true } := by
    rw [wp_onlyIf, wp_addEvent quiet]
    exact ⟨fun _ => ⟨rfl, rfl, rfl⟩, fun _ => ⟨rfl, rfl, rfl⟩⟩
  refine wp_seq (counted _) ?_
  rintro _ first ⟨copies, shared, cache⟩
  refine wp_seq releasePreloadSlots_frees ?_
  rintro _ second ⟨sameCopies, sameCache, released⟩
  refine wp_seq (drainStagingCache_frees quiet) ?_
  rintro _ third ⟨leftCopies, stillFree, drained⟩
  rw [wp_bind, wp_modify, wp_bind, wp_get]
  refine wp_seq (wp_forM (fun _ next =>
    next.loadCopies = third.loadCopies ∧ next.free = third.free)
    ?_ _ ⟨rfl, rfl⟩) ?_
  · intro entry entries current same
    exact wp_fileTerminal quiet.emits same same
  rintro _ last ⟨lastCopies, lastFree⟩
  rw [wp_modify]
  refine ⟨?_, fun slot member => ?_, fun other cached slot member => ?_⟩
  · exact lastCopies.trans (leftCopies.trans (sameCopies.trans copies))
  · rw [shared] at released
    rw [lastFree]
    exact stillFree _ (released slot member)
  · rw [sameCache, cache] at drained
    rw [lastFree]
    exact drained other cached slot member

end StopMarker

/-- A lent slot is read by a copy. -/
theorem SlotBooks.exists_reader {live : List (SharedSlot slotCount)}
    (books : SlotBooks state live) {source : Source slotCount}
    (notOwned : ∀ slot, source ≠ .own slot) (lent : 0 < state.lent source) :
    ∃ copy ∈ state.loadCopies, copy.source = source := by
  have counted := books.readers_eq source notOwned
  rw [← counted, Int.natCast_pos, readers, List.countP_pos_iff] at lent
  obtain ⟨copy, member, read⟩ := lent
  exact ⟨copy, member, by simpa using read⟩

theorem GaveBack.unlent {after : State slotCount}
    (gave : GaveBack state after) (keeps : ReadersKeepSlots after)
    {live : List (SharedSlot slotCount)} (books : SlotBooks state live)
    (source : Source slotCount) (notOwned : ∀ slot, source ≠ .own slot)
    (freed : source.slotIndex ∈ after.free) : state.lent source ≤ 0 := by
  by_contra lent
  obtain ⟨copy, member, read⟩ :=
    books.exists_reader notOwned (not_le.mp lent)
  rw [← gave.copies] at member
  rw [← read] at freed
  exact keeps.unfreed copy member freed

/-- The step that takes the stop marker in. -/
theorem gaveBack_advance (quiet : env.Quiet) {later : List Item}
    (next : state.incoming = .stop :: later)
    (running : (Machine.advance env ⟨.incoming, state⟩).phase.Running) :
    GaveBack state (Machine.advance env ⟨.incoming, state⟩).state := by
  have frees : wp (intakeStop env) (fun _ final => GaveBack state final)
      Crash { state with incoming := later } :=
    wp_post (intakeStop_frees quiet)
      fun _ _ gave => ⟨gave.copies, gave.shared, gave.cache⟩
  simp only [Machine.advance, next, intake] at running ⊢
  exact @perform_post _ _ _ _ (fun _ final => GaveBack state final) frees
    running

/-- When the stop marker is taken in for the first time, the copies keep their
slots if and only if nothing is lent. -/
theorem readersKeepSlots_iff_lendsNothing (quiet : env.Quiet)
    {later : List Item} (reached : Machine.Reachable env ⟨.incoming, state⟩)
    (unstopped : state.stop = false) (next : state.incoming = .stop :: later)
    (running : (Machine.advance env ⟨.incoming, state⟩).phase.Running) :
    ReadersKeepSlots (Machine.advance env ⟨.incoming, state⟩).state ↔
      LendsNothing state := by
  have rules : Rules env .any (OwnerInv env .any) := ⟨quiet, ownerInv_closed⟩
  have held := reachable_held rules ownerInv_init reached
  constructor
  · intro keeps
    obtain ⟨live, books⟩ :=
      slotBooks_of_heldAt held trivial (Or.inl unstopped)
    have gave := gaveBack_advance quiet next running
    refine ⟨fun slot member => ?_, fun cache cached slot member => ?_⟩
    · exact gave.unlent keeps books (.shared slot) nofun
        (gave.shared slot member)
    · have unlent := gave.unlent keeps books (.cache slot) nofun
        (gave.cache cache cached slot member)
      simpa only [State.lent, cached] using unlent
  · intro nothing
    have calm : StopsCalm ⟨.incoming, state⟩ := fun _ _ _ => nothing
    have rules : Rules env pullsNothing (OwnerInv env pullsNothing) :=
      ⟨quiet, ownerInv_closed⟩
    have before : HeldAt (OwnerInv env pullsNothing) ⟨.incoming, state⟩ := by
      intro trivially
      obtain ⟨base, inv⟩ := held trivially
      exact ⟨base, inv.counts, inv.demand,
        fun _ => inv.owners (Or.inl unstopped)⟩
    have after := advance_held rules rfl (permits_pullsNothing calm) before
    obtain ⟨live, books⟩ := slotBooks_of_heldAt after running (Or.inr rfl)
    exact books.eachOwned.readersKeepSlots

section Examples

instance : Decidable (LendsNothing state) :=
  decidable_of_iff
    ((∀ slot ∈ state.sharedCached.values,
        (state.shared slot).copiesInflight ≤ 0) ∧
      ∀ cache ∈ state.stagingCache.toList, ∀ slot ∈ cache.slots.values,
        cache.copiesInflight slot ≤ 0)
    ⟨fun lent => ⟨lent.1, fun cache cached =>
        lent.2 cache (Option.mem_toList.mpr cached)⟩,
      fun lent => ⟨lent.shared, fun cache member =>
        lent.cache cache (Option.mem_toList.mp member)⟩⟩

instance : DecidablePred (@StopsCalm slotCount) := fun machine =>
  match first : machine.state.incoming with
  | .stop :: later =>
      decidable_of_iff
        (machine.phase = .incoming → LendsNothing machine.state)
        ⟨fun calm taking _ _ => calm taking,
          fun calm taking => calm taking later first⟩
  | [] => isTrue fun _ later same => by
      rw [first] at same
      cases same
  | .job _ :: _ => isTrue fun _ later same => by
      rw [first] at same
      cases same
  | .preload _ :: _ => isTrue fun _ later same => by
      rw [first] at same
      cases same

/-- No copy has finished when it is asked for. -/
def slowCopies : Env 5 :=
  { readWorld true 6 9 with finished := fun _ => false }

theorem slowCopies_quiet : slowCopies.Quiet :=
  fun _ _ _ => rfl

/-- The copy of a load is running when the stop marker is taken in. -/
def shuttingDown (preloads : List Event) : List Event :=
  preloads ++ List.replicate 10 .advance ++
    .submit oneFileLoad :: List.replicate 31 .advance ++
    .shutdown :: List.replicate 2 .advance

/-- The copy reads a shared slot nobody else demands, so it is not
registered. -/
def undemanded : Machine 5 :=
  (Machine.init slowCopies).play slowCopies
    (shuttingDown [.preload ⟨[[1]], "", ""⟩])

theorem undemanded_slotsKept :
    undemanded.state.stop = true ∧ undemanded.state.loadCopies ≠ [] ∧
      SlotsOwned undemanded.state ∧ ReadersKeepSlots undemanded.state :=
  ⟨by decide +kernel, by decide +kernel, slotsKept slowCopies_quiet
    (Machine.reachableUnder_play _ Relation.ReflTransGen.refl
      (by decide +kernel))
    (by decide +kernel)⟩

/-- Another request still demands the block, so its slot is registered. -/
def demanded : Machine 5 :=
  (Machine.init slowCopies).play slowCopies
    (shuttingDown [.preload ⟨[[1]], "", ""⟩, .preload ⟨[[1]], "", "b"⟩])

/-- The stop marker gives a registered slot back while a copy reads it. -/
theorem demanded_slotPulled :
    Machine.Reachable slowCopies demanded ∧ demanded.phase.Running ∧
      demanded.state.stop = true ∧ ¬ ReadersKeepSlots demanded.state := by
  refine ⟨Machine.reachable_play _ (by decide +kernel), by decide +kernel,
    by decide +kernel, fun keeps => ?_⟩
  obtain ⟨copy, member, free⟩ : ∃ copy ∈ demanded.state.loadCopies,
      copy.source.slotIndex ∈ demanded.state.free := by
    decide +kernel
  exact keeps.unfreed copy member free

end Examples

end PyKvCache.Safety
