import PyKvCache.Ledger.Demand

/-!
# Lent slots

Load copies out of a shared preload slot or a staging-cache entry do not own
the slot they read; they are counted by its `copies_inflight`.  The counts are
exact, an entry that is counted stays in the cache, and only the shared slots
of the table are marked as cached.
-/

namespace PyKvCache.Reactor

open PyKvCache.Library PyKvCache.Staging PyKvCache.Transfer

variable {slotCount : Nat}

/-- The members of a fused copy. -/
def CopyOp.members : CopyOp slotCount → List (LoadCopy slotCount)
  | .store _ _ => []
  | .load members => members

/-- The load copies that are queued, launched or running. -/
def State.loadCopies (state : State slotCount) :
    List (LoadCopy slotCount) :=
  state.copyReady.map ReadyCopy.copy ++
    state.pendingCopies.flatMap CopyOp.members

/-- What a load copy reads from without owning it. -/
def LoadCopy.borrowed (copy : LoadCopy slotCount) :
    List (Source slotCount) :=
  match copy.source with
  | .own _ => []
  | .shared slot => [.shared slot]
  | .cache slot => [.cache slot]

/-- `copies_inflight` of a shared slot or a cache entry. -/
def State.lent (state : State slotCount) : Source slotCount → Int
  | .own _ => 0
  | .shared slot => (state.shared slot).copiesInflight
  | .cache slot =>
      match state.stagingCache with
      | none => 0
      | some cache => cache.copiesInflight slot

end PyKvCache.Reactor

namespace PyKvCache.Ledger

open PyKvCache.Library PyKvCache.Staging PyKvCache.Transfer
open PyKvCache.Reactor

variable {slotCount : Nat} {env : Env slotCount} {slack : Slack}
  {hand hand' : Hand slotCount} {state state' : State slotCount}

/-- The load copies in hand and in the tables. -/
def copies (hand : Hand slotCount) (state : State slotCount) :
    List (LoadCopy slotCount) :=
  hand.copies ++ state.loadCopies

/-- Every counted use of a shared slot or a cache entry. -/
def borrowed (hand : Hand slotCount) (state : State slotCount) :
    List (Source slotCount) :=
  hand.claims.map Source.shared ++ hand.pins.map Source.cache ++
    (copies hand state).flatMap LoadCopy.borrowed

theorem weigh_copies {weight : LoadCopy slotCount → Nat} :
    weigh weight (copies hand state) =
      weigh weight hand.copies +
        (weigh (fun ready => weight ready.copy) state.copyReady +
          weigh (fun copy => weigh weight (CopyOp.members copy))
            state.pendingCopies) := by
  simp only [copies, State.loadCopies, weigh_append, weigh_map,
    weigh_flatMap]

theorem weigh_borrowed {weight : Source slotCount → Nat} :
    weigh weight (borrowed hand state) =
      weigh (fun slot => weight (.shared slot)) hand.claims +
        weigh (fun slot => weight (.cache slot)) hand.pins +
        (weigh (fun copy => weigh weight (LoadCopy.borrowed copy))
            hand.copies +
          (weigh (fun ready => weigh weight ready.copy.borrowed)
              state.copyReady +
            weigh (fun copy =>
              weigh (fun member => weigh weight (LoadCopy.borrowed member))
                (CopyOp.members copy)) state.pendingCopies)) := by
  simp only [borrowed, weigh_append, weigh_map, weigh_flatMap, weigh_copies]

/-- A move that touches no copy. -/
theorem borrowed_eq (claims : hand'.claims = hand.claims)
    (pins : hand'.pins = hand.pins)
    (inHand : hand'.copies = hand.copies)
    (ready : state'.copyReady = state.copyReady)
    (pending : state'.pendingCopies = state.pendingCopies) :
    borrowed hand' state' = borrowed hand state := by
  unfold borrowed copies State.loadCopies
  rw [claims, pins, inHand, ready, pending]

/-- The fields of all shared slots after those of one were assigned. -/
theorem updateShared_shared {slot other : SharedSlot slotCount}
    {change : SharedState → SharedState} :
    (state.updateShared slot change).shared other =
      if other = slot then change (state.shared slot)
      else state.shared other := by
  unfold State.updateShared
  exact Function.update_apply _ _ _ _

theorem copiesInflight_flagged {slot other : SharedSlot slotCount}
    {flag : Bool} :
    ((state.updateShared slot fun fields =>
      { fields with cached := flag }).shared other).copiesInflight =
      (state.shared other).copiesInflight := by
  rw [updateShared_shared]
  split
  next same => rw [same]
  next => rfl

/-! ## Slots that are alive -/

/-- A shared slot that still has its slot: it is registered, lent out, or
looked after by the handler. -/
def Alive (hand : Hand slotCount) (state : State slotCount)
    (slot : SharedSlot slotCount) : Prop :=
  state.sharedCached.find? slot.blockHash = some slot ∨
    0 < (state.shared slot).copiesInflight ∨
    slot ∈ hand.loose ∨ hand.fresh = some slot

section Alive

variable {slot : SharedSlot slotCount} {loose : List (SharedSlot slotCount)}

theorem alive_sharedCache
    {tokens : List (BlockHash × Bool)} {rooms : Nat} {total : Int}
    (held : hand.fresh = some slot)
    (unregistered : state.sharedCached.find? slot.blockHash = none)
    (other : SharedSlot slotCount) :
    Alive { hand with fresh := none, tokens := tokens, rooms := rooms }
        { state.updateShared slot fun fields =>
            { fields with cached := true } with
          sharedCached := state.sharedCached.set slot.blockHash slot
          preloadCachedTotal := total } other ↔
      Alive hand state other := by
  unfold Alive
  simp only [copiesInflight_flagged, OrderedDict.find?_set, held,
    Option.some.injEq, reduceCtorEq, or_false, eq_comm (a := slot)]
  by_cases same : other = slot
  · subst same
    simp
  by_cases key : other.blockHash = slot.blockHash
  · simp [key, unregistered, same, eq_comm (a := slot)]
  · simp [key, same]

theorem alive_sharedUncache {total : Int}
    (cached : state.sharedCached.find? slot.blockHash = some slot)
    (other : SharedSlot slotCount) :
    Alive { hand with loose := slot :: hand.loose }
        ({ state with
          sharedCached := state.sharedCached.erase slot.blockHash
          preloadCachedTotal := total : State slotCount }.updateShared slot
            fun fields => { fields with cached := false }) other ↔
      Alive hand state other := by
  unfold Alive
  rw [copiesInflight_flagged]
  show (state.sharedCached.erase slot.blockHash).find? other.blockHash =
    some other ∨ _ ↔ _
  rw [OrderedDict.find?_erase]
  by_cases same : other = slot
  · subst same
    simp [cached]
  by_cases key : other.blockHash = slot.blockHash
  · simp [key, cached, same, eq_comm (a := slot)]
  · simp [key, same]

theorem alive_claim
    (alive : hand.fresh = some slot ∨
      state.sharedCached.find? slot.blockHash = some slot)
    (other : SharedSlot slotCount) :
    Alive { hand with claims := slot :: hand.claims }
        (state.updateShared slot fun fields =>
          { fields with copiesInflight := fields.copiesInflight + 1 })
        other ↔
      Alive hand state other := by
  unfold Alive
  rw [updateShared_shared]
  by_cases same : other = slot
  · subst same
    refine iff_of_true ?_ ?_
    · exact alive.elim (fun fresh => Or.inr (Or.inr (Or.inr fresh))) Or.inl
    · exact alive.elim (fun fresh => Or.inr (Or.inr (Or.inr fresh))) Or.inl
  · rw [if_neg same]
    rfl

theorem alive_unclaim {claims : List (SharedSlot slotCount)}
    (counted : 0 < (state.shared slot).copiesInflight)
    (other : SharedSlot slotCount) :
    Alive { hand with claims := claims, loose := slot :: hand.loose }
        (state.updateShared slot fun fields =>
          { fields with copiesInflight := fields.copiesInflight - 1 })
        other ↔
      Alive hand state other := by
  unfold Alive
  rw [updateShared_shared]
  by_cases same : other = slot
  · subst same
    refine iff_of_true ?_ (Or.inr (Or.inl counted))
    exact Or.inr (Or.inr (Or.inl List.mem_cons_self))
  · rw [if_neg same]
    simp [State.updateShared, same]

theorem alive_looseDrop (held : hand.loose = slot :: loose)
    (kept : Alive { hand with loose := loose } state slot)
    (other : SharedSlot slotCount) :
    Alive { hand with loose := loose } state other ↔
      Alive hand state other := by
  by_cases same : other = slot
  · subst same
    refine iff_of_true kept (Or.inr (Or.inr (Or.inl ?_)))
    rw [held]
    exact List.mem_cons_self
  · simp [Alive, held, same]

theorem alive_loosen (held : hand.fresh = some slot)
    (other : SharedSlot slotCount) :
    Alive { hand with fresh := none, loose := slot :: hand.loose } state
        other ↔
      Alive hand state other := by
  unfold Alive
  simp only [held, Option.some.injEq, List.mem_cons, reduceCtorEq, or_false,
    eq_comm (a := other)]
  tauto

theorem alive_dropShared {slots : List (Fin slotCount × Option BlockHash)}
    (looked : hand.loose = []) (nothing : hand.fresh = none)
    (other : SharedSlot slotCount) :
    Alive { hand with slots := slots }
        { state with sharedCached := .empty } other ↔
      0 < (state.shared other).copiesInflight := by
  simp [Alive, looked, nothing]

end Alive

/-! ## The counts -/

/-- The counts of lent slots are exact. -/
structure LentBooks (hand : Hand slotCount) (state : State slotCount) :
    Prop where
  lent : ∀ source, state.lent source = (borrowed hand state).count source
  flagged : ∀ slot, (state.shared slot).cached = true →
    Alive hand state slot →
      state.sharedCached.find? slot.blockHash = some slot
  numbered : ∀ slot, 0 < (state.shared slot).copiesInflight →
    slot.oid < state.nextShared
  pinned : ∀ cache, state.stagingCache = some cache →
    ∀ slot, 0 < cache.copiesInflight slot →
      cache.slots.find? slot.blockHash = some slot

namespace LentBooks

private theorem kept (books : LentBooks hand state)
    (uses : (borrowed hand' state').Perm (borrowed hand state))
    (alive : ∀ slot, Alive hand' state' slot → Alive hand state slot)
    (registered : state'.sharedCached = state.sharedCached)
    (shared : state'.shared = state.shared)
    (numbered : state'.nextShared = state.nextShared)
    (cache : state'.stagingCache = state.stagingCache) :
    LentBooks hand' state' := by
  refine ⟨fun source => ?_, ?_, ?_, ?_⟩
  · rw [uses.count_eq, ← books.lent source]
    cases source with
    | own slot => rfl
    | shared slot => exact congrArg (·.copiesInflight) (congrFun shared slot)
    | cache slot =>
        unfold State.lent
        rw [cache]
  · rw [shared, registered]
    exact fun slot flag living => books.flagged slot flag (alive slot living)
  · rw [shared, numbered]
    exact books.numbered
  · rw [cache]
    exact books.pinned

private theorem untouched (books : LentBooks hand state)
    (claims : hand'.claims = hand.claims) (pins : hand'.pins = hand.pins)
    (inHand : hand'.copies = hand.copies)
    (ready : state'.copyReady = state.copyReady)
    (pending : state'.pendingCopies = state.pendingCopies)
    (loose : hand'.loose = hand.loose) (fresh : hand'.fresh = hand.fresh)
    (registered : state'.sharedCached = state.sharedCached)
    (shared : state'.shared = state.shared)
    (numbered : state'.nextShared = state.nextShared)
    (cache : state'.stagingCache = state.stagingCache) :
    LentBooks hand' state' := by
  refine books.kept (.of_eq ?_) (fun slot living => ?_) registered shared
    numbered cache
  · exact borrowed_eq claims pins inHand ready pending
  · unfold Alive at living
    rwa [loose, fresh, registered, shared] at living

/-- A copy that is in hand or queued is counted. -/
theorem lent_pos (books : LentBooks hand state) (source : Source slotCount)
    (member : source ∈ borrowed hand state) : 0 < state.lent source := by
  rw [books.lent]
  exact Int.natCast_pos.mpr (List.count_pos_iff.mpr member)

theorem lent_nonneg (books : LentBooks hand state)
    (source : Source slotCount) : 0 ≤ state.lent source := by
  rw [books.lent]
  exact Int.natCast_nonneg _

/-- One more use of a lent slot, or one less. -/
private theorem count_step {source : Source slotCount}
    (other : Source slotCount) {more fewer : List (Source slotCount)}
    (perm : more.Perm (source :: fewer)) :
    (more.count other : Int) =
      fewer.count other + if other = source then 1 else 0 := by
  rw [perm.count_eq, List.count_cons]
  by_cases same : other = source
  · subst same
    simp
  · have different : (source == other) = false := by
      simpa using fun equal => same equal.symm
    simp [different, same]

private theorem count_back {source : Source slotCount}
    (other : Source slotCount) {more fewer : List (Source slotCount)}
    (perm : more.Perm (source :: fewer)) :
    (fewer.count other : Int) =
      more.count other + if other = source then -1 else 0 := by
  rw [count_step other perm]
  split <;> omega

/-- Only the copy count of one shared slot changes. -/
private theorem recounted (books : LentBooks hand state)
    {slot : SharedSlot slotCount} (amount : Int)
    (uses : ∀ source, ((borrowed hand' (state.updateShared slot
        fun fields => { fields with
          copiesInflight := fields.copiesInflight + amount })).count source
            : Int) =
      (borrowed hand state).count source +
        if source = .shared slot then amount else 0)
    (alive : ∀ other, Alive hand' (state.updateShared slot
        fun fields => { fields with
          copiesInflight := fields.copiesInflight + amount }) other →
      Alive hand state other)
    (small : slot.oid < state.nextShared) :
    LentBooks hand' (state.updateShared slot fun fields =>
      { fields with
        copiesInflight := fields.copiesInflight + amount }) := by
  refine ⟨fun source => ?_, fun other flag living => ?_,
    fun other counted => ?_, books.pinned⟩
  · rw [uses, ← books.lent source]
    cases source with
    | own other => simp [State.lent]
    | shared other =>
        simp only [State.lent, updateShared_shared, Source.shared.injEq]
        split
        next same => rw [same]
        next => rw [Int.add_zero]
    | cache other => simp [State.lent, State.updateShared]
  · rw [updateShared_shared] at flag
    split at flag
    next same =>
      subst same
      exact books.flagged other flag (alive other living)
    next => exact books.flagged other flag (alive other living)
  · rw [updateShared_shared] at counted
    split at counted
    next same =>
      rw [same]
      exact small
    next => exact books.numbered other counted

/-- Only the `cached` flag of one shared slot changes. -/
private theorem lent_flag {slot : SharedSlot slotCount} {flag : Bool}
    {registered : OrderedDict BlockHash (SharedSlot slotCount)}
    {total : Int} (source : Source slotCount) :
    ({ state.updateShared slot fun fields =>
        { fields with cached := flag } with
      sharedCached := registered
      preloadCachedTotal := total } : State slotCount).lent source =
      state.lent source := by
  cases source with
  | own other => rfl
  | shared other => exact copiesInflight_flagged
  | cache other => rfl

/-- Another cache that counts the same copies. -/
private theorem lent_cache {cache after : StagingDataCache (Fin slotCount)}
    (cached : state.stagingCache = some cache)
    (same : ∀ slot, after.copiesInflight slot = cache.copiesInflight slot)
    (source : Source slotCount) :
    ({ state with stagingCache := some after } : State slotCount).lent
      source = state.lent source := by
  cases source with
  | own slot => rfl
  | shared slot => rfl
  | cache slot =>
      simp only [State.lent, cached]
      exact same slot

/-- Only the copy count of one cache entry changes. -/
private theorem repinned (books : LentBooks hand state)
    {cache : StagingDataCache (Fin slotCount)}
    {slot : CacheSlot (Fin slotCount)} (amount : Int)
    (cached : state.stagingCache = some cache)
    (uses : ∀ source, ((borrowed hand' { state with
        stagingCache := some { cache with
          copiesInflight := Function.update cache.copiesInflight slot
            (cache.copiesInflight slot + amount) } }).count source : Int) =
      (borrowed hand state).count source +
        if source = .cache slot then amount else 0)
    (alive : ∀ other, Alive hand' state other → Alive hand state other)
    (found : 0 < cache.copiesInflight slot + amount →
      cache.slots.find? slot.blockHash = some slot) :
    LentBooks hand' { state with
      stagingCache := some { cache with
        copiesInflight := Function.update cache.copiesInflight slot
          (cache.copiesInflight slot + amount) } } := by
  refine ⟨fun source => ?_,
    fun other flag living => books.flagged other flag (alive other living),
    books.numbered, ?_⟩
  · rw [uses, ← books.lent source]
    cases source with
    | own other => simp [State.lent]
    | shared other => simp [State.lent]
    | cache other =>
        simp only [State.lent, cached, Function.update_apply,
          Source.cache.injEq]
        split
        next same => rw [same]
        next => rw [Int.add_zero]
  · intro after is other pinned
    cases is
    simp only [Function.update_apply] at pinned
    split at pinned
    next same =>
      rw [same]
      exact found pinned
    next => exact books.pinned cache cached other pinned

/-- The cache is another one that counts the same copies and has kept the
entries they read. -/
private theorem recached (books : LentBooks hand state)
    {cache after : StagingDataCache (Fin slotCount)}
    {slots : List (Fin slotCount × Option BlockHash)}
    (cached : state.stagingCache = some cache)
    (counts : after.copiesInflight = cache.copiesInflight)
    (kept : ∀ slot, 0 < cache.copiesInflight slot →
      cache.slots.find? slot.blockHash = some slot →
        after.slots.find? slot.blockHash = some slot) :
    LentBooks { hand with slots := slots }
      { state with stagingCache := some after } := by
  refine ⟨fun source => ?_, books.flagged, books.numbered, ?_⟩
  · exact (lent_cache cached (fun other => congrFun counts other)
      source).trans (books.lent source)
  · intro other is slot pinned
    cases is
    rw [counts] at pinned
    exact kept slot pinned (books.pinned cache cached slot pinned)

/-- The count of a cache entry that is made starts at zero. -/
private theorem copiesInflight_insert (books : LentBooks hand state)
    {cache : StagingDataCache (Fin slotCount)} {hash : BlockHash}
    {slot : Fin slotCount} (cached : state.stagingCache = some cache)
    (absent : cache.slots.find? hash = none) :
    (cache.insert hash slot).copiesInflight = cache.copiesInflight := by
  have unlent : cache.copiesInflight ⟨cache.nextOid, hash, slot⟩ = 0 := by
    have counted := books.lent_nonneg (.cache ⟨cache.nextOid, hash, slot⟩)
    simp only [State.lent, cached] at counted
    by_contra pinned
    have found := books.pinned cache cached
      ⟨cache.nextOid, hash, slot⟩ (by omega)
    rw [absent] at found
    cases found
  unfold StagingDataCache.insert
  rw [← unlent, Function.update_eq_self]

/-- A shared slot is made; nothing is lent out of it. -/
private theorem make (books : LentBooks hand state) {slot : Fin slotCount}
    {hash : BlockHash} {slots : List (Fin slotCount × Option BlockHash)}
    (nothing : hand.fresh = none) :
    LentBooks
      { hand with
        slots := slots
        fresh := some ⟨state.nextShared, hash, slot⟩ }
      { state with
        nextShared := state.nextShared + 1
        shared := Function.update state.shared
          ⟨state.nextShared, hash, slot⟩ ⟨0, false⟩ } := by
  let made : SharedSlot slotCount := ⟨state.nextShared, hash, slot⟩
  have unused : (state.shared made).copiesInflight = 0 := by
    have counted := books.lent_nonneg (.shared made)
    simp only [State.lent] at counted
    by_contra claimed
    exact Nat.lt_irrefl _ (books.numbered made (by omega))
  refine ⟨fun source => ?_, fun other flag living => ?_,
    fun other counted => ?_, books.pinned⟩
  · refine Eq.trans ?_ (books.lent source)
    cases source with
    | own other => rfl
    | shared other =>
        simp only [State.lent, Function.update_apply]
        split
        next same =>
          rw [same]
          exact unused.symm
        next => rfl
    | cache other => rfl
  · simp only [Function.update_apply] at flag
    split at flag
    · cases flag
    next different =>
      have before : Alive hand state other := by
        have fresh : (some made = some other) = False :=
          eq_false fun same => different (Option.some.inj same).symm
        simpa only [Alive, Function.update_apply, if_neg different,
          made, fresh, nothing, reduceCtorEq] using living
      exact books.flagged other flag before
  · simp only [Function.update_apply] at counted
    split at counted
    · exact absurd counted (Int.lt_irrefl 0)
    · exact Nat.lt_succ_of_lt (books.numbered other counted)

/-- A shared slot is registered, or no longer registered. -/
private theorem reflagged (books : LentBooks hand state)
    {slot : SharedSlot slotCount} {flag : Bool}
    {registered : OrderedDict BlockHash (SharedSlot slotCount)}
    {total : Int} (uses : borrowed hand' state = borrowed hand state)
    (own : flag = true → registered.find? slot.blockHash = some slot)
    (others : ∀ other, other ≠ slot → (state.shared other).cached = true →
      Alive hand'
        { state.updateShared slot fun fields =>
            { fields with cached := flag } with
          sharedCached := registered
          preloadCachedTotal := total } other →
        registered.find? other.blockHash = some other) :
    LentBooks hand'
      { state.updateShared slot fun fields =>
          { fields with cached := flag } with
        sharedCached := registered
        preloadCachedTotal := total } := by
  refine ⟨fun source => ?_, fun other set living => ?_,
    fun other counted => ?_, books.pinned⟩
  · refine (lent_flag source).trans ((books.lent source).trans ?_)
    rw [← uses]
    rfl
  · rw [updateShared_shared] at set
    split at set
    next same =>
      rw [same]
      exact own set
    next different => exact others other different set living
  · exact books.numbered other (counted.trans_eq copiesInflight_flagged)

/-- A handler has looked after a shared slot. -/
private theorem looked (books : LentBooks hand state)
    {slot : SharedSlot slotCount} {loose : List (SharedSlot slotCount)}
    {slots : List (Fin slotCount × Option BlockHash)}
    (held : hand.loose = slot :: loose) :
    LentBooks { hand with loose := loose, slots := slots } state := by
  refine books.kept (.of_eq rfl) (fun other living => ?_) rfl rfl rfl rfl
  refine living.imp_right (Or.imp_right (Or.imp_left fun member => ?_))
  rw [held]
  exact List.mem_cons_of_mem _ member

/-- Every move keeps the counts exact, if the stop marker takes no slot from
under a copy. -/
theorem move (books : LentBooks hand state) (base : Base hand state)
    (demand : DemandBooks env hand state)
    (calm : state.stop = false ∨ slack.pulls = false)
    (moved : Move env slack hand state hand' state') :
    LentBooks hand' state' := by
  cases moved with
  | cacheTouch hash cached =>
      exact books.recached cached rfl fun _ _ found => found
  | @cacheInsert cache slot hash slots cached absent held =>
      refine books.recached cached
        (books.copiesInflight_insert cached absent) fun other _ found => ?_
      have different : other.blockHash ≠ hash := by
        rintro rfl
        rw [absent] at found
        cases found
      unfold StagingDataCache.insert
      rw [OrderedDict.find?_set, if_neg different]
      exact found
  | cacheEvict cached evicted =>
      obtain ⟨victim, inCache, unpinned, rfl, rfl⟩ :=
        StagingDataCache.evictOne_eq_some evicted
      refine books.recached cached rfl fun other counted found => ?_
      have different : other.blockHash ≠ victim.blockHash := by
        intro same
        rw [same, inCache] at found
        cases found
        omega
      unfold StagingDataCache.evict
      rw [OrderedDict.find?_erase, if_neg different]
      exact found
  | @cachePin cache slot cached found =>
      refine books.repinned 1 cached
        (fun source => count_step source (perm_of_weigh fun weight => ?_))
        (fun _ living => living) fun _ => found
      simp only [weigh_borrowed, weigh_cons]
      omega
  | @cacheUnpin cache slot pins cached held =>
      have perm : (borrowed hand state).Perm
          (.cache slot :: borrowed { hand with pins := pins } { state with
            stagingCache := some (cache.unpin slot) }) := by
        refine perm_of_weigh fun weight => ?_
        simp only [weigh_borrowed, held, weigh_cons]
        omega
      refine books.repinned (-1) cached (fun source => count_back source perm)
        (fun _ living => living) fun pinned => ?_
      exact books.pinned cache cached slot (by omega)
  | @cacheUnpinNone slot pins uncached held =>
      have counted : 0 < state.lent (.cache slot) :=
        books.lent_pos _ (by simp [borrowed, held])
      simp only [State.lent, uncached] at counted
      cases counted
  | sharedNew held nothing => exact books.make nothing
  | @sharedCache slot clean tokens rooms sharing held allowed demanded room
      registers running =>
      have unregistered :=
        demand.uncached_of_token sharing running allowed
      refine books.reflagged rfl (fun _ => ?_)
        fun other different flag living => ?_
      · rw [OrderedDict.find?_set, if_pos rfl]
      · have before := books.flagged other flag
          ((alive_sharedCache held unregistered other).mp living)
        have otherHash : other.blockHash ≠ slot.blockHash := by
          intro same
          rw [same, unregistered] at before
          cases before
        rw [OrderedDict.find?_set, if_neg otherHash]
        exact before
  | @sharedUncache slot cached =>
      refine books.reflagged rfl (fun set => ?_)
        fun other different flag living => ?_
      · cases set
      · have before := books.flagged other flag
          ((alive_sharedUncache cached other).mp living)
        have otherHash : other.blockHash ≠ slot.blockHash := by
          intro same
          rw [same, cached] at before
          exact different (Option.some.inj before).symm
        rw [OrderedDict.find?_erase, if_neg otherHash]
        exact before
  | @claim slot alive =>
      refine books.recounted 1 (fun source => count_step source ?_)
        (fun other => (alive_claim alive other).mp) ?_
      · refine perm_of_weigh fun weight => ?_
        simp only [weigh_borrowed, State.updateShared, weigh_cons]
        omega
      · rcases alive with fresh | found
        · exact (base.fresh slot fresh).2
        · exact (base.registered _ slot found).2.2
  | @unclaim slot claims held =>
      have perm : (borrowed hand state).Perm
          (.shared slot :: borrowed
            { hand with claims := claims, loose := slot :: hand.loose }
            (state.updateShared slot fun fields =>
              { fields with
                copiesInflight := fields.copiesInflight - 1 })) := by
        refine perm_of_weigh fun weight => ?_
        simp only [weigh_borrowed, State.updateShared, held, weigh_cons]
        omega
      have counted : 0 < state.lent (.shared slot) :=
        books.lent_pos _ (perm.mem_iff.mpr List.mem_cons_self)
      exact books.recounted (-1) (fun source => count_back source perm)
        (fun other => (alive_unclaim counted other).mp)
        (books.numbered slot counted)
  | queueOwn mapping heldFile heldSlot =>
      refine books.kept (perm_of_weigh fun weight => ?_)
        (fun _ living => living) rfl rfl rfl rfl
      simp only [weigh_borrowed, LoadCopy.borrowed, weigh_append, weigh_cons,
        weigh_nil]
      omega
  | queueShared mapping heldFile heldClaim same =>
      refine books.kept (perm_of_weigh fun weight => ?_)
        (fun _ living => living) rfl rfl rfl rfl
      simp only [weigh_borrowed, LoadCopy.borrowed, heldClaim, weigh_append,
        weigh_cons, weigh_nil]
      omega
  | queueCache mapping heldFile heldPin same =>
      refine books.kept (perm_of_weigh fun weight => ?_)
        (fun _ living => living) rfl rfl rfl rfl
      simp only [weigh_borrowed, LoadCopy.borrowed, heldPin, weigh_append,
        weigh_cons, weigh_nil]
      omega
  | takeReady reaps empty =>
      refine books.kept (perm_of_weigh fun weight => ?_)
        (fun _ living => living) rfl rfl rfl rfl
      simp only [weigh_borrowed, empty, weigh_map, weigh_nil]
      omega
  | launchLoads held =>
      refine books.kept (perm_of_weigh fun weight => ?_)
        (fun _ living => living) rfl rfl rfl rfl
      simp only [weigh_borrowed, held, CopyOp.members, weigh_append,
        weigh_cons, weigh_nil]
      omega
  | takeLoads reaps empty first =>
      refine books.kept (perm_of_weigh fun weight => ?_)
        (fun _ living => living) rfl rfl rfl rfl
      simp only [weigh_borrowed, empty, CopyOp.members,
        weigh_erase (base.mem_pendingCopies first), weigh_nil]
      omega
  | openOwn held =>
      refine books.kept (perm_of_weigh fun weight => ?_)
        (fun _ living => living) rfl rfl rfl rfl
      simp only [weigh_borrowed, LoadCopy.borrowed, held, weigh_cons,
        weigh_nil]
      omega
  | openShared held =>
      refine books.kept (perm_of_weigh fun weight => ?_)
        (fun _ living => living) rfl rfl rfl rfl
      simp only [weigh_borrowed, LoadCopy.borrowed, held, weigh_cons,
        weigh_nil]
      omega
  | openCache held =>
      refine books.kept (perm_of_weigh fun weight => ?_)
        (fun _ living => living) rfl rfl rfl rfl
      simp only [weigh_borrowed, LoadCopy.borrowed, held, weigh_cons,
        weigh_nil]
      omega
  | launchStore heldFile heldSlot =>
      refine books.kept (perm_of_weigh fun weight => ?_)
        (fun _ living => living) rfl rfl rfl rfl
      simp only [weigh_borrowed, State.fill, CopyOp.members, weigh_append,
        weigh_cons, weigh_nil]
      omega
  | takeStore reaps first =>
      refine books.kept (perm_of_weigh fun weight => ?_)
        (fun _ living => living) rfl rfl rfl rfl
      simp only [weigh_borrowed, CopyOp.members,
        weigh_erase (base.mem_pendingCopies first), weigh_nil]
      omega
  | looseDrop held alive => exact books.looked held
  | looseTake held uncached unused last made => exact books.looked held
  | @loosen slot held =>
      refine books.kept (.of_eq rfl) (fun other living => ?_) rfl rfl rfl rfl
      exact (alive_loosen held other).mp living
  | dropShared stopped looked nothing unread =>
      have left : slack.pulls = false := calm.resolve_left (by simp [stopped])
      have settled := unread.resolve_left (by simp [left])
      refine ⟨books.lent, fun slot flag living => ?_, books.numbered,
        books.pinned⟩
      have counted := (alive_dropShared looked nothing slot).mp living
      have before := books.flagged slot flag (Or.inr (Or.inl counted))
      have unread := settled slot (OrderedDict.mem_values_of_find? before)
      omega
  | @dropCache cache stopped cached unread =>
      have left : slack.pulls = false := calm.resolve_left (by simp [stopped])
      have settled := unread.resolve_left (by simp [left])
      refine books.recached cached rfl fun slot counted found => ?_
      have unread := settled slot (OrderedDict.mem_values_of_find? found)
      omega
  | submit job new =>
      unfold State.submitJob
      split
      · exact books.untouched rfl rfl rfl rfl rfl rfl rfl rfl rfl rfl rfl
      · exact books.untouched rfl rfl rfl rfl rfl rfl rfl rfl rfl rfl rfl
  | enqueue request =>
      unfold State.enqueuePreload
      split
      · exact books
      · exact books.untouched rfl rfl rfl rfl rfl rfl rfl rfl rfl rfl rfl
  | shutdown =>
      unfold State.shutdown
      split
      · exact books
      · exact books.untouched rfl rfl rfl rfl rfl rfl rfl rfl rfl rfl rfl
  | _ => exact books.untouched rfl rfl rfl rfl rfl rfl rfl rfl rfl rfl rfl

end LentBooks

end PyKvCache.Ledger
