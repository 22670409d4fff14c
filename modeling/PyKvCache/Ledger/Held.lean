import PyKvCache.Ledger.Move

/-!
# Invariants of moves

`Base` collects what every handler relies on: operation numbers are fresh,
queued files and preloads carry the hash they are queued under, registered
shared slots are marked as cached, and the lists a loop runs over are still
part of the state.  Every move keeps it.

An invariant that every move keeps under `Base` is `Closed`; the handlers are
proved once, for any such invariant.
-/

namespace PyKvCache.Ledger

open PyKvCache.Library PyKvCache.Staging PyKvCache.Transfer
open PyKvCache.Reactor

variable {slotCount : Nat}

/-- What every handler relies on. -/
structure Base (hand : Hand slotCount) (state : State slotCount) : Prop where
  numbered : ∀ userData op,
    state.inflight.find? userData = some op →
      userData ≤ state.nextUserData
  waiters : ∀ pair ∈ state.preloadWaiters.pairs, pair.2.hash = pair.1
  blocked : ∀ pair ∈ state.preloadBlockedOnWrite.pairs,
    pair.2.blockHash = pair.1
  missing : ∀ pair ∈ state.knownMissing.pairs, pair.2.blockHash = pair.1
  registered : ∀ hash slot, state.sharedCached.find? hash = some slot →
    slot.blockHash = hash ∧ (state.shared slot).cached = true ∧
      slot.oid < state.nextShared
  fresh : ∀ slot, hand.fresh = some slot →
    (state.shared slot).cached = false ∧ slot.oid < state.nextShared
  todo : hand.todo.Sublist state.pendingCopies
  known : ∀ job ∈ hand.known, job ∈ state.active

namespace Base

variable {env : Env slotCount} {slack : Slack}
  {hand hand' : Hand slotCount} {state state' : State slotCount}

/-- A new operation has the number it was given. -/
private theorem numbered_set (base : Base hand state) {userData : Nat}
    {op : RingOp slotCount} (small : userData ≤ state.nextUserData) :
    ∀ number found,
      (state.inflight.set userData op).find? number = some found →
        number ≤ state.nextUserData := by
  intro number found member
  rw [OrderedDict.find?_set] at member
  split at member
  next same => exact same ▸ small
  next => exact base.numbered number found member

private theorem numbered_erase (base : Base hand state) {userData : Nat} :
    ∀ number found,
      (state.inflight.erase userData).find? number = some found →
        number ≤ state.nextUserData := by
  intro number found member
  rw [OrderedDict.find?_erase] at member
  split at member
  · cases member
  · exact base.numbered number found member

/-- A change of a shared slot that leaves its `cached` flag alone. -/
private theorem cached_update {slot other : SharedSlot slotCount}
    {change : SharedState → SharedState}
    (same : ∀ fields, (change fields).cached = fields.cached) :
    ((state.updateShared slot change).shared other).cached =
      (state.shared other).cached := by
  unfold State.updateShared
  by_cases equal : other = slot
  · subst equal
    simp [same]
  · simp [Function.update_of_ne equal]

/-- A queue table of preloads after one more was queued under its hash. -/
private theorem keyed_pushBack
    {table : QueueTable BlockHash PreloadInfo} {info : PreloadInfo}
    (keyed : ∀ pair ∈ table.pairs, pair.2.blockHash = pair.1) :
    ∀ pair ∈ (table.pushBack info.blockHash info).pairs,
      pair.2.blockHash = pair.1 := by
  intro pair member
  rw [QueueTable.pairs_pushBack.mem_iff, List.mem_cons] at member
  rcases member with rfl | old
  · rfl
  · exact keyed pair old

private theorem keyed_remember
    {table : QueueTable BlockHash PreloadInfo} {info : PreloadInfo}
    (keyed : ∀ pair ∈ table.pairs, pair.2.blockHash = pair.1) :
    ∀ pair ∈ ((table.pushBack info.blockHash info).moveToEnd
        info.blockHash).pairs,
      pair.2.blockHash = pair.1 := by
  intro pair member
  rw [QueueTable.pairs_moveToEnd.mem_iff] at member
  exact keyed_pushBack keyed pair member

/-- The preloads a store re-arms are queued under its hash. -/
theorem mem_rearmed (base : Base hand state) {producer : String}
    {hash : BlockHash} {info : PreloadInfo}
    (member : info ∈ state.rearmed env producer hash) :
    info.blockHash = hash := by
  have missed : info ∈ state.knownMissing.queue hash := by
    unfold State.rearmed at member
    split at member
    · split at member
      · exact member
      · cases member
    · exact List.mem_of_mem_filter member
  exact base.missing _ (QueueTable.mem_pairs_of_mem_queue missed)

private theorem todo_cons {copy : CopyOp slotCount}
    {todo : List (CopyOp slotCount)} (base : Base hand state)
    (first : hand.todo = copy :: todo) :
    todo.Sublist (state.pendingCopies.erase copy) := by
  have kept := base.todo.erase copy
  rwa [first, List.erase_cons_head] at kept

/-- The copy a loop is about to look at is still pending. -/
theorem mem_pendingCopies (base : Base hand state)
    {copy : CopyOp slotCount} {todo : List (CopyOp slotCount)}
    (first : hand.todo = copy :: todo) : copy ∈ state.pendingCopies :=
  base.todo.subset (by rw [first]; exact List.mem_cons_self)

/-! ### The groups of moves that touch it -/

/-- A shared slot that is made has a number of its own. -/
private theorem made (base : Base hand state) {slot : Fin slotCount}
    {hash : BlockHash} {slots : List (Fin slotCount × Option BlockHash)} :
    Base
      { hand with
        slots := slots
        fresh := some ⟨state.nextShared, hash, slot⟩ }
      { state with
        nextShared := state.nextShared + 1
        shared := Function.update state.shared
          ⟨state.nextShared, hash, slot⟩ ⟨0, false⟩ } := by
  have different : ∀ key other,
      state.sharedCached.find? key = some other →
        other ≠ ⟨state.nextShared, hash, slot⟩ := by
    rintro key other found rfl
    exact absurd (base.registered key _ found).2.2 (Nat.lt_irrefl _)
  exact { base with
    registered := by
      intro key other found
      obtain ⟨keyed, cached, numbered⟩ := base.registered key other found
      refine ⟨keyed, ?_, Nat.lt_succ_of_lt numbered⟩
      simpa only [Function.update_of_ne (different key other found)]
        using cached
    fresh := by
      intro other equal
      cases equal
      exact ⟨by simp, Nat.lt_succ_self _⟩ }

/-- The shared slot that was made is registered under its hash. -/
private theorem cached (base : Base hand state) {slot : SharedSlot slotCount}
    {tokens : List (BlockHash × Bool)} {rooms : Nat}
    (held : hand.fresh = some slot) :
    Base { hand with fresh := none, tokens := tokens, rooms := rooms }
      { state.updateShared slot fun fields =>
          { fields with cached := true } with
        sharedCached := state.sharedCached.set slot.blockHash slot
        preloadCachedTotal := state.preloadCachedTotal + 1 } := by
  obtain ⟨_, numbered⟩ := base.fresh slot held
  exact { base with
    registered := by
      intro key other found
      rw [OrderedDict.find?_set] at found
      split at found
      next same =>
        cases found
        exact ⟨same.symm, by simp [State.updateShared], numbered⟩
      next =>
        obtain ⟨keyed, cached, small⟩ := base.registered key other found
        refine ⟨keyed, ?_, small⟩
        by_cases equal : other = slot
        · subst equal
          simp [State.updateShared]
        · simpa [State.updateShared, Function.update_of_ne equal] using cached
    fresh := by
      intro other equal
      cases equal }

/-- A registered shared slot is no longer registered. -/
private theorem uncached (base : Base hand state)
    {slot : SharedSlot slotCount} {loose : List (SharedSlot slotCount)} :
    Base { hand with loose := loose }
      ({ state with
        sharedCached := state.sharedCached.erase slot.blockHash
        preloadCachedTotal := state.preloadCachedTotal - 1
        : State slotCount }.updateShared slot fun fields =>
          { fields with cached := false }) := by
  exact { base with
    registered := by
      intro key other found
      have kept :
          (state.sharedCached.erase slot.blockHash).find? key =
            some other := found
      rw [OrderedDict.find?_erase] at kept
      split at kept
      · cases kept
      next different =>
        obtain ⟨keyed, flag, small⟩ := base.registered key other kept
        have notSlot : other ≠ slot := by
          rintro rfl
          exact different keyed.symm
        refine ⟨keyed, ?_, small⟩
        simpa [State.updateShared, Function.update_of_ne notSlot] using flag
    fresh := by
      intro other equal
      obtain ⟨flag, small⟩ := base.fresh other equal
      refine ⟨?_, small⟩
      by_cases same : other = slot
      · subst same
        simp [State.updateShared]
      · simpa [State.updateShared, Function.update_of_ne same] using flag }

/-- The copies of a shared slot are counted anew. -/
private theorem recounted (base : Base hand state)
    {slot : SharedSlot slotCount} {claims loose : List (SharedSlot slotCount)}
    {change : SharedState → SharedState}
    (same : ∀ fields, (change fields).cached = fields.cached) :
    Base { hand with claims := claims, loose := loose }
      (state.updateShared slot change) := by
  exact { base with
    registered := by
      intro key other found
      obtain ⟨keyed, flag, small⟩ := base.registered key other found
      refine ⟨keyed, ?_, small⟩
      rw [cached_update same]
      exact flag
    fresh := by
      intro other equal
      rw [cached_update same]
      exact base.fresh other equal }

/-- One more operation is in the ring. -/
private theorem queued (base : Base hand state) {userData : Nat}
    {op : RingOp slotCount} (small : userData ≤ state.nextUserData) :
    Base hand { state with inflight := state.inflight.set userData op } :=
  { base with numbered := base.numbered_set small }

/-- An operation has left the ring. -/
private theorem reaped (base : Base hand state) {userData : Nat} :
    Base hand { state with inflight := state.inflight.erase userData } :=
  { base with numbered := base.numbered_erase }

/-- A file is queued under its hash. -/
private theorem waiting (base : Base hand state) {file : FileRef} :
    Base hand
      { state with
        preloadWaiters := state.preloadWaiters.pushBack file.hash file } := by
  exact { base with
    waiters := by
      intro pair member
      rw [QueueTable.pairs_pushBack.mem_iff, List.mem_cons] at member
      rcases member with rfl | old
      · rfl
      · exact base.waiters pair old }

/-- The preloads that were missing are parked again when a store arrives. -/
private theorem rearmed (base : Base hand state) {producer : String}
    {hash : BlockHash} :
    Base hand
      { state with
        knownMissing := state.knownMissing.erase hash
        preloadBlockedOnWrite := state.preloadBlockedOnWrite.extend hash
          (state.rearmed env producer hash) } := by
  exact { base with
    missing := fun pair member =>
      base.missing pair (QueueTable.mem_pairs_of_mem_erase member)
    blocked := by
      intro pair member
      rw [(QueueTable.pairs_extend _).mem_iff, List.mem_append,
        List.mem_map] at member
      rcases member with ⟨info, rearmed, rfl⟩ | old
      · exact base.mem_rearmed rearmed
      · exact base.blocked pair old }

/-- Every move keeps `Base`. -/
theorem move (base : Base hand state)
    (moved : Move env slack hand state hand' state') :
    Base hand' state' := by
  cases moved with
  | userData =>
      exact { base with
        numbered := fun number op found =>
          Nat.le_succ_of_le (base.numbered number op found) }
  | sharedNew held none => exact base.made
  | sharedCache sharing held allowed => exact base.cached held
  | sharedUncache cached => exact base.uncached
  | claim alive => exact base.recounted fun _ => rfl
  | unclaim held => exact base.recounted fun _ => rfl
  | loosen held =>
      exact { base with
        fresh := by
          intro other equal
          cases equal }
  | launchLoads held =>
      exact { base with
        todo := base.todo.trans (List.sublist_append_left _ _) }
  | launchStore heldFile heldSlot =>
      exact { base with
        todo := base.todo.trans (List.sublist_append_left _ _) }
  | takeLoads reaps empty first =>
      exact { base with todo := todo_cons base first }
  | takeStore reaps first =>
      exact { base with todo := todo_cons base first }
  | watchCopies idle =>
      exact { base with todo := List.Sublist.refl _ }
  | passCopy first =>
      exact { base with
        todo := by
          have kept := base.todo
          rw [first] at kept
          exact (List.sublist_cons_self _ _).trans kept }
  | wait held room => exact { base.waiting with }
  | wake ended queued =>
      exact { base with
        waiters := fun pair member =>
          base.waiters pair (QueueTable.mem_pairs_of_mem_keep queued member) }
  | wakeAll stopped empty =>
      exact { base with
        waiters := by
          intro pair member
          cases member }
  | openLoad held new numbered => exact { base.queued numbered with }
  | openPreload allowed served room ended new numbered =>
      exact { base.queued numbered with }
  | readLoad fd heldFile heldSlot new numbered =>
      exact { base.queued numbered with }
  | readPreload fd heldInfo heldSlot new numbered =>
      exact { base.queued numbered with }
  | write fd finalPath tempPath heldFile heldSlot heldUnit new numbered =>
      exact { base.queued numbered with }
  | close fd new numbered => exact { base.queued numbered with }
  | openedLoad reaps found => exact { base.reaped with }
  | openedPreload reaps found => exact { base.reaped with }
  | doneLoad reaps found => exact { base.reaped with }
  | donePreload reaps found => exact { base.reaped with }
  | doneWrite reaps found => exact { base.reaped with }
  | doneClose reaps found => exact { base.reaped with }
  | park allowed storing =>
      exact { base with blocked := keyed_pushBack base.blocked }
  | miss allowed =>
      exact { base with
        missing := fun pair member =>
          keyed_remember base.missing pair
            (QueueTable.mem_pairs_of_mem_keepNewest member) }
  | missJoin info owned =>
      exact { base with missing := keyed_remember base.missing }
  | forget hash =>
      exact { base with
        missing := fun pair member =>
          base.missing pair (QueueTable.mem_pairs_of_mem_erase member) }
  | storeEnded held last =>
      exact { base with
        blocked := fun pair member =>
          base.blocked pair (QueueTable.mem_pairs_of_mem_erase member) }
  | arrive held storing => exact { base.rearmed with }
  | activateStore held storing complete =>
      exact { base with
        known := fun job member =>
          List.mem_append_left _ (base.known job member) }
  | activateLoad held loading =>
      exact { base with
        known := fun job member =>
          List.mem_append_left _ (base.known job member) }
  | finish idle scheduled =>
      exact { base with
        known := by
          intro job member
          rw [idle] at member
          cases member }
  | watchJobs => exact { base with known := fun _ member => member }
  | unwatchJobs =>
      exact { base with
        known := by
          intro job member
          cases member }
  | dropShared stopped =>
      exact { base with
        registered := by
          intro key slot found
          cases found }
  | clear stopped =>
      exact { base with
        blocked := by
          intro pair member
          cases member
        missing := by
          intro pair member
          cases member }
  | submit job new =>
      unfold State.submitJob
      split
      · exact { base with }
      · exact { base with }
  | enqueue request =>
      unfold State.enqueuePreload
      split
      · exact base
      · exact { base with }
  | shutdown =>
      unfold State.shutdown
      split
      · exact base
      · exact { base with }
  | _ =>
      exact ⟨base.numbered, base.waiters, base.blocked, base.missing,
        base.registered, base.fresh, base.todo, base.known⟩

end Base

/-- Every move keeps the invariant. -/
def Closed (env : Env slotCount) (slack : Slack)
    (inv : Hand slotCount → State slotCount → Prop) : Prop :=
  ∀ ⦃hand state hand' state'⦄, Base hand state →
    Move env slack hand state hand' state' →
      inv hand state → inv hand' state'

/-- `Base` and an invariant. -/
structure Held (inv : Hand slotCount → State slotCount → Prop)
    (hand : Hand slotCount) (state : State slotCount) : Prop where
  base : Base hand state
  inv : inv hand state

/-- A world with a silent profiler, and an invariant every move keeps. -/
structure Rules (env : Env slotCount) (slack : Slack)
    (inv : Hand slotCount → State slotCount → Prop) : Prop where
  quiet : env.Quiet
  closed : Closed env slack inv

theorem Rules.move {env : Env slotCount} {slack : Slack}
    {inv : Hand slotCount → State slotCount → Prop}
    {hand hand' : Hand slotCount} {state state' : State slotCount}
    (rules : Rules env slack inv) (held : Held inv hand state)
    (moved : Move env slack hand state hand' state') :
    Held inv hand' state' :=
  ⟨held.base.move moved, rules.closed held.base moved held.inv⟩

end PyKvCache.Ledger
