import PyKvCache.Ledger.Lent

/-!
# The owners of the slots

Every staging slot is in one place, and what is known about the block in it
holds.  The places are the tables, the hand, and the shared preload slots that
are registered, lent out or still looked after by a handler.
-/

namespace PyKvCache.Reactor

open PyKvCache.Library PyKvCache.Staging PyKvCache.Transfer

variable {slotCount : Nat}

/-- The slot a ring operation works on, and the block it holds; a read has not
filled its slot yet. -/
def RingOp.slots : RingOp slotCount → List (Fin slotCount × Option BlockHash)
  | .reading _ slot _ => [(slot, none)]
  | .writing file slot _ _ _ => [(slot, some file.hash)]
  | _ => []

/-- The slot a store copy works on. -/
def CopyOp.slots : CopyOp slotCount → List (Fin slotCount × Option BlockHash)
  | .store _ slot => [(slot, none)]
  | .load _ => []

/-- The slot a load copy owns, and the block it holds. -/
def LoadCopy.slots (copy : LoadCopy slotCount) :
    List (Fin slotCount × Option BlockHash) :=
  match copy.source with
  | .own slot => [(slot, some copy.file.hash)]
  | _ => []

/-- The slot of a shared preload slot, and the block it holds. -/
def SharedSlot.entry (slot : SharedSlot slotCount) :
    Fin slotCount × Option BlockHash :=
  (slot.slotIndex, some slot.blockHash)

/-- The entries of the staging cache. -/
def State.cacheSlots (state : State slotCount) :
    List (CacheSlot (Fin slotCount)) :=
  state.stagingCache.toList.flatMap fun cache => cache.slots.values

/-- Every slot that is not in a shared preload slot: a free one, one of an
operation, of a store copy or of a load copy of its own, one in the preload
cache and one in the staging cache. -/
def State.owned (state : State slotCount) :
    List (Fin slotCount × Option BlockHash) :=
  state.free.map (fun slot => (slot, none)) ++
    state.inflight.values.flatMap RingOp.slots ++
    state.pendingCopies.flatMap CopyOp.slots ++
    state.loadCopies.flatMap LoadCopy.slots ++
    state.preloadSlots.pairs.map (fun entry => (entry.2.1, some entry.1)) ++
    state.cacheSlots.map fun slot => (slot.slotIndex, some slot.blockHash)

/-- The block a copy delivers is the one its source holds. -/
def LoadCopy.Fits (copy : LoadCopy slotCount) : Prop :=
  match copy.source with
  | .own _ => True
  | .shared slot => copy.file.hash = slot.blockHash
  | .cache slot => copy.file.hash = slot.blockHash

end PyKvCache.Reactor

namespace PyKvCache.Ledger

open PyKvCache.Library PyKvCache.Staging PyKvCache.Transfer
open PyKvCache.Reactor

variable {slotCount : Nat} {env : Env slotCount} {slack : Slack}
  {hand hand' : Hand slotCount} {state state' : State slotCount}
  {live : List (SharedSlot slotCount)}

/-! ## Copies fit their sources -/

/-- Every copy delivers the block its source is for. -/
def CopiesFit (hand : Hand slotCount) (state : State slotCount) : Prop :=
  ∀ copy ∈ copies hand state, copy.Fits

namespace CopiesFit

private theorem kept (fit : CopiesFit hand state)
    (perm : (copies hand' state').Perm (copies hand state)) :
    CopiesFit hand' state' :=
  fun copy member => fit copy (perm.mem_iff.mp member)

private theorem queued (fit : CopiesFit hand state)
    (new : LoadCopy slotCount) (fits : new.Fits)
    (perm : (copies hand' state').Perm (new :: copies hand state)) :
    CopiesFit hand' state' := by
  intro copy member
  rcases List.mem_cons.mp (perm.mem_iff.mp member) with rfl | old
  · exact fits
  · exact fit copy old

private theorem opened (fit : CopiesFit hand state)
    {copy : LoadCopy slotCount} {later : List (LoadCopy slotCount)}
    (held : hand.copies = copy :: later) (left : hand'.copies = later) :
    CopiesFit hand' state := by
  intro other member
  unfold copies at member
  rw [left] at member
  refine fit other ?_
  unfold copies
  rw [held]
  exact List.mem_cons_of_mem _ member

private theorem untouched (fit : CopiesFit hand state)
    (inHand : hand'.copies = hand.copies)
    (ready : state'.copyReady = state.copyReady)
    (pending : state'.pendingCopies = state.pendingCopies) :
    CopiesFit hand' state' := by
  unfold CopiesFit copies State.loadCopies
  rw [inHand, ready, pending]
  exact fit

/-- A copy in hand fits. -/
theorem inHand (fit : CopiesFit hand state) {copy : LoadCopy slotCount}
    {later : List (LoadCopy slotCount)}
    (held : hand.copies = copy :: later) : copy.Fits := by
  refine fit copy (List.mem_append_left _ ?_)
  rw [held]
  exact List.mem_cons_self

/-- Every move keeps the copies fitting. -/
theorem move (fit : CopiesFit hand state) (base : Base hand state)
    (moved : Move env slack hand state hand' state') :
    CopiesFit hand' state' := by
  cases moved with
  | @queueOwn file slot slots files mapping heldFile heldSlot =>
      refine fit.queued ⟨file, .own slot⟩ trivial
        (perm_of_weigh fun weight => ?_)
      simp only [weigh_copies, weigh_append, weigh_cons, weigh_nil]
      omega
  | @queueShared file slot files claims mapping heldFile heldClaim same =>
      refine fit.queued ⟨file, .shared slot⟩ same
        (perm_of_weigh fun weight => ?_)
      simp only [weigh_copies, weigh_append, weigh_cons, weigh_nil]
      omega
  | @queueCache file slot files pins mapping heldFile heldPin same =>
      refine fit.queued ⟨file, .cache slot⟩ same
        (perm_of_weigh fun weight => ?_)
      simp only [weigh_copies, weigh_append, weigh_cons, weigh_nil]
      omega
  | takeReady reaps empty =>
      refine fit.kept (perm_of_weigh fun weight => ?_)
      simp only [weigh_copies, empty, weigh_map, weigh_nil]
      omega
  | launchLoads held =>
      refine fit.kept (perm_of_weigh fun weight => ?_)
      simp only [weigh_copies, held, CopyOp.members, weigh_append,
        weigh_cons, weigh_nil]
      omega
  | takeLoads reaps empty first =>
      refine fit.kept (perm_of_weigh fun weight => ?_)
      simp only [weigh_copies, empty, CopyOp.members,
        weigh_erase (base.mem_pendingCopies first), weigh_nil]
      omega
  | openOwn held => exact fit.opened held rfl
  | openShared held => exact fit.opened held rfl
  | openCache held => exact fit.opened held rfl
  | launchStore heldFile heldSlot =>
      refine fit.kept (perm_of_weigh fun weight => ?_)
      simp only [weigh_copies, State.fill, CopyOp.members, weigh_append,
        weigh_cons, weigh_nil]
      omega
  | takeStore reaps first =>
      refine fit.kept (perm_of_weigh fun weight => ?_)
      simp only [weigh_copies, CopyOp.members,
        weigh_erase (base.mem_pendingCopies first), weigh_nil]
      omega
  | submit job new =>
      unfold State.submitJob
      split
      · exact fit.untouched rfl rfl rfl
      · exact fit.untouched rfl rfl rfl
  | enqueue request =>
      unfold State.enqueuePreload
      split
      · exact fit
      · exact fit.untouched rfl rfl rfl
  | shutdown =>
      unfold State.shutdown
      split
      · exact fit
      · exact fit.untouched rfl rfl rfl
  | _ => exact fit.untouched rfl rfl rfl

end CopiesFit

/-! ## Places -/

/-- The slots in hand and in the tables, except those of shared slots. -/
def owned (hand : Hand slotCount) (state : State slotCount) :
    List (Fin slotCount × Option BlockHash) :=
  hand.slots ++ hand.copies.flatMap LoadCopy.slots ++ state.owned

theorem weigh_owned {weight : Fin slotCount × Option BlockHash → Nat} :
    weigh weight (owned hand state) =
      weigh weight hand.slots +
      weigh (fun copy => weigh weight (LoadCopy.slots copy)) hand.copies +
      (weigh (fun slot => weight (slot, none)) state.free +
        weigh (fun op => weigh weight (RingOp.slots op))
          state.inflight.values +
        weigh (fun copy => weigh weight (CopyOp.slots copy))
          state.pendingCopies +
        (weigh (fun ready => weigh weight ready.copy.slots)
            state.copyReady +
          weigh (fun copy =>
            weigh (fun member => weigh weight (LoadCopy.slots member))
              (CopyOp.members copy)) state.pendingCopies) +
        weigh (fun entry => weight (entry.2.1, some entry.1))
          state.preloadSlots.pairs +
        weigh (fun cache =>
          weigh (fun slot => weight (slot.slotIndex, some slot.blockHash))
            cache.slots.values) state.stagingCache.toList) := by
  simp only [owned, State.owned, State.loadCopies, State.cacheSlots,
    weigh_append, weigh_map, weigh_flatMap]

/-- Every slot in its one place. -/
def tagged (hand : Hand slotCount) (state : State slotCount)
    (live : List (SharedSlot slotCount)) :
    List (Fin slotCount × Option BlockHash) :=
  owned hand state ++ live.map SharedSlot.entry

/-- The slots are the places of the tables, the hand and the shared slots that
are alive, and each holds the block it is kept for. -/
structure PlaceBooks (hand : Hand slotCount) (state : State slotCount)
    (live : List (SharedSlot slotCount)) : Prop where
  distinct : live.Nodup
  alive : ∀ slot, slot ∈ live ↔ Alive hand state slot
  numbered : ∀ slot ∈ live, slot.oid < state.nextShared
  places : ((tagged hand state live).map Prod.fst).Perm
    (List.finRange slotCount)
  filled : ∀ entry ∈ tagged hand state live, ∀ hash,
    entry.2 = some hash → state.content entry.1 = some hash

namespace PlaceBooks

private theorem rearranged (books : PlaceBooks hand state live)
    {live' : List (SharedSlot slotCount)}
    (perm : (tagged hand' state' live').Perm (tagged hand state live))
    (content : state'.content = state.content) (distinct : live'.Nodup)
    (alive : ∀ slot, slot ∈ live' ↔ Alive hand' state' slot)
    (numbered : ∀ slot ∈ live', slot.oid < state'.nextShared) :
    PlaceBooks hand' state' live' := by
  refine ⟨distinct, alive, numbered, ?_, ?_⟩
  · exact (perm.map Prod.fst).trans books.places
  · rw [content]
    exact fun entry member => books.filled entry (perm.mem_iff.mp member)

private theorem handedOn (books : PlaceBooks hand state live)
    (perm : (owned hand' state').Perm (owned hand state))
    (content : state'.content = state.content)
    (alive : ∀ slot, Alive hand' state' slot ↔ Alive hand state slot)
    (numbered : state'.nextShared = state.nextShared) :
    PlaceBooks hand' state' live :=
  books.rearranged (perm.append_right _) content books.distinct
    (fun slot => (books.alive slot).trans (alive slot).symm)
    (by rw [numbered]; exact books.numbered)

/-- One slot is now known to hold something else. -/
private theorem retagged (books : PlaceBooks hand state live)
    (slot : Fin slotCount) (old new : Option BlockHash)
    (rest : List (Fin slotCount × Option BlockHash))
    (before : (owned hand state).Perm ((slot, old) :: rest))
    (after : (owned hand' state').Perm ((slot, new) :: rest))
    (known : ∀ hash, new = some hash → state'.content slot = some hash)
    (others : ∀ other, other ≠ slot →
      state'.content other = state.content other)
    (alive : ∀ slot, Alive hand' state' slot ↔ Alive hand state slot)
    (numbered : state'.nextShared = state.nextShared) :
    PlaceBooks hand' state' live := by
  have allBefore : (tagged hand state live).Perm
      ((slot, old) :: (rest ++ live.map SharedSlot.entry)) :=
    before.append_right _
  have allAfter : (tagged hand' state' live).Perm
      ((slot, new) :: (rest ++ live.map SharedSlot.entry)) :=
    after.append_right _
  have once := (allBefore.map Prod.fst).symm.trans books.places
  have apart : ∀ entry ∈ rest ++ live.map SharedSlot.entry,
      entry.1 ≠ slot := by
    rintro entry member rfl
    have nodup := once.nodup_iff.mpr (List.nodup_finRange _)
    rw [List.map_cons, List.nodup_cons] at nodup
    exact nodup.1 (List.mem_map.mpr ⟨entry, member, rfl⟩)
  refine ⟨books.distinct, fun other => ?_, ?_, ?_, ?_⟩
  · exact (books.alive other).trans (alive other).symm
  · rw [numbered]
    exact books.numbered
  · exact (allAfter.map Prod.fst).trans once
  · intro entry member hash holds
    rcases List.mem_cons.mp (allAfter.mem_iff.mp member) with rfl | old
    · exact known hash holds
    · rw [others entry.1 (apart entry old)]
      exact books.filled entry
        (allBefore.mem_iff.mpr (List.mem_cons_of_mem _ old)) hash holds

private theorem untouched (books : PlaceBooks hand state live)
    (slots : hand'.slots = hand.slots) (inHand : hand'.copies = hand.copies)
    (free : state'.free = state.free)
    (operations : state'.inflight = state.inflight)
    (ready : state'.copyReady = state.copyReady)
    (pending : state'.pendingCopies = state.pendingCopies)
    (preloaded : state'.preloadSlots = state.preloadSlots)
    (cached : state'.stagingCache = state.stagingCache)
    (content : state'.content = state.content)
    (loose : hand'.loose = hand.loose) (fresh : hand'.fresh = hand.fresh)
    (registered : state'.sharedCached = state.sharedCached)
    (shared : state'.shared = state.shared)
    (numbered : state'.nextShared = state.nextShared) :
    PlaceBooks hand' state' live := by
  refine books.handedOn (.of_eq ?_) content (fun slot => ?_) numbered
  · unfold owned State.owned State.loadCopies State.cacheSlots
    rw [slots, inHand, free, operations, ready, pending, preloaded, cached]
  · unfold Alive
    rw [loose, fresh, registered, shared]

/-! ### Slots in hand -/

/-- The slot in hand is filled. -/
private theorem filled_hand (books : PlaceBooks hand state live)
    {slot : Fin slotCount} {block : Option BlockHash}
    {slots : List (Fin slotCount × Option BlockHash)}
    (held : hand.slots = (slot, block) :: slots) (new : Option BlockHash) :
    PlaceBooks { hand with slots := (slot, new) :: slots }
      (state.fill slot new) live := by
  refine books.retagged slot block new
    (owned { hand with slots := slots } state)
    (perm_of_weigh fun weight => ?_) (perm_of_weigh fun weight => ?_)
    (fun hash equal => ?_) (fun other different => ?_) (fun _ => Iff.rfl) rfl
  · simp only [weigh_owned, held, weigh_cons]
    omega
  · simp only [weigh_owned, State.fill, weigh_cons]
    omega
  · simp [State.fill, equal]
  · simp [State.fill, different]

/-- What the slot in hand holds need not be known. -/
private theorem unlabelled (books : PlaceBooks hand state live)
    {slot : Fin slotCount} {block : Option BlockHash}
    {slots : List (Fin slotCount × Option BlockHash)}
    (held : hand.slots = (slot, block) :: slots) :
    PlaceBooks { hand with slots := (slot, none) :: slots } state live := by
  refine books.retagged slot block none
    (owned { hand with slots := slots } state)
    (perm_of_weigh fun weight => ?_) (perm_of_weigh fun weight => ?_)
    (fun hash equal => ?_) (fun _ _ => rfl) (fun _ => Iff.rfl) rfl
  · simp only [weigh_owned, held, weigh_cons]
    omega
  · simp only [weigh_owned, weigh_cons]
    omega
  · cases equal

/-! ### The staging cache -/

/-- The slots the cache gains or loses are those the hand loses or gains. -/
private theorem recached (books : PlaceBooks hand state live)
    {cache after : StagingDataCache (Fin slotCount)}
    {slots : List (Fin slotCount × Option BlockHash)}
    {pins : List (CacheSlot (Fin slotCount))}
    (cached : state.stagingCache = some cache)
    (same : ∀ weight : Fin slotCount × Option BlockHash → Nat,
      weigh weight slots +
          weigh (fun slot => weight (slot.slotIndex, some slot.blockHash))
            after.slots.values =
        weigh weight hand.slots +
          weigh (fun slot => weight (slot.slotIndex, some slot.blockHash))
            cache.slots.values) :
    PlaceBooks { hand with slots := slots, pins := pins }
      { state with stagingCache := some after } live := by
  refine books.handedOn (perm_of_weigh fun weight => ?_) rfl
    (fun _ => Iff.rfl) rfl
  have kept := same weight
  simp only [weigh_owned, cached, Option.toList_some, weigh_cons, weigh_nil]
  omega

/-! ### Load copies and batches -/

/-- A copy is queued, with the slot it owns. -/
private theorem queued (books : PlaceBooks hand state live)
    {copy : LoadCopy slotCount} {mapping : List (Int × Int)}
    (slots : hand.slots = copy.slots ++ hand'.slots)
    (inHand : hand'.copies = hand.copies)
    (loose : hand'.loose = hand.loose) (fresh : hand'.fresh = hand.fresh) :
    PlaceBooks hand'
      { state with copyReady := state.copyReady ++ [⟨copy, mapping⟩] }
      live := by
  refine books.handedOn (perm_of_weigh fun weight => ?_) rfl
    (fun other => ?_) rfl
  · simp only [weigh_owned, slots, inHand, weigh_append, weigh_cons,
      weigh_nil]
    omega
  · unfold Alive
    rw [loose, fresh]

/-- A copy is taken apart, and its slot is in hand. -/
private theorem opened (books : PlaceBooks hand state live)
    {copy : LoadCopy slotCount} {copies : List (LoadCopy slotCount)}
    (held : hand.copies = copy :: copies) (left : hand'.copies = copies)
    (slots : hand'.slots = copy.slots ++ hand.slots)
    (loose : hand'.loose = hand.loose) (fresh : hand'.fresh = hand.fresh) :
    PlaceBooks hand' state live := by
  refine books.handedOn (perm_of_weigh fun weight => ?_) rfl
    (fun other => ?_) rfl
  · simp only [weigh_owned, held, left, slots, weigh_append, weigh_cons]
    omega
  · unfold Alive
    rw [loose, fresh]

/-- A batch is launched with the slots and the copies in it. -/
private theorem launched (books : PlaceBooks hand state live)
    {copy : CopyOp slotCount}
    (slots : hand.slots = copy.slots ++ hand'.slots)
    (members : hand.copies = copy.members ++ hand'.copies)
    (loose : hand'.loose = hand.loose) (fresh : hand'.fresh = hand.fresh) :
    PlaceBooks hand'
      { state with pendingCopies := state.pendingCopies ++ [copy] } live := by
  refine books.handedOn (perm_of_weigh fun weight => ?_) rfl
    (fun other => ?_) rfl
  · simp only [weigh_owned, slots, members, weigh_append, weigh_cons,
      weigh_nil]
    omega
  · unfold Alive
    rw [loose, fresh]

/-- A batch that is over leaves its slots and its copies in hand. -/
private theorem landed (books : PlaceBooks hand state live)
    {copy : CopyOp slotCount} (pending : copy ∈ state.pendingCopies)
    (slots : hand'.slots = copy.slots ++ hand.slots)
    (members : hand'.copies = copy.members ++ hand.copies)
    (loose : hand'.loose = hand.loose) (fresh : hand'.fresh = hand.fresh) :
    PlaceBooks hand'
      { state with pendingCopies := state.pendingCopies.erase copy }
      live := by
  refine books.handedOn (perm_of_weigh fun weight => ?_) rfl
    (fun other => ?_) rfl
  · simp only [weigh_owned, slots, members, weigh_append,
      weigh_erase pending]
    omega
  · unfold Alive
    rw [loose, fresh]

/-! ### Ring operations -/

/-- An operation is put into the ring, with the slot it works on. -/
private theorem issued (books : PlaceBooks hand state live)
    {userData : Nat} {op : RingOp slotCount}
    (new : state.inflight.find? userData = none)
    (slots : hand.slots = op.slots ++ hand'.slots)
    (inHand : hand'.copies = hand.copies)
    (loose : hand'.loose = hand.loose) (fresh : hand'.fresh = hand.fresh) :
    PlaceBooks hand'
      { state with inflight := state.inflight.set userData op } live := by
  refine books.handedOn (perm_of_weigh fun weight => ?_) rfl
    (fun other => ?_) rfl
  · simp only [weigh_owned, slots, inHand, weigh_append,
      OrderedDict.weigh_values_set new]
    omega
  · unfold Alive
    rw [loose, fresh]

/-- A read takes a slot in hand, whatever it holds. -/
private theorem reading (books : PlaceBooks hand state live)
    {userData : Nat} {reader : Reader} {slot : Fin slotCount} {fd : Int}
    {block : Option BlockHash}
    {slots : List (Fin slotCount × Option BlockHash)}
    (held : hand.slots = (slot, block) :: slots)
    (new : state.inflight.find? userData = none) :
    PlaceBooks { hand with slots := slots }
      { state.fill slot none with
        inflight := state.inflight.set userData (.reading reader slot fd) }
      live :=
  (books.filled_hand held none).issued new rfl rfl rfl rfl

/-- An operation that is reaped leaves the slot it worked on in hand. -/
private theorem reaped (books : PlaceBooks hand state live)
    {userData : Nat} {op : RingOp slotCount}
    (found : state.inflight.find? userData = some op)
    (slots : hand'.slots = op.slots ++ hand.slots)
    (inHand : hand'.copies = hand.copies)
    (loose : hand'.loose = hand.loose) (fresh : hand'.fresh = hand.fresh) :
    PlaceBooks hand'
      { state with inflight := state.inflight.erase userData } live := by
  refine books.handedOn (perm_of_weigh fun weight => ?_) rfl
    (fun other => ?_) rfl
  · simp only [weigh_owned, slots, inHand, weigh_append,
      OrderedDict.weigh_values_erase found]
    omega
  · unfold Alive
    rw [loose, fresh]

/-! ### Shared preload slots -/

/-- A handler makes a shared slot of a slot in hand. -/
private theorem make (books : PlaceBooks hand state live)
    {slot : Fin slotCount} {hash : BlockHash}
    {slots : List (Fin slotCount × Option BlockHash)}
    (held : hand.slots = (slot, some hash) :: slots)
    (nothing : hand.fresh = none) :
    PlaceBooks
      { hand with
        slots := slots
        fresh := some ⟨state.nextShared, hash, slot⟩ }
      { state with
        nextShared := state.nextShared + 1
        shared := Function.update state.shared
          ⟨state.nextShared, hash, slot⟩ ⟨0, false⟩ }
      (⟨state.nextShared, hash, slot⟩ :: live) := by
  generalize equal : (⟨state.nextShared, hash, slot⟩ : SharedSlot slotCount)
    = made
  have number : made.oid = state.nextShared := by rw [← equal]
  have entry : made.entry = (slot, some hash) := by
    rw [← equal]
    rfl
  refine books.rearranged (perm_of_weigh fun weight => ?_) rfl
    (List.nodup_cons.mpr ⟨fun old => ?_, books.distinct⟩)
    (fun other => ?_) (fun other member => ?_)
  · simp only [tagged, weigh_append, weigh_map, weigh_owned, held,
      weigh_cons, entry]
    omega
  · have small := books.numbered made old
    omega
  · rw [List.mem_cons, books.alive]
    unfold Alive
    simp only [nothing, Function.update_apply, Option.some.injEq,
      reduceCtorEq, or_false, eq_comm (a := made)]
    by_cases same : other = made
    · simp [same]
    · simp only [same, if_false, false_or, or_false]
  · show other.oid < state.nextShared + 1
    rcases List.mem_cons.mp member with rfl | old
    · omega
    · exact Nat.lt_succ_of_lt (books.numbered other old)

/-- A handler takes the slot of a shared slot nobody needs. -/
private theorem take (books : PlaceBooks hand state live)
    (base : Base hand state) {slot : SharedSlot slotCount}
    {loose : List (SharedSlot slotCount)}
    (held : hand.loose = slot :: loose)
    (uncached : (state.shared slot).cached = false)
    (unused : (state.shared slot).copiesInflight ≤ 0)
    (last : slot ∉ loose) (made : hand.fresh ≠ some slot) :
    PlaceBooks
      { hand with
        loose := loose
        slots := (slot.slotIndex, some slot.blockHash) :: hand.slots }
      state (live.erase slot) := by
  have unregistered : state.sharedCached.find? slot.blockHash ≠
      some slot := by
    intro found
    rw [(base.registered _ slot found).2.1] at uncached
    cases uncached
  have member : slot ∈ live := by
    rw [books.alive, Alive, held]
    exact Or.inr (Or.inr (Or.inl List.mem_cons_self))
  refine books.rearranged (perm_of_weigh fun weight => ?_) rfl
    (books.distinct.erase _) (fun other => ?_) (fun other inLive => ?_)
  · simp only [tagged, weigh_append, weigh_map, weigh_owned, weigh_cons,
      weigh_erase member, SharedSlot.entry]
    omega
  · rw [books.distinct.mem_erase_iff, books.alive]
    unfold Alive
    simp only [held, List.mem_cons]
    by_cases same : other = slot
    · subst same
      simp only [ne_eq, not_true_eq_false, false_and, false_iff, not_or]
      exact ⟨unregistered, by omega, last, made⟩
    · simp only [ne_eq, same, not_false_eq_true, true_and, false_or]
  · exact books.numbered other (List.mem_of_mem_erase inLive)

/-- The stop marker takes the registered slots, none of which is read. -/
private theorem drop (books : PlaceBooks hand state live)
    (base : Base hand state) (looked : hand.loose = [])
    (nothing : hand.fresh = none)
    (unread : ∀ slot ∈ state.sharedCached.values,
      (state.shared slot).copiesInflight ≤ 0) :
    PlaceBooks
      { hand with
        slots :=
          state.sharedCached.values.map
            (fun slot => (slot.slotIndex, some slot.blockHash)) ++
              hand.slots }
      { state with sharedCached := .empty }
      (live.filter fun slot =>
        0 < (state.shared slot).copiesInflight) := by
  have keyed := fun hash slot found => (base.registered hash slot found).1
  have taken :
      (live.filter fun slot =>
        !decide (0 < (state.shared slot).copiesInflight)).Perm
          state.sharedCached.values := by
    refine (List.perm_ext_iff_of_nodup (books.distinct.filter _)
      (OrderedDict.nodup_values keyed)).mpr fun slot => ?_
    rw [List.mem_filter, books.alive, Bool.not_eq_true',
      decide_eq_false_iff_not]
    constructor
    · rintro ⟨living, uncounted⟩
      rcases living with found | counted | loose | fresh
      · exact OrderedDict.mem_values_of_find? found
      · exact absurd counted uncounted
      · simp [looked] at loose
      · simp [nothing] at fresh
    · intro member
      obtain ⟨hash, found⟩ := OrderedDict.exists_find?_of_mem_values member
      refine ⟨Or.inl ?_, not_lt.mpr (unread slot member)⟩
      rw [keyed hash slot found]
      exact found
  refine books.rearranged (perm_of_weigh fun weight => ?_) rfl
    (books.distinct.filter _) (fun slot => ?_) (fun slot inLive => ?_)
  · have split := weigh_perm (fun slot => weight (SharedSlot.entry slot))
      (List.filter_append_perm
        (fun slot => decide (0 < (state.shared slot).copiesInflight)) live)
    have same := weigh_perm (fun slot => weight (SharedSlot.entry slot)) taken
    simp only [weigh_append] at split
    simp only [tagged, weigh_append, weigh_map, weigh_owned]
    simp only [SharedSlot.entry] at split same ⊢
    omega
  · rw [List.mem_filter, books.alive, decide_eq_true_eq,
      alive_dropShared looked nothing]
    exact ⟨fun kept => kept.2,
      fun counted => ⟨Or.inr (Or.inl counted), counted⟩⟩
  · exact books.numbered slot (List.mem_of_mem_filter inLive)

/-- Every move keeps every slot in one place, if the stop marker takes none
from under a copy. -/
theorem move (books : PlaceBooks hand state live) (base : Base hand state)
    (lent : LentBooks hand state)
    (demand : DemandBooks env hand state)
    (calm : state.stop = false ∨ slack.pulls = false)
    (moved : Move env slack hand state hand' state') :
    ∃ live', PlaceBooks hand' state' live' := by
  have same : ∀ slot, Alive hand state slot ↔ Alive hand state slot :=
    fun _ => Iff.rfl
  cases moved with
  | reserve available =>
      refine ⟨live, books.handedOn (perm_of_weigh fun weight => ?_) rfl
        same rfl⟩
      simp only [weigh_owned, available, weigh_cons]
      omega
  | release held =>
      refine ⟨live, (books.unlabelled held).handedOn
        (perm_of_weigh fun weight => ?_) rfl same rfl⟩
      simp only [weigh_owned, weigh_cons]
      omega
  | shuffle perm =>
      refine ⟨live, books.handedOn (perm_of_weigh fun weight => ?_) rfl
        same rfl⟩
      simp only [weigh_owned, weigh_perm _ perm]
  | fill hash held => exact ⟨live, books.filled_hand held (some hash)⟩
  | cacheTouch hash cached =>
      exact ⟨live, books.recached cached fun weight => rfl⟩
  | cacheInsert cached absent held =>
      refine ⟨live, books.recached cached fun weight => ?_⟩
      simp only [held, weigh_cons, StagingDataCache.insert,
        OrderedDict.weigh_values_set absent]
      omega
  | @cacheEvict cache slot smaller cached evicted =>
      obtain ⟨victim, found, unpinned, rfl, rfl⟩ :=
        StagingDataCache.evictOne_eq_some evicted
      have inHand : PlaceBooks
          { hand with
            slots := (victim.slotIndex, some victim.blockHash) ::
              hand.slots }
          { state with
            stagingCache := some (cache.evict victim.blockHash) } live := by
        refine books.recached cached fun weight => ?_
        simp only [weigh_cons, StagingDataCache.evict,
          OrderedDict.weigh_values_erase found]
        omega
      exact ⟨live, inHand.unlabelled rfl⟩
  | cachePin cached found =>
      exact ⟨live, books.recached cached fun weight => rfl⟩
  | cacheUnpin cached held =>
      exact ⟨live, books.recached cached fun weight => rfl⟩
  | cacheUnpinNone uncached held =>
      refine ⟨live, books.handedOn (perm_of_weigh fun weight => ?_) rfl
        same rfl⟩
      simp only [weigh_owned, uncached]
  | preloadPush held ended unawaited =>
      refine ⟨live, books.handedOn (perm_of_weigh fun weight => ?_) rfl
        same rfl⟩
      simp only [weigh_owned, held, weigh_cons, QueueTable.weigh_pushBack]
      omega
  | preloadPop queued =>
      refine ⟨live, books.handedOn (perm_of_weigh fun weight => ?_) rfl
        same rfl⟩
      simp only [weigh_owned, weigh_cons, QueueTable.weigh_keep queued]
      omega
  | sharedNew held nothing => exact ⟨_, books.make held nothing⟩
  | @sharedCache slot clean tokens rooms sharing held allowed demanded room
      registers running =>
      have unregistered :=
        demand.uncached_of_token sharing running allowed
      exact ⟨live, books.handedOn (.of_eq rfl) rfl
        (alive_sharedCache held unregistered) rfl⟩
  | sharedUncache cached =>
      exact ⟨live, books.handedOn (.of_eq rfl) rfl
        (alive_sharedUncache cached) rfl⟩
  | claim alive =>
      exact ⟨live, books.handedOn (.of_eq rfl) rfl (alive_claim alive) rfl⟩
  | @unclaim slot claims held =>
      have counted : 0 < (state.shared slot).copiesInflight :=
        lent.lent_pos (.shared slot) (by simp [borrowed, held])
      exact ⟨live, books.handedOn (.of_eq rfl) rfl (alive_unclaim counted)
        rfl⟩
  | @looseDrop slot loose held alive =>
      have kept : Alive { hand with loose := loose } state slot := by
        rcases alive with flag | counted | made
        · refine Or.inl (lent.flagged slot flag ?_)
          refine Or.inr (Or.inr (Or.inl ?_))
          rw [held]
          exact List.mem_cons_self
        · exact Or.inr (Or.inl counted)
        · exact Or.inr (Or.inr (Or.inr made))
      exact ⟨live, books.handedOn (.of_eq rfl) rfl
        (alive_looseDrop held kept) rfl⟩
  | looseTake held uncached unused last made =>
      exact ⟨_, books.take base held uncached unused last made⟩
  | loosen held =>
      exact ⟨live, books.handedOn (.of_eq rfl) rfl (alive_loosen held) rfl⟩
  | queueOwn mapping heldFile heldSlot =>
      exact ⟨live, books.queued heldSlot rfl rfl rfl⟩
  | queueShared mapping heldFile heldClaim fits =>
      exact ⟨live, books.queued rfl rfl rfl rfl⟩
  | queueCache mapping heldFile heldPin fits =>
      exact ⟨live, books.queued rfl rfl rfl rfl⟩
  | takeReady reaps empty =>
      refine ⟨live, books.handedOn (perm_of_weigh fun weight => ?_) rfl
        same rfl⟩
      simp only [weigh_owned, empty, weigh_map, weigh_nil]
      omega
  | launchLoads held =>
      exact ⟨live, books.launched rfl
        (held.trans (List.append_nil _).symm) rfl rfl⟩
  | takeLoads reaps empty first =>
      refine ⟨live, books.landed (base.mem_pendingCopies first) rfl ?_ rfl
        rfl⟩
      rw [empty, List.append_nil]
      rfl
  | openOwn held => exact ⟨live, books.opened held rfl rfl rfl rfl⟩
  | openShared held => exact ⟨live, books.opened held rfl rfl rfl rfl⟩
  | openCache held => exact ⟨live, books.opened held rfl rfl rfl rfl⟩
  | openLoad held new numbered =>
      exact ⟨live, (books.issued new rfl rfl rfl rfl).handedOn
        (.of_eq rfl) rfl same rfl⟩
  | openPreload allowed served room ended new numbered =>
      exact ⟨live, (books.issued new rfl rfl rfl rfl).handedOn
        (.of_eq rfl) rfl same rfl⟩
  | readLoad fd heldFile heldSlot new numbered =>
      exact ⟨live, (books.reading heldSlot new).handedOn
        (.of_eq rfl) rfl same rfl⟩
  | readPreload fd heldInfo heldSlot new numbered =>
      exact ⟨live, (books.reading heldSlot new).handedOn
        (.of_eq rfl) rfl same rfl⟩
  | write fd finalPath tempPath heldFile heldSlot heldUnit new numbered =>
      exact ⟨live, books.issued new heldSlot rfl rfl rfl⟩
  | close fd new numbered =>
      exact ⟨live, books.issued new rfl rfl rfl rfl⟩
  | openedLoad reaps found =>
      exact ⟨live, books.reaped found rfl rfl rfl rfl⟩
  | openedPreload reaps found =>
      exact ⟨live, books.reaped found rfl rfl rfl rfl⟩
  | doneClose reaps found =>
      exact ⟨live, books.reaped found rfl rfl rfl rfl⟩
  | doneLoad reaps found =>
      exact ⟨live, books.reaped found rfl rfl rfl rfl⟩
  | donePreload reaps found =>
      exact ⟨live, books.reaped found rfl rfl rfl rfl⟩
  | doneWrite reaps found =>
      exact ⟨live, books.reaped found rfl rfl rfl rfl⟩
  | @launchStore file slot block stores slots heldFile heldSlot =>
      have copying : PlaceBooks { hand with slots := slots }
          { state.fill slot none with
            pendingCopies := state.pendingCopies ++ [.store file slot] }
          live :=
        (books.filled_hand heldSlot none).launched rfl rfl rfl rfl
      exact ⟨live, copying.handedOn (.of_eq rfl) rfl same rfl⟩
  | takeStore reaps first =>
      exact ⟨live, books.landed (base.mem_pendingCopies first) rfl rfl rfl
        rfl⟩
  | dropPreloads stopped =>
      refine ⟨live, books.handedOn (perm_of_weigh fun weight => ?_) rfl
        same rfl⟩
      simp only [weigh_owned, weigh_append, weigh_map,
        QueueTable.pairs_empty, weigh_nil]
      omega
  | dropShared stopped looked nothing unread =>
      have left : slack.pulls = false := calm.resolve_left (by simp [stopped])
      exact ⟨_, books.drop base looked nothing
        (unread.resolve_left (by simp [left]))⟩
  | dropCache stopped cached unread =>
      refine ⟨live, books.recached cached fun weight => ?_⟩
      simp only [weigh_append, weigh_map, StagingDataCache.drain, weigh_nil,
        OrderedDict.values_empty]
      omega
  | submit job new =>
      unfold State.submitJob
      split
      · exact ⟨live, books.handedOn (.of_eq rfl) rfl same rfl⟩
      · exact ⟨live, books.handedOn (.of_eq rfl) rfl same rfl⟩
  | enqueue request =>
      unfold State.enqueuePreload
      split
      · exact ⟨live, books⟩
      · exact ⟨live, books.handedOn (.of_eq rfl) rfl same rfl⟩
  | shutdown =>
      unfold State.shutdown
      split
      · exact ⟨live, books⟩
      · exact ⟨live, books.handedOn (.of_eq rfl) rfl same rfl⟩
  | _ =>
      exact ⟨live, books.untouched rfl rfl rfl rfl rfl rfl rfl rfl rfl
        rfl rfl rfl rfl rfl⟩

end PlaceBooks

end PyKvCache.Ledger
