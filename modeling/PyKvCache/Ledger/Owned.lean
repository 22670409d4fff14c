import PyKvCache.Ledger.Demand

/-!
# Owned demands

The demand count of a hash against the requests that own a demand for it, the
shared slots against the demands they are kept for, and the loads served
against the demands of their requests.
-/

namespace PyKvCache.Reactor

open PyKvCache.Staging PyKvCache.Library

variable {slotCount : Nat}

/-- How many requests own a demand for a hash. -/
def State.ownerCount (state : State slotCount) (hash : BlockHash) : Nat :=
  state.preloadOwned.entries.countP fun entry => entry.1.2 = hash

end PyKvCache.Reactor

namespace PyKvCache.Ledger

open PyKvCache.Library PyKvCache.Staging PyKvCache.Transfer
open PyKvCache.Reactor

variable {slotCount : Nat} {env : Env slotCount} {slack : Slack}
  {hand hand' : Hand slotCount} {state state' : State slotCount}

/-! ## Counts and owners -/

section Pairs

variable {owned : OrderedDict (String × BlockHash) Unit}
  {reqId : String} {hash other : BlockHash}

private theorem countP_set
    (new : owned.contains (reqId, hash) = false) :
    (owned.set (reqId, hash) ()).entries.countP
        (fun entry => entry.1.2 = other) =
      owned.entries.countP (fun entry => entry.1.2 = other) +
        if hash = other then 1 else 0 := by
  have missing := OrderedDict.contains_eq_false_iff.mp new
  rw [OrderedDict.entries_set_perm.countP_eq,
    OrderedDict.erase_of_find?_none missing, List.countP_cons]
  simp only [decide_eq_true_eq]

private theorem countP_erase
    (present : owned.contains (reqId, hash) = true) :
    owned.entries.countP (fun entry => entry.1.2 = other) =
      (owned.erase (reqId, hash)).entries.countP
          (fun entry => entry.1.2 = other) +
        if hash = other then 1 else 0 := by
  obtain ⟨_, found⟩ := OrderedDict.contains_iff.mp present
  rw [(OrderedDict.entries_perm_erase found).countP_eq, List.countP_cons]
  simp only [decide_eq_true_eq]

private theorem countP_withoutHash :
    (withoutHash owned hash).entries.countP
        (fun entry => entry.1.2 = other) =
      if other = hash then 0
      else owned.entries.countP fun entry => entry.1.2 = other := by
  unfold withoutHash
  rw [List.countP_filter]
  by_cases same : other = hash
  · subst same
    rw [if_pos rfl, List.countP_eq_zero]
    simp
  · rw [if_neg same]
    refine List.countP_congr fun entry _ => ?_
    by_cases equal : entry.1.2 = other
    · simp [equal, same]
    · simp [equal]

end Pairs

/-- With shared preloads a hash counts as many demands as requests own one,
unless the oldest demand may be dropped uncounted. -/
def OwnBooks (env : Env slotCount) (slack : Slack)
    (state : State slotCount) : Prop :=
  env.sharePreload = true → slack.forgets = false →
    ∀ hash, state.preloadRefcount.count hash = state.ownerCount hash

namespace OwnBooks

private theorem untouched (books : OwnBooks env slack state)
    (counts : state'.preloadRefcount = state.preloadRefcount)
    (owned : state'.preloadOwned = state.preloadOwned) :
    OwnBooks env slack state' := by
  intro sharing remembers hash
  unfold State.ownerCount
  rw [counts, owned]
  exact books sharing remembers hash

/-- Every move keeps the counts. -/
theorem move (books : OwnBooks env slack state)
    (moved : Move env slack hand state hand' state') :
    OwnBooks env slack state' := by
  cases moved with
  | @demandAdd reqId key sharing allowed new room =>
      intro sharing remembers hash
      have before := books sharing remembers hash
      have fits : state.preloadOwned.entries.length < Env.maxPreloadOwned :=
        room.resolve_left fun forgets => by
          rw [remembers] at forgets
          cases forgets
      have missing := OrderedDict.contains_eq_false_iff.mp new
      have kept : (state.preloadOwned.set (reqId, key) ()).keepNewest
          Env.maxPreloadOwned = state.preloadOwned.set (reqId, key) () := by
        apply OrderedDict.keepNewest_eq_self
        rw [OrderedDict.length_set_of_none missing]
        exact fits
      unfold State.ownerCount at before ⊢
      simp only [kept, countP_set new, CountTable.count_addOne]
      by_cases same : hash = key
      · subst same
        rw [if_pos rfl, if_pos rfl, before]
      · rw [if_neg same, if_neg (Ne.symm same), before, Nat.add_zero]
  | @demandDrop reqId key owned uncached =>
      intro sharing remembers hash
      have before := books sharing remembers hash
      unfold State.ownerCount at before ⊢
      rw [countP_erase owned] at before
      simp only [CountTable.count_takeOne]
      by_cases same : hash = key
      · subst same
        rw [if_pos rfl] at before ⊢
        omega
      · rw [if_neg same]
        rw [if_neg (Ne.symm same)] at before
        exact before
  | @demandPurge key uncached =>
      intro sharing remembers hash
      have before := books sharing remembers hash
      unfold State.ownerCount at before ⊢
      simp only [CountTable.count_erase, countP_withoutHash]
      rw [before]
  | ownCopies multi owned =>
      intro sharing
      rw [multi] at sharing
      cases sharing
  | clear stopped emptied => exact fun _ _ _ => rfl
  | submit job new =>
      unfold State.submitJob
      split
      · exact books.untouched rfl rfl
      · exact books.untouched rfl rfl
  | enqueue request =>
      unfold State.enqueuePreload
      split
      · exact books
      · exact books.untouched rfl rfl
  | shutdown =>
      unfold State.shutdown
      split
      · exact books
      · exact books.untouched rfl rfl
  | _ => exact books.untouched rfl rfl

end OwnBooks

/-! ## Slots and demands -/

/-- With shared preloads every registered slot is demanded. -/
def KeptBooks (env : Env slotCount) (state : State slotCount) : Prop :=
  env.sharePreload = true → ∀ hash slot,
    state.sharedCached.find? hash = some slot →
      0 < state.preloadRefcount.count hash

namespace KeptBooks

private theorem untouched (books : KeptBooks env state)
    (counts : state'.preloadRefcount = state.preloadRefcount)
    (cached : state'.sharedCached = state.sharedCached) :
    KeptBooks env state' := by
  intro sharing hash slot
  rw [counts, cached]
  exact books sharing hash slot

/-- Every move keeps the slots demanded. -/
theorem move (books : KeptBooks env state)
    (demands : DemandBooks env hand state)
    (moved : Move env slack hand state hand' state') :
    KeptBooks env state' := by
  cases moved with
  | @sharedCache slot clean tokens rooms sharing held allowed demanded =>
      intro sharing hash other found
      simp only [OrderedDict.find?_set] at found
      by_cases same : hash = slot.blockHash
      · subst same
        exact demanded
      · rw [if_neg same] at found
        exact books sharing hash other found
  | @sharedUncache slot cached =>
      intro sharing hash other found
      have kept : (state.sharedCached.erase slot.blockHash).find? hash =
        some other := found
      rw [OrderedDict.find?_erase] at kept
      split at kept
      · cases kept
      · exact books sharing hash other kept
  | @demandAdd reqId key sharing allowed new room =>
      intro sharing hash slot found
      have before := books sharing hash slot found
      simp only [CountTable.count_addOne]
      split <;> omega
  | @demandDrop reqId key owned uncached =>
      intro sharing hash slot found
      have before := books sharing hash slot found
      simp only [CountTable.count_takeOne]
      by_cases same : hash = key
      · subst same
        rcases uncached with more | unfound
        · rw [if_pos rfl]
          omega
        · have found : state.sharedCached.find? hash = some slot := found
          rw [unfound] at found
          cases found
      · rw [if_neg same]
        exact before
  | @demandPurge key uncached =>
      intro sharing hash slot found
      have before := books sharing hash slot found
      simp only [CountTable.count_erase]
      by_cases same : hash = key
      · subst same
        have unfound : state.sharedCached.find? hash = none := by
          rcases uncached with unfound | ⟨running, clean, tokens, held⟩
          · exact unfound
          · exact demands.uncached_of_token sharing running held
        have found : state.sharedCached.find? hash = some slot := found
        rw [unfound] at found
        cases found
      · rw [if_neg same]
        exact before
  | dropShared stopped =>
      intro sharing hash slot found
      cases found
  | clear stopped emptied =>
      intro sharing hash slot found
      have found : state.sharedCached.find? hash = some slot := found
      rw [emptied] at found
      cases found
  | submit job new =>
      unfold State.submitJob
      split
      · exact books.untouched rfl rfl
      · exact books.untouched rfl rfl
  | enqueue request =>
      unfold State.enqueuePreload
      split
      · exact books
      · exact books.untouched rfl rfl
  | shutdown =>
      unfold State.shutdown
      split
      · exact books
      · exact books.untouched rfl rfl
  | _ => exact books.untouched rfl rfl

end KeptBooks

/-! ## Loads and demands -/

/-- Since `start`, with no demand taken in, a load copy is queued only after
its request has given its demand back, or is about to. -/
def ServedBooks (start : State slotCount) (hand : Hand slotCount)
    (state : State slotCount) : Prop :=
  ∀ ready ∈ state.copyReady, ready ∈ start.copyReady ∨
    ready.copy.file ∈ hand.served ∨
      state.preloadOwned.contains
        (ready.copy.file.job.reqId, ready.copy.file.hash) = false

namespace ServedBooks

variable {start : State slotCount}

private theorem untouched (books : ServedBooks start hand state)
    (ready : state'.copyReady = state.copyReady)
    (served : hand'.served = hand.served)
    (owned : state'.preloadOwned = state.preloadOwned) :
    ServedBooks start hand' state' := by
  intro copy member
  rw [ready] at member
  rw [served, owned]
  exact books copy member

/-- A copy is queued, and its load has still to give its demand back. -/
private theorem queued (books : ServedBooks start hand state)
    {copy : ReadyCopy slotCount}
    (ready : state'.copyReady = state.copyReady ++ [copy])
    (served : hand'.served = copy.copy.file :: hand.served)
    (owned : state'.preloadOwned = state.preloadOwned) :
    ServedBooks start hand' state' := by
  intro other member
  rw [ready, List.mem_append, List.mem_singleton] at member
  rw [served, owned]
  rcases member with before | rfl
  · exact (books other before).imp_right
      (Or.imp_left (List.mem_cons_of_mem _))
  · exact Or.inr (Or.inl List.mem_cons_self)

/-- Demands leave. -/
private theorem dropped (books : ServedBooks start hand state)
    (ready : state'.copyReady = state.copyReady)
    (served : hand'.served = hand.served)
    (fewer : ∀ pair, state.preloadOwned.contains pair = false →
      state'.preloadOwned.contains pair = false) :
    ServedBooks start hand' state' := by
  intro copy member
  rw [ready] at member
  rw [served]
  exact (books copy member).imp_right (Or.imp_right (fewer _))

/-- Every move keeps the books of a step that takes no demand in and lets no
load keep its own. -/
theorem move (sharing : env.sharePreload = true)
    (admits : slack.demands = false) (returns : slack.retains = false)
    (books : ServedBooks start hand state)
    (moved : Move env slack hand state hand' state') :
    ServedBooks start hand' state' := by
  cases moved with
  | queueOwn mapping heldFile heldSlot => exact books.queued rfl rfl rfl
  | queueShared mapping heldFile heldClaim same =>
      exact books.queued rfl rfl rfl
  | queueCache mapping heldFile heldPin same =>
      exact books.queued rfl rfl rfl
  | @serve file served held given =>
      intro copy member
      have unowned : state.preloadOwned.contains
          (file.job.reqId, file.hash) = false := by
        rcases given with retains | owned | unowned
        · rw [returns] at retains
          cases retains
        · rw [sharing] at owned
          cases owned
        · exact unowned
      rcases books copy member with before | inHand | gone
      · exact Or.inl before
      · rw [held, List.mem_cons] at inHand
        rcases inHand with same | later
        · rw [same]
          exact Or.inr (Or.inr unowned)
        · exact Or.inr (Or.inl later)
      · exact Or.inr (Or.inr gone)
  | takeReady reaps empty =>
      intro copy member
      cases member
  | demandAdd sharing allowed =>
      rw [admits] at allowed
      cases allowed
  | @demandDrop reqId hash owned uncached =>
      refine books.dropped rfl rfl fun pair unowned => ?_
      rw [OrderedDict.contains_eq_false_iff] at unowned ⊢
      simp only [OrderedDict.find?_erase, unowned, ite_self]
  | @demandPurge hash uncached =>
      refine books.dropped rfl rfl fun pair unowned => ?_
      rw [OrderedDict.contains_eq_false_iff,
        OrderedDict.find?_eq_none_iff] at unowned ⊢
      intro member
      obtain ⟨entry, inRest, same⟩ := List.mem_map.mp member
      exact unowned (List.mem_map.mpr
        ⟨entry, List.mem_of_mem_filter inRest, same⟩)
  | ownCopies multi owned =>
      rw [multi] at sharing
      cases sharing
  | clear stopped emptied =>
      exact books.dropped rfl rfl fun _ _ => rfl
  | submit job new =>
      unfold State.submitJob
      split
      · exact books.untouched rfl rfl rfl
      · exact books.untouched rfl rfl rfl
  | enqueue request =>
      unfold State.enqueuePreload
      split
      · exact books
      · exact books.untouched rfl rfl rfl
  | shutdown =>
      unfold State.shutdown
      split
      · exact books
      · exact books.untouched rfl rfl rfl
  | _ => exact books.untouched rfl rfl rfl

end ServedBooks

end PyKvCache.Ledger
