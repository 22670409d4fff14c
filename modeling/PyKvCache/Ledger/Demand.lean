import PyKvCache.Ledger.Run
import PyKvCache.Library.Inventory

/-!
# The demand for preloads

The tables that count preloads are exact.  With shared preloads a hash is
wanted at most once: by a pending entry that is not cancelled, an open or read
under way, a cached slot, a parked demand, or the handler at work.
-/

namespace PyKvCache.Reactor

open PyKvCache.Library

variable {slotCount : Nat}

/-- The preload of a ring operation. -/
def RingOp.carried : RingOp slotCount → List PreloadInfo
  | .opening (.preload info) => [info]
  | .reading (.preload info) _ _ => [info]
  | _ => []

end PyKvCache.Reactor

namespace PyKvCache.Ledger

open PyKvCache.Library PyKvCache.Staging PyKvCache.Transfer
open PyKvCache.Reactor

variable {slotCount : Nat} {env : Env slotCount} {slack : Slack}
  {hand hand' : Hand slotCount} {state state' : State slotCount}

/-! ## The counted tables -/

/-- The preloads whose file is being opened or read. -/
def carriers (hand : Hand slotCount) (state : State slotCount) :
    List PreloadInfo :=
  hand.preloads ++ state.inflight.values.flatMap RingOp.carried ++
    state.readyFdsPreload.map Prod.snd

/-- Counts the preloads of a hash. -/
def ofHash (hash : BlockHash) (info : PreloadInfo) : Nat :=
  if hash = info.blockHash then 1 else 0

theorem ofHash_self {info : PreloadInfo} :
    ofHash info.blockHash info = 1 := if_pos rfl

theorem ofHash_of_ne {hash : BlockHash} {info : PreloadInfo}
    (different : hash ≠ info.blockHash) : ofHash hash info = 0 :=
  if_neg different

/-- The counts agree with the lists they are kept for. -/
structure CountBooks (hand : Hand slotCount) (state : State slotCount) :
    Prop where
  inflight : ∀ hash, state.preloadInflightHashes.count hash =
    weigh (ofHash hash) (carriers hand state)
  pending : ∀ hash, state.preloadPendingCount.count hash =
    weigh (ofHash hash) state.preloadPending

theorem weigh_carriers {weight : PreloadInfo → Nat} :
    weigh weight (carriers hand state) =
      weigh weight hand.preloads +
        weigh (fun op => weigh weight (RingOp.carried op))
          state.inflight.values +
        weigh (fun entry => weight entry.2) state.readyFdsPreload := by
  simp only [carriers, weigh_append, weigh_map, weigh_flatMap]

namespace CountBooks

private theorem kept (books : CountBooks hand state)
    (carried : ∀ weight, weigh weight (carriers hand' state') =
      weigh weight (carriers hand state))
    (inflight : state'.preloadInflightHashes = state.preloadInflightHashes)
    (pending : state'.preloadPending = state.preloadPending)
    (counted : state'.preloadPendingCount = state.preloadPendingCount) :
    CountBooks hand' state' := by
  refine ⟨fun hash => ?_, fun hash => ?_⟩
  · rw [carried, inflight]
    exact books.inflight hash
  · rw [pending, counted]
    exact books.pending hash

private theorem untouched (books : CountBooks hand state)
    (preloads : hand'.preloads = hand.preloads)
    (operations : state'.inflight = state.inflight)
    (ready : state'.readyFdsPreload = state.readyFdsPreload)
    (inflight : state'.preloadInflightHashes = state.preloadInflightHashes)
    (pending : state'.preloadPending = state.preloadPending)
    (counted : state'.preloadPendingCount = state.preloadPendingCount) :
    CountBooks hand' state' := by
  refine books.kept (fun weight => ?_) inflight pending counted
  unfold carriers
  rw [preloads, operations, ready]

/-- A preload in hand is counted. -/
theorem inflight_pos (books : CountBooks hand state) {info : PreloadInfo}
    {preloads : List PreloadInfo} (held : hand.preloads = info :: preloads) :
    0 < state.preloadInflightHashes.count info.blockHash := by
  rw [books.inflight, weigh_carriers, held, weigh_cons, ofHash_self]
  omega

/-- The first pending preload is counted. -/
theorem pending_pos (books : CountBooks hand state) {info : PreloadInfo}
    {later : List PreloadInfo}
    (first : state.preloadPending = info :: later) :
    0 < state.preloadPendingCount.count info.blockHash := by
  rw [books.pending, first, weigh_cons, ofHash_self]
  omega

private theorem pendingTail (books : CountBooks hand state)
    {info : PreloadInfo} {later : List PreloadInfo}
    (first : state.preloadPending = info :: later) (hash : BlockHash) :
    (state.preloadPendingCount.takeOne info.blockHash).count hash =
      weigh (ofHash hash) later := by
  have before := books.pending hash
  rw [first, weigh_cons] at before
  rw [CountTable.count_takeOne]
  by_cases same : hash = info.blockHash
  · subst same
    rw [ofHash_self] at before
    rw [if_pos rfl]
    omega
  · rw [ofHash_of_ne same] at before
    rw [if_neg same]
    omega

/-- Every move keeps the counts. -/
theorem move (books : CountBooks hand state)
    (moved : Move env slack hand state hand' state') :
    CountBooks hand' state' := by
  cases moved with
  | openLoad held new numbered =>
      refine books.kept (fun weight => ?_) rfl rfl rfl
      simp only [weigh_carriers, OrderedDict.weigh_values_set new,
        RingOp.carried, weigh_nil]
      omega
  | @openPreload info clean tokens userData allowed served room ended new
      numbered =>
      refine ⟨fun hash => ?_, books.pending⟩
      have before := books.inflight hash
      simp only [weigh_carriers, RingOp.carried] at before
      simp only [weigh_carriers, OrderedDict.weigh_values_set new,
        RingOp.carried, weigh_cons, weigh_nil, CountTable.count_addOne]
      by_cases same : hash = info.blockHash
      · subst same
        rw [if_pos rfl, ofHash_self]
        omega
      · rw [if_neg same, ofHash_of_ne same]
        omega
  | readLoad fd heldFile heldSlot new numbered =>
      refine books.kept (fun weight => ?_) rfl rfl rfl
      simp only [weigh_carriers, State.fill,
        OrderedDict.weigh_values_set new, RingOp.carried, weigh_nil]
      omega
  | readPreload fd heldInfo heldSlot new numbered =>
      refine books.kept (fun weight => ?_) rfl rfl rfl
      simp only [weigh_carriers, State.fill, heldInfo,
        OrderedDict.weigh_values_set new, RingOp.carried, weigh_cons,
        weigh_nil]
      omega
  | write fd finalPath tempPath heldFile heldSlot heldUnit new numbered =>
      refine books.kept (fun weight => ?_) rfl rfl rfl
      simp only [weigh_carriers, OrderedDict.weigh_values_set new,
        RingOp.carried, weigh_nil]
      omega
  | close fd new numbered =>
      refine books.kept (fun weight => ?_) rfl rfl rfl
      simp only [weigh_carriers, OrderedDict.weigh_values_set new,
        RingOp.carried, weigh_nil]
      omega
  | openedLoad reaps reaped =>
      refine books.kept (fun weight => ?_) rfl rfl rfl
      simp only [weigh_carriers, OrderedDict.weigh_values_erase reaped,
        RingOp.carried, weigh_nil]
      omega
  | openedPreload reaps reaped =>
      refine books.kept (fun weight => ?_) rfl rfl rfl
      simp only [weigh_carriers, OrderedDict.weigh_values_erase reaped,
        RingOp.carried, weigh_cons, weigh_nil]
      omega
  | doneLoad reaps reaped =>
      refine books.kept (fun weight => ?_) rfl rfl rfl
      simp only [weigh_carriers, OrderedDict.weigh_values_erase reaped,
        RingOp.carried, weigh_nil]
      omega
  | donePreload reaps reaped =>
      refine books.kept (fun weight => ?_) rfl rfl rfl
      simp only [weigh_carriers, OrderedDict.weigh_values_erase reaped,
        RingOp.carried, weigh_cons, weigh_nil]
      omega
  | doneWrite reaps reaped =>
      refine books.kept (fun weight => ?_) rfl rfl rfl
      simp only [weigh_carriers, OrderedDict.weigh_values_erase reaped,
        RingOp.carried, weigh_nil]
      omega
  | doneClose reaps reaped =>
      refine books.kept (fun weight => ?_) rfl rfl rfl
      simp only [weigh_carriers, OrderedDict.weigh_values_erase reaped,
        RingOp.carried, weigh_nil]
      omega
  | readyPreload fd held =>
      refine books.kept (fun weight => ?_) rfl rfl rfl
      simp only [weigh_carriers, held, weigh_append, weigh_cons, weigh_nil]
      omega
  | takePreloadFd first =>
      refine books.kept (fun weight => ?_) rfl rfl rfl
      simp only [weigh_carriers, first, weigh_cons]
      omega
  | @preloadDone info preloads clean held unawaited =>
      refine ⟨fun hash => ?_, books.pending⟩
      have before := books.inflight hash
      simp only [weigh_carriers, held, weigh_cons] at before
      simp only [weigh_carriers, CountTable.count_takeOne]
      by_cases same : hash = info.blockHash
      · subst same
        rw [ofHash_self] at before
        rw [if_pos rfl]
        omega
      · rw [ofHash_of_ne same] at before
        rw [if_neg same]
        omega
  | @pendingPush info clean tokens allowed =>
      refine ⟨books.inflight, fun hash => ?_⟩
      have before := books.pending hash
      simp only [weigh_append, weigh_cons, weigh_nil,
        CountTable.count_addOne]
      by_cases same : hash = info.blockHash
      · subst same
        rw [if_pos rfl, ofHash_self]
        omega
      · rw [if_neg same, ofHash_of_ne same]
        omega
  | pendingDrop first cancelled =>
      exact ⟨books.inflight, books.pendingTail first⟩
  | pendingTake first live =>
      exact ⟨books.inflight, books.pendingTail first⟩
  | clear stopped => exact ⟨books.inflight, fun _ => rfl⟩
  | submit job new =>
      unfold State.submitJob
      split
      · exact books.untouched rfl rfl rfl rfl rfl rfl
      · exact books.untouched rfl rfl rfl rfl rfl rfl
  | enqueue request =>
      unfold State.enqueuePreload
      split
      · exact books
      · exact books.untouched rfl rfl rfl rfl rfl rfl
  | shutdown =>
      unfold State.shutdown
      split
      · exact books
      · exact books.untouched rfl rfl rfl rfl rfl rfl
  | _ => exact books.untouched rfl rfl rfl rfl rfl rfl

end CountBooks

/-! ## At most one demand for a hash -/

/-- How often a hash is wanted and awaited.  Parked demands count once for all
of a hash; `clean` are the tokens whose demand nobody has cancelled. -/
structure Tally where
  pending : Nat
  cancelled : Nat
  inflight : Nat
  cached : Nat
  blocked : Nat
  missing : Nat
  tokens : Nat
  clean : Nat
  waiting : Nat
  promised : Nat
  due : Nat

/-- A hash is wanted at most once, and what was cancelled before its preload
ended is awaited by a load. -/
@[mk_iff]
structure Tally.Single (tally : Tally) : Prop where
  once : tally.pending - tally.cancelled + tally.inflight + tally.cached +
    tally.blocked + tally.missing + tally.tokens ≤ 1
  bounded : tally.cancelled ≤ tally.pending
  cleaned : 0 < tally.cancelled →
    tally.blocked = 0 ∧ tally.missing = 0 ∧ tally.clean = 0
  awaited : 0 < tally.cancelled → 0 < tally.inflight →
    0 < tally.waiting + tally.promised
  served : 0 < tally.due → tally.inflight = 0

/-- Counts the tokens for a hash. -/
def tokenOf (hash : BlockHash) (token : BlockHash × Bool) : Nat :=
  if hash = token.1 then 1 else 0

/-- Counts the clean tokens for a hash. -/
def cleanOf (hash : BlockHash) (token : BlockHash × Bool) : Nat :=
  if hash = token.1 then token.2.toNat else 0

theorem cleanOf_le (hash : BlockHash) (tokens : List (BlockHash × Bool)) :
    weigh (cleanOf hash) tokens ≤ weigh (tokenOf hash) tokens := by
  refine weigh_le fun token => ?_
  unfold cleanOf tokenOf
  split
  · exact token.2.toNat_le
  · exact Nat.le_refl _

/-- The tally of a hash. -/
def tally (hand : Hand slotCount) (state : State slotCount)
    (hash : BlockHash) : Tally where
  pending := state.preloadPendingCount.count hash
  cancelled := state.preloadPendingCancel.count hash
  inflight := state.preloadInflightHashes.count hash
  cached := (state.sharedCached.find? hash).toList.length
  blocked := min 1 (state.preloadBlockedOnWrite.queue hash).length
  missing := min 1 (state.knownMissing.queue hash).length
  tokens := weigh (tokenOf hash) hand.tokens
  clean := weigh (cleanOf hash) hand.tokens
  waiting := (state.preloadWaiters.queue hash).length
  promised := hand.promised.count hash
  due := hand.due.count hash

/-- With shared preloads every hash is wanted at most once. -/
def DemandBooks (env : Env slotCount) (hand : Hand slotCount)
    (state : State slotCount) : Prop :=
  env.sharePreload = true → state.stop = false →
    ∀ hash, (tally hand state hash).Single

namespace DemandBooks

private theorem untouched (books : DemandBooks env hand state)
    (stop : state'.stop = state.stop)
    (same : tally hand' state' = tally hand state) :
    DemandBooks env hand' state' := by
  intro sharing running hash
  rw [same]
  exact books sharing (stop.symm.trans running) hash

private theorem changed (books : DemandBooks env hand state)
    (key : BlockHash) (stop : state'.stop = state.stop)
    (others : ∀ hash, hash ≠ key →
      tally hand' state' hash = tally hand state hash)
    (single : env.sharePreload = true → state.stop = false →
      (tally hand state key).Single → (tally hand' state' key).Single) :
    DemandBooks env hand' state' := by
  intro sharing running hash
  have ran := stop.symm.trans running
  by_cases same : hash = key
  · subst same
    exact single sharing ran (books sharing ran hash)
  · rw [others hash same]
    exact books sharing ran hash

private theorem length_queue_keepNewest (limit : Nat) (hash : BlockHash)
    (table : QueueTable BlockHash PreloadInfo) :
    ((table.keepNewest limit).queue hash).length ≤
      (table.queue hash).length := by
  cases found : (table.keepNewest limit).dict.find? hash with
  | none =>
      rw [QueueTable.find?_eq_none_iff.mp found]
      exact Nat.zero_le _
  | some queue =>
      have before : table.dict.find? hash = some queue :=
        OrderedDict.find?_eq_some_iff.mpr
          (OrderedDict.mem_keepNewest_entries
            (OrderedDict.find?_eq_some_iff.mp found))
      rw [QueueTable.queue, found, QueueTable.queue, before]

theorem hasAnySharedState_eq_false {hash : BlockHash}
    (nothing : state.hasAnySharedState hash = false) :
    state.sharedCached.find? hash = none ∧
      state.preloadInflightHashes.count hash = 0 ∧
      state.preloadPendingCount.count hash = 0 ∧
      state.preloadBlockedOnWrite.queue hash = [] ∧
      state.knownMissing.queue hash = [] := by
  simp only [State.hasAnySharedState, Bool.or_eq_false_iff,
    decide_eq_false_iff_not, Nat.not_lt, Nat.le_zero,
    OrderedDict.contains_eq_false_iff, QueueTable.contains,
    QueueTable.find?_eq_none_iff, and_assoc] at nothing
  exact nothing

private theorem stopped (stop : state'.stop = true) :
    DemandBooks env hand' state' := by
  intro _ running
  rw [stop] at running
  cases running

private theorem multiCopy (owned : env.sharePreload = false) :
    DemandBooks env hand' state' := by
  intro sharing
  rw [owned] at sharing
  cases sharing

/-- The waiters of an ended preload have been served. -/
private theorem served (books : DemandBooks env hand state)
    {hash : BlockHash} {due : List BlockHash} (held : hand.due = hash :: due)
    (stop : state'.stop = state.stop)
    (same : tally hand' state' = tally { hand with due := due } state) :
    DemandBooks env hand' state' := by
  refine books.changed hash stop (fun other different => ?_)
    fun _ _ before => ?_
  · rw [same]
    simp [tally, held, different.symm]
  · rw [same]
    rw [Tally.single_iff] at before ⊢
    simp only [tally, held, List.count_cons_self] at before ⊢
    omega

/-- A demand for a hash that nothing else is wanted for. -/
private theorem demanded (books : DemandBooks env hand state)
    {hash : BlockHash} {clean : Bool}
    (unwanted : state.preloadPendingCount.count hash ≤
      state.preloadPendingCancel.count hash)
    (idle : state.preloadInflightHashes.count hash = 0)
    (uncached : state.sharedCached.find? hash = none)
    (unparked : 0 < state.preloadPendingCancel.count hash ∨
      state.preloadBlockedOnWrite.queue hash = [] ∧
        state.knownMissing.queue hash = [])
    (uncancelled : clean = true →
      state.preloadPendingCancel.count hash = 0)
    (noTokens : hand.tokens = []) :
    DemandBooks env { hand with tokens := (hash, clean) :: hand.tokens }
      state := by
  refine books.changed hash rfl (fun other different => ?_)
    fun _ _ before => ?_
  · simp [tally, different, tokenOf, cleanOf]
  · obtain ⟨unblocked, unmissed⟩ :
        min 1 (state.preloadBlockedOnWrite.queue hash).length = 0 ∧
          min 1 (state.knownMissing.queue hash).length = 0 := by
      rcases unparked with cancelled | ⟨unblocked, unmissed⟩
      · exact ⟨(before.cleaned cancelled).1, (before.cleaned cancelled).2.1⟩
      · rw [unblocked, unmissed]
        exact ⟨rfl, rfl⟩
    rw [Tally.single_iff] at before ⊢
    simp only [tally, uncached, noTokens, weigh_cons, weigh_nil, tokenOf,
      cleanOf, if_true, Option.toList_none, List.length_nil] at before ⊢
    cases clean with
    | false =>
        rw [Bool.toNat_false]
        omega
    | true =>
        have live := uncancelled rfl
        rw [Bool.toNat_true]
        omega

/-- A demand becomes an open of the ring. -/
private theorem opened (books : DemandBooks env hand state)
    {info : PreloadInfo} {clean : Bool} {tokens : List (BlockHash × Bool)}
    (allowed : hand.tokens = (info.blockHash, clean) :: tokens)
    (kept : clean = true ∨ info.blockHash ∈ hand.promised)
    (ended : hand.due = []) (stop : state'.stop = state.stop)
    (same : tally { hand with tokens := tokens } state' =
      tally { hand with tokens := tokens } { state with
        preloadInflightHashes :=
          state.preloadInflightHashes.addOne info.blockHash }) :
    DemandBooks env { hand with tokens := tokens } state' := by
  refine books.changed info.blockHash stop (fun hash different => ?_)
    fun _ _ before => ?_
  · rw [same]
    simp [tally, CountTable.count_addOne, different, allowed, tokenOf,
      cleanOf]
  · have promised : clean = true ∨ 0 < hand.promised.count info.blockHash :=
      kept.imp_right List.count_pos_iff.mpr
    have fewer := cleanOf_le info.blockHash tokens
    rw [same]
    rw [Tally.single_iff] at before ⊢
    simp only [tally, CountTable.count_addOne, if_true, allowed,
      weigh_cons, tokenOf, cleanOf, ended, List.count_nil] at before ⊢
    cases clean with
    | false =>
        simp only [Bool.false_eq_true, false_or] at promised
        omega
    | true =>
        rw [Bool.toNat_true] at before
        omega

/-- A preload that has ended becomes a demand again. -/
private theorem ended (books : DemandBooks env hand state)
    {info : PreloadInfo} {clean : Bool} {preloads : List PreloadInfo}
    {rooms : Nat} {total : Int}
    (counted : 0 < state.preloadInflightHashes.count info.blockHash)
    (unawaited : clean = true →
      state.preloadWaiters.queue info.blockHash = [] ∧ hand.promised = []) :
    DemandBooks env
      { hand with
        preloads := preloads
        tokens := (info.blockHash, clean) :: hand.tokens
        due := info.blockHash :: hand.due
        rooms := rooms }
      { state with
        preloadInflightHashes :=
          state.preloadInflightHashes.takeOne info.blockHash
        preloadInflightTotal := total } := by
  refine books.changed info.blockHash rfl (fun hash different => ?_)
    fun _ _ before => ?_
  · simp [tally, CountTable.count_takeOne, different, tokenOf, cleanOf,
      different.symm]
  · rw [Tally.single_iff] at before ⊢
    simp only [tally, CountTable.count_takeOne, if_true, weigh_cons,
      tokenOf, cleanOf, List.count_cons_self] at before ⊢
    cases clean with
    | false =>
        rw [Bool.toNat_false]
        omega
    | true =>
        obtain ⟨nobody, unpromised⟩ := unawaited rfl
        rw [Bool.toNat_true]
        rw [nobody, unpromised, List.length_nil, List.count_nil] at before
        rw [nobody, unpromised, List.length_nil, List.count_nil]
        omega

/-- A demand is remembered as missing, and the oldest ones are forgotten. -/
private theorem missed (books : DemandBooks env hand state)
    {info : PreloadInfo} {tokens : List (BlockHash × Bool)}
    (allowed : hand.tokens = (info.blockHash, true) :: tokens)
    (limit : Nat) :
    DemandBooks env { hand with tokens := tokens }
      { state with
        knownMissing :=
          ((state.knownMissing.pushBack info.blockHash info).moveToEnd
            info.blockHash).keepNewest limit } := by
  have kept := fun hash => length_queue_keepNewest limit hash
    ((state.knownMissing.pushBack info.blockHash info).moveToEnd
      info.blockHash)
  simp only [QueueTable.queue_moveToEnd, QueueTable.queue_pushBack] at kept
  intro sharing running hash
  have before := books sharing running hash
  have fewer := kept hash
  rw [Tally.single_iff] at before ⊢
  simp only [tally, allowed, weigh_cons] at before ⊢
  by_cases same : hash = info.blockHash
  · subst same
    simp only [tokenOf, cleanOf, if_true, Bool.toNat_true] at before
    omega
  · simp only [if_neg same, tokenOf, cleanOf] at before fewer
    omega

/-- A store that arrives parks the demands that were missing. -/
private theorem rearmed (books : DemandBooks env hand state)
    {producer : String} {hash : BlockHash} {arrived : List BlockHash}
    {counts : CountTable BlockHash} :
    DemandBooks env { hand with arrived := arrived }
      { state with
        knownMissing := state.knownMissing.erase hash
        preloadBlockedOnWrite := state.preloadBlockedOnWrite.extend hash
          (state.rearmed env producer hash)
        storeInflight := counts } := by
  intro sharing running other
  have before := books sharing running other
  have fewer : (state.rearmed env producer hash).length ≤
      (state.knownMissing.queue hash).length := by
    unfold State.rearmed
    rw [if_pos sharing]
    split
    · exact Nat.le_refl _
    · exact Nat.zero_le _
  rw [Tally.single_iff] at before ⊢
  simp only [tally, QueueTable.queue_erase, QueueTable.queue_extend]
    at before ⊢
  by_cases same : other = hash
  · subst same
    simp only [if_true, List.length_append, List.length_nil]
    omega
  · simp only [if_neg same]
    exact before

/-- The demands parked behind a store that has ended become one demand. -/
private theorem unparked (books : DemandBooks env hand state)
    {hash : BlockHash} {releases : List FileRef}
    {counts : CountTable BlockHash} :
    DemandBooks env
      { hand with
        releases := releases
        tokens :=
          if state.preloadBlockedOnWrite.queue hash = [] then hand.tokens
          else (hash, true) :: hand.tokens }
      { state with
        storeInflight := counts
        preloadBlockedOnWrite :=
          state.preloadBlockedOnWrite.erase hash } := by
  refine books.changed hash rfl (fun other different => ?_)
    fun _ _ before => ?_
  · simp only [tally, QueueTable.queue_erase, if_neg different]
    split
    · rfl
    · simp [tokenOf, cleanOf, different]
  · rw [Tally.single_iff] at before ⊢
    simp only [tally, QueueTable.queue_erase, if_true, List.length_nil]
      at before ⊢
    split
    · omega
    next parked =>
      have queued := List.length_pos_of_ne_nil parked
      simp only [weigh_cons, tokenOf, cleanOf, if_true, Bool.toNat_true]
      omega

/-- Every move keeps the demands single. -/
theorem move (books : DemandBooks env hand state)
    (counts : CountBooks hand state)
    (moved : Move env slack hand state hand' state') :
    DemandBooks env hand' state' := by
  cases moved with
  | preloadPush held ended unawaited => exact books.served ended rfl rfl
  | @sharedCache slot clean tokens rooms sharing held allowed =>
      refine books.changed slot.blockHash rfl (fun hash different => ?_)
        fun _ _ before => ?_
      · simp [tally, State.updateShared, OrderedDict.find?_set, different,
          allowed, tokenOf, cleanOf]
      · rw [Tally.single_iff] at before ⊢
        simp only [tally, State.updateShared, OrderedDict.find?_set, if_true,
          allowed, weigh_cons, tokenOf, cleanOf, Option.toList_some,
          List.length_singleton] at before ⊢
        omega
  | @sharedUncache slot cached =>
      refine books.changed slot.blockHash rfl (fun hash different => ?_)
        fun _ _ before => ?_
      · simp [tally, State.updateShared, OrderedDict.find?_erase, different]
      · rw [Tally.single_iff] at before ⊢
        simp only [tally, State.updateShared, OrderedDict.find?_erase,
          if_true, Option.toList_none, List.length_nil] at before ⊢
        omega
  | @wait file files held room =>
      refine books.changed file.hash rfl (fun hash different => ?_)
        fun _ _ before => ?_
      · simp [tally, QueueTable.queue_pushBack, different]
      · rw [Tally.single_iff] at before ⊢
        simp only [tally, QueueTable.queue_pushBack, if_true,
          List.length_append, List.length_singleton] at before ⊢
        omega
  | @wake hash file later ended queued =>
      intro sharing running other
      have before := books sharing running other
      have due : 0 < hand.due.count hash := by
        rcases ended with due | ⟨_, owned⟩
        · exact List.count_pos_iff.mpr due
        · rw [owned] at sharing
          cases sharing
      by_cases same : other = hash
      · subst same
        rw [Tally.single_iff] at before ⊢
        simp only [tally, dueAfter, sharing, if_true] at before ⊢
        omega
      · simpa [tally, QueueTable.queue_keep, same, dueAfter, sharing]
          using before
  | openPreload allowed kept room ended new numbered =>
      exact books.opened allowed kept ended rfl rfl
  | preloadDone clean held unawaited =>
      exact books.ended (counts.inflight_pos held) unawaited
  | dueDone held unawaited => exact books.served held rfl rfl
  | @pendingPush info clean tokens allowed =>
      refine books.changed info.blockHash rfl (fun hash different => ?_)
        fun _ _ before => ?_
      · simp [tally, CountTable.count_addOne, different, allowed, tokenOf,
          cleanOf]
      · rw [Tally.single_iff] at before ⊢
        simp only [tally, CountTable.count_addOne, if_true, allowed,
          weigh_cons, tokenOf, cleanOf] at before ⊢
        omega
  | @pendingDrop info later first cancelled =>
      have counted := counts.pending_pos first
      refine books.changed info.blockHash rfl (fun hash different => ?_)
        fun _ _ before => ?_
      · simp [tally, CountTable.count_takeOne, different]
      · rw [Tally.single_iff] at before ⊢
        simp only [tally, CountTable.count_takeOne, if_true] at before ⊢
        omega
  | @pendingTake info later first live =>
      have counted := counts.pending_pos first
      refine books.changed info.blockHash rfl (fun hash different => ?_)
        fun _ _ before => ?_
      · simp [tally, CountTable.count_takeOne, different, tokenOf, cleanOf]
      · rw [Tally.single_iff] at before ⊢
        simp only [tally, CountTable.count_takeOne, if_true, weigh_cons,
          tokenOf, cleanOf, Bool.toNat_true] at before ⊢
        omega
  | @pendingCancel hash live =>
      refine books.changed hash rfl (fun other different => ?_)
        fun _ _ before => ?_
      · simp [tally, CountTable.count_addOne, different, tokenOf, cleanOf]
      · rw [Tally.single_iff] at before ⊢
        have fewer := cleanOf_le hash hand.tokens
        simp only [tally, CountTable.count_addOne, if_true, weigh_cons]
          at before ⊢
        simp only [tokenOf, cleanOf, if_true, Bool.toNat_false]
        omega
  | @tokenDrop token tokens held =>
      refine books.changed token.1 rfl (fun other different => ?_)
        fun _ _ before => ?_
      · simp [tally, held, different, tokenOf, cleanOf]
      · rw [Tally.single_iff] at before ⊢
        simp only [tally, held, if_true, weigh_cons, tokenOf, cleanOf]
          at before ⊢
        omega
  | tokenOwned hash owned => exact multiCopy owned
  | @tokenNew hash nothing noTokens =>
      obtain ⟨uncached, idle, unwanted, unblocked, unmissed⟩ :=
        hasAnySharedState_eq_false nothing
      intro sharing running
      have bounded := (books sharing running hash).bounded
      simp only [tally, unwanted, Nat.le_zero] at bounded
      exact books.demanded (by omega) idle uncached
        (Or.inr ⟨unblocked, unmissed⟩) (fun _ => bounded) noTokens sharing
        running
  | tokenPromoted sharing uncached idle pending cancelled noTokens =>
      exact books.demanded cancelled idle uncached (Or.inl (by omega))
        Bool.noConfusion noTokens
  | promise hash =>
      refine books.changed hash rfl (fun other different => ?_)
        fun _ _ before => ?_
      · simp [tally, different.symm]
      · rw [Tally.single_iff] at before ⊢
        simp only [tally, List.count_cons_self] at before ⊢
        omega
  | @fulfil hash promised held waiting =>
      refine books.changed hash rfl (fun other different => ?_)
        fun _ _ before => ?_
      · simp [tally, held, different.symm]
      · have queued := List.length_pos_of_ne_nil waiting
        rw [Tally.single_iff] at before ⊢
        simp only [tally, held, List.count_cons_self] at before ⊢
        omega
  | @park info tokens allowed storing =>
      refine books.changed info.blockHash rfl (fun hash different => ?_)
        fun _ _ before => ?_
      · simp [tally, QueueTable.queue_pushBack, different, allowed, tokenOf,
          cleanOf]
      · rw [Tally.single_iff] at before ⊢
        simp only [tally, QueueTable.queue_pushBack, if_true, allowed,
          weigh_cons, tokenOf, cleanOf, Bool.toNat_true, List.length_append,
          List.length_singleton] at before ⊢
        omega
  | miss allowed => exact books.missed allowed _
  | missJoin info owned => exact multiCopy owned
  | forget hash =>
      refine books.changed hash rfl (fun other different => ?_)
        fun _ _ before => ?_
      · simp [tally, QueueTable.queue_erase, different]
      · rw [Tally.single_iff] at before ⊢
        simp only [tally, QueueTable.queue_erase, if_true, List.length_nil]
          at before ⊢
        omega
  | storeEnded held last => exact books.unparked
  | arrive held storing => exact books.rearmed
  | wakeAll halted empty => exact stopped halted
  | dropShared halted => exact stopped halted
  | clear halted => exact stopped halted
  | stop => exact stopped rfl
  | submit job new =>
      unfold State.submitJob
      split
      · exact books.untouched rfl rfl
      · exact books.untouched rfl rfl
  | enqueue request =>
      unfold State.enqueuePreload
      split
      · exact books
      · exact books.untouched rfl rfl
  | shutdown =>
      unfold State.shutdown
      split
      · exact books
      · exact books.untouched rfl rfl
  | _ => exact books.untouched rfl rfl

/-- While there is a token for a hash, no shared slot is registered for it. -/
theorem uncached_of_token (books : DemandBooks env hand state)
    (sharing : env.sharePreload = true) (running : state.stop = false)
    {hash : BlockHash} {clean : Bool} {tokens : List (BlockHash × Bool)}
    (held : hand.tokens = (hash, clean) :: tokens) :
    state.sharedCached.find? hash = none := by
  have once := (books sharing running hash).once
  simp only [tally, held, weigh_cons, tokenOf, if_true] at once
  cases found : state.sharedCached.find? hash with
  | none => rfl
  | some slot =>
      rw [found, Option.toList_some, List.length_singleton] at once
      omega

end DemandBooks

end PyKvCache.Ledger
