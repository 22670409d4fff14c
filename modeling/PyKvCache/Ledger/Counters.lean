import PyKvCache.Ledger.Demand

/-!
# The preload counters

What the counters of the preloads say beside the counts of `CountBooks`: only
pending entries are cancelled, the totals are sums, and whoever waits for a
preload waits for one that is under way.
-/

namespace PyKvCache.Ledger

open PyKvCache.Library PyKvCache.Staging PyKvCache.Transfer
open PyKvCache.Reactor

variable {slotCount : Nat} {env : Env slotCount} {slack : Slack}
  {hand hand' : Hand slotCount} {state state' : State slotCount}

/-! ## Cancelled entries -/

/-- No more entries of a hash are cancelled than are pending. -/
def CancelBooks (state : State slotCount) : Prop :=
  ∀ hash, state.preloadPendingCancel.count hash ≤
    state.preloadPendingCount.count hash

namespace CancelBooks

private theorem untouched (books : CancelBooks state)
    (pending : state'.preloadPendingCount = state.preloadPendingCount)
    (cancelled : state'.preloadPendingCancel = state.preloadPendingCancel) :
    CancelBooks state' := by
  intro hash
  rw [pending, cancelled]
  exact books hash

/-- Every move cancels pending entries only. -/
theorem move (books : CancelBooks state)
    (moved : Move env slack hand state hand' state') :
    CancelBooks state' := by
  cases moved with
  | @pendingPush info clean tokens allowed =>
      intro hash
      have before := books hash
      by_cases same : hash = info.blockHash
      · subst same
        simp only [CountTable.count_addOne, if_true]
        omega
      · simpa only [CountTable.count_addOne, if_neg same] using before
  | @pendingDrop info later first cancelled =>
      intro hash
      have before := books hash
      by_cases same : hash = info.blockHash
      · subst same
        simp only [CountTable.count_takeOne, if_true]
        omega
      · simpa only [CountTable.count_takeOne, if_neg same] using before
  | @pendingTake info later first live =>
      intro hash
      have before := books hash
      by_cases same : hash = info.blockHash
      · subst same
        simp only [CountTable.count_takeOne, if_true]
        omega
      · simpa only [CountTable.count_takeOne, if_neg same] using before
  | @pendingCancel hash live =>
      intro other
      have before := books other
      by_cases same : other = hash
      · subst same
        simp only [CountTable.count_addOne, if_true]
        omega
      · simpa only [CountTable.count_addOne, if_neg same] using before
  | clear stopped => exact fun _ => Nat.le_refl _
  | submit job new =>
      unfold State.submitJob
      split
      · exact books.untouched rfl rfl
      · exact books.untouched rfl rfl
  | enqueue request =>
      unfold State.enqueuePreload
      split
      · exact books
      · exact books.untouched rfl rfl
  | shutdown =>
      unfold State.shutdown
      split
      · exact books
      · exact books.untouched rfl rfl
  | _ => exact books.untouched rfl rfl

end CancelBooks

/-! ## Waiters -/

/-- Loads wait for preloads that are under way, or that have just ended and
still owe them their block.  A shared preload serves all that wait for its
hash, any other preload serves one. -/
structure WaitBooks (env : Env slotCount) (slack : Slack)
    (hand : Hand slotCount) (state : State slotCount) : Prop where
  shared : env.sharePreload = true → slack.strands = false →
    ∀ hash, state.preloadWaiters.queue hash ≠ [] →
      0 < state.preloadInflightHashes.count hash ∨ hash ∈ hand.due
  owned : env.sharePreload = false → ∀ hash,
    (state.preloadWaiters.queue hash).length ≤
      state.preloadInflightHashes.count hash + hand.due.count hash

namespace WaitBooks

private theorem untouched (books : WaitBooks env slack hand state)
    (due : hand'.due = hand.due)
    (waiters : state'.preloadWaiters = state.preloadWaiters)
    (inflight :
      state'.preloadInflightHashes = state.preloadInflightHashes) :
    WaitBooks env slack hand' state' := by
  refine ⟨fun sharing joined hash => ?_, fun owned hash => ?_⟩
  · rw [due, waiters, inflight]
    exact books.shared sharing joined hash
  · rw [due, waiters, inflight]
    exact books.owned owned hash

/-- A hash that nobody waits for is no longer due. -/
private theorem settled (books : WaitBooks env slack hand state)
    {key : BlockHash} {due : List BlockHash}
    (ended : hand.due = key :: due)
    (unawaited : state.preloadWaiters.queue key = [])
    (rest : hand'.due = due)
    (waiters : state'.preloadWaiters = state.preloadWaiters)
    (inflight :
      state'.preloadInflightHashes = state.preloadInflightHashes) :
    WaitBooks env slack hand' state' := by
  refine ⟨fun sharing joined hash waiting => ?_, fun owned hash => ?_⟩
  · rw [waiters] at waiting
    rw [rest, inflight]
    have different : hash ≠ key := by
      rintro rfl
      exact waiting unawaited
    refine (books.shared sharing joined hash waiting).imp_right fun old => ?_
    rw [ended] at old
    exact (List.mem_cons.mp old).resolve_left different
  · rw [rest, waiters, inflight]
    have before := books.owned owned hash
    rw [ended] at before
    by_cases same : hash = key
    · subst same
      rw [unawaited]
      exact Nat.zero_le _
    · rwa [List.count_cons_of_ne (Ne.symm same)] at before

/-- Every move keeps what is waited for under way. -/
theorem move (books : WaitBooks env slack hand state)
    (moved : Move env slack hand state hand' state') :
    WaitBooks env slack hand' state' := by
  cases moved with
  | preloadPush held ended unawaited room =>
      exact books.settled ended unawaited rfl rfl rfl
  | dueDone held unawaited =>
      exact books.settled held unawaited rfl rfl rfl
  | @wait file files held room =>
      refine ⟨fun sharing joined hash waiting => ?_, fun owned hash => ?_⟩
      · by_cases same : hash = file.hash
        · subst same
          rcases room with ⟨_, strands⟩ | room
          · rw [joined] at strands
            cases strands
          · unfold WaitRoom at room
            rw [if_pos sharing] at room
            exact Or.inl room
        · simp only [QueueTable.queue_pushBack, if_neg same] at waiting
          exact books.shared sharing joined hash waiting
      · have before := books.owned owned hash
        by_cases same : hash = file.hash
        · subst same
          have less : WaitRoom env state file.hash := by
            refine room.resolve_left fun stranded => ?_
            rw [owned] at stranded
            cases stranded.1
          unfold WaitRoom at less
          rw [owned, if_neg Bool.false_ne_true] at less
          simp only [QueueTable.queue_pushBack, if_true, List.length_append,
            List.length_singleton]
          omega
        · simpa only [QueueTable.queue_pushBack, if_neg same] using before
  | @wake key file later ended queued =>
      refine ⟨fun sharing joined hash waiting => ?_, fun owned hash => ?_⟩
      · have before : state.preloadWaiters.queue hash ≠ [] := by
          rw [QueueTable.queue_keep] at waiting
          by_cases same : hash = key
          · subst same
            rw [queued]
            exact List.cons_ne_nil _ _
          · rwa [if_neg same] at waiting
        simp only [dueAfter, sharing, if_true]
        exact books.shared sharing joined hash before
      · have before := books.owned owned hash
        simp only [dueAfter, owned, Bool.false_eq_true, if_false,
          QueueTable.queue_keep]
        by_cases same : hash = key
        · subst same
          rw [queued, List.length_cons] at before
          rw [if_pos rfl, List.count_erase_self]
          omega
        · rwa [if_neg same, List.count_erase_of_ne same]
  | wakeAll stopped empty =>
      exact ⟨fun _ _ _ waiting => absurd rfl waiting,
        fun _ _ => Nat.zero_le _⟩
  | @openPreload info clean tokens userData allowed served room ended =>
      refine ⟨fun sharing joined hash waiting => ?_, fun owned hash => ?_⟩
      · simp only [CountTable.count_addOne]
        refine (books.shared sharing joined hash waiting).imp_left
          fun counted => ?_
        split
        · exact Nat.succ_pos _
        · exact counted
      · have before := books.owned owned hash
        simp only [CountTable.count_addOne]
        by_cases same : hash = info.blockHash
        · subst same
          rw [if_pos rfl]
          omega
        · rwa [if_neg same]
  | @preloadDone info preloads clean held unawaited =>
      refine ⟨fun sharing joined hash waiting => ?_, fun owned hash => ?_⟩
      · by_cases same : hash = info.blockHash
        · exact Or.inr (same ▸ List.mem_cons_self)
        · simp only [CountTable.count_takeOne, if_neg same]
          exact (books.shared sharing joined hash waiting).imp_right
            (List.mem_cons_of_mem _)
      · have before := books.owned owned hash
        simp only [CountTable.count_takeOne]
        by_cases same : hash = info.blockHash
        · subst same
          rw [if_pos rfl, List.count_cons_self]
          omega
        · rwa [if_neg same, List.count_cons_of_ne (Ne.symm same)]
  | submit job new =>
      unfold State.submitJob
      split
      · exact books.untouched rfl rfl rfl
      · exact books.untouched rfl rfl rfl
  | enqueue request =>
      unfold State.enqueuePreload
      split
      · exact books
      · exact books.untouched rfl rfl rfl
  | shutdown =>
      unfold State.shutdown
      split
      · exact books
      · exact books.untouched rfl rfl rfl
  | _ => exact books.untouched rfl rfl rfl

end WaitBooks

/-! ## Totals -/

/-- Until the stop marker the totals are sums over all hashes; without sharing
there are no shared slots. -/
structure TotalBooks (env : Env slotCount) (state : State slotCount) :
    Prop where
  inflight : state.stop = false →
    state.preloadInflightTotal = state.preloadInflightHashes.total
  cached : state.stop = false →
    state.preloadCachedTotal =
      state.preloadSlots.pairs.length + state.sharedCached.entries.length
  unshared : env.sharePreload = false → state.sharedCached.entries = []

namespace TotalBooks

private theorem untouched (books : TotalBooks env state)
    (stop : state'.stop = state.stop)
    (total : state'.preloadInflightTotal = state.preloadInflightTotal)
    (inflight : state'.preloadInflightHashes = state.preloadInflightHashes)
    (cachedTotal : state'.preloadCachedTotal = state.preloadCachedTotal)
    (slots : state'.preloadSlots = state.preloadSlots)
    (shared : state'.sharedCached = state.sharedCached) :
    TotalBooks env state' := by
  refine ⟨fun running => ?_, fun running => ?_, fun owned => ?_⟩
  · rw [total, inflight]
    exact books.inflight (stop.symm.trans running)
  · rw [cachedTotal, slots, shared]
    exact books.cached (stop.symm.trans running)
  · rw [shared]
    exact books.unshared owned

/-- Once the stop marker is taken in, only the shared slots matter. -/
private theorem stopped (books : TotalBooks env state)
    (stop : state'.stop = true)
    (shared : state'.sharedCached = state.sharedCached) :
    TotalBooks env state' := by
  refine ⟨fun running => ?_, fun running => ?_, fun owned => ?_⟩
  · rw [running] at stop
    cases stop
  · rw [running] at stop
    cases stop
  · rw [shared]
    exact books.unshared owned

/-- Every move keeps the totals. -/
theorem move (books : TotalBooks env state) (counts : CountBooks hand state)
    (demands : DemandBooks env hand state)
    (moved : Move env slack hand state hand' state') :
    TotalBooks env state' := by
  cases moved with
  | preloadPush held ended unawaited room =>
      refine ⟨books.inflight, fun running => ?_, books.unshared⟩
      have before := books.cached running
      simp only [QueueTable.pairs_pushBack.length_eq, List.length_cons,
        Nat.cast_succ, before]
      omega
  | preloadPop queued =>
      refine ⟨books.inflight, fun running => ?_, books.unshared⟩
      have before := books.cached running
      rw [(QueueTable.pairs_perm_keep queued).length_eq, List.length_cons,
        Nat.cast_succ] at before
      simp only [before]
      omega
  | @sharedCache slot clean tokens rooms sharing held allowed =>
      refine ⟨books.inflight, fun running => ?_, fun owned => ?_⟩
      · have before := books.cached running
        have absent := demands.uncached_of_token sharing running allowed
        simp only [OrderedDict.length_set_of_none absent, Nat.cast_succ]
        simp only [State.updateShared, before]
        omega
      · rw [owned] at sharing
        cases sharing
  | @sharedUncache slot cached =>
      have fewer := (OrderedDict.entries_perm_erase cached).length_eq
      refine ⟨books.inflight, fun running => ?_, fun owned => ?_⟩
      · have before := books.cached running
        rw [fewer, List.length_cons, Nat.cast_succ] at before
        simp only [State.updateShared, before]
        omega
      · have none := books.unshared owned
        rw [none, List.length_nil, List.length_cons] at fewer
        cases fewer
  | openPreload allowed served room ended =>
      refine ⟨fun running => ?_, books.cached, books.unshared⟩
      have before := books.inflight running
      simp only [CountTable.total_addOne, Nat.cast_succ, before]
  | preloadDone clean held unawaited =>
      refine ⟨fun running => ?_, books.cached, books.unshared⟩
      have before := books.inflight running
      have counted := counts.inflight_pos held
      have fewer := CountTable.total_takeOne counted
      simp only [if_neg (Nat.ne_of_gt counted)]
      omega
  | stop => exact books.stopped rfl rfl
  | dropPreloads stop => exact books.stopped stop rfl
  | dropShared stop =>
      refine ⟨fun running => ?_, fun running => ?_, fun _ => rfl⟩
      · rw [show state.stop = false from running] at stop
        cases stop
      · rw [show state.stop = false from running] at stop
        cases stop
  | clear stop => exact books.stopped stop rfl
  | submit job new =>
      unfold State.submitJob
      split
      · exact books.untouched rfl rfl rfl rfl rfl rfl
      · exact books.untouched rfl rfl rfl rfl rfl rfl
  | enqueue request =>
      unfold State.enqueuePreload
      split
      · exact books
      · exact books.untouched rfl rfl rfl rfl rfl rfl
  | shutdown =>
      unfold State.shutdown
      split
      · exact books
      · exact books.untouched rfl rfl rfl rfl rfl rfl
  | _ => exact books.untouched rfl rfl rfl rfl rfl rfl

end TotalBooks

end PyKvCache.Ledger
