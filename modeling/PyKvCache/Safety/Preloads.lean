import PyKvCache.Ledger.Budgets
import PyKvCache.Ledger.Counters
import PyKvCache.Safety.SlotOwners

/-!
# The preloads in every state of a run

The counters of the preloads, who waits for them, how many slots they take,
and that a shared block is read once.
-/

namespace PyKvCache.Safety

open PyKvCache.Library PyKvCache.Staging PyKvCache.Transfer
open PyKvCache.Reactor PyKvCache.Ledger

variable {slotCount : Nat} {env : Env slotCount} {slack : Slack}
  {hand hand' : Hand slotCount} {state state' : State slotCount}
  {machine : Machine slotCount}

/-! ## The invariant -/

/-- All books about preloads, and the budgets. -/
structure PreloadInv (env : Env slotCount) (slack : Slack)
    (hand : Hand slotCount) (state : State slotCount) : Prop where
  counts : CountBooks hand state
  demands : DemandBooks env hand state
  cancels : CancelBooks state
  waits : WaitBooks env slack hand state
  totals : TotalBooks env state
  cap : CapBooks env slack hand state
  budgets : BudgetBooks env hand state

theorem preloadInv_closed :
    Closed env slack (@PreloadInv slotCount env slack) := by
  intro hand state hand' state' base moved inv
  exact ⟨inv.counts.move moved, inv.demands.move inv.counts moved,
    inv.cancels.move moved, inv.waits.move moved,
    inv.totals.move inv.counts inv.demands moved,
    inv.cap.move inv.counts moved, inv.budgets.move base moved⟩

theorem preloadInv_init :
    PreloadInv env slack Hand.empty (State.init env) where
  counts := countBooks_init
  demands := demandBooks_init
  cancels := fun _ => Nat.le_refl _
  waits := ⟨fun _ _ _ waiting => absurd rfl waiting,
    fun _ _ => Nat.zero_le _⟩
  totals := ⟨fun _ => rfl, fun _ => rfl, fun _ => rfl⟩
  cap := fun _ _ => Int.natCast_nonneg _
  budgets := ⟨rfl, Nat.zero_le _, rfl, Nat.zero_le _⟩

/-- The books in a state the thread reaches, with the rest of the copies in
hand. -/
theorem preloadInv (quiet : env.Quiet) (reaps : slack.reaps = true)
    {condition : Machine slotCount → Prop}
    (permits : ∀ machine, condition machine → Permits env slack machine)
    (reached : Machine.ReachableUnder env condition machine)
    (running : machine.phase.Running) :
    ∃ todo, PreloadInv env slack { Hand.empty with todo := todo }
      machine.state := by
  have held := reachableUnder_held
    (⟨quiet, preloadInv_closed⟩ : Rules env slack (PreloadInv env slack))
    reaps condition permits preloadInv_init reached running
  obtain ⟨todo, rest⟩ : ∃ todo,
      machine.phase.hand = { Hand.empty with todo := todo } := by
    cases machine.phase <;> exact ⟨_, rfl⟩
  rw [rest] at held
  exact ⟨todo, held.inv⟩

/-- The preloads under way: files being opened or read, and descriptors that
wait to be read. -/
def preloadsUnderWay (state : State slotCount) : List PreloadInfo :=
  state.inflight.values.flatMap RingOp.carried ++
    state.readyFdsPreload.map Prod.snd

theorem weigh_ofHash (hash : BlockHash) (infos : List PreloadInfo) :
    weigh (ofHash hash) infos =
      infos.countP fun info => info.blockHash = hash := by
  induction infos with
  | nil => rfl
  | cons head tail inductionHypothesis =>
      rw [weigh_cons, inductionHypothesis, List.countP_cons, Nat.add_comm]
      by_cases same : hash = head.blockHash
      · simp [ofHash, same]
      · simp [ofHash, same, Ne.symm same]

theorem inflight_eq {todo : List (CopyOp slotCount)}
    (counts : CountBooks { Hand.empty with todo := todo } state)
    (hash : BlockHash) :
    state.preloadInflightHashes.count hash =
      (preloadsUnderWay state).countP fun info => info.blockHash = hash := by
  rw [← weigh_ofHash]
  exact counts.inflight hash

/-! ## The counters without sharing -/

/-- The preload counters say what the queues they are kept for hold. -/
structure CountersAgree (state : State slotCount) : Prop where
  pending : ∀ hash, state.preloadPendingCount.count hash =
    state.preloadPending.countP fun info => info.blockHash = hash
  cancelled : ∀ hash, state.preloadPendingCancel.count hash ≤
    state.preloadPendingCount.count hash
  inflight : ∀ hash, state.preloadInflightHashes.count hash =
    (preloadsUnderWay state).countP fun info => info.blockHash = hash
  inflightTotal :
    state.preloadInflightTotal = state.preloadInflightHashes.total
  cachedTotal : state.preloadCachedTotal = state.preloadSlots.pairs.length
  waiters : ∀ hash, (state.preloadWaiters.queue hash).length ≤
    state.preloadInflightHashes.count hash

/-- Without sharing the counters agree with their queues until the stop marker
is taken in. -/
theorem countersAgree (quiet : env.Quiet)
    (owned : env.sharePreload = false)
    (reached : Machine.Reachable env machine)
    (running : machine.phase.Running)
    (unstopped : machine.state.stop = false) :
    CountersAgree machine.state := by
  obtain ⟨todo, inv⟩ := preloadInv quiet rfl (fun _ _ => permits_any)
    (reached.under fun _ => trivial) running
  refine ⟨fun hash => ?_, inv.cancels, inflight_eq inv.counts,
    inv.totals.inflight unstopped, ?_, inv.waits.owned owned⟩
  · rw [← weigh_ofHash]
    exact inv.counts.pending hash
  · have total := inv.totals.cached unstopped
    rw [inv.totals.unshared owned, List.length_nil] at total
    simpa using total

section Examples

/-- Each request has its own reads and opens up to eight files ahead. -/
def wideOwnReads : Env 5 :=
  { Env.smooth false fun _ => [] with
    openLookahead := 8
    openLookahead_pos := Nat.succ_pos _ }

/-- A load of the first and the sixth block. -/
def farLoad : Job :=
  .ofChunks 0 false [[1], [6]] [[6], [7]] rfl (by decide)

/-- Four of six preloads are being opened when a load asks for the first block
and the last: one file waits, and the pending entry of the other is
cancelled. -/
def takenOver : Machine 5 :=
  (Machine.init wideOwnReads).play wideOwnReads
    (.preload ⟨[[1], [2], [3], [4], [5], [6]], "", ""⟩ ::
      List.replicate 10 .advance ++
        .submit farLoad :: List.replicate 7 .advance)

theorem takenOver_countersAgree :
    ((takenOver.state.preloadWaiters.queue [1]).length = 1 ∧
        takenOver.state.preloadPendingCancel.count [6] = 1) ∧
      CountersAgree takenOver.state :=
  ⟨by decide +kernel, countersAgree (fun _ _ _ => rfl) rfl
    (Machine.reachable_play _ (by decide +kernel)) (by decide +kernel)
    (by decide +kernel)⟩

end Examples

/-! ## Waiting loads with sharing -/

/-- Whoever waits for a shared preload waits for one that is under way. -/
def WaitersBacked (state : State slotCount) : Prop :=
  ∀ hash, state.preloadWaiters.queue hash ≠ [] →
    ∃ info ∈ preloadsUnderWay state, info.blockHash = hash

/-- Every promotion of a pending preload that is about to be made gets its
open into the ring. -/
def PromotionsOpen (env : Env slotCount) (machine : Machine slotCount) :
    Prop :=
  machine.phase = .scheduling →
    ∀ round ∈ machine.state.loadRounds env,
      ∀ file ∈ round.2.nextLoad round.1,
        round.2.promotes env file = true →
          round.2.OpenQueued env file.hash

/-- The slips of a run whose promotions all open. -/
def promotesOpened : Slack := { Slack.any with strands := false }

theorem permits_promotesOpened (opens : PromotionsOpen env machine) :
    Permits env promotesOpened machine where
  serves := Or.inl rfl
  schedules := Or.inl rfl
  rounds := fun scheduling round started =>
    ⟨Or.inr (opens scheduling round started), Or.inl rfl, Or.inl rfl⟩
  returns := Or.inl rfl
  remembers := Or.inl rfl
  admits := Or.inl rfl
  calm := Or.inl rfl
  registers := fun _ _ _ _ _ _ _ => rfl

/-- As long as every promotion gets its open into the ring, every load that
waits for a shared preload waits for one that is under way. -/
theorem waitersBacked (quiet : env.Quiet) (sharing : env.sharePreload = true)
    (reached : Machine.ReachableUnder env (PromotionsOpen env) machine)
    (running : machine.phase.Running) : WaitersBacked machine.state := by
  obtain ⟨todo, inv⟩ := preloadInv quiet rfl
    (fun _ opens => permits_promotesOpened opens) reached running
  intro hash waiting
  have counted : 0 < machine.state.preloadInflightHashes.count hash :=
    (inv.waits.shared sharing rfl hash waiting).resolve_right
      List.not_mem_nil
  rw [inflight_eq inv.counts, List.countP_pos_iff] at counted
  simpa using counted

section Examples

/-- A load that finds its block wanted and not yet opened. -/
def promotingLoad : List Event :=
  .preload ⟨[[1]], "", ""⟩ :: .submit oneFileLoad ::
    List.replicate 9 .advance

/-- The promoted preload is being opened, and the load waits for it. -/
theorem promotion_backed :
    ((Machine.init .silent).play .silent
        promotingLoad).state.preloadWaiters.queue [1] = [⟨oneFileLoad, 0,
          Nat.one_pos⟩] ∧
      WaitersBacked ((Machine.init .silent).play .silent
        promotingLoad).state :=
  ⟨by decide, waitersBacked Env.smooth_quiet rfl
    ((Machine.reachable_play _ (by decide)).under
      fun _ _ _ _ _ _ _ => rfl)
    (by decide)⟩

/-- A world whose ring refuses every open. -/
def refusingRing : Env 5 :=
  { Env.smooth true fun _ => [] with
    raises := fun call _ =>
      match call with
      | .queueOpenat _ _ => some .osError
      | _ => none }

/-- The open of the promoted preload is refused, and the load waits for it all
the same. -/
theorem refusedPromotion_unbacked :
    Machine.Reachable refusingRing
        ((Machine.init refusingRing).play refusingRing promotingLoad) ∧
      ((Machine.init refusingRing).play refusingRing
        promotingLoad).phase.Running ∧
      ((Machine.init refusingRing).play refusingRing
        promotingLoad).state.stop = false ∧
      ¬ WaitersBacked ((Machine.init refusingRing).play refusingRing
        promotingLoad).state := by
  refine ⟨Machine.reachable_play _ (by decide), by decide, by decide,
    fun backed => ?_⟩
  obtain ⟨info, underWay, _⟩ := backed [1] (by decide)
  have nothing : preloadsUnderWay ((Machine.init refusingRing).play
      refusingRing promotingLoad).state = [] := by decide
  rw [nothing] at underWay
  cases underWay

end Examples

/-! ## One read for a shared block -/

/-- A hash has at most one preload under way, and none while a shared slot is
registered for it. -/
structure ReadOnce (state : State slotCount) : Prop where
  once : ∀ hash,
    ((preloadsUnderWay state).countP fun info => info.blockHash = hash) ≤ 1
  apart : ∀ hash slot, state.sharedCached.find? hash = some slot →
    ∀ info ∈ preloadsUnderWay state, info.blockHash ≠ hash

theorem readOnce_of_inv {todo : List (CopyOp slotCount)}
    (inv : PreloadInv env slack { Hand.empty with todo := todo } state)
    (sharing : env.sharePreload = true) (unstopped : state.stop = false) :
    ReadOnce state := by
  have single := inv.demands sharing unstopped
  refine ⟨fun hash => ?_, fun hash slot cached info underWay same => ?_⟩
  · have once := (single hash).once
    simp only [tally] at once
    rw [← inflight_eq inv.counts]
    omega
  · have once := (single hash).once
    have counted : 0 < (preloadsUnderWay state).countP
        fun other => other.blockHash = hash :=
      List.countP_pos_iff.mpr ⟨info, underWay, by simpa using same⟩
    rw [← inflight_eq inv.counts] at counted
    simp only [tally, cached, Option.toList_some, List.length_singleton]
      at once
    omega

/-- The shared slots a step leaves registered were registered when it began,
except for hashes a slot may be registered for. -/
def OldSlots (slack : Slack) (start : State slotCount)
    (state : State slotCount) : Prop :=
  ∀ hash slot, slack.registers hash = false →
    state.sharedCached.find? hash = some slot →
      start.sharedCached.find? hash = some slot

private theorem OldSlots.untouched {start : State slotCount}
    (old : OldSlots slack start state)
    (same : state'.sharedCached = state.sharedCached) :
    OldSlots slack start state' := by
  unfold OldSlots
  rw [same]
  exact old

theorem oldSlots_closed (start : State slotCount) :
    Closed env slack fun _ state => OldSlots slack start state := by
  intro hand state hand' state' base moved old
  cases moved with
  | @sharedCache slot clean tokens rooms sharing held allowed demanded room
      registers running =>
      intro hash other exempt found
      have different : hash ≠ slot.blockHash := by
        rintro rfl
        rw [exempt] at registers
        cases registers
      simp only [OrderedDict.find?_set, if_neg different] at found
      exact old hash other exempt found
  | @sharedUncache slot cached =>
      intro hash other exempt found
      have kept : (state.sharedCached.erase slot.blockHash).find? hash =
        some other := found
      rw [OrderedDict.find?_erase] at kept
      split at kept
      · cases kept
      · exact old hash other exempt kept
  | dropShared stopped =>
      intro hash other exempt found
      cases found
  | submit job new =>
      unfold State.submitJob
      split
      · exact old
      · exact old
  | enqueue request =>
      unfold State.enqueuePreload
      split
      · exact old
      · exact old
  | shutdown =>
      unfold State.shutdown
      split
      · exact old
      · exact old
  | _ => exact old.untouched rfl

/-- The hashes of the shared reads that the next step reaps. -/
def reapedHash (machine : Machine slotCount) (hash : BlockHash) : Bool :=
  match machine.phase with
  | .completions (completion :: _) =>
      match machine.state.inflight.find? completion.1 with
      | some (.reading (.preload info) _ _) => info.blockHash = hash
      | _ => false
  | _ => false

theorem mem_underWay_of_reaped {hash : BlockHash}
    (reaped : reapedHash machine hash = true) :
    ∃ info ∈ preloadsUnderWay machine.state, info.blockHash = hash := by
  unfold reapedHash at reaped
  split at reaped
  next completion todo inPhase =>
    split at reaped
    next info slot fd found =>
      refine ⟨info, List.mem_append_left _ (List.mem_flatMap.mpr
        ⟨_, OrderedDict.mem_values_of_find? found, ?_⟩), ?_⟩
      · exact List.mem_singleton_self _
      · simpa using reaped
    next => cases reaped
  next => cases reaped

/-- The slips of a step that registers a shared slot for no other hash than
that of the read it reaps. -/
def registersReaped (machine : Machine slotCount) : Slack :=
  { Slack.any with registers := reapedHash machine }

theorem permits_registersReaped :
    Permits env (registersReaped machine) machine where
  serves := Or.inl rfl
  schedules := Or.inl rfl
  rounds := fun _ _ _ => ⟨Or.inl rfl, Or.inl rfl, Or.inl rfl⟩
  returns := Or.inl rfl
  remembers := Or.inl rfl
  admits := Or.inl rfl
  calm := Or.inl rfl
  registers := by
    intro completion todo info slot fd inPhase found
    simp [registersReaped, reapedHash, inPhase, found]

/-- With sharing a hash has at most one preload under way and none while its
slot is registered, in every state until the stop marker; and no step puts
another slot in the place of a registered one. -/
theorem readOnce (quiet : env.Quiet) (sharing : env.sharePreload = true)
    (reached : Machine.Reachable env machine)
    (running : machine.phase.Running)
    (unstopped : machine.state.stop = false) :
    ReadOnce machine.state ∧
      ∀ next, Machine.Step env machine next → next.phase.Running →
        ∀ hash old new, machine.state.sharedCached.find? hash = some old →
          next.state.sharedCached.find? hash = some new → new = old := by
  obtain ⟨todo, inv⟩ := preloadInv quiet rfl (fun _ _ => permits_any)
    (reached.under fun _ => trivial) running
  have once := readOnce_of_inv inv sharing unstopped
  refine ⟨once, fun next step runs hash old new before after => ?_⟩
  have base : HeldAt (fun _ state => OldSlots (registersReaped machine)
      machine.state state) machine := fun _ =>
    ⟨(reachable_held (⟨quiet, preloadInv_closed⟩ :
        Rules env .any (PreloadInv env .any)) preloadInv_init reached
        running).base, fun _ _ _ found => found⟩
  have kept := step_held ⟨quiet, oldSlots_closed machine.state⟩ rfl
    permits_registersReaped base step runs
  cases exempt : (registersReaped machine).registers hash with
  | false =>
      have same := kept.inv hash new exempt after
      rw [before] at same
      exact (Option.some.inj same).symm
  | true =>
      obtain ⟨info, underWay, same⟩ := mem_underWay_of_reaped exempt
      exact absurd same (once.apart hash old before info underWay)

section Examples

theorem twoDemanders_readOnce :
    (twoDemanders.state.sharedCached.contains [1] = true ∧
        preloadsUnderWay twoDemanders.state ≠ []) ∧
      ReadOnce twoDemanders.state ∧
      ∀ next, Machine.Step firstRead twoDemanders next →
        next.phase.Running →
          ∀ hash old new,
            twoDemanders.state.sharedCached.find? hash = some old →
              next.state.sharedCached.find? hash = some new → new = old :=
  ⟨by decide +kernel, readOnce Env.smooth_quiet rfl
    (Machine.reachable_play _ (by decide +kernel)) (by decide +kernel)
    (by decide +kernel)⟩

end Examples

end PyKvCache.Safety
