import PyKvCache.Safety.Preloads

/-!
# What may be under way at once

The slots the preloads take, and the I/O budgets, in every state of a run.
-/

namespace PyKvCache.Safety

open PyKvCache.Library PyKvCache.Staging PyKvCache.Transfer
open PyKvCache.Reactor PyKvCache.Ledger

variable {slotCount : Nat} {env : Env slotCount}
  {machine : Machine slotCount}

/-! ## The foreground reserve -/

/-- The preloads leave the slots alone that are kept for loads and stores. -/
def ReserveKept (env : Env slotCount) (state : State slotCount) : Prop :=
  state.preloadCachedTotal + state.preloadInflightTotal ≤
    (slotCount : Int) - env.iodepth

/-- Every promotion of a pending preload that is about to be made, and whose
open gets into the ring, finds a preload slot. -/
def PromotionsFit (env : Env slotCount) (machine : Machine slotCount) :
    Prop :=
  machine.phase = .scheduling →
    ∀ round ∈ machine.state.loadRounds env,
      ∀ file ∈ round.2.nextLoad round.1,
        round.2.promotes env file = true →
          round.2.OpenQueued env file.hash →
            round.2.preloadSlotsAvailable env = true

/-- The slips of a run whose promotions all fit. -/
def promotesWithin : Slack := { Slack.any with overdraws := false }

theorem permits_promotesWithin (fits : PromotionsFit env machine) :
    Permits env promotesWithin machine where
  serves := Or.inl rfl
  schedules := Or.inl rfl
  rounds := fun scheduling round started =>
    ⟨Or.inl rfl, Or.inr (fits scheduling round started), Or.inl rfl⟩
  returns := Or.inl rfl
  remembers := Or.inl rfl
  admits := Or.inl rfl
  calm := Or.inl rfl
  registers := fun _ _ _ _ _ _ _ => rfl

/-- Without sharing no pending preload is promoted. -/
theorem promotionsFit_of_owned (owned : env.sharePreload = false) :
    PromotionsFit env machine := by
  intro _ round _ file _ promotes
  unfold State.promotes at promotes
  rw [owned] at promotes
  cases promotes

/-- As long as every promotion finds a preload slot, the preloads never take a
slot of the reserve. -/
theorem reserveKept (quiet : env.Quiet)
    (reached : Machine.ReachableUnder env (PromotionsFit env) machine)
    (running : machine.phase.Running)
    (unstopped : machine.state.stop = false) :
    ReserveKept env machine.state := by
  obtain ⟨todo, inv⟩ := preloadInv quiet rfl
    (fun _ fits => permits_promotesWithin fits) reached running
  have within := inv.cap (Or.inr rfl) unstopped
  have reserve : env.iodepth ≤ slotCount := by
    have enough := env.slotsEnough
    omega
  unfold Env.maxPreloadSlots at within
  unfold ReserveKept
  simp only [Hand.empty] at within
  omega

/-- Without sharing the reserve is kept in every run. -/
theorem reserveKept_of_owned (quiet : env.Quiet)
    (owned : env.sharePreload = false)
    (reached : Machine.Reachable env machine)
    (running : machine.phase.Running)
    (unstopped : machine.state.stop = false) :
    ReserveKept env machine.state :=
  reserveKept quiet (reached.under fun _ => promotionsFit_of_owned owned)
    running unstopped

section Examples

instance : DecidablePred (PromotionsFit env) := fun machine =>
  inferInstanceAs (Decidable (machine.phase = .scheduling → _))

/-- A world with four preload slots that opens up to eight files ahead. -/
def wideLookahead : Env 5 :=
  { Env.silent with
    openLookahead := 8
    openLookahead_pos := by decide }

/-- Three of four demanded blocks are being opened when a load asks for the
fourth. -/
def fourPreloads : List Event :=
  .preload ⟨[[1], [2], [3]], "", ""⟩ :: List.replicate 10 .advance ++
    .preload ⟨[[4]], "", ""⟩ :: .submit (Job.ofChunk 0 false [4] [7]) ::
      List.replicate 9 .advance

/-- The fourth preload is promoted and takes the last slot of its reserve. -/
theorem fourthPromotion_reserveKept :
    ((Machine.init wideLookahead).play wideLookahead
        fourPreloads).state.preloadInflightTotal = 4 ∧
      ReserveKept wideLookahead ((Machine.init wideLookahead).play
        wideLookahead fourPreloads).state :=
  ⟨by decide +kernel, reserveKept (fun _ _ _ => rfl)
    (Machine.reachableUnder_play _ Relation.ReflTransGen.refl
      (by decide +kernel)) (by decide +kernel) (by decide +kernel)⟩

/-- A load of the block that is demanded last. -/
def fifthLoad : Job :=
  .ofChunk 0 false [5] [7]

/-- Four of five demanded blocks are being opened when a load asks for the
fifth. -/
def fivePreloads : List Event :=
  .preload ⟨[[1], [2], [3], [4], [5]], "", ""⟩ ::
    List.replicate 10 .advance ++
      .submit fifthLoad :: List.replicate 9 .advance

theorem fifthPromotion_overdraws :
    Machine.Reachable wideLookahead
        ((Machine.init wideLookahead).play wideLookahead fivePreloads) ∧
      ((Machine.init wideLookahead).play wideLookahead
        fivePreloads).phase.Running ∧
      ((Machine.init wideLookahead).play wideLookahead
        fivePreloads).state.stop = false ∧
      ¬ ReserveKept wideLookahead ((Machine.init wideLookahead).play
        wideLookahead fivePreloads).state := by
  refine ⟨Machine.reachable_play _ (by decide +kernel), by decide +kernel,
    by decide +kernel, ?_⟩
  unfold ReserveKept
  decide +kernel

end Examples

/-! ## The I/O budgets -/

/-- An operation that reads. -/
def reads : RingOp slotCount → Bool
  | .reading _ _ _ => true
  | _ => false

/-- An operation that writes. -/
def writes : RingOp slotCount → Bool
  | .writing _ _ _ _ _ => true
  | _ => false

/-- An operation that opens. -/
def opens : RingOp slotCount → Bool
  | .opening _ => true
  | _ => false

/-- A copy of a store file. -/
def stores : CopyOp slotCount → Bool
  | .store _ _ => true
  | .load _ => false

/-- The budgets count the operations they are kept for, and stay within their
bounds. -/
structure BudgetsExact (env : Env slotCount) (state : State slotCount) :
    Prop where
  data : state.dataInflight =
    (state.inflight.values.countP reads : Int) +
      state.inflight.values.countP writes +
      state.pendingCopies.countP stores
  depth : state.dataInflight ≤ env.iodepth
  opens : state.openInflight = (state.inflight.values.countP opens : Int)
  ahead : state.openInflight + state.readyFdsLoad.length +
    state.readyFdsPreload.length ≤ env.openLookahead

theorem weigh_dataUnits (operations : List (RingOp slotCount)) :
    weigh RingOp.dataUnits operations =
      operations.countP reads + operations.countP writes := by
  induction operations with
  | nil => rfl
  | cons head tail inductionHypothesis =>
      simp only [weigh_cons, List.countP_cons, inductionHypothesis]
      cases head <;> simp [RingOp.dataUnits, reads, writes] <;> omega

theorem weigh_openUnits (operations : List (RingOp slotCount)) :
    weigh RingOp.openUnits operations = operations.countP opens := by
  induction operations with
  | nil => rfl
  | cons head tail inductionHypothesis =>
      simp only [weigh_cons, List.countP_cons, inductionHypothesis]
      cases head <;> simp [RingOp.openUnits, opens]
      omega

theorem weigh_copyUnits (copies : List (CopyOp slotCount)) :
    weigh CopyOp.dataUnits copies = copies.countP stores := by
  induction copies with
  | nil => rfl
  | cons head tail inductionHypothesis =>
      simp only [weigh_cons, List.countP_cons, inductionHypothesis]
      cases head <;> simp [CopyOp.dataUnits, stores]
      omega

/-- The I/O budgets are exact and kept in every run, also while the reactor
shuts down. -/
theorem budgetsExact (quiet : env.Quiet)
    (reached : Machine.Reachable env machine)
    (running : machine.phase.Running) : BudgetsExact env machine.state := by
  obtain ⟨todo, inv⟩ := preloadInv quiet rfl (fun _ _ => permits_any)
    (reached.under fun _ => trivial) running
  have data := inv.budgets.data
  have depth := inv.budgets.depth
  have opened := inv.budgets.opens
  have ahead := inv.budgets.ahead
  simp only [dataUnits, lookahead, openUnits, weigh_dataUnits,
    weigh_openUnits, weigh_copyUnits, Hand.empty]
    at data depth opened ahead
  constructor <;> omega

section Examples

/-- A load of six files. -/
def sixFileLoad : Job :=
  .ofChunks 0 false [[1], [2], [3], [4], [5], [6]]
    [[1], [2], [3], [4], [5], [6]] rfl (by decide)

/-- The first two opens succeed. -/
def twoOpened : Env 5 :=
  .smooth true fun calls => if calls = 6 then [(1, 3), (2, 4)] else []

/-- The stop marker has been taken in; one file is read, one waits with its
descriptor and three are being opened. -/
def stopping : Machine 5 :=
  (Machine.init twoOpened).play twoOpened
    (.submit sixFileLoad :: List.replicate 26 .advance ++
      .shutdown :: List.replicate 8 .advance)

theorem stopping_budgetsExact :
    (stopping.state.stop = true ∧ stopping.state.dataInflight = 1 ∧
        stopping.state.openInflight = 3 ∧
        stopping.state.readyFdsLoad.length = 1) ∧
      BudgetsExact twoOpened stopping.state :=
  ⟨by decide +kernel, budgetsExact Env.smooth_quiet
    (Machine.reachable_play _ (by decide +kernel)) (by decide +kernel)⟩

end Examples

end PyKvCache.Safety
