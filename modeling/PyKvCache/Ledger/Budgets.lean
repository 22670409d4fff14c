import PyKvCache.Ledger.Demand

/-!
# The budgets of slots and operations

How much the reactor may have under way at once: preloads against the slots
that are not reserved for loads and stores, data operations against the I/O
depth, and opens against the lookahead.
-/

namespace PyKvCache.Reactor

variable {slotCount : Nat}

/-- A read or a write. -/
def RingOp.dataUnits : RingOp slotCount → Nat
  | .reading _ _ _ => 1
  | .writing _ _ _ _ _ => 1
  | _ => 0

/-- An open. -/
def RingOp.openUnits : RingOp slotCount → Nat
  | .opening _ => 1
  | _ => 0

/-- The copy of a store file. -/
def CopyOp.dataUnits : CopyOp slotCount → Nat
  | .store _ _ => 1
  | .load _ => 0

end PyKvCache.Reactor

namespace PyKvCache.Ledger

open PyKvCache.Library PyKvCache.Staging PyKvCache.Transfer
open PyKvCache.Reactor

variable {slotCount : Nat} {env : Env slotCount} {slack : Slack}
  {hand hand' : Hand slotCount} {state state' : State slotCount}

/-! ## Preload slots -/

/-- Where loads open preloads within the cap only, the preloads leave the
slots alone that are reserved for loads and stores. -/
def CapBooks (env : Env slotCount) (slack : Slack) (hand : Hand slotCount)
    (state : State slotCount) : Prop :=
  env.sharePreload = false ∨ slack.overdraws = false →
    state.stop = false →
      state.preloadCachedTotal + state.preloadInflightTotal + hand.rooms ≤
        env.maxPreloadSlots

namespace CapBooks

private theorem untouched (books : CapBooks env slack hand state)
    (stop : state'.stop = state.stop)
    (rooms : hand'.rooms = hand.rooms)
    (cached : state'.preloadCachedTotal = state.preloadCachedTotal)
    (inflight : state'.preloadInflightTotal = state.preloadInflightTotal) :
    CapBooks env slack hand' state' := by
  intro capped running
  rw [rooms, cached, inflight]
  exact books capped (stop.symm.trans running)

/-- Every move keeps the preloads within the cap. -/
theorem move (books : CapBooks env slack hand state)
    (counts : CountBooks hand state)
    (moved : Move env slack hand state hand' state') :
    CapBooks env slack hand' state' := by
  cases moved with
  | preloadPush held ended unawaited room =>
      intro capped running
      have before := books capped running
      simp only [room] at before ⊢
      omega
  | preloadPop queued =>
      intro capped running
      have before := books capped running
      simp only at before ⊢
      omega
  | sharedCache sharing held allowed demanded room =>
      intro capped running
      have before := books capped running
      simp only [State.updateShared, room] at before ⊢
      omega
  | sharedUncache cached =>
      intro capped running
      have before := books capped running
      simp only [State.updateShared] at before ⊢
      omega
  | openPreload allowed served room ended new numbered opens unprimed
      noRooms =>
      intro capped running
      have available : state.preloadSlotsAvailable env = true := by
        refine room.resolve_left fun overdraws => ?_
        rcases capped with owned | within
        · rw [owned] at overdraws
          cases overdraws.1
        · rw [within] at overdraws
          cases overdraws.2
      unfold State.preloadSlotsAvailable at available
      rw [decide_eq_true_eq] at available
      simp only [noRooms]
      omega
  | preloadDone clean held unawaited =>
      intro capped running
      have before := books capped running
      have counted := counts.inflight_pos held
      simp only [if_neg (Nat.ne_of_gt counted)] at before ⊢
      omega
  | roomDrop held =>
      intro capped running
      have before := books capped running
      simp only [held] at before ⊢
      omega
  | stop =>
      intro _ running
      cases running
  | clear stopped =>
      intro _ running
      rw [show state.stop = false from running] at stopped
      cases stopped
  | submit job new =>
      unfold State.submitJob
      split
      · exact books.untouched rfl rfl rfl rfl
      · exact books.untouched rfl rfl rfl rfl
  | enqueue request =>
      unfold State.enqueuePreload
      split
      · exact books
      · exact books.untouched rfl rfl rfl rfl
  | shutdown =>
      unfold State.shutdown
      split
      · exact books
      · exact books.untouched rfl rfl rfl rfl
  | _ => exact books.untouched rfl rfl rfl rfl

end CapBooks

/-! ## Data operations and opens -/

/-- The data operations under way. -/
def dataUnits (hand : Hand slotCount) (state : State slotCount) : Nat :=
  weigh RingOp.dataUnits state.inflight.values +
    weigh CopyOp.dataUnits state.pendingCopies + hand.units

/-- The opens under way. -/
def openUnits (hand : Hand slotCount) (state : State slotCount) : Nat :=
  weigh RingOp.openUnits state.inflight.values + hand.opens

/-- The opens under way and the descriptors that wait to be read. -/
def lookahead (hand : Hand slotCount) (state : State slotCount) : Nat :=
  openUnits hand state + state.readyFdsLoad.length +
    state.readyFdsPreload.length + hand.primed

/-- The budgets count what is under way, and stay within their bounds. -/
structure BudgetBooks (env : Env slotCount) (hand : Hand slotCount)
    (state : State slotCount) : Prop where
  data : state.dataInflight = dataUnits hand state
  depth : dataUnits hand state ≤ env.iodepth
  opens : state.openInflight = openUnits hand state
  ahead : lookahead hand state ≤ env.openLookahead

namespace BudgetBooks

private theorem kept (books : BudgetBooks env hand state)
    (data : state'.dataInflight = state.dataInflight)
    (opens : state'.openInflight = state.openInflight)
    (sameData : dataUnits hand' state' = dataUnits hand state)
    (sameOpens : openUnits hand' state' = openUnits hand state)
    (sameAhead : lookahead hand' state' = lookahead hand state) :
    BudgetBooks env hand' state' where
  data := by rw [data, sameData, books.data]
  depth := by rw [sameData]; exact books.depth
  opens := by rw [opens, sameOpens, books.opens]
  ahead := by rw [sameAhead]; exact books.ahead

private theorem untouched (books : BudgetBooks env hand state)
    (units : hand'.units = hand.units) (opened : hand'.opens = hand.opens)
    (primed : hand'.primed = hand.primed)
    (data : state'.dataInflight = state.dataInflight)
    (opens : state'.openInflight = state.openInflight)
    (operations : state'.inflight = state.inflight)
    (copies : state'.pendingCopies = state.pendingCopies)
    (readyLoad : state'.readyFdsLoad = state.readyFdsLoad)
    (readyPreload : state'.readyFdsPreload = state.readyFdsPreload) :
    BudgetBooks env hand' state' := by
  have sameOpens : openUnits hand' state' = openUnits hand state := by
    unfold openUnits
    rw [operations, opened]
  refine books.kept data opens ?_ sameOpens ?_
  · unfold dataUnits
    rw [operations, copies, units]
  · unfold lookahead
    rw [sameOpens, readyLoad, readyPreload, primed]

/-- There is room for another open. -/
private theorem lookahead_lt (books : BudgetBooks env hand state)
    (opens : state.canOpen env = true) (unprimed : hand.primed = 0) :
    lookahead hand state < env.openLookahead := by
  unfold State.canOpen at opens
  rw [decide_eq_true_eq, books.opens] at opens
  unfold lookahead
  omega

/-- An operation that only occupies the ring. -/
private theorem queued (books : BudgetBooks env hand state)
    {userData : Nat} {op : RingOp slotCount}
    (new : state.inflight.find? userData = none)
    (idle : op.dataUnits = 0 ∧ op.openUnits = 0)
    (operations : state'.inflight = state.inflight.set userData op)
    (units : hand'.units = hand.units) (opened : hand'.opens = hand.opens)
    (primed : hand'.primed = hand.primed)
    (data : state'.dataInflight = state.dataInflight)
    (opens : state'.openInflight = state.openInflight)
    (copies : state'.pendingCopies = state.pendingCopies)
    (readyLoad : state'.readyFdsLoad = state.readyFdsLoad)
    (readyPreload : state'.readyFdsPreload = state.readyFdsPreload) :
    BudgetBooks env hand' state' := by
  refine books.kept data opens ?_ ?_ ?_ <;>
    simp only [dataUnits, lookahead, openUnits, operations, copies, units,
      opened, primed, readyLoad, readyPreload,
      OrderedDict.weigh_values_set new, idle.1, idle.2, Nat.zero_add]

/-- Every move keeps the budgets. -/
theorem move (books : BudgetBooks env hand state) (base : Base hand state)
    (moved : Move env slack hand state hand' state') :
    BudgetBooks env hand' state' := by
  have data := books.data
  have depth := books.depth
  have opened := books.opens
  have ahead := books.ahead
  cases moved with
  | openLoad held new numbered opens unprimed =>
      have room := books.lookahead_lt opens unprimed
      simp only [lookahead, openUnits, dataUnits] at data depth opened room
      constructor <;>
        simp only [lookahead, openUnits, dataUnits,
          OrderedDict.weigh_values_set new, RingOp.dataUnits,
          RingOp.openUnits] <;>
        omega
  | openPreload allowed served room ended new numbered opens unprimed =>
      have room := books.lookahead_lt opens unprimed
      simp only [lookahead, openUnits, dataUnits] at data depth opened room
      constructor <;>
        simp only [lookahead, openUnits, dataUnits,
          OrderedDict.weigh_values_set new, RingOp.dataUnits,
          RingOp.openUnits] <;>
        omega
  | readLoad fd heldFile heldSlot new numbered unit =>
      simp only [lookahead, openUnits, dataUnits] at data depth opened ahead
      constructor <;>
        simp only [lookahead, openUnits, dataUnits, State.fill,
          OrderedDict.weigh_values_set new, RingOp.dataUnits,
          RingOp.openUnits] <;>
        omega
  | readPreload fd heldInfo heldSlot new numbered unit =>
      simp only [lookahead, openUnits, dataUnits] at data depth opened ahead
      constructor <;>
        simp only [lookahead, openUnits, dataUnits, State.fill,
          OrderedDict.weigh_values_set new, RingOp.dataUnits,
          RingOp.openUnits] <;>
        omega
  | write fd finalPath tempPath heldFile heldSlot heldUnit new numbered =>
      simp only [lookahead, openUnits, dataUnits, heldUnit]
        at data depth opened ahead
      constructor <;>
        simp only [lookahead, openUnits, dataUnits,
          OrderedDict.weigh_values_set new, RingOp.dataUnits,
          RingOp.openUnits] <;>
        omega
  | close fd new numbered =>
      exact books.queued new ⟨rfl, rfl⟩ rfl rfl rfl rfl rfl rfl rfl rfl rfl
  | openedLoad reaps reaped =>
      simp only [lookahead, openUnits, dataUnits,
        OrderedDict.weigh_values_erase reaped, RingOp.dataUnits,
        RingOp.openUnits] at data depth opened ahead
      constructor <;> simp only [lookahead, openUnits, dataUnits] <;> omega
  | openedPreload reaps reaped =>
      simp only [lookahead, openUnits, dataUnits,
        OrderedDict.weigh_values_erase reaped, RingOp.dataUnits,
        RingOp.openUnits] at data depth opened ahead
      constructor <;> simp only [lookahead, openUnits, dataUnits] <;> omega
  | doneLoad reaps reaped =>
      simp only [lookahead, openUnits, dataUnits,
        OrderedDict.weigh_values_erase reaped, RingOp.dataUnits,
        RingOp.openUnits] at data depth opened ahead
      constructor <;> simp only [lookahead, openUnits, dataUnits] <;> omega
  | donePreload reaps reaped =>
      simp only [lookahead, openUnits, dataUnits,
        OrderedDict.weigh_values_erase reaped, RingOp.dataUnits,
        RingOp.openUnits] at data depth opened ahead
      constructor <;> simp only [lookahead, openUnits, dataUnits] <;> omega
  | doneWrite reaps reaped =>
      simp only [lookahead, openUnits, dataUnits,
        OrderedDict.weigh_values_erase reaped, RingOp.dataUnits,
        RingOp.openUnits] at data depth opened ahead
      constructor <;> simp only [lookahead, openUnits, dataUnits] <;> omega
  | doneClose reaps reaped =>
      simp only [lookahead, openUnits, dataUnits,
        OrderedDict.weigh_values_erase reaped, RingOp.dataUnits,
        RingOp.openUnits] at data depth opened ahead
      constructor <;> simp only [lookahead, openUnits, dataUnits] <;> omega
  | dataDone held =>
      simp only [dataUnits, held] at data depth
      refine ⟨?_, ?_, opened, ahead⟩ <;> simp only [dataUnits] <;> omega
  | openDone held =>
      simp only [lookahead, openUnits, held] at opened ahead
      refine ⟨data, depth, ?_, ?_⟩ <;>
        simp only [lookahead, openUnits] <;> omega
  | openFailed held =>
      simp only [lookahead, held] at ahead
      refine ⟨data, depth, opened, ?_⟩
      simp only [lookahead, openUnits] at ahead ⊢
      omega
  | readyLoad fd held primed =>
      simp only [lookahead, primed] at ahead
      refine ⟨data, depth, opened, ?_⟩
      simp only [lookahead, openUnits, List.length_append,
        List.length_singleton] at ahead ⊢
      omega
  | readyPreload fd held primed =>
      simp only [lookahead, primed] at ahead
      refine ⟨data, depth, opened, ?_⟩
      simp only [lookahead, openUnits, List.length_append,
        List.length_singleton] at ahead ⊢
      omega
  | takeLoadFd first =>
      simp only [lookahead, first, List.length_cons] at ahead
      refine ⟨data, depth, opened, ?_⟩
      simp only [lookahead, openUnits] at ahead ⊢
      omega
  | takePreloadFd first =>
      simp only [lookahead, first, List.length_cons] at ahead
      refine ⟨data, depth, opened, ?_⟩
      simp only [lookahead, openUnits] at ahead ⊢
      omega
  | launchLoads held =>
      refine books.kept rfl rfl ?_ rfl rfl
      simp only [dataUnits, weigh_append, weigh_cons, weigh_nil,
        CopyOp.dataUnits, Nat.add_zero]
  | takeLoads reaps empty first =>
      refine books.kept rfl rfl ?_ rfl rfl
      simp only [dataUnits, weigh_erase (base.mem_pendingCopies first),
        CopyOp.dataUnits, Nat.zero_add]
  | launchStore heldFile heldSlot unit =>
      simp only [dataUnits] at data depth
      refine ⟨?_, ?_, opened, ahead⟩ <;>
        simp only [dataUnits, State.fill, weigh_append, weigh_cons,
          weigh_nil, CopyOp.dataUnits] <;>
        omega
  | takeStore reaps first =>
      simp only [dataUnits, weigh_erase (base.mem_pendingCopies first),
        CopyOp.dataUnits] at data depth
      refine ⟨?_, ?_, opened, ahead⟩ <;> simp only [dataUnits] <;> omega
  | submit job new =>
      unfold State.submitJob
      split
      · exact books.untouched rfl rfl rfl rfl rfl rfl rfl rfl rfl
      · exact books.untouched rfl rfl rfl rfl rfl rfl rfl rfl rfl
  | enqueue request =>
      unfold State.enqueuePreload
      split
      · exact books
      · exact books.untouched rfl rfl rfl rfl rfl rfl rfl rfl rfl
  | shutdown =>
      unfold State.shutdown
      split
      · exact books
      · exact books.untouched rfl rfl rfl rfl rfl rfl rfl rfl rfl
  | _ => exact books.untouched rfl rfl rfl rfl rfl rfl rfl rfl rfl

end BudgetBooks

end PyKvCache.Ledger
