import PyKvCache.Crash.Resolved
import PyKvCache.Ledger.Records
import PyKvCache.Safety.Budgets
import PyKvCache.Safety.Shutdown

/-!
# What is left when the reactor thread returns

The stop marker is the last item that ever comes in, so nothing is queued when
the thread leaves its loop; every accepted job is resolved, nothing is under
way, and every staging slot is free or in the staging cache.
-/

namespace PyKvCache.Safety

open PyKvCache.Library PyKvCache.Staging PyKvCache.Transfer
open PyKvCache.Reactor PyKvCache.Ledger PyKvCache.Library.Effect

variable {slotCount : Nat} {env : Env slotCount}
  {state start : State slotCount} {machine : Machine slotCount}

/-! ## The incoming queue -/

/-- The stop marker comes in once, with the closing of the reactor, and nothing
comes in after it. -/
structure QueueOrder (state : State slotCount) : Prop where
  opened : state.closed = false →
    state.stop = false ∧ .stop ∉ state.incoming
  asked : state.closed = true → state.stop = false →
    ∃ before, state.incoming = before ++ [.stop] ∧ .stop ∉ before
  stopped : state.stop = true → state.closed = true ∧ state.incoming = []

namespace QueueOrder

theorem same (order : QueueOrder start)
    (closed : state.closed = start.closed) (stop : state.stop = start.stop)
    (incoming : state.incoming = start.incoming) : QueueOrder state := by
  refine ⟨?_, ?_, ?_⟩
  · rw [closed, stop, incoming]
    exact order.opened
  · rw [closed, stop, incoming]
    exact order.asked
  · rw [closed, stop, incoming]
    exact order.stopped

/-- An item in the queue has the stop marker before it no longer. -/
theorem unstopped (order : QueueOrder state) {item : Item}
    {later : List Item} (first : state.incoming = item :: later) :
    state.stop = false := by
  by_contra stopped
  rw [Bool.not_eq_false] at stopped
  rw [(order.stopped stopped).2] at first
  cases first

theorem taken (order : QueueOrder state) {item : Item} {later : List Item}
    (first : state.incoming = item :: later) (other : item ≠ .stop) :
    QueueOrder { state with incoming := later } := by
  have running := order.unstopped first
  refine ⟨fun opened => ⟨running, fun member => ?_⟩, fun closed _ => ?_,
    fun stopped => absurd (running.symm.trans stopped) nofun⟩
  · refine (order.opened opened).2 ?_
    rw [first]
    exact List.mem_cons_of_mem item member
  · obtain ⟨before, queue, unmarked⟩ := order.asked closed running
    rw [first] at queue
    cases before with
    | nil => exact absurd (List.cons.inj queue).1 other
    | cons head tail =>
        exact ⟨tail, (List.cons.inj queue).2,
          fun member => unmarked (List.mem_cons_of_mem head member)⟩

theorem marked (order : QueueOrder state) {later : List Item}
    (first : state.incoming = .stop :: later) :
    QueueOrder { state with incoming := later, stop := true } := by
  have running := order.unstopped first
  have closed : state.closed = true := by
    by_contra opened
    rw [Bool.not_eq_true] at opened
    exact (order.opened opened).2 (by rw [first]; simp)
  obtain ⟨before, queue, unmarked⟩ := order.asked closed running
  have last : later = [] := by
    rw [first] at queue
    cases before with
    | nil => exact (List.cons.inj queue).2
    | cons head tail =>
        rw [List.cons_append] at queue
        rw [← (List.cons.inj queue).1] at unmarked
        exact absurd List.mem_cons_self unmarked
  exact ⟨fun opened => absurd (closed.symm.trans opened) nofun,
    fun _ going => absurd going nofun, fun _ => ⟨closed, last⟩⟩

/-- Another item comes in while the reactor is open. -/
theorem appended (order : QueueOrder state) (opened : state.closed = false)
    (item : Item) (other : item ≠ .stop) (accepted : List Job) :
    QueueOrder { state with
      incoming := state.incoming ++ [item]
      accepted := accepted } := by
  obtain ⟨going, unmarked⟩ := order.opened opened
  refine ⟨fun _ => ⟨going, fun member => ?_⟩, fun closed _ =>
    absurd (opened.symm.trans closed) nofun, fun stopped =>
    absurd (going.symm.trans stopped) nofun⟩
  rcases List.mem_append.mp member with old | new
  · exact unmarked old
  · exact other (List.mem_singleton.mp new).symm

end QueueOrder

theorem queueOrder_settles (quiet : env.Quiet) (file : FileRef)
    (error : Option Exc) :
    Keeps QueueOrder (fileTerminal env file error) :=
  fun _ order => wp_fileTerminal quiet.emits (order.same rfl rfl rfl)
    (order.same rfl rfl rfl)

theorem queueOrder_unqueued (quiet : env.Quiet) :
    Unqueued env QueueOrder where
  same := by
    intro state next same order
    simp only [frame, Prod.mk.injEq] at same
    obtain ⟨_, _, incoming, _, _, _, _, _, _, _, _, _, closed, stop⟩ := same
    exact order.same closed stop incoming
  starts := fun _ _ order => order.same rfl rfl rfl
  fails := fun file exc => queueOrder_settles quiet file (some exc)
  readied := fun _ _ _ order => order.same rfl rfl rfl
  launched := fun _ _ order => order.same rfl rfl rfl
  handedOver := fun _ _ order => order.same rfl rfl rfl
  numbered := fun _ order => order.same rfl rfl rfl
  queued := fun _ _ _ _ order => order.same rfl rfl rfl
  loadsLeft := fun _ _ order => order.same rfl rfl rfl
  preloadsLeft := fun _ _ order => order.same rfl rfl rfl
  copiesLeft := fun _ _ order => order.same rfl rfl rfl
  ringLeft := fun _ _ order => order.same rfl rfl rfl
  jobsLeft := fun _ _ order => order.same rfl rfl rfl
  flushed := fun _ order => order.same rfl rfl rfl

/-- The thread takes the items in one by one. -/
theorem intake_queueOrder (quiet : env.Quiet) {item : Item}
    {later : List Item} (order : QueueOrder state)
    (first : state.incoming = item :: later) :
    Retains QueueOrder (intake env item)
      { state with incoming := later } := by
  refine (queueOrder_unqueued quiet).intake_retains item
    (order.taken first) (fun marker => ?_) fun job isJob _ _ _ => ?_
  · subst marker
    exact order.marked first
  · subst isJob
    have taken := order.taken first nofun
    simp only [Retains, declineLoad, addEvent, modifyJob, wp_bind,
      wp_external, wp_modify]
    exact ⟨fun _ => taken.same rfl rfl rfl,
      fun _ _ => taken.same rfl rfl rfl⟩

theorem queueOrder_reachable (quiet : env.Quiet)
    (reached : Machine.Reachable env machine)
    (running : machine.phase.Running) : QueueOrder machine.state := by
  induction reached with
  | refl => exact ⟨fun _ => ⟨rfl, nofun⟩, nofun, nofun⟩
  | @tail before after reached step inductionHypothesis =>
      have ran := running_of_step step running
      have order := inductionHypothesis ran
      cases step with
      | advance =>
          exact (queueOrder_unqueued quiet).advance_intake
            (fun file => queueOrder_settles quiet file none) ran order
            fun _ _ _ first => intake_queueOrder quiet order first
      | submit job new =>
          unfold State.submitJob
          split
          · exact order.same rfl rfl rfl
          next opened =>
            exact order.appended (Bool.not_eq_true _ ▸ opened) (.job job)
              nofun _
      | preload request =>
          unfold State.enqueuePreload
          split
          · exact order
          next opened =>
            exact order.appended (Bool.not_eq_true _ ▸ opened)
              (.preload request) nofun _
      | shutdown =>
          unfold State.shutdown
          split
          · exact order
          next opened =>
            obtain ⟨going, unmarked⟩ :=
              order.opened (Bool.not_eq_true _ ▸ opened)
            exact ⟨nofun, fun _ _ => ⟨_, rfl, unmarked⟩, fun stopped =>
              absurd (going.symm.trans stopped) nofun⟩

/-! ## The exit -/

private theorem perform_exited {program : React slotCount PUnit}
    {next : Phase slotCount}
    (exited : (Machine.perform program next state).phase = .exited) :
    next = .exited := by
  unfold Machine.perform at exited
  split at exited
  · exact exited
  · cases exited

private theorem unlessDone_exited {next : Phase slotCount}
    (other : next ≠ .exited)
    (exited : (Machine.unlessDone next state).phase = .exited) :
    state.stop = true ∧ state.hasWork = false ∧
      (Machine.unlessDone next state).state = state := by
  unfold Machine.unlessDone at exited ⊢
  split at exited
  next done =>
    rw [Bool.and_eq_true, Bool.not_eq_true'] at done
    rw [if_pos (by simp [done])]
    exact ⟨done.1, done.2, rfl⟩
  next => exact absurd exited other

/-- The thread leaves its loop at the two exit tests. -/
theorem advance_exited (exited : (machine.advance env).phase = .exited) :
    (machine.phase = .exited ∨
      machine.state.stop = true ∧ machine.state.hasWork = false) ∧
        (machine.advance env).state = machine.state := by
  obtain ⟨phase, state⟩ := machine
  unfold Machine.advance at exited ⊢
  cases phase with
  | loopHead =>
      have other : (.incoming : Phase slotCount) ≠ .exited := nofun
      obtain ⟨stopped, idle, same⟩ := unlessDone_exited other exited
      exact ⟨Or.inr ⟨stopped, idle⟩, same⟩
  | incoming =>
      dsimp only at exited ⊢
      split at exited
      next =>
        have other : Phase.copies state.pendingCopies ≠ .exited := nofun
        obtain ⟨stopped, idle, same⟩ := unlessDone_exited other exited
        exact ⟨Or.inr ⟨stopped, idle⟩, same⟩
      next => cases perform_exited exited
  | copies todo =>
      cases todo with
      | nil => cases exited
      | cons copy todo => cases perform_exited exited
  | poll =>
      dsimp only at exited
      split at exited <;> cases exited
  | completions todo =>
      cases todo with
      | nil => cases exited
      | cons completion todo => cases perform_exited exited
  | scheduling => cases perform_exited exited
  | flushing => cases perform_exited exited
  | submitting => cases perform_exited exited
  | finishing => cases perform_exited exited
  | crashed exc => cases perform_exited exited
  | closing exc => cases perform_exited exited
  | dead => cases exited
  | exited => exact ⟨Or.inl rfl, rfl⟩

/-- The thread returns only with the stop flag set and without work, and then
nothing brings it new work. -/
theorem exited_idle (quiet : env.Quiet)
    (reached : Machine.Reachable env machine)
    (exited : machine.phase = .exited) :
    machine.state.stop = true ∧ machine.state.hasWork = false := by
  induction reached with
  | refl => cases exited
  | @tail before after reached step inductionHypothesis =>
      have closed : before.phase = .exited → before.state.closed = true := by
        intro gone
        have order := queueOrder_reachable quiet reached (by
          rw [gone]
          trivial)
        exact (order.stopped (inductionHypothesis gone).1).1
      cases step with
      | advance =>
          obtain ⟨before, same⟩ := advance_exited exited
          rw [same]
          exact before.elim inductionHypothesis id
      | submit job new =>
          unfold State.submitJob
          rw [if_pos (closed exited)]
          exact inductionHypothesis exited
      | preload request =>
          unfold State.enqueuePreload
          rw [if_pos (closed exited)]
          exact inductionHypothesis exited
      | shutdown =>
          unfold State.shutdown
          rw [if_pos (closed exited)]
          exact inductionHypothesis exited

/-- Everything the reactor keeps track of is done: its queues, its tables of
work and its budgets are empty, every accepted job is resolved, and what is
submitted from now on is not taken in but answered at once. -/
structure LeftClean (state : State slotCount) : Prop where
  incoming : state.incoming = []
  active : state.active = []
  resolved : ∀ job ∈ state.accepted, (state.jobs job).future ≠ none
  files : filesOnTheWay state = []
  ring : state.inflight.entries = []
  copies : state.pendingCopies = [] ∧ state.copyReady = []
  opened : state.readyFdsLoad = [] ∧ state.readyFdsPreload = []
  preloads : state.preloadPending = [] ∧
    state.preloadSlots.dict.entries = [] ∧ state.sharedCached.entries = []
  data : state.dataInflight = 0
  opens : state.openInflight = 0
  refused : ∀ job, (state.submitJob job).incoming = [] ∧
    (state.submitJob job).accepted = state.accepted
  answered : ∀ job, ((state.submitJob job).jobs job).future ≠ none

/-- In a state of a returned thread, whatever the other threads did before and
do after it returns, nothing is left. -/
theorem exit_leftClean (quiet : env.Quiet)
    (reached : Machine.Reachable env machine)
    (exited : machine.phase = .exited) : LeftClean machine.state := by
  obtain ⟨stopped, idle⟩ := exited_idle quiet reached exited
  have running : machine.phase.Running := by
    rw [exited]
    trivial
  obtain ⟨closed, incoming⟩ :=
    (queueOrder_reachable quiet reached running).stopped stopped
  simp only [State.hasWork, Bool.or_eq_false_iff, Bool.not_eq_false',
    List.isEmpty_iff] at idle
  obtain ⟨⟨⟨⟨⟨⟨⟨⟨active, ring⟩, pending⟩, ready⟩, preloads⟩, slots⟩, shared⟩,
    loadFds⟩, preloadFds⟩ := idle
  have takes : ∀ before, Crash.TakesJobsIn env before :=
    fun _ _ _ _ _ => Crash.takesIn_of_silent fun _ _ => quiet _ _ rfl
  have settled := Crash.reachable_recoverable quiet.emits
    (reached.under takes)
  simp only [Crash.Recoverable, exited] at settled
  obtain ⟨_, inv⟩ := preloadInv quiet rfl (fun _ _ => permits_any)
    (reached.under fun _ => trivial) running
  have noOps : machine.state.inflight.values = [] := by
    simp [OrderedDict.values, ring]
  have data := inv.budgets.data
  have opens := inv.budgets.opens
  simp only [dataUnits, openUnits, noOps, pending, weigh_nil, Hand.empty]
    at data opens
  obtain ⟨_, jobs, _⟩ :=
    reachable_held (fileRules quiet) fileInv_init reached running
  have files : filesOnTheWay machine.state = [] := by
    rw [List.eq_nil_iff_forall_not_mem]
    intro file member
    obtain ⟨entry, placed, _⟩ := List.mem_map.mp member
    rw [← placed_hand machine.phase] at placed
    have found := jobs.active entry placed
    rw [active] at found
    cases found
  refine ⟨incoming, active, fun job known unresolved => ?_, files, ring,
    ⟨pending, ready⟩, ⟨loadFds, preloadFds⟩, ⟨preloads, slots, shared⟩,
    data, opens, fun job => ?_, fun job => ?_⟩
  · have found := settled.listed job known unresolved
    rw [incoming, active] at found
    simp at found
  · rw [State.submitJob, if_pos closed]
    exact ⟨incoming, rfl⟩
  · rw [State.submitJob, if_pos closed]
    simp only [State.updateJob, Function.update_self]
    split
    next isSet => exact settled.flagged job isSet
    next => simp

/-- If nothing is lent when the stop marker is taken in, no staging slot has
leaked when the thread has returned: each is free or in the staging cache, and
nothing there is pinned. -/
structure SlotsBack (state : State slotCount) : Prop where
  back : (state.free ++ state.cacheSlots.map CacheSlot.slotIndex).Perm
    (List.finRange slotCount)
  unpinned : ∀ cache, state.stagingCache = some cache →
    ∀ slot, cache.copiesInflight slot = 0

theorem exit_slotsBack (quiet : env.Quiet)
    (reached : Machine.ReachableUnder env StopsCalm machine)
    (exited : machine.phase = .exited) : SlotsBack machine.state := by
  obtain ⟨_, idle⟩ := exited_idle quiet reached.reachable exited
  simp only [State.hasWork, Bool.or_eq_false_iff, Bool.not_eq_false',
    List.isEmpty_iff] at idle
  obtain ⟨⟨⟨⟨⟨⟨⟨⟨_, ring⟩, pending⟩, ready⟩, _⟩, slots⟩, shared⟩, _⟩, _⟩ := idle
  have rules : Rules env pullsNothing (OwnerInv env pullsNothing) :=
    ⟨quiet, ownerInv_closed⟩
  have held := reachableUnder_held rules rfl StopsCalm
    (fun _ calm => permits_pullsNothing calm) ownerInv_init reached
  obtain ⟨live, books⟩ := slotBooks_of_heldAt held (by
    rw [exited]
    trivial) (Or.inr rfl)
  have noCopies : machine.state.loadCopies = [] := by
    simp [State.loadCopies, pending, ready]
  refine ⟨?_, fun cache cached slot => ?_⟩
  · have perm := books.slotPlaces_perm
    simpa [slotPlaces, sharedSlots, State.owned, noCopies, pending,
      OrderedDict.values, ring, shared, QueueTable.pairs, slots,
      Function.comp_def] using perm
  · have counted := books.readers_eq (.cache slot) (by simp)
    simp only [readers, noCopies, State.lent, cached] at counted
    exact counted.symm

section Examples

/-- The open, the read and the close of operations one to three succeed. -/
def closeWorld : Env 5 :=
  .smooth true fun calls =>
    if calls = 6 then [(1, 3)]
    else if calls = 9 then [(2, 1)]
    else if 9 < calls then [(3, 0)]
    else []

/-- A load is served, and then the reactor is shut down. -/
@[irreducible]
def servedAndShutDown : Machine 5 :=
  (Machine.init closeWorld).play closeWorld
    (waitingLoad oneFileLoad 40 ++
      .shutdown :: List.replicate 12 .advance)

theorem servedAndShutDown_leftClean :
    LeftClean servedAndShutDown.state := by
  have reached : Machine.Reachable closeWorld servedAndShutDown := by
    unfold servedAndShutDown
    exact Machine.reachable_play _ (by decide +kernel)
  exact exit_leftClean Env.smooth_quiet reached (by decide +kernel)

theorem servedAndShutDown_slotsBack :
    SlotsBack servedAndShutDown.state := by
  have reached :
      Machine.ReachableUnder closeWorld StopsCalm servedAndShutDown := by
    unfold servedAndShutDown
    exact Machine.reachableUnder_play _ Relation.ReflTransGen.refl
      (by decide +kernel)
  exact exit_slotsBack Env.smooth_quiet reached (by decide +kernel)

end Examples

end PyKvCache.Safety
