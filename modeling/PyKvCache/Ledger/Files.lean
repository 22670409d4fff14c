import PyKvCache.Ledger.Run
import PyKvCache.Library.Inventory

/-!
# The files of the jobs

Where the scheduled files of all jobs are, and what a move does to them: most
moves hand files on, the others start a file, end one, or drop one.
-/

namespace PyKvCache.Reactor

open PyKvCache.Library

variable {slotCount : Nat}

/-- The file of a ring operation, and whether it is being stored. -/
def RingOp.placed : RingOp slotCount → List (FileRef × Bool)
  | .opening (.load file) => [(file, false)]
  | .reading (.load file) _ _ => [(file, false)]
  | .writing file _ _ _ _ => [(file, true)]
  | _ => []

/-- The files of a GPU copy. -/
def CopyOp.placed : CopyOp slotCount → List (FileRef × Bool)
  | .store file _ => [(file, true)]
  | .load members => members.map fun copy => (copy.file, false)

/-- Every scheduled file that has not ended: in an open, read or write, with a
ready descriptor, waiting for a preload, ready to be copied, or in a GPU
copy. -/
def State.placed (state : State slotCount) : List (FileRef × Bool) :=
  state.inflight.values.flatMap RingOp.placed ++
    state.readyFdsLoad.map (fun entry => (entry.2, false)) ++
    state.preloadWaiters.pairs.map (fun entry => (entry.2, false)) ++
    state.copyReady.map (fun ready => (ready.copy.file, false)) ++
    state.pendingCopies.flatMap CopyOp.placed

end PyKvCache.Reactor

namespace PyKvCache.Ledger

open PyKvCache.Library PyKvCache.Staging PyKvCache.Transfer
open PyKvCache.Reactor

variable {slotCount : Nat} {env : Env slotCount} {slack : Slack}
  {hand hand' : Hand slotCount} {state state' : State slotCount}

/-- The files in hand and in the tables. -/
def placed (hand : Hand slotCount) (state : State slotCount) :
    List (FileRef × Bool) :=
  hand.files.map (fun file => (file, false)) ++
    hand.stores.map (fun file => (file, true)) ++
    hand.copies.map (fun copy => (copy.file, false)) ++
    state.placed

/-- What a move does to the files, to the jobs and to the record of ended
files. -/
inductive FileChange (slack : Slack) (hand : Hand slotCount)
    (state : State slotCount) (hand' : Hand slotCount)
    (state' : State slotCount) : Prop
  | handedOn (places : (placed hand' state').Perm (placed hand state))
      (jobs : state'.jobs = state.jobs)
      (terminals : state'.terminals = state.terminals)
  | started (file : FileRef) (known : file.job ∈ hand.known)
      (unfailed : (state.jobs file.job).failed = none)
      (next : (state.jobs file.job).nextFileIndex = file.index)
      (places : (placed hand' state').Perm
        ((file, file.job.isStore) :: placed hand state))
      (jobs : state'.jobs = (started state file.job).jobs)
      (terminals : state'.terminals = state.terminals)
  | ended (file : FileRef) (storing : Bool) (error : Option Exc)
      (places : (placed hand state).Perm
        ((file, storing) :: placed hand' state'))
      (jobs : state'.jobs = (ended state file error).jobs)
      (terminals : state'.terminals = (ended state file error).terminals)
  | lost (file : FileRef) (allowed : slack.loses = true)
      (places : (placed hand state).Perm
        ((file, false) :: placed hand' state'))
      (jobs : state'.jobs = state.jobs)
      (terminals : state'.terminals = state.terminals)
  | declined (job : Job) (exc : Exc) (held : hand.job = some job)
      (given : hand'.job = none)
      (incoming : state'.incoming = state.incoming)
      (active : state'.active = state.active)
      (accepted : state'.accepted = state.accepted)
      (places : (placed hand' state').Perm (placed hand state))
      (jobs : state'.jobs = Function.update state.jobs job
        { state.jobs job with
          futureSet := true
          future := some (.exception exc) })
      (terminals : state'.terminals = state.terminals)
  | refused (job : Job) (new : job ∉ state.accepted)
      (closed : state.closed = true)
      (places : (placed hand' state').Perm (placed hand state))
      (jobs : state'.jobs = Function.update state.jobs job
        { state.jobs job with
          futureSet := true
          future := some
            (.exception (.runtimeError "reactor is shut down")) })
      (terminals : state'.terminals = state.terminals)

/-- The files in hand and in the tables, weighed. -/
theorem weigh_placed {weight : FileRef × Bool → Nat} :
    weigh weight (placed hand state) =
      weigh (fun file => weight (file, false)) hand.files +
      weigh (fun file => weight (file, true)) hand.stores +
      weigh (fun copy => weight (copy.file, false)) hand.copies +
      (weigh (fun op => weigh weight (RingOp.placed op))
          state.inflight.values +
        weigh (fun entry => weight (entry.2, false)) state.readyFdsLoad +
        weigh (fun entry => weight (entry.2, false))
          state.preloadWaiters.pairs +
        weigh (fun ready => weight (ready.copy.file, false))
          state.copyReady +
        weigh (fun copy => weigh weight (CopyOp.placed copy))
          state.pendingCopies) := by
  simp only [placed, State.placed, weigh_append, weigh_map, weigh_flatMap]

/-- A move that touches none of the places. -/
private theorem FileChange.untouched (files : hand'.files = hand.files)
    (stores : hand'.stores = hand.stores)
    (copies : hand'.copies = hand.copies)
    (inflight : state'.inflight = state.inflight)
    (ready : state'.readyFdsLoad = state.readyFdsLoad)
    (waiters : state'.preloadWaiters = state.preloadWaiters)
    (queued : state'.copyReady = state.copyReady)
    (pending : state'.pendingCopies = state.pendingCopies)
    (jobs : state'.jobs = state.jobs)
    (terminals : state'.terminals = state.terminals) :
    FileChange slack hand state hand' state' := by
  refine .handedOn ?_ jobs terminals
  unfold placed State.placed
  rw [files, stores, copies, inflight, ready, waiters, queued, pending]

/-- Every move is one of the changes. -/
theorem Move.files (base : Base hand state)
    (moved : Move env slack hand state hand' state') :
    FileChange slack hand state hand' state' := by
  cases moved with
  | queueOwn mapping heldFile heldSlot =>
      refine .handedOn (perm_of_weigh fun weight => ?_) rfl rfl
      simp only [weigh_placed, heldFile, weigh_append, weigh_cons, weigh_nil]
      omega
  | queueShared mapping heldFile heldClaim same =>
      refine .handedOn (perm_of_weigh fun weight => ?_) rfl rfl
      simp only [weigh_placed, heldFile, weigh_append, weigh_cons, weigh_nil]
      omega
  | queueCache mapping heldFile heldPin same =>
      refine .handedOn (perm_of_weigh fun weight => ?_) rfl rfl
      simp only [weigh_placed, heldFile, weigh_append, weigh_cons, weigh_nil]
      omega
  | takeReady reaps empty =>
      refine .handedOn (perm_of_weigh fun weight => ?_) rfl rfl
      simp only [weigh_placed, empty, weigh_map, weigh_nil]
      omega
  | launchLoads held =>
      refine .handedOn (perm_of_weigh fun weight => ?_) rfl rfl
      simp only [weigh_placed, held, weigh_append, weigh_cons, weigh_nil,
        CopyOp.placed, weigh_map]
      omega
  | takeLoads reaps empty first =>
      refine .handedOn (perm_of_weigh fun weight => ?_) rfl rfl
      simp only [weigh_placed, empty, weigh_nil,
        weigh_erase (base.mem_pendingCopies first), CopyOp.placed, weigh_map]
      omega
  | openOwn held =>
      refine .handedOn (perm_of_weigh fun weight => ?_) rfl rfl
      simp only [weigh_placed, held, weigh_cons]
      omega
  | openShared held =>
      refine .handedOn (perm_of_weigh fun weight => ?_) rfl rfl
      simp only [weigh_placed, held, weigh_cons]
      omega
  | openCache held =>
      refine .handedOn (perm_of_weigh fun weight => ?_) rfl rfl
      simp only [weigh_placed, held, weigh_cons]
      omega
  | @startLoad file loading active unfailed next =>
      refine .started file active unfailed next
        (perm_of_weigh fun weight => ?_) rfl rfl
      simp only [weigh_placed, started, State.updateJob, weigh_cons, loading]
      omega
  | @startStore file storing active unfailed next =>
      refine .started file active unfailed next
        (perm_of_weigh fun weight => ?_) rfl rfl
      simp only [weigh_placed, started, State.updateJob, weigh_cons, storing]
      omega
  | @endLoad file files error held =>
      refine .ended file false error (perm_of_weigh fun weight => ?_) rfl rfl
      simp only [weigh_placed, ended, State.updateJob, State.recordTerminal,
        held, weigh_cons]
      omega
  | @endStore file stores error held =>
      refine .ended file true error (perm_of_weigh fun weight => ?_) rfl rfl
      simp only [weigh_placed, ended, State.updateJob, State.recordTerminal,
        held, weigh_cons]
      omega
  | @lose file files allowed held =>
      refine .lost file allowed (perm_of_weigh fun weight => ?_) rfl rfl
      simp only [weigh_placed, held, weigh_cons]
      omega
  | wait held room =>
      refine .handedOn (perm_of_weigh fun weight => ?_) rfl rfl
      simp only [weigh_placed, held, weigh_cons, QueueTable.weigh_pushBack]
      omega
  | wake ended queued =>
      refine .handedOn (perm_of_weigh fun weight => ?_) rfl rfl
      simp only [weigh_placed, weigh_cons, QueueTable.weigh_keep queued]
      omega
  | wakeAll stopped empty =>
      refine .handedOn (perm_of_weigh fun weight => ?_) rfl rfl
      have none : (QueueTable.empty : QueueTable BlockHash FileRef).pairs =
        [] := rfl
      simp only [weigh_placed, empty, weigh_map, none, weigh_nil]
      omega
  | openLoad held new numbered =>
      refine .handedOn (perm_of_weigh fun weight => ?_) rfl rfl
      simp only [weigh_placed, held, weigh_cons, weigh_nil, RingOp.placed,
        OrderedDict.weigh_values_set new]
      omega
  | openPreload allowed served room ended new numbered =>
      refine .handedOn (perm_of_weigh fun weight => ?_) rfl rfl
      simp only [weigh_placed, weigh_nil, RingOp.placed,
        OrderedDict.weigh_values_set new]
      omega
  | readLoad fd heldFile heldSlot new numbered =>
      refine .handedOn (perm_of_weigh fun weight => ?_) rfl rfl
      simp only [weigh_placed, State.fill, heldFile, weigh_cons, weigh_nil,
        RingOp.placed, OrderedDict.weigh_values_set new]
      omega
  | readPreload fd heldInfo heldSlot new numbered =>
      refine .handedOn (perm_of_weigh fun weight => ?_) rfl rfl
      simp only [weigh_placed, State.fill, weigh_nil, RingOp.placed,
        OrderedDict.weigh_values_set new]
      omega
  | write fd finalPath tempPath heldFile heldSlot heldUnit new numbered =>
      refine .handedOn (perm_of_weigh fun weight => ?_) rfl rfl
      simp only [weigh_placed, heldFile, weigh_cons, weigh_nil,
        RingOp.placed, OrderedDict.weigh_values_set new]
      omega
  | close fd new numbered =>
      refine .handedOn (perm_of_weigh fun weight => ?_) rfl rfl
      simp only [weigh_placed, weigh_nil, RingOp.placed,
        OrderedDict.weigh_values_set new]
      omega
  | openedLoad reaps reaped =>
      refine .handedOn (perm_of_weigh fun weight => ?_) rfl rfl
      simp only [weigh_placed, weigh_cons, weigh_nil, RingOp.placed,
        OrderedDict.weigh_values_erase reaped]
      omega
  | openedPreload reaps reaped =>
      refine .handedOn (perm_of_weigh fun weight => ?_) rfl rfl
      simp only [weigh_placed, weigh_nil, RingOp.placed,
        OrderedDict.weigh_values_erase reaped]
      omega
  | doneLoad reaps reaped =>
      refine .handedOn (perm_of_weigh fun weight => ?_) rfl rfl
      simp only [weigh_placed, weigh_cons, weigh_nil, RingOp.placed,
        OrderedDict.weigh_values_erase reaped]
      omega
  | donePreload reaps reaped =>
      refine .handedOn (perm_of_weigh fun weight => ?_) rfl rfl
      simp only [weigh_placed, weigh_nil, RingOp.placed,
        OrderedDict.weigh_values_erase reaped]
      omega
  | doneWrite reaps reaped =>
      refine .handedOn (perm_of_weigh fun weight => ?_) rfl rfl
      simp only [weigh_placed, weigh_cons, weigh_nil, RingOp.placed,
        OrderedDict.weigh_values_erase reaped]
      omega
  | doneClose reaps reaped =>
      refine .handedOn (perm_of_weigh fun weight => ?_) rfl rfl
      simp only [weigh_placed, weigh_nil, RingOp.placed,
        OrderedDict.weigh_values_erase reaped]
      omega
  | readyLoad fd held =>
      refine .handedOn (perm_of_weigh fun weight => ?_) rfl rfl
      simp only [weigh_placed, held, weigh_append, weigh_cons, weigh_nil]
      omega
  | takeLoadFd first =>
      refine .handedOn (perm_of_weigh fun weight => ?_) rfl rfl
      simp only [weigh_placed, first, weigh_cons]
      omega
  | launchStore heldFile heldSlot =>
      refine .handedOn (perm_of_weigh fun weight => ?_) rfl rfl
      simp only [weigh_placed, State.fill, heldFile, weigh_append,
        weigh_cons, weigh_nil, CopyOp.placed]
      omega
  | takeStore reaps first =>
      refine .handedOn (perm_of_weigh fun weight => ?_) rfl rfl
      simp only [weigh_placed, weigh_cons, weigh_nil,
        weigh_erase (base.mem_pendingCopies first), CopyOp.placed]
      omega
  | @decline job held loading exc =>
      exact .declined job exc held rfl rfl rfl rfl (List.Perm.refl _) rfl rfl
  | submit job new =>
      unfold State.submitJob
      split
      next closed =>
        by_cases unset : (state.jobs job).futureSet = true
        · have same : state.updateJob job (fun fields =>
              if fields.futureSet then fields
              else
                { fields with
                  futureSet := true
                  future := some
                    (.exception (.runtimeError "reactor is shut down")) })
              = state := by
            simp [State.updateJob, unset]
          rw [same]
          exact .handedOn (List.Perm.refl _) rfl rfl
        · refine .refused job new closed (List.Perm.refl _) ?_ rfl
          simp [State.updateJob, unset]
      next => exact .handedOn (List.Perm.refl _) rfl rfl
  | enqueue request =>
      unfold State.enqueuePreload
      split
      · exact .handedOn (List.Perm.refl _) rfl rfl
      · exact .handedOn (List.Perm.refl _) rfl rfl
  | shutdown =>
      unfold State.shutdown
      split
      · exact .handedOn (List.Perm.refl _) rfl rfl
      · exact .handedOn (List.Perm.refl _) rfl rfl
  | _ => exact .untouched rfl rfl rfl rfl rfl rfl rfl rfl rfl rfl

/-! ## The books of the files -/

/-- Every file that was ever scheduled. -/
def scheduled (hand : Hand slotCount) (state : State slotCount)
    (lost : List FileRef) : List FileRef :=
  (placed hand state).map Prod.fst ++ state.terminals.map Terminal.file ++
    lost

/-- The tables, the jobs and the record of ended files agree; `lost` are the
files that have left the tables without ending. -/
structure FileBooks (hand : Hand slotCount) (state : State slotCount)
    (lost : List FileRef) : Prop where
  kinds : ∀ entry ∈ placed hand state, entry.1.job.isStore = entry.2
  lostLoads : ∀ file ∈ lost, file.job.isStore = false
  once : (scheduled hand state lost).Nodup
  started : ∀ file, file ∈ scheduled hand state lost ↔
    file.index < (state.jobs file.job).nextFileIndex
  counted : ∀ job, (state.jobs job).inflightFiles =
    (((placed hand state).map Prod.fst ++ lost).countP
      fun file => file.job = job)
  done : ∀ job, (state.jobs job).doneFiles =
    state.terminals.countP fun terminal =>
      terminal.file.job = job ∧ terminal.error = none
  complete : ∀ job bytes,
    (state.jobs job).future = some (.result bytes) →
      job.totalFiles ≤ (state.jobs job).doneFiles

theorem FileRef.eq_of_index {first second : FileRef}
    (job : first.job = second.job) (index : first.index = second.index) :
    first = second := by
  cases first
  cases second
  simp only [FileRef.mk.injEq]
  exact ⟨job, index⟩

/-- The fields of all jobs after those of one were assigned. -/
theorem updateJob_jobs (job other : Job)
    (change : JobState → JobState) :
    (state.updateJob job change).jobs other =
      if other = job then change (state.jobs other)
      else state.jobs other := by
  unfold State.updateJob
  by_cases same : other = job
  · subst same
    simp
  · simp [same]

theorem update_jobs (job other : Job) (fields : JobState) :
    Function.update state.jobs job fields other =
      if other = job then fields else state.jobs other := by
  rw [Function.update_apply]

theorem started_jobs {owner job : Job} :
    (started state owner).jobs job =
      if job = owner then
        { state.jobs job with
          nextFileIndex := (state.jobs job).nextFileIndex + 1
          inflightFiles := (state.jobs job).inflightFiles + 1 }
      else state.jobs job :=
  updateJob_jobs owner job _

theorem ended_jobs {file : FileRef} {error : Option Exc} {job : Job} :
    (ended state file error).jobs job =
      if job = file.job then endedJob file.job error (state.jobs job)
      else state.jobs job :=
  @updateJob_jobs _ (state.recordTerminal file error) file.job job _

/-- Files that only moved. -/
theorem scheduled_perm {lost : List FileRef}
    (places : (placed hand' state').Perm (placed hand state))
    (terminals : state'.terminals = state.terminals) :
    (scheduled hand' state' lost).Perm (scheduled hand state lost) := by
  unfold scheduled
  rw [terminals]
  exact ((places.map _).append_right _).append_right _

namespace FileBooks

variable {lost : List FileRef}

theorem handedOn (books : FileBooks hand state lost)
    (places : (placed hand' state').Perm (placed hand state))
    (jobs : state'.jobs = state.jobs)
    (terminals : state'.terminals = state.terminals) :
    FileBooks hand' state' lost where
  kinds := fun entry member => books.kinds entry (places.mem_iff.mp member)
  lostLoads := books.lostLoads
  once := (scheduled_perm places terminals).nodup_iff.mpr books.once
  started := by
    intro file
    rw [(scheduled_perm places terminals).mem_iff, jobs]
    exact books.started file
  counted := by
    intro job
    rw [jobs, books.counted job,
      ((places.map Prod.fst).append_right lost).countP_eq]
  done := by
    rw [jobs, terminals]
    exact books.done
  complete := by
    rw [jobs]
    exact books.complete

theorem start (books : FileBooks hand state lost) {file : FileRef}
    (next : (state.jobs file.job).nextFileIndex = file.index)
    (places : (placed hand' state').Perm
      ((file, file.job.isStore) :: placed hand state))
    (jobs : state'.jobs = (Ledger.started state file.job).jobs)
    (terminals : state'.terminals = state.terminals) :
    FileBooks hand' state' lost := by
  have perm : (scheduled hand' state' lost).Perm
      (file :: scheduled hand state lost) := by
    unfold scheduled
    rw [terminals]
    exact ((places.map Prod.fst).append_right _).append_right _
  have new : file ∉ scheduled hand state lost := by
    rw [books.started, next]
    exact Nat.lt_irrefl _
  have fields := fun job => (congrFun jobs job).trans started_jobs
  refine ⟨?_, books.lostLoads, ?_, ?_, ?_, ?_, ?_⟩
  · intro entry member
    rcases List.mem_cons.mp (places.mem_iff.mp member) with rfl | old
    · rfl
    · exact books.kinds entry old
  · exact perm.nodup_iff.mpr (List.nodup_cons.mpr ⟨new, books.once⟩)
  · intro other
    rw [perm.mem_iff, List.mem_cons, books.started, fields]
    by_cases same : other.job = file.job
    · rw [if_pos same]
      rw [← same] at next
      constructor
      · rintro (rfl | before)
        · exact Nat.lt_succ_of_le (Nat.le_of_eq next.symm)
        · exact Nat.lt_succ_of_lt before
      · intro before
        rcases Nat.lt_succ_iff_lt_or_eq.mp before with earlier | last
        · exact Or.inr earlier
        · exact Or.inl (FileRef.eq_of_index same (last.trans next))
    · rw [if_neg same]
      constructor
      · rintro (rfl | before)
        · exact absurd rfl same
        · exact before
      · exact Or.inr
  · intro job
    rw [((places.map Prod.fst).append_right lost).countP_eq,
      List.map_cons, List.cons_append, List.countP_cons, fields]
    by_cases same : job = file.job
    · subst same
      simp [books.counted]
    · have different : ¬ file.job = job := fun equal => same equal.symm
      simp [same, different, books.counted]
  · intro job
    rw [terminals, ← books.done job, fields]
    split <;> rfl
  · intro job bytes
    rw [fields]
    split
    · exact books.complete job bytes
    · exact books.complete job bytes

/-- What one `_file_terminal` leaves in the fields of the job. -/
theorem endedJob_fields {job : Job} {error : Option Exc}
    {fields : JobState} :
    (endedJob job error fields).nextFileIndex = fields.nextFileIndex ∧
      (endedJob job error fields).inflightFiles =
        fields.inflightFiles - 1 ∧
      (endedJob job error fields).doneFiles =
        (if error = none then fields.doneFiles + 1
          else fields.doneFiles) := by
  unfold endedJob JobState.counted
  by_cases set : fields.futureSet = true
  · cases error <;> simp [set]
  cases error with
  | some exc => simp [set]
  | none =>
      by_cases all : fields.doneFiles + 1 = job.totalFiles
      · simp [set, all]
      · simp [set, all]

theorem endedJob_complete {job : Job} {error : Option Exc}
    {fields : JobState} {bytes : Nat}
    (before : ∀ bytes, fields.future = some (.result bytes) →
      job.totalFiles ≤ fields.doneFiles)
    (result : (endedJob job error fields).future = some (.result bytes)) :
    job.totalFiles ≤ (endedJob job error fields).doneFiles := by
  have grown : fields.future = some (.result bytes) →
      job.totalFiles ≤ (endedJob job error fields).doneFiles := by
    intro old
    rw [endedJob_fields.2.2]
    have enough := before bytes old
    split <;> omega
  unfold endedJob at result
  cases error with
  | some exc =>
      dsimp only at result
      split at result
      · exact grown result
      · cases result
  | none =>
      dsimp only at result
      split at result
      · exact grown result
      · next unset =>
        split at result
        next all =>
          rw [endedJob_fields.2.2]
          simp only [JobState.counted, Option.isNone_none, if_true] at all
          simp [all]
        next => exact grown result

theorem finish (books : FileBooks hand state lost) {file : FileRef}
    {storing : Bool} {error : Option Exc}
    (places : (placed hand state).Perm
      ((file, storing) :: placed hand' state'))
    (jobs : state'.jobs = (ended state file error).jobs)
    (terminals : state'.terminals = (ended state file error).terminals) :
    FileBooks hand' state' lost := by
  have added : state'.terminals = state.terminals ++
      [⟨file, error, (state.jobs file.job).inflightFiles - 1⟩] := by
    rw [terminals]
    rfl
  have perm : (scheduled hand' state' lost).Perm
      (scheduled hand state lost) := by
    refine perm_of_weigh fun weight => ?_
    have moved := weigh_perm (fun entry => weight entry.1) places
    simp only [weigh_cons] at moved
    simp only [scheduled, added, List.map_append, List.map_cons,
      List.map_nil, weigh_append, weigh_map, weigh_cons, weigh_nil]
    omega
  have fields := fun job => (congrFun jobs job).trans ended_jobs
  refine ⟨?_, books.lostLoads, perm.nodup_iff.mpr books.once, ?_, ?_, ?_,
    ?_⟩
  · intro entry member
    exact books.kinds entry
      (places.mem_iff.mpr (List.mem_cons_of_mem _ member))
  · intro other
    rw [perm.mem_iff, books.started, fields]
    split
    · rw [endedJob_fields.1]
    · rfl
  · intro job
    have before := books.counted job
    rw [((places.map Prod.fst).append_right lost).countP_eq,
      List.map_cons, List.cons_append, List.countP_cons] at before
    rw [fields]
    by_cases same : job = file.job
    · subst same
      rw [if_pos rfl, endedJob_fields.2.1, before]
      simp
    · have different : ¬ file.job = job := fun equal => same equal.symm
      rw [if_neg same, before]
      simp [different]
  · intro job
    rw [fields, added, List.countP_append, ← books.done job]
    by_cases same : job = file.job
    · subst same
      rw [if_pos rfl, endedJob_fields.2.2]
      cases error <;> simp
    · have different : ¬ file.job = job := fun equal => same equal.symm
      simp [same, different]
  · intro job bytes
    rw [fields]
    split
    next same =>
      subst same
      exact endedJob_complete (books.complete file.job)
    next => exact books.complete job bytes

theorem lose (books : FileBooks hand state lost) {file : FileRef}
    (places : (placed hand state).Perm
      ((file, false) :: placed hand' state'))
    (jobs : state'.jobs = state.jobs)
    (terminals : state'.terminals = state.terminals) :
    FileBooks hand' state' (file :: lost) := by
  have perm : (scheduled hand' state' (file :: lost)).Perm
      (scheduled hand state lost) := by
    refine perm_of_weigh fun weight => ?_
    have moved := weigh_perm (fun entry => weight entry.1) places
    simp only [weigh_cons] at moved
    simp only [scheduled, terminals, weigh_append, weigh_map, weigh_cons]
    omega
  refine ⟨?_, ?_, perm.nodup_iff.mpr books.once, ?_, ?_, ?_, ?_⟩
  · intro entry member
    exact books.kinds entry
      (places.mem_iff.mpr (List.mem_cons_of_mem _ member))
  · intro other member
    rcases List.mem_cons.mp member with rfl | old
    · exact books.kinds (other, false)
        (places.mem_iff.mpr List.mem_cons_self)
    · exact books.lostLoads other old
  · intro other
    rw [perm.mem_iff, jobs]
    exact books.started other
  · intro job
    rw [jobs, books.counted job,
      ((places.map Prod.fst).append_right lost).countP_eq]
    simp only [List.map_cons, List.cons_append, List.countP_cons,
      List.countP_append]
    omega
  · rw [jobs, terminals]
    exact books.done
  · rw [jobs]
    exact books.complete

/-- A future that was set to an exception without a file ending. -/
theorem setFuture (books : FileBooks hand state lost) {job : Job}
    {exc : Exc}
    (places : (placed hand' state').Perm (placed hand state))
    (jobs : state'.jobs = Function.update state.jobs job
      { state.jobs job with
        futureSet := true
        future := some (.exception exc) })
    (terminals : state'.terminals = state.terminals) :
    FileBooks hand' state' lost := by
  have next : ∀ other, (state'.jobs other).nextFileIndex =
      (state.jobs other).nextFileIndex := by
    intro other
    rw [jobs, update_jobs]
    split
    next same => rw [same]
    next => rfl
  have inflight : ∀ other, (state'.jobs other).inflightFiles =
      (state.jobs other).inflightFiles := by
    intro other
    rw [jobs, update_jobs]
    split
    next same => rw [same]
    next => rfl
  have doneFiles : ∀ other, (state'.jobs other).doneFiles =
      (state.jobs other).doneFiles := by
    intro other
    rw [jobs, update_jobs]
    split
    next same => rw [same]
    next => rfl
  refine ⟨fun entry member => books.kinds entry (places.mem_iff.mp member),
    books.lostLoads, (scheduled_perm places terminals).nodup_iff.mpr
      books.once, ?_, ?_, ?_, ?_⟩
  · intro file
    rw [(scheduled_perm places terminals).mem_iff, next]
    exact books.started file
  · intro other
    rw [inflight, books.counted other,
      ((places.map Prod.fst).append_right lost).countP_eq]
  · intro other
    rw [doneFiles, terminals]
    exact books.done other
  · intro other bytes result
    rw [doneFiles]
    rw [jobs, update_jobs] at result
    split at result
    · cases result
    · exact books.complete other bytes result

/-- Every change keeps the books. -/
theorem change (books : FileBooks hand state lost)
    (changed : FileChange slack hand state hand' state') :
    ∃ lost', (slack.loses = false → lost' = lost) ∧
      FileBooks hand' state' lost' := by
  cases changed with
  | handedOn places jobs terminals =>
      exact ⟨lost, fun _ => rfl, books.handedOn places jobs terminals⟩
  | started file known unfailed next places jobs terminals =>
      exact ⟨lost, fun _ => rfl, books.start next places jobs terminals⟩
  | ended file storing error places jobs terminals =>
      exact ⟨lost, fun _ => rfl, books.finish places jobs terminals⟩
  | lost file allowed places jobs terminals =>
      refine ⟨file :: lost, fun forbidden => ?_,
        books.lose places jobs terminals⟩
      rw [allowed] at forbidden
      cases forbidden
  | declined job exc held given incoming active accepted places jobs
      terminals =>
      exact ⟨lost, fun _ => rfl, books.setFuture places jobs terminals⟩
  | refused job new closed places jobs terminals =>
      exact ⟨lost, fun _ => rfl, books.setFuture places jobs terminals⟩

end FileBooks

end PyKvCache.Ledger
