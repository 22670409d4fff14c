import PyKvCache.Safety.Descriptors
import PyKvCache.Safety.Preloads
import PyKvCache.Safety.Stores
import PyKvCache.Staging.Capacity

/-!
# A reactor at rest

Nothing is in the ring and no copy is under way.  Then the budgets are free,
no slot is lent out, a load or a store finds a slot, and a job that still has
to end and has scheduled all its files waits for a preload whose descriptor is
ready.
-/

namespace PyKvCache.Progress

open PyKvCache.Library PyKvCache.Staging PyKvCache.Transfer
open PyKvCache.Reactor PyKvCache.Ledger PyKvCache.Safety
open PyKvCache.Library.Effect

variable {slotCount : Nat} {env : Env slotCount} {slack : Slack}
  {hand hand' : Hand slotCount} {state state' : State slotCount}
  {machine : Machine slotCount}

/-! ## Futures -/

/-- A future that was set holds something, and a job whose future was not set
has not failed, in no file, and has files to come. -/
structure FutureBooks (state : State slotCount) : Prop where
  resolved : ∀ job, (state.jobs job).futureSet = true →
    (state.jobs job).future ≠ none
  ended : ∀ terminal ∈ state.terminals, terminal.error ≠ none →
    (state.jobs terminal.file.job).futureSet = true
  unfailed : ∀ job, (state.jobs job).futureSet = false →
    (state.jobs job).failed = none
  unfinished : ∀ job, (state.jobs job).futureSet = false →
    (state.jobs job).doneFiles < job.totalFiles

namespace FutureBooks

/-- The futures of some jobs have been set. -/
private theorem of_jobs (books : FutureBooks state)
    (each : ∀ job, state'.jobs job = state.jobs job ∨
      (state'.jobs job).futureSet = true ∧ (state'.jobs job).future ≠ none)
    (terminals : state'.terminals = state.terminals) :
    FutureBooks state' := by
  refine ⟨fun job isSet => ?_, fun terminal member failed => ?_,
    fun job unset => ?_, fun job unset => ?_⟩
  · rcases each job with same | ⟨_, holds⟩
    · rw [same] at isSet ⊢
      exact books.resolved job isSet
    · exact holds
  · rw [terminals] at member
    rcases each terminal.file.job with same | ⟨isSet, _⟩
    · rw [same]
      exact books.ended terminal member failed
    · exact isSet
  · rcases each job with same | ⟨isSet, _⟩
    · rw [same] at unset ⊢
      exact books.unfailed job unset
    · exact absurd (isSet.symm.trans unset) Bool.true_eq_false.mp
  · rcases each job with same | ⟨isSet, _⟩
    · rw [same] at unset ⊢
      exact books.unfinished job unset
    · exact absurd (isSet.symm.trans unset) Bool.true_eq_false.mp

/-- A file was started. -/
private theorem start (books : FutureBooks state) {owner : Job}
    (jobs : state'.jobs = (started state owner).jobs)
    (terminals : state'.terminals = state.terminals) :
    FutureBooks state' := by
  have fields := fun job => (congrFun jobs job).trans started_jobs
  refine ⟨fun job => ?_, fun terminal member => ?_, fun job => ?_,
    fun job => ?_⟩
  · rw [fields]
    split
    · exact books.resolved job
    · exact books.resolved job
  · rw [terminals] at member
    rw [fields]
    split
    · exact books.ended terminal member
    · exact books.ended terminal member
  · rw [fields]
    split
    · exact books.unfailed job
    · exact books.unfailed job
  · rw [fields]
    split
    · exact books.unfinished job
    · exact books.unfinished job

/-- What one `_file_terminal` does to the future of the job. -/
private theorem endedJob_future {job : Job} {error : Option Exc}
    {fields : JobState}
    (resolved : fields.futureSet = true → fields.future ≠ none)
    (unfailed : fields.futureSet = false → fields.failed = none)
    (unfinished : fields.futureSet = false →
      fields.doneFiles < job.totalFiles) :
    ((endedJob job error fields).futureSet = true →
      (endedJob job error fields).future ≠ none) ∧
    (fields.futureSet = true ∨ error ≠ none →
      (endedJob job error fields).futureSet = true) ∧
    ((endedJob job error fields).futureSet = false →
      (endedJob job error fields).failed = none ∧
        (endedJob job error fields).doneFiles < job.totalFiles) := by
  unfold endedJob JobState.counted
  by_cases wasSet : fields.futureSet = true
  · simp [wasSet, resolved wasSet]
  rw [Bool.not_eq_true] at wasSet
  cases error with
  | some exc => simp [wasSet]
  | none =>
      have before := unfinished wasSet
      by_cases all : fields.doneFiles + 1 = job.totalFiles
      · simp [wasSet, all]
      · have less : fields.doneFiles + 1 < job.totalFiles := by omega
        simp [wasSet, all, unfailed wasSet, less]

/-- A file has ended. -/
private theorem finish (books : FutureBooks state) {file : FileRef}
    {error : Option Exc}
    (jobs : state'.jobs = (Ledger.ended state file error).jobs)
    (terminals :
      state'.terminals = (Ledger.ended state file error).terminals) :
    FutureBooks state' := by
  have added : state'.terminals = state.terminals ++
      [⟨file, error, (state.jobs file.job).inflightFiles - 1⟩] := by
    rw [terminals]
    rfl
  have fields := fun job => (congrFun jobs job).trans ended_jobs
  obtain ⟨resolved, isSet, unset⟩ := @endedJob_future file.job error _
    (books.resolved file.job) (books.unfailed file.job)
    (books.unfinished file.job)
  refine ⟨fun job => ?_, fun terminal member failed => ?_, fun job => ?_,
    fun job => ?_⟩
  · rw [fields]
    split
    next same =>
      subst same
      exact resolved
    next => exact books.resolved job
  · rw [added, List.mem_append, List.mem_singleton] at member
    rw [fields]
    split
    next same =>
      rw [same]
      rcases member with before | rfl
      · exact isSet (Or.inl (same ▸ books.ended terminal before failed))
      · exact isSet (Or.inr failed)
    next different =>
      rcases member with before | rfl
      · exact books.ended terminal before failed
      · exact absurd rfl different
  · rw [fields]
    split
    next same =>
      subst same
      exact fun still => (unset still).1
    next => exact books.unfailed job
  · rw [fields]
    split
    next same =>
      subst same
      exact fun still => (unset still).2
    next => exact books.unfinished job

/-- Every move keeps the books. -/
theorem move (books : FutureBooks state) (base : Base hand state)
    (moved : Move env slack hand state hand' state') :
    FutureBooks state' := by
  cases moved.files base with
  | handedOn places jobs terminals =>
      exact books.of_jobs (fun job => Or.inl (congrFun jobs job)) terminals
  | started file known unfailed next places jobs terminals =>
      exact books.start jobs terminals
  | ended file storing error places jobs terminals =>
      exact books.finish jobs terminals
  | lost file allowed places jobs terminals =>
      exact books.of_jobs (fun job => Or.inl (congrFun jobs job)) terminals
  | declined job exc held given incoming active accepted places jobs
      terminals =>
      refine books.of_jobs (fun other => ?_) terminals
      rw [jobs, update_jobs]
      split
      · exact Or.inr ⟨rfl, nofun⟩
      · exact Or.inl rfl
  | refused job new closed places jobs terminals =>
      refine books.of_jobs (fun other => ?_) terminals
      rw [jobs, update_jobs]
      split
      · exact Or.inr ⟨rfl, nofun⟩
      · exact Or.inl rfl

end FutureBooks

/-! ## The invariant -/

/-- With shared preloads the preload cache of the other mode stays empty. -/
def OneCache (env : Env slotCount) (state : State slotCount) : Prop :=
  env.sharePreload = true → state.preloadSlots.pairs = []

private theorem OneCache.untouched (books : OneCache env state)
    (same : state'.preloadSlots = state.preloadSlots) :
    OneCache env state' := by
  intro sharing
  rw [same]
  exact books sharing

theorem OneCache.move (books : OneCache env state)
    (moved : Move env slack hand state hand' state') :
    OneCache env state' := by
  cases moved with
  | preloadPush held ended unawaited room owned =>
      intro sharing
      rw [owned] at sharing
      cases sharing
  | preloadPop queued =>
      intro sharing
      have perm := QueueTable.pairs_perm_keep queued
      rw [books sharing] at perm
      exact absurd perm.symm.eq_nil (List.cons_ne_nil _ _)
  | dropPreloads stopped => exact fun _ => rfl
  | submit job new =>
      unfold State.submitJob
      split
      · exact books.untouched rfl
      · exact books.untouched rfl
  | enqueue request =>
      unfold State.enqueuePreload
      split
      · exact books.untouched rfl
      · exact books.untouched rfl
  | shutdown =>
      unfold State.shutdown
      split
      · exact books.untouched rfl
      · exact books.untouched rfl
  | _ => exact books.untouched rfl

/-- The slips of a run in which every copy and every open succeeds. -/
def succeeding : Slack :=
  { Slack.any with loses := false, strands := false }

/-- All the books about a run in which every copy and every open succeeds. -/
structure RestInv (env : Env slotCount) (hand : Hand slotCount)
    (state : State slotCount) : Prop where
  files : FileInv succeeding hand state
  preloads : PreloadInv env succeeding hand state
  owners : OwnerInv env succeeding hand state
  futures : FutureBooks state
  oneCache : OneCache env state

theorem restInv_closed :
    Closed env succeeding (@RestInv slotCount env) := by
  intro hand state hand' state' base moved inv
  exact ⟨fileInv_closed base moved inv.files,
    preloadInv_closed base moved inv.preloads,
    ownerInv_closed base moved inv.owners, inv.futures.move base moved,
    inv.oneCache.move moved⟩

theorem restInv_init : RestInv env Hand.empty (State.init env) where
  files := fileInv_init
  preloads := preloadInv_init
  owners := ownerInv_init
  futures := ⟨nofun, nofun, fun _ _ => rfl, fun job _ =>
    List.length_pos_iff.mpr job.nonempty⟩
  oneCache := fun _ => rfl

/-- Every call outside the reactor returns, but that a link may find its
target there. -/
def Answers (env : Env slotCount) : Prop :=
  ∀ call number, env.raises call number = none ∨
    (∃ temp final, call = .link temp final) ∧
      env.raises call number = some .fileExists

theorem Answers.returns (answers : Answers env) {call : ExtCall}
    {number : Nat} (other : ∀ temp final, call ≠ .link temp final) :
    env.raises call number = none :=
  (answers call number).resolve_right fun ⟨⟨temp, final, link⟩, _⟩ =>
    other temp final link

theorem Answers.refuses (answers : Answers env) {call : ExtCall}
    {number : Nat} {fault : Fault}
    (raised : env.raises call number = some fault)
    (other : ∀ temp final, call ≠ .link temp final) : False :=
  nomatch (answers.returns other).symm.trans raised

theorem Answers.quiet (answers : Answers env) : env.Quiet := by
  intro call number profiler
  refine answers.returns ?_
  rintro temp final rfl
  cases profiler

theorem Answers.steady (answers : Answers env) : Steady env :=
  ⟨fun _ _ _ => answers.returns nofun, fun _ => answers.returns nofun⟩

theorem restRules (answers : Answers env) :
    Rules env succeeding (RestInv env) :=
  ⟨answers.quiet, restInv_closed⟩

/-- Where every call returns, every open that is submitted is queued. -/
theorem roundPermits (answers : Answers env) (job : Job)
    (state : State slotCount) : RoundPermits env succeeding job state :=
  ⟨Or.inr fun _ _ _ => answers.returns nofun, Or.inl rfl, Or.inl rfl⟩

theorem restInv_reachable (answers : Answers env)
    (reached : Machine.ReachableUnder env (ServesWaiter env) machine) :
    HeldAt (RestInv env) machine :=
  reachableUnder_held (restRules answers) rfl _
    (fun _ serves =>
      { permits_any with
        serves := Or.inr serves
        rounds := fun _ round _ => roundPermits answers round.1 round.2 })
    restInv_init reached

/-! ## Slots and budgets at rest -/

/-- Nothing is in the ring, no copy is under way and none is to be
launched. -/
structure AtRest (state : State slotCount) : Prop where
  ring : state.inflight.entries = []
  copies : state.pendingCopies = []
  ready : state.copyReady = []

/-- A slot is free, or an entry of the staging cache can be evicted. -/
def hasSpareSlot (state : State slotCount) : Bool :=
  !state.free.isEmpty ||
    (state.stagingCache.bind StagingDataCache.evictOne).isSome

/-- `_evict_one_preload_slot` finds a slot to evict. -/
def evictsPreload (env : Env slotCount) (state : State slotCount) : Bool :=
  if env.sharePreload then
    state.sharedCached.entries.any fun entry =>
      (state.shared entry.2).copiesInflight ≤ 0
  else
    state.preloadSlots.oldest.isSome

namespace AtRest

variable (rest : AtRest state)

include rest

theorem values : state.inflight.values = [] := by
  unfold OrderedDict.values
  rw [rest.ring, List.map_nil]

theorem loadCopies : state.loadCopies = [] := by
  unfold State.loadCopies
  rw [rest.ready, rest.copies]
  rfl

theorem dataInflight (inv : RestInv env Hand.empty state) :
    state.dataInflight = 0 := by
  rw [inv.preloads.budgets.data, dataUnits, rest.values, rest.copies]
  rfl

theorem openInflight (inv : RestInv env Hand.empty state) :
    state.openInflight = 0 := by
  rw [inv.preloads.budgets.opens, openUnits, rest.values]
  rfl

theorem lent (books : LentBooks Hand.empty state)
    (source : Source slotCount) : state.lent source = 0 := by
  have none : borrowed Hand.empty state = [] := by
    unfold borrowed Ledger.copies
    rw [rest.loadCopies]
    rfl
  rw [books.lent, none]
  rfl

/-- The places of the slots. -/
theorem places {live : List (SharedSlot slotCount)}
    (books : SlotBooks state live) :
    (state.free ++ state.preloadSlots.pairs.map (fun entry => entry.2.1) ++
      state.cacheSlots.map CacheSlot.slotIndex ++
      state.sharedCached.values.map SharedSlot.slotIndex).Perm
      (List.finRange slotCount) := by
  have distinct : state.sharedCached.values.Nodup :=
    OrderedDict.nodup_values fun hash slot found =>
      (books.base.registered hash slot found).1
  have perm := books.slotPlaces_perm
  unfold slotPlaces State.owned sharedSlots at perm
  rw [rest.values, rest.copies, rest.loadCopies, List.flatMap_nil,
    List.flatMap_nil, List.flatMap_nil, List.flatMap_nil, List.append_nil,
    List.append_nil, List.append_nil, List.append_nil,
    distinct.dedup] at perm
  simpa only [List.map_append, List.map_map, Function.comp_def,
    List.map_id'] using perm

/-- Where the staging cache has an entry, one can be evicted. -/
theorem evicts_cached (books : LentBooks Hand.empty state)
    {slot : CacheSlot (Fin slotCount)} (cached : slot ∈ state.cacheSlots) :
    (state.stagingCache.bind StagingDataCache.evictOne).isSome = true := by
  unfold State.cacheSlots at cached
  obtain ⟨cache, isCache, listed⟩ := List.mem_flatMap.mp cached
  rw [Option.mem_toList] at isCache
  have unpinned := rest.lent books (.cache slot)
  simp only [State.lent, isCache] at unpinned
  rw [isCache, Option.bind_some, Option.isSome_iff_ne_none]
  exact StagingDataCache.evictOne_ne_none_iff.mpr
    ⟨slot, listed, Int.le_of_eq unpinned⟩

/-- Where a slot is registered for sharing, one can be evicted. -/
theorem evicts_shared (books : LentBooks Hand.empty state)
    (sharing : env.sharePreload = true)
    (registered : state.sharedCached.entries ≠ []) :
    evictsPreload env state = true := by
  obtain ⟨entry, listed⟩ := List.exists_mem_of_ne_nil _ registered
  have unread := rest.lent books (.shared entry.2)
  simp only [State.lent] at unread
  rw [evictsPreload, if_pos sharing, List.any_eq_true]
  exact ⟨entry, listed, by simp [unread]⟩

/-- Without a spare slot the staging cache is empty. -/
theorem uncached_of_no_spare (books : LentBooks Hand.empty state)
    (none : hasSpareSlot state = false) : state.cacheSlots = [] := by
  unfold hasSpareSlot at none
  rw [Bool.or_eq_false_iff] at none
  rw [List.eq_nil_iff_forall_not_mem]
  intro slot cached
  have evicts := rest.evicts_cached books cached
  rw [none.2] at evicts
  cases evicts

theorem unstaged_of_no_spare (books : LentBooks Hand.empty state)
    (none : hasSpareSlot state = false) (hash : BlockHash) :
    state.inStagingCache hash = false := by
  have uncached := rest.uncached_of_no_spare books none
  unfold State.cacheSlots at uncached
  unfold State.inStagingCache
  cases isCache : state.stagingCache with
  | none => rfl
  | some cache =>
      rw [isCache, Option.toList_some, List.flatMap_singleton] at uncached
      rw [Option.any_some, ← Bool.not_eq_true]
      intro contained
      obtain ⟨slot, found⟩ := OrderedDict.contains_iff.mp contained
      have listed := OrderedDict.mem_values_of_find? found
      rw [uncached] at listed
      cases listed

/-- Without a spare slot the preloads have all slots. -/
theorem places_of_no_spare {live : List (SharedSlot slotCount)}
    (books : SlotBooks state live) (none : hasSpareSlot state = false) :
    state.preloadSlots.pairs.length + state.sharedCached.entries.length =
      slotCount := by
  have uncached := rest.uncached_of_no_spare books.lent none
  unfold hasSpareSlot at none
  rw [Bool.or_eq_false_iff, Bool.not_eq_false', List.isEmpty_iff] at none
  have perm := (rest.places books).length_eq
  rw [none.1, uncached, List.length_finRange] at perm
  simpa [OrderedDict.values] using perm

/-- A load or a store finds a slot. -/
theorem reservable (inv : RestInv env Hand.empty state)
    {live : List (SharedSlot slotCount)} (books : SlotBooks state live) :
    hasSpareSlot state = true ∨ evictsPreload env state = true := by
  by_cases spare : hasSpareSlot state = true
  · exact Or.inl spare
  rw [Bool.not_eq_true] at spare
  have enough := env.slotsEnough
  have depth := env.iodepth_pos
  have perm := rest.places_of_no_spare books spare
  cases sharing : env.sharePreload with
  | true =>
      refine Or.inr (rest.evicts_shared books.lent sharing fun none => ?_)
      rw [inv.oneCache sharing, none, List.length_nil,
        List.length_nil] at perm
      omega
  | false =>
      refine Or.inr ?_
      rw [inv.preloads.totals.unshared sharing, List.length_nil] at perm
      rw [evictsPreload, sharing, if_neg Bool.false_ne_true]
      cases entries : state.preloadSlots.dict.entries with
      | nil =>
          unfold QueueTable.pairs at perm
          rw [entries, List.flatMap_nil, List.length_nil] at perm
          omega
      | cons head tail => simp [QueueTable.oldest, entries]

/-- Without sharing there is a spare slot: preloads are opened within their
share only. -/
theorem spare_of_owned (inv : RestInv env Hand.empty state)
    (unstopped : state.stop = false)
    {live : List (SharedSlot slotCount)} (books : SlotBooks state live)
    (owned : env.sharePreload = false) : hasSpareSlot state = true := by
  by_contra none
  rw [Bool.not_eq_true] at none
  have perm := rest.places_of_no_spare books none
  have cached := inv.preloads.totals.cached unstopped
  have inflight := inv.preloads.totals.inflight unstopped
  have within := inv.preloads.cap (Or.inl owned) unstopped
  have enough := env.slotsEnough
  have depth := env.iodepth_pos
  unfold Env.maxPreloadSlots at within
  simp only [Hand.empty] at within
  omega

/-- Without a spare slot the preloads have taken their share. -/
theorem not_preloadSlotsAvailable (inv : RestInv env Hand.empty state)
    (unstopped : state.stop = false)
    {live : List (SharedSlot slotCount)} (books : SlotBooks state live)
    (none : hasSpareSlot state = false) :
    state.preloadSlotsAvailable env = false := by
  have perm := rest.places_of_no_spare books none
  have cached := inv.preloads.totals.cached unstopped
  have inflight := inv.preloads.totals.inflight unstopped
  unfold State.preloadSlotsAvailable Env.maxPreloadSlots
  rw [decide_eq_false_iff_not]
  omega

end AtRest

theorem slotBooks_of_held (held : Held (RestInv env) Hand.empty state)
    (unstopped : state.stop = false) : ∃ live, SlotBooks state live := by
  obtain ⟨lent, fit, live, places⟩ :=
    held.inv.owners.owners (Or.inl unstopped)
  exact ⟨live, held.base, lent, fit, places⟩

/-! ## Who waits at rest -/

/-- A job whose files have all ended has a future that was set. -/
theorem futureSet_of_ended {lost : List FileRef}
    (books : FileBooks hand state lost) (futures : FutureBooks state)
    {job : Job} (ended : ∀ file ∈ job.files, file ∈ filesEnded state) :
    (state.jobs job).futureSet = true := by
  by_contra unset
  rw [Bool.not_eq_true] at unset
  let good := state.terminals.filter fun terminal =>
    terminal.file.job = job ∧ terminal.error = none
  have each : job.files ⊆ good.map Terminal.file := by
    intro file ofJob
    obtain ⟨terminal, recorded, rfl⟩ := List.mem_map.mp (ended file ofJob)
    rw [Job.mem_files] at ofJob
    refine List.mem_map_of_mem (List.mem_filter.mpr ⟨recorded, ?_⟩)
    rw [decide_eq_true_eq]
    refine ⟨ofJob, ?_⟩
    by_contra failed
    have isSet := futures.ended terminal recorded failed
    rw [ofJob, unset] at isSet
    cases isSet
  have enough := (List.subperm_of_subset job.nodup_files each).length_le
  rw [List.length_map, ← List.countP_eq_length_filter,
    ← books.done job] at enough
  have total : job.files.length = job.totalFiles := by
    simp [Job.files]
  have unfinished := futures.unfinished job unset
  omega

/-- An active job that has not failed and has a file left is not over. -/
theorem unset_of_left (held : Held (RestInv env) Hand.empty state)
    {job : Job} (active : job ∈ state.active)
    (unfailed : (state.jobs job).failed = none)
    (left : (state.jobs job).nextFileIndex < job.totalFiles) :
    (state.jobs job).futureSet = false := by
  obtain ⟨jobs, lost, _, books⟩ := held.inv.files
  by_contra isSet
  rw [Bool.not_eq_false] at isSet
  rcases jobs.resolved job isSet with failed | all | ⟨_, gone, _⟩
  · exact failed unfailed
  · let file : FileRef := ⟨job, (state.jobs job).nextFileIndex, left⟩
    obtain ⟨terminal, recorded, same, _⟩ :=
      @ended_of_done _ _ _ _ books job all file rfl
    have begun : file ∈ Ledger.scheduled Hand.empty state lost := by
      unfold Ledger.scheduled
      simp only [List.mem_append]
      exact Or.inl (Or.inr (same ▸ List.mem_map_of_mem recorded))
    exact absurd ((books.started file).mp begun) (Nat.lt_irrefl _)
  · exact gone active

/-- At rest, with no load descriptor ready, a job that is not over and has
scheduled all its files waits for a preload. -/
theorem waits_of_scheduled (held : Held (RestInv env) Hand.empty state)
    (rest : AtRest state) (noLoads : state.readyFdsLoad = []) {job : Job}
    (unset : (state.jobs job).futureSet = false)
    (scheduled : job.totalFiles ≤ (state.jobs job).nextFileIndex) :
    ∃ hash, state.preloadWaiters.queue hash ≠ [] := by
  obtain ⟨_, lost, none, books⟩ := held.inv.files
  rw [none rfl] at books
  by_contra nobody
  simp only [not_exists, not_not] at nobody
  have nowhere : state.placed = [] := by
    unfold State.placed QueueTable.pairs
    rw [rest.values, noLoads, QueueTable.entries_eq_nil nobody, rest.ready,
      rest.copies]
    rfl
  have empty : placed Hand.empty state = [] := nowhere
  have ended : ∀ file ∈ job.files, file ∈ filesEnded state := by
    intro file ofJob
    rw [Job.mem_files] at ofJob
    have inJob := file.inJob
    rw [ofJob] at inJob
    have started := (books.started file).mpr (by
      rw [ofJob]
      omega)
    simpa only [Ledger.scheduled, filesEnded, empty, List.map_nil,
      List.nil_append, List.append_nil] using started
  have isSet := futureSet_of_ended books held.inv.futures ended
  rw [unset] at isSet
  cases isSet

/-- Whoever waits at rest waits for a preload whose descriptor is ready. -/
theorem ready_of_waits (held : Held (RestInv env) Hand.empty state)
    (rest : AtRest state) {hash : BlockHash}
    (waiting : state.preloadWaiters.queue hash ≠ []) :
    ∃ entry ∈ state.readyFdsPreload, entry.2.blockHash = hash := by
  have counted : 0 < state.preloadInflightHashes.count hash := by
    cases sharing : env.sharePreload with
    | true =>
        exact (held.inv.preloads.waits.shared sharing rfl hash
          waiting).resolve_right List.not_mem_nil
    | false =>
        have room := held.inv.preloads.waits.owned sharing hash
        have some := List.length_pos_iff.mpr waiting
        exact some.trans_le room
  have todo : CountBooks { Hand.empty with todo := [] } state :=
    held.inv.preloads.counts
  rw [inflight_eq todo, List.countP_pos_iff] at counted
  obtain ⟨info, underWay, same⟩ := counted
  unfold preloadsUnderWay at underWay
  rw [rest.values, List.flatMap_nil, List.nil_append,
    List.mem_map] at underWay
  obtain ⟨entry, listed, rfl⟩ := underWay
  exact ⟨entry, listed, by simpa using same⟩

/-! ## Ready descriptors -/

theorem Answers.finishesCleanly (answers : Answers env) {fd : Int}
    {tempPath finalPath : String} {number : Nat} :
    env.FinishesCleanly fd tempPath finalPath number := by
  have syncs (first : Nat) : env.SyncsDirectory finalPath first := by
    unfold Env.SyncsDirectory
    have opened : env.raises (.openDirectory finalPath) first = none :=
      answers.returns nofun
    rw [opened]
    exact ⟨nofun, fun _ =>
      ⟨answers.returns nofun, answers.returns nofun⟩⟩
  have publishes (first : Nat) :
      env.PublishesFrom fd tempPath finalPath first :=
    ⟨answers.returns nofun, (answers _ _).imp_right And.right,
      Or.inl (answers.returns nofun), fun _ => syncs _⟩
  unfold Env.FinishesCleanly
  split
  · exact fun _ => publishes _
  · exact publishes _

/-- Where every call returns, a running thread closes nothing twice. -/
theorem closesCleanly_of_answers (answers : Answers env)
    (running : machine.phase.Running) : ClosesCleanly env machine := by
  obtain ⟨phase, state⟩ := machine
  unfold ClosesCleanly
  cases phase with
  | completions todo =>
      cases todo with
      | nil => trivial
      | cons completion todo =>
          simp only [ReapsCleanly]
          split
          next fd finalPath tempPath found =>
            intro full
            exact answers.finishesCleanly
          next => trivial
  | crashed exc => exact running.elim
  | _ => trivial

/-- Every ready preload descriptor is a descriptor. -/
theorem ready_nonneg (answers : Answers env)
    (reached : Machine.Reachable env machine)
    (running : machine.phase.Running) :
    ∀ entry ∈ machine.state.readyFdsPreload, 0 ≤ entry.1 := by
  have books : FdsAccounted machine := by
    induction reached with
    | refl => exact ⟨fdBooks_init, False.elim⟩
    | tail _ step inductionHypothesis =>
        have ran := running_of_step step running
        exact step_accounted answers.quiet
          (closesCleanly_of_answers answers ran) step
          (inductionHypothesis ran)
  exact books.books.preloads

end PyKvCache.Progress
