import PyKvCache.Safety.JobFiles

/-!
# The stores that are on the way

`_store_inflight` counts, for each hash, the files of active store jobs that
have not ended, and a preload is parked behind a hash only while it is
counted.
-/

namespace PyKvCache.Reactor

/-- All files of a job. -/
def Job.files (job : Job) : List FileRef :=
  (List.finRange job.totalFiles).map
    fun index => (⟨job, index.val, index.isLt⟩ : FileRef)

variable {job : Job} {file : FileRef}

theorem Job.mem_files : file ∈ job.files ↔ file.job = job := by
  simp only [Job.files, List.mem_map, List.mem_finRange, true_and]
  constructor
  · rintro ⟨index, rfl⟩
    rfl
  · rintro rfl
    exact ⟨⟨file.index, file.inJob⟩, rfl⟩

theorem Job.nodup_files : job.files.Nodup := by
  refine List.Nodup.map ?_ (List.nodup_finRange _)
  intro first second same
  simp only [FileRef.mk.injEq, true_and] at same
  exact Fin.ext same

theorem Job.map_hash_files : job.files.map FileRef.hash = job.blockHashes := by
  refine List.ext_getElem ?_ fun index inFiles inHashes => ?_
  · simp [Job.files, Job.totalFiles]
  · simp [Job.files, FileRef.hash]

end PyKvCache.Reactor

namespace PyKvCache.Safety

open PyKvCache.Library PyKvCache.Staging PyKvCache.Transfer
open PyKvCache.Reactor PyKvCache.Ledger

variable {slotCount : Nat} {env : Env slotCount} {slack : Slack}
  {hand hand' : Hand slotCount} {state state' : State slotCount}
  {machine : Machine slotCount} {lost : List FileRef}

/-- The files of active store jobs that have not ended. -/
def unfinishedStores (state : State slotCount) : List FileRef :=
  ((state.active.filter Job.isStore).flatMap Job.files).filter
    fun file => file ∉ filesEnded state

/-- `_store_inflight` is exact, and nothing is left of it or behind it once no
store job is active. -/
structure StoresCounted (state : State slotCount) : Prop where
  counted : ∀ hash, state.storeInflight.count hash =
    (unfinishedStores state).countP fun file => file.hash = hash
  released : (∀ job ∈ state.active, job.isStore = false) →
    state.storeInflight.dict.entries = [] ∧
      state.preloadBlockedOnWrite.dict.entries = []

/-! ## The invariant -/

/-- The counts while a handler is at work. -/
structure StoreBooks (hand : Hand slotCount) (state : State slotCount) :
    Prop where
  counted : ∀ hash, state.storeInflight.count hash =
    (unfinishedStores state).countP (fun file => file.hash = hash) +
      hand.releases.countP (fun file => file.hash = hash) +
      hand.arrived.count hash
  blocked : ∀ hash, state.preloadBlockedOnWrite.queue hash ≠ [] →
    0 < state.storeInflight.count hash

theorem mem_unfinishedStores {file : FileRef} :
    file ∈ unfinishedStores state ↔
      file.job ∈ state.active ∧ file.job.isStore = true ∧
        file ∉ filesEnded state := by
  simp only [unfinishedStores, List.mem_filter, List.mem_flatMap,
    Job.mem_files, decide_eq_true_eq]
  constructor
  · rintro ⟨⟨job, ⟨active, storing⟩, rfl⟩, unended⟩
    exact ⟨active, storing, unended⟩
  · rintro ⟨active, storing, unended⟩
    exact ⟨⟨file.job, ⟨active, storing⟩, rfl⟩, unended⟩

theorem nodup_unfinishedStores (active : state.active.Nodup) :
    (unfinishedStores state).Nodup := by
  refine List.Nodup.filter _ (List.nodup_flatMap.mpr
    ⟨fun job _ => Job.nodup_files, ?_⟩)
  refine (active.filter _).imp ?_
  intro first second different file inFirst inSecond
  rw [Job.mem_files] at inFirst inSecond
  exact different (inFirst.symm.trans inSecond)

/-- The same files are unfinished when the same files are in the two lists. -/
theorem unfinishedStores_perm (active : state.active.Nodup)
    (active' : state'.active.Nodup)
    (same : ∀ file : FileRef,
      (file.job ∈ state'.active ∧ file.job.isStore = true ∧
        file ∉ filesEnded state') ↔
      (file.job ∈ state.active ∧ file.job.isStore = true ∧
        file ∉ filesEnded state)) :
    (unfinishedStores state').Perm (unfinishedStores state) := by
  rw [List.perm_ext_iff_of_nodup (nodup_unfinishedStores active')
    (nodup_unfinishedStores active)]
  intro file
  rw [mem_unfinishedStores, mem_unfinishedStores]
  exact same file

namespace StoreBooks

theorem untouched (books : StoreBooks hand state)
    (releases : hand'.releases = hand.releases)
    (arrived : hand'.arrived = hand.arrived)
    (active : state'.active = state.active)
    (terminals : state'.terminals = state.terminals)
    (counts : state'.storeInflight = state.storeInflight)
    (parked : state'.preloadBlockedOnWrite = state.preloadBlockedOnWrite) :
    StoreBooks hand' state' := by
  have same : unfinishedStores state' = unfinishedStores state := by
    unfold unfinishedStores filesEnded
    rw [active, terminals]
  refine ⟨fun hash => ?_, fun hash => ?_⟩
  · rw [counts, same, releases, arrived]
    exact books.counted hash
  · rw [counts, parked]
    exact books.blocked hash

/-- The counts stay while the unfinished files are the same. -/
private theorem rearranged (books : StoreBooks hand state)
    (perm : (unfinishedStores state').Perm (unfinishedStores state))
    (releases : hand'.releases = hand.releases)
    (arrived : hand'.arrived = hand.arrived)
    (counts : state'.storeInflight = state.storeInflight)
    (parked : state'.preloadBlockedOnWrite = state.preloadBlockedOnWrite) :
    StoreBooks hand' state' := by
  refine ⟨fun hash => ?_, fun hash => ?_⟩
  · rw [counts, perm.countP_eq, releases, arrived]
    exact books.counted hash
  · rw [counts, parked]
    exact books.blocked hash

/-- A load that ends leaves the same store files unfinished. -/
private theorem unfinished_endLoad (jobs : JobBooks hand state)
    (files : FileBooks hand state lost) {file : FileRef}
    {rest : List FileRef} (held : hand.files = file :: rest)
    (error : Option Exc) :
    (unfinishedStores (ended state file error)).Perm
      (unfinishedStores state) := by
  have active := (List.nodup_append.mp jobs.distinct).2.1
  have loading := files.kinds (file, false) (by simp [placed, held])
  refine unfinishedStores_perm active active fun other => ?_
  refine and_congr_right fun _ => and_congr_right fun storing => ?_
  rw [not_iff_not]
  show other ∈ (state.terminals ++ [_]).map Terminal.file ↔ _
  rw [List.map_append, List.mem_append]
  refine or_iff_left fun last => ?_
  rw [List.map_singleton, List.mem_singleton] at last
  subst last
  rw [storing] at loading
  cases loading

/-- A store file that ends was unfinished. -/
private theorem unfinished_endStore (jobs : JobBooks hand state)
    (files : FileBooks hand state lost) {file : FileRef}
    {rest : List FileRef} (held : hand.stores = file :: rest)
    (error : Option Exc) :
    (unfinishedStores state).Perm
      (file :: unfinishedStores (ended state file error)) := by
  have active := (List.nodup_append.mp jobs.distinct).2.1
  have inPlace : (file, true) ∈ placed hand state := by
    simp [placed, held]
  have notEnded : file ∉ filesEnded state := by
    intro member
    exact (List.nodup_append.mp (List.nodup_append.mp
      files.once).1).2.2 file (List.mem_map_of_mem inPlace) file member rfl
  have unfinished : file ∈ unfinishedStores state :=
    mem_unfinishedStores.mpr
      ⟨jobs.active _ inPlace, files.kinds _ inPlace, notEnded⟩
  have ends : filesEnded (ended state file error) =
      filesEnded state ++ [file] := List.map_append
  have active' : (ended state file error).active.Nodup := active
  rw [List.perm_ext_iff_of_nodup (nodup_unfinishedStores active)
    (List.nodup_cons.mpr ⟨?_, nodup_unfinishedStores active'⟩)]
  · intro other
    rw [List.mem_cons, mem_unfinishedStores, mem_unfinishedStores, ends,
      List.mem_append, List.mem_singleton]
    constructor
    · rintro ⟨member, stores, unended⟩
      by_cases same : other = file
      · exact Or.inl same
      · exact Or.inr ⟨member, stores, fun last => last.elim unended same⟩
    · rintro (rfl | ⟨member, stores, unended⟩)
      · exact mem_unfinishedStores.mp unfinished
      · exact ⟨member, stores, fun before => unended (Or.inl before)⟩
  · rw [mem_unfinishedStores, ends]
    rintro ⟨_, _, unended⟩
    exact unended (List.mem_append_right _ (List.mem_singleton_self file))

/-- All files of a store job that becomes active are unfinished. -/
private theorem unfinished_activateStore (jobs : JobBooks hand state)
    (files : FileBooks hand state lost) {job : Job}
    (held : hand.job = some job) (storing : job.isStore = true) :
    unfinishedStores { state with active := state.active ++ [job] } =
      unfinishedStores state ++ job.files := by
  have queued : job ∈ waiting hand state := by
    simp [waiting, held]
  have unbegun : ∀ file : FileRef, file.job = job →
      file ∉ filesEnded state := by
    rintro file rfl member
    have scheduled : file ∈ Ledger.scheduled hand state lost :=
      List.mem_append_left _ (List.mem_append_right _ member)
    have begun := (files.started file).mp scheduled
    exact (jobs.begun file.job (by omega)).2 queued
  simp only [unfinishedStores, List.filter_append, List.filter_cons,
    storing, if_true, List.filter_nil, List.flatMap_append,
    List.flatMap_cons, List.flatMap_nil, List.append_nil]
  congr 1
  rw [List.filter_eq_self]
  intro file member
  exact decide_eq_true (unbegun file (Job.mem_files.mp member))

/-- A store job that is dropped with all its files scheduled has none that is
unfinished. -/
private theorem unfinished_finish (jobs : JobBooks hand state)
    (files : FileBooks hand state lost) (drops : DropsScheduled state) :
    (unfinishedStores { state with
      active := state.active.filter fun job =>
        !(state.jobs job).finished job }).Perm
      (unfinishedStores state) := by
  have active := (List.nodup_append.mp jobs.distinct).2.1
  refine unfinishedStores_perm active (active.filter _) fun file => ?_
  constructor
  · rintro ⟨member, storing, unended⟩
    exact ⟨List.mem_of_mem_filter member, storing, unended⟩
  · rintro ⟨member, storing, unended⟩
    refine ⟨List.mem_filter.mpr ⟨member, ?_⟩, storing, unended⟩
    rw [Bool.not_eq_true', ← Bool.not_eq_true]
    intro finished
    have all := drops file.job member storing finished
    have scheduledFile : file ∈ Ledger.scheduled hand state lost :=
      (files.started file).mpr (file.inJob.trans_le all)
    have idle : (state.jobs file.job).inflightFiles = 0 := by
      simp only [JobState.finished, Bool.and_eq_true, decide_eq_true_eq]
        at finished
      exact finished.1.1
    have onTheWay : 0 < ((placed hand state).map Prod.fst ++
        lost).countP fun other => other.job = file.job := by
      refine List.countP_pos_iff.mpr ⟨file, ?_, by simp⟩
      rcases List.mem_append.mp scheduledFile with early | isLost
      · rcases List.mem_append.mp early with inPlace | ended
        · exact List.mem_append_left _ inPlace
        · exact absurd ended unended
      · exact List.mem_append_right _ isLost
    have counted := files.counted file.job
    omega

/-- A store file that arrives is counted. -/
private theorem arrive (books : StoreBooks hand state) {hash : BlockHash}
    {parked : List PreloadInfo} {missing : QueueTable BlockHash PreloadInfo} :
    StoreBooks { hand with arrived := hand.arrived ++ [hash] }
      { state with
        knownMissing := missing
        preloadBlockedOnWrite :=
          state.preloadBlockedOnWrite.extend hash parked
        storeInflight := state.storeInflight.addOne hash } := by
  refine ⟨fun other => ?_, fun other => ?_⟩
  · have before := books.counted other
    show (state.storeInflight.addOne hash).count other =
      (unfinishedStores state).countP _ + hand.releases.countP _ +
        (hand.arrived ++ [hash]).count other
    rw [CountTable.count_addOne, List.count_append, List.count_singleton]
    by_cases equal : other = hash
    · subst equal
      simp only [if_true, beq_self_eq_true]
      omega
    · have different : (hash == other) = false := by
        simpa using fun same => equal same.symm
      rw [if_neg equal, different]
      simpa using before
  · rw [CountTable.count_addOne, QueueTable.queue_extend]
    by_cases equal : other = hash
    · simp [equal]
    · rw [if_neg equal, if_neg equal]
      exact books.blocked other

/-- A store file that has ended gives its count back. -/
private theorem count_release (books : StoreBooks hand state)
    {file : FileRef} {releases : List FileRef}
    (held : hand.releases = file :: releases) (hash : BlockHash) :
    (state.storeInflight.takeOne file.hash).count hash =
      (unfinishedStores state).countP (fun other => other.hash = hash) +
        releases.countP (fun other => other.hash = hash) +
        hand.arrived.count hash := by
  have before := books.counted hash
  rw [held, List.countP_cons] at before
  rw [CountTable.count_takeOne]
  by_cases same : hash = file.hash
  · subst same
    simp only [decide_true, if_true] at before ⊢
    omega
  · have different : ¬ file.hash = hash := fun equal => same equal.symm
    rw [if_neg same, before]
    simp only [different, decide_false, Bool.false_eq_true, if_false]
    rfl

/-- Every move keeps the books of the stores. -/
theorem move (books : StoreBooks hand state) (jobs : JobBooks hand state)
    (files : FileBooks hand state lost) (strict : slack.leaks = false)
    (moved : Move env slack hand state hand' state') :
    StoreBooks hand' state' := by
  cases moved with
  | endLoad error held =>
      exact books.rearranged (unfinished_endLoad jobs files held error) rfl rfl
        rfl rfl
  | @endStore file rest error held =>
      have perm := unfinished_endStore jobs files held error
      refine ⟨fun hash => ?_, books.blocked⟩
      have before := books.counted hash
      rw [perm.countP_eq, List.countP_cons] at before
      show state.storeInflight.count hash =
        (unfinishedStores (ended state file error)).countP _ +
          (file :: hand.releases).countP _ + hand.arrived.count hash
      rw [before, List.countP_cons]
      omega
  | arrive held storing => exact books.arrive
  | @activateStore job held storing complete =>
      have added := unfinished_activateStore jobs files held storing
      refine ⟨fun hash => ?_, books.blocked⟩
      have before := books.counted hash
      rw [complete, ← Job.map_hash_files, List.count_eq_countP,
        List.countP_map] at before
      have sameCount : job.files.countP
          ((fun other => other == hash) ∘ FileRef.hash) =
        job.files.countP fun file => decide (file.hash = hash) := by
        refine List.countP_congr fun file _ => ?_
        simp
      rw [added, List.countP_append]
      show state.storeInflight.count hash = _ + hand.releases.countP _ + 0
      rw [before, sameCount]
      omega
  | @activateLoad job held loading =>
      have same : unfinishedStores
          { state with active := state.active ++ [job] } =
          unfinishedStores state := by
        simp [unfinishedStores, filesEnded, List.filter_append, loading]
      exact books.rearranged (.of_eq same) rfl rfl rfl rfl
  | finish idle scheduled =>
      have drops : DropsScheduled state := by
        rcases scheduled with leaks | drops
        · rw [strict] at leaks
          cases leaks
        · exact drops
      exact books.rearranged (unfinished_finish jobs files drops) rfl rfl rfl
        rfl
  | @storeDone file releases held more =>
      refine ⟨books.count_release held, fun hash parked => ?_⟩
      show 0 < (state.storeInflight.takeOne file.hash).count hash
      rw [CountTable.count_takeOne]
      split
      next => omega
      next => exact books.blocked hash parked
  | @storeEnded file releases held last =>
      refine ⟨books.count_release held, fun hash parked => ?_⟩
      have queued : (state.preloadBlockedOnWrite.erase
          file.hash).queue hash ≠ [] := parked
      rw [QueueTable.queue_erase] at queued
      show 0 < (state.storeInflight.takeOne file.hash).count hash
      rw [CountTable.count_takeOne]
      split at queued
      next => exact absurd rfl queued
      next different =>
        rw [if_neg different]
        exact books.blocked hash queued
  | @park info tokens allowed storing =>
      refine ⟨books.counted, fun hash parked => ?_⟩
      have queued : (state.preloadBlockedOnWrite.pushBack info.blockHash
          info).queue hash ≠ [] := parked
      rw [QueueTable.queue_pushBack] at queued
      show 0 < state.storeInflight.count hash
      split at queued
      next same =>
        rw [same]
        exact CountTable.contains_iff.mp storing
      next => exact books.blocked hash queued
  | clear stopped =>
      exact ⟨books.counted, fun hash parked => absurd rfl parked⟩
  | submit job new =>
      unfold State.submitJob
      split
      · exact books.untouched rfl rfl rfl rfl rfl rfl
      · exact books.untouched rfl rfl rfl rfl rfl rfl
  | enqueue request =>
      unfold State.enqueuePreload
      split
      · exact books
      · exact books.untouched rfl rfl rfl rfl rfl rfl
  | shutdown =>
      unfold State.shutdown
      split
      · exact books
      · exact books.untouched rfl rfl rfl rfl rfl rfl
  | _ => exact books.untouched rfl rfl rfl rfl rfl rfl

end StoreBooks

/-- The books of the files and of the stores. -/
def StoreInv (hand : Hand slotCount) (state : State slotCount) : Prop :=
  FileInv Slack.any hand state ∧ StoreBooks hand state

/-- All slips but one: store jobs only leave with all files scheduled. -/
def keepsStores : Slack :=
  { Slack.any with leaks := false }

theorem storeInv_closed :
    Closed env keepsStores (@StoreInv slotCount) := by
  rintro hand state hand' state' base moved ⟨books, stores⟩
  have books' := fileInv_closed base moved
    ⟨books.1, books.2.imp fun _ known => ⟨nofun, known.2⟩⟩
  obtain ⟨jobs, lost, _, files⟩ := books
  refine ⟨⟨books'.1, books'.2.imp fun _ known => ⟨nofun, known.2⟩⟩, ?_⟩
  exact stores.move jobs files rfl moved

theorem storeInv_init : StoreInv Hand.empty (State.init env) :=
  ⟨fileInv_init, fun _ => rfl, fun _ parked => absurd rfl parked⟩

/-- As long as every store job that `_finish_jobs` drops has scheduled all its
files, `_store_inflight` is exact in every state the running thread reaches. -/
theorem storesCounted (quiet : env.Quiet)
    (reached : Machine.ReachableUnder env DropsOnlyScheduled machine)
    (running : machine.phase.Running) : StoresCounted machine.state := by
  have held := reachableUnder_held
    (⟨quiet, storeInv_closed⟩ : Rules env keepsStores StoreInv) rfl _
    (fun _ drops =>
      { permits_any with
        schedules := Or.inr drops
        rounds := fun _ _ _ => ⟨Or.inl rfl, Or.inl rfl, Or.inl rfl⟩ })
    storeInv_init reached running
  obtain ⟨_, _, stores⟩ := held
  have handEmpty : machine.phase.hand.releases = [] ∧
      machine.phase.hand.arrived = [] := by
    cases machine.phase <;> exact ⟨rfl, rfl⟩
  have counted : ∀ hash, machine.state.storeInflight.count hash =
      (unfinishedStores machine.state).countP
        fun file => file.hash = hash := by
    intro hash
    have total := stores.counted hash
    rw [handEmpty.1, handEmpty.2] at total
    exact total
  refine ⟨counted, fun noStore => ?_⟩
  have none : unfinishedStores machine.state = [] := by
    rw [List.eq_nil_iff_forall_not_mem]
    intro file member
    obtain ⟨active, storing, _⟩ := mem_unfinishedStores.mp member
    rw [noStore file.job active] at storing
    cases storing
  have zero : ∀ hash, machine.state.storeInflight.count hash = 0 := by
    intro hash
    rw [counted, none]
    rfl
  refine ⟨CountTable.entries_eq_nil zero,
    QueueTable.entries_eq_nil fun hash => ?_⟩
  by_contra parked
  exact Nat.ne_of_gt (stores.blocked hash parked) (zero hash)

section Examples

/-- A store of two files. -/
def twoFileStore : Job :=
  { twoFileLoad with isStore := true }

instance (machine : Machine slotCount) :
    Decidable (DropsOnlyScheduled machine) := by
  unfold DropsOnlyScheduled DropsScheduled
  infer_instance

/-- The write of the first file is complete, the one of the second is short. -/
def secondShort : Env 5 :=
  .smooth true fun calls =>
    if calls = 12 then [(1, 1)]
    else if calls = 27 then [(2, 0)]
    else []

/-- A store of a third block for a job of its own. -/
def thirdStore : Job :=
  .ofChunk 1 true [3] [9]

/-- The store of two files has failed and left; the other one is written. -/
def storedOn : Machine 5 :=
  (Machine.init secondShort).play secondShort
    (.submit twoFileStore :: .submit thirdStore ::
      List.replicate 36 .advance)

theorem storedOn_storesCounted :
    ((storedOn.state.jobs twoFileStore).failed.isSome = true ∧
        twoFileStore ∉ storedOn.state.active) ∧
      storedOn.state.storeInflight.count [3] = 1 ∧
      StoresCounted storedOn.state :=
  ⟨by decide +kernel, by decide +kernel, storesCounted Env.smooth_quiet
    (Machine.reachableUnder_play _ Relation.ReflTransGen.refl
      (by decide +kernel)) (by decide +kernel)⟩

/-- The write of the first file is short. -/
def firstShort : Env 5 :=
  .smooth true fun calls => if calls = 12 then [(1, 0)] else []

/-- The write of the first file is short: the job leaves, the second file is
never scheduled, and its hash stays counted. -/
theorem unscheduledFile_counted :
    Machine.Reachable firstShort ((Machine.init firstShort).play firstShort
        (.submit twoFileStore :: List.replicate 24 .advance)) ∧
      ((Machine.init firstShort).play firstShort
        (.submit twoFileStore :: List.replicate 24 .advance)).phase.Running ∧
      ¬ StoresCounted ((Machine.init firstShort).play firstShort
        (.submit twoFileStore :: List.replicate 24 .advance)).state := by
  refine ⟨Machine.reachable_play _ (by decide), by decide,
    fun stores => ?_⟩
  exact absurd (stores.released (by decide)) (by decide)

end Examples

end PyKvCache.Safety
