import PyKvCache.Ledger.Jobs
import PyKvCache.Reactor.Script

/-!
# No file is lost, none ends twice

The two books of the ledger, read off in the states of a running reactor.
-/

namespace PyKvCache.Safety

open PyKvCache.Library PyKvCache.Staging PyKvCache.Transfer
open PyKvCache.Reactor PyKvCache.Ledger

variable {slotCount : Nat} {env : Env slotCount} {slack : Slack}
  {hand : Hand slotCount} {state : State slotCount}
  {machine : Machine slotCount}

/-! ## The invariant -/

/-- Both books agree; a file is missing only where losing one is allowed. -/
def FileInv (slack : Slack) (hand : Hand slotCount)
    (state : State slotCount) : Prop :=
  JobBooks hand state ∧
    ∃ lost, (slack.loses = false → lost = []) ∧ FileBooks hand state lost

theorem fileInv_closed : Closed env slack (FileInv slack) := by
  rintro hand state hand' state' base moved ⟨jobs, lost, none, files⟩
  obtain ⟨lost', same, files'⟩ := files.change (moved.files base)
  exact ⟨jobs.move base files moved, lost',
    fun kept => (same kept).trans (none kept), files'⟩

theorem fileInv_init : FileInv slack Hand.empty (State.init env) := by
  refine ⟨⟨?_, ?_, ?_, ?_, ?_, ?_⟩, [], fun _ => rfl,
    ⟨?_, ?_, ?_, ?_, ?_, ?_, ?_⟩⟩
  · exact List.nodup_nil
  · exact nofun
  · exact fun job begun => absurd begun (Nat.lt_irrefl 0)
  · exact nofun
  · exact nofun
  · exact fun _ job failed => absurd rfl failed
  · exact nofun
  · exact nofun
  · exact List.nodup_nil
  · exact fun file => ⟨nofun, fun before => absurd before (Nat.not_lt_zero _)⟩
  · exact fun job => rfl
  · exact fun job => rfl
  · exact nofun

theorem fileRules (quiet : env.Quiet) :
    Rules env slack (FileInv slack) :=
  ⟨quiet, fileInv_closed⟩

/-! ## Accounting for files -/

/-- The scheduled files that have not ended. -/
def filesOnTheWay (state : State slotCount) : List FileRef :=
  state.placed.map Prod.fst

/-- The files `_file_terminal` was called for. -/
def filesEnded (state : State slotCount) : List FileRef :=
  state.terminals.map Terminal.file

/-- Every scheduled file is in one place or has ended once, the jobs count the
files on the way, and only a job all of whose files ended well has a result. -/
structure FilesAccounted (state : State slotCount) : Prop where
  counted : ∀ job ∈ state.active, (state.jobs job).inflightFiles =
    ((filesOnTheWay state).countP fun file => file.job = job)
  once : ∀ file, (filesOnTheWay state).count file +
      (filesEnded state).count file =
    if file.index < (state.jobs file.job).nextFileIndex then 1 else 0
  ended : ∀ file, file.index < (state.jobs file.job).nextFileIndex →
    (state.jobs file.job).inflightFiles = 0 →
      (filesEnded state).count file = 1
  result : ∀ job bytes, (state.jobs job).future = some (.result bytes) →
    ∀ file, file.job = job →
      ∃ terminal ∈ state.terminals,
        terminal.file = file ∧ terminal.error = none

/-- Between two steps the thread holds no file. -/
theorem placed_hand (phase : Phase slotCount) :
    placed phase.hand state = state.placed := by
  cases phase <;> rfl

/-- As many good ends as a job has files are good ends of all its files. -/
theorem ended_of_done {lost : List FileRef}
    (books : FileBooks hand state lost) {job : Job}
    (all : job.totalFiles ≤ (state.jobs job).doneFiles) {file : FileRef}
    (ofJob : file.job = job) :
    ∃ terminal ∈ state.terminals,
      terminal.file = file ∧ terminal.error = none := by
  let good := state.terminals.filter fun terminal =>
    terminal.file.job = job ∧ terminal.error = none
  have goodOfJob : ∀ terminal ∈ good, terminal.file.job = job := by
    intro terminal member
    have kept := (List.mem_filter.mp member).2
    simp only [decide_eq_true_eq] at kept
    exact kept.1
  have files : (good.map Terminal.file).Nodup := by
    refine List.Nodup.sublist (List.filter_sublist.map _) ?_
    exact (List.nodup_append.mp (List.nodup_append.mp books.once).1).2.1
  have indices : (good.map fun terminal => terminal.file.index).Nodup := by
    have mapped : (good.map Terminal.file).map FileRef.index =
        good.map fun terminal => terminal.file.index := by
      rw [List.map_map]
      rfl
    rw [← mapped]
    refine List.Nodup.map_on ?_ files
    intro first inFirst second inSecond same
    obtain ⟨_, inGood, rfl⟩ := List.mem_map.mp inFirst
    obtain ⟨_, inGood', rfl⟩ := List.mem_map.mp inSecond
    exact FileRef.eq_of_index
      ((goodOfJob _ inGood).trans (goodOfJob _ inGood').symm) same
  have bounded : (good.map fun terminal => terminal.file.index) ⊆
      List.range job.totalFiles := by
    intro index member
    obtain ⟨terminal, inGood, rfl⟩ := List.mem_map.mp member
    rw [List.mem_range, ← goodOfJob terminal inGood]
    exact terminal.file.inJob
  have enough : (List.range job.totalFiles).length ≤
      (good.map fun terminal => terminal.file.index).length := by
    rw [List.length_range, List.length_map, ← List.countP_eq_length_filter]
    exact all.trans (Nat.le_of_eq (books.done job))
  have perm :=
    (List.subperm_of_subset indices bounded).perm_of_length_le enough
  have inRange : file.index ∈ List.range job.totalFiles := by
    rw [List.mem_range, ← ofJob]
    exact file.inJob
  obtain ⟨terminal, inGood, index⟩ :=
    List.mem_map.mp (perm.mem_iff.mpr inRange)
  have kept := List.mem_filter.mp inGood
  simp only [decide_eq_true_eq] at kept
  exact ⟨terminal, kept.1, FileRef.eq_of_index
    (kept.2.1.trans ofJob.symm) index, kept.2.2⟩

theorem filesAccounted_of_books (books : FileBooks hand state [])
    (inTables : placed hand state = state.placed) :
    FilesAccounted state := by
  have scheduledEq : scheduled hand state [] =
      filesOnTheWay state ++ filesEnded state := by
    unfold scheduled filesOnTheWay filesEnded
    rw [inTables, List.append_nil]
  have counted : ∀ job, (state.jobs job).inflightFiles =
      ((filesOnTheWay state).countP fun file => file.job = job) := by
    intro job
    rw [books.counted job, inTables, List.append_nil]
    rfl
  have once : ∀ file, (filesOnTheWay state).count file +
      (filesEnded state).count file =
        if file.index < (state.jobs file.job).nextFileIndex then 1
        else 0 := by
    intro file
    rw [← List.count_append, ← scheduledEq, books.once.count]
    simp only [books.started]
  refine ⟨fun job _ => counted job, once, ?_, ?_⟩
  · intro file begun idle
    have total := once file
    rw [if_pos begun] at total
    have nowhere : (filesOnTheWay state).count file = 0 := by
      rw [List.count_eq_zero]
      intro member
      have present : 0 < (filesOnTheWay state).countP
          fun other => other.job = file.job :=
        List.countP_pos_iff.mpr ⟨file, member, by simp⟩
      have zero := counted file.job
      omega
    omega
  · intro job bytes resolved file ofJob
    exact ended_of_done books (books.complete job bytes resolved) ofJob

/-- As long as every preload read that ends finds a waiter it can copy to, all
files are accounted for in every state the running thread reaches. -/
theorem filesAccounted (quiet : env.Quiet)
    (reached : Machine.ReachableUnder env (ServesWaiter env) machine)
    (running : machine.phase.Running) : FilesAccounted machine.state := by
  have rules : Rules env { Slack.any with loses := false } (FileInv _) :=
    fileRules quiet
  obtain ⟨_, _, lost, none, books⟩ :=
    reachableUnder_held rules rfl _
      (fun _ serves =>
        { permits_any with
          serves := Or.inr serves
          rounds := fun _ _ _ => ⟨Or.inl rfl, Or.inl rfl, Or.inl rfl⟩ })
      fileInv_init reached
      running
  rw [none rfl] at books
  exact filesAccounted_of_books books (placed_hand _)

/-- With shared preloads no read looks for a waiter on its own. -/
theorem servesWaiter_of_sharing (sharing : env.sharePreload = true) :
    ServesWaiter env machine := by
  intro completion todo _ info slot fd owned
  rw [sharing] at owned
  cases owned

section Examples

/-- A load of one file, with the ids of one GPU block. -/
def oneFileLoad : Job :=
  .ofChunk 0 false [1] [7]

/-- A load of two files. -/
def twoFileLoad : Job :=
  .ofChunks 0 false [[1], [2]] [[7], [8]] rfl (by decide)

/-- A load of one file that is left without GPU blocks. -/
def noBlockLoad : Job :=
  .ofChunk 0 false [1] []

/-- The open and the read of operations one and two succeed. -/
def readWorld (share : Bool) (opened read : Nat) : Env 5 :=
  .smooth share fun calls =>
    if calls = opened then [(1, 3)]
    else if calls = read then [(2, 1)]
    else []

/-- A load that waits for a preload of its block. -/
def waitingLoad (job : Job) (steps : Nat) : List Event :=
  .preload ⟨[[1]], "", ""⟩ :: List.replicate 10 .advance ++
    .submit job :: List.replicate steps .advance

/-- The completion the thread handles next. -/
def nextCompletion : Phase slotCount → Option (Nat × Int)
  | .completions (completion :: _) => some completion
  | _ => none

/-- The block and the slot of a preload read. -/
def preloadRead : RingOp slotCount → Option (PreloadInfo × Fin slotCount)
  | .reading (.preload info) slot _ => some (info, slot)
  | _ => none

/-- The preload read the thread handles next can be copied to the first waiter
of its block. -/
def ServesFirst (env : Env slotCount) (machine : Machine slotCount) : Prop :=
  ∀ completion ∈ nextCompletion machine.phase,
    ∀ read ∈ (machine.state.inflight.find? completion.1).bind preloadRead,
      ∀ file ∈ (machine.state.preloadWaiters.queue read.1.blockHash).head?,
        (loadMapping env.layout (read.2 : Nat) file.chunk).isOk = true

instance : DecidablePred (ServesFirst env) := fun machine =>
  inferInstanceAs (Decidable (∀ _ ∈ nextCompletion machine.phase, _))

theorem ServesFirst.servesWaiter (serves : ServesFirst env machine) :
    ServesWaiter env machine := by
  intro completion todo reaping info slot fd _ found _ file later queued error
    refused
  have mapped := serves completion (by rw [reaping]; rfl) (info, slot)
    (by rw [found]; rfl) file (by rw [queued]; rfl)
  rw [refused] at mapped
  cases mapped

/-- Each request has a read of its own; the open and the read of the preload
succeed. -/
def ownRead : Env 5 :=
  .smooth false fun calls =>
    if calls = 7 then [(1, 3)]
    else if calls = 10 then [(3, 1)]
    else []

/-- The first file of a load is served by the preload it waits for; the second
one is being opened. -/
theorem servedWaiter_accounted :
    (filesEnded ((Machine.init ownRead).play ownRead
        (waitingLoad twoFileLoad 36)).state).length = 1 ∧
      (filesOnTheWay ((Machine.init ownRead).play ownRead
        (waitingLoad twoFileLoad 36)).state).length = 1 ∧
      FilesAccounted ((Machine.init ownRead).play ownRead
        (waitingLoad twoFileLoad 36)).state := by
  have reached : Machine.ReachableUnder ownRead (ServesFirst ownRead)
      ((Machine.init ownRead).play ownRead (waitingLoad twoFileLoad 36)) :=
    Machine.reachableUnder_play _ Relation.ReflTransGen.refl
      (by decide +kernel)
  exact ⟨by decide +kernel, by decide +kernel,
    filesAccounted Env.smooth_quiet
      (Relation.ReflTransGen.mono
        (fun _ _ moved => ⟨moved.1.servesWaiter, moved.2⟩) _ _ reached)
      (by decide +kernel)⟩

/-- The read finds a waiter whose file has no blocks: the waiter is popped,
its copy is refused, and the error handler looks for another waiter. -/
theorem poppedWaiter_lost :
    Machine.Reachable (readWorld false 6 9)
        ((Machine.init (readWorld false 6 9)).play (readWorld false 6 9)
          (waitingLoad noBlockLoad 25)) ∧
      ((Machine.init (readWorld false 6 9)).play (readWorld false 6 9)
          (waitingLoad noBlockLoad 25)).phase.Running ∧
      ¬ FilesAccounted ((Machine.init (readWorld false 6 9)).play
        (readWorld false 6 9) (waitingLoad noBlockLoad 25)).state := by
  refine ⟨Machine.reachable_play _ (by decide +kernel), by decide +kernel,
    fun accounted => ?_⟩
  exact absurd (accounted.counted noBlockLoad (by decide)) (by decide)

end Examples

/-! ## Files after the future is set -/

/-- The file of a read or a write. -/
def transferred : RingOp slotCount → List FileRef
  | .reading (.load file) _ _ => [file]
  | .writing file _ _ _ _ => [file]
  | _ => []

/-- The files whose GPU blocks are still going to be copied from or to: all
that are on the way, except that an open may still fail. -/
def filesHoldingBlocks (state : State slotCount) : List FileRef :=
  state.inflight.values.flatMap transferred ++
    state.readyFdsLoad.map Prod.snd ++
    state.preloadWaiters.pairs.map Prod.snd ++
    state.copyReady.map (fun ready => ready.copy.file) ++
    (state.pendingCopies.flatMap CopyOp.placed).map Prod.fst

/-- Once the future of a job is set, none of its files holds GPU blocks. -/
def QuietAfterSet (state : State slotCount) : Prop :=
  ∀ job, (state.jobs job).futureSet = true →
    ∀ file ∈ filesHoldingBlocks state, file.job ≠ job

theorem holdingBlocks_onTheWay {file : FileRef}
    (member : file ∈ filesHoldingBlocks state) :
    file ∈ filesOnTheWay state := by
  have reading : ∀ op : RingOp slotCount, file ∈ transferred op →
      file ∈ op.placed.map Prod.fst := by
    intro op inOp
    match op with
    | .reading (.load _) _ _ => exact inOp
    | .writing _ _ _ _ _ => exact inOp
  simp only [filesHoldingBlocks, List.mem_append, List.mem_flatMap,
    List.mem_map] at member
  simp only [filesOnTheWay, State.placed, List.map_append, List.mem_append,
    List.map_map, List.mem_map, List.mem_flatMap, Function.comp_apply]
  rcases member with (((⟨op, inRing, inOp⟩ | ⟨entry, queued, rfl⟩) |
    ⟨entry, queued, rfl⟩) | ⟨ready, queued, rfl⟩) |
    ⟨entry, ⟨copy, pending, inCopy⟩, rfl⟩
  · obtain ⟨entry, inPlaced, rfl⟩ := List.mem_map.mp (reading op inOp)
    exact Or.inl (Or.inl (Or.inl (Or.inl
      ⟨entry, ⟨op, inRing, inPlaced⟩, rfl⟩)))
  · exact Or.inl (Or.inl (Or.inl (Or.inr ⟨entry, queued, rfl⟩)))
  · exact Or.inl (Or.inl (Or.inr ⟨entry, queued, rfl⟩))
  · exact Or.inl (Or.inr ⟨ready, queued, rfl⟩)
  · exact Or.inr ⟨entry, ⟨copy, pending, inCopy⟩, rfl⟩

/-- A job whose future is set has no file on the way, unless one of its files
failed while another one was in flight. -/
theorem notOnTheWay_of_books {lost : List FileRef}
    (files : FileBooks hand state lost) (jobs : JobBooks hand state)
    (inTables : placed hand state = state.placed)
    (alone : FailedAlone state) {job : Job}
    (isSet : (state.jobs job).futureSet = true) :
    ∀ file ∈ filesOnTheWay state, file.job ≠ job := by
  rintro file member rfl
  have inHand : file ∈ (placed hand state).map Prod.fst := by
    rw [inTables]
    exact member
  rcases jobs.resolved file.job isSet with failed | all | away
  · have zero := jobs.failed alone file.job failed
    have present : 0 < ((placed hand state).map Prod.fst ++ lost).countP
        fun other => other.job = file.job :=
      List.countP_pos_iff.mpr
        ⟨file, List.mem_append_left _ inHand, by simp⟩
    have counted := files.counted file.job
    omega
  · obtain ⟨terminal, ended, rfl, _⟩ := ended_of_done files all rfl
    have apart := (List.nodup_append.mp
      (List.nodup_append.mp files.once).1).2.2
    exact apart _ inHand _ (List.mem_map_of_mem ended) rfl
  · obtain ⟨entry, inPlaces, rfl⟩ := List.mem_map.mp inHand
    exact away.2.1 (jobs.active entry inPlaces)

/-- As long as every file that fails is the last of its job in flight, no job
holds GPU blocks once its future is set. -/
theorem quietAfterSet (quiet : env.Quiet)
    (reached : Machine.Reachable env machine)
    (running : machine.phase.Running)
    (alone : FailedAlone machine.state) : QuietAfterSet machine.state := by
  obtain ⟨_, jobs, lost, _, files⟩ :=
    reachable_held (fileRules quiet) fileInv_init reached running
  intro job isSet file member
  exact notOnTheWay_of_books files jobs (placed_hand _) alone isSet file
    (holdingBlocks_onTheWay member)

section Examples

/-- The first file of a job is opened and read in full, then the open of its
second file fails; another job is opened before that. -/
def lastFails : Env 5 :=
  .smooth true fun calls =>
    if calls = 5 then [(1, 3)]
    else if calls = 8 then [(4, 1)]
    else if calls = 18 then [(2, -2), (3, 4)]
    else []

/-- A load of a third block for a job of its own. -/
def thirdLoad : Job :=
  .ofChunk 1 false [3] [9]

/-- The first job has failed while a file of the other one is read. -/
def readOn : Machine 5 :=
  (Machine.init lastFails).play lastFails
    (.submit twoFileLoad :: .submit thirdLoad :: List.replicate 40 .advance)

theorem readOn_quietAfterSet :
    (readOn.state.jobs twoFileLoad).futureSet = true ∧
      filesHoldingBlocks readOn.state ≠ [] ∧ QuietAfterSet readOn.state :=
  ⟨by decide +kernel, by decide +kernel, quietAfterSet Env.smooth_quiet
    (Machine.reachable_play _ (by decide +kernel)) (by decide +kernel) (by
      unfold FailedAlone
      decide +kernel)⟩

/-- The first open fails, the second one succeeds. -/
def failedOpen : Env 5 :=
  .smooth true fun calls => if calls = 4 then [(1, -2), (2, 3)] else []

/-- The open of the first file fails while the second one is being opened: the
future is set, and the second file waits with its descriptor to be read and
copied. -/
theorem secondFile_afterSet :
    Machine.Reachable failedOpen ((Machine.init failedOpen).play failedOpen
        (.submit twoFileLoad :: List.replicate 16 .advance)) ∧
      ((Machine.init failedOpen).play failedOpen
        (.submit twoFileLoad :: List.replicate 16 .advance)).phase.Running ∧
      ¬ QuietAfterSet ((Machine.init failedOpen).play failedOpen
        (.submit twoFileLoad :: List.replicate 16 .advance)).state := by
  refine ⟨Machine.reachable_play _ (by decide +kernel), by decide +kernel,
    fun quiet => ?_⟩
  exact quiet twoFileLoad (by decide) ⟨twoFileLoad, 1, by decide⟩
    (by decide) rfl

end Examples

end PyKvCache.Safety
