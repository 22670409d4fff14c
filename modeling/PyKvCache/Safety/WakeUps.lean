import PyKvCache.Ledger.Completions
import PyKvCache.Reactor.Script

/-!
# Waking up preloads parked on a store

While a store of a block is in flight, preloads of the block are parked in
`_preload_blocked_on_write`.  `_release_store_inflight` lets them go when the
last of the overlapping stores of the block ends.  All it has by then is their
count and how the last one ended.
-/

namespace PyKvCache.Safety

open PyKvCache.Library PyKvCache.Staging PyKvCache.Transfer
open PyKvCache.Reactor PyKvCache.Ledger
open PyKvCache.Library.Effect

variable {slotCount : Nat}

/-! ## The end of a store file -/

/-- `finish_write` up to `os.link`, for what the link did. -/
def linkFinal (env : Env slotCount) (fd : Int)
    (tempPath finalPath : String) :
    React slotCount (Except Exc PUnit) := do
  onlyIf env.syncOnStore (do
    external env (.fsync fd)
    addEvent env .fileSync)
  closeFd env fd
  attempt (external env (.link tempPath finalPath))

/-- After the link there is a file at the final path. -/
def landed : Except Exc PUnit → Bool
  | .ok _ => true
  | .error (.fault _ .fileExists) => true
  | .error _ => false

/-- The calls a store file can end in. -/
inductive StoreCall (slotCount : Nat) where
  | schedule (slot : Fin slotCount)
  | copyDone (slot : Fin slotCount)
  | writeComplete (slot : Fin slotCount) (fd : Int)
      (finalPath tempPath : String) (result : Int)

namespace StoreCall

/-- The method of the reactor. -/
def run (env : Env slotCount) (file : FileRef) :
    StoreCall slotCount → React slotCount PUnit
  | schedule slot => scheduleStoreCopy env file slot
  | copyDone slot => onStoreCopyDone env file slot
  | writeComplete slot fd finalPath tempPath result =>
      onWriteComplete env file slot fd finalPath tempPath result

/-- The call publishes the block: a full write gets to its final path. -/
def publishes (env : Env slotCount) (state : State slotCount) :
    StoreCall slotCount → Bool
  | writeComplete _ fd finalPath tempPath result =>
      decide (result = env.ioSize) &&
        match linkFinal env fd tempPath finalPath state with
        | .ok linked _ => landed linked
        | .error _ _ => false
  | _ => false

end StoreCall

/-- How a store file ended: whether it published its block, and whether the
reactor took it for a success. -/
structure Ending where
  published : Bool
  ok : Bool
  deriving DecidableEq

/-- The call returns and has ended the file. -/
structure EndsIn (env : Env slotCount) (file : FileRef)
    (call : StoreCall slotCount) (ending : Ending)
    (before after : State slotCount) : Prop where
  returned : call.run env file before = .ok ⟨⟩ after
  published : ending.published = call.publishes env before
  terminal : ∃ error others,
    after.terminals = before.terminals ++ [⟨file, error, others⟩] ∧
      ending.ok = error.isNone

/-- A run in which stores of a block overlap: how many of them are in flight,
and how the others ended.

Other parts of the reactor run in between; they may do anything but count a
store of the block. -/
inductive Overlapping (env : Env slotCount) (hash : BlockHash) :
    State slotCount → Nat → List Ending → Prop
  | first {job : Job} {before after : State slotCount}
      (idle : before.storeInflight.count hash = 0)
      (taken : intakeStoreHash env job hash before = .ok ⟨⟩ after) :
      Overlapping env hash after 1 []
  | joined {job : Job} {before after : State slotCount} {inFlight : Nat}
      {endings : List Ending}
      (group : Overlapping env hash before inFlight endings)
      (taken : intakeStoreHash env job hash before = .ok ⟨⟩ after) :
      Overlapping env hash after (inFlight + 1) endings
  | ended {file : FileRef} {call : StoreCall slotCount} {ending : Ending}
      {before after : State slotCount} {inFlight : Nat}
      {endings : List Ending}
      (group : Overlapping env hash before (inFlight + 2) endings)
      (same : file.hash = hash)
      (ends : EndsIn env file call ending before after) :
      Overlapping env hash after (inFlight + 1) (endings ++ [ending])
  | meanwhile {before after : State slotCount} {inFlight : Nat}
      {endings : List Ending}
      (group : Overlapping env hash before inFlight endings)
      (uncounted : after.storeInflight.count hash =
        before.storeInflight.count hash) :
      Overlapping env hash after inFlight endings

/-! ## What becomes of the parked preloads -/

/-- The parked preloads that are read back.  In shared mode one read serves
all of them. -/
def readBacks (env : Env slotCount) (hash : BlockHash)
    (state : State slotCount) : List PreloadInfo :=
  let parked := state.preloadBlockedOnWrite.queue hash
  if env.sharePreload then parked.take 1 else parked

/-- The parked preloads are requeued for a read-back. -/
structure Requeued (env : Env slotCount) (hash : BlockHash)
    (before after : State slotCount) : Prop where
  pending : after.preloadPending =
    before.preloadPending ++ readBacks env hash before
  counted : after.preloadPendingCount =
    (readBacks env hash before).foldl
      (fun table info => table.addOne info.blockHash)
      before.preloadPendingCount

/-- Nobody in shared mode has a demand for the block any more. -/
def Undemanded (env : Env slotCount) (hash : BlockHash)
    (state : State slotCount) : Prop :=
  env.sharePreload = true →
    (∀ reqId, state.preloadOwned.contains (reqId, hash) = false) ∧
      state.preloadRefcount.count hash = 0

/-- The parked preloads are withdrawn as the block is in the staging cache. -/
structure Withdrawn (env : Env slotCount) (hash : BlockHash)
    (before after : State slotCount) : Prop where
  cached : after.inStagingCache hash = true
  pending : after.preloadPending = before.preloadPending
  counted : after.preloadPendingCount = before.preloadPendingCount
  undemanded : Undemanded env hash after

/-- The parked preloads are forgotten, and whoever owns them still does. -/
structure Dropped (before after : State slotCount) : Prop where
  pending : after.preloadPending = before.preloadPending
  counted : after.preloadPendingCount = before.preloadPendingCount
  owned : after.preloadOwned = before.preloadOwned
  demanded : after.preloadRefcount = before.preloadRefcount

/-- The parked preloads are armed again if a store of the group published the
block, and dropped if none did. -/
def WakesRight (env : Env slotCount) (hash : BlockHash)
    (endings : List Ending) (before after : State slotCount) : Prop :=
  after.preloadBlockedOnWrite.queue hash = [] ∧
    if ∃ ending ∈ endings, ending.published = true then
      Requeued env hash before after ∨ Withdrawn env hash before after
    else
      Dropped before after

/-- The block is cached and there is no demand to withdraw: to drop the parked
preloads and to withdraw them is the same. -/
def NothingLeft (env : Env slotCount) (hash : BlockHash)
    (state : State slotCount) : Prop :=
  state.inStagingCache hash = true ∧ Undemanded env hash state

/-! ## The publication -/

/-- `finish_write` from `os.unlink` on. -/
def afterLink (env : Env slotCount) (tempPath finalPath : String)
    (linked : Except Exc PUnit) : React slotCount Bool := do
  unlinkPresent env tempPath
  match linked with
  | .error (.fault _ .fileExists) => do
      onlyIf env.syncOnStore (fsyncDir env finalPath)
      pure false
  | .error raised => throw raised
  | .ok _ => do
      onlyIf env.syncOnStore (fsyncDir env finalPath)
      pure true

theorem finishWrite_eq (env : Env slotCount) (fd : Int)
    (tempPath finalPath : String) :
    finishWrite env fd tempPath finalPath =
      linkFinal env fd tempPath finalPath >>=
        afterLink env tempPath finalPath := by
  simp only [finishWrite, linkFinal, bind_assoc]
  rfl

/-- Where `finish_write` returns, the block is at its final path. -/
theorem finishWrite_publishes (env : Env slotCount)
    (state : State slotCount) (slot : Fin slotCount) (fd : Int)
    (tempPath finalPath : String) (result : Int)
    (full : result = env.ioSize) :
    wp (finishWrite env fd tempPath finalPath)
      (fun _ _ =>
        (StoreCall.writeComplete slot fd finalPath tempPath result).publishes
          env state = true)
      (fun _ _ => True) state := by
  rw [finishWrite_eq]
  refine wp_seq (wp_run wp_trivial) fun linked next reached => ?_
  have value : (StoreCall.writeComplete slot fd finalPath tempPath
      result).publishes env state = landed linked := by
    simp only [StoreCall.publishes, reached.1, full, decide_true,
      Bool.true_and]
  have syncing : ∀ (stored : Bool) (last : State slotCount),
      landed linked = true →
        wp (do
          onlyIf env.syncOnStore (fsyncDir env finalPath)
          pure stored)
          (fun _ _ => (StoreCall.writeComplete slot fd finalPath tempPath
            result).publishes env state = true)
          (fun _ _ => True) last := by
    intro stored last arrived
    refine wp_seq wp_trivial fun _ _ _ => ?_
    exact value.trans arrived
  unfold afterLink
  refine wp_seq wp_trivial fun _ last _ => ?_
  split
  · exact syncing false last rfl
  · trivial
  · exact syncing true last rfl

/-! ## The wake-up -/

/-- `_requeue_preload_hash` for each of the preloads. -/
theorem wp_requeueAll {infos : List PreloadInfo}
    {fail : Exc → State slotCount → Prop} {state : State slotCount} :
    wp (infos.forM pendingPush)
      (fun _ next => next =
        { state with
          preloadPending := state.preloadPending ++ infos
          preloadPendingCount := infos.foldl
            (fun table info => table.addOne info.blockHash)
            state.preloadPendingCount })
      fail state := by
  induction infos generalizing state with
  | nil =>
      change state = _
      simp only [List.append_nil, List.foldl_nil]
  | cons head tail inductionHypothesis =>
      have pushing : wp (pendingPush head)
          (fun _ next => next =
            { state with
              preloadPending := state.preloadPending ++ [head]
              preloadPendingCount :=
                state.preloadPendingCount.addOne head.blockHash })
          fail state := rfl
      refine wp_seq pushing fun _ next pushed =>
        wp_post inductionHypothesis ?_
      intro _ last requeued
      subst pushed
      simpa only [List.append_assoc, List.singleton_append,
        List.foldl_cons] using requeued

/-- What `_release_store_inflight` does. -/
structure Released (env : Env slotCount) (hash : BlockHash) (ok : Bool)
    (state next : State slotCount) : Prop where
  counted : next.storeInflight = state.storeInflight.takeOne hash
  terminals : next.terminals = state.terminals
  cache : next.stagingCache = state.stagingCache
  woken : state.storeInflight.count hash ≤ 1 → state.stop = false →
    state.preloadBlockedOnWrite.queue hash ≠ [] →
      next.preloadBlockedOnWrite.queue hash = [] ∧
        if ok then
          Requeued env hash state next ∨ Withdrawn env hash state next
        else
          Dropped state next

theorem contains_withoutHash
    (owned : OrderedDict (String × BlockHash) Unit) (hash : BlockHash)
    (reqId : String) :
    (withoutHash owned hash).contains (reqId, hash) = false := by
  rw [OrderedDict.contains_eq_false_iff, OrderedDict.find?_eq_none_iff]
  intro member
  obtain ⟨entry, kept, keyed⟩ := List.mem_map.mp member
  have other := (List.mem_filter.mp kept).2
  rw [keyed] at other
  simp at other

theorem releaseStoreInflight_released {env : Env slotCount}
    (quiet : env.Quiet) (hash : BlockHash) (ok : Bool)
    (state : State slotCount) :
    wp (releaseStoreInflight env hash ok)
      (fun _ next => Released env hash ok state next) (fun _ _ => False)
      state := by
  have unparked : (state.preloadBlockedOnWrite.erase hash).queue hash =
      [] := by
    rw [QueueTable.queue_erase, if_pos rfl]
  simp only [releaseStoreInflight, wp_bind, wp_get, wp_modify, wp_ite,
    wp_pure]
  constructor
  · intro more
    exact ⟨rfl, rfl, rfl, fun last => by omega⟩
  intro _
  cases parked : state.preloadBlockedOnWrite.queue hash with
  | nil => exact ⟨rfl, rfl, rfl, fun _ _ some => absurd parked some⟩
  | cons first others =>
      simp only [wp_ite, wp_pure, wp_bind, wp_onlyIf, purgeOwnedForHash,
        wp_modify]
      constructor
      · -- the store failed, or the reactor stops
        intro drops
        refine ⟨rfl, rfl, rfl, fun _ running _ => ⟨unparked, ?_⟩⟩
        rw [running, Bool.or_false, Bool.not_eq_true'] at drops
        rw [drops]
        exact ⟨rfl, rfl, rfl, rfl⟩
      intro goesOn
      have succeeded : ok = true := by
        cases ok with
        | true => rfl
        | false => exact absurd rfl goesOn
      subst succeeded
      constructor
      · -- the block is in the staging cache
        intro cached
        constructor
        · intro shared
          refine ⟨rfl, rfl, rfl, fun _ _ _ => ⟨unparked, Or.inr ?_⟩⟩
          refine ⟨cached, rfl, rfl, fun _ => ⟨fun reqId => ?_, ?_⟩⟩
          · exact contains_withoutHash _ _ _
          · exact CountTable.count_erase.trans (if_pos rfl)
        · intro owned
          refine ⟨rfl, rfl, rfl, fun _ _ _ => ⟨unparked, Or.inr ?_⟩⟩
          exact ⟨cached, rfl, rfl, fun shared => absurd shared owned⟩
      · intro _
        constructor
        · intro shared
          rw [pendingPush, wp_modify, wp_addEvent quiet]
          have served : readBacks env hash state = [first] := by
            rw [readBacks, if_pos shared, parked]
            rfl
          refine ⟨rfl, rfl, rfl, fun _ _ _ => ⟨unparked, Or.inl ?_⟩⟩
          constructor
          · rw [served]
            rfl
          · rw [served]
            rfl
        · intro owned
          have served : readBacks env hash state = first :: others := by
            rw [readBacks, if_neg owned, parked]
          refine wp_post wp_requeueAll ?_
          intro _ next requeued
          rw [wp_addEvent quiet, requeued]
          refine ⟨rfl, rfl, rfl, fun _ _ _ => ⟨unparked, Or.inl ?_⟩⟩
          constructor
          · rw [served]
            rfl
          · rw [served]
            rfl

/-! ## The calls -/

/-- What the wake-up reads and writes, the staging cache apart. -/
def storeTables (state : State slotCount) :=
  (state.storeInflight, state.preloadBlockedOnWrite, state.preloadPending,
    state.preloadPendingCount, state.preloadOwned, state.preloadRefcount,
    state.stop)

/-- So far the call has touched none of it, and ended no file. -/
structure Untouched (before state : State slotCount) : Prop where
  tables : storeTables state = storeTables before
  cache : state.stagingCache = before.stagingCache
  terminals : state.terminals = before.terminals

/-- The call has ended the file and is about to count it out. -/
structure CountsOut (file : FileRef) (ok : Bool)
    (before state : State slotCount) : Prop where
  tables : storeTables state = storeTables before
  cache : ok = false → state.stagingCache = before.stagingCache
  terminal : ∃ error others,
    state.terminals = before.terminals ++ [⟨file, error, others⟩] ∧
      error.isNone = ok

/-- The call has ended no file, or it has counted one out. -/
def CountedOut (env : Env slotCount) (file : FileRef)
    (call : StoreCall slotCount) (before after : State slotCount) : Prop :=
  after.terminals = before.terminals ∨
    ∃ ok middle, (ok = true → call.publishes env before = true) ∧
      CountsOut file ok before middle ∧
        releaseStoreInflight env file.hash ok middle = .ok ⟨⟩ after

theorem Untouched.refl (state : State slotCount) : Untouched state state :=
  ⟨rfl, rfl, rfl⟩

theorem untouched_silent (before : State slotCount) :
    Silent (Untouched before) where
  ticks := fun _ kept => ⟨kept.tables, kept.cache, kept.terminals⟩
  handsOver := fun _ _ kept => ⟨kept.tables, kept.cache, kept.terminals⟩

section Ends

variable {env : Env slotCount} (quiet : env.Quiet) {file : FileRef}
  {before : State slotCount}

include quiet

theorem failStoreFile_countedOut (call : StoreCall slotCount) (exc : Exc)
    {state : State slotCount} (untouched : Untouched before state) :
    wp (failStoreFile env file exc)
      (fun _ after => CountedOut env file call before after)
      (fun _ _ => True) state := by
  have counts : CountsOut file false before (ended state file (some exc)) :=
    ⟨untouched.tables, fun _ => untouched.cache, some exc,
      (state.jobs file.job).inflightFiles - 1,
      congrArg (· ++ _) untouched.terminals, rfl⟩
  have terminal : wp (fileTerminal env file (some exc))
      (fun _ middle => CountsOut file false before middle)
      (fun _ _ => True) state :=
    wp_fileTerminal quiet.emits counts
      ⟨counts.tables, counts.cache, counts.terminal⟩
  refine wp_seq terminal fun _ middle counted => ?_
  refine wp_post (wp_run wp_trivial) fun _ after released => ?_
  exact Or.inr ⟨false, middle, nofun, counted, released.1⟩

theorem failWrite_countedOut (call : StoreCall slotCount)
    (slot : Fin slotCount) (fd : Int) (tempPath : String) (exc : Exc)
    {state : State slotCount} (untouched : Untouched before state) :
    wp (failWrite env file slot fd tempPath exc)
      (fun _ after => CountedOut env file call before after)
      (fun _ _ => True) state := by
  have cleaned : Keeps (Untouched before) (cleanupTemp env fd tempPath) :=
    (untouched_silent before).cleanupTemp_keeps fd tempPath
  have cleaning : wp (cleanupTemp env fd tempPath)
      (fun _ next => Untouched before next) (fun _ _ => True) state :=
    wp_mono (cleaned state untouched) (fun _ _ kept => kept)
      fun _ _ _ => trivial
  refine wp_seq cleaning fun _ next kept => ?_
  exact failStoreFile_countedOut quiet call exc
    ⟨kept.tables, kept.cache, kept.terminals⟩

theorem scheduleStoreCopy_countedOut (slot : Fin slotCount) :
    wp (scheduleStoreCopy env file slot)
      (fun _ after => CountedOut env file (.schedule slot) before after)
      (fun _ _ => True) before := by
  have launched : Keeps (Untouched before)
      (attempt (launchStoreCopy env file slot)) :=
    .attempt ((untouched_silent before).ticks.launchStoreCopy_keeps file slot)
  have launching : wp (attempt (launchStoreCopy env file slot))
      (fun _ next => Untouched before next) (fun _ _ => True)
      (started before file.job) :=
    wp_mono (launched _ ⟨rfl, rfl, rfl⟩) (fun _ _ kept => kept)
      fun _ _ _ => trivial
  unfold scheduleStoreCopy
  rw [wp_bind]
  refine wp_seq launching fun launched next kept => ?_
  cases launched with
  | error exc =>
      exact failStoreFile_countedOut quiet _ exc
        ⟨kept.tables, kept.cache, kept.terminals⟩
  | ok _ => exact Or.inl kept.terminals

theorem onStoreCopyDone_countedOut (slot : Fin slotCount) :
    wp (onStoreCopyDone env file slot)
      (fun _ after => CountedOut env file (.copyDone slot) before after)
      (fun _ _ => True) before := by
  have opened : Keeps (Untouched before)
      (attempt (openTempWrite env (env.getFileName file.hash))) :=
    .attempt ((untouched_silent before).openTempWrite_keeps _)
  have opening : wp
      (attempt (openTempWrite env (env.getFileName file.hash)))
      (fun _ next => Untouched before next) (fun _ _ => True) before :=
    wp_mono (opened before (.refl before)) (fun _ _ kept => kept)
      fun _ _ _ => trivial
  unfold onStoreCopyDone
  refine wp_seq opening fun opened next kept => ?_
  cases opened with
  | error exc =>
      exact failStoreFile_countedOut quiet _ exc
        ⟨kept.tables, kept.cache, kept.terminals⟩
  | ok temp =>
      obtain ⟨fd, tempPath⟩ := temp
      have failing : ∀ (exc : Exc) (state : State slotCount),
          Untouched before state →
            wp (failWrite env file slot fd tempPath exc)
              (fun _ after =>
                CountedOut env file (.copyDone slot) before after)
              (fun _ _ => True) state :=
        fun exc _ kept =>
          failWrite_countedOut quiet _ slot fd tempPath exc kept
      simp only [failWrite, wp_bind] at failing
      simp only [newUserData, dataDone, wp_bind, wp_modify, wp_modifyGet,
        wp_attempt, wp_external]
      constructor
      · intro _
        exact Or.inl kept.terminals
      · intro fault _
        exact failing _ _ ⟨kept.tables, kept.cache, kept.terminals⟩

private theorem releaseOrCache_tables (slot : Fin slotCount)
    {hash : BlockHash} {state : State slotCount}
    (untouched : Untouched before state) :
    wp (releaseOrCache env hash slot)
      (fun _ next => storeTables next = storeTables before ∧
        next.terminals = before.terminals)
      (fun _ _ => False) state := by
  have tables := untouched.tables
  have terminals := untouched.terminals
  have freeing : ∀ (slots : List (Fin slotCount)) (start : State slotCount),
      storeTables start = storeTables before ∧
        start.terminals = before.terminals →
      wp (slots.forM release)
        (fun _ next => storeTables next = storeTables before ∧
          next.terminals = before.terminals)
        (fun _ _ => False) start := by
    intro slots start kept
    refine wp_forM (fun _ (next : State slotCount) =>
        storeTables next = storeTables before ∧
          next.terminals = before.terminals) ?_ slots kept
    intro _ _ _ current
    exact current
  simp only [releaseOrCache, wp_bind, wp_get]
  cases state.stagingCache with
  | none => exact ⟨tables, terminals⟩
  | some cache =>
      simp only [wp_bind, wp_modify, wp_onlyIf, wp_addEvent quiet]
      refine wp_post (freeing _ _ ⟨tables, terminals⟩) ?_
      intro _ next kept
      exact ⟨fun _ => kept, fun _ => kept⟩

theorem onWriteComplete_countedOut (slot : Fin slotCount) (fd : Int)
    (finalPath tempPath : String) (result : Int) :
    wp (onWriteComplete env file slot fd finalPath tempPath result)
      (fun _ after => CountedOut env file
        (.writeComplete slot fd finalPath tempPath result) before after)
      (fun _ _ => True) before := by
  have failing : ∀ (exc : Exc) (state : State slotCount),
      Untouched before state →
        wp (failWrite env file slot fd tempPath exc)
          (fun _ after => CountedOut env file
            (.writeComplete slot fd finalPath tempPath result) before after)
          (fun _ _ => True) state :=
    fun exc _ kept => failWrite_countedOut quiet _ slot fd tempPath exc kept
  rw [onWriteComplete, wp_handling]
  unfold publishWrite
  rw [wp_bind]
  refine wp_checkTransferred (fun full => ?_)
    fun exc => failing exc before (.refl before)
  have kept : Keeps (Untouched before)
      (finishWrite env fd tempPath finalPath) :=
    (untouched_silent before).finishWrite_keeps fd tempPath finalPath
  have finishing := wp_and (kept before (.refl before))
    (finishWrite_publishes env before slot fd tempPath finalPath result full)
  refine (wp_bind _ _).mpr (wp_mono finishing (fun _ next finished => ?_)
    fun exc next raised => failing exc next raised.1)
  obtain ⟨kept, published⟩ := finished
  refine wp_returns (wp_seq (releaseOrCache_tables quiet slot kept)
    fun _ cached tables => ?_)
  have counts : CountsOut file true before (ended cached file none) :=
    ⟨tables.1, by simp, none, (cached.jobs file.job).inflightFiles - 1,
      congrArg (· ++ _) tables.2, rfl⟩
  have terminal : wp (fileTerminal env file none)
      (fun _ middle => CountsOut file true before middle)
      (fun _ _ => False) cached :=
    wp_fileTerminal quiet.emits counts
      ⟨counts.tables, counts.cache, counts.terminal⟩
  refine wp_seq terminal fun _ middle counted => ?_
  refine wp_post (wp_run
    (releaseStoreInflight_released quiet file.hash true middle)) ?_
  intro _ after released
  exact Or.inr ⟨true, middle, fun _ => published, counted, released.1⟩

theorem StoreCall.run_countedOut (call : StoreCall slotCount) :
    wp (call.run env file)
      (fun _ after => CountedOut env file call before after)
      (fun _ _ => True) before := by
  cases call with
  | schedule slot => exact scheduleStoreCopy_countedOut quiet slot
  | copyDone slot => exact onStoreCopyDone_countedOut quiet slot
  | writeComplete slot fd finalPath tempPath result =>
      exact onWriteComplete_countedOut quiet slot fd finalPath tempPath result

variable {call : StoreCall slotCount} {ending : Ending}
  {after : State slotCount}

/-- A call that ends a file counts it out with its outcome, and a success has
published the block. -/
theorem EndsIn.released
    (ends : EndsIn env file call ending before after) :
    (ending.ok = true → ending.published = true) ∧
      ∃ middle, CountsOut file ending.ok before middle ∧
        Released env file.hash ending.ok middle after := by
  obtain ⟨error, others, logged, outcome⟩ := ends.terminal
  have counted : wp (call.run env file)
      (fun _ after => CountedOut env file call before after)
      (fun _ _ => True) before := call.run_countedOut quiet
  unfold wp at counted
  rw [ends.returned] at counted
  rcases counted with silent | ⟨ok, middle, published, counts, returned⟩
  · rw [silent] at logged
    exact absurd (List.self_eq_append_right.mp logged)
      (List.cons_ne_nil _ _)
  have released := releaseStoreInflight_released quiet file.hash ok middle
  unfold wp at released
  rw [returned] at released
  obtain ⟨error', others', logged', outcome'⟩ := counts.terminal
  rw [released.terminals, logged'] at logged
  have sameEntry := List.append_cancel_left logged
  simp only [List.cons.injEq, Terminal.mk.injEq, true_and, and_true]
    at sameEntry
  have sameOk : ending.ok = ok := by
    rw [outcome, ← outcome', sameEntry.1]
  rw [sameOk, ends.published]
  exact ⟨published, middle, counts, released⟩

end Ends

/-! ## The count of the stores in flight -/

section Counts

variable {env : Env slotCount}

private theorem sharedDecref_uncounted (reqId : String) (hash : BlockHash)
    (stores : CountTable BlockHash) :
    Keeps (fun state : State slotCount => state.storeInflight = stores)
      (sharedDecref env reqId hash) := by
  have ticks : Ticks fun state : State slotCount =>
      state.storeInflight = stores := fun _ kept => kept
  have freeing : ∀ (key : BlockHash) (slot : Fin slotCount),
      Keeps (fun state : State slotCount => state.storeInflight = stores)
        (releaseOrCache env key slot) := by
    intro key slot
    refine .bind .get fun state => ?_
    cases state.stagingCache with
    | none => exact .modify fun _ kept => kept
    | some cache =>
        exact .bind (.modify fun _ kept => kept) fun _ =>
          .bind (.forM fun _ => .modify fun _ kept => kept) fun _ =>
            .onlyIf (ticks.external_keeps _)
  refine .bind .get fun state => .ite (.bind (.modify fun _ kept => kept)
    fun _ => .ite (.pure _) ?_) (.pure _)
  cases state.sharedCached.find? hash with
  | none => exact .pure _
  | some slot =>
      refine .bind (.bind (.modify fun current kept => ?_) fun _ =>
        .modify fun _ kept => kept) fun _ =>
          .bind .get fun _ => .ite (.pure _) (freeing _ _)
      by_cases found : current.sharedCached.find? slot.blockHash = some slot
      · rw [if_pos found]
        exact kept
      · rw [if_neg found]
        exact kept

theorem intakeStoreHash_counts {job : Job} {hash : BlockHash}
    {before after : State slotCount}
    (taken : intakeStoreHash env job hash before = .ok ⟨⟩ after) :
    after.storeInflight = before.storeInflight.addOne hash := by
  have decref : wp (onlyIf env.sharePreload
        (sharedDecref env job.reqId hash))
      (fun _ (next : State slotCount) =>
        next.storeInflight = before.storeInflight)
      (fun _ _ => True) before :=
    wp_mono (Keeps.onlyIf (sharedDecref_uncounted _ _ _) before rfl)
      (fun _ _ kept => kept) fun _ _ _ => trivial
  have counts : wp (intakeStoreHash env job hash)
      (fun _ next => next.storeInflight = before.storeInflight.addOne hash)
      (fun _ _ => True) before := by
    refine wp_seq decref fun _ next kept => ?_
    exact congrArg (CountTable.addOne · hash) kept
  unfold wp at counts
  rw [taken] at counts
  exact counts

/-- `_store_inflight` counts the stores of the group in flight. -/
theorem Overlapping.count_eq (quiet : env.Quiet) {hash : BlockHash}
    {state : State slotCount} {inFlight : Nat} {endings : List Ending}
    (group : Overlapping env hash state inFlight endings) :
    state.storeInflight.count hash = inFlight := by
  induction group with
  | first idle taken =>
      rw [intakeStoreHash_counts taken, CountTable.count_addOne, if_pos rfl,
        idle]
  | joined _ taken inductionHypothesis =>
      rw [intakeStoreHash_counts taken, CountTable.count_addOne, if_pos rfl,
        inductionHypothesis]
  | @ended file call ending before after inFlight endings _ same ends
      inductionHypothesis =>
      obtain ⟨_, middle, counts, released⟩ := ends.released quiet
      have untouched : middle.storeInflight = before.storeInflight :=
        congrArg Prod.fst counts.tables
      rw [released.counted, untouched, same, CountTable.count_takeOne,
        if_pos rfl, inductionHypothesis]
      rfl
  | meanwhile _ uncounted inductionHypothesis =>
      rw [uncounted, inductionHypothesis]

end Counts

/-! ## The end of the last store -/

section LastEnd

variable {env : Env slotCount} {hash : BlockHash} {file : FileRef}
  {call : StoreCall slotCount} {last : Ending}
  {before middle after : State slotCount}

/-- The wake-up seen from the start of the call. -/
theorem Released.woken_before {ok : Bool}
    (released : Released env hash ok middle after)
    (tables : storeTables middle = storeTables before)
    (counted : before.storeInflight.count hash ≤ 1)
    (running : before.stop = false)
    (parked : before.preloadBlockedOnWrite.queue hash ≠ []) :
    after.preloadBlockedOnWrite.queue hash = [] ∧
      if ok then
        Requeued env hash before after ∨ Withdrawn env hash before after
      else
        Dropped before after := by
  simp only [storeTables, Prod.mk.injEq] at tables
  obtain ⟨inflight, blocked, pending, count, owned, demanded, stop⟩ :=
    tables
  have backs : readBacks env hash middle = readBacks env hash before := by
    rw [readBacks, readBacks, blocked]
  obtain ⟨unparked, woken⟩ := released.woken (by rw [inflight]; exact counted)
    (by rw [stop]; exact running) (by rw [blocked]; exact parked)
  refine ⟨unparked, ?_⟩
  cases ok with
  | true =>
      rw [if_pos rfl] at woken ⊢
      refine woken.imp (fun requeued => ⟨?_, ?_⟩)
        fun withdrawn => ⟨withdrawn.cached, ?_, ?_, withdrawn.undemanded⟩
      · rw [requeued.pending, pending, backs]
      · rw [requeued.counted, count, backs]
      · rw [withdrawn.pending, pending]
      · rw [withdrawn.counted, count]
  | false =>
      rw [if_neg Bool.false_ne_true] at woken ⊢
      exact ⟨woken.pending.trans pending, woken.counted.trans count,
        woken.owned.trans owned, woken.demanded.trans demanded⟩

/-- Parked preloads that are dropped are armed again only where nothing is
left to do. -/
theorem Dropped.armed_iff (dropped : Dropped before after)
    (cache : after.stagingCache = before.stagingCache)
    (parked : before.preloadBlockedOnWrite.queue hash ≠ []) :
    (Requeued env hash before after ∨ Withdrawn env hash before after) ↔
      NothingLeft env hash before := by
  have cached : after.inStagingCache hash = before.inStagingCache hash := by
    rw [State.inStagingCache, State.inStagingCache, cache]
  have demand : Undemanded env hash after ↔ Undemanded env hash before := by
    rw [Undemanded, Undemanded, dropped.owned, dropped.demanded]
  constructor
  · rintro (requeued | withdrawn)
    · have served := requeued.pending
      rw [dropped.pending] at served
      have none := List.self_eq_append_right.mp served
      rw [readBacks] at none
      split at none
      · rcases List.take_eq_nil_iff.mp none with zero | empty
        · omega
        · exact absurd empty parked
      · exact absurd none parked
    · exact ⟨cached ▸ withdrawn.cached, demand.mp withdrawn.undemanded⟩
  · intro left
    exact Or.inr ⟨cached.trans left.1, dropped.pending, dropped.counted,
      demand.mpr left.2⟩

/-- When the last of the overlapping stores of a block ends, the preloads
parked on it are armed again if one of the stores published the block and
dropped if none did, exactly if the last store succeeds, or none published, or
nothing is left to do. -/
theorem wakesRight_iff (quiet : env.Quiet) {endings : List Ending}
    (group : Overlapping env hash before 1 endings)
    (running : before.stop = false)
    (parked : before.preloadBlockedOnWrite.queue hash ≠ [])
    (same : file.hash = hash)
    (ends : EndsIn env file call last before after) :
    WakesRight env hash (endings ++ [last]) before after ↔
      last.ok = true ∨
        (∀ ending ∈ endings ++ [last], ending.published = false) ∨
          NothingLeft env hash before := by
  subst same
  obtain ⟨published, middle, counts, released⟩ := ends.released quiet
  have counted : before.storeInflight.count file.hash ≤ 1 :=
    (group.count_eq quiet).le
  obtain ⟨unparked, woken⟩ :=
    released.woken_before counts.tables counted running parked
  have nobody :
      (∀ ending ∈ endings ++ [last], ending.published = false) ↔
        ¬ ∃ ending ∈ endings ++ [last], ending.published = true := by
    simp only [not_exists, not_and, Bool.not_eq_true]
  rw [WakesRight, and_iff_right unparked, nobody]
  cases succeeded : last.ok with
  | true =>
      rw [succeeded, if_pos rfl] at woken
      have some : ∃ ending ∈ endings ++ [last], ending.published = true :=
        ⟨last, List.mem_append_right _ List.mem_cons_self,
          published succeeded⟩
      rw [if_pos some]
      exact iff_of_true woken (Or.inl rfl)
  | false =>
      rw [succeeded, if_neg Bool.false_ne_true] at woken
      have cache : after.stagingCache = before.stagingCache :=
        released.cache.trans (counts.cache succeeded)
      by_cases landed : ∃ ending ∈ endings ++ [last],
          ending.published = true
      · rw [if_pos landed, woken.armed_iff cache parked]
        constructor
        · intro left
          exact Or.inr (Or.inr left)
        · rintro (impossible | absent | left)
          · cases impossible
          · exact absurd landed absent
          · exact left
      · rw [if_neg landed]
        exact iff_of_true woken (Or.inr (Or.inl landed))

end LastEnd

section Examples

/-- The state in which a reaped write is handled. -/
def writeReaped (userData : Nat) (state : State slotCount) :
    State slotCount :=
  { state with
    inflight := state.inflight.erase userData
    dataInflight := state.dataInflight - 1 }

theorem reapCompletion_writing {env : Env slotCount}
    {state : State slotCount} {userData : Nat} {file : FileRef}
    {slot : Fin slotCount} {fd : Int} {finalPath tempPath : String}
    (found : state.inflight.find? userData =
      some (.writing file slot fd finalPath tempPath)) (result : Int) :
    reapCompletion env (userData, result) state =
      (StoreCall.writeComplete slot fd finalPath tempPath result).run env
        file (writeReaped userData state) := by
  simp only [reapCompletion, bind, EStateM.bind, get_run, found]
  rfl

theorem eq_ok_of_returns {program : React slotCount PUnit}
    {state : State slotCount}
    (returns : (match program state with
      | .ok _ _ => true
      | .error _ _ => false) = true) :
    program state = .ok ⟨⟩ (program.leaves state) := by
  unfold leaves
  cases outcome : program state with
  | ok returned final => rfl
  | error raised final =>
      rw [outcome] at returns
      cases returns

/-- Two stores of one block. -/
def firstStore : Job :=
  .ofChunk 0 true [1] [7]

def secondStore : Job :=
  .ofChunk 1 true [1] [8]

/-- The first write is full, and the second one transfers that many bytes. -/
def twoWrites (transferred : Int) : Env 5 :=
  .smooth false fun calls =>
    if calls = 13 then [(1, 1)]
    else if calls = 29 then [(2, transferred)]
    else []

/-- Both stores come in, then a preload of the block, and the thread goes
on. -/
def twoStores (transferred : Int) (steps : Nat) : Machine 5 :=
  (Machine.init (twoWrites transferred)).play (twoWrites transferred)
    (.submit firstStore :: .submit secondStore ::
      .preload ⟨[[1]], "preload", "reader"⟩ ::
        List.replicate steps .advance)

/-- The thread takes the next item in. -/
def takesIn (machine : Machine slotCount) : State slotCount :=
  { machine.state with incoming := machine.state.incoming.tail }

/-- The write of one of the two stores. -/
def wrote (transferred : Int) : StoreCall 5 :=
  .writeComplete 4 3 "" ".tmp-" transferred

/-- When the second write is handled, one store of the block is in flight and
the other one has published it. -/
theorem twoStores_overlap {transferred : Int}
    (known : transferred = 0 ∨ transferred = 1) :
    Overlapping (twoWrites transferred) [1]
      (writeReaped 2 (twoStores transferred 28).state) 1
      [⟨true, true⟩] := by
  have first : Overlapping (twoWrites transferred) [1]
      ((intakeStoreHash (twoWrites transferred) firstStore [1]).leaves
        (takesIn (twoStores transferred 1))) 1 [] := by
    refine Overlapping.first ?_ (eq_ok_of_returns ?_)
    · rcases known with rfl | rfl <;> decide
    · rcases known with rfl | rfl <;> decide
  have between : Overlapping (twoWrites transferred) [1]
      (takesIn (twoStores transferred 2)) 1 [] := by
    apply first.meanwhile
    rcases known with rfl | rfl <;> decide
  have second : Overlapping (twoWrites transferred) [1]
      ((intakeStoreHash (twoWrites transferred) secondStore [1]).leaves
        (takesIn (twoStores transferred 2))) 2 [] := by
    refine between.joined (eq_ok_of_returns ?_)
    rcases known with rfl | rfl <;> decide
  have writing : Overlapping (twoWrites transferred) [1]
      (writeReaped 1 (twoStores transferred 17).state) 2 [] := by
    apply second.meanwhile
    rcases known with rfl | rfl <;> decide
  have ends : EndsIn (twoWrites transferred) ⟨firstStore, 0, by decide⟩
      (wrote 1) ⟨true, true⟩
      (writeReaped 1 (twoStores transferred 17).state)
      (((wrote 1).run (twoWrites transferred)
          ⟨firstStore, 0, by decide⟩).leaves
        (writeReaped 1 (twoStores transferred 17).state)) := by
    refine ⟨eq_ok_of_returns ?_, ?_, none, 0, ?_, rfl⟩
    · rcases known with rfl | rfl <;> decide
    · rcases known with rfl | rfl <;> decide
    · rcases known with rfl | rfl <;> decide
  apply (writing.ended rfl ends).meanwhile
  rcases known with rfl | rfl <;> decide

/-- The handler of the second write. -/
def secondWrite (transferred : Int) : React 5 PUnit :=
  (wrote transferred).run (twoWrites transferred)
    ⟨secondStore, 0, by decide⟩

theorem secondSucceeds_wakesRight :
    WakesRight (twoWrites 1) [1] ([⟨true, true⟩] ++ [⟨true, true⟩])
      (writeReaped 2 (twoStores 1 28).state)
      ((secondWrite 1).leaves (writeReaped 2 (twoStores 1 28).state)) := by
  have ends : EndsIn (twoWrites 1) ⟨secondStore, 0, by decide⟩ (wrote 1)
      ⟨true, true⟩ (writeReaped 2 (twoStores 1 28).state)
      ((secondWrite 1).leaves (writeReaped 2 (twoStores 1 28).state)) :=
    ⟨eq_ok_of_returns (by decide), by decide, none, 0, by decide, rfl⟩
  exact (wakesRight_iff Env.smooth_quiet (twoStores_overlap (Or.inr rfl))
    (by decide) (by decide) rfl ends).mpr (Or.inl rfl)

/-- The first store publishes the block, the second one fails: the preload
parked on them is forgotten. -/
theorem secondFails_forgets :
    Machine.Reachable (twoWrites 0) (twoStores 0 28) ∧
      (twoStores 0 28).phase = .completions [(2, 0)] ∧
      reapCompletion (twoWrites 0) (2, 0) (twoStores 0 28).state =
        secondWrite 0 (writeReaped 2 (twoStores 0 28).state) ∧
      Overlapping (twoWrites 0) [1]
        (writeReaped 2 (twoStores 0 28).state) 1 [⟨true, true⟩] ∧
      EndsIn (twoWrites 0) ⟨secondStore, 0, by decide⟩ (wrote 0)
        ⟨false, false⟩ (writeReaped 2 (twoStores 0 28).state)
        ((secondWrite 0).leaves
          (writeReaped 2 (twoStores 0 28).state)) ∧
      (writeReaped 2 (twoStores 0 28).state).stop = false ∧
      (writeReaped 2 (twoStores 0 28).state).preloadBlockedOnWrite.queue
        [1] ≠ [] ∧
      ¬ WakesRight (twoWrites 0) [1]
        ([⟨true, true⟩] ++ [⟨false, false⟩])
        (writeReaped 2 (twoStores 0 28).state)
        ((secondWrite 0).leaves
          (writeReaped 2 (twoStores 0 28).state)) := by
  refine ⟨Machine.reachable_play _ (by decide), by decide,
    reapCompletion_writing (by decide) 0, twoStores_overlap (Or.inl rfl),
    ?_, by decide, by decide, ?_⟩
  · exact ⟨eq_ok_of_returns (by decide), by decide,
      some (.ioError "io_uring write transferred 0 bytes, expected 1"), 0,
      by decide, rfl⟩
  · rintro ⟨_, woken⟩
    rw [if_pos (by decide)] at woken
    rcases woken with requeued | withdrawn
    · exact absurd requeued.pending (by decide)
    · exact absurd withdrawn.cached (by decide)

end Examples

end PyKvCache.Safety
