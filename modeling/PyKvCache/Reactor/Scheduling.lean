import PyKvCache.Reactor.Completions

/-!
# Scheduling

`_schedule_work`: load files first, then store files, then preloads while no
load needs the disk.  A `while` loop of the source is a body run with fuel;
the fuel is one more than the loop can need.
-/

namespace PyKvCache.Reactor

open PyKvCache.Library PyKvCache.Staging PyKvCache.Transfer
open PyKvCache.Library.Effect

variable {slotCount : Nat} (env : Env slotCount)

/-! ## Gates -/

/-- `_can_issue_store`. -/
def State.canIssueStore (state : State slotCount) : Bool :=
  state.dataInflight < env.iodepth

/-- `_can_open`. -/
def State.canOpen (state : State slotCount) : Bool :=
  state.openInflight + state.readyFdsLoad.length +
    state.readyFdsPreload.length < env.openLookahead

/-- `op.op_kind in ("open", "read") and op.job is not None`; such a job is
never a store. -/
def RingOp.isLoad : RingOp slotCount → Bool
  | .opening (.load _) => true
  | .reading (.load _) _ _ => true
  | _ => false

/-- An active load whose next file has no copy. -/
def State.wantsRead (state : State slotCount) (job : Job) : Bool :=
  let fields := state.jobs job
  if job.isStore || fields.failed.isSome || fields.futureSet then
    false
  else if inJob : fields.nextFileIndex < job.totalFiles then
    !state.preloadHasCopy env
      (FileRef.hash ⟨job, fields.nextFileIndex, inJob⟩)
  else
    false

/-- `_has_real_load_pressure`. -/
def State.hasRealLoadPressure (state : State slotCount) : Bool :=
  !state.readyFdsLoad.isEmpty ||
    state.inflight.values.any RingOp.isLoad ||
    state.active.any (state.wantsRead env)

/-- `_can_issue_speculative_preload`. -/
def State.canIssueSpeculativePreload (state : State slotCount) : Bool :=
  !state.hasRealLoadPressure env

/-- `_preload_slots_available`. -/
def State.preloadSlotsAvailable (state : State slotCount) : Bool :=
  state.preloadCachedTotal + state.preloadInflightTotal <
    env.maxPreloadSlots

/-! ## Submissions -/

/-- `_submit_open_read`. -/
def submitOpenRead (file : FileRef) : React slotCount PUnit := do
  startFile file.job
  let userData ← newUserData
  let queued ← attempt
    (external env (.queueOpenat userData (env.getFileName file.hash)))
  match queued with
  | .error exc => fileTerminal env file (some exc)
  | .ok _ =>
      modify fun state =>
        { state with
          openInflight := state.openInflight + 1
          inflight :=
            state.inflight.set userData (.opening (.load file)) }

/-- `_submit_open_preload`. -/
def submitOpenPreload (info : PreloadInfo) : React slotCount PUnit := do
  let userData ← newUserData
  let queued ← attempt
    (external env (.queueOpenat userData (env.getFileName info.blockHash)))
  match queued with
  | .error _ => pure ⟨⟩
  | .ok _ => do
      modify fun state => { state with openInflight := state.openInflight + 1 }
      preloadInflightAdd info.blockHash
      modify fun state =>
        { state with
          inflight :=
            state.inflight.set userData (.opening (.preload info)) }

/-- The exit of `_submit_read_from_ready` when the read is not queued. -/
def failReadyRead (reader : Reader) (exc : Exc) : React slotCount PUnit :=
  match reader with
  | .load file => fileTerminal env file (some exc)
  | .preload info => do
      addEvent env .preloadFileRead
      preloadInflightRemove info.blockHash
      if env.sharePreload then do
        let _ ← failAllPreloadWaiters env info.blockHash exc
        pure ⟨⟩
      else do
        let waiter ← preloadWaiterPop info.blockHash
        match waiter with
        | some file => fileTerminal env file (some exc)
        | none => pure ⟨⟩

/-- `_submit_read_from_ready`. -/
def submitReadFromReady (reader : Reader) (fd : Int)
    (slot : Fin slotCount) : React slotCount PUnit := do
  let userData ← newUserData
  let queued ← attempt (external env (.queueRead userData fd))
  match queued with
  | .error exc => do
      asyncClose env fd
      release slot
      failReadyRead env reader exc
  | .ok _ => do
      -- from here on the device writes into the slot
      fillSlot slot none
      modify fun state =>
        { state with
          dataInflight := state.dataInflight + 1
          inflight :=
            state.inflight.set userData (.reading reader slot fd) }

/-! ## Load files -/

/-- `_schedule_cache_hit`. -/
def scheduleCacheHit (file : FileRef)
    (slot : CacheSlot (Fin slotCount)) : React slotCount PUnit := do
  addEvent env .cacheHit
  pinCache slot
  startFile file.job
  handling (queueLoadCopy env file (.cache slot)) fun exc => do
    unpinCache slot
    fileTerminal env file (some exc)

/-- `_schedule_preload_done`. -/
def schedulePreloadDone (file : FileRef) : React slotCount PUnit := do
  let entry ← preloadCachePop file.hash
  match entry with
  -- the caller has seen a cached copy
  | none => pure ⟨⟩
  | some (slot, _) => do
      addEvent env .preloadPlaceFromCache
      startFile file.job
      handling (queueLoadCopy env file (.own slot)) fun exc => do
        release slot
        fileTerminal env file (some exc)

/-- `_schedule_preload_inflight`. -/
def schedulePreloadInflight (file : FileRef) : React slotCount PUnit := do
  addEvent env .preloadWaitForInflight
  startFile file.job
  preloadWaiterAdd file.hash file

/-- `_shared_claim_from_cache`, with the slot it finds. -/
def sharedClaimFromCache (file : FileRef) (slot : SharedSlot slotCount) :
    React slotCount PUnit := do
  addEvent env .preloadPlaceFromCache
  startFile file.job
  claimShared slot
  handling (queueLoadCopy env file (.shared slot)) fun exc => do
    unclaimShared slot
    fileTerminal env file (some exc)
    maybeReleaseShared env slot
  sharedDecref env file.job.reqId file.hash

/-- `_promote_pending_to_shared_read`. -/
def promotePendingToSharedRead (file : FileRef) :
    React slotCount PUnit := do
  let _ ← cancelOnePending file.hash
  submitOpenPreload env (makePreloadInfoForJob file)
  schedulePreloadInflight env file

/-- The load loop of `_schedule_work` in shared mode, for a file that is not
in the staging cache; `false` leaves the loop. -/
def scheduleSharedLoad (file : FileRef) : React slotCount Bool := do
  let state ← get
  match state.sharedCached.find? file.hash with
  | some slot => do
      sharedClaimFromCache env file slot
      pure true
  | none =>
      if state.hasInflightPreload file.hash then do
        schedulePreloadInflight env file
        pure true
      else if 0 < state.preloadPendingCount.count file.hash then
        if state.canOpen env then do
          promotePendingToSharedRead env file
          pure true
        else
          pure false
      else if state.canOpen env then do
        submitOpenRead env file
        sharedDecref env file.job.reqId file.hash
        pure true
      else
        pure false

/-- The load loop of `_schedule_work` in multi-copy mode, for a file that is
not in the staging cache. -/
def scheduleOwnedLoad (file : FileRef) : React slotCount Bool := do
  let state ← get
  if state.hasCachedPreload file.hash then do
    schedulePreloadDone env file
    pure true
  else if state.hasInflightPreload file.hash &&
      state.preloadWaiterRoom file.hash then do
    schedulePreloadInflight env file
    pure true
  else if state.canOpen env then do
    submitOpenRead env file
    let _ ← cancelOnePending file.hash
    pure true
  else
    pure false

/-- `self._staging_cache.get(h)`, when there is a cache. -/
def getCached (hash : BlockHash) :
    React slotCount (Option (CacheSlot (Fin slotCount))) :=
  modifyGet fun state =>
    match state.stagingCache with
    | none => (none, state)
    | some cache =>
        let got := cache.get hash
        (got.1, { state with stagingCache := some got.2 })

/-- One round of the load loop of `_schedule_work`. -/
def scheduleLoadFile (job : Job) : React slotCount Bool := do
  let state ← get
  let fields := state.jobs job
  if fields.failed.isSome then
    pure false
  else if inJob : fields.nextFileIndex < job.totalFiles then do
    let file : FileRef := ⟨job, fields.nextFileIndex, inJob⟩
    let cached ← getCached file.hash
    match cached with
    | some slot => do
        scheduleCacheHit env file slot
        pure true
    | none =>
        if env.sharePreload then
          scheduleSharedLoad env file
        else
          scheduleOwnedLoad env file
  else
    pure false

/-- The load loop of `_schedule_work` for one job. -/
def scheduleLoadJob (job : Job) : React slotCount PUnit :=
  if job.isStore then
    pure ⟨⟩
  else
    loop (scheduleLoadFile env job) (job.totalFiles + 1)

/-! ## Store files -/

/-- `_launch_swap_blocks` for a store. -/
def launchSwapBlocks (job : Job) (mapping : List (Int × Int)) :
    React slotCount PUnit := do
  external env .newEvent
  external env .newEvent
  onlyIf (job.hasComputeEvent = true) (external env .waitEvent)
  external env .record
  onlyIf (mapping ≠ []) (external env .swapBlocksBatch)
  external env .record

/-- `_build_mapping` and the launch in `_schedule_store_copy`. -/
def launchStoreCopy (file : FileRef) (slot : Fin slotCount) :
    React slotCount PUnit :=
  match storeMapping env.layout (slot : Nat) file.chunk with
  | .error error => throw (.mapping error)
  | .ok mapping => launchSwapBlocks env file.job mapping

/-- `_schedule_store_copy`. -/
def scheduleStoreCopy (file : FileRef) (slot : Fin slotCount) :
    React slotCount PUnit := do
  startFile file.job
  let launched ← attempt (launchStoreCopy env file slot)
  match launched with
  | .error exc => do
      release slot
      failStoreFile env file exc
  | .ok _ => do
      -- from here on the copy writes into the slot
      fillSlot slot none
      modify fun state =>
        { state with
          dataInflight := state.dataInflight + 1
          pendingCopies := state.pendingCopies ++ [.store file slot] }

/-- One round of the store loop of `_schedule_work`, with `_schedule_one`. -/
def scheduleStoreFile (job : Job) : React slotCount Bool := do
  let state ← get
  let fields := state.jobs job
  if fields.failed.isSome || !state.canIssueStore env then
    pure false
  else if inJob : fields.nextFileIndex < job.totalFiles then do
    let slot ← reserveForegroundSlot env
    match slot with
    | none => pure false
    | some slot => do
        scheduleStoreCopy env ⟨job, fields.nextFileIndex, inJob⟩ slot
        pure true
  else
    pure false

/-- The store loop of `_schedule_work` for one job. -/
def scheduleStoreJob (job : Job) : React slotCount PUnit :=
  if job.isStore then
    loop (scheduleStoreFile env job) (job.totalFiles + 1)
  else
    pure ⟨⟩

/-! ## Ready descriptors -/

/-- One round of `_drain_ready_load_fds`. -/
def drainReadyLoadFd : React slotCount Bool := do
  let state ← get
  match state.readyFdsLoad with
  | [] => pure false
  | (fd, file) :: later =>
      if state.dataInflight < env.iodepth then do
        let slot ← reserveForegroundSlot env
        match slot with
        | none => pure false
        | some slot => do
            modify fun state => { state with readyFdsLoad := later }
            submitReadFromReady env (.load file) fd slot
            pure true
      else
        pure false

/-- `_drain_ready_load_fds`. -/
def drainReadyLoadFds : React slotCount PUnit := do
  let state ← get
  loop (drainReadyLoadFd env) (state.readyFdsLoad.length + 1)

/-- A ready preload descriptor gives way to a load. -/
def yieldOpenFd (info : PreloadInfo) (fd : Int) : React slotCount PUnit := do
  preloadInflightRemove info.blockHash
  pendingPush info
  addEvent env .preloadYieldOpenFd
  asyncClose env fd

/-- Read the oldest ready preload descriptor into a slot, if there is one. -/
def readReadyPreload (info : PreloadInfo) (fd : Int)
    (later : List (Int × PreloadInfo)) :
    Option (Fin slotCount) → React slotCount Bool
  | none => pure false
  | some slot => do
      modify fun state => { state with readyFdsPreload := later }
      submitReadFromReady env (.preload info) fd slot
      pure true

/-- One round of `_drain_ready_preload_fds`. -/
def drainReadyPreloadFd : React slotCount Bool := do
  let state ← get
  match state.readyFdsPreload with
  | [] => pure false
  | (fd, info) :: later =>
      if state.hasPreloadWaiter info.blockHash then
        if state.dataInflight < env.iodepth then do
          let slot ← reserveForegroundSlot env
          readReadyPreload env info fd later slot
        else
          pure false
      else if state.hasRealLoadPressure env then do
        modify fun state => { state with readyFdsPreload := later }
        yieldOpenFd env info fd
        pure true
      else if state.dataInflight < env.iodepth &&
          state.canIssueSpeculativePreload env then do
        let slot ← reservePreloadSlot env
        readReadyPreload env info fd later slot
      else
        pure false

/-- `_drain_ready_preload_fds`. -/
def drainReadyPreloadFds : React slotCount PUnit := do
  let state ← get
  loop (drainReadyPreloadFd env) (state.readyFdsPreload.length + 1)

/-! ## Pending preloads -/

/-- `self._preload_pending.popleft()`, with the hash no longer counted. -/
def dropFirstPending (hash : BlockHash) : React slotCount PUnit := do
  modify fun state =>
    { state with preloadPending := state.preloadPending.tail }
  pendingDec hash

/-- One round of `_drain_cancelled_pending`. -/
def drainCancelledPending : React slotCount Bool := do
  let state ← get
  match state.preloadPending with
  | [] => pure false
  | info :: _ =>
      if 0 < state.preloadPendingCancel.count info.blockHash then do
        consumePendingCancel info.blockHash
        dropFirstPending info.blockHash
        pure true
      else
        pure false

/-- One round of the preload loop of `_schedule_work`. -/
def speculate : React slotCount Bool := do
  let state ← get
  match state.preloadPending with
  | [] => pure false
  | info :: _ =>
      if state.canOpen env && state.preloadSlotsAvailable env then
        if 0 < state.preloadPendingCancel.count info.blockHash then do
          consumePendingCancel info.blockHash
          dropFirstPending info.blockHash
          pure true
        else if state.storeInflight.contains info.blockHash then do
          dropFirstPending info.blockHash
          blockOnWrite info
          addEvent env .preloadDeferOnWrite
          pure true
        else do
          dropFirstPending info.blockHash
          submitOpenPreload env info
          pure true
      else
        pure false

/-- The preload part of `_schedule_work`. -/
def schedulePreloads : React slotCount PUnit := do
  drainReadyPreloadFds env
  let state ← get
  loop drainCancelledPending (state.preloadPending.length + 1)
  let state ← get
  onlyIf (state.canIssueSpeculativePreload env = true)
    (loop (speculate env) (state.preloadPending.length + 1))

/-- `_schedule_work`. -/
def scheduleWork : React slotCount PUnit := do
  drainReadyLoadFds env
  let state ← get
  state.active.forM (scheduleLoadJob env)
  state.active.forM (scheduleStoreJob env)
  schedulePreloads env

/-- `_schedule_work` up to the preloads. -/
def scheduleJobs : React slotCount PUnit := do
  drainReadyLoadFds env
  let state ← get
  state.active.forM (scheduleLoadJob env)
  state.active.forM (scheduleStoreJob env)

theorem scheduleWork_eq :
    scheduleWork env = (do scheduleJobs env; schedulePreloads env) := by
  simp only [scheduleWork, scheduleJobs, bind_assoc]

/-! ## The rounds of the load loop -/

namespace State

/-- The rounds of the load loop of `_schedule_work`: each with its job and the
state it starts in. -/
def loadRounds (state : State slotCount) : List (Job × State slotCount) :=
  match drainReadyLoadFds env state with
  | .error _ _ => []
  | .ok _ ready =>
      (turns (scheduleLoadJob env) ready.active ready).flatMap fun turn =>
        if turn.1.isStore then
          []
        else
          (rounds (scheduleLoadFile env turn.1) (turn.1.totalFiles + 1)
            turn.2).map fun round => (turn.1, round)

/-- The file a round for a job is about. -/
def nextLoad (state : State slotCount) (job : Job) : Option FileRef :=
  let fields := state.jobs job
  if fields.failed.isSome then
    none
  else if inJob : fields.nextFileIndex < job.totalFiles then
    some ⟨job, fields.nextFileIndex, inJob⟩
  else
    none

/-- A round for this file promotes a pending preload of its hash. -/
def promotes (state : State slotCount) (file : FileRef) : Bool :=
  env.sharePreload && !state.inStagingCache file.hash &&
    !state.sharedCached.contains file.hash &&
    !state.hasInflightPreload file.hash &&
    0 < state.preloadPendingCount.count file.hash && state.canOpen env

/-- An open of the file of a hash, submitted now, is queued. -/
def OpenQueued (state : State slotCount) (hash : BlockHash) : Prop :=
  env.raises (.queueOpenat (state.nextUserData + 1) (env.getFileName hash))
    state.calls = none

instance (state : State slotCount) (hash : BlockHash) :
    Decidable (state.OpenQueued env hash) :=
  inferInstanceAs (Decidable (_ = none))

end State

/-! ## The fused launch -/

/-- A member of a fused copy that was not launched. -/
def failMember (exc : Exc) (copy : LoadCopy slotCount) :
    React slotCount PUnit := do
  settleLoadSlot env copy
  fileTerminal env copy.file (some exc)

/-- The `try` block of `_flush_copy_batch`. -/
def launchFusedCopy : React slotCount PUnit := do
  external env .record
  external env .swapBlocksBatch
  external env .record

/-- `_flush_copy_batch`. -/
def flushCopyBatch : React slotCount PUnit := do
  let state ← get
  let ready := state.copyReady
  let members := ready.map ReadyCopy.copy
  if ready = [] then
    pure ⟨⟩
  else do
    modify fun state => { state with copyReady := [] }
    if (ready.map fun copy => copy.mapping.length).sum = 0 then
      members.forM (settleMember env)
    else do
      external env .newEvent
      external env .newEvent
      let launched ← attempt (launchFusedCopy env)
      match launched with
      | .error exc => members.forM (failMember env exc)
      | .ok _ =>
          modify fun state =>
            { state with
              pendingCopies := state.pendingCopies ++ [.load members] }

end PyKvCache.Reactor
