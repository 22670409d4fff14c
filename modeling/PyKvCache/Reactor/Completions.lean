import PyKvCache.Reactor.Slots

/-!
# Completions of copies and ring operations

`_drain_cuda_copies` and `_poll_ring_completions`, one copy and one completion
at a time, with the handlers they call.  What the device did to a slot's bytes
is recorded where its completion is reaped.
-/

namespace PyKvCache.Reactor

open PyKvCache.Library PyKvCache.Staging PyKvCache.Transfer
open PyKvCache.Library.Effect

variable {slotCount : Nat} (env : Env slotCount)

/-- The bytes of a slot, as far as they are known from now on. -/
def fillSlot (slot : Fin slotCount) (block : Option BlockHash) :
    React slotCount PUnit :=
  modify fun state => state.fill slot block

/-- `self._data_inflight -= 1`. -/
def dataDone : React slotCount PUnit :=
  modify fun state => { state with dataInflight := state.dataInflight - 1 }

/-- The exit of a store file whose write could not be queued. -/
def failStoreFile (file : FileRef) (exc : Exc) : React slotCount PUnit := do
  fileTerminal env file (some exc)
  releaseStoreInflight env file.hash false

/-- `_on_store_copy_done`. -/
def onStoreCopyDone (file : FileRef) (slot : Fin slotCount) :
    React slotCount PUnit := do
  let finalPath := env.getFileName file.hash
  let opened ← attempt (openTempWrite env finalPath)
  match opened with
  | .error exc => do
      dataDone
      release slot
      failStoreFile env file exc
  | .ok (fd, tempPath) => do
      let userData ← newUserData
      let queued ← attempt (external env (.queueWrite userData fd))
      match queued with
      | .error exc => do
          dataDone
          cleanupTemp env fd tempPath
          release slot
          failStoreFile env file exc
      | .ok _ =>
          modify fun state =>
            { state with
              inflight := state.inflight.set userData
                (.writing file slot fd finalPath tempPath) }

/-- `end_event.query()`. -/
def queryEvent : React slotCount Bool := do
  let state ← get
  external env .queryEvent
  pure (env.finished state.calls)

/-- A member of a fused copy that has finished. -/
def settleMember (copy : LoadCopy slotCount) : React slotCount PUnit := do
  settleLoadSlot env copy
  fileTerminal env copy.file none

/-- One round of `_drain_cuda_copies`. -/
def drainCudaCopy (copy : CopyOp slotCount) : React slotCount PUnit := do
  let finished ← queryEvent env
  if finished then do
    modify fun state =>
      { state with pendingCopies := state.pendingCopies.erase copy }
    external env .elapsedTime
    match copy with
    | .store file slot => do
        -- the copy has left the block of the file in the slot
        fillSlot slot (some file.hash)
        onStoreCopyDone env file slot
    | .load members => members.forM (settleMember env)
  else
    pure ⟨⟩

/-- `_drain_cuda_copies`. -/
def drainCudaCopies : React slotCount PUnit := do
  let state ← get
  state.pendingCopies.forM (drainCudaCopy env)

/-! ## Opens -/

/-- A preload whose file could not be opened and that nobody waits for. -/
def parkMissing (info : PreloadInfo) : React slotCount PUnit := do
  let state ← get
  if state.storeInflight.contains info.blockHash then
    blockOnWrite info
  else
    rememberKnownMissing info

/-- The preload branch of `_on_open_complete` when the open failed. -/
def failPreloadOpen (info : PreloadInfo) (exc : Exc) :
    React slotCount PUnit := do
  preloadInflightRemove info.blockHash
  if env.sharePreload then do
    let failed ← failAllPreloadWaiters env info.blockHash exc
    if failed then pure ⟨⟩ else parkMissing info
  else do
    let waiter ← preloadWaiterPop info.blockHash
    match waiter with
    | some file => fileTerminal env file (some exc)
    | none => parkMissing info

/-- `_on_open_complete`. -/
def onOpenComplete (reader : Reader) (resultFd : Int) :
    React slotCount PUnit := do
  modify fun state => { state with openInflight := state.openInflight - 1 }
  if resultFd < 0 then
    let exc := Exc.osError (-resultFd) "io_uring openat failed"
    match reader with
    | .load file => fileTerminal env file (some exc)
    | .preload info => failPreloadOpen env info exc
  else do
    modify fun state => state.handOver (.taken resultFd)
    match reader with
    | .load file =>
        modify fun state =>
          { state with
            readyFdsLoad := state.readyFdsLoad ++ [(resultFd, file)] }
    | .preload info =>
        modify fun state =>
          { state with
            readyFdsPreload :=
              state.readyFdsPreload ++ [(resultFd, info)] }

/-! ## Reads -/

/-- The size test of a completed transfer. -/
def checkTransferred (what : String) (result : Int) :
    React slotCount PUnit :=
  if result < 0 then
    throw (.osError (-result) s!"io_uring {what} failed")
  else if result ≠ env.ioSize then
    throw (.ioError
      (s!"io_uring {what} transferred {result} bytes, " ++
        s!"expected {env.ioSize}"))
  else
    pure ⟨⟩

/-- `_on_read_complete` of a load file. -/
def onLoadReadComplete (file : FileRef) (slot : Fin slotCount) (fd : Int)
    (result : Int) : React slotCount PUnit :=
  ensuring
    (handling
      (do
        checkTransferred env "read" result
        queueLoadCopy env file (.own slot))
      fun exc => do
        release slot
        fileTerminal env file (some exc))
    (asyncClose env fd)

/-- The `try` block of `_on_preload_read_complete`. -/
def placeOwnedRead (info : PreloadInfo) (slot : Fin slotCount)
    (result : Int) : React slotCount PUnit := do
  checkTransferred env "preload read" result
  let waiter ← preloadWaiterPop info.blockHash
  addEvent env .preloadFileRead
  match waiter with
  | some file => do
      addEvent env .preloadPlaceFromRead
      queueLoadCopy env file (.own slot)
  | none => do
      let state ← get
      if state.stop then
        release slot
      else
        preloadCachePush info.blockHash slot info

/-- The `except` block of `_on_preload_read_complete`: it takes a waiter off
the queue again. -/
def failOwnedRead (info : PreloadInfo) (slot : Fin slotCount) (exc : Exc) :
    React slotCount PUnit := do
  addEvent env .preloadFileRead
  release slot
  let waiter ← preloadWaiterPop info.blockHash
  match waiter with
  | some file => fileTerminal env file (some exc)
  | none => pure ⟨⟩

/-- `_on_preload_read_complete` in multi-copy mode. -/
def onOwnedReadComplete (info : PreloadInfo) (slot : Fin slotCount)
    (fd : Int) (result : Int) : React slotCount PUnit := do
  preloadInflightRemove info.blockHash
  ensuring
    (handling (placeOwnedRead env info slot result)
      (failOwnedRead env info slot))
    (asyncClose env fd)

/-- One waiter of a shared read. -/
def serveOneWaiter (slot : SharedSlot slotCount) : React slotCount Bool := do
  let waiter ← preloadWaiterPop slot.blockHash
  match waiter with
  | none => pure false
  | some file => do
      addEvent env .preloadPlaceFromRead
      claimShared slot
      handling (queueLoadCopy env file (.shared slot)) fun exc => do
        unclaimShared slot
        fileTerminal env file (some exc)
      sharedDecref env file.job.reqId slot.blockHash
      pure true

/-- Register a shared slot under its hash. -/
def sharedCache (slot : SharedSlot slotCount) : React slotCount PUnit := do
  modifyShared slot fun fields => { fields with cached := true }
  modify fun state =>
    { state with
      sharedCached := state.sharedCached.set slot.blockHash slot
      preloadCachedTotal := state.preloadCachedTotal + 1 }

/-- The `try` block of `_on_shared_preload_read_complete`. -/
def placeSharedRead (info : PreloadInfo) (slotIndex : Fin slotCount)
    (result : Int) : React slotCount PUnit := do
  checkTransferred env "preload read" result
  addEvent env .preloadFileRead
  let slot ← newSharedSlot info.blockHash slotIndex
  let state ← get
  loop (serveOneWaiter env slot)
    ((state.preloadWaiters.queue info.blockHash).length + 1)
  let state ← get
  if state.stop then
    maybeReleaseShared env slot
  else if 0 < state.preloadRefcount.count info.blockHash then
    sharedCache slot
  else
    maybeReleaseShared env slot

/-- The `except` block of `_on_shared_preload_read_complete`. -/
def failSharedRead (info : PreloadInfo) (slotIndex : Fin slotCount)
    (exc : Exc) : React slotCount PUnit := do
  addEvent env .preloadFileRead
  let _ ← failAllPreloadWaiters env info.blockHash exc
  release slotIndex

/-- `_on_shared_preload_read_complete`. -/
def onSharedReadComplete (info : PreloadInfo) (slot : Fin slotCount)
    (fd : Int) (result : Int) : React slotCount PUnit := do
  preloadInflightRemove info.blockHash
  ensuring
    (handling (placeSharedRead env info slot result)
      (failSharedRead env info slot))
    (asyncClose env fd)

/-- `_on_read_complete`, with `_on_preload_read_complete`. -/
def onReadComplete (reader : Reader) (slot : Fin slotCount) (fd : Int)
    (result : Int) : React slotCount PUnit :=
  match reader with
  | .load file => onLoadReadComplete env file slot fd result
  | .preload info =>
      if env.sharePreload then
        onSharedReadComplete env info slot fd result
      else
        onOwnedReadComplete env info slot fd result

/-! ## Writes -/

/-- The `try` block of `_on_write_complete`. -/
def publishWrite (file : FileRef) (slot : Fin slotCount) (fd : Int)
    (finalPath tempPath : String) (result : Int) :
    React slotCount PUnit := do
  checkTransferred env "write" result
  let _ ← finishWrite env fd tempPath finalPath
  releaseOrCache env file.hash slot
  fileTerminal env file none
  releaseStoreInflight env file.hash true

/-- The `except` block of `_on_write_complete`. -/
def failWrite (file : FileRef) (slot : Fin slotCount) (fd : Int)
    (tempPath : String) (exc : Exc) : React slotCount PUnit := do
  cleanupTemp env fd tempPath
  release slot
  failStoreFile env file exc

/-- `_on_write_complete`. -/
def onWriteComplete (file : FileRef) (slot : Fin slotCount) (fd : Int)
    (finalPath tempPath : String) (result : Int) :
    React slotCount PUnit :=
  handling (publishWrite env file slot fd finalPath tempPath result)
    (failWrite env file slot fd tempPath)

/-! ## The completion queue -/

/-- The hash of the block a reader wants. -/
def Reader.hash : Reader → BlockHash
  | .load file => file.hash
  | .preload info => info.blockHash

/-- One round of `_poll_ring_completions`. -/
def reapCompletion (completion : Nat × Int) : React slotCount PUnit := do
  let state ← get
  match state.inflight.find? completion.1 with
  | none => pure ⟨⟩
  | some op => do
      modify fun state =>
        { state with inflight := state.inflight.erase completion.1 }
      match op with
      | .reading reader slot fd => do
          dataDone
          -- a full read has filled the slot with the block of the file
          onlyIf (completion.2 = env.ioSize)
            (fillSlot slot (some reader.hash))
          onReadComplete env reader slot fd completion.2
      | .opening reader => onOpenComplete env reader completion.2
      | .writing file slot fd finalPath tempPath => do
          dataDone
          onWriteComplete env file slot fd finalPath tempPath completion.2
      | .closing _ => pure ⟨⟩

/-- `self.ring.poll_all()`. -/
def pollAll : React slotCount (List (Nat × Int)) := do
  let state ← get
  external env .pollAll
  pure (env.completions state.calls)

/-- `_poll_ring_completions`. -/
def pollRingCompletions : React slotCount PUnit := do
  let completions ← pollAll env
  completions.forM (reapCompletion env)

end PyKvCache.Reactor
