import PyKvCache.Reactor.State

/-!
# The file store

`DirectIoFileStore`, call by call.  The checks `queue_read` and `queue_write`
make on their array count as part of the submission.
-/

namespace PyKvCache.Reactor

open PyKvCache.Library.Effect

variable {slotCount : Nat} (env : Env slotCount)

/-- A call that opens a file, for its descriptor. -/
def openFd (call : ExtCall) : React slotCount Int := do
  let state ← get
  external env call
  let fd := env.openedFd state.calls
  modify fun state => state.handOver (.taken fd)
  pure fd

/-- `os.close`. -/
def closeFd (fd : Int) : React slotCount PUnit := do
  modify fun state => state.handOver (.given fd)
  external env (.close fd)

/-- `open_temp_write`: the descriptor and the path of the temporary file.
`makedirs` is called on the directory of its argument. -/
def openTempWrite (finalPath : String) :
    React slotCount (Int × String) := do
  external env (.makedirs finalPath)
  let state ← get
  let tempPath := finalPath ++ ".tmp-" ++ env.tempSuffix state.calls
  let fd ← openFd env (.openFile tempPath)
  pure (fd, tempPath)

/-- `_fsync_dir` of the directory of a path. -/
def fsyncDir (path : String) : React slotCount PUnit := do
  let opened ← attempt (openFd env (.openDirectory path))
  match opened with
  | .error (.fault call .other) => throw (.fault call .other)
  | .error _ => pure ⟨⟩
  | .ok fd =>
      ensuring
        (do
          external env (.fsync fd)
          addEvent env .fsyncDir)
        (closeFd env fd)

/-- `os.unlink`, where a missing file is no error. -/
def unlinkPresent (path : String) : React slotCount PUnit :=
  handling (external env (.unlink path)) fun raised =>
    match raised with
    | .fault _ .fileNotFound => pure ⟨⟩
    | _ => throw raised

/-- `finish_write`: whether this call published the file. -/
def finishWrite (fd : Int) (tempPath finalPath : String) :
    React slotCount Bool := do
  onlyIf env.syncOnStore (do
    external env (.fsync fd)
    addEvent env .fileSync)
  closeFd env fd
  let linked ← attempt (external env (.link tempPath finalPath))
  unlinkPresent env tempPath
  match linked with
  | .error (.fault _ .fileExists) => do
      onlyIf env.syncOnStore (fsyncDir env finalPath)
      pure false
  | .error raised => throw raised
  | .ok _ => do
      onlyIf env.syncOnStore (fsyncDir env finalPath)
      pure true

/-- `os.close`, where an `OSError` is ignored. -/
def closeQuietly (fd : Int) : React slotCount PUnit :=
  handling (closeFd env fd) fun raised =>
    match raised with
    | .fault _ .other => throw raised
    | _ => pure ⟨⟩

/-- `cleanup_temp`. -/
def cleanupTemp (fd : Int) (tempPath : String) : React slotCount PUnit := do
  closeQuietly env fd
  unlinkPresent env tempPath

/-- `_async_close`. -/
def asyncClose (fd : Int) : React slotCount PUnit :=
  if fd < 0 then
    pure ⟨⟩
  else do
    let userData ← newUserData
    let queued ← attempt (external env (.queueClose userData fd))
    match queued with
    | .error _ => closeQuietly env fd
    | .ok _ => do
        modify fun state => state.handOver (.given fd)
        modify fun state =>
          { state with
            inflight := state.inflight.set userData (.closing fd) }

end PyKvCache.Reactor
