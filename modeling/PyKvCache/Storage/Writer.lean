import PyKvCache.Storage.FileSystem
import PyKvCache.Reactor.Completions

/-!
# A store, call by call

`DirectIoFileStore` and the part of the reactor that stores one block, as
routines that stop at every system call.  Alone, they are the programs of the
reactor.
-/

namespace PyKvCache.Storage

open PyKvCache.Library PyKvCache.Reactor
open PyKvCache.Library.Routine (invoke attempt handling ensuring onlyIf)

/-- A program of a writer. -/
abbrev Program (value : Type) := Routine WriterCall Exc Int value

/-- A system call, for its answer. -/
def call (request : ExtCall) : Program Int :=
  invoke (.sys request)

/-- A system call. -/
def act (request : ExtCall) : Program PUnit := do
  let _ ← call request
  pure ⟨⟩

/-- `open_temp_write`. -/
def openTempWrite (tempPath finalPath : String) : Program Int := do
  act (.makedirs finalPath)
  call (.openFile tempPath)

/-- `_fsync_dir` of the directory of a path. -/
def fsyncDir (path : String) : Program PUnit := do
  let opened ← attempt (call (.openDirectory path))
  match opened with
  | .error (.fault request .other) => .raise (.fault request .other)
  | .error _ => pure ⟨⟩
  | .ok fd =>
      ensuring
        (do
          act (.fsync fd)
          act (.addEvent .fsyncDir))
        (act (.close fd))

/-- `os.unlink`, where a missing file is no error. -/
def unlinkPresent (path : String) : Program PUnit :=
  handling (act (.unlink path)) fun raised =>
    match raised with
    | .fault _ .fileNotFound => pure ⟨⟩
    | _ => .raise raised

/-- `finish_write`: whether this call published the file. -/
def finishWrite (syncOnStore : Bool) (fd : Int)
    (tempPath finalPath : String) : Program Bool := do
  onlyIf syncOnStore (do
    act (.fsync fd)
    act (.addEvent .fileSync))
  act (.close fd)
  let linked ← attempt (act (.link tempPath finalPath))
  unlinkPresent tempPath
  match linked with
  | .error (.fault _ .fileExists) => do
      onlyIf syncOnStore (fsyncDir finalPath)
      pure false
  | .error raised => .raise raised
  | .ok _ => do
      onlyIf syncOnStore (fsyncDir finalPath)
      pure true

/-- `os.close`, where an `OSError` is ignored. -/
def closeQuietly (fd : Int) : Program PUnit :=
  handling (act (.close fd)) fun raised =>
    match raised with
    | .fault _ .other => .raise raised
    | _ => pure ⟨⟩

/-- `cleanup_temp`. -/
def cleanupTemp (fd : Int) (tempPath : String) : Program PUnit := do
  closeQuietly fd
  unlinkPresent tempPath

/-- The size test of `_on_write_complete`. -/
def checkTransferred (ioSize : Nat) (result : Int) : Program PUnit :=
  if result < 0 then
    .raise (.osError (-result) "io_uring write failed")
  else if result ≠ ioSize then
    .raise (.ioError
      (s!"io_uring write transferred {result} bytes, " ++
        s!"expected {ioSize}"))
  else
    pure ⟨⟩

/-! ## The writers -/

/-- The store jobs of all processes, one writer for each file: what it is to
store and where, how its process is configured, and whether its block goes to
the staging cache.  Names of temporary files are unique. -/
structure Writers (writer : Type) where
  syncOnStore : writer → Bool
  ioSize : writer → Nat
  block : writer → List UInt8
  whole : ∀ writer, (block writer).length = ioSize writer
  finalPath : writer → String
  tempPath : writer → String
  unique : ∀ first second, tempPath first = tempPath second → first = second
  apart : ∀ first second, tempPath first ≠ finalPath second
  userData : writer → Nat
  caches : writer → Bool

variable {writer : Type} (writers : Writers writer)

namespace Writers

/-- The `try` block of `_on_write_complete`: the file is reported as stored
when it returns. -/
def publishWrite (owner : writer) (fd result : Int) : Program PUnit := do
  checkTransferred (writers.ioSize owner) result
  let _ ← finishWrite (writers.syncOnStore owner) fd (writers.tempPath owner)
    (writers.finalPath owner)
  onlyIf (writers.caches owner) (act (.addEvent .cacheInsert))

/-- `_on_store_copy_done`, and `_on_write_complete` once the write is done:
whether the file is reported as stored. -/
def storeFile (owner : writer) : Program Bool := do
  let opened ← attempt (openTempWrite (writers.tempPath owner)
    (writers.finalPath owner))
  match opened with
  | .error _ => pure false
  | .ok fd => do
      let queued ← attempt (act (.queueWrite (writers.userData owner) fd))
      match queued with
      | .error _ => do
          cleanupTemp fd (writers.tempPath owner)
          pure false
      | .ok _ => do
          let result ← invoke (.written fd)
          let published ← attempt (writers.publishWrite owner fd result)
          match published with
          | .ok _ => pure true
          | .error _ => do
              cleanupTemp fd (writers.tempPath owner)
              pure false

end Writers

/-! ## A writer alone -/

section Alone

open PyKvCache.Library.Routine (perform)

variable {slotCount : Nat} (env : Env slotCount)

/-- A call as the reactor makes it.  The reactor reaps the completion of a
write elsewhere. -/
def reactorAnswer (request : WriterCall) : React slotCount Int :=
  match request with
  | .sys (.openFile path) => openFd env (.openFile path)
  | .sys (.openDirectory path) => openFd env (.openDirectory path)
  | .sys (.close fd) => do
      closeFd env fd
      pure 0
  | .sys request => do
      external env request
      pure 0
  | .written _ => pure 0

/-- The calls that open or close a descriptor. -/
def movesFd : ExtCall → Bool
  | .openFile _ => true
  | .openDirectory _ => true
  | .close _ => true
  | _ => false

theorem perform_openFile (path : String) :
    perform (reactorAnswer env) (call (.openFile path)) =
      openFd env (.openFile path) :=
  Routine.perform_invoke _

theorem perform_openDirectory (path : String) :
    perform (reactorAnswer env) (call (.openDirectory path)) =
      openFd env (.openDirectory path) :=
  Routine.perform_invoke _

theorem perform_close (fd : Int) :
    perform (reactorAnswer env) (act (.close fd)) = closeFd env fd := by
  funext state
  unfold act call
  rw [Routine.perform_bind, Routine.perform_invoke]
  simp only [reactorAnswer, bind, EStateM.bind]
  cases closeFd env fd state <;> rfl

/-- Any other call. -/
theorem perform_act {request : ExtCall} (plain : movesFd request = false) :
    perform (reactorAnswer env) (act request) = external env request := by
  have answered : reactorAnswer env (.sys request) =
      (external env request >>= fun _ => pure 0) := by
    cases request <;> first | rfl | cases plain
  funext state
  unfold act call
  rw [Routine.perform_bind, Routine.perform_invoke, answered]
  simp only [bind, EStateM.bind]
  cases external env request state <;> rfl

/-- `open_temp_write` of the reactor. -/
theorem perform_openTempWrite (finalPath : String)
    (state : State slotCount) :
    let tempPath := finalPath ++ ".tmp-" ++ env.tempSuffix (state.calls + 1)
    (perform (reactorAnswer env) (openTempWrite tempPath finalPath) >>=
      fun fd => pure (fd, tempPath)) state =
      Reactor.openTempWrite env finalPath state := by
  intro tempPath
  unfold openTempWrite Reactor.openTempWrite
  rw [Routine.perform_bind, perform_act env rfl, perform_openFile]
  simp only [bind, EStateM.bind, external]
  cases raised : env.raises (.makedirs finalPath) state.calls with
  | some fault => rfl
  | none => rfl

theorem perform_unlinkPresent (path : String) :
    perform (reactorAnswer env) (unlinkPresent path) =
      Reactor.unlinkPresent env path := by
  unfold unlinkPresent Reactor.unlinkPresent
  rw [Routine.perform_handling, perform_act env rfl]
  congr 1
  funext raised
  cases raised with
  | fault request fault => cases fault <;> rfl
  | _ => rfl

theorem perform_closeQuietly (fd : Int) :
    perform (reactorAnswer env) (closeQuietly fd) =
      Reactor.closeQuietly env fd := by
  unfold closeQuietly Reactor.closeQuietly
  rw [Routine.perform_handling, perform_close]
  congr 1
  funext raised
  cases raised with
  | fault request fault => cases fault <;> rfl
  | _ => rfl

theorem perform_fsyncDir (path : String) :
    perform (reactorAnswer env) (fsyncDir path) =
      Reactor.fsyncDir env path := by
  unfold fsyncDir Reactor.fsyncDir
  rw [Routine.perform_bind, Routine.perform_attempt, perform_openDirectory]
  refine congrArg _ (funext fun opened => ?_)
  cases opened with
  | error raised =>
      cases raised with
      | fault request fault => cases fault <;> rfl
      | _ => rfl
  | ok fd =>
      rw [Routine.perform_ensuring, Routine.perform_bind,
        perform_act env rfl, perform_act env rfl, perform_close]
      rfl

/-- `finish_write` of the reactor. -/
theorem perform_finishWrite (fd : Int) (tempPath finalPath : String) :
    perform (reactorAnswer env)
        (finishWrite env.syncOnStore fd tempPath finalPath) =
      Reactor.finishWrite env fd tempPath finalPath := by
  unfold finishWrite Reactor.finishWrite
  simp only [Routine.perform_bind, Routine.perform_onlyIf,
    Routine.perform_attempt, perform_unlinkPresent, perform_close,
    perform_act env (rfl : movesFd (.fsync fd) = false),
    perform_act env (rfl : movesFd (.addEvent .fileSync) = false),
    perform_act env (rfl : movesFd (.link tempPath finalPath) = false)]
  refine congrArg _ (funext fun _ => congrArg _ (funext fun _ =>
    congrArg _ (funext fun linked => congrArg _ (funext fun _ => ?_))))
  have published : ∀ result : Bool,
      perform (reactorAnswer env) (Routine.onlyIf (env.syncOnStore = true)
          (fsyncDir finalPath) >>= fun _ => pure result) =
        (Effect.onlyIf (env.syncOnStore = true)
          (Reactor.fsyncDir env finalPath) >>= fun _ => pure result) := by
    intro result
    rw [Routine.perform_bind, Routine.perform_onlyIf, perform_fsyncDir]
    rfl
  cases linked with
  | error raised =>
      cases raised with
      | fault request fault =>
          cases fault with
          | fileExists => exact published false
          | _ => rfl
      | _ => rfl
  | ok returned => exact published true

/-- `cleanup_temp` of the reactor. -/
theorem perform_cleanupTemp (fd : Int) (tempPath : String) :
    perform (reactorAnswer env) (cleanupTemp fd tempPath) =
      Reactor.cleanupTemp env fd tempPath := by
  unfold cleanupTemp Reactor.cleanupTemp
  simp only [Routine.perform_bind, perform_closeQuietly,
    perform_unlinkPresent]

/-- The size test of the reactor. -/
theorem perform_checkTransferred (result : Int) :
    perform (reactorAnswer env) (checkTransferred env.ioSize result) =
      Reactor.checkTransferred env "write" result := by
  unfold checkTransferred Reactor.checkTransferred
  split
  · rfl
  · split <;> rfl

end Alone

end PyKvCache.Storage
