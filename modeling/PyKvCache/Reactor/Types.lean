import PyKvCache.Library.Custody
import PyKvCache.Library.Effect
import PyKvCache.Staging.StagingCache
import PyKvCache.Transfer.BlockMapping

/-!
# The data of the I/O reactor

The objects `reactor.py` passes around, the calls it makes outside its own
code, and what the constructor fixes once.

A `_ReactorJob` is split in two: `Job` has the fields nobody assigns after
construction, and `JobState` the ones the reactor updates.  A slot index is a
`Fin slotCount`, so the range check of `StagingPool.release` never fires.
-/

namespace PyKvCache.Reactor

open PyKvCache.Library PyKvCache.Staging PyKvCache.Transfer

/-! ## Calls that leave the reactor -/

/-- The profiler events of the reactor and of its file store. -/
inductive EventName where
  | preloadEvictSlot
  | preloadUnclaimedAtShutdown
  | cacheRetainedAtShutdown
  | declineLoad
  | preloadFileRead
  | preloadPlaceFromRead
  | cacheEvict
  | cacheInsert
  | cacheHit
  | preloadDeferOnWrite
  | preloadWakeAfterWrite
  | preloadYieldOpenFd
  | preloadPlaceFromCache
  | preloadWaitForInflight
  | fileSync
  | fsyncDir
  deriving DecidableEq, Repr

/-- The name `add_event` is called with. -/
def EventName.text : EventName → String
  | .preloadEvictSlot => "py_kvcache.preload.evict_slot"
  | .preloadUnclaimedAtShutdown =>
      "py_kvcache.preload.unclaimed_at_shutdown"
  | .cacheRetainedAtShutdown =>
      "py_kvcache.staging_cache.retained_at_shutdown"
  | .declineLoad => "py_kvcache.break_even.decline_load"
  | .preloadFileRead => "py_kvcache.preload.file_read"
  | .preloadPlaceFromRead => "py_kvcache.preload.place_from_read"
  | .cacheEvict => "py_kvcache.staging_cache.evict"
  | .cacheInsert => "py_kvcache.staging_cache.insert"
  | .cacheHit => "py_kvcache.staging_cache.hit"
  | .preloadDeferOnWrite => "py_kvcache.preload.defer_on_write"
  | .preloadWakeAfterWrite => "py_kvcache.preload.wake_after_write"
  | .preloadYieldOpenFd => "py_kvcache.preload.yield_open_fd"
  | .preloadPlaceFromCache => "py_kvcache.preload.place_from_cache"
  | .preloadWaitForInflight => "py_kvcache.preload.wait_for_inflight"
  | .fileSync => "py_kvcache.file.file_sync"
  | .fsyncDir => "py_kvcache.file.fsync_dir"

/-- A call of the profiler, the ring, the file system or CUDA. -/
inductive ExtCall where
  | addEvent (name : EventName)
  | emitTransferEvents (success : Bool)
  | queueOpenat (userData : Nat) (path : String)
  | queueRead (userData : Nat) (fd : Int)
  | queueWrite (userData : Nat) (fd : Int)
  | queueClose (userData : Nat) (fd : Int)
  | pollAll
  | submitPending
  | makedirs (path : String)
  | openFile (path : String)
  | openDirectory (path : String)
  | fsync (fd : Int)
  | close (fd : Int)
  | link (temp final : String)
  | unlink (temp : String)
  | newEvent
  | waitEvent
  | record
  | swapBlocksBatch
  | queryEvent
  | elapsedTime
  deriving DecidableEq, Repr

/-- The calls of the profiler. -/
def ExtCall.isProfiler : ExtCall → Bool
  | .addEvent _ => true
  | .emitTransferEvents _ => true
  | _ => false

/-- The exceptions of such calls, as far as a handler tells them apart; the
first three are `OSError`s. -/
inductive Fault where
  | fileExists
  | fileNotFound
  | osError
  | other
  deriving DecidableEq, Repr

/-- Every exception that is raised in the reactor or put into a future. -/
inductive Exc where
  | fault (call : ExtCall) (fault : Fault)
  | osError (errno : Int) (text : String)
  | ioError (text : String)
  | mapping (error : TransferError)
  | loadDeclined (blockIds : List Int) (reqId : String)
  | runtimeError (text : String)
  | crashed (cause : Exc)
  deriving DecidableEq, Repr

/-- The text of the `RuntimeError` that `_fail_everything` builds. -/
def crashText : String := "py-kvcache reactor thread crashed"

/-! ## Jobs -/

/-- The part of a `_ReactorJob` that never changes.  `oid` is the identity of
the object; `TransferCoordinator` gives a job one chunk for each hash and
submits none without files. -/
structure Job where
  oid : Nat
  jobId : Int
  isStore : Bool
  reqId : String
  blockHashes : List BlockHash
  blockChunks : List (List Int)
  transferSize : Nat
  hasComputeEvent : Bool
  chunkEach : blockChunks.length = blockHashes.length
  nonempty : blockHashes ≠ []
  deriving DecidableEq

/-- `total_files`. -/
def Job.totalFiles (job : Job) : Nat :=
  job.blockHashes.length

/-- What a future holds once it is resolved. -/
inductive Outcome where
  | result (bytes : Nat)
  | exception (exc : Exc)
  deriving DecidableEq, Repr

/-- The part of a `_ReactorJob` that the reactor updates, and its future. -/
structure JobState where
  nextFileIndex : Nat
  inflightFiles : Int
  doneFiles : Nat
  failed : Option Exc
  futureSet : Bool
  future : Option Outcome
  deriving DecidableEq

/-- A job as `submit_job` receives it. -/
def JobState.init : JobState where
  nextFileIndex := 0
  inflightFiles := 0
  doneFiles := 0
  failed := none
  futureSet := false
  future := none

/-- One file of a job: the pair `(job, file_index)`. -/
structure FileRef where
  job : Job
  index : Nat
  inJob : index < job.totalFiles
  deriving DecidableEq

namespace FileRef

/-- `job.block_hashes[file_index]`. -/
def hash (file : FileRef) : BlockHash :=
  file.job.blockHashes.get ⟨file.index, file.inJob⟩

/-- `job.block_chunks[file_index]`. -/
def chunk (file : FileRef) : List Int :=
  file.job.blockChunks.get ⟨file.index, by
    rw [file.job.chunkEach]
    exact file.inJob⟩

end FileRef

/-! ## Preloads -/

/-- `_PreloadRequest`. -/
structure PreloadRequest where
  blockHashes : List BlockHash
  preloadId : String
  reqId : String
  deriving DecidableEq, Repr

/-- `_PreloadInfo`. -/
structure PreloadInfo where
  blockHash : BlockHash
  preloadId : String
  reqId : String
  fileIndex : Int
  totalFiles : Nat
  deriving DecidableEq, Repr

/-- What `_incoming` carries; `stop` is the `_STOP` marker. -/
inductive Item where
  | job (job : Job)
  | preload (request : PreloadRequest)
  | stop
  deriving DecidableEq

/-! ## Slots, copies and ring operations -/

variable (slotCount : Nat)

/-- The fields of a `_SharedPreloadSlot` that never change; `oid` is the
identity of the object. -/
structure SharedSlot where
  oid : Nat
  blockHash : BlockHash
  slotIndex : Fin slotCount
  deriving DecidableEq, Repr

/-- The fields of a `_SharedPreloadSlot` that the reactor updates. -/
structure SharedState where
  copiesInflight : Int
  cached : Bool
  deriving DecidableEq, Repr

/-- Where a load copy reads from: a slot of its own, a shared preload slot or
a staging-cache entry. -/
inductive Source where
  | own (slot : Fin slotCount)
  | shared (slot : SharedSlot slotCount)
  | cache (slot : CacheSlot (Fin slotCount))
  deriving DecidableEq

/-- A member of a fused copy: `(slot_index, job, file_index, shared, cache)`. -/
structure LoadCopy where
  file : FileRef
  source : Source slotCount
  deriving DecidableEq

/-- `_ReadyCopy`. -/
structure ReadyCopy where
  copy : LoadCopy slotCount
  mapping : List (Int × Int)
  deriving DecidableEq

/-- `_CopyOp`: the copy of one store file, or a fused batch of load copies. -/
inductive CopyOp where
  | store (file : FileRef) (slot : Fin slotCount)
  | load (members : List (LoadCopy slotCount))
  deriving DecidableEq

/-- Who opens or reads a file: a load file, or a preload without a job. -/
inductive Reader where
  | load (file : FileRef)
  | preload (info : PreloadInfo)
  deriving DecidableEq

/-- `_RingOp`, by `op_kind`. -/
inductive RingOp where
  | opening (reader : Reader)
  | reading (reader : Reader) (slot : Fin slotCount) (fd : Int)
  | writing (file : FileRef) (slot : Fin slotCount) (fd : Int)
      (finalPath tempPath : String)
  | closing (fd : Int)
  deriving DecidableEq

variable {slotCount}

/-- `slot_index` of a load copy. -/
def Source.slotIndex : Source slotCount → Fin slotCount
  | .own slot => slot
  | .shared slot => slot.slotIndex
  | .cache slot => slot.slotIndex

/-! ## Settings and surroundings -/

/-- `BreakEvenThresholds`. -/
structure BreakEvenThresholds where
  ssdTokens : Int
  memTokens : Int
  deriving DecidableEq, Repr

namespace BreakEvenThresholds

/-- `enabled`. -/
def enabled (thresholds : BreakEvenThresholds) : Bool :=
  0 < thresholds.ssdTokens || 0 < thresholds.memTokens

/-- `break_even_threshold`. -/
def threshold (thresholds : BreakEvenThresholds) (ramResident : Bool) : Int :=
  if ramResident then thresholds.memTokens else thresholds.ssdTokens

/-- `should_load`. -/
def shouldLoad (thresholds : BreakEvenThresholds) (prefixTokens : Int)
    (ramResident : Bool) : Bool :=
  !(0 < thresholds.threshold ramResident && 0 < prefixTokens &&
    prefixTokens < thresholds.threshold ramResident)

end BreakEvenThresholds

/-- What `IoReactor.__init__` fixes, and the answers of everything outside the
reactor.  The calls are numbered in the order they are made, so an answer can
depend on anything that happened before. -/
structure Env (slotCount : Nat) where
  iodepth : Nat
  openLookahead : Nat
  sharePreload : Bool
  cachePolicy : Option EvictionPolicy
  syncOnStore : Bool
  breakEven : BreakEvenThresholds
  storageBlockTokens : Int
  layout : ParsedKvLayout
  ioSize : Nat
  getFileName : BlockHash → String
  raises : ExtCall → Nat → Option Fault
  finished : Nat → Bool
  completions : Nat → List (Nat × Int)
  openedFd : Nat → Int
  tempSuffix : Nat → String
  iodepth_pos : 0 < iodepth
  openLookahead_pos : 0 < openLookahead
  slotsEnough : iodepth + max 4 (iodepth / 2) ≤ slotCount

namespace Env

variable (env : Env slotCount)

/-- `_max_preload_slots`, and `_max_cache_slots`. -/
def maxPreloadSlots : Nat :=
  slotCount - env.iodepth

/-- `_max_preload_owned`. -/
def maxPreloadOwned : Nat := 16384

/-- `_max_known_missing`. -/
def maxKnownMissing : Nat := 4096

/-- No call of the profiler raises. -/
def Quiet : Prop :=
  ∀ call number, call.isProfiler = true → env.raises call number = none

/-- The transfer events of a job that ends are emitted without raising. -/
def Emits : Prop :=
  ∀ success number, env.raises (.emitTransferEvents success) number = none

variable {env}

theorem Quiet.emits (quiet : env.Quiet) : env.Emits :=
  fun _ _ => quiet _ _ rfl

end Env

end PyKvCache.Reactor
