import PyKvCache.Worker.Coordinator

/-!
# The handler the engine talks to

`transfer_async`, `get_finished` and the two calls that hand over what the
break-even gate declined, of `NoopSharedStorageOffloadingHandler`.  The engine
makes these calls from one thread; the futures are resolved by the reactor
thread, at any time.

A future is known by a number.  `transfer_time` is a difference of clock
readings and is left out; the profiler and the logger only report.
-/

namespace PyKvCache.Worker

open PyKvCache.Library
open PyKvCache.Reactor PyKvCache.Transfer

/-- `GPULoadStoreSpec.medium()`. -/
def gpuMedium : String := "GPU"

/-- `SharedStorageLoadStoreSpec.medium()`. -/
def sharedStorageMedium : String := "SHARED_STORAGE"

/-- A value of `_active`. -/
structure ActiveTransfer where
  future : Nat
  transferType : String × String
  deriving DecidableEq

/-- The arguments of `_make_transfer_result`; `error` is the exception whose
`str` is the message. -/
structure TransferResult where
  jobId : Int
  success : Bool
  transferSize : Nat
  transferType : String × String
  error : Option Exc
  deriving DecidableEq

/-- The fields of the handler that the four calls read and write. -/
structure OffloadingHandler where
  active : OrderedDict Int ActiveTransfer
  finished : OrderedDict Int TransferResult
  declinedBlockIds : Finset Int
  declinedReqIds : Finset String
  isShutdown : Bool

namespace OffloadingHandler

/-- `__init__`. -/
def init : OffloadingHandler where
  active := .empty
  finished := .empty
  declinedBlockIds := ∅
  declinedReqIds := ∅
  isShutdown := false

variable (handler : OffloadingHandler)

/-- The submission of `transfer_async`, and the type of the transfer. -/
def submit (layout : ParsedKvLayout) (oid : Nat) (jobId : Int)
    (srcSpec dstSpec : LoadStoreSpec) (reqId : String) :
    Except HandlerError (Submission × (String × String)) :=
  match srcSpec, dstSpec with
  | .gpu srcSpec, .sharedStorage blockHashes => do
      let submission ←
        submitStore layout oid jobId reqId srcSpec blockHashes
      pure (submission, (gpuMedium, sharedStorageMedium))
  | .sharedStorage blockHashes, .gpu dstSpec => do
      let submission ←
        submitLoad layout oid jobId reqId blockHashes dstSpec
      pure (submission, (sharedStorageMedium, gpuMedium))
  | _, _ => throw .unsupportedSpec

/-- `transfer_async`; `future` is the number of the future it creates. -/
def transferAsync (layout : ParsedKvLayout) (future : Nat) (jobId : Int)
    (srcSpec dstSpec : LoadStoreSpec) (reqId : String) :
    Except HandlerError (OffloadingHandler × Submission) :=
  if handler.isShutdown then
    throw .shutDown
  else if handler.active.contains jobId ||
      handler.finished.contains jobId then
    throw (.notCollected jobId)
  else do
    let (submission, transferType) ←
      submit layout future jobId srcSpec dstSpec reqId
    pure
      ({ handler with
          active := handler.active.set jobId ⟨future, transferType⟩ },
        submission)

/-- `_future_to_transfer_result`, for a future that is done. -/
def futureToTransferResult (jobId : Int) (outcome : Outcome)
    (transferType : String × String) : TransferResult × OffloadingHandler :=
  match outcome with
  | .result transferSize =>
      (⟨jobId, true, transferSize, transferType, none⟩, handler)
  | .exception (.loadDeclined blockIds reqId) =>
      (⟨jobId, true, 0, transferType, none⟩,
        { handler with
          declinedBlockIds := handler.declinedBlockIds ∪ blockIds.toFinset
          declinedReqIds :=
            if reqId = "" then handler.declinedReqIds
            else insert reqId handler.declinedReqIds })
  | .exception error =>
      (⟨jobId, false, 0, transferType, some error⟩, handler)

/-- One round of the loop of `get_finished` for a future that is done. -/
def collect (jobId : Int) (entry : ActiveTransfer) (outcome : Outcome) :
    OffloadingHandler :=
  let (result, later) :=
    handler.futureToTransferResult jobId outcome entry.transferType
  { later with
    finished := later.finished.set jobId result
    active := later.active.erase jobId }

/-- The end of `get_finished`. -/
def takeFinished : List TransferResult × OffloadingHandler :=
  (handler.finished.values, { handler with finished := .empty })

/-- `get_declined_block_ids`. -/
def getDeclinedBlockIds : Finset Int × OffloadingHandler :=
  if handler.declinedBlockIds = ∅ then
    (∅, handler)
  else
    (handler.declinedBlockIds, { handler with declinedBlockIds := ∅ })

/-- `get_declined_req_ids`. -/
def getDeclinedReqIds : Finset String × OffloadingHandler :=
  if handler.declinedReqIds = ∅ then
    (∅, handler)
  else
    (handler.declinedReqIds, { handler with declinedReqIds := ∅ })

/-! ## What the calls do -/

section Calls

variable {handler}

/-- The outcome is an exception that stands for a failed transfer. -/
def Failure (outcome : Outcome) : Prop :=
  ∃ error, outcome = .exception error ∧
    ∀ blockIds reqId, error ≠ .loadDeclined blockIds reqId

/-- The result of a future that is done: its job, and a failure exactly for an
exception other than `LoadDeclined`. -/
theorem futureToTransferResult_result
    (jobId : Int) (outcome : Outcome) (transferType : String × String) :
    (handler.futureToTransferResult jobId outcome transferType).1.jobId =
        jobId ∧
      ((handler.futureToTransferResult jobId outcome
          transferType).1.success = false ↔ Failure outcome) := by
  cases outcome with
  | result bytes => simp [futureToTransferResult, Failure]
  | exception error =>
      cases error <;> simp [futureToTransferResult, Failure]

/-- The ids a call surfaces for an outcome. -/
theorem futureToTransferResult_declined
    (jobId : Int) (outcome : Outcome) (transferType : String × String)
    (blockId : Int) :
    blockId ∈ (handler.futureToTransferResult jobId outcome
        transferType).2.declinedBlockIds ↔
      blockId ∈ handler.declinedBlockIds ∨
        ∃ blockIds reqId,
          outcome = .exception (.loadDeclined blockIds reqId) ∧
            blockId ∈ blockIds := by
  cases outcome with
  | result bytes => simp [futureToTransferResult]
  | exception error =>
      cases error <;> simp [futureToTransferResult]

/-- The two tables are left to the loop. -/
theorem futureToTransferResult_tables
    (jobId : Int) (outcome : Outcome) (transferType : String × String) :
    (handler.futureToTransferResult jobId outcome
        transferType).2.active = handler.active ∧
      (handler.futureToTransferResult jobId outcome
        transferType).2.finished = handler.finished := by
  cases outcome with
  | result bytes => exact ⟨rfl, rfl⟩
  | exception error => cases error <;> exact ⟨rfl, rfl⟩

section Collect

variable (jobId : Int) (entry : ActiveTransfer) (outcome : Outcome)

theorem collect_active :
    (handler.collect jobId entry outcome).active =
      handler.active.erase jobId := by
  have tables :=
    @futureToTransferResult_tables handler jobId outcome entry.transferType
  rw [← tables.1]
  rfl

theorem collect_finished :
    (handler.collect jobId entry outcome).finished =
      handler.finished.set jobId
        (handler.futureToTransferResult jobId outcome
          entry.transferType).1 := by
  have tables :=
    @futureToTransferResult_tables handler jobId outcome entry.transferType
  rw [← tables.2]
  rfl

theorem collect_declinedBlockIds :
    (handler.collect jobId entry outcome).declinedBlockIds =
      (handler.futureToTransferResult jobId outcome
        entry.transferType).2.declinedBlockIds :=
  rfl

end Collect

/-- The branch for an empty set answers the same. -/
theorem getDeclinedBlockIds_eq :
    handler.getDeclinedBlockIds =
      (handler.declinedBlockIds,
        { handler with declinedBlockIds := ∅ }) := by
  rw [getDeclinedBlockIds]
  by_cases nothing : handler.declinedBlockIds = ∅
  · rw [if_pos nothing, ← nothing]
  · rw [if_neg nothing]

theorem getDeclinedReqIds_eq :
    handler.getDeclinedReqIds =
      (handler.declinedReqIds, { handler with declinedReqIds := ∅ }) := by
  rw [getDeclinedReqIds]
  by_cases nothing : handler.declinedReqIds = ∅
  · rw [if_pos nothing, ← nothing]
  · rw [if_neg nothing]

/-- The GPU blocks a transfer is about. -/
def gpuBlockIds : LoadStoreSpec → LoadStoreSpec → List Int
  | .gpu spec, .sharedStorage _ => spec.blockIds.getD []
  | .sharedStorage _, .gpu spec => spec.blockIds.getD []
  | _, _ => []

section Transfer

variable {layout : ParsedKvLayout} {future : Nat} {jobId : Int}
variable {srcSpec dstSpec : LoadStoreSpec} {reqId : String}
variable {submission : Submission}

theorem submit_carries {transferType : String × String}
    (submitted :
      submit layout future jobId srcSpec dstSpec reqId =
        .ok (submission, transferType)) :
    submission.Carries (gpuBlockIds srcSpec dstSpec) := by
  rw [submit.eq_def] at submitted
  split at submitted
  next spec hashes =>
    obtain ⟨made, built, equal⟩ := bind_eq_ok_iff.mp submitted
    cases equal
    exact submitStore_carries built
  next hashes spec =>
    obtain ⟨made, built, equal⟩ := bind_eq_ok_iff.mp submitted
    cases equal
    exact submitLoad_carries built
  next => cases submitted

/-- An accepted transfer gets an entry of its own, and nothing else
changes. -/
theorem transferAsync_accepts {next : OffloadingHandler}
    (accepted :
      handler.transferAsync layout future jobId srcSpec dstSpec reqId =
        .ok (next, submission)) :
    handler.active.find? jobId = none ∧
      handler.finished.find? jobId = none ∧
      ∃ transferType,
        next =
            { handler with
              active :=
                handler.active.set jobId ⟨future, transferType⟩ } ∧
          submit layout future jobId srcSpec dstSpec reqId =
            .ok (submission, transferType) := by
  rw [transferAsync] at accepted
  split at accepted
  next => cases accepted
  next =>
    split at accepted
    next => cases accepted
    next unknown =>
      rw [Bool.or_eq_true, not_or, Bool.not_eq_true, Bool.not_eq_true,
        OrderedDict.contains_eq_false_iff,
        OrderedDict.contains_eq_false_iff] at unknown
      obtain ⟨⟨made, transferType⟩, built, equal⟩ :=
        bind_eq_ok_iff.mp accepted
      cases equal
      exact ⟨unknown.1, unknown.2, transferType, rfl, built⟩

end Transfer

end Calls

end OffloadingHandler

end PyKvCache.Worker
