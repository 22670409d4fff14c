import PyKvCache.Library.Checked
import PyKvCache.Reactor.Loop

/-!
# Handing a transfer to the reactor

`TransferCoordinator.submit_store` and `submit_load` cut the GPU block ids of
a transfer into one chunk for each file and build the job the reactor works
on.  A transfer without files is finished at once.
-/

namespace PyKvCache.Worker

open PyKvCache.Library PyKvCache.Library.Effect
open PyKvCache.Reactor PyKvCache.Staging PyKvCache.Transfer

/-- `GPULoadStoreSpec`, with the attributes that `getattr` looks for. -/
structure GpuLoadStoreSpec where
  blockIds : Option (List Int)
  groupSizes : Option (List Int)
  blockIndices : Option (List Int)
  deriving DecidableEq

/-- What `transfer_async` may be given as a side of a transfer. -/
inductive LoadStoreSpec where
  | gpu (spec : GpuLoadStoreSpec)
  | sharedStorage (blockHashes : List BlockHash)
  | other
  deriving DecidableEq

/-- The exceptions of `transfer_async`. -/
inductive HandlerError where
  | shutDown
  | notCollected (jobId : Int)
  | unsupportedSpec
  | missingBlockIds
  | severalGroups
  | mapping (error : TransferError)
  deriving DecidableEq

/-- The text of the exception; an unsupported specification is followed by the
two types. -/
def HandlerError.message : HandlerError → String
  | .shutDown => "py-kvcache handler is shut down"
  | .notCollected jobId =>
      s!"job {jobId} is already finished but not collected"
  | .unsupportedSpec => "unsupported transfer spec"
  | .missingBlockIds => "GPU transfer spec is missing block_ids"
  | .severalGroups =>
      "py-kvcache shared-storage offload currently supports exactly one " ++
        "KV cache group"
  | .mapping error => error.message

/-- `block_ids_of`. -/
def blockIdsOf (spec : GpuLoadStoreSpec) :
    Except HandlerError (List Int) :=
  match spec.blockIds with
  | none => throw .missingBlockIds
  | some blockIds => pure blockIds

/-- `first_group_block_index`. -/
def firstGroupBlockIndex (dstSpec : GpuLoadStoreSpec) :
    Except HandlerError Int :=
  if dstSpec.groupSizes.any fun sizes => sizes.length ≠ 1 then
    throw .severalGroups
  else
    match dstSpec.blockIndices with
    | none => pure 0
    | some [index] => pure index
    | some _ => throw .severalGroups

/-! ## The chunks of a transfer -/

theorem length_splitLoop {blocksPerFile : Nat} :
    ∀ (files size : Nat) (blockIds : List Int),
      (splitLoop blocksPerFile files size blockIds).1.length = files := by
  intro files
  induction files with
  | zero =>
      intro size blockIds
      rfl
  | succ files inductionHypothesis =>
      intro size blockIds
      rw [splitLoop, List.length_cons, inductionHypothesis]

/-- The chunks and what is left over are the ids, in order. -/
theorem flatten_splitLoop {blocksPerFile : Nat} :
    ∀ (files size : Nat) (blockIds : List Int),
      (splitLoop blocksPerFile files size blockIds).1.flatten ++
        (splitLoop blocksPerFile files size blockIds).2 = blockIds := by
  intro files
  induction files with
  | zero =>
      intro size blockIds
      rfl
  | succ files inductionHypothesis =>
      intro size blockIds
      have later := inductionHypothesis blocksPerFile (blockIds.drop size)
      rw [splitLoop, List.flatten_cons, List.append_assoc, later,
        List.take_append_drop]

section Split

variable {layout : ParsedKvLayout} {blockIds : List Int} {files : Nat}
variable {firstBlockIndex : Int} {chunks : List (List Int)}
variable
  (split :
    splitBlockIdsForFiles layout blockIds files firstBlockIndex =
      .ok chunks)
include split

/-- There is one chunk for each file. -/
theorem length_of_split : chunks.length = files := by
  rw [splitBlockIdsForFiles] at split
  by_cases none : files = 0
  · rw [if_pos none] at split
    cases split
    exact none.symm
  · rw [if_neg none] at split
    dsimp only at split
    split at split
    next found cut =>
      cases split
      have counted :=
        @length_splitLoop layout.gpuBlocksPerStorageBlock files
          (min blockIds.length
            (layout.gpuBlocksPerStorageBlock -
              firstBlockSkip layout firstBlockIndex)) blockIds
      rw [cut] at counted
      exact counted
    next => cases split

/-- No id is lost or made up by cutting the ids into chunks. -/
theorem flatten_of_split (some : files ≠ 0) :
    chunks.flatten = blockIds := by
  rw [splitBlockIdsForFiles, if_neg some] at split
  dsimp only at split
  split at split
  next found cut =>
    cases split
    have whole :=
      @flatten_splitLoop layout.gpuBlocksPerStorageBlock files
        (min blockIds.length
          (layout.gpuBlocksPerStorageBlock -
            firstBlockSkip layout firstBlockIndex)) blockIds
    rw [cut, List.append_nil] at whole
    exact whole
  next => cases split

end Split

/-! ## Submitting -/

/-- What is behind the future a submission returns: an outcome it holds from
the start, or a job the reactor got. -/
inductive Submission where
  | atOnce (outcome : Outcome)
  | job (job : Job)
  deriving DecidableEq

section Submit

variable (layout : ParsedKvLayout) (oid : Nat) (jobId : Int)
variable (reqId : String)

/-- The `_ReactorJob` of a transfer with files. -/
def makeJob (isStore : Bool) (blockHashes : List BlockHash)
    (nonempty : blockHashes ≠ []) (blockIds : List Int)
    (firstBlockIndex : Int) : Except HandlerError Job :=
  match split :
      splitBlockIdsForFiles layout blockIds blockHashes.length
        firstBlockIndex with
  | .error error => throw (.mapping error)
  | .ok chunks =>
      pure
        { oid := oid
          jobId := jobId
          isStore := isStore
          reqId := reqId
          blockHashes := blockHashes
          blockChunks := chunks
          transferSize := blockHashes.length * layout.storageBlockBytes
          hasComputeEvent := isStore
          chunkEach := length_of_split split
          nonempty := nonempty }

/-- `submit_store`. -/
def submitStore (srcSpec : GpuLoadStoreSpec)
    (blockHashes : List BlockHash) : Except HandlerError Submission :=
  if nonempty : blockHashes ≠ [] then do
    let blockIds ← blockIdsOf srcSpec
    let job ←
      makeJob layout oid jobId reqId true blockHashes nonempty blockIds 0
    pure (.job job)
  else
    pure (.atOnce (.result 0))

/-- `submit_load`. -/
def submitLoad (blockHashes : List BlockHash)
    (dstSpec : GpuLoadStoreSpec) : Except HandlerError Submission :=
  if nonempty : blockHashes ≠ [] then do
    let blockIds ← blockIdsOf dstSpec
    let firstBlockIndex ← firstGroupBlockIndex dstSpec
    let job ←
      makeJob layout oid jobId reqId false blockHashes nonempty blockIds
        firstBlockIndex
    pure (.job job)
  else
    pure (.atOnce (.result 0))

end Submit

section Submitted

variable {layout : ParsedKvLayout} {oid : Nat} {jobId : Int}
variable {reqId : String} {blockHashes : List BlockHash}
variable {spec : GpuLoadStoreSpec} {job : Job}

/-- The job carries exactly the ids of the transfer. -/
theorem flatten_makeJob
    {isStore : Bool} {nonempty : blockHashes ≠ []}
    {blockIds : List Int} {firstBlockIndex : Int}
    (made :
      makeJob layout oid jobId reqId isStore blockHashes nonempty blockIds
        firstBlockIndex = .ok job) :
    job.blockChunks.flatten = blockIds := by
  have files : blockHashes.length ≠ 0 := by
    intro none
    exact nonempty (List.eq_nil_of_length_eq_zero none)
  rw [makeJob] at made
  split at made
  next => cases made
  next chunks split =>
    cases made
    exact flatten_of_split split files

theorem blockIds_of_ok {blockIds : List Int}
    (found : blockIdsOf spec = .ok blockIds) :
    spec.blockIds = some blockIds := by
  rw [blockIdsOf] at found
  split at found
  next => cases found
  next listed =>
    cases found
    exact listed

/-- A job carries the ids of the transfer, and a transfer that is done at once
moved nothing. -/
structure Submission.Carries (submission : Submission)
    (blockIds : List Int) : Prop where
  job : ∀ job, submission = .job job → job.blockChunks.flatten = blockIds
  atOnce : ∀ outcome, submission = .atOnce outcome → outcome = .result 0

theorem carries_job {blockIds : List Int}
    (carried : job.blockChunks.flatten = blockIds) :
    (Submission.job job).Carries blockIds where
  job := by
    intro other same
    cases same
    exact carried
  atOnce := nofun

theorem carries_nothing {blockIds : List Int} :
    (Submission.atOnce (.result 0)).Carries blockIds where
  job := nofun
  atOnce := by
    intro outcome same
    cases same
    rfl

theorem submitStore_carries {submission : Submission}
    (submitted :
      submitStore layout oid jobId reqId spec blockHashes =
        .ok submission) :
    submission.Carries (spec.blockIds.getD []) := by
  rw [submitStore] at submitted
  split at submitted
  next nonempty =>
    obtain ⟨blockIds, found, later⟩ := bind_eq_ok_iff.mp submitted
    obtain ⟨made, built, equal⟩ := bind_eq_ok_iff.mp later
    cases equal
    rw [blockIds_of_ok found, Option.getD_some]
    exact carries_job (flatten_makeJob built)
  next =>
    cases submitted
    exact carries_nothing

theorem submitLoad_carries {submission : Submission}
    (submitted :
      submitLoad layout oid jobId reqId blockHashes spec =
        .ok submission) :
    submission.Carries (spec.blockIds.getD []) := by
  rw [submitLoad] at submitted
  split at submitted
  next nonempty =>
    obtain ⟨blockIds, found, rest⟩ := bind_eq_ok_iff.mp submitted
    obtain ⟨first, _, later⟩ := bind_eq_ok_iff.mp rest
    obtain ⟨made, built, equal⟩ := bind_eq_ok_iff.mp later
    cases equal
    rw [blockIds_of_ok found, Option.getD_some]
    exact carries_job (flatten_makeJob built)
  next =>
    cases submitted
    exact carries_nothing

end Submitted

/-! ## The gate of the reactor -/

/-- What the future of a load holds once the break-even gate declined it. -/
def declinedOutcome (job : Job) : Outcome :=
  .exception (.loadDeclined job.blockChunks.flatten job.reqId)

/-- The reactor resolves a load it declines with the ids it was submitted
with. -/
theorem declineLoad_future {slotCount : Nat}
    (env : Env slotCount) (job : Job) (state : State slotCount) :
    wp (declineLoad env job)
      (fun _ next => (next.jobs job).future = some (declinedOutcome job))
      (fun _ _ => True) state := by
  simp only [declineLoad, addEvent, modifyJob, wp_bind, wp_external,
    wp_modify]
  refine ⟨fun _ => ?_, fun _ _ => trivial⟩
  simp [State.updateJob, declinedOutcome]

end PyKvCache.Worker
