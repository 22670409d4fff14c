import PyKvCache.Reactor.Types

/-!
# The state of the I/O reactor

The assigned attributes of an `IoReactor`, the mutable parts of the objects it
refers to, and the first helpers over them.

Four fields are not in the source and no branch reads them: `content` is the
block each slot holds, `accepted` the jobs `submit_job` took, `terminals` the
calls of `_file_terminal` so far, and `descriptors` the file descriptors the
reactor got and the closes it issued, in their order.
-/

namespace PyKvCache.Reactor

open PyKvCache.Library PyKvCache.Staging PyKvCache.Transfer
open PyKvCache.Library.Effect

/-- One call of `_file_terminal`: the file, the exception if it failed, and
how many files its job still has in flight. -/
structure Terminal where
  file : FileRef
  error : Option Exc
  othersInflight : Int
  deriving DecidableEq

/-- The reactor, and everything it can reach. -/
structure State (slotCount : Nat) where
  free : List (Fin slotCount)
  incoming : List Item
  active : List Job
  inflight : OrderedDict Nat (RingOp slotCount)
  pendingCopies : List (CopyOp slotCount)
  copyReady : List (ReadyCopy slotCount)
  nextUserData : Nat
  stop : Bool
  closed : Bool
  dataInflight : Int
  openInflight : Int
  readyFdsLoad : List (Int × FileRef)
  readyFdsPreload : List (Int × PreloadInfo)
  preloadRefcount : CountTable BlockHash
  sharedCached : OrderedDict BlockHash (SharedSlot slotCount)
  preloadPending : List PreloadInfo
  preloadPendingCount : CountTable BlockHash
  preloadPendingCancel : CountTable BlockHash
  preloadInflightHashes : CountTable BlockHash
  preloadSlots : QueueTable BlockHash (Fin slotCount × PreloadInfo)
  preloadCachedTotal : Int
  preloadInflightTotal : Int
  preloadOwned : OrderedDict (String × BlockHash) Unit
  preloadWaiters : QueueTable BlockHash FileRef
  storeInflight : CountTable BlockHash
  preloadBlockedOnWrite : QueueTable BlockHash PreloadInfo
  knownMissing : QueueTable BlockHash PreloadInfo
  stagingCache : Option (StagingDataCache (Fin slotCount))
  jobs : Job → JobState
  shared : SharedSlot slotCount → SharedState
  nextShared : Nat
  calls : Nat
  content : Fin slotCount → Option BlockHash
  accepted : List Job
  terminals : List Terminal
  descriptors : List (Handover Int)

/-- A program of the reactor thread. -/
abbrev React (slotCount : Nat) (value : Type) :=
  Effect Exc (State slotCount) value

variable {slotCount : Nat}

/-- The reactor after `__init__`. -/
def State.init (env : Env slotCount) : State slotCount where
  -- `list.pop()` takes the last index first
  free := (List.finRange slotCount).reverse
  incoming := []
  active := []
  inflight := .empty
  pendingCopies := []
  copyReady := []
  nextUserData := 0
  stop := false
  closed := false
  dataInflight := 0
  openInflight := 0
  readyFdsLoad := []
  readyFdsPreload := []
  preloadRefcount := .empty
  sharedCached := .empty
  preloadPending := []
  preloadPendingCount := .empty
  preloadPendingCancel := .empty
  preloadInflightHashes := .empty
  preloadSlots := .empty
  preloadCachedTotal := 0
  preloadInflightTotal := 0
  preloadOwned := .empty
  preloadWaiters := .empty
  storeInflight := .empty
  preloadBlockedOnWrite := .empty
  knownMissing := .empty
  stagingCache :=
    env.cachePolicy.map fun policy => .init policy env.maxPreloadSlots
  jobs := fun _ => .init
  shared := fun _ => ⟨0, false⟩
  nextShared := 0
  calls := 0
  content := fun _ => none
  accepted := []
  terminals := []
  descriptors := []

namespace State

/-- Assign fields of a job. -/
def updateJob (state : State slotCount) (job : Job)
    (change : JobState → JobState) : State slotCount :=
  { state with
    jobs := Function.update state.jobs job (change (state.jobs job)) }

/-- Assign fields of a shared preload slot. -/
def updateShared (state : State slotCount) (slot : SharedSlot slotCount)
    (change : SharedState → SharedState) : State slotCount :=
  { state with
    shared := Function.update state.shared slot (change (state.shared slot)) }

/-- One more call outside the reactor. -/
def tick (state : State slotCount) : State slotCount :=
  { state with calls := state.calls + 1 }

/-- A hash's block, or nothing known, is now what a slot holds. -/
def fill (state : State slotCount) (slot : Fin slotCount)
    (block : Option BlockHash) : State slotCount :=
  { state with content := Function.update state.content slot block }

/-- One more entry about a descriptor. -/
def handOver (state : State slotCount) (entry : Handover Int) :
    State slotCount :=
  { state with descriptors := state.descriptors ++ [entry] }

end State

/-- A call outside the reactor: it counts, and it may raise. -/
def external (env : Env slotCount) (call : ExtCall) :
    React slotCount PUnit :=
  fun state =>
    match env.raises call state.calls with
    | none => .ok ⟨⟩ state.tick
    | some fault => .error (.fault call fault) state.tick

/-- `add_event`. -/
def addEvent (env : Env slotCount) (name : EventName) :
    React slotCount PUnit :=
  external env (.addEvent name)

@[simp]
theorem wp_external {env : Env slotCount} {call : ExtCall}
    {post : PUnit → State slotCount → Prop}
    {fail : Exc → State slotCount → Prop} {state : State slotCount} :
    wp (external env call) post fail state ↔
      (env.raises call state.calls = none → post ⟨⟩ state.tick) ∧
        ∀ fault, env.raises call state.calls = some fault →
          fail (.fault call fault) state.tick := by
  unfold wp external
  cases env.raises call state.calls <;> simp

/-! ## The staging pool -/

/-- `StagingPool.try_reserve`. -/
def tryReserve : React slotCount (Option (Fin slotCount)) :=
  modifyGet fun state =>
    match state.free with
    | [] => (none, state)
    | slot :: free => (some slot, { state with free := free })

/-- `StagingPool.release`. -/
def release (slot : Fin slotCount) : React slotCount PUnit :=
  modify fun state => { state with free := slot :: state.free }

/-! ## Preload tables -/

/-- `_preload_cache_push`. -/
def preloadCachePush (hash : BlockHash) (slot : Fin slotCount)
    (info : PreloadInfo) : React slotCount PUnit :=
  modify fun state =>
    { state with
      preloadSlots := state.preloadSlots.pushBack hash (slot, info)
      preloadCachedTotal := state.preloadCachedTotal + 1 }

/-- `_preload_cache_pop`. -/
def preloadCachePop (hash : BlockHash) :
    React slotCount (Option (Fin slotCount × PreloadInfo)) :=
  modifyGet fun state =>
    match state.preloadSlots.popFront hash with
    | none => (none, state)
    | some (entry, slots) =>
        (some entry,
          { state with
            preloadSlots := slots
            preloadCachedTotal := state.preloadCachedTotal - 1 })

/-- `_has_cached_preload`. -/
def State.hasCachedPreload (state : State slotCount) (hash : BlockHash) :
    Bool :=
  state.preloadSlots.contains hash

/-- `_preload_inflight_add`. -/
def preloadInflightAdd (hash : BlockHash) : React slotCount PUnit :=
  modify fun state =>
    { state with
      preloadInflightHashes := state.preloadInflightHashes.addOne hash
      preloadInflightTotal := state.preloadInflightTotal + 1 }

/-- `_preload_inflight_remove`. -/
def preloadInflightRemove (hash : BlockHash) : React slotCount PUnit :=
  modify fun state =>
    { state with
      preloadInflightHashes := state.preloadInflightHashes.takeOne hash
      preloadInflightTotal :=
        if state.preloadInflightHashes.count hash = 0 then
          state.preloadInflightTotal
        else
          state.preloadInflightTotal - 1 }

/-- `_has_inflight_preload`. -/
def State.hasInflightPreload (state : State slotCount) (hash : BlockHash) :
    Bool :=
  0 < state.preloadInflightHashes.count hash

/-- `_preload_waiter_add`. -/
def preloadWaiterAdd (hash : BlockHash) (file : FileRef) :
    React slotCount PUnit :=
  modify fun state =>
    { state with
      preloadWaiters := state.preloadWaiters.pushBack hash file }

/-- `_preload_waiter_pop`. -/
def preloadWaiterPop (hash : BlockHash) :
    React slotCount (Option FileRef) :=
  modifyGet fun state =>
    match state.preloadWaiters.popFront hash with
    | none => (none, state)
    | some (file, waiters) =>
        (some file, { state with preloadWaiters := waiters })

/-- `_has_preload_waiter`. -/
def State.hasPreloadWaiter (state : State slotCount) (hash : BlockHash) :
    Bool :=
  state.preloadWaiters.contains hash

/-- `_preload_waiter_room`. -/
def State.preloadWaiterRoom (state : State slotCount) (hash : BlockHash) :
    Bool :=
  (state.preloadWaiters.queue hash).length <
    state.preloadInflightHashes.count hash

/-- `_preload_own`. -/
def preloadOwn (reqId : String) (hash : BlockHash) :
    React slotCount Bool :=
  modifyGet fun state =>
    if state.preloadOwned.contains (reqId, hash) then
      (false, state)
    else
      (true,
        { state with
          preloadOwned :=
            (state.preloadOwned.set (reqId, hash) ()).keepNewest
              Env.maxPreloadOwned })

/-- `_pending_push`, and `_requeue_preload_hash`. -/
def pendingPush (info : PreloadInfo) : React slotCount PUnit :=
  modify fun state =>
    { state with
      preloadPending := state.preloadPending ++ [info]
      preloadPendingCount :=
        state.preloadPendingCount.addOne info.blockHash }

/-- `_pending_dec`. -/
def pendingDec (hash : BlockHash) : React slotCount PUnit :=
  modify fun state =>
    { state with
      preloadPendingCount := state.preloadPendingCount.takeOne hash }

/-- `_consume_pending_cancel`. -/
def consumePendingCancel (hash : BlockHash) : React slotCount PUnit :=
  modify fun state =>
    { state with
      preloadPendingCancel := state.preloadPendingCancel.takeOne hash }

/-- `_cancel_one_pending`. -/
def cancelOnePending (hash : BlockHash) : React slotCount Bool :=
  modifyGet fun state =>
    if state.preloadPendingCount.count hash ≤
        state.preloadPendingCancel.count hash then
      (false, state)
    else
      (true,
        { state with
          preloadPendingCancel := state.preloadPendingCancel.addOne hash })

/-- `_has_any_shared_state`. -/
def State.hasAnySharedState (state : State slotCount) (hash : BlockHash) :
    Bool :=
  state.sharedCached.contains hash ||
    0 < state.preloadInflightHashes.count hash ||
    0 < state.preloadPendingCount.count hash ||
    state.preloadBlockedOnWrite.contains hash ||
    state.knownMissing.contains hash

/-- `self._staging_cache is not None and block_hash in self._staging_cache`. -/
def State.inStagingCache (state : State slotCount) (hash : BlockHash) : Bool :=
  state.stagingCache.any fun cache => cache.contains hash

/-- `_preload_has_copy`. -/
def State.preloadHasCopy (env : Env slotCount) (state : State slotCount)
    (hash : BlockHash) : Bool :=
  state.inStagingCache hash || state.hasInflightPreload hash ||
    if env.sharePreload then
      state.sharedCached.contains hash
    else
      state.hasCachedPreload hash

/-- `_remember_known_missing`. -/
def rememberKnownMissing (info : PreloadInfo) : React slotCount PUnit :=
  modify fun state =>
    { state with
      knownMissing :=
        ((state.knownMissing.pushBack info.blockHash info).moveToEnd
          info.blockHash).keepNewest Env.maxKnownMissing }

/-- Park a preload in `_preload_blocked_on_write`. -/
def blockOnWrite (info : PreloadInfo) : React slotCount PUnit :=
  modify fun state =>
    { state with
      preloadBlockedOnWrite :=
        state.preloadBlockedOnWrite.pushBack info.blockHash info }

/-- The ownership pairs of all other hashes. -/
def withoutHash (owned : OrderedDict (String × BlockHash) Unit)
    (hash : BlockHash) : OrderedDict (String × BlockHash) Unit where
  entries := owned.entries.filter fun entry => entry.1.2 ≠ hash
  distinct := owned.distinct.sublist (List.filter_sublist.map _)

/-- `_purge_owned_for_hash`. -/
def purgeOwnedForHash (hash : BlockHash) : React slotCount PUnit :=
  modify fun state =>
    { state with preloadOwned := withoutHash state.preloadOwned hash }

/-- `_new_user_data`. -/
def newUserData : React slotCount Nat :=
  modifyGet fun state =>
    (state.nextUserData + 1,
      { state with nextUserData := state.nextUserData + 1 })

/-- `_make_preload_info_for_job`. -/
def makePreloadInfoForJob (file : FileRef) : PreloadInfo where
  blockHash := file.hash
  preloadId := ""
  reqId := file.job.reqId
  fileIndex := file.index
  totalFiles := file.job.totalFiles

end PyKvCache.Reactor
