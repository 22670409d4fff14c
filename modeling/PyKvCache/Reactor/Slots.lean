import PyKvCache.Reactor.FileStore

/-!
# Files, slots and copies changing hands

The helpers that end a file, give a slot back, claim a shared preload slot,
reserve a slot under pressure, and put a load copy on the ready list.
-/

namespace PyKvCache.Reactor

open PyKvCache.Library PyKvCache.Staging PyKvCache.Transfer
open PyKvCache.Library.Effect

variable {slotCount : Nat} (env : Env slotCount)

/-! ## The end of a file -/

/-- Assign fields of a job. -/
def modifyJob (job : Job) (change : JobState → JobState) :
    React slotCount PUnit :=
  modify fun state => state.updateJob job change

/-- `job.next_file_index += 1; job.inflight_files += 1`. -/
def startFile (job : Job) : React slotCount PUnit :=
  modifyJob job fun fields =>
    { fields with
      nextFileIndex := fields.nextFileIndex + 1
      inflightFiles := fields.inflightFiles + 1 }

/-- The record of one `_file_terminal`. -/
def State.recordTerminal (state : State slotCount) (file : FileRef)
    (error : Option Exc) : State slotCount :=
  { state with
    terminals := state.terminals ++
      [⟨file, error, (state.jobs file.job).inflightFiles - 1⟩] }

/-- The counters of a job when one of its files ends. -/
def JobState.counted (fields : JobState) (ok : Bool) : JobState :=
  { fields with
    inflightFiles := fields.inflightFiles - 1
    doneFiles := if ok then fields.doneFiles + 1 else fields.doneFiles }

/-- `_file_terminal`; `error` is its `exc`, and `none` is `ok=True`. -/
def fileTerminal (file : FileRef) (error : Option Exc) :
    React slotCount PUnit := do
  modify fun state => state.recordTerminal file error
  modifyJob file.job fun fields => fields.counted error.isNone
  let state ← get
  let fields := state.jobs file.job
  if fields.futureSet then
    pure ⟨⟩
  else
    match error with
    | some exc => do
        modifyJob file.job fun fields =>
          { fields with failed := some exc, futureSet := true }
        external env (.emitTransferEvents false)
        modifyJob file.job fun fields =>
          { fields with future := some (.exception exc) }
    | none =>
        if fields.doneFiles = file.job.totalFiles then do
          modifyJob file.job fun fields => { fields with futureSet := true }
          external env (.emitTransferEvents true)
          modifyJob file.job fun fields =>
            { fields with future := some (.result file.job.transferSize) }
        else
          pure ⟨⟩

/-- The test of `_finish_jobs`. -/
def JobState.finished (fields : JobState) (job : Job) : Bool :=
  fields.inflightFiles = 0 &&
    (job.totalFiles ≤ fields.nextFileIndex || fields.failed.isSome) &&
    fields.futureSet

/-- `_finish_jobs`. -/
def finishJobs : React slotCount PUnit :=
  modify fun state =>
    { state with
      active := state.active.filter fun job =>
        !(state.jobs job).finished job }

/-- One round of `_fail_all_preload_waiters`. -/
def failOnePreloadWaiter (hash : BlockHash) (exc : Exc) :
    React slotCount Bool := do
  let waiter ← preloadWaiterPop hash
  match waiter with
  | none => pure false
  | some file => do
      fileTerminal env file (some exc)
      pure true

/-- `_fail_all_preload_waiters`. -/
def failAllPreloadWaiters (hash : BlockHash) (exc : Exc) :
    React slotCount Bool := do
  let state ← get
  let waiting := (state.preloadWaiters.queue hash).length
  loop (failOnePreloadWaiter env hash exc) (waiting + 1)
  pure (0 < waiting)

/-! ## Giving a slot back -/

/-- `_release_or_cache`. -/
def releaseOrCache (hash : BlockHash) (slot : Fin slotCount) :
    React slotCount PUnit := do
  let state ← get
  match state.stagingCache with
  | none => release slot
  | some cache => do
      let put := cache.put hash slot
      modify fun state => { state with stagingCache := some put.2 }
      put.1.toList.forM release
      onlyIf (put.1 ≠ some slot) (addEvent env .cacheInsert)

/-- Assign fields of a shared preload slot. -/
def modifyShared (slot : SharedSlot slotCount)
    (change : SharedState → SharedState) : React slotCount PUnit :=
  modify fun state => state.updateShared slot change

/-- A new `_SharedPreloadSlot` with `cached=False`. -/
def newSharedSlot (hash : BlockHash) (slotIndex : Fin slotCount) :
    React slotCount (SharedSlot slotCount) :=
  modifyGet fun state =>
    let slot : SharedSlot slotCount := ⟨state.nextShared, hash, slotIndex⟩
    (slot,
      { state with
        nextShared := state.nextShared + 1
        shared := Function.update state.shared slot ⟨0, false⟩ })

/-- `slot.copies_inflight += 1`. -/
def claimShared (slot : SharedSlot slotCount) : React slotCount PUnit :=
  modifyShared slot fun fields =>
    { fields with copiesInflight := fields.copiesInflight + 1 }

/-- `slot.copies_inflight -= 1`. -/
def unclaimShared (slot : SharedSlot slotCount) : React slotCount PUnit :=
  modifyShared slot fun fields =>
    { fields with copiesInflight := fields.copiesInflight - 1 }

/-- `_shared_uncache`. -/
def sharedUncache (slot : SharedSlot slotCount) : React slotCount PUnit := do
  modify fun state =>
    if state.sharedCached.find? slot.blockHash = some slot then
      { state with
        sharedCached := state.sharedCached.erase slot.blockHash
        preloadCachedTotal := state.preloadCachedTotal - 1 }
    else
      state
  modifyShared slot fun fields => { fields with cached := false }

/-- `_maybe_release_shared`. -/
def maybeReleaseShared (slot : SharedSlot slotCount) :
    React slotCount PUnit := do
  let state ← get
  let fields := state.shared slot
  if fields.cached ∨ 0 < fields.copiesInflight then
    pure ⟨⟩
  else
    releaseOrCache env slot.blockHash slot.slotIndex

/-- `_shared_decref`. -/
def sharedDecref (reqId : String) (hash : BlockHash) :
    React slotCount PUnit := do
  let state ← get
  if state.preloadOwned.contains (reqId, hash) then do
    modify fun state =>
      { state with
        preloadOwned := state.preloadOwned.erase (reqId, hash)
        preloadRefcount := state.preloadRefcount.takeOne hash }
    if 1 < state.preloadRefcount.count hash then
      pure ⟨⟩
    else
      match state.sharedCached.find? hash with
      | none => pure ⟨⟩
      | some slot => do
          sharedUncache slot
          maybeReleaseShared env slot
  else
    pure ⟨⟩

/-- `self._staging_cache.pin(slot)`. -/
def pinCache (slot : CacheSlot (Fin slotCount)) : React slotCount PUnit :=
  modify fun state =>
    { state with stagingCache := state.stagingCache.map (·.pin slot) }

/-- `self._staging_cache.unpin(slot)`. -/
def unpinCache (slot : CacheSlot (Fin slotCount)) : React slotCount PUnit :=
  modify fun state =>
    { state with stagingCache := state.stagingCache.map (·.unpin slot) }

/-- `_settle_load_slot`. -/
def settleLoadSlot (copy : LoadCopy slotCount) : React slotCount PUnit :=
  match copy.source with
  | .cache slot => unpinCache slot
  | .own slot => releaseOrCache env copy.file.hash slot
  | .shared slot => do
      unclaimShared slot
      maybeReleaseShared env slot

/-! ## Reserving a slot -/

/-- `_evict_one_shared_slot`. -/
def evictOneSharedSlot : React slotCount Bool := do
  let state ← get
  match state.sharedCached.entries.find? fun entry =>
      (state.shared entry.2).copiesInflight ≤ 0 with
  | none => pure false
  | some (hash, slot) => do
      sharedUncache slot
      modify fun state =>
        { state with preloadRefcount := state.preloadRefcount.erase hash }
      purgeOwnedForHash hash
      addEvent env .preloadEvictSlot
      release slot.slotIndex
      pure true

/-- The multi-copy branch of `_evict_one_preload_slot`. -/
def evictOneOwnedSlot : React slotCount Bool := do
  let state ← get
  match state.preloadSlots.oldest with
  | none => pure false
  | some hash => do
      let entry ← preloadCachePop hash
      match entry with
      -- a key of the table has a slot
      | none => pure false
      | some (slot, _) => do
          addEvent env .preloadEvictSlot
          release slot
          pure true

/-- `_evict_one_preload_slot`. -/
def evictOnePreloadSlot : React slotCount Bool :=
  if env.sharePreload then
    evictOneSharedSlot env
  else
    evictOneOwnedSlot env

/-- `_evict_one_cache_slot`. -/
def evictOneCacheSlot : React slotCount Bool := do
  let state ← get
  match state.stagingCache.bind StagingDataCache.evictOne with
  | none => pure false
  | some (slot, cache) => do
      modify fun state => { state with stagingCache := some cache }
      release slot
      addEvent env .cacheEvict
      pure true

/-- `if slot is None and evict(): slot = try_reserve()`. -/
def reserveAfter (evict : React slotCount Bool) :
    Option (Fin slotCount) → React slotCount (Option (Fin slotCount))
  | some slot => pure (some slot)
  | none => do
      let evicted ← evict
      if evicted then tryReserve else pure none

/-- `_reserve_preload_slot`. -/
def reservePreloadSlot : React slotCount (Option (Fin slotCount)) := do
  let slot ← tryReserve
  reserveAfter (evictOneCacheSlot env) slot

/-- `_reserve_foreground_slot`. -/
def reserveForegroundSlot : React slotCount (Option (Fin slotCount)) := do
  let slot ← tryReserve
  let slot ← reserveAfter (evictOneCacheSlot env) slot
  reserveAfter (evictOnePreloadSlot env) slot

/-! ## Load copies -/

/-- `_queue_load_copy`. -/
def queueLoadCopy (file : FileRef) (source : Source slotCount) :
    React slotCount PUnit :=
  match loadMapping env.layout source.slotIndex file.chunk with
  | .error error => throw (.mapping error)
  | .ok mapping =>
      modify fun state =>
        { state with
          copyReady := state.copyReady ++ [⟨⟨file, source⟩, mapping⟩] }

/-- `_release_store_inflight`. -/
def releaseStoreInflight (hash : BlockHash) (ok : Bool) :
    React slotCount PUnit := do
  let state ← get
  modify fun state =>
    { state with storeInflight := state.storeInflight.takeOne hash }
  if 1 < state.storeInflight.count hash then
    pure ⟨⟩
  else do
    let blocked := state.preloadBlockedOnWrite.queue hash
    modify fun state =>
      { state with
        preloadBlockedOnWrite := state.preloadBlockedOnWrite.erase hash }
    match blocked with
    | [] => pure ⟨⟩
    | first :: _ =>
        if !ok || state.stop then
          pure ⟨⟩
        else if state.inStagingCache hash then
          onlyIf env.sharePreload (do
            purgeOwnedForHash hash
            modify fun state =>
              { state with
                preloadRefcount := state.preloadRefcount.erase hash })
        else do
          if env.sharePreload then
            pendingPush first
          else
            blocked.forM pendingPush
          addEvent env .preloadWakeAfterWrite

end PyKvCache.Reactor
