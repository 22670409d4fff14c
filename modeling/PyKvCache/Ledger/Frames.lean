import PyKvCache.Ledger.Helpers
import PyKvCache.Reactor.Loop

/-!
# What the handlers leave alone

Most handlers touch only a few of the fields a condition may depend on, and
these only by starting or ending a file, by queueing an open or by adding a
copy.  So a condition that those keep is kept by all of them, on the normal
and on the exceptional exit; and one that does not depend on descriptors is
kept by the handlers that pass these on, too.
-/

namespace PyKvCache.Ledger

open PyKvCache.Library PyKvCache.Staging PyKvCache.Transfer
open PyKvCache.Reactor PyKvCache.Library.Effect

variable {slotCount : Nat} {env : Env slotCount}
  {kept : State slotCount → Prop}

/-- The fields the handlers below do not touch themselves. -/
def frame (state : State slotCount) :=
  (state.jobs, state.active, state.incoming, state.accepted,
    state.inflight, state.nextUserData, state.readyFdsLoad,
    state.readyFdsPreload, state.descriptors, state.copyReady,
    state.pendingCopies, state.terminals, state.closed, state.stop)

private theorem frame_owned (state : State slotCount)
    (owned : OrderedDict (String × BlockHash) Unit) :
    frame { state with preloadOwned := owned } = frame state := rfl

/-- A ready copy has the mapping of its file to its slot. -/
def Mapped (env : Env slotCount) (ready : ReadyCopy slotCount) : Prop :=
  loadMapping env.layout ready.copy.source.slotIndex
    ready.copy.file.chunk = .ok ready.mapping

/-- A write in the ring publishes its file under the name of the file's
block. -/
def Named (env : Env slotCount) : RingOp slotCount → Prop
  | .writing file _ _ finalPath _ => finalPath = env.getFileName file.hash
  | _ => True

/-- A condition on those fields that the starts and failures of files, the
opens and further copies keep. -/
structure Framed (env : Env slotCount) (kept : State slotCount → Prop) :
    Prop where
  same : ∀ state next, frame next = frame state → kept state → kept next
  starts : ∀ job, Keeps kept (startFile job : React slotCount _)
  fails : ∀ file exc, Keeps kept (fileTerminal env file (some exc))
  opensLoad : ∀ file, Keeps kept (submitOpenRead env file)
  opensPreload : ∀ info, Keeps kept (submitOpenPreload env info)
  readied : ∀ state copy, Mapped env copy → kept state →
    kept { state with copyReady := state.copyReady ++ [copy] }
  launched : ∀ state copy, kept state →
    kept { state with pendingCopies := state.pendingCopies ++ [copy] }

namespace Framed

variable (framed : Framed env kept)

include framed

theorem modify {change : State slotCount → State slotCount}
    (same : ∀ state, frame (change state) = frame state) :
    Keeps kept (modify change : React slotCount PUnit) :=
  fun state held => framed.same state _ (same state) held

theorem modifyGet {value : Type}
    {change : State slotCount → value × State slotCount}
    (same : ∀ state, frame (change state).2 = frame state) :
    Keeps kept (modifyGet change : React slotCount value) :=
  fun state held => framed.same state _ (same state) held

theorem ticks : Ticks kept :=
  fun state held => framed.same state state.tick rfl held

theorem external_keeps (call : ExtCall) :
    Keeps kept (external env call) :=
  framed.ticks.external_keeps call

theorem addEvent_keeps (name : EventName) : Keeps kept (addEvent env name) :=
  framed.external_keeps _

/-! ## The state and the file store -/

theorem tryReserve_keeps :
    Keeps kept (tryReserve : React slotCount _) := by
  refine framed.modifyGet fun state => ?_
  split <;> rfl

theorem release_keeps (slot : Fin slotCount) :
    Keeps kept (release slot) :=
  framed.modify fun _ => rfl

theorem preloadCachePush_keeps (hash : BlockHash) (slot : Fin slotCount)
    (info : PreloadInfo) :
    Keeps kept (preloadCachePush hash slot info) :=
  framed.modify fun _ => rfl

theorem preloadCachePop_keeps (hash : BlockHash) :
    Keeps kept (preloadCachePop hash : React slotCount _) := by
  refine framed.modifyGet fun state => ?_
  split <;> rfl

theorem preloadInflightRemove_keeps (hash : BlockHash) :
    Keeps kept (preloadInflightRemove hash : React slotCount _) :=
  framed.modify fun _ => rfl

theorem preloadWaiterAdd_keeps (hash : BlockHash) (file : FileRef) :
    Keeps kept (preloadWaiterAdd hash file : React slotCount _) :=
  framed.modify fun _ => rfl

theorem preloadWaiterPop_keeps (hash : BlockHash) :
    Keeps kept (preloadWaiterPop hash : React slotCount _) := by
  refine framed.modifyGet fun state => ?_
  split <;> rfl

theorem preloadOwn_keeps (reqId : String) (hash : BlockHash) :
    Keeps kept (preloadOwn reqId hash : React slotCount _) := by
  refine framed.modifyGet fun state => ?_
  split
  · rfl
  · exact frame_owned _ _

theorem pendingPush_keeps (info : PreloadInfo) :
    Keeps kept (pendingPush info : React slotCount _) :=
  framed.modify fun _ => rfl

theorem pendingDec_keeps (hash : BlockHash) :
    Keeps kept (pendingDec hash : React slotCount _) :=
  framed.modify fun _ => rfl

theorem consumePendingCancel_keeps (hash : BlockHash) :
    Keeps kept (consumePendingCancel hash : React slotCount _) :=
  framed.modify fun _ => rfl

theorem cancelOnePending_keeps (hash : BlockHash) :
    Keeps kept (cancelOnePending hash : React slotCount _) := by
  refine framed.modifyGet fun state => ?_
  split <;> rfl

theorem rememberKnownMissing_keeps (info : PreloadInfo) :
    Keeps kept (rememberKnownMissing info : React slotCount _) :=
  framed.modify fun _ => by simp only [frame]

theorem blockOnWrite_keeps (info : PreloadInfo) :
    Keeps kept (blockOnWrite info : React slotCount _) :=
  framed.modify fun _ => rfl

theorem purgeOwnedForHash_keeps (hash : BlockHash) :
    Keeps kept (purgeOwnedForHash hash : React slotCount _) :=
  framed.modify fun _ => rfl

/-! ## Files, slots and copies -/

theorem failOnePreloadWaiter_keeps (hash : BlockHash) (exc : Exc) :
    Keeps kept (failOnePreloadWaiter env hash exc) := by
  refine .bind (framed.preloadWaiterPop_keeps hash) fun waiter => ?_
  cases waiter with
  | none => exact .pure _
  | some file =>
      exact .bind (framed.fails _ _) fun _ => .pure _

theorem failAllPreloadWaiters_keeps (hash : BlockHash) (exc : Exc) :
    Keeps kept (failAllPreloadWaiters env hash exc) :=
  .bind .get fun _ => .bind (.loop (framed.failOnePreloadWaiter_keeps _ _) _)
    fun _ => .pure _

theorem releaseOrCache_keeps (hash : BlockHash) (slot : Fin slotCount) :
    Keeps kept (releaseOrCache env hash slot) := by
  refine .bind .get fun state => ?_
  cases state.stagingCache with
  | none => exact framed.release_keeps slot
  | some cache =>
      exact .bind (framed.modify fun _ => rfl) fun _ =>
        .bind (.forM framed.release_keeps) fun _ =>
          .onlyIf (framed.addEvent_keeps _)

theorem modifyShared_keeps (slot : SharedSlot slotCount)
    (change : SharedState → SharedState) :
    Keeps kept (modifyShared slot change) :=
  framed.modify fun _ => rfl

theorem newSharedSlot_keeps (hash : BlockHash) (slot : Fin slotCount) :
    Keeps kept (newSharedSlot hash slot) :=
  framed.modify fun _ => rfl

theorem sharedUncache_keeps (slot : SharedSlot slotCount) :
    Keeps kept (sharedUncache slot) := by
  refine .bind (framed.modify fun state => ?_) fun _ =>
    framed.modifyShared_keeps slot _
  split <;> rfl

theorem maybeReleaseShared_keeps (slot : SharedSlot slotCount) :
    Keeps kept (maybeReleaseShared env slot) :=
  .bind .get fun _ => .ite (.pure _) (framed.releaseOrCache_keeps _ _)

theorem sharedDecref_keeps (reqId : String) (hash : BlockHash) :
    Keeps kept (sharedDecref env reqId hash) := by
  refine .bind .get fun state => .ite (.bind (framed.modify fun _ => rfl)
    fun _ => .ite (.pure _) ?_) (.pure _)
  cases state.sharedCached.find? hash with
  | none => exact .pure _
  | some slot =>
      exact .bind (framed.sharedUncache_keeps slot) fun _ =>
        framed.maybeReleaseShared_keeps slot

theorem settleLoadSlot_keeps (copy : LoadCopy slotCount) :
    Keeps kept (settleLoadSlot env copy) := by
  unfold settleLoadSlot
  cases copy.source with
  | own slot => exact framed.releaseOrCache_keeps _ _
  | shared slot =>
      exact .bind (framed.modifyShared_keeps slot _) fun _ =>
        framed.maybeReleaseShared_keeps slot
  | cache slot => exact framed.modify fun _ => rfl

theorem evictOneSharedSlot_keeps :
    Keeps kept (evictOneSharedSlot env) := by
  refine .bind .get fun state => ?_
  split
  · exact .pure _
  · exact .bind (framed.sharedUncache_keeps _) fun _ =>
      .bind (framed.modify fun _ => rfl) fun _ =>
        .bind (framed.purgeOwnedForHash_keeps _) fun _ =>
          .bind (framed.addEvent_keeps _) fun _ =>
            .bind (framed.release_keeps _) fun _ => .pure _

theorem evictOneOwnedSlot_keeps : Keeps kept (evictOneOwnedSlot env) := by
  refine .bind .get fun state => ?_
  split
  · exact .pure _
  · refine .bind (framed.preloadCachePop_keeps _) fun entry => ?_
    cases entry with
    | none => exact .pure _
    | some entry =>
        exact .bind (framed.addEvent_keeps _) fun _ =>
          .bind (framed.release_keeps _) fun _ => .pure _

theorem evictOnePreloadSlot_keeps :
    Keeps kept (evictOnePreloadSlot env) :=
  .ite framed.evictOneSharedSlot_keeps framed.evictOneOwnedSlot_keeps

theorem evictOneCacheSlot_keeps : Keeps kept (evictOneCacheSlot env) := by
  refine .bind .get fun state => ?_
  split
  · exact .pure _
  · exact .bind (framed.modify fun _ => rfl) fun _ =>
      .bind (framed.release_keeps _) fun _ =>
        .bind (framed.addEvent_keeps _) fun _ => .pure _

theorem reserveAfter_keeps {evict : React slotCount Bool}
    (evicting : Keeps kept evict) (slot : Option (Fin slotCount)) :
    Keeps kept (reserveAfter evict slot) := by
  cases slot with
  | none => exact .bind evicting fun _ => .ite framed.tryReserve_keeps (.pure _)
  | some slot => exact .pure _

theorem reservePreloadSlot_keeps : Keeps kept (reservePreloadSlot env) :=
  .bind framed.tryReserve_keeps
    (framed.reserveAfter_keeps framed.evictOneCacheSlot_keeps)

theorem reserveForegroundSlot_keeps :
    Keeps kept (reserveForegroundSlot env) :=
  .bind framed.tryReserve_keeps fun slot =>
    .bind (framed.reserveAfter_keeps framed.evictOneCacheSlot_keeps slot)
      (framed.reserveAfter_keeps framed.evictOnePreloadSlot_keeps)

theorem queueLoadCopy_keeps (file : FileRef) (source : Source slotCount) :
    Keeps kept (queueLoadCopy env file source) := by
  unfold queueLoadCopy
  split
  · exact .throw _
  next mapping mapped =>
    exact .modify fun state held => framed.readied state _ mapped held

theorem releaseStoreInflight_keeps (hash : BlockHash) (ok : Bool) :
    Keeps kept (releaseStoreInflight env hash ok) := by
  refine .bind .get fun state => .bind (framed.modify fun _ => rfl) fun _ =>
    .ite (.pure _) (.bind (framed.modify fun _ => rfl) fun _ => ?_)
  split
  · exact .pure _
  · refine .ite (.pure _) (.ite ?_ ?_)
    · exact .onlyIf (.bind (framed.purgeOwnedForHash_keeps _) fun _ =>
        framed.modify fun _ => rfl)
    · exact .ite
        (.bind (framed.pendingPush_keeps _) fun _ => framed.addEvent_keeps _)
        (.bind (.forM framed.pendingPush_keeps) fun _ =>
          framed.addEvent_keeps _)

/-! ## Completions -/

theorem failStoreFile_keeps (file : FileRef) (exc : Exc) :
    Keeps kept (failStoreFile env file exc) :=
  .bind (framed.fails _ _) fun _ =>
    framed.releaseStoreInflight_keeps _ _

/-- Only a file that ends well needs more. -/
theorem settleMember_keeps {copy : LoadCopy slotCount}
    (settles : Keeps kept (fileTerminal env copy.file none)) :
    Keeps kept (settleMember env copy) :=
  .bind (framed.settleLoadSlot_keeps copy) fun _ => settles

theorem parkMissing_keeps (info : PreloadInfo) :
    Keeps kept (parkMissing info : React slotCount _) :=
  .bind .get fun _ => .ite (framed.blockOnWrite_keeps _)
    (framed.rememberKnownMissing_keeps _)

theorem failPreloadOpen_keeps (info : PreloadInfo) (exc : Exc) :
    Keeps kept (failPreloadOpen env info exc) := by
  refine .bind (framed.preloadInflightRemove_keeps _) fun _ => .ite ?_ ?_
  · exact .bind (framed.failAllPreloadWaiters_keeps _ _) fun _ =>
      .ite (.pure _) (framed.parkMissing_keeps _)
  · refine .bind (framed.preloadWaiterPop_keeps _) fun waiter => ?_
    cases waiter with
    | none => exact framed.parkMissing_keeps _
    | some file => exact framed.fails _ _

omit framed in
theorem checkTransferred_keeps (what : String) (result : Int) :
    Keeps kept (checkTransferred env what result) :=
  .ite (.throw _) (.ite (.throw _) (.pure _))

theorem placeOwnedRead_keeps (info : PreloadInfo) (slot : Fin slotCount)
    (result : Int) : Keeps kept (placeOwnedRead env info slot result) := by
  refine .bind (checkTransferred_keeps _ _) fun _ =>
    .bind (framed.preloadWaiterPop_keeps _) fun waiter =>
      .bind (framed.addEvent_keeps _) fun _ => ?_
  cases waiter with
  | none =>
      exact .bind .get fun _ => .ite (framed.release_keeps _)
        (framed.preloadCachePush_keeps _ _ _)
  | some file =>
      exact .bind (framed.addEvent_keeps _) fun _ =>
        framed.queueLoadCopy_keeps _ _

theorem failOwnedRead_keeps (info : PreloadInfo) (slot : Fin slotCount)
    (exc : Exc) : Keeps kept (failOwnedRead env info slot exc) := by
  refine .bind (framed.addEvent_keeps _) fun _ =>
    .bind (framed.release_keeps _) fun _ =>
      .bind (framed.preloadWaiterPop_keeps _) fun waiter => ?_
  cases waiter with
  | none => exact .pure _
  | some file => exact framed.fails _ _

theorem serveOneWaiter_keeps (slot : SharedSlot slotCount) :
    Keeps kept (serveOneWaiter env slot) := by
  refine .bind (framed.preloadWaiterPop_keeps _) fun waiter => ?_
  cases waiter with
  | none => exact .pure _
  | some file =>
      exact .bind (framed.addEvent_keeps _) fun _ =>
        .bind (framed.modifyShared_keeps _ _) fun _ =>
          .bind (.handling (framed.queueLoadCopy_keeps _ _) fun _ =>
            .bind (framed.modifyShared_keeps _ _) fun _ =>
              framed.fails _ _) fun _ =>
            .bind (framed.sharedDecref_keeps _ _) fun _ => .pure _

theorem sharedCache_keeps (slot : SharedSlot slotCount) :
    Keeps kept (sharedCache slot) :=
  .bind (framed.modifyShared_keeps _ _) fun _ => framed.modify fun _ => rfl

theorem placeSharedRead_keeps (info : PreloadInfo) (slot : Fin slotCount)
    (result : Int) : Keeps kept (placeSharedRead env info slot result) :=
  .bind (checkTransferred_keeps _ _) fun _ => .bind (framed.addEvent_keeps _)
    fun _ => .bind (framed.newSharedSlot_keeps _ _) fun _ => .bind .get fun _ =>
      .bind (.loop (framed.serveOneWaiter_keeps _) _) fun _ =>
        .bind .get fun _ => .ite (framed.maybeReleaseShared_keeps _)
          (.ite (framed.sharedCache_keeps _)
            (framed.maybeReleaseShared_keeps _))

theorem failSharedRead_keeps (info : PreloadInfo) (slot : Fin slotCount)
    (exc : Exc) : Keeps kept (failSharedRead env info slot exc) :=
  .bind (framed.addEvent_keeps _) fun _ =>
    .bind (framed.failAllPreloadWaiters_keeps _ _) fun _ =>
      framed.release_keeps _

theorem pollAll_keeps : Keeps kept (pollAll env) :=
  .bind .get fun _ => .bind (framed.external_keeps _) fun _ => .pure _

/-! ## Scheduling -/

theorem failReadyRead_keeps (reader : Reader) (exc : Exc) :
    Keeps kept (failReadyRead env reader exc) := by
  cases reader with
  | load file => exact framed.fails _ _
  | preload info =>
      refine .bind (framed.addEvent_keeps _) fun _ =>
        .bind (framed.preloadInflightRemove_keeps _) fun _ => .ite ?_ ?_
      · exact .bind (framed.failAllPreloadWaiters_keeps _ _) fun _ => .pure _
      · refine .bind (framed.preloadWaiterPop_keeps _) fun waiter => ?_
        cases waiter with
        | none => exact .pure _
        | some file => exact framed.fails _ _

theorem scheduleCacheHit_keeps (file : FileRef)
    (slot : CacheSlot (Fin slotCount)) :
    Keeps kept (scheduleCacheHit env file slot) :=
  .bind (framed.addEvent_keeps _) fun _ => .bind (framed.modify fun _ => rfl)
    fun _ => .bind (framed.starts _) fun _ =>
      .handling (framed.queueLoadCopy_keeps _ _) fun _ =>
        .bind (framed.modify fun _ => rfl) fun _ =>
          framed.fails _ _

theorem schedulePreloadDone_keeps (file : FileRef) :
    Keeps kept (schedulePreloadDone env file) := by
  refine .bind (framed.preloadCachePop_keeps _) fun entry => ?_
  split
  · exact .pure _
  · exact .bind (framed.addEvent_keeps _) fun _ => .bind (framed.starts _)
      fun _ => .handling (framed.queueLoadCopy_keeps _ _) fun _ =>
        .bind (framed.release_keeps _) fun _ => framed.fails _ _

theorem schedulePreloadInflight_keeps (file : FileRef) :
    Keeps kept (schedulePreloadInflight env file) :=
  .bind (framed.addEvent_keeps _) fun _ => .bind (framed.starts _) fun _ =>
    framed.preloadWaiterAdd_keeps _ _

theorem sharedClaimFromCache_keeps (file : FileRef)
    (slot : SharedSlot slotCount) :
    Keeps kept (sharedClaimFromCache env file slot) :=
  .bind (framed.addEvent_keeps _) fun _ => .bind (framed.starts _) fun _ =>
    .bind (framed.modifyShared_keeps _ _) fun _ =>
      .bind (.handling (framed.queueLoadCopy_keeps _ _) fun _ =>
        .bind (framed.modifyShared_keeps _ _) fun _ =>
          .bind (framed.fails _ _) fun _ =>
            framed.maybeReleaseShared_keeps _) fun _ =>
      framed.sharedDecref_keeps _ _

theorem promotePendingToSharedRead_keeps (file : FileRef) :
    Keeps kept (promotePendingToSharedRead env file) :=
  .bind (framed.cancelOnePending_keeps _) fun _ =>
    .bind (framed.opensPreload _) fun _ =>
      framed.schedulePreloadInflight_keeps _

theorem scheduleSharedLoad_keeps (file : FileRef) :
    Keeps kept (scheduleSharedLoad env file) := by
  refine .bind .get fun state => ?_
  split
  · exact .bind (framed.sharedClaimFromCache_keeps _ _) fun _ => .pure _
  · exact .ite
      (.bind (framed.schedulePreloadInflight_keeps _) fun _ => .pure _)
      (.ite
        (.ite
          (.bind (framed.promotePendingToSharedRead_keeps _) fun _ => .pure _)
          (.pure _))
        (.ite
          (.bind (framed.opensLoad _) fun _ =>
            .bind (framed.sharedDecref_keeps _ _) fun _ => .pure _)
          (.pure _)))

theorem scheduleOwnedLoad_keeps (file : FileRef) :
    Keeps kept (scheduleOwnedLoad env file) :=
  .bind .get fun _ =>
    .ite (.bind (framed.schedulePreloadDone_keeps _) fun _ => .pure _)
      (.ite (.bind (framed.schedulePreloadInflight_keeps _) fun _ => .pure _)
        (.ite (.bind (framed.opensLoad _) fun _ =>
          .bind (framed.cancelOnePending_keeps _) fun _ => .pure _) (.pure _)))

theorem getCached_keeps (hash : BlockHash) :
    Keeps kept (getCached hash : React slotCount _) := by
  refine framed.modifyGet fun state => ?_
  split <;> rfl

theorem scheduleLoadFile_keeps (job : Job) :
    Keeps kept (scheduleLoadFile env job) := by
  refine .bind .get fun state => .ite (.pure _) ?_
  split
  · refine .bind (framed.getCached_keeps _) fun cached => ?_
    split
    · exact .bind (framed.scheduleCacheHit_keeps _ _) fun _ => .pure _
    · exact .ite (framed.scheduleSharedLoad_keeps _)
        (framed.scheduleOwnedLoad_keeps _)
  · exact .pure _

theorem scheduleLoadJob_keeps (job : Job) :
    Keeps kept (scheduleLoadJob env job) :=
  .ite (.pure _) (.loop (framed.scheduleLoadFile_keeps _) _)

theorem scheduleStoreCopy_keeps (file : FileRef) (slot : Fin slotCount) :
    Keeps kept (scheduleStoreCopy env file slot) := by
  refine .bind (framed.starts _) fun _ =>
    .bind (.attempt (framed.ticks.launchStoreCopy_keeps _ _))
      fun launched => ?_
  split
  · exact .bind (framed.release_keeps _) fun _ => framed.failStoreFile_keeps _ _
  · exact .bind (framed.modify fun _ => rfl) fun _ =>
      .modify fun state held => framed.launched
        { state with dataInflight := state.dataInflight + 1 } _
        (framed.same state _ rfl held)

theorem scheduleStoreFile_keeps (job : Job) :
    Keeps kept (scheduleStoreFile env job) := by
  refine .bind .get fun state => .ite (.pure _) ?_
  split
  · refine .bind framed.reserveForegroundSlot_keeps fun slot => ?_
    split
    · exact .pure _
    · exact .bind (framed.scheduleStoreCopy_keeps _ _) fun _ => .pure _
  · exact .pure _

theorem scheduleStoreJob_keeps (job : Job) :
    Keeps kept (scheduleStoreJob env job) :=
  .ite (.loop (framed.scheduleStoreFile_keeps _) _) (.pure _)

theorem dropFirstPending_keeps (hash : BlockHash) :
    Keeps kept (dropFirstPending hash : React slotCount _) :=
  .bind (framed.modify fun _ => rfl) fun _ => framed.pendingDec_keeps _

theorem drainCancelledPending_keeps :
    Keeps kept (drainCancelledPending : React slotCount _) := by
  refine .bind .get fun state => ?_
  split
  · exact .pure _
  · exact .ite (.bind (framed.consumePendingCancel_keeps _) fun _ =>
      .bind (framed.dropFirstPending_keeps _) fun _ => .pure _) (.pure _)

theorem speculate_keeps : Keeps kept (speculate env) := by
  refine .bind .get fun state => ?_
  split
  · exact .pure _
  · exact .ite
      (.ite (.bind (framed.consumePendingCancel_keeps _) fun _ =>
          .bind (framed.dropFirstPending_keeps _) fun _ => .pure _)
        (.ite (.bind (framed.dropFirstPending_keeps _) fun _ =>
            .bind (framed.blockOnWrite_keeps _) fun _ =>
              .bind (framed.addEvent_keeps _) fun _ => .pure _)
          (.bind (framed.dropFirstPending_keeps _) fun _ =>
            .bind (framed.opensPreload _) fun _ => .pure _)))
      (.pure _)

/-- Only a batch without rows ends files well. -/
theorem flushCopyBatch_post {state : State slotCount}
    (taken : ∀ state, kept state → kept { state with copyReady := [] })
    (settles : (state.copyReady.map
        fun copy => copy.mapping.length).sum = 0 →
      ∀ copy ∈ state.copyReady.map ReadyCopy.copy,
        Keeps kept (fileTerminal env copy.file none))
    (holds : kept state) :
    wp (flushCopyBatch env) (fun _ next => kept next)
      (fun _ next => kept next) state := by
  unfold flushCopyBatch
  rw [wp_bind, wp_get, wp_ite, wp_pure]
  refine ⟨fun _ => holds, fun _ => ?_⟩
  rw [wp_bind, wp_modify, wp_ite]
  constructor
  · intro rowless
    exact Keeps.forM_mem (fun copy member => framed.settleMember_keeps
      (settles rowless copy member)) _ (taken state holds)
  · refine fun _ => Keeps.bind (framed.external_keeps _) (fun _ =>
      .bind (framed.external_keeps _) fun _ =>
        .bind (.attempt (.bind (framed.external_keeps _) fun _ =>
          .bind (framed.external_keeps _) fun _ => framed.external_keeps _))
          fun launched => ?_) _ (taken state holds)
    split
    · exact .forM fun copy => .bind (framed.settleLoadSlot_keeps copy)
        fun _ => framed.fails _ _
    · exact .modify fun next held => framed.launched next _ held

theorem flushCopyBatch_keeps
    (settles : ∀ file, Keeps kept (fileTerminal env file none))
    (taken : ∀ state, kept state → kept { state with copyReady := [] }) :
    Keeps kept (flushCopyBatch env) :=
  fun _ => framed.flushCopyBatch_post taken fun _ _ _ => settles _

/-! ## Intake -/

theorem intakeStoreHash_keeps (job : Job) (hash : BlockHash) :
    Keeps kept (intakeStoreHash env job hash) :=
  .bind (.onlyIf (framed.sharedDecref_keeps _ _)) fun _ =>
    framed.modify fun _ => rfl

theorem intakePreloadHash_keeps (request : PreloadRequest)
    (entry : BlockHash × Nat) :
    Keeps kept (intakePreloadHash env request entry) := by
  refine .bind .get fun state => .ite (.pure _)
    (.bind (framed.preloadOwn_keeps _ _) fun owned => .ite ?_ (.pure _))
  refine .ite (.bind (framed.modify fun _ => rfl) fun _ =>
    .onlyIf (framed.pendingPush_keeps _)) (.ite (framed.modify fun _ => rfl)
      (framed.pendingPush_keeps _))

theorem releasePreloadSlots_keeps :
    Keeps kept (releasePreloadSlots : React slotCount _) :=
  .bind .get fun _ => .bind (.forM fun _ => framed.release_keeps _) fun _ =>
    .bind (framed.modify fun _ => rfl) fun _ =>
      .bind (.forM fun _ => framed.release_keeps _) fun _ =>
        framed.modify fun _ => rfl

theorem drainStagingCache_keeps : Keeps kept (drainStagingCache env) := by
  refine .bind .get fun state => ?_
  cases state.stagingCache with
  | none => exact .pure _
  | some cache =>
      exact .bind (framed.modify fun _ => rfl) fun _ =>
        .bind (.forM framed.release_keeps) fun _ =>
          .onlyIf (framed.addEvent_keeps _)

/-- The stop marker sets the flag before anything else. -/
theorem intakeStop_post {state : State slotCount}
    (stopped : kept { state with stop := true }) :
    wp (intakeStop env) (fun _ next => kept next)
      (fun _ next => kept next) state := by
  unfold intakeStop
  rw [wp_bind, wp_modify]
  refine (?_ : Keeps kept _) _ stopped
  exact .bind .get fun _ => .bind (.onlyIf (framed.addEvent_keeps _)) fun _ =>
    .bind framed.releasePreloadSlots_keeps fun _ =>
      .bind framed.drainStagingCache_keeps fun _ =>
        .bind (framed.modify fun _ => rfl) fun _ => .bind .get fun _ =>
          .bind (.forM fun _ => framed.fails _ _) fun _ =>
            framed.modify fun _ => rfl

end Framed

/-! ## Descriptors -/

/-- A condition that does not depend on descriptors and that further ring
operations keep. -/
structure Unbound (env : Env slotCount) (kept : State slotCount → Prop) :
    Prop where
  same : ∀ state next, frame next = frame state → kept state → kept next
  starts : ∀ job, Keeps kept (startFile job : React slotCount _)
  fails : ∀ file exc, Keeps kept (fileTerminal env file (some exc))
  readied : ∀ state copy, Mapped env copy → kept state →
    kept { state with copyReady := state.copyReady ++ [copy] }
  launched : ∀ state copy, kept state →
    kept { state with pendingCopies := state.pendingCopies ++ [copy] }
  handedOver : ∀ state entry, kept state → kept (state.handOver entry)
  numbered : ∀ state, kept state →
    kept { state with nextUserData := state.nextUserData + 1 }
  queued : ∀ state userData op, Named env op → kept state →
    kept { state with inflight := state.inflight.set userData op }
  loadsLeft : ∀ state later, kept state →
    kept { state with readyFdsLoad := later }
  preloadsLeft : ∀ state later, kept state →
    kept { state with readyFdsPreload := later }

namespace Unbound

variable (unbound : Unbound env kept)

include unbound

theorem newUserData_keeps :
    Keeps kept (newUserData : React slotCount _) :=
  .modifyGet fun state held => unbound.numbered state held

/-- An operation joins the ring, and other fields are assigned with it. -/
theorem queue_keeps {change : State slotCount → State slotCount}
    (userData : Nat) (op : RingOp slotCount) (named : Named env op)
    (same : ∀ state, frame (change state) =
      frame { state with inflight := state.inflight.set userData op }) :
    Keeps kept (modify change : React slotCount PUnit) :=
  .modify fun state held =>
    unbound.same _ _ (same state)
      (unbound.queued state userData op named held)

theorem framed : Framed env kept := by
  have external : ∀ call, Keeps kept (external env call) := by
    intro call state held
    have ticked := unbound.same state state.tick rfl held
    rw [wp_external]
    exact ⟨fun _ => ticked, fun _ _ => ticked⟩
  refine ⟨unbound.same, unbound.starts, unbound.fails, fun file => ?_,
    fun info => ?_, unbound.readied, unbound.launched⟩
  · refine .bind (unbound.starts _) fun _ =>
      .bind unbound.newUserData_keeps fun userData =>
        .bind (.attempt (external _)) fun queued => ?_
    cases queued with
    | error exc => exact unbound.fails _ _
    | ok _ =>
        exact unbound.queue_keeps userData (.opening (.load file)) trivial
          fun _ => rfl
  · refine .bind unbound.newUserData_keeps fun userData =>
      .bind (.attempt (external _)) fun queued => ?_
    cases queued with
    | error exc => exact .pure _
    | ok _ =>
        have counted : Keeps kept
            (modify fun state : State slotCount =>
              { state with openInflight := state.openInflight + 1 } :
              React slotCount PUnit) :=
          .modify fun state held => unbound.same state _ rfl held
        have added : Keeps kept
            (preloadInflightAdd info.blockHash : React slotCount _) :=
          .modify fun state held => unbound.same state _ rfl held
        exact .bind counted fun _ => .bind added fun _ =>
          unbound.queue_keeps userData (.opening (.preload info)) trivial
            fun _ => rfl

theorem silent : Silent kept where
  ticks := unbound.framed.ticks
  handsOver := unbound.handedOver

theorem asyncClose_keeps (fd : Int) : Keeps kept (asyncClose env fd) := by
  refine .ite (.pure _) (.bind unbound.newUserData_keeps fun userData =>
    .bind (.attempt (unbound.framed.external_keeps _)) fun queued => ?_)
  cases queued with
  | error exc => exact unbound.silent.closeQuietly_keeps fd
  | ok _ =>
      exact .bind
        (.modify fun state held => unbound.handedOver state _ held)
        fun _ => unbound.queue_keeps userData (.closing fd) trivial
          fun _ => rfl

theorem submitReadFromReady_keeps (reader : Reader) (fd : Int)
    (slot : Fin slotCount) :
    Keeps kept (submitReadFromReady env reader fd slot) := by
  refine .bind unbound.newUserData_keeps fun userData =>
    .bind (.attempt (unbound.framed.external_keeps _)) fun queued => ?_
  cases queued with
  | error exc =>
      exact .bind (unbound.asyncClose_keeps fd) fun _ =>
        .bind (unbound.framed.release_keeps slot) fun _ =>
          unbound.framed.failReadyRead_keeps reader exc
  | ok _ =>
      exact .bind (unbound.framed.modify fun _ => rfl) fun _ =>
        unbound.queue_keeps userData (.reading reader slot fd) trivial
          fun _ => rfl

theorem drainReadyLoadFd_keeps : Keeps kept (drainReadyLoadFd env) := by
  refine .bind .get fun state => ?_
  split
  · exact .pure _
  · refine .ite (.bind unbound.framed.reserveForegroundSlot_keeps
      fun slot => ?_) (.pure _)
    cases slot with
    | none => exact .pure _
    | some slot =>
        exact .bind (.modify fun state held =>
            unbound.loadsLeft state _ held) fun _ =>
          .bind (unbound.submitReadFromReady_keeps _ _ slot) fun _ =>
            .pure _

theorem readReadyPreload_keeps (info : PreloadInfo) (fd : Int)
    (later : List (Int × PreloadInfo)) (slot : Option (Fin slotCount)) :
    Keeps kept (readReadyPreload env info fd later slot) := by
  cases slot with
  | none => exact .pure _
  | some slot =>
      exact .bind (.modify fun state held =>
          unbound.preloadsLeft state later held) fun _ =>
        .bind (unbound.submitReadFromReady_keeps _ fd slot) fun _ => .pure _

theorem yieldOpenFd_keeps (info : PreloadInfo) (fd : Int) :
    Keeps kept (yieldOpenFd env info fd) :=
  .bind (unbound.framed.preloadInflightRemove_keeps _) fun _ =>
    .bind (unbound.framed.pendingPush_keeps _) fun _ =>
      .bind (unbound.framed.addEvent_keeps _) fun _ =>
        unbound.asyncClose_keeps fd

theorem drainReadyPreloadFd_keeps :
    Keeps kept (drainReadyPreloadFd env) := by
  refine .bind .get fun state => ?_
  split
  · exact .pure _
  next fd info later _ =>
    have yields : Keeps kept (do
        modify fun state : State slotCount =>
          { state with readyFdsPreload := later }
        yieldOpenFd env info fd
        pure true) :=
      .bind (.modify fun state held => unbound.preloadsLeft state later held)
        fun _ => .bind (unbound.yieldOpenFd_keeps info fd) fun _ => .pure _
    exact .ite
      (.ite (.bind unbound.framed.reserveForegroundSlot_keeps
        fun _ => unbound.readReadyPreload_keeps _ _ _ _) (.pure _))
      (.ite yields (.ite (.bind unbound.framed.reservePreloadSlot_keeps
        fun _ => unbound.readReadyPreload_keeps _ _ _ _) (.pure _)))

theorem schedulePreloads_keeps : Keeps kept (schedulePreloads env) := by
  have drains : Keeps kept (drainReadyPreloadFds env) :=
    .bind .get fun _ => .loop unbound.drainReadyPreloadFd_keeps _
  exact .bind drains fun _ => .bind .get fun _ =>
    .bind (.loop unbound.framed.drainCancelledPending_keeps _) fun _ =>
      .bind .get fun _ => .onlyIf (.loop unbound.framed.speculate_keeps _)

theorem scheduleWork_keeps : Keeps kept (scheduleWork env) := by
  have drains : Keeps kept (drainReadyLoadFds env) :=
    .bind .get fun _ => .loop unbound.drainReadyLoadFd_keeps _
  exact .bind drains fun _ => .bind .get fun _ =>
    .bind (.forM unbound.framed.scheduleLoadJob_keeps) fun _ =>
      .bind (.forM unbound.framed.scheduleStoreJob_keeps) fun _ =>
        unbound.schedulePreloads_keeps

/-- Two such conditions, one or the other. -/
theorem or {other : State slotCount → Prop} (second : Unbound env other) :
    Unbound env fun state => kept state ∨ other state where
  same := fun state next equal =>
    .imp (unbound.same state next equal) (second.same state next equal)
  starts := fun job => .or (unbound.starts job) (second.starts job)
  fails := fun file exc =>
    .or (unbound.fails file exc) (second.fails file exc)
  readied := fun state copy mapped =>
    .imp (unbound.readied state copy mapped)
      (second.readied state copy mapped)
  launched := fun state copy =>
    .imp (unbound.launched state copy) (second.launched state copy)
  handedOver := fun state entry =>
    .imp (unbound.handedOver state entry) (second.handedOver state entry)
  numbered := fun state =>
    .imp (unbound.numbered state) (second.numbered state)
  queued := fun state userData op named =>
    .imp (unbound.queued state userData op named)
      (second.queued state userData op named)
  loadsLeft := fun state later =>
    .imp (unbound.loadsLeft state later) (second.loadsLeft state later)
  preloadsLeft := fun state later =>
    .imp (unbound.preloadsLeft state later) (second.preloadsLeft state later)

end Unbound

end PyKvCache.Ledger
