import PyKvCache.Ledger.Frames

/-!
# What a finished copy or operation leaves alone

A condition that does not depend on what the devices are doing is kept by the
handlers of finished copies and of completions, on both exits.  Only those
that end a file well need to know that this keeps it, too.
-/

namespace PyKvCache.Ledger

open PyKvCache.Library PyKvCache.Staging PyKvCache.Transfer
open PyKvCache.Reactor PyKvCache.Library.Effect

variable {slotCount : Nat} {env : Env slotCount}
  {kept : State slotCount → Prop}

/-- A condition that depends neither on descriptors nor on what is in the ring
or being copied. -/
structure Detached (env : Env slotCount) (kept : State slotCount → Prop) :
    Prop extends Unbound env kept where
  copiesLeft : ∀ state later, kept state →
    kept { state with pendingCopies := later }
  ringLeft : ∀ state userData, kept state →
    kept { state with inflight := state.inflight.erase userData }

/-- A data operation has left the ring. -/
def reaped (state : State slotCount) (userData : Nat) : State slotCount :=
  { state with
    inflight := state.inflight.erase userData
    dataInflight := state.dataInflight - 1 }

/-- A file that ends well keeps a condition. -/
abbrev Settles (env : Env slotCount) (kept : State slotCount → Prop) :
    Prop :=
  ∀ file, Keeps kept (fileTerminal env file none)

namespace Detached

variable (detached : Detached env kept)

include detached

private theorem framed : Framed env kept := detached.toUnbound.framed

private theorem silent : Silent kept := detached.toUnbound.silent

/-! ## Copies -/

theorem dataDone_keeps : Keeps kept (dataDone : React slotCount _) :=
  detached.framed.modify fun _ => rfl

theorem onStoreCopyDone_keeps (file : FileRef) (slot : Fin slotCount) :
    Keeps kept (onStoreCopyDone env file slot) := by
  refine .bind (.attempt (detached.silent.openTempWrite_keeps _))
    fun opened => ?_
  split
  · exact .bind detached.dataDone_keeps fun _ =>
      .bind (detached.framed.release_keeps _) fun _ =>
        detached.framed.failStoreFile_keeps _ _
  · refine .bind detached.newUserData_keeps fun _ =>
      .bind (.attempt (detached.framed.external_keeps _)) fun queued => ?_
    split
    · exact .bind detached.dataDone_keeps fun _ =>
        .bind (detached.silent.cleanupTemp_keeps _ _) fun _ =>
          .bind (detached.framed.release_keeps _) fun _ =>
            detached.framed.failStoreFile_keeps _ _
    · exact .modify fun _ held => detached.queued _ _ _ rfl held

theorem queryEvent_keeps : Keeps kept (queryEvent env) :=
  .bind .get fun _ => .bind (detached.framed.external_keeps _) fun _ =>
    .pure _

/-- A store copy that has finished ends no file well. -/
theorem drainStoreCopy_keeps (file : FileRef) (slot : Fin slotCount) :
    Keeps kept (drainCudaCopy env (.store file slot)) :=
  .bind detached.queryEvent_keeps fun _ =>
    .ite (.bind (.modify fun _ held => detached.copiesLeft _ _ held)
      fun _ => .bind (detached.framed.external_keeps _) fun _ =>
        .bind (detached.framed.modify fun _ => rfl) fun _ =>
          detached.onStoreCopyDone_keeps _ _) (.pure _)

theorem drainCudaCopy_keeps (settles : Settles env kept)
    (copy : CopyOp slotCount) : Keeps kept (drainCudaCopy env copy) := by
  cases copy with
  | store file slot => exact detached.drainStoreCopy_keeps file slot
  | load members =>
      exact .bind detached.queryEvent_keeps fun _ =>
        .ite (.bind (.modify fun _ held => detached.copiesLeft _ _ held)
          fun _ => .bind (detached.framed.external_keeps _) fun _ =>
            .forM fun _ =>
              detached.framed.settleMember_keeps (settles _)) (.pure _)

/-! ## Opens and reads -/

theorem onOpenComplete_keeps (reader : Reader) (resultFd : Int) :
    Keeps kept (onOpenComplete env reader resultFd) := by
  refine .bind (detached.framed.modify fun _ => rfl) fun _ => ?_
  split
  · cases reader with
    | load file => exact detached.fails _ _
    | preload info => exact detached.framed.failPreloadOpen_keeps _ _
  · refine .bind (.modify fun _ held => detached.handedOver _ _ held)
      fun _ => ?_
    cases reader with
    | load file => exact .modify fun _ held => detached.loadsLeft _ _ held
    | preload info =>
        exact .modify fun _ held => detached.preloadsLeft _ _ held

theorem onLoadReadComplete_keeps (file : FileRef) (slot : Fin slotCount)
    (fd result : Int) :
    Keeps kept (onLoadReadComplete env file slot fd result) :=
  .ensuring
    (.handling
      (.bind (Framed.checkTransferred_keeps _ _) fun _ =>
        detached.framed.queueLoadCopy_keeps _ _)
      fun _ => .bind (detached.framed.release_keeps _) fun _ =>
        detached.fails _ _)
    (detached.asyncClose_keeps fd)

theorem onOwnedReadComplete_keeps (info : PreloadInfo)
    (slot : Fin slotCount) (fd result : Int) :
    Keeps kept (onOwnedReadComplete env info slot fd result) :=
  .bind (detached.framed.preloadInflightRemove_keeps _) fun _ =>
    .ensuring (.handling (detached.framed.placeOwnedRead_keeps _ _ _)
      (detached.framed.failOwnedRead_keeps _ _))
      (detached.asyncClose_keeps fd)

theorem onSharedReadComplete_keeps (info : PreloadInfo)
    (slot : Fin slotCount) (fd result : Int) :
    Keeps kept (onSharedReadComplete env info slot fd result) :=
  .bind (detached.framed.preloadInflightRemove_keeps _) fun _ =>
    .ensuring (.handling (detached.framed.placeSharedRead_keeps _ _ _)
      (detached.framed.failSharedRead_keeps _ _))
      (detached.asyncClose_keeps fd)

theorem onReadComplete_keeps (reader : Reader) (slot : Fin slotCount)
    (fd result : Int) :
    Keeps kept (onReadComplete env reader slot fd result) := by
  cases reader with
  | load file => exact detached.onLoadReadComplete_keeps _ _ _ _
  | preload info =>
      exact .ite (detached.onSharedReadComplete_keeps _ _ _ _)
        (detached.onOwnedReadComplete_keeps _ _ _ _)

/-! ## Writes -/

theorem failWrite_keeps (file : FileRef) (slot : Fin slotCount) (fd : Int)
    (tempPath : String) (exc : Exc) :
    Keeps kept (failWrite env file slot fd tempPath exc) :=
  .bind (detached.silent.cleanupTemp_keeps _ _) fun _ =>
    .bind (detached.framed.release_keeps _) fun _ =>
      detached.framed.failStoreFile_keeps _ _

theorem onWriteComplete_keeps (settles : Settles env kept) (file : FileRef)
    (slot : Fin slotCount) (fd : Int) (finalPath tempPath : String)
    (result : Int) :
    Keeps kept
      (onWriteComplete env file slot fd finalPath tempPath result) :=
  .handling
    (.bind (Framed.checkTransferred_keeps _ _) fun _ =>
      .bind (detached.silent.finishWrite_keeps _ _ _) fun _ =>
        .bind (detached.framed.releaseOrCache_keeps _ _) fun _ =>
          .bind (settles _) fun _ =>
            detached.framed.releaseStoreInflight_keeps _ _)
    fun _ => detached.failWrite_keeps _ _ _ _ _

/-! ## The completion queue -/

/-- A completion is reaped; what a write does after it left the ring is up to
its handler. -/
theorem reapCompletion_post {completion : Nat × Int}
    {post : PUnit → State slotCount → Prop}
    {fail : Exc → State slotCount → Prop} {state : State slotCount}
    (held : kept state)
    (returned : ∀ next, kept next → post ⟨⟩ next)
    (raised : ∀ exc next, kept next → fail exc next)
    (writes : ∀ file slot fd finalPath tempPath,
      state.inflight.find? completion.1 =
          some (.writing file slot fd finalPath tempPath) →
        kept (reaped state completion.1) →
          wp (onWriteComplete env file slot fd finalPath tempPath
            completion.2) post fail (reaped state completion.1)) :
    wp (reapCompletion env completion) post fail state := by
  have stays : ∀ {program : React slotCount PUnit}, Keeps kept program →
      ∀ now, kept now → wp program post fail now :=
    fun keeps now holds => wp_mono (keeps now holds)
      (fun _ next => returned next) fun exc next => raised exc next
  unfold reapCompletion
  rw [wp_bind, wp_get]
  cases found : state.inflight.find? completion.1 with
  | none => exact returned _ held
  | some op =>
      have taken := detached.ringLeft state completion.1 held
      rw [wp_bind, wp_modify]
      cases op with
      | opening reader =>
          exact stays (detached.onOpenComplete_keeps _ _) _ taken
      | closing fd => exact returned _ taken
      | reading reader slot fd =>
          have reads : Keeps kept (do
              dataDone
              onlyIf (completion.2 = env.ioSize)
                (fillSlot slot (some reader.hash))
              onReadComplete env reader slot fd completion.2) :=
            .bind detached.dataDone_keeps fun _ =>
              .bind (.onlyIf (detached.framed.modify fun _ => rfl))
                fun _ => detached.onReadComplete_keeps _ _ _ _
          exact stays reads _ taken
      | writing file slot fd finalPath tempPath =>
          have counted := detached.dataDone_keeps _ taken
          unfold dataDone at counted ⊢
          rw [wp_bind, wp_modify]
          exact writes _ _ _ _ _ found counted

theorem reapCompletion_keeps (settles : Settles env kept)
    (completion : Nat × Int) :
    Keeps kept (reapCompletion env completion) :=
  fun _ held => detached.reapCompletion_post held (fun _ => id)
    (fun _ _ => id) fun _ _ _ _ _ _ holds =>
      detached.onWriteComplete_keeps settles _ _ _ _ _ _ _ holds

end Detached

end PyKvCache.Ledger
