import PyKvCache.Reactor.Scheduling

/-!
# Calls outside the reactor

A call of the file system or the device changes nothing of the reactor but the
number of calls made so far and the entries about descriptors.  A condition
that these two leave alone is kept by all such calls, whether they return or
raise.
-/

namespace PyKvCache.Ledger

open PyKvCache.Reactor PyKvCache.Library.Effect

variable {slotCount : Nat} {env : Env slotCount}
  {kept : State slotCount → Prop}

/-- One more call keeps the condition. -/
def Ticks (kept : State slotCount → Prop) : Prop :=
  ∀ state, kept state → kept state.tick

namespace Ticks

variable (ticks : Ticks kept)

include ticks

theorem external_keeps (call : ExtCall) :
    Keeps kept (external env call) := by
  intro state holds
  have ticked := ticks state holds
  rw [wp_external]
  exact ⟨fun _ => ticked, fun _ _ => ticked⟩

theorem unlinkPresent_keeps (path : String) :
    Keeps kept (unlinkPresent env path) := by
  refine .handling (ticks.external_keeps _) fun raised => ?_
  split
  · exact .pure _
  · exact .throw _

theorem launchSwapBlocks_keeps (job : Job) (mapping : List (Int × Int)) :
    Keeps kept (launchSwapBlocks env job mapping) := by
  have called : ∀ call, Keeps kept (external env call) :=
    ticks.external_keeps
  exact .bind (called _) fun _ => .bind (called _) fun _ =>
    .bind (.onlyIf (called _)) fun _ => .bind (called _) fun _ =>
      .bind (.onlyIf (called _)) fun _ => called _

theorem launchStoreCopy_keeps (file : FileRef) (slot : Fin slotCount) :
    Keeps kept (launchStoreCopy env file slot) := by
  unfold launchStoreCopy
  split
  · exact .throw _
  · exact ticks.launchSwapBlocks_keeps _ _

end Ticks

/-- One more call and one more entry about a descriptor keep the condition. -/
structure Silent (kept : State slotCount → Prop) : Prop where
  ticks : Ticks kept
  handsOver : ∀ state entry, kept state → kept (state.handOver entry)

namespace Silent

variable (silent : Silent kept)

include silent

theorem openFd_keeps (call : ExtCall) : Keeps kept (openFd env call) :=
  .bind .get fun _ => .bind (silent.ticks.external_keeps _) fun _ =>
    .bind (.modify fun _ => silent.handsOver _ _) fun _ => .pure _

theorem closeFd_keeps (fd : Int) : Keeps kept (closeFd env fd) :=
  .bind (.modify fun _ => silent.handsOver _ _) fun _ =>
    silent.ticks.external_keeps _

theorem closeQuietly_keeps (fd : Int) :
    Keeps kept (closeQuietly env fd) := by
  refine .handling (silent.closeFd_keeps fd) fun raised => ?_
  split
  · exact .throw _
  · exact .pure _

theorem openTempWrite_keeps (finalPath : String) :
    Keeps kept (openTempWrite env finalPath) :=
  .bind (silent.ticks.external_keeps _) fun _ => .bind .get fun _ =>
    .bind (silent.openFd_keeps _) fun _ => .pure _

theorem cleanupTemp_keeps (fd : Int) (tempPath : String) :
    Keeps kept (cleanupTemp env fd tempPath) :=
  .bind (silent.closeQuietly_keeps fd) fun _ =>
    silent.ticks.unlinkPresent_keeps tempPath

theorem fsyncDir_keeps (path : String) :
    Keeps kept (fsyncDir env path) := by
  refine .bind (.attempt (silent.openFd_keeps _)) fun opened => ?_
  split
  · exact .throw _
  · exact .pure _
  · exact .ensuring
      (.bind (silent.ticks.external_keeps _) fun _ =>
        silent.ticks.external_keeps _)
      (silent.closeFd_keeps _)

theorem finishWrite_keeps (fd : Int) (tempPath finalPath : String) :
    Keeps kept (finishWrite env fd tempPath finalPath) := by
  have called : ∀ call, Keeps kept (external env call) :=
    silent.ticks.external_keeps
  have synced : Keeps kept
      (onlyIf env.syncOnStore (fsyncDir env finalPath)) :=
    .onlyIf (silent.fsyncDir_keeps finalPath)
  refine .bind (.onlyIf (.bind (called _) fun _ => called _)) fun _ =>
    .bind (silent.closeFd_keeps fd) fun _ =>
      .bind (.attempt (called _)) fun linked =>
        .bind (silent.ticks.unlinkPresent_keeps tempPath) fun _ => ?_
  split
  · exact .bind synced fun _ => .pure _
  · exact .throw _
  · exact .bind synced fun _ => .pure _

end Silent

end PyKvCache.Ledger
