import PyKvCache.Ledger.Records
import PyKvCache.Safety.SlotOwners
import PyKvCache.Safety.WakeUps

/-!
# What a success rests on

A file ends well for one of two reasons.  A load file does when the GPU copy
that reads its block has finished, a store file when the write of its block is
complete and the block got to its path.  No other step of the reactor reports
a success; above all, an empty batch, which would settle its files without a
copy, never occurs.
-/

namespace PyKvCache.Safety

open PyKvCache.Library PyKvCache.Staging PyKvCache.Transfer
open PyKvCache.Reactor PyKvCache.Ledger PyKvCache.Library.Effect

variable {slotCount : Nat} {env : Env slotCount}
  {state : State slotCount} {machine later : Machine slotCount}
  {file : FileRef}

/-! ## Ready copies and writes -/

/-- Ready copies have their mappings, and writes publish their blocks. -/
structure Prepared (env : Env slotCount) (state : State slotCount) :
    Prop where
  mapped : ∀ ready ∈ state.copyReady, Mapped env ready
  named : ∀ userData op, state.inflight.find? userData = some op →
    Named env op

private theorem Prepared.ended (prepared : Prepared env state)
    (error : Option Exc) : Prepared env (Ledger.ended state file error) :=
  ⟨prepared.mapped, prepared.named⟩

theorem prepared_settles (quiet : env.Quiet) (file : FileRef)
    (error : Option Exc) :
    Keeps (Prepared env) (fileTerminal env file error) :=
  fun _ prepared =>
    have later := prepared.ended error
    wp_fileTerminal quiet.emits later ⟨later.mapped, later.named⟩

theorem prepared_unasked (quiet : env.Quiet) :
    Unasked env (Prepared env) where
  same := by
    intro state next same prepared
    simp only [frame, Prod.mk.injEq] at same
    obtain ⟨_, _, _, _, inflight, _, _, _, _, ready, _⟩ := same
    exact ⟨by rw [ready]; exact prepared.mapped,
      by rw [inflight]; exact prepared.named⟩
  starts := fun _ _ prepared => ⟨prepared.mapped, prepared.named⟩
  fails := fun file exc => prepared_settles quiet file (some exc)
  readied := by
    refine fun state copy mapped prepared => ⟨fun ready member => ?_,
      prepared.named⟩
    rcases List.mem_append.mp member with before | new
    · exact prepared.mapped ready before
    · rw [List.mem_singleton.mp new]
      exact mapped
  launched := fun _ _ prepared => ⟨prepared.mapped, prepared.named⟩
  handedOver := fun _ _ prepared => ⟨prepared.mapped, prepared.named⟩
  numbered := fun _ prepared => ⟨prepared.mapped, prepared.named⟩
  queued := by
    refine fun state userData op named prepared => ⟨prepared.mapped,
      fun other found => ?_⟩
    dsimp only
    rw [OrderedDict.find?_set]
    split
    · rintro ⟨⟩
      exact named
    · exact prepared.named other found
  loadsLeft := fun _ _ prepared => ⟨prepared.mapped, prepared.named⟩
  preloadsLeft := fun _ _ prepared => ⟨prepared.mapped, prepared.named⟩
  copiesLeft := fun _ _ prepared => ⟨prepared.mapped, prepared.named⟩
  ringLeft := by
    refine fun state userData prepared => ⟨prepared.mapped,
      fun other found => ?_⟩
    dsimp only
    rw [OrderedDict.find?_erase]
    split
    · simp
    · exact prepared.named other found
  jobsLeft := fun _ _ prepared => ⟨prepared.mapped, prepared.named⟩
  flushed := fun _ prepared => ⟨by simp, prepared.named⟩
  itemsLeft := fun _ _ prepared => ⟨prepared.mapped, prepared.named⟩
  stopped := fun _ prepared => ⟨prepared.mapped, prepared.named⟩

theorem prepared_reachable (quiet : env.Quiet)
    (reached : Machine.Reachable env machine)
    (running : machine.phase.Running) : Prepared env machine.state := by
  induction reached with
  | refl => exact ⟨nofun, nofun⟩
  | @tail before after reached step inductionHypothesis =>
      have ran := running_of_step step running
      have prepared := inductionHypothesis ran
      cases step with
      | advance =>
          refine (prepared_unasked quiet).advance_settles
            (fun file => prepared_settles quiet file none) ran prepared
            fun job rest _ => ?_
          simp only [Retains, declineLoad, addEvent, modifyJob, wp_bind,
            wp_external, wp_modify]
          exact ⟨fun _ => ⟨prepared.mapped, prepared.named⟩,
            fun _ _ => ⟨prepared.mapped, prepared.named⟩⟩
      | submit job new =>
          unfold State.submitJob
          split <;> exact ⟨prepared.mapped, prepared.named⟩
      | preload request =>
          unfold State.enqueuePreload
          split
          · exact prepared
          · exact ⟨prepared.mapped, prepared.named⟩
      | shutdown =>
          unfold State.shutdown
          split
          · exact prepared
          · exact ⟨prepared.mapped, prepared.named⟩

/-- A batch of ready copies is never empty of rows. -/
theorem rows_pos (prepared : Prepared env state)
    (ready : state.copyReady ≠ []) :
    (state.copyReady.map fun copy => copy.mapping.length).sum ≠ 0 := by
  obtain ⟨first, later, equal⟩ := List.exists_cons_of_ne_nil ready
  have mapped := prepared.mapped first (by rw [equal]; simp)
  obtain ⟨nonempty, rows⟩ := loadMapping_rows mapped
  have some : first.mapping ≠ [] := by
    rintro empty
    rw [empty] at rows
    exact nonempty rows.symm
  have positive := List.length_pos_iff.mpr some
  rw [equal, List.map_cons, List.sum_cons]
  omega

/-! ## The causes -/

/-- The next step of the thread brings the block of a file to where its job
wants it. -/
inductive Delivers (env : Env slotCount) (machine : Machine slotCount)
    (file : FileRef) : Prop
  /-- A GPU copy with the file has finished; until the stop marker is taken
  in, the slot it read still holds the block of the file. -/
  | copied (members : List (LoadCopy slotCount))
      (todo : List (CopyOp slotCount)) (copy : LoadCopy slotCount)
      (phase : machine.phase = .copies (.load members :: todo))
      (pending : CopyOp.load members ∈ machine.state.pendingCopies)
      (finished : env.finished machine.state.calls = true)
      (member : copy ∈ members) (ofFile : copy.file = file)
      (filled : machine.state.stop = false →
        machine.state.content copy.source.slotIndex = some file.hash)
  /-- The whole slot has been written, and the link to the path of the block
  succeeds or finds a file there. -/
  | published (userData : Nat) (todo : List (Nat × Int))
      (slot : Fin slotCount) (fd : Int) (tempPath : String)
      (phase : machine.phase =
        .completions ((userData, (env.ioSize : Int)) :: todo))
      (writing : machine.state.inflight.find? userData =
        some (.writing file slot fd (env.getFileName file.hash) tempPath))
      (linked : (StoreCall.writeComplete slot fd
        (env.getFileName file.hash) tempPath env.ioSize).publishes env
          (reaped machine.state userData) = true)
      (filled : machine.state.stop = false →
        machine.state.content slot = some file.hash)

/-- Every success is one of the start or has a cause. -/
def Caused (start : State slotCount) (cause : FileRef → Prop)
    (state : State slotCount) : Prop :=
  ∀ terminal ∈ state.terminals, terminal.error = none →
    terminal ∈ start.terminals ∨ cause terminal.file

section Caused

variable {start : State slotCount} {cause : FileRef → Prop}

theorem caused_same (state next : State slotCount)
    (same : record next = record state) (caused : Caused start cause state) :
    Caused start cause next := by
  simp only [record, Prod.mk.injEq] at same
  unfold Caused
  rw [same.2.2]
  exact caused

/-- A file that ends keeps this if it failed or has a cause. -/
theorem caused_ends (quiet : env.Quiet) {error : Option Exc}
    (because : error = none → cause file) :
    Keeps (Caused start cause) (fileTerminal env file error) := by
  intro state caused
  have ends : Caused start cause (Ledger.ended state file error) := by
    intro terminal member good
    rcases List.mem_append.mp member with before | new
    · exact caused terminal before good
    · rw [List.mem_singleton.mp new] at good ⊢
      exact Or.inr (because good)
  exact wp_fileTerminal quiet.emits ends
    (caused_same _ _ rfl ends)

theorem caused_unasked (quiet : env.Quiet) :
    Unasked env (Caused start cause) :=
  unasked_of_record caused_same (fun _ _ caused => caused)
    fun _ _ => caused_ends quiet nofun

theorem onWriteComplete_caused (quiet : env.Quiet) (slot : Fin slotCount)
    (fd : Int) (finalPath tempPath : String) (result : Int)
    (because : result = env.ioSize →
      (StoreCall.writeComplete slot fd finalPath tempPath result).publishes
        env state = true → cause file)
    (caused : Caused start cause state) :
    Retains (Caused start cause)
      (onWriteComplete env file slot fd finalPath tempPath result) state := by
  have unasked : Unasked env (Caused start cause) := caused_unasked quiet
  have detached := unasked.toDetached
  have framed := detached.toUnbound.framed
  have fails := detached.failWrite_keeps file slot fd tempPath
  rw [Retains, onWriteComplete, wp_handling]
  unfold publishWrite
  rw [wp_bind]
  refine wp_checkTransferred (fun full => ?_) fun exc => fails exc _ caused
  have finishing := wp_and
    (detached.toUnbound.silent.finishWrite_keeps fd tempPath finalPath state
      caused)
    (finishWrite_publishes env state slot fd tempPath finalPath result full)
  rw [wp_bind]
  refine wp_mono finishing (fun _ next both => ?_)
    fun exc next both => fails exc next both.1
  have settles : Keeps (Caused start cause) (fileTerminal env file none) :=
    caused_ends quiet fun _ => because full both.2
  have rest : Keeps (Caused start cause) (do
      releaseOrCache env file.hash slot
      fileTerminal env file none
      releaseStoreInflight env file.hash true) :=
    .bind (framed.releaseOrCache_keeps _ _) fun _ =>
      .bind settles fun _ => framed.releaseStoreInflight_keeps _ _
  exact wp_mono (rest next both.1) (fun _ _ => id)
    fun exc last caused => fails exc last caused

end Caused

/-! ## Steps -/

/-- The members of the copy that is looked at next. -/
private theorem delivers_copied (quiet : env.Quiet)
    (reached : Machine.Reachable env machine)
    {members : List (LoadCopy slotCount)} {todo : List (CopyOp slotCount)}
    (phase : machine.phase = .copies (.load members :: todo))
    (finished : env.finished machine.state.calls = true)
    {copy : LoadCopy slotCount} (member : copy ∈ members) :
    Delivers env machine copy.file := by
  have running : machine.phase.Running := by
    rw [phase]
    trivial
  have rules : Rules env .any (OwnerInv env .any) := ⟨quiet, ownerInv_closed⟩
  obtain ⟨base, _⟩ :=
    reachable_held rules ownerInv_init reached running
  have todoLeft := base.todo
  rw [phase] at todoLeft
  have pending : CopyOp.load members ∈ machine.state.pendingCopies :=
    todoLeft.subset List.mem_cons_self
  refine .copied members todo copy phase pending finished member rfl
    fun unstopped => ?_
  obtain ⟨_, books⟩ := slotBooks quiet reached running unstopped
  exact books.eachMatches.delivered copy (List.mem_append_right _
    (List.mem_flatMap.mpr ⟨_, pending, member⟩))

private theorem delivers_published (quiet : env.Quiet)
    (reached : Machine.Reachable env machine) {userData : Nat}
    {todo : List (Nat × Int)} {slot : Fin slotCount} {fd : Int}
    {finalPath tempPath : String}
    (phase : machine.phase =
      .completions ((userData, (env.ioSize : Int)) :: todo))
    (writing : machine.state.inflight.find? userData =
      some (.writing file slot fd finalPath tempPath))
    (linked : (StoreCall.writeComplete slot fd finalPath tempPath
      env.ioSize).publishes env (reaped machine.state userData) = true) :
    Delivers env machine file := by
  have running : machine.phase.Running := by
    rw [phase]
    trivial
  obtain rfl : finalPath = env.getFileName file.hash :=
    (prepared_reachable quiet reached running).named userData _ writing
  refine .published userData todo slot fd tempPath phase writing linked
    fun unstopped => ?_
  obtain ⟨_, books⟩ := slotBooks quiet reached running unstopped
  refine books.content_owned (List.mem_append_left _ (List.mem_append_left _
    (List.mem_append_left _ (List.mem_append_left _
      (List.mem_append_right _ ?_)))))
  exact List.mem_flatMap.mpr ⟨_, OrderedDict.mem_values_of_find? writing,
    List.mem_singleton_self _⟩

/-- What a step reports as a success is what that step brought about. -/
theorem step_caused (quiet : env.Quiet)
    (reached : Machine.Reachable env machine)
    (step : Machine.Step env machine later) :
    Caused machine.state (Delivers env machine) later.state := by
  have caused : Caused machine.state (Delivers env machine) machine.state :=
    fun _ member _ => Or.inl member
  have unasked : Unasked env
      (Caused machine.state (Delivers env machine)) := caused_unasked quiet
  have detached := unasked.toDetached
  cases step with
  | advance =>
      by_cases running : machine.phase.Running
      · refine unasked.toUnqueued.advance_state running caused
          (fun item rest phase first =>
            unasked.intake_asked phase first caused fun job rest _ => ?_)
          (fun copy todo phase => ?_)
          (fun completion todo phase => ?_) fun phase => ?_
        · simp only [Retains, declineLoad, addEvent, modifyJob, wp_bind,
            wp_external, wp_modify]
          exact ⟨fun _ => caused, fun _ _ => caused⟩
        · cases copy with
          | store file slot =>
              exact detached.drainStoreCopy_keeps file slot _ caused
          | load members =>
              simp only [Retains, drainCudaCopy, queryEvent, wp_bind, wp_get,
                wp_external, wp_pure, wp_ite, wp_modify]
              refine ⟨fun _ => ⟨fun finished => ⟨fun _ => ?_,
                fun _ _ => caused⟩, fun _ => caused⟩, fun _ _ => caused⟩
              exact Keeps.forM_mem (fun copy member =>
                detached.toUnbound.framed.settleMember_keeps
                  (caused_ends quiet fun _ =>
                    delivers_copied quiet reached phase finished member))
                _ caused
        · refine detached.reapCompletion_post caused (fun _ => id)
            (fun _ _ => id) fun file slot fd finalPath tempPath writing
              reaped => ?_
          refine onWriteComplete_caused quiet slot fd finalPath tempPath
            completion.2 (fun full linked => ?_) reaped
          obtain ⟨userData, result⟩ := completion
          subst full
          exact delivers_published quiet reached phase writing linked
        · -- a batch without rows would settle files without a copy
          refine detached.toUnbound.framed.flushCopyBatch_post
            unasked.flushed (fun rowless copy member => ?_) caused
          refine absurd rowless (rows_pos
            (prepared_reachable quiet reached running) ?_)
          exact List.map_eq_nil_iff.not.mp (List.ne_nil_of_mem member)
      · exact advance_crashed caused_same running
          (fun exc job state caused => caused) caused
  | submit job new =>
      unfold State.submitJob
      split <;> exact caused
  | preload request =>
      unfold State.enqueuePreload
      split <;> exact caused
  | shutdown =>
      unfold State.shutdown
      split <;> exact caused

/-! ## Runs -/

/-- In every run, a file that was reported as a success was reported by the
very step that brought its block to where the job wanted it. -/
theorem successes_caused (quiet : env.Quiet)
    (reached : Machine.Reachable env machine) {terminal : Terminal}
    (ended : terminal ∈ machine.state.terminals)
    (good : terminal.error = none) :
    ∃ before after, Machine.Reachable env before ∧
      Machine.Step env before after ∧
      Relation.ReflTransGen (Machine.Step env) after machine ∧
      terminal ∉ before.state.terminals ∧
      terminal ∈ after.state.terminals ∧
      Delivers env before terminal.file := by
  induction reached with
  | refl => cases ended
  | @tail before after reached step inductionHypothesis =>
      by_cases earlier : terminal ∈ before.state.terminals
      · obtain ⟨first, second, start, cause, rest, facts⟩ :=
          inductionHypothesis earlier
        exact ⟨first, second, start, cause, rest.tail step, facts⟩
      · have delivers :=
          (step_caused quiet reached step terminal ended good).resolve_left
            earlier
        exact ⟨before, after, reached, step, .refl, earlier, ended, delivers⟩

section Examples

/-- A load has waited for the shared preload of its block, and has ended. -/
@[irreducible]
def copiedLoad : Machine 5 :=
  (Machine.init (readWorld true 6 9)).play (readWorld true 6 9)
    (waitingLoad oneFileLoad 40)

theorem copiedLoad_caused :
    ∃ before after, Machine.Reachable (readWorld true 6 9) before ∧
      Machine.Step (readWorld true 6 9) before after ∧
      Relation.ReflTransGen (Machine.Step (readWorld true 6 9)) after
        copiedLoad ∧
      (⟨⟨oneFileLoad, 0, by decide⟩, none, 0⟩ : Terminal) ∉
        before.state.terminals ∧
      (⟨⟨oneFileLoad, 0, by decide⟩, none, 0⟩ : Terminal) ∈
        after.state.terminals ∧
      Delivers (readWorld true 6 9) before ⟨oneFileLoad, 0, by decide⟩ := by
  have reached : Machine.Reachable (readWorld true 6 9) copiedLoad := by
    unfold copiedLoad
    exact Machine.reachable_play _ (by decide +kernel)
  exact successes_caused Env.smooth_quiet reached (by decide +kernel) rfl

end Examples

end PyKvCache.Safety
