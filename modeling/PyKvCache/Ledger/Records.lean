import PyKvCache.Ledger.Advance

/-!
# Conditions on the jobs and on the record of ended files

A condition on these and on which jobs were accepted is kept by every step of
the thread, if it is kept when a file starts and when it ends; the two steps
that settle a job without any of its files, the break-even gate and the crash
handler, are asked for separately.
-/

namespace PyKvCache.Ledger

open PyKvCache.Library PyKvCache.Staging PyKvCache.Transfer
open PyKvCache.Reactor PyKvCache.Library.Effect

variable {slotCount : Nat} {env : Env slotCount}
  {kept : State slotCount → Prop} {machine : Machine slotCount}

/-- The jobs, which of them were accepted, and the ended files. -/
def record (state : State slotCount) :=
  (state.jobs, state.accepted, state.terminals)

/-- A condition on these that starts and ends of files keep. -/
structure Recorded (env : Env slotCount) (kept : State slotCount → Prop) :
    Prop where
  same : ∀ state next, record next = record state → kept state → kept next
  starts : ∀ job, Keeps kept (startFile job : React slotCount _)
  ends : ∀ file error, Keeps kept (fileTerminal env file error)

/-- A condition on the record alone does not depend on any queue. -/
theorem unasked_of_record
    (same : ∀ state next, record next = record state → kept state → kept next)
    (starts : ∀ job, Keeps kept (startFile job : React slotCount _))
    (fails : ∀ file exc, Keeps kept (fileTerminal env file (some exc))) :
    Unasked env kept where
  same := by
    intro state next equal holds
    simp only [frame, Prod.mk.injEq] at equal
    obtain ⟨jobs, _, _, accepted, _, _, _, _, _, _, _, terminals, _⟩ := equal
    refine same state next ?_ holds
    unfold record
    rw [jobs, accepted, terminals]
  starts := starts
  fails := fails
  readied := fun state _ _ => same state _ rfl
  launched := fun state _ => same state _ rfl
  handedOver := fun state _ => same state _ rfl
  numbered := fun state => same state _ rfl
  queued := fun state _ _ _ => same state _ rfl
  loadsLeft := fun state _ => same state _ rfl
  preloadsLeft := fun state _ => same state _ rfl
  copiesLeft := fun state _ => same state _ rfl
  ringLeft := fun state _ => same state _ rfl
  jobsLeft := fun state _ => same state _ rfl
  flushed := fun state => same state _ rfl
  itemsLeft := fun state _ => same state _ rfl
  stopped := fun state => same state _ rfl

namespace Recorded

variable (recorded : Recorded env kept)

include recorded

theorem unasked : Unasked env kept :=
  unasked_of_record recorded.same recorded.starts fun file exc =>
    recorded.ends file (some exc)

/-- Other fields are assigned. -/
theorem assigns {change : State slotCount → State slotCount}
    (same : ∀ state, record (change state) = record state) :
    Keeps kept (modify change : React slotCount PUnit) :=
  .modify fun state => recorded.same state _ (same state)

/-- A step of the thread keeps the condition, whether it raises or not. -/
theorem advance_running (running : machine.phase.Running)
    (holds : kept machine.state)
    (declines : ∀ job later, Declines env machine job later →
      Retains kept (declineLoad env job)
        { machine.state with incoming := later }) :
    kept (machine.advance env).state :=
  recorded.unasked.advance_settles (fun file => recorded.ends file none)
    running holds declines

end Recorded

/-- The crash handler keeps the condition if failing a job does. -/
theorem advance_crashed
    (same : ∀ state next, record next = record state → kept state → kept next)
    (down : ¬ machine.phase.Running)
    (fails : ∀ exc job, Keeps kept (failUnset exc job : React slotCount _))
    (holds : kept machine.state) : kept (machine.advance env).state := by
  obtain ⟨phase, state⟩ := machine
  have assigns : ∀ {change : State slotCount → State slotCount},
      (∀ state, record (change state) = record state) →
        Keeps kept (modify change : React slotCount PUnit) :=
    fun equal => .modify fun state => same state _ (equal state)
  unfold Machine.advance
  cases phase with
  | crashed exc =>
      have handles : Keeps kept (failActive exc : React slotCount _) :=
        .bind (assigns fun _ => rfl) fun _ =>
          .bind .get fun _ => .bind (.forM (fails _)) fun _ =>
            .bind (assigns fun _ => rfl) fun _ =>
              .bind (.forM fun _ => fails _ _) fun _ =>
                assigns fun _ => rfl
      exact perform_state (handles _ holds)
  | closing exc =>
      have handles : Keeps kept (failIncoming exc : React slotCount _) := by
        refine .bind (assigns fun _ => rfl) fun _ =>
          .bind .get fun _ =>
            .bind (assigns fun _ => rfl) fun _ =>
              .forM fun item => ?_
        cases item with
        | job job => exact fails _ _
        | preload request => exact .pure _
        | stop => exact .pure _
      exact perform_state (handles _ holds)
  | dead => exact holds
  | _ => exact (down trivial).elim

end PyKvCache.Ledger
