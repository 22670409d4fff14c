import PyKvCache.Ledger.Reaping
import PyKvCache.Ledger.Jobs

/-!
# Jobs the crash handler can find

An exception can strike at any call the reactor makes.  What holds at all of
them is `Settled`: the `future_set` flag of a job is only up if its future is
resolved, and an accepted job that is not resolved is queued, active, or the
one that is being taken in.  Every handler keeps it, on its normal exit and on
its exceptional one, as long as the transfer events of a job are emitted
without raising.
-/

namespace PyKvCache.Crash

open PyKvCache.Library PyKvCache.Staging PyKvCache.Transfer
open PyKvCache.Reactor PyKvCache.Ledger PyKvCache.Library.Effect

variable {slotCount : Nat}

/-- `Settled` in terms of the fields it is about. -/
structure SettledIn (out : List Job) (jobs : Job → JobState)
    (active : List Job) (incoming : List Item) (accepted : List Job) :
    Prop where
  flagged : ∀ job, (jobs job).futureSet = true → (jobs job).future ≠ none
  listed : ∀ job ∈ accepted, (jobs job).future = none →
    job ∈ incoming.filterMap Item.toJob ∨ job ∈ active ∨ job ∈ out

/-- Whatever job is not resolved is found by the crash handler, or is one of
`out`. -/
abbrev Settled (out : List Job) (state : State slotCount) : Prop :=
  SettledIn out state.jobs state.active state.incoming state.accepted

/-- New fields of a job that take no result back. -/
theorem SettledIn.update {out active accepted : List Job}
    {jobs : Job → JobState} {incoming : List Item} (job : Job)
    {fields : JobState}
    (settled : SettledIn out jobs active incoming accepted)
    (flagged : fields.futureSet = true → fields.future ≠ none)
    (kept : (jobs job).future ≠ none → fields.future ≠ none) :
    SettledIn out (Function.update jobs job fields) active incoming
      accepted := by
  refine ⟨fun other set => ?_, fun other known unresolved => ?_⟩
  · rw [Function.update_apply] at set ⊢
    split
    next same =>
      rw [if_pos same] at set
      exact flagged set
    next different =>
      rw [if_neg different] at set
      exact settled.flagged other set
  · refine settled.listed other known ?_
    rw [Function.update_apply] at unresolved
    split at unresolved
    next same =>
      rw [same]
      by_contra resolved
      exact kept resolved unresolved
    next => exact unresolved

/-- A job whose new fields hold a result need not be found any more. -/
theorem SettledIn.resolve {out active accepted : List Job}
    {jobs : Job → JobState} {incoming : List Item} {job : Job}
    (fields : JobState)
    (settled : SettledIn (job :: out) jobs active incoming accepted)
    (resolved : fields.future ≠ none) :
    SettledIn out (Function.update jobs job fields) active incoming
      accepted := by
  have updated := settled.update job (fun _ => resolved)
    fun _ => resolved
  refine ⟨updated.flagged, fun other known unresolved => ?_⟩
  rcases updated.listed other known unresolved with queued | listed | found
  · exact Or.inl queued
  · exact Or.inr (Or.inl listed)
  · rcases List.mem_cons.mp found with same | later
    · rw [same, Function.update_self] at unresolved
      exact absurd unresolved resolved
    · exact Or.inr (Or.inr later)

/-- More jobs need not be found. -/
theorem SettledIn.weaken {out more active accepted : List Job}
    {jobs : Job → JobState} {incoming : List Item}
    (settled : SettledIn out jobs active incoming accepted)
    (listed : out ⊆ more) :
    SettledIn more jobs active incoming accepted := by
  refine ⟨settled.flagged, fun job known unresolved => ?_⟩
  rcases settled.listed job known unresolved with queued | found | rest
  · exact Or.inl queued
  · exact Or.inr (Or.inl found)
  · exact Or.inr (Or.inr (listed rest))

/-- The job of an item that leaves the queue is the one that is handled. -/
theorem SettledIn.takeItem {active accepted : List Job}
    {jobs : Job → JobState} {item : Item} {later : List Item}
    (settled : SettledIn [] jobs active (item :: later) accepted) :
    SettledIn item.toJob.toList jobs active later accepted := by
  refine ⟨settled.flagged, fun job known unresolved => ?_⟩
  have found := settled.listed job known unresolved
  cases item with
  | job carried =>
      simp only [List.filterMap_cons, Item.toJob, List.mem_cons,
        List.not_mem_nil, or_false, Option.toList_some] at found ⊢
      tauto
  | preload request => exact found
  | stop => exact found

section Handlers

variable {env : Env slotCount} {out : List Job}

/-- Both exits of a program keep the jobs findable. -/
abbrev Findable {value : Type} (out : List Job)
    (program : React slotCount value) : Prop :=
  Keeps (Settled out) program

/-- A file that ends leaves its job resolved if it raises the flag. -/
theorem endedJob_settled (job : Job) (error : Option Exc)
    {fields : JobState}
    (before : fields.futureSet = true → fields.future ≠ none) :
    ((endedJob job error fields).futureSet = true →
      (endedJob job error fields).future ≠ none) ∧
    (fields.future ≠ none → (endedJob job error fields).future ≠ none) := by
  unfold endedJob JobState.counted
  by_cases set : fields.futureSet = true
  · simp [set, before set]
  · cases error with
    | some exc => simp [set]
    | none =>
        by_cases all : fields.doneFiles + 1 = job.totalFiles
        · simp [set, all]
        · simp [set, all]

theorem fileTerminal_keeps (emits : env.Emits) (out : List Job)
    (file : FileRef) (error : Option Exc) :
    Findable out (fileTerminal env file error) := by
  intro state settled
  have fields := endedJob_settled file.job error (settled.flagged file.job)
  have ended : Settled out (Ledger.ended state file error) :=
    settled.update _ fields.1 fields.2
  exact wp_fileTerminal emits ended ended

/-- What a file of a job does keeps the jobs findable, and nothing depends on
descriptors. -/
theorem settled_unbound (emits : env.Emits) (out : List Job) :
    Unbound env (Settled out) where
  same := by
    intro state next same settled
    simp only [frame, Prod.mk.injEq] at same
    obtain ⟨jobs, active, incoming, accepted, _⟩ := same
    unfold Settled
    rw [jobs, active, incoming, accepted]
    exact settled
  starts := fun job _ settled => settled.update _ (settled.flagged job) id
  fails := fun file exc => fileTerminal_keeps emits out file (some exc)
  readied := fun _ _ _ settled => settled
  launched := fun _ _ settled => settled
  handedOver := fun _ _ settled => settled
  numbered := fun _ settled => settled
  queued := fun _ _ _ _ settled => settled
  loadsLeft := fun _ _ settled => settled
  preloadsLeft := fun _ _ settled => settled

theorem settled_framed (emits : env.Emits) (out : List Job) :
    Framed env (Settled out) :=
  (settled_unbound emits out).framed

/-- Nor does it depend on what the devices are doing. -/
theorem settled_detached (emits : env.Emits) (out : List Job) :
    Detached env (Settled out) where
  toUnbound := settled_unbound emits out
  copiesLeft := fun _ _ settled => settled
  ringLeft := fun _ _ settled => settled

end Handlers

end PyKvCache.Crash
