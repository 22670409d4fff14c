import PyKvCache.Ledger.Files

/-!
# The lists of jobs

A job is queued, then taken in, then active, and never comes back.  Only
active jobs have files on the way, and how a future was set says where the
files of its job are.
-/

namespace PyKvCache.Reactor

/-- The job an item carries. -/
def Item.toJob : Item → Option Job
  | .job carried => some carried
  | _ => none

end PyKvCache.Reactor

namespace PyKvCache.Ledger

open PyKvCache.Library PyKvCache.Staging PyKvCache.Transfer
open PyKvCache.Reactor

variable {slotCount : Nat} {env : Env slotCount} {slack : Slack}
  {hand hand' : Hand slotCount} {state state' : State slotCount}

/-- The accepted jobs that are not active yet. -/
def waiting (hand : Hand slotCount) (state : State slotCount) : List Job :=
  state.incoming.filterMap Item.toJob ++ hand.job.toList

/-- What a move does to the lists of jobs. -/
inductive JobChange (hand : Hand slotCount) (state : State slotCount)
    (hand' : Hand slotCount) (state' : State slotCount) : Prop
  | kept (queued : (waiting hand' state').Perm (waiting hand state))
      (active : state'.active = state.active)
      (accepted : state'.accepted = state.accepted)
      (closed : state.closed = true → state'.closed = true)
  | accepted (job : Job) (new : job ∉ state.accepted)
      (opened : state.closed = false)
      (queued : (waiting hand' state').Perm (job :: waiting hand state))
      (active : state'.active = state.active)
      (accepted : state'.accepted = state.accepted ++ [job])
  | activated (job : Job)
      (queued : (waiting hand state).Perm (job :: waiting hand' state'))
      (active : state'.active = state.active ++ [job])
      (accepted : state'.accepted = state.accepted)
      (closed : state'.closed = state.closed)
  | declined (job : Job) (held : hand.job = some job)
      (queued : (waiting hand state).Perm (job :: waiting hand' state'))
      (active : state'.active = state.active)
      (accepted : state'.accepted = state.accepted)
      (closed : state'.closed = state.closed)
  | finished (queued : waiting hand' state' = waiting hand state)
      (active : state'.active = state.active.filter fun job =>
        !(state.jobs job).finished job)
      (places : placed hand' state' = placed hand state)
      (jobs : state'.jobs = state.jobs)
      (accepted : state'.accepted = state.accepted)
      (closed : state'.closed = state.closed)

/-- A move that touches none of the lists. -/
private theorem JobChange.untouched (job : hand'.job = hand.job)
    (incoming : state'.incoming = state.incoming)
    (active : state'.active = state.active)
    (accepted : state'.accepted = state.accepted)
    (closed : state'.closed = state.closed) :
    JobChange hand state hand' state' := by
  refine .kept ?_ active accepted (fun was => closed.trans was)
  unfold waiting
  rw [job, incoming]

/-- Every move is one of the changes. -/
theorem Move.jobs (moved : Move env slack hand state hand' state') :
    JobChange hand state hand' state' := by
  cases moved with
  | @takeJob job later next free =>
      refine .kept ?_ rfl rfl id
      simp only [waiting, next, free, List.filterMap_cons, Item.toJob,
        Option.toList_some, Option.toList_none, List.append_nil]
      exact List.perm_append_singleton _ _
  | @takeOther item later next other =>
      refine .kept ?_ rfl rfl id
      have none : item.toJob = none := by
        cases item with
        | job job => exact absurd rfl (other job)
        | preload request => rfl
        | stop => rfl
      simp only [waiting, next, List.filterMap_cons, none]
      exact List.Perm.refl _
  | @activateStore job held storing complete =>
      refine .activated job ?_ rfl rfl rfl
      simp only [waiting, held, Option.toList_some, Option.toList_none,
        List.append_nil]
      exact List.perm_append_singleton _ _
  | @activateLoad job held loading =>
      refine .activated job ?_ rfl rfl rfl
      simp only [waiting, held, Option.toList_some, Option.toList_none,
        List.append_nil]
      exact List.perm_append_singleton _ _
  | @decline job held loading exc =>
      refine .declined job held ?_ rfl rfl rfl
      simp only [waiting, held, Option.toList_some, Option.toList_none,
        List.append_nil]
      exact List.perm_append_singleton _ _
  | finish idle scheduled => exact .finished rfl rfl rfl rfl rfl rfl
  | submit job new =>
      unfold State.submitJob
      split
      · exact .untouched rfl rfl rfl rfl rfl
      next opened =>
        refine .accepted job new (Bool.not_eq_true _ ▸ opened) ?_ rfl rfl
        simp only [waiting, List.filterMap_append, List.filterMap_cons,
          List.filterMap_nil, Item.toJob, List.append_assoc]
        exact List.perm_middle
  | enqueue request =>
      unfold State.enqueuePreload
      split
      · exact .untouched rfl rfl rfl rfl rfl
      · refine .kept ?_ rfl rfl id
        simp [waiting, List.filterMap_append, List.filterMap_cons, Item.toJob]
  | shutdown =>
      unfold State.shutdown
      split
      · exact .untouched rfl rfl rfl rfl rfl
      · refine .kept ?_ rfl rfl (fun _ => rfl)
        simp [waiting, List.filterMap_append, List.filterMap_cons, Item.toJob]
  | _ => exact .untouched rfl rfl rfl rfl rfl

/-- No file failed while others of its job were in flight. -/
def FailedAlone (state : State slotCount) : Prop :=
  ∀ terminal ∈ state.terminals,
    terminal.error ≠ none → terminal.othersInflight = 0

/-- A queued or active job was accepted once, and only active jobs have files
on the way. -/
structure JobBooks (hand : Hand slotCount) (state : State slotCount) :
    Prop where
  distinct : (waiting hand state ++ state.active).Nodup
  accepted : ∀ job ∈ waiting hand state ++ state.active,
    job ∈ state.accepted
  begun : ∀ job, 0 < (state.jobs job).nextFileIndex →
    job ∈ state.accepted ∧ job ∉ waiting hand state
  active : ∀ entry ∈ placed hand state, entry.1.job ∈ state.active
  resolved : ∀ job, (state.jobs job).futureSet = true →
    (state.jobs job).failed ≠ none ∨
      job.totalFiles ≤ (state.jobs job).doneFiles ∨
      job ∉ waiting hand state ∧ job ∉ state.active ∧
        (job ∈ state.accepted ∨ state.closed = true)
  failed : FailedAlone state → ∀ job,
    (state.jobs job).failed ≠ none → (state.jobs job).inflightFiles = 0

namespace JobBooks

variable {lost : List FileRef}

/-- The files that are on the way are those of active jobs. -/
private theorem active_of_change (books : JobBooks hand state)
    (base : Base hand state)
    (changed : FileChange slack hand state hand' state') :
    ∀ entry ∈ placed hand' state', entry.1.job ∈ state.active := by
  intro entry member
  cases changed with
  | handedOn places jobs terminals =>
      exact books.active entry (places.mem_iff.mp member)
  | started file known unfailed next places jobs terminals =>
      rcases List.mem_cons.mp (places.mem_iff.mp member) with rfl | old
      · exact base.known _ known
      · exact books.active entry old
  | ended file storing error places jobs terminals =>
      exact books.active entry
        (places.mem_iff.mpr (List.mem_cons_of_mem _ member))
  | lost file allowed places jobs terminals =>
      exact books.active entry
        (places.mem_iff.mpr (List.mem_cons_of_mem _ member))
  | declined job exc held given incoming active accepted places jobs
      terminals =>
      exact books.active entry (places.mem_iff.mp member)
  | refused job new closed places jobs terminals =>
      exact books.active entry (places.mem_iff.mp member)

/-- Only the files of active jobs are started. -/
private theorem begun_of_change (base : Base hand state)
    (changed : FileChange slack hand state hand' state') :
    ∀ job, 0 < (state'.jobs job).nextFileIndex →
      0 < (state.jobs job).nextFileIndex ∨ job ∈ state.active := by
  intro job positive
  cases changed with
  | handedOn places jobs terminals => exact Or.inl (jobs ▸ positive)
  | started file known unfailed next places jobs terminals =>
      rw [jobs, started_jobs] at positive
      split at positive
      next same => exact Or.inr (same ▸ base.known _ known)
      next => exact Or.inl positive
  | ended file storing error places jobs terminals =>
      rw [jobs, ended_jobs] at positive
      split at positive
      · rw [FileBooks.endedJob_fields.1] at positive
        exact Or.inl positive
      · exact Or.inl positive
  | lost file allowed places jobs terminals =>
      exact Or.inl (jobs ▸ positive)
  | declined job' exc held given incoming active accepted places jobs
      terminals =>
      rw [jobs, update_jobs] at positive
      split at positive
      next same => exact Or.inl (same ▸ positive)
      next => exact Or.inl positive
  | refused job' new closed places jobs terminals =>
      rw [jobs, update_jobs] at positive
      split at positive
      next same => exact Or.inl (same ▸ positive)
      next => exact Or.inl positive

/-- How a future is set after one `_file_terminal`. -/
private theorem endedJob_set {job : Job} {error : Option Exc}
    {fields : JobState}
    (isSet : (endedJob job error fields).futureSet = true) :
    (fields.futureSet = true ∧
      (endedJob job error fields).failed = fields.failed) ∨
    (endedJob job error fields).failed ≠ none ∨
    job.totalFiles ≤ (endedJob job error fields).doneFiles := by
  unfold endedJob JobState.counted at isSet ⊢
  by_cases wasSet : fields.futureSet = true
  · exact Or.inl ⟨wasSet, by simp [wasSet]⟩
  cases error with
  | some exc => exact Or.inr (Or.inl (by simp [wasSet]))
  | none =>
      refine Or.inr (Or.inr ?_)
      by_cases all : fields.doneFiles + 1 = job.totalFiles
      · simp [wasSet, all]
      · simp [wasSet, all] at isSet

/-- A job without failure only fails when one of its files does. -/
private theorem endedJob_failed {job : Job} {error : Option Exc}
    {fields : JobState} (before : fields.failed = none)
    (failed : (endedJob job error fields).failed ≠ none) :
    error ≠ none := by
  rintro rfl
  unfold endedJob JobState.counted at failed
  by_cases wasSet : fields.futureSet = true
  · simp [wasSet, before] at failed
  · by_cases all : fields.doneFiles + 1 = job.totalFiles
    · simp [wasSet, all, before] at failed
    · simp [wasSet, all, before] at failed

/-- How a future that is set now came to be set. -/
private theorem set_of_change
    (changed : FileChange slack hand state hand' state') :
    ∀ job, (state'.jobs job).futureSet = true →
      ((state.jobs job).futureSet = true ∧
        ((state.jobs job).failed ≠ none →
          (state'.jobs job).failed ≠ none) ∧
        (state.jobs job).doneFiles ≤ (state'.jobs job).doneFiles) ∨
      (state'.jobs job).failed ≠ none ∨
      job.totalFiles ≤ (state'.jobs job).doneFiles ∨
      (hand.job = some job ∧ hand'.job = none ∧
        state'.incoming = state.incoming ∧ state'.active = state.active ∧
        state'.accepted = state.accepted) ∨
      job ∉ state.accepted ∧ state.closed = true := by
  intro job isSet
  have unchanged : ∀ {next : JobState}, next = state.jobs job →
      next.futureSet = true →
      (state.jobs job).futureSet = true ∧
        ((state.jobs job).failed ≠ none → next.failed ≠ none) ∧
        (state.jobs job).doneFiles ≤ next.doneFiles := by
    rintro next rfl wasSet
    exact ⟨wasSet, id, Nat.le_refl _⟩
  cases changed with
  | handedOn places jobs terminals =>
      exact Or.inl (unchanged (congrFun jobs job) isSet)
  | started file known unfailed next places jobs terminals =>
      have fields := (congrFun jobs job).trans started_jobs
      by_cases same : job = file.job
      · rw [if_pos same] at fields
        rw [fields] at isSet ⊢
        exact Or.inl ⟨isSet, id, Nat.le_refl _⟩
      · rw [if_neg same] at fields
        exact Or.inl (unchanged fields isSet)
  | ended file storing error places jobs terminals =>
      have fields := (congrFun jobs job).trans ended_jobs
      by_cases same : job = file.job
      · rw [if_pos same] at fields
        rw [fields] at isSet ⊢
        have grown : (state.jobs job).doneFiles ≤
            (endedJob file.job error (state.jobs job)).doneFiles := by
          rw [FileBooks.endedJob_fields.2.2]
          split <;> omega
        rcases endedJob_set isSet with ⟨wasSet, failed⟩ | failed | all
        · exact Or.inl ⟨wasSet, failed ▸ id, grown⟩
        · exact Or.inr (Or.inl failed)
        · exact Or.inr (Or.inr (Or.inl (same ▸ all)))
      · rw [if_neg same] at fields
        exact Or.inl (unchanged fields isSet)
  | lost file allowed places jobs terminals =>
      exact Or.inl (unchanged (congrFun jobs job) isSet)
  | declined other exc held given incoming active accepted places jobs
      terminals =>
      have fields := (congrFun jobs job).trans (update_jobs _ _ _)
      by_cases same : job = other
      · subst same
        exact Or.inr (Or.inr (Or.inr (Or.inl
          ⟨held, given, incoming, active, accepted⟩)))
      · rw [if_neg same] at fields
        exact Or.inl (unchanged fields isSet)
  | refused other new closed places jobs terminals =>
      have fields := (congrFun jobs job).trans (update_jobs _ _ _)
      by_cases same : job = other
      · subst same
        exact Or.inr (Or.inr (Or.inr (Or.inr ⟨new, closed⟩)))
      · rw [if_neg same] at fields
        exact Or.inl (unchanged fields isSet)

/-- A job that has left all lists stays away from them. -/
private theorem outside_of_change
    (changed : JobChange hand state hand' state') {job : Job}
    (outside : job ∉ waiting hand state ∧ job ∉ state.active ∧
      (job ∈ state.accepted ∨ state.closed = true)) :
    job ∉ waiting hand' state' ∧ job ∉ state'.active ∧
      (job ∈ state'.accepted ∨ state'.closed = true) := by
  obtain ⟨notQueued, inactive, known⟩ := outside
  cases changed with
  | kept queued active accepted closed =>
      rw [queued.mem_iff, active, accepted]
      exact ⟨notQueued, inactive, known.imp_right closed⟩
  | accepted other new opened queued active accepted =>
      have accepted' : job ∈ state.accepted := by
        rcases known with accepted | closed
        · exact accepted
        · rw [opened] at closed
          cases closed
      rw [queued.mem_iff, List.mem_cons, active, accepted]
      refine ⟨?_, inactive, Or.inl (List.mem_append_left _ accepted')⟩
      rintro (rfl | member)
      · exact new accepted'
      · exact notQueued member
  | activated other queued active accepted closed =>
      rw [queued.mem_iff, List.mem_cons, not_or] at notQueued
      rw [active, accepted, closed, List.mem_append, List.mem_singleton]
      exact ⟨notQueued.2, fun member =>
        member.elim inactive notQueued.1, known⟩
  | declined other held queued active accepted closed =>
      rw [queued.mem_iff, List.mem_cons, not_or] at notQueued
      rw [active, accepted, closed]
      exact ⟨notQueued.2, inactive, known⟩
  | finished queued active places jobs accepted closed =>
      rw [queued, active, accepted, closed]
      exact ⟨notQueued, fun member =>
        inactive (List.mem_of_mem_filter member), known⟩

/-- A failed job with nothing else in flight starts nothing. -/
private theorem failed_of_change (books : JobBooks hand state)
    (files : FileBooks hand state lost)
    (changed : FileChange slack hand state hand' state') :
    FailedAlone state' → ∀ job, (state'.jobs job).failed ≠ none →
      (state'.jobs job).inflightFiles = 0 := by
  intro alone job
  cases changed with
  | handedOn places jobs terminals =>
      rw [jobs]
      exact books.failed (by rwa [FailedAlone, ← terminals]) job
  | started file known unfailed next places jobs terminals =>
      have before := books.failed (by rwa [FailedAlone, ← terminals]) job
      rw [jobs, started_jobs]
      split
      next same =>
        intro failed
        exact absurd (same ▸ unfailed) failed
      next => exact before
  | ended file storing error places jobs terminals =>
      have added : state'.terminals = state.terminals ++
          [⟨file, error, (state.jobs file.job).inflightFiles - 1⟩] :=
        terminals
      have before := books.failed (fun terminal member =>
        alone terminal (added ▸ List.mem_append_left _ member)) job
      have last := alone
        ⟨file, error, (state.jobs file.job).inflightFiles - 1⟩
        (added ▸ List.mem_append_right _ List.mem_cons_self)
      rw [jobs, ended_jobs]
      split
      next same =>
        subst same
        have present : 0 < (state.jobs file.job).inflightFiles := by
          rw [files.counted,
            ((places.map Prod.fst).append_right lost).countP_eq,
            List.map_cons, List.cons_append, List.countP_cons]
          simp
          omega
        intro failed
        rw [FileBooks.endedJob_fields.2.1]
        by_cases wasFailed : (state.jobs file.job).failed = none
        · exact last (endedJob_failed wasFailed failed)
        · rw [before wasFailed] at present
          exact absurd present (by omega)
      next => exact before
  | lost file allowed places jobs terminals =>
      rw [jobs]
      exact books.failed (by rwa [FailedAlone, ← terminals]) job
  | declined other exc held given incoming active accepted places jobs
      terminals =>
      have before := books.failed (by rwa [FailedAlone, ← terminals]) job
      rw [jobs, update_jobs]
      split
      next same => exact same ▸ before
      next => exact before
  | refused other new closed places jobs terminals =>
      have before := books.failed (by rwa [FailedAlone, ← terminals]) job
      rw [jobs, update_jobs]
      split
      next same => exact same ▸ before
      next => exact before

/-- The waiting and active jobs after a change. -/
private theorem lists_of_change (books : JobBooks hand state)
    (changed : JobChange hand state hand' state') :
    (waiting hand' state' ++ state'.active).Nodup ∧
      (∀ job ∈ waiting hand' state' ++ state'.active,
        job ∈ state'.accepted) ∧
      ∀ job, job ∈ state.accepted → job ∉ waiting hand state →
        job ∈ state'.accepted ∧ job ∉ waiting hand' state' := by
  have distinct := books.distinct
  have known := books.accepted
  cases changed with
  | kept queued active accepted closed =>
      rw [active, accepted]
      refine ⟨(queued.append_right _).nodup_iff.mpr distinct, ?_, ?_⟩
      · intro job member
        exact known job ((queued.append_right _).mem_iff.mp member)
      · intro job member outside
        exact ⟨member, fun inside => outside (queued.mem_iff.mp inside)⟩
  | accepted other new opened queued active accepted =>
      rw [active, accepted]
      refine ⟨(queued.append_right _).nodup_iff.mpr ?_, ?_, ?_⟩
      · exact List.nodup_cons.mpr
          ⟨fun member => new (known other member), distinct⟩
      · intro job member
        rcases List.mem_cons.mp ((queued.append_right _).mem_iff.mp member)
          with rfl | old
        · exact List.mem_append_right _ List.mem_cons_self
        · exact List.mem_append_left _ (known job old)
      · intro job member outside
        refine ⟨List.mem_append_left _ member, fun inside => ?_⟩
        rcases List.mem_cons.mp (queued.mem_iff.mp inside) with rfl | old
        · exact new member
        · exact outside old
  | activated other queued active accepted closed =>
      have perm : (waiting hand' state' ++ state'.active).Perm
          (waiting hand state ++ state.active) := by
        rw [active]
        refine perm_of_weigh fun weight => ?_
        have moved := weigh_perm weight queued
        simp only [weigh_cons] at moved
        simp only [weigh_append, weigh_cons, weigh_nil]
        omega
      rw [accepted]
      refine ⟨perm.nodup_iff.mpr distinct, fun job member =>
        known job (perm.mem_iff.mp member), fun job member outside =>
          ⟨member, fun inside => outside (queued.mem_iff.mpr
            (List.mem_cons_of_mem _ inside))⟩⟩
  | declined other held queued active accepted closed =>
      have smaller : (waiting hand' state' ++ state.active).Sublist
          (other :: waiting hand' state' ++ state.active) :=
        List.sublist_cons_self _ _
      have wider := queued.append_right state.active
      rw [active, accepted]
      refine ⟨(wider.nodup_iff.mp distinct).sublist smaller,
        fun job member => known job (wider.mem_iff.mpr
          (smaller.subset member)), fun job member outside =>
          ⟨member, fun inside => outside (queued.mem_iff.mpr
            (List.mem_cons_of_mem _ inside))⟩⟩
  | finished queued active places jobs accepted closed =>
      have smaller : (waiting hand state ++
          state.active.filter fun job =>
            !(state.jobs job).finished job).Sublist
          (waiting hand state ++ state.active) :=
        List.filter_sublist.append_left _
      rw [queued, active, accepted]
      exact ⟨distinct.sublist smaller,
        fun job member => known job (smaller.subset member),
        fun job member outside => ⟨member, outside⟩⟩

/-- The jobs of the files on the way stay active. -/
private theorem active_stays (files : FileBooks hand state lost)
    (changed : JobChange hand state hand' state')
    (before : ∀ entry ∈ placed hand' state',
      entry.1.job ∈ state.active) :
    ∀ entry ∈ placed hand' state', entry.1.job ∈ state'.active := by
  intro entry member
  have old := before entry member
  cases changed with
  | kept queued active accepted closed => rwa [active]
  | accepted other new opened queued active accepted => rwa [active]
  | activated other queued active accepted closed =>
      rw [active]
      exact List.mem_append_left _ old
  | declined other held queued active accepted closed => rwa [active]
  | finished queued active places jobs accepted closed =>
      rw [active, List.mem_filter]
      refine ⟨old, ?_⟩
      rw [places] at member
      have present : 0 < ((placed hand state).map Prod.fst ++ lost).countP
          fun file => file.job = entry.1.job :=
        List.countP_pos_iff.mpr ⟨entry.1, List.mem_append_left _
          (List.mem_map_of_mem member), by simp⟩
      have counted := files.counted entry.1.job
      have busy : (state.jobs entry.1.job).inflightFiles ≠ 0 := by omega
      simp [JobState.finished, busy]

/-- Every move keeps the books of the jobs. -/
theorem move (books : JobBooks hand state) (base : Base hand state)
    (files : FileBooks hand state lost)
    (moved : Move env slack hand state hand' state') :
    JobBooks hand' state' := by
  have fileChange := moved.files base
  have jobChange := moved.jobs
  obtain ⟨distinct, accepted, outside⟩ := books.lists_of_change jobChange
  refine ⟨distinct, accepted, ?_, active_stays files jobChange
    (books.active_of_change base fileChange), ?_,
    books.failed_of_change files fileChange⟩
  · intro job positive
    rcases begun_of_change base fileChange job positive with before | active
    · obtain ⟨member, absent⟩ := books.begun job before
      exact outside job member absent
    · refine outside job (books.accepted job
        (List.mem_append_right _ active)) fun queued => ?_
      exact (List.nodup_append.mp books.distinct).2.2 _ queued _ active rfl
  · intro job isSet
    rcases set_of_change fileChange job isSet with
      ⟨wasSet, failed, grown⟩ | failed | all | declined | refused
    · rcases books.resolved job wasSet with wasFailed | all | away
      · exact Or.inl (failed wasFailed)
      · exact Or.inr (Or.inl (all.trans grown))
      · exact Or.inr (Or.inr (outside_of_change jobChange away))
    · exact Or.inl failed
    · exact Or.inr (Or.inl all)
    · obtain ⟨held, given, incoming, active, sameAccepted⟩ := declined
      have parts := books.distinct
      simp only [waiting, held, Option.toList_some] at parts
      rw [List.append_assoc, List.nodup_append] at parts
      have inList : job ∈ [job] ++ state.active := List.mem_cons_self
      refine Or.inr (Or.inr ⟨?_, ?_, Or.inl ?_⟩)
      · simp only [waiting, given, incoming, Option.toList_none,
          List.append_nil]
        exact fun member => parts.2.2 _ member _ inList rfl
      · rw [active]
        exact (List.nodup_cons.mp parts.2.1).1
      · rw [sameAccepted]
        refine books.accepted job (List.mem_append_left _ ?_)
        simp [waiting, held]
    · refine Or.inr (Or.inr (outside_of_change jobChange
        ⟨?_, ?_, Or.inr refused.2⟩))
      · exact fun member => refused.1 (books.accepted job
          (List.mem_append_left _ member))
      · exact fun member => refused.1 (books.accepted job
          (List.mem_append_right _ member))

end JobBooks

end PyKvCache.Ledger
