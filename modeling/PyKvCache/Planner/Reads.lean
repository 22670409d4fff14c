import PyKvCache.Planner.Deadlines
import PyKvCache.Planner.ShadowQueue
import PyKvCache.Planner.SharedPrefix

/-!
# What becomes of a read

A read that is done leaves a mark, and the mark survives short absences until
its request is admitted; a request that stays away leaves nothing behind.
-/

namespace PyKvCache.Planner

open PyKvCache.Library PyKvCache.Cost PyKvCache.Scheduler

namespace LoadPlanner

variable {planner : LoadPlanner} {reqId : String}

/-! ## The books of earlier calls -/

/-- The mark of a request once a call has seen who is there. -/
def remembered (present : Prop) [Decidable present] (absent : Nat) :
    Option Nat :=
  if present then
    some 0
  else if stagedAbsenceLimit < absent + 1 then
    none
  else
    some (absent + 1)

theorem retireFrom_staged {now : ℚ} (entries : List Staging) :
    (retireFrom now planner entries).staged.find? reqId =
      if reqId ∈ (entries.takeWhile fun entry => entry.endsAt ≤ now).map
          Staging.reqId then
        some 0
      else
        planner.staged.find? reqId := by
  induction entries generalizing planner with
  | nil => simp [retireFrom]
  | cons entry rest inductionHypothesis =>
      unfold retireFrom
      by_cases finished : entry.endsAt ≤ now
      · rw [if_pos finished, inductionHypothesis,
          List.takeWhile_cons_of_pos (by simpa using finished)]
        simp only [OrderedDict.find?_set, List.map_cons, List.mem_cons]
        by_cases same : reqId = entry.reqId
        · simp [same]
        · simp [same]
      · rw [if_neg finished,
          List.takeWhile_cons_of_neg (by simpa using finished)]
        simp

private theorem gcStagedOf_other {candidateIds : List String}
    {other : String} (different : reqId ≠ other) :
    (planner.gcStagedOf candidateIds other).staged.find? reqId =
      planner.staged.find? reqId := by
  unfold gcStagedOf
  split
  · simp [OrderedDict.find?_set, different]
  simp only
  split
  · simp [OrderedDict.find?_erase, different]
  · simp [OrderedDict.find?_set, different]

private theorem gcStagedOf_same {candidateIds : List String} :
    (planner.gcStagedOf candidateIds reqId).staged.find? reqId =
      remembered (reqId ∈ candidateIds)
        ((planner.staged.find? reqId).getD 0) := by
  unfold gcStagedOf remembered
  split
  · simp [OrderedDict.find?_set]
  simp only
  split
  · simp [OrderedDict.find?_erase]
  · simp [OrderedDict.find?_set]

private theorem foldl_gcStagedOf {candidateIds keys : List String}
    (nodup : keys.Nodup) :
    (keys.foldl (gcStagedOf candidateIds) planner).staged.find? reqId =
      if reqId ∈ keys then
        remembered (reqId ∈ candidateIds)
          ((planner.staged.find? reqId).getD 0)
      else
        planner.staged.find? reqId := by
  induction keys generalizing planner with
  | nil => simp
  | cons key rest inductionHypothesis =>
      obtain ⟨fresh, nodup⟩ := List.nodup_cons.mp nodup
      rw [List.foldl_cons, inductionHypothesis nodup]
      by_cases same : reqId = key
      · subst same
        rw [if_neg fresh, if_pos List.mem_cons_self]
        exact gcStagedOf_same
      · rw [gcStagedOf_other same]
        simp [same]

private theorem gcDeadlines_staged {candidateIds : List String} :
    (planner.gcDeadlines candidateIds).staged = planner.staged := by
  unfold gcDeadlines
  apply List.foldlRecOn (motive := fun after : LoadPlanner =>
    after.staged = planner.staged)
  · rfl
  · intro after same other _
    rw [← same]
    unfold gcDeadlineOf
    split
    · rfl
    simp only
    split <;> rfl

/-- What a call does to a mark before its loop. -/
theorem startCall_staged {now : ℚ} {candidateIds : List String} :
    (planner.startCall now candidateIds).staged.find? reqId =
      ((planner.retireShadowEntries now).staged.find? reqId).bind
        (remembered (reqId ∈ candidateIds)) := by
  have collected := @foldl_gcStagedOf (planner.retireShadowEntries now) reqId
    candidateIds _ (planner.retireShadowEntries now).staged.distinct
  unfold startCall
  rw [gcDeadlines_staged, gcStaged, collected]
  split
  next listed =>
    cases marked : (planner.retireShadowEntries now).staged.find? reqId with
    | none => exact absurd listed (OrderedDict.find?_eq_none_iff.mp marked)
    | some absent => rfl
  next missing =>
    rw [OrderedDict.find?_eq_none_iff.mpr missing]
    rfl

/-! ## A read is honoured -/

/-- The mark of a read that is done, with the calls its request has been
absent from. -/
def Marked (misses : Nat) (reqId : String) (planner : LoadPlanner) : Prop :=
  ∃ absent ≤ misses, planner.staged.find? reqId = some absent

/-- A read that is still outstanding, or the mark it left. -/
def Owed (due : ℚ) (misses : Nat) (reqId : String) (planner : LoadPlanner) :
    Prop :=
  (∃ entry ∈ planner.entries, entry.reqId = reqId ∧ entry.endsAt ≤ due) ∨
    Marked misses reqId planner

section Calls

variable {hash : Type} [DecidableEq hash] {config : Config} {clock due : ℚ}
  {misses : Nat}

/-- The retirement of a read leaves its mark. -/
theorem Owed.retire {now : ℚ} (owed : Owed due misses reqId planner)
    (books : QueueBooks clock planner) :
    Owed due misses reqId (planner.retireShadowEntries now) := by
  have left := @QueueBooks.retire_entries now planner clock books
  have split := List.takeWhile_append_dropWhile
    (p := fun entry : Staging => decide (entry.endsAt ≤ now))
    (l := planner.entries)
  have marks := @retireFrom_staged planner reqId now planner.entries
  have dropped := @retireFrom_entries now planner planner.entries
  change (planner.retireShadowEntries now).staged.find? reqId = _ at marks
  change (planner.retireShadowEntries now).entries = _ at dropped
  rcases owed with ⟨entry, member, same, early⟩ | ⟨absent, few, marked⟩
  · rw [← split, List.mem_append] at member
    rcases member with gone | stays
    · rw [if_pos (List.mem_map.mpr ⟨entry, gone, same⟩)] at marks
      exact Or.inr ⟨0, Nat.zero_le _, marks⟩
    · rw [← dropped] at stays
      exact Or.inl ⟨entry, stays, same, early⟩
  · rw [marked] at marks
    split at marks
    · exact Or.inr ⟨0, Nat.zero_le _, marks⟩
    · exact Or.inr ⟨absent, few, marks⟩

theorem Owed.present {now : ℚ} {candidateIds : List String}
    (owed : Owed due misses reqId planner) (books : QueueBooks clock planner)
    (there : reqId ∈ candidateIds) :
    Owed due 0 reqId (planner.startCall now candidateIds) := by
  have same := @startCall_sameQueue planner candidateIds now
  rcases @Owed.retire _ _ _ _ _ now owed books with
    ⟨entry, member, rest⟩ | ⟨absent, few, marked⟩
  · rw [← same.entries] at member
    exact Or.inl ⟨entry, member, rest⟩
  · refine Or.inr ⟨0, Nat.le_refl 0, ?_⟩
    rw [startCall_staged, marked, Option.bind_some, remembered, if_pos there]

theorem Owed.absent {now : ℚ} {candidateIds : List String}
    (owed : Owed due misses reqId planner) (books : QueueBooks clock planner)
    (gone : reqId ∉ candidateIds) (few : misses < stagedAbsenceLimit) :
    Owed due (misses + 1) reqId (planner.startCall now candidateIds) := by
  have same := @startCall_sameQueue planner candidateIds now
  rcases @Owed.retire _ _ _ _ _ now owed books with
    ⟨entry, member, rest⟩ | ⟨absent, within, marked⟩
  · rw [← same.entries] at member
    exact Or.inl ⟨entry, member, rest⟩
  · refine Or.inr ⟨absent + 1, by omega, ?_⟩
    rw [startCall_staged, marked, Option.bind_some, remembered, if_neg gone,
      if_neg (by omega)]

/-- A turn leaves the mark of a request alone, or admits it. -/
theorem turn_staged {now : ℚ} {pass after : Pass hash}
    {c : CandidateCostInput hash} (taken : Turn config now pass c after) :
    after.planner.staged.find? reqId = pass.planner.staged.find? reqId ∨
      c.reqId = reqId ∧ after.decisions.find? reqId = some ⟨.ADMIT, 0⟩ ∧
        after.planner.staged.find? reqId = none := by
  have admits : ∀ {pass : Pass hash},
      (pass.planner.staged.erase c.reqId).find? reqId =
          pass.planner.staged.find? reqId ∨
        c.reqId = reqId ∧
          (pass.decisions.set c.reqId ⟨.ADMIT, 0⟩).find? reqId =
            some ⟨.ADMIT, 0⟩ ∧
          (pass.planner.staged.erase c.reqId).find? reqId = none := by
    intro pass
    by_cases same : c.reqId = reqId
    · right
      rw [OrderedDict.find?_set, if_pos same.symm, OrderedDict.find?_erase,
        if_pos same.symm]
      exact ⟨same, rfl, rfl⟩
    · left
      rw [OrderedDict.find?_erase, if_neg (Ne.symm same)]
  have arms : ∀ predictedWaitS : ℚ,
      (pass.planner.armDeadline config c.reqId now predictedWaitS).2.staged =
        pass.planner.staged := by
    intro predictedWaitS
    unfold armDeadline
    split <;> rfl
  cases taken with
  | resident | overdue => exact admits
  | redefers | defers =>
      left
      exact congrArg (fun staged => staged.find? reqId) (arms _)
  | rides | reads | full | missing | breakEven | deadline | unaffordable =>
      exact Or.inl rfl

/-- A turn keeps the queue, and puts nobody into it but its candidate. -/
theorem turn_entries {now : ℚ} {pass after : Pass hash}
    {c : CandidateCostInput hash} (taken : Turn config now pass c after) :
    ∃ appended, after.planner.entries = pass.planner.entries ++ appended ∧
      ∀ entry ∈ appended, entry.reqId = c.reqId := by
  have arms : ∀ predictedWaitS : ℚ,
      (pass.planner.armDeadline config c.reqId now predictedWaitS).2.entries =
        pass.planner.entries := fun _ => armDeadline_sameQueue.entries
  have own : ∀ entry : Staging, entry.reqId = c.reqId →
      ∀ other ∈ [entry], other.reqId = c.reqId := by
    intro entry same other member
    rw [List.mem_singleton.mp member]
    exact same
  cases taken with
  | reads => exact ⟨[_], rfl, own _ rfl⟩
  | defers =>
      refine ⟨[_], congrArg (· ++ [_]) (arms _), own _ rfl⟩
  | redefers => exact ⟨[], by rw [List.append_nil]; exact arms _, nofun⟩
  | rides | full | missing | resident | overdue | breakEven | deadline
  | unaffordable => exact ⟨[], (List.append_nil _).symm, nofun⟩

/-- The turn is for the request, and admits it. -/
def AdmitsAt (config : Config) (now : ℚ) (reqId : String)
    (turn : Pass hash × CandidateCostInput hash) : Prop :=
  turn.2.reqId = reqId ∧
    (turn.1.turn config now turn.2).decisions.find? reqId =
      some ⟨.ADMIT, 0⟩

/-- Some turn of a call admits the request. -/
def Admits (config : Config) (planner : LoadPlanner) (call : Call hash)
    (reqId : String) : Prop :=
  ∃ turn ∈ call.turns config planner, AdmitsAt config call.now reqId turn

/-- What every turn keeps that does not admit the request. -/
def Lasting (config : Config) (reqId : String) (hash : Type)
    [DecidableEq hash] (holds : LoadPlanner → Prop) : Prop :=
  ∀ (now : ℚ) (pass : Pass hash) (c : CandidateCostInput hash),
    holds pass.planner →
      holds (pass.turn config now c).planner ∨
        AdmitsAt config now reqId (pass, c)

/-- It holds before every turn and after all of them, unless one of them
admits the request. -/
theorem Lasting.turns {holds : LoadPlanner → Prop}
    (lasting : Lasting config reqId hash holds) {now : ℚ} {pass : Pass hash}
    {candidates : List (CandidateCostInput hash)}
    (start : holds pass.planner)
    (refused : ∀ turn ∈ pass.turns config now candidates,
      ¬ AdmitsAt config now reqId turn) :
    (∀ turn ∈ pass.turns config now candidates, holds turn.1.planner) ∧
      holds (candidates.foldl (Pass.turn config now) pass).planner := by
  induction candidates generalizing pass with
  | nil => exact ⟨nofun, start⟩
  | cons c rest inductionHypothesis =>
      have next := (lasting now pass c start).resolve_right
        (refused (pass, c) List.mem_cons_self)
      obtain ⟨before, after⟩ := inductionHypothesis next
        fun turn later => refused turn (List.mem_cons_of_mem _ later)
      refine ⟨fun turn taken => ?_, after⟩
      rcases List.mem_cons.mp taken with rfl | later
      · exact start
      · exact before turn later

theorem Marked.lasting : Lasting config reqId hash (Marked misses reqId) := by
  rintro now pass c ⟨absent, few, marked⟩
  rcases @turn_staged reqId _ _ _ _ _ _ _ (pass.turn_spec config now c) with
    same | ⟨own, admitted, _⟩
  · exact Or.inl ⟨absent, few, same.trans marked⟩
  · exact Or.inr ⟨own, admitted⟩

theorem Owed.lasting :
    Lasting config reqId hash (Owed due misses reqId) := by
  rintro now pass c (⟨entry, member, rest⟩ | marked)
  · obtain ⟨appended, queue, _⟩ :=
      turn_entries (pass.turn_spec config now c)
    refine Or.inl (Or.inl ⟨entry, ?_, rest⟩)
    rw [queue]
    exact List.mem_append_left _ member
  · exact (Marked.lasting now pass c marked).imp_left Or.inr

/-- A ready candidate with a mark is admitted. -/
theorem turn_of_marked {now : ℚ} {pass : Pass hash}
    {c : CandidateCostInput hash} (ready : c.blockedOnStore = false)
    (filled : c.loadBlocks ≠ 0)
    (marked : pass.planner.staged.contains c.reqId = true) :
    AdmitsAt config now c.reqId (pass, c) := by
  refine ⟨rfl, ?_⟩
  unfold Pass.turn
  rw [if_neg (by simp [ready]), if_neg filled, if_pos (Or.inr marked)]
  exact Pass.find?_answer

/-- What is owed survives any calls that do not admit the request and do not
miss it more than four times in a row; `recent` are the misses right before
them. -/
private theorem Owed.afterCalls
    (nonnegative : ∀ nblocks, 0 ≤ config.tables.serviceSOf nblocks)
    {recent calls : List (Call hash)}
    (missed : ∀ call ∈ recent, reqId ∉ call.candidateIds)
    (owed : Owed due recent.length reqId planner)
    (books : QueueBooks clock planner)
    (ordered : (clock :: calls.map Call.now).Pairwise (· ≤ ·))
    (seen : ∀ missing, missing <:+: recent ++ calls →
      (∀ call ∈ missing, reqId ∉ call.candidateIds) →
        missing.length ≤ stagedAbsenceLimit)
    (refused : ∀ earlier call later, calls = earlier ++ call :: later →
      ¬ Admits config (planner.afterCalls config earlier) call reqId) :
    Owed due stagedAbsenceLimit reqId (planner.afterCalls config calls) ∧
      ∃ clock, QueueBooks clock (planner.afterCalls config calls) := by
  induction calls generalizing planner recent clock with
  | nil =>
      rw [List.append_nil] at seen
      refine ⟨owed.imp_right ?_, clock, books⟩
      rintro ⟨absent, few, marked⟩
      exact ⟨absent, few.trans (seen recent List.infix_rfl missed), marked⟩
  | cons call rest inductionHypothesis =>
      rw [List.map_cons, List.pairwise_cons] at ordered
      have next := (plan_queue nonnegative books
        (ordered.1 call.now List.mem_cons_self)).1
      have here : ∀ turn ∈ call.turns config planner,
          ¬ AdmitsAt config call.now reqId turn := fun turn taken admits =>
        refused [] call rest rfl ⟨turn, taken, admits⟩
      have later : ∀ earlier other after,
          rest = earlier ++ other :: after →
          ¬ Admits config ((planner.plan config call).2.afterCalls config
            earlier) other reqId := fun earlier other after split =>
        refused (call :: earlier) other after (by rw [split]; rfl)
      by_cases there : reqId ∈ call.candidateIds
      · have started : Owed due 0 reqId (call.start config planner).planner :=
          owed.present books there
        have none : ∀ other ∈ ([] : List (Call hash)),
            reqId ∉ other.candidateIds := nofun
        refine inductionHypothesis none (Owed.lasting.turns started here).2
          next ordered.2 (fun missing within => ?_) later
        exact seen missing ((List.infix_cons within).trans
          (List.suffix_append recent (call :: rest)).isInfix)
      · have grown : recent ++ call :: rest = (recent ++ [call]) ++ rest := by
          rw [List.append_assoc, List.singleton_append]
        rw [grown] at seen
        have missedToo : ∀ other ∈ recent ++ [call],
            reqId ∉ other.candidateIds := by
          intro other member
          rcases List.mem_append.mp member with old | new
          · exact missed other old
          · rwa [List.mem_singleton.mp new]
        have few := seen (recent ++ [call])
          (List.prefix_append (recent ++ [call]) rest).isInfix missedToo
        rw [List.length_append, List.length_singleton] at few
        have started : Owed due (recent.length + 1) reqId
            (call.start config planner).planner := owed.absent books there few
        refine inductionHypothesis missedToo ?_ next ordered.2 seen later
        rw [List.length_append, List.length_singleton]
        exact (Owed.lasting.turns started here).2

/-- Among distinct requests the answer of a turn is the answer of the call. -/
theorem answer_stays {now : ℚ} {pass before : Pass hash}
    {candidates : List (CandidateCostInput hash)}
    {c : CandidateCostInput hash}
    (distinct : (candidates.map CandidateCostInput.reqId).Nodup)
    (taken : (before, c) ∈ pass.turns config now candidates) :
    (candidates.foldl (Pass.turn config now) pass).decisions.find? c.reqId =
      (before.turn config now c).decisions.find? c.reqId := by
  induction candidates generalizing pass with
  | nil => cases taken
  | cons first rest inductionHypothesis =>
      rw [List.map_cons, List.nodup_cons] at distinct
      rcases List.mem_cons.mp taken with same | later
      · cases same
        exact decisions_of_absent distinct.1
      · exact inductionHypothesis distinct.2 later

theorem Reaches.queueBooks
    (nonnegative : ∀ nblocks, 0 ≤ config.tables.serviceSOf nblocks)
    (reached : Reaches hash config clock planner) :
    QueueBooks clock planner := by
  induction reached with
  | init clock => exact .init clock
  | plan reached call ordered inductionHypothesis =>
      exact (plan_queue nonnegative inductionHypothesis ordered).1
  | reset reached inductionHypothesis => exact .init _

/-- A speculative read is not wasted: once it is due, the next call in which
its request is a candidate that is ready and can load blocks admits it, in any
run of calls that do not admit it earlier and do not miss it more than four
times in a row. -/
theorem reads_honoured
    (nonnegative : ∀ nblocks, 0 ≤ config.tables.serviceSOf nblocks)
    (reached : Reaches hash config clock planner) (read : Staging)
    (outstanding : read ∈ planner.entries) (between : List (Call hash))
    (last : Call hash)
    (ordered : (clock :: (between ++ [last]).map Call.now).Pairwise (· ≤ ·))
    (seen : ∀ missing, missing <:+: between →
      (∀ call ∈ missing, read.reqId ∉ call.candidateIds) →
        missing.length ≤ 4)
    (refused : ∀ earlier call later, between = earlier ++ call :: later →
      ¬ Admits config (planner.afterCalls config earlier) call read.reqId)
    (due : read.endsAt ≤ last.now)
    (there : read.reqId ∈ last.candidateIds)
    (ready : ∀ c ∈ last.candidates, c.reqId = read.reqId →
      c.blockedOnStore = false ∧ c.loadBlocks ≠ 0) :
    Admits config (planner.afterCalls config between) last read.reqId ∧
      (last.candidateIds.Nodup →
        ((planner.afterCalls config between).plan config last).1.find?
          read.reqId = some ⟨.ADMIT, 0⟩) := by
  have owed : Owed read.endsAt 0 read.reqId planner :=
    Or.inl ⟨read, outstanding, rfl, le_refl _⟩
  have apart : (clock :: between.map Call.now).Pairwise (· ≤ ·) := by
    rw [List.map_append] at ordered
    exact (List.pairwise_append.mp ordered).1
  have none : ∀ call ∈ ([] : List (Call hash)),
      read.reqId ∉ call.candidateIds := nofun
  obtain ⟨still, now, books⟩ := Owed.afterCalls nonnegative none owed
    (reached.queueBooks nonnegative) apart seen refused
  obtain ⟨before, isBefore⟩ : ∃ before,
      planner.afterCalls config between = before := ⟨_, rfl⟩
  rw [isBefore] at still books ⊢
  -- when the last call is made the read is done, so the mark is there
  have marked : Marked 0 read.reqId (last.start config before).planner := by
    refine (still.present books there).resolve_left ?_
    rintro ⟨entry, member, _, early⟩
    change entry ∈ (before.startCall last.now last.candidateIds).entries
      at member
    rw [startCall_sameQueue.entries, books.retire_entries,
      List.mem_filter] at member
    exact absurd (of_decide_eq_true member.2) (not_lt.mpr (early.trans due))
  have admitted : Admits config before last read.reqId := by
    by_contra refusedToo
    obtain ⟨c, listed, same⟩ := List.mem_map.mp there
    obtain ⟨pass, taken⟩ := @Pass.exists_turn hash _ config last.now
      (last.start config before) _ c listed
    obtain ⟨absent, _, found⟩ := (Marked.lasting.turns marked
      fun turn listed admits => refusedToo ⟨turn, listed, admits⟩).1 _ taken
    have unblocked := ready c listed same
    rw [← same] at found refusedToo
    exact refusedToo ⟨_, taken, turn_of_marked unblocked.1 unblocked.2
      (OrderedDict.contains_iff.mpr ⟨absent, found⟩)⟩
  refine ⟨admitted, fun distinct => ?_⟩
  obtain ⟨⟨pass, c⟩, taken, same, answered⟩ := admitted
  rw [← answered, ← same]
  exact answer_stays distinct taken

/-! ## A request is forgotten -/

/-- The planner knows nothing of a request. -/
structure Forgotten (reqId : String) (planner : LoadPlanner) : Prop where
  entries : ∀ entry ∈ planner.entries, entry.reqId ≠ reqId
  stagingByReq : planner.stagingByReq.find? reqId = none
  staged : planner.staged.find? reqId = none
  deadlineAt : planner.deadlineAt.find? reqId = none
  deadlineAbsent : planner.deadlineAbsent.find? reqId = none
  decisions : planner.decisions.find? reqId = none

/-- What is left of a request that has missed so many calls; only before the
first of them can a read of it be in the queue. -/
structure Fading (due : ℚ) (misses : Nat) (reqId : String)
    (planner : LoadPlanner) : Prop where
  queue : ∀ entry ∈ planner.entries, entry.reqId = reqId →
    misses = 0 ∧ entry.endsAt ≤ due
  staged : ∀ absent, planner.staged.find? reqId = some absent →
    misses ≤ absent ∧ (misses = 0 ∨ absent ≤ stagedAbsenceLimit)
  deadline : ∀ deadline, planner.deadlineAt.find? reqId = some deadline →
    misses ≤ (planner.deadlineAbsent.find? reqId).getD 0 ∧
      (misses = 0 ∨ (planner.deadlineAbsent.find? reqId).getD 0 ≤
        stagedAbsenceLimit)

theorem turn_deadlineOf_other {now : ℚ} {pass after : Pass hash}
    {c : CandidateCostInput hash} (taken : Turn config now pass c after)
    (other : c.reqId ≠ reqId) :
    after.planner.deadlineOf reqId = pass.planner.deadlineOf reqId := by
  have arms : ∀ predictedWaitS : ℚ,
      (pass.planner.armDeadline config c.reqId now
        predictedWaitS).2.deadlineOf reqId =
          pass.planner.deadlineOf reqId := by
    intro predictedWaitS
    unfold armDeadline
    split
    · rfl
    · simp [deadlineOf, OrderedDict.find?_set, Ne.symm other]
  cases taken with
  | redefers | defers => exact arms _
  | rides | reads | full | missing | resident | overdue | breakEven
  | deadline | unaffordable => rfl

theorem Fading.turn {now : ℚ} {pass after : Pass hash}
    {c : CandidateCostInput hash}
    (fading : Fading due misses reqId pass.planner)
    (taken : Turn config now pass c after) (other : c.reqId ≠ reqId) :
    Fading due misses reqId after.planner := by
  obtain ⟨appended, queue, own⟩ := turn_entries taken
  have deadlines := Prod.mk.inj (turn_deadlineOf_other taken other)
  constructor
  · intro entry member same
    rw [queue, List.mem_append] at member
    rcases member with old | new
    · exact fading.queue entry old same
    · exact absurd ((own entry new).symm.trans same) other
  · rcases @turn_staged reqId _ _ _ _ _ _ _ taken with same | ⟨own, _⟩
    · rw [same]
      exact fading.staged
    · exact absurd own other
  · rw [deadlines.1, deadlines.2]
    exact fading.deadline

theorem Fading.startCall (fading : Fading due misses reqId planner)
    (books : QueueBooks clock planner) {now : ℚ}
    {candidateIds : List String} (done : due ≤ now)
    (missed : reqId ∉ candidateIds) :
    Fading due (misses + 1) reqId
      (planner.startCall now candidateIds) := by
  have marks := @retireFrom_staged planner reqId now planner.entries
  change (planner.retireShadowEntries now).staged.find? reqId = _ at marks
  constructor
  · intro entry member same
    rw [startCall_sameQueue.entries, books.retire_entries,
      List.mem_filter] at member
    have late := of_decide_eq_true member.2
    have early := (fading.queue entry member.1 same).2
    exact absurd late (not_lt.mpr (early.trans done))
  · intro absent found
    rw [startCall_staged, Option.bind_eq_some_iff] at found
    obtain ⟨before, marked, counted⟩ := found
    unfold remembered at counted
    rw [if_neg missed] at counted
    split at counted
    next => cases counted
    next few =>
      cases counted
      have earlier : misses ≤ before := by
        rw [marks] at marked
        split at marked
        next gone =>
          obtain ⟨entry, listed, same⟩ := List.mem_map.mp gone
          have first := (fading.queue entry
            ((List.takeWhile_sublist _).subset listed) same).1
          omega
        next => exact (fading.staged before marked).1
      omega
  · have aged := @startCall_deadlineOf planner reqId now candidateIds
    intro deadline found
    unfold deadlineOf at aged
    cases armed : planner.deadlineAt.find? reqId with
    | none =>
        rw [armed] at aged
        rw [(Prod.mk.inj aged).1] at found
        cases found
    | some before =>
        have counted := (fading.deadline before armed).1
        rw [armed, LoadPlanner.aged, if_neg missed] at aged
        split at aged
        next =>
          rw [(Prod.mk.inj aged).1] at found
          cases found
        next few =>
          rw [(Prod.mk.inj aged).2, Option.getD_some]
          omega

/-- A call that misses the request. -/
theorem Fading.plan (fading : Fading due misses reqId planner)
    (books : QueueBooks clock planner) {call : Call hash}
    (done : due ≤ call.now) (missed : reqId ∉ call.candidateIds) :
    Fading due (misses + 1) reqId (planner.plan config call).2 := by
  have looped := (@Pass.turns_invariant hash _ config call.now
    (fun pass => Fading due (misses + 1) reqId pass.planner)
    (call.start config planner) call.candidates
    (fun _ _ c listed taken kept => kept.turn taken fun same =>
      missed (List.mem_map.mpr ⟨c, listed, same⟩))
    (fading.startCall books done missed)).2
  exact ⟨looped.queue, looped.staged, looped.deadline⟩

theorem Reaches.afterCalls (reached : Reaches hash config clock planner)
    {calls : List (Call hash)}
    (ordered : (clock :: calls.map Call.now).Pairwise (· ≤ ·)) :
    ∃ clock, Reaches hash config clock (planner.afterCalls config calls) := by
  induction calls generalizing planner clock with
  | nil => exact ⟨clock, reached⟩
  | cons call rest inductionHypothesis =>
      rw [List.map_cons, List.pairwise_cons] at ordered
      exact inductionHypothesis
        (reached.plan call (ordered.1 call.now List.mem_cons_self)) ordered.2

private theorem Fading.afterCalls
    (nonnegative : ∀ nblocks, 0 ≤ config.tables.serviceSOf nblocks)
    (fading : Fading due misses reqId planner)
    (books : QueueBooks clock planner) {calls : List (Call hash)}
    (ordered : (clock :: calls.map Call.now).Pairwise (· ≤ ·))
    (done : ∀ call ∈ calls, due ≤ call.now)
    (missed : ∀ call ∈ calls, reqId ∉ call.candidateIds) :
    Fading due (misses + calls.length) reqId
      (planner.afterCalls config calls) := by
  induction calls generalizing planner clock misses with
  | nil => exact fading
  | cons call rest inductionHypothesis =>
      rw [List.map_cons, List.pairwise_cons] at ordered
      rw [List.length_cons, Nat.add_comm rest.length, ← Nat.add_assoc]
      exact inductionHypothesis
        (fading.plan books (done call List.mem_cons_self)
          (missed call List.mem_cons_self))
        (plan_queue nonnegative books
          (ordered.1 call.now List.mem_cons_self)).1 ordered.2
        (fun other later => done other (List.mem_cons_of_mem _ later))
        fun other later => missed other (List.mem_cons_of_mem _ later)

/-- A request that stays away from five calls in a row, none of them before
its read is due, leaves nothing behind. -/
theorem absent_forgotten
    (nonnegative : ∀ nblocks, 0 ≤ config.tables.serviceSOf nblocks)
    (reached : Reaches hash config clock planner) (calls : List (Call hash))
    (ordered : (clock :: calls.map Call.now).Pairwise (· ≤ ·))
    (done : ∀ read ∈ planner.entries, read.reqId = reqId →
      ∀ call ∈ calls, read.endsAt ≤ call.now)
    (missed : ∀ call ∈ calls, reqId ∉ call.candidateIds)
    (five : 5 ≤ calls.length) :
    Forgotten reqId (planner.afterCalls config calls) := by
  obtain ⟨first, rest, isCalls⟩ := List.exists_cons_of_ne_nil
    (show calls ≠ [] from by
      rintro rfl
      simp at five)
  have later : ∀ call ∈ calls, first.now ≤ call.now := by
    rw [isCalls, List.map_cons, List.pairwise_cons, List.pairwise_cons]
      at ordered
    rw [isCalls]
    intro call member
    rcases List.mem_cons.mp member with rfl | further
    · exact le_refl _
    · exact ordered.2.1 _ (List.mem_map_of_mem further)
  have start : Fading first.now 0 reqId planner := by
    refine ⟨fun read member same => ⟨rfl, done read member same first ?_⟩,
      fun _ _ => ⟨Nat.zero_le _, Or.inl rfl⟩,
      fun _ _ => ⟨Nat.zero_le _, Or.inl rfl⟩⟩
    rw [isCalls]
    exact List.mem_cons_self
  have faded : Fading first.now (0 + calls.length) reqId
      (planner.afterCalls config calls) :=
    start.afterCalls nonnegative (reached.queueBooks nonnegative) ordered
      later missed
  obtain ⟨now, still⟩ := reached.afterCalls ordered
  have books := still.queueBooks nonnegative
  have away : ∀ entry ∈ (planner.afterCalls config calls).entries,
      entry.reqId ≠ reqId := by
    intro entry member same
    have none := (faded.queue entry member same).1
    omega
  have unarmed : (planner.afterCalls config calls).deadlineAt.find? reqId =
      none := by
    rw [Option.eq_none_iff_forall_ne_some]
    intro deadline found
    have bounds := faded.deadline deadline found
    unfold stagedAbsenceLimit at bounds
    omega
  refine ⟨away, ?_, ?_, unarmed, still.deadlineBooks.paired reqId unarmed,
    ?_⟩
  · rw [Option.eq_none_iff_forall_ne_some]
    intro entry found
    obtain ⟨member, same⟩ := (books.indexed reqId entry).mp found
    exact away entry member same
  · rw [Option.eq_none_iff_forall_ne_some]
    intro absent found
    have bounds := faded.staged absent found
    unfold stagedAbsenceLimit at bounds
    omega
  · obtain ⟨initial, last, isLast⟩ : ∃ initial last,
        calls = initial ++ [last] := by
      exact ⟨calls.dropLast, calls.getLast (by rw [isCalls]; nofun),
        (List.dropLast_append_getLast _).symm⟩
    have gone := missed last (by
      rw [isLast]
      exact List.mem_append_right _ List.mem_cons_self)
    unfold LoadPlanner.afterCalls
    rw [isLast, List.foldl_append]
    exact decisions_of_absent gone

end Calls

section Examples

/-- A request whose two blocks are read ahead until the fourth second. -/
def reading : LoadPlanner :=
  (init.plan sampleConfig ⟨0, [sampleCandidate "a" [1, 2]], []⟩).2

theorem reading_reached : Reaches Nat sampleConfig 0 reading :=
  (Reaches.init 0).plan ⟨0, [sampleCandidate "a" [1, 2]], []⟩ (le_refl 0)

/-- The request is away for a call, and is admitted when it is back. -/
theorem reading_honoured :
    (((reading.plan sampleConfig (⟨1, [], []⟩ : Call Nat)).2).plan
      sampleConfig ⟨5, [sampleCandidate "a" [1, 2]], []⟩).1.find? "a" =
        some ⟨.ADMIT, 0⟩ := by
  have honoured := reads_honoured sampleConfig_nonnegative.service
    reading_reached ⟨"a", 4, 0, 4, 2⟩ (by decide +kernel) [⟨1, [], []⟩]
    ⟨5, [sampleCandidate "a" [1, 2]], []⟩ (by decide +kernel)
    (fun missing within _ => within.length_le.trans (by decide))
    (by
      intro earlier call later split
      rintro ⟨turn, taken, _⟩
      cases earlier with
      | nil =>
          cases split
          cases taken
      | cons first rest => simp at split)
    (by decide +kernel) (by decide +kernel) (by decide +kernel)
  exact honoured.2 (by decide +kernel)

/-- The request does not come back after its read. -/
theorem reading_forgotten :
    Forgotten "a" (reading.afterCalls sampleConfig
      (List.replicate 5 (⟨9, [], []⟩ : Call Nat))) :=
  absent_forgotten sampleConfig_nonnegative.service reading_reached _
    (by decide +kernel) (by decide +kernel) (by decide +kernel) (by decide)

end Examples

end LoadPlanner

end PyKvCache.Planner
