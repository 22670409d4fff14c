import PyKvCache.Planner.Turn

/-!
# Deadlines

A deferral starts a clock.  The deadline survives deferrals, retirements and
short absences, and once it has passed the request is not deferred again.
-/

namespace PyKvCache.Planner

open PyKvCache.Library PyKvCache.Cost PyKvCache.Scheduler

namespace LoadPlanner

variable {planner : LoadPlanner} {reqId : String}

/-- The deadline of a request, and the calls it has been absent from. -/
def deadlineOf (planner : LoadPlanner) (reqId : String) :
    Option ℚ × Option Nat :=
  (planner.deadlineAt.find? reqId, planner.deadlineAbsent.find? reqId)

/-- The deadline of a request once a call has seen who is there. -/
def aged (present : Prop) [Decidable present] :
    Option ℚ × Option Nat → Option ℚ × Option Nat
  | (none, absent) => (none, absent)
  | (some deadline, absent) =>
      if present then
        (some deadline, none)
      else if stagedAbsenceLimit < absent.getD 0 + 1 then
        (none, none)
      else
        (some deadline, some (absent.getD 0 + 1))

/-! ## The books of earlier calls -/

private theorem retireFrom_deadlineOf {now : ℚ} (entries : List Staging) :
    (retireFrom now planner entries).deadlineOf reqId =
      planner.deadlineOf reqId := by
  induction entries generalizing planner with
  | nil => rfl
  | cons entry rest inductionHypothesis =>
      unfold retireFrom
      split
      · rw [inductionHypothesis]
        rfl
      · rfl

private theorem gcStaged_deadlineOf {candidateIds : List String} :
    (planner.gcStaged candidateIds).deadlineOf reqId =
      planner.deadlineOf reqId := by
  unfold gcStaged
  apply List.foldlRecOn (motive := fun after : LoadPlanner =>
    after.deadlineOf reqId = planner.deadlineOf reqId)
  · rfl
  · intro after same other _
    rw [← same]
    unfold gcStagedOf
    split
    · rfl
    simp only
    split <;> rfl

private theorem gcDeadlineOf_other {candidateIds : List String}
    {other : String} (different : reqId ≠ other) :
    (planner.gcDeadlineOf candidateIds other).deadlineOf reqId =
      planner.deadlineOf reqId := by
  unfold gcDeadlineOf
  split
  · simp [deadlineOf, OrderedDict.find?_erase, different]
  simp only
  split
  · simp [deadlineOf, OrderedDict.find?_erase, different]
  · simp [deadlineOf, OrderedDict.find?_set, different]

private theorem gcDeadlineOf_same {candidateIds : List String}
    (armed : planner.deadlineAt.find? reqId ≠ none) :
    (planner.gcDeadlineOf candidateIds reqId).deadlineOf reqId =
      aged (reqId ∈ candidateIds) (planner.deadlineOf reqId) := by
  obtain ⟨deadline, found⟩ := Option.ne_none_iff_exists'.mp armed
  unfold gcDeadlineOf deadlineOf aged
  rw [found]
  simp only
  split
  · simp [OrderedDict.find?_erase, found]
  · split
    · simp [OrderedDict.find?_erase]
    · simp [OrderedDict.find?_set, found]

private theorem foldl_gcDeadlineOf {candidateIds keys : List String}
    (nodup : keys.Nodup) (armed : ∀ key ∈ keys,
      planner.deadlineAt.find? key ≠ none) :
    (keys.foldl (gcDeadlineOf candidateIds) planner).deadlineOf reqId =
      if reqId ∈ keys then
        aged (reqId ∈ candidateIds) (planner.deadlineOf reqId)
      else
        planner.deadlineOf reqId := by
  induction keys generalizing planner with
  | nil => simp
  | cons key rest inductionHypothesis =>
      obtain ⟨fresh, nodup⟩ := List.nodup_cons.mp nodup
      have still : ∀ later ∈ rest,
          (planner.gcDeadlineOf candidateIds key).deadlineAt.find? later ≠
            none := by
        intro later member
        have different : later ≠ key := by
          rintro rfl
          exact fresh member
        have same := @gcDeadlineOf_other planner later candidateIds _
          different
        have found := armed later (List.mem_cons_of_mem _ member)
        intro gone
        exact found ((congrArg Prod.fst same).symm.trans gone)
      rw [List.foldl_cons, inductionHypothesis nodup still]
      by_cases same : reqId = key
      · subst same
        rw [if_neg fresh, if_pos List.mem_cons_self]
        exact gcDeadlineOf_same (armed reqId List.mem_cons_self)
      · rw [gcDeadlineOf_other same]
        simp [same]

/-- What a call does to a deadline before its loop. -/
theorem startCall_deadlineOf {now : ℚ} {candidateIds : List String} :
    (planner.startCall now candidateIds).deadlineOf reqId =
      aged (reqId ∈ candidateIds) (planner.deadlineOf reqId) := by
  have before : ∀ other, ((planner.retireShadowEntries now).gcStaged
      candidateIds).deadlineOf other = planner.deadlineOf other := by
    intro other
    rw [gcStaged_deadlineOf]
    exact retireFrom_deadlineOf _
  have collected := @foldl_gcDeadlineOf
    ((planner.retireShadowEntries now).gcStaged candidateIds) reqId
    candidateIds _ (OrderedDict.distinct _) (by
      intro key member gone
      exact OrderedDict.find?_eq_none_iff.mp gone member)
  unfold startCall gcDeadlines
  rw [collected, before]
  split
  · rfl
  next missing =>
    have unarmed : (planner.deadlineOf reqId).1 = none := by
      rw [← before]
      exact OrderedDict.find?_eq_none_iff.mpr missing
    change planner.deadlineAt.find? reqId = none at unarmed
    rw [deadlineOf, unarmed]
    rfl

/-! ## The turns -/

section Turns

variable {hash : Type} [DecidableEq hash] {config : Config} {now : ℚ}
  {pass after : Pass hash} {c : CandidateCostInput hash}

theorem armDeadline_deadlineOf {predictedWaitS : ℚ} (other : String) :
    (planner.armDeadline config other now predictedWaitS).2.deadlineOf
        reqId = planner.deadlineOf reqId ∨
      planner.deadlineAt.find? reqId = none ∧
        ∃ deadline ≤ now + config.deferDeadlineMaxS,
          (planner.armDeadline config other now
              predictedWaitS).2.deadlineOf reqId =
            (some deadline, planner.deadlineAbsent.find? reqId) := by
  unfold armDeadline
  split
  next => exact Or.inl rfl
  next unarmed =>
    by_cases same : reqId = other
    · subst same
      refine Or.inr ⟨unarmed, _, ?_, by
        simp only [deadlineOf, OrderedDict.find?_set, if_pos]
        rfl⟩
      exact add_le_add_right (min_le_left _ _) now
    · left
      simp [deadlineOf, OrderedDict.find?_set, same]

/-- A turn arms a deadline or leaves all of them as they are. -/
theorem turn_deadlineOf (taken : Turn config now pass c after) :
    after.planner.deadlineOf reqId = pass.planner.deadlineOf reqId ∨
      pass.planner.deadlineAt.find? reqId = none ∧
        ∃ deadline ≤ now + config.deferDeadlineMaxS,
          after.planner.deadlineOf reqId =
            (some deadline, pass.planner.deadlineAbsent.find? reqId) := by
  cases taken with
  | redefers | defers => exact armDeadline_deadlineOf c.reqId
  | rides | reads | full | missing | resident | overdue | breakEven
  | deadline | unaffordable => exact Or.inl rfl

/-- No turn counts an absence. -/
theorem turn_deadlineAbsent (taken : Turn config now pass c after) :
    after.planner.deadlineAbsent.find? reqId =
      pass.planner.deadlineAbsent.find? reqId := by
  rcases @turn_deadlineOf reqId _ _ _ _ _ _ _ taken with
    same | ⟨_, _, _, set⟩
  · exact (Prod.mk.inj same).2
  · exact (Prod.mk.inj set).2

/-- A deferral that is not for a store has a deadline. -/
theorem turn_defers (taken : Turn config now pass c after)
    (ready : c.blockedOnStore = false) {result : PlanResult}
    (answered : after.decisions.find? c.reqId = some result)
    (deferred : result.decision = .DEFER) :
    ¬ pass.planner.expired c.reqId now ∧
      after.planner.deadlineAt.find? c.reqId ≠ none := by
  have armed : ∀ predictedWaitS : ℚ,
      (pass.planner.armDeadline config c.reqId now
        predictedWaitS).2.deadlineAt.find? c.reqId ≠ none := by
    intro predictedWaitS
    unfold armDeadline
    split
    next found => simp [found]
    next => simp [OrderedDict.find?_set]
  cases taken with
  | rides _ blocked | reads blocked | full blocked =>
      rw [ready] at blocked
      cases blocked
  | redefers _ _ _ early => exact ⟨early, armed _⟩
  | defers _ _ early => exact ⟨early, armed _⟩
  | missing | resident | overdue | breakEven | deadline | unaffordable =>
      rw [Pass.find?_answer] at answered
      cases answered
      cases deferred

end Turns

/-! ## Runs -/

/-- What a run of `plan` and `reset` with a clock that does not go back gets
to. -/
inductive Reaches (hash : Type) [DecidableEq hash] (config : Config) :
    ℚ → LoadPlanner → Prop
  | init (clock : ℚ) : Reaches hash config clock .init
  | plan {clock : ℚ} {planner : LoadPlanner}
      (reached : Reaches hash config clock planner) (call : Call hash)
      (ordered : clock ≤ call.now) :
      Reaches hash config call.now (planner.plan config call).2
  | reset {clock : ℚ} {planner : LoadPlanner}
      (reached : Reaches hash config clock planner) :
      Reaches hash config clock planner.reset

/-- No deadline is further away than the longest deferral, and only what has a
deadline is counted absent. -/
structure DeadlineBooks (config : Config) (clock : ℚ)
    (planner : LoadPlanner) : Prop where
  bounded : ∀ reqId deadline, planner.deadlineAt.find? reqId = some deadline →
    deadline ≤ clock + config.deferDeadlineMaxS
  paired : ∀ reqId, planner.deadlineAt.find? reqId = none →
    planner.deadlineAbsent.find? reqId = none

section Runs

variable {hash : Type} [DecidableEq hash] {config : Config} {clock : ℚ}

private theorem DeadlineBooks.startCall {now : ℚ}
    {candidateIds : List String} (books : DeadlineBooks config clock planner)
    (ordered : clock ≤ now) :
    DeadlineBooks config now (planner.startCall now candidateIds) := by
  have each := fun other =>
    @startCall_deadlineOf planner other now candidateIds
  have longer : clock + config.deferDeadlineMaxS ≤
      now + config.deferDeadlineMaxS :=
    add_le_add_left ordered _
  constructor
  · intro other deadline found
    have aged := congrArg Prod.fst (each other)
    change (planner.startCall now candidateIds).deadlineAt.find? other = _
      at aged
    rw [found] at aged
    unfold deadlineOf LoadPlanner.aged at aged
    cases before : planner.deadlineAt.find? other with
    | none =>
        rw [before] at aged
        cases aged
    | some earlier =>
        have close := (books.bounded other earlier before).trans longer
        rw [before] at aged
        simp only at aged
        split at aged
        · cases aged
          exact close
        split at aged
        · cases aged
        · cases aged
          exact close
  · intro other gone
    have aged := each other
    unfold deadlineOf LoadPlanner.aged at aged
    rw [gone] at aged
    cases before : planner.deadlineAt.find? other with
    | none =>
        rw [before] at aged
        simp only [Prod.mk.injEq, true_and] at aged
        rw [aged]
        exact books.paired other before
    | some earlier =>
        rw [before] at aged
        simp only at aged
        split at aged
        · cases aged
        split at aged
        · exact (Prod.mk.inj aged).2
        · cases aged

private theorem DeadlineBooks.turn {now : ℚ} {pass after : Pass hash}
    {c : CandidateCostInput hash}
    (books : DeadlineBooks config now pass.planner)
    (taken : Turn config now pass c after) :
    DeadlineBooks config now after.planner := by
  constructor
  · intro reqId deadline found
    rcases @turn_deadlineOf reqId _ _ _ _ _ _ _ taken with
      same | ⟨_, armed, close, set⟩
    · rw [(Prod.mk.inj same).1] at found
      exact books.bounded reqId deadline found
    · rw [(Prod.mk.inj set).1] at found
      cases found
      exact close
  · intro reqId gone
    rcases @turn_deadlineOf reqId _ _ _ _ _ _ _ taken with
      same | ⟨_, armed, _, set⟩
    · rw [(Prod.mk.inj same).1] at gone
      rw [(Prod.mk.inj same).2]
      exact books.paired reqId gone
    · rw [(Prod.mk.inj set).1] at gone
      cases gone

private theorem DeadlineBooks.turns
    (books : DeadlineBooks config clock planner) {call : Call hash}
    (ordered : clock ≤ call.now) :
    (∀ turn ∈ call.turns config planner,
      DeadlineBooks config call.now turn.1.planner) ∧
      DeadlineBooks config call.now (planner.plan config call).2 := by
  have started : DeadlineBooks config call.now
      (call.start config planner).planner := books.startCall ordered
  have looped := @Pass.turns_invariant hash _ config call.now
    (fun pass => DeadlineBooks config call.now pass.planner) _
    call.candidates (fun _ _ _ _ taken kept => kept.turn taken) started
  exact ⟨looped.1, looped.2.bounded, looped.2.paired⟩

theorem Reaches.deadlineBooks
    (reached : Reaches hash config clock planner) :
    DeadlineBooks config clock planner := by
  have fresh : ∀ clock, DeadlineBooks config clock .init := by
    intro clock
    constructor
    · intro reqId deadline found
      cases found
    · intro reqId gone
      rfl
  induction reached with
  | init clock => exact fresh clock
  | plan reached call ordered inductionHypothesis =>
      exact (inductionHypothesis.turns ordered).2
  | reset reached inductionHypothesis => exact fresh _

/-- A request with a deadline that is not too late, and the calls it has been
absent from. -/
def Armed (latest : ℚ) (misses : Nat) (reqId : String)
    (planner : LoadPlanner) : Prop :=
  ∃ deadline ≤ latest, planner.deadlineAt.find? reqId = some deadline ∧
    (planner.deadlineAbsent.find? reqId).getD 0 ≤ misses

variable {latest : ℚ} {misses : Nat}

private theorem Armed.turn {now : ℚ} {pass after : Pass hash}
    {c : CandidateCostInput hash}
    (armed : Armed latest misses reqId pass.planner)
    (taken : Turn config now pass c after) :
    Armed latest misses reqId after.planner := by
  obtain ⟨deadline, close, found, few⟩ := armed
  rcases @turn_deadlineOf reqId _ _ _ _ _ _ _ taken with
    same | ⟨unarmed, _⟩
  · refine ⟨deadline, close, ?_, ?_⟩
    · rw [(Prod.mk.inj same).1, found]
    · rw [(Prod.mk.inj same).2]
      exact few
  · rw [found] at unarmed
    cases unarmed

/-- The turns of a call keep a deadline. -/
theorem Armed.turns {call : Call hash}
    (armed : Armed latest misses reqId (call.start config planner).planner) :
    (∀ turn ∈ call.turns config planner,
      Armed latest misses reqId turn.1.planner) ∧
      Armed latest misses reqId (planner.plan config call).2 :=
  @Pass.turns_invariant hash _ config call.now
    (fun pass => Armed latest misses reqId pass.planner) _ call.candidates
    (fun _ _ _ _ taken kept => kept.turn taken) armed

/-- A request that is there keeps its deadline. -/
theorem Armed.present {now : ℚ} {candidateIds : List String}
    (armed : Armed latest misses reqId planner)
    (there : reqId ∈ candidateIds) :
    Armed latest 0 reqId (planner.startCall now candidateIds) := by
  obtain ⟨deadline, close, found, _⟩ := armed
  have aged := @startCall_deadlineOf planner reqId now candidateIds
  rw [deadlineOf, deadlineOf, found, LoadPlanner.aged, if_pos there] at aged
  refine ⟨deadline, close, (Prod.mk.inj aged).1, ?_⟩
  rw [(Prod.mk.inj aged).2]
  exact le_refl 0

/-- A request that has not been absent for long keeps its deadline. -/
theorem Armed.absent {now : ℚ} {candidateIds : List String}
    (armed : Armed latest misses reqId planner)
    (gone : reqId ∉ candidateIds) (few : misses < stagedAbsenceLimit) :
    Armed latest (misses + 1) reqId (planner.startCall now candidateIds) := by
  obtain ⟨deadline, close, found, counted⟩ := armed
  have aged := @startCall_deadlineOf planner reqId now candidateIds
  rw [deadlineOf, deadlineOf, found, LoadPlanner.aged, if_neg gone,
    if_neg (by omega)] at aged
  refine ⟨deadline, close, (Prod.mk.inj aged).1, ?_⟩
  rw [(Prod.mk.inj aged).2]
  exact Nat.succ_le_succ counted

/-- The planner after some calls. -/
def afterCalls (config : Config) (planner : LoadPlanner)
    (calls : List (Call hash)) : LoadPlanner :=
  calls.foldl (fun planner call => (planner.plan config call).2) planner

/-- A deadline survives any calls that do not miss the request more than four
times in a row; `recent` are the misses right before them. -/
private theorem Armed.afterCalls {recent calls : List (Call hash)}
    (missed : ∀ call ∈ recent, reqId ∉ call.candidateIds)
    (armed : Armed latest recent.length reqId planner)
    (seen : ∀ missing, missing <:+: recent ++ calls →
      (∀ call ∈ missing, reqId ∉ call.candidateIds) →
        missing.length ≤ stagedAbsenceLimit) :
    Armed latest stagedAbsenceLimit reqId
      (planner.afterCalls config calls) := by
  induction calls generalizing planner recent with
  | nil =>
      rw [List.append_nil] at seen
      obtain ⟨deadline, close, found, counted⟩ := armed
      exact ⟨deadline, close, found,
        counted.trans (seen recent List.infix_rfl missed)⟩
  | cons call rest inductionHypothesis =>
      by_cases there : reqId ∈ call.candidateIds
      · have started : Armed latest 0 reqId
            (call.start config planner).planner := armed.present there
        have none : ∀ other ∈ ([] : List (Call hash)),
            reqId ∉ other.candidateIds := by
          intro other member
          cases member
        apply inductionHypothesis none started.turns.2
        intro missing within
        exact seen missing ((List.infix_cons within).trans
          (List.suffix_append recent (call :: rest)).isInfix)
      · have grown : recent ++ call :: rest = (recent ++ [call]) ++ rest := by
          rw [List.append_assoc, List.singleton_append]
        rw [grown] at seen
        have missedToo : ∀ other ∈ recent ++ [call],
            reqId ∉ other.candidateIds := by
          intro other member
          rcases List.mem_append.mp member with old | new
          · exact missed other old
          · rwa [List.mem_singleton.mp new]
        have few := seen (recent ++ [call])
          (List.prefix_append (recent ++ [call]) rest).isInfix missedToo
        rw [List.length_append, List.length_singleton] at few
        have started : Armed latest (recent.length + 1) reqId
            (call.start config planner).planner := armed.absent there few
        apply inductionHypothesis missedToo _ seen
        rw [List.length_append, List.length_singleton]
        exact started.turns.2

/-- What a deferral that is not for a store leaves. -/
private theorem DeadlineBooks.armed
    (books : DeadlineBooks config clock planner) {call : Call hash}
    (ordered : clock ≤ call.now)
    {turn : Pass hash × CandidateCostInput hash}
    (taken : turn ∈ call.turns config planner)
    (ready : turn.2.blockedOnStore = false) {result : PlanResult}
    (answered : (turn.1.turn config call.now turn.2).decisions.find?
      turn.2.reqId = some result)
    (deferred : result.decision = .DEFER) :
    Armed (call.now + config.deferDeadlineMaxS) 0 turn.2.reqId
      (planner.plan config call).2 := by
  have there : turn.2.reqId ∈ call.candidateIds :=
    List.mem_map_of_mem (Pass.turns_candidate taken)
  -- no absence is counted for a request that is there
  have uncounted : ∀ later ∈ call.turns config planner,
      later.1.planner.deadlineAbsent.find? turn.2.reqId = none := by
    have started : (call.start config planner).planner.deadlineAbsent.find?
        turn.2.reqId = none := by
      have aged := @startCall_deadlineOf planner turn.2.reqId call.now
        call.candidateIds
      have counted := (Prod.mk.inj aged).2
      cases before : planner.deadlineAt.find? turn.2.reqId with
      | none =>
          rw [deadlineOf, before] at counted
          exact counted.trans (books.paired _ before)
      | some deadline =>
          rw [deadlineOf, before] at counted
          simp only [if_pos there] at counted
          exact counted
    have looped := @Pass.turns_invariant hash _ config call.now
      (fun pass => pass.planner.deadlineAbsent.find? turn.2.reqId = none) _
      call.candidates
      (fun _ _ _ _ step kept => (turn_deadlineAbsent step).trans kept) started
    exact looped.1
  have spec := turn.1.turn_spec config call.now turn.2
  obtain ⟨_, armed⟩ := turn_defers spec ready answered deferred
  obtain ⟨deadline, found⟩ := Option.ne_none_iff_exists'.mp armed
  have close := (((books.turns ordered).1 turn taken).turn spec).bounded _ _
    found
  have silent : (turn.1.turn config call.now
      turn.2).planner.deadlineAbsent.find? turn.2.reqId = none :=
    (turn_deadlineAbsent spec).trans (uncounted turn taken)
  exact @Pass.turns_after hash _ config call.now
    (fun pass => Armed (call.now + config.deferDeadlineMaxS) 0 turn.2.reqId
      pass.planner) _ call.candidates
    (fun _ _ _ _ step kept => kept.turn step) turn taken
    ⟨deadline, close, found, by rw [silent]; exact le_refl 0⟩

/-- A turn of a request whose deadline has passed does not defer it. -/
private theorem Armed.settles {now : ℚ} {pass after : Pass hash}
    {c : CandidateCostInput hash}
    (armed : Armed latest misses c.reqId pass.planner)
    (passed : latest ≤ now) (taken : Turn config now pass c after)
    (ready : c.blockedOnStore = false) :
    ∃ result, after.decisions.find? c.reqId = some result ∧
      result.Settles := by
  obtain ⟨result, set⟩ := taken.decisions
  have answered : after.decisions.find? c.reqId = some result := by
    rw [set, OrderedDict.find?_set]
    exact if_pos rfl
  refine ⟨result, answered, PlanResult.settles_iff.mpr ?_⟩
  intro deferred
  obtain ⟨deadline, close, found, _⟩ := armed
  exact (turn_defers taken ready answered deferred).1
    ⟨deadline, found, close.trans passed⟩

/-- A request that has been deferred, though not for a store, is not deferred
again once the longest deferral is over, in any run of calls that do not miss
it more than four times in a row. -/
theorem deferral_is_clamped
    (reached : Reaches hash config clock planner) (first : Call hash)
    (between : List (Call hash)) (last : Call hash)
    (ordered : (clock :: (first :: between ++ [last]).map Call.now).Pairwise
      (· ≤ ·))
    (deferral : Pass hash × CandidateCostInput hash)
    (taken : deferral ∈ first.turns config planner)
    (same : deferral.2.reqId = reqId)
    (ready : deferral.2.blockedOnStore = false) (result : PlanResult)
    (answered : (deferral.1.turn config first.now
      deferral.2).decisions.find? reqId = some result)
    (deferred : result.decision = .DEFER)
    (seen : ∀ missing, missing <:+: between →
      (∀ call ∈ missing, reqId ∉ call.candidateIds) → missing.length ≤ 4)
    (passed : first.now + config.deferDeadlineMaxS ≤ last.now) :
    (∀ turn ∈ last.turns config
        (planner.afterCalls config (first :: between)),
      turn.2.reqId = reqId → turn.2.blockedOnStore = false →
        ∃ result, (turn.1.turn config last.now turn.2).decisions.find?
            reqId = some result ∧ result.Settles) ∧
      ((∀ c ∈ last.candidates, c.reqId = reqId →
          c.blockedOnStore = false) → reqId ∈ last.candidateIds →
        ∃ result, ((planner.afterCalls config (first :: between)).plan config
            last).1.find? reqId = some result ∧
          result.Settles) := by
  subst same
  have start : clock ≤ first.now := by
    rw [List.pairwise_cons] at ordered
    exact ordered.1 _ (List.mem_map_of_mem (by simp))
  have none : ∀ call ∈ ([] : List (Call hash)),
      deferral.2.reqId ∉ call.candidateIds := by
    intro call member
    cases member
  have armed : Armed (first.now + config.deferDeadlineMaxS) 4
      deferral.2.reqId (planner.afterCalls config (first :: between)) := by
    have once := reached.deadlineBooks.armed start taken ready answered
      deferred
    change Armed _ _ _
      ((planner.plan config first).2.afterCalls config between)
    exact Armed.afterCalls none once seen
  have started : deferral.2.reqId ∈ last.candidateIds →
      Armed (first.now + config.deferDeadlineMaxS) 0 deferral.2.reqId
        (last.start config
          (planner.afterCalls config (first :: between))).planner :=
    fun there => armed.present there
  constructor
  · intro turn member named unblocked
    have there : deferral.2.reqId ∈ last.candidateIds := by
      rw [← named]
      exact List.mem_map_of_mem (Pass.turns_candidate member)
    have still := (started there).turns.1 turn member
    rw [← named] at still ⊢
    exact still.settles passed (turn.1.turn_spec config last.now turn.2)
      unblocked
  · intro unblocked there
    obtain ⟨c, listed, named⟩ := List.mem_map.mp there
    obtain ⟨before, member⟩ := @Pass.exists_turn hash _ config last.now
      (last.start config (planner.afterCalls config (first :: between))) _ c
      listed
    have still := (started there).turns.1 (before, c) member
    have spec := before.turn_spec config last.now c
    -- once answered, the request is only answered by its other turns
    have looped := @Pass.turns_after hash _ config last.now
      (fun pass =>
        Armed (first.now + config.deferDeadlineMaxS) 0 deferral.2.reqId
            pass.planner ∧
          ∃ result, pass.decisions.find? deferral.2.reqId = some result ∧
            result.Settles) _ last.candidates
      (by
        intro pass after c listed step kept
        refine ⟨kept.1.turn step, ?_⟩
        by_cases named : c.reqId = deferral.2.reqId
        · have settled := kept.1
          rw [← named] at settled ⊢
          exact settled.settles passed step (unblocked c listed named)
        · obtain ⟨result, set⟩ := step.decisions
          rw [set, OrderedDict.find?_set, if_neg (Ne.symm named)]
          exact kept.2)
      (before, c) member
    rw [← named] at still looped ⊢
    exact (looped ⟨still.turn spec, still.settles passed spec
      (unblocked c listed named)⟩).2

/-- A request is there, is away once, and is back after its deadline. -/
theorem deferral_is_clamped_sample :
    ∃ result, ((init.afterCalls sampleConfig
        [⟨0, [sampleCandidate "a" [1, 2]], []⟩, ⟨1, [], []⟩]).plan
          sampleConfig ⟨2, [sampleCandidate "a" [1, 2]], []⟩).1.find? "a" =
      some result ∧ result.Settles := by
  have clamped := deferral_is_clamped
    (@Reaches.init Nat _ sampleConfig 0)
    ⟨0, [sampleCandidate "a" [1, 2]], []⟩ [⟨1, [], []⟩]
    ⟨2, [sampleCandidate "a" [1, 2]], []⟩ (by decide +kernel)
    (_, sampleCandidate "a" [1, 2]) List.mem_cons_self rfl rfl ⟨.DEFER, 2⟩
    (by decide +kernel) rfl
    (by
      intro missing within _
      exact within.length_le.trans (by decide))
    (by decide +kernel)
  exact clamped.2 (by decide +kernel) (by decide +kernel)

end Runs

end LoadPlanner

end PyKvCache.Planner
