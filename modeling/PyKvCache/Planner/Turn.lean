import PyKvCache.Planner.LoadPlanner

/-!
# The turn of a candidate

What the body of the loop of `plan` can do with a candidate, once and for all;
every property of a call is a case distinction over it.
-/

namespace PyKvCache.Planner

open PyKvCache.Library PyKvCache.Cost PyKvCache.Scheduler

variable {hash : Type} [DecidableEq hash]

/-- The branches of the loop, with what each of them leaves. -/
inductive Turn (config : Config) (now : ℚ) (pass : Pass hash)
    (c : CandidateCostInput hash) : Pass hash → Prop
  | rides (outstanding : Staging) (blocked : c.blockedOnStore = true)
      (found : pass.planner.stagingByReq.find? c.reqId = some outstanding) :
      Turn config now pass c
        ((pass.recordOutstanding now c outstanding).answer c.reqId .DEFER
          outstanding.emittedBlocks)
  | reads (blocked : c.blockedOnStore = true)
      (fresh : pass.planner.stagingByReq.find? c.reqId = none)
      (within : distinctCount c.loadableHashes pass.stagedAt ≤
        pass.budget) :
      Turn config now pass c
        ((pass.scheduleRead config now c pass.planner pass.storageWait
          (pass.storageWait + config.chargeFor
            (distinctCount c.loadableHashes pass.stagedAt))).answer c.reqId
          .DEFER c.loadBlocks)
  | full (blocked : c.blockedOnStore = true)
      (fresh : pass.planner.stagingByReq.find? c.reqId = none)
      (beyond : pass.budget <
        distinctCount c.loadableHashes pass.stagedAt) :
      Turn config now pass c (pass.answer c.reqId .DEFER 0)
  | missing (ready : c.blockedOnStore = false) (nothing : c.loadBlocks = 0) :
      Turn config now pass c
        ({ pass with
          gpuWait := pass.gpuWait +
            config.recomputeSForTokens c.recomputeTokens }.answer c.reqId
          .DECLINE 0)
  | resident (ready : c.blockedOnStore = false) (filled : c.loadBlocks ≠ 0)
      (here : c.predictedDramResident = true ∨
        pass.planner.staged.contains c.reqId = true) :
      Turn config now pass c
        ({ pass with
          planner := { pass.planner with
            staged := pass.planner.staged.erase c.reqId } }.answer c.reqId
          .ADMIT 0)
  | overdue (outstanding : Staging) (ready : c.blockedOnStore = false)
      (found : pass.planner.stagingByReq.find? c.reqId = some outstanding)
      (late : pass.planner.expired c.reqId now) :
      Turn config now pass c
        ({ pass with
          planner := { pass.planner with
            staged := pass.planner.staged.erase c.reqId } }.answer c.reqId
          .ADMIT 0)
  | redefers (outstanding : Staging) (ready : c.blockedOnStore = false)
      (found : pass.planner.stagingByReq.find? c.reqId = some outstanding)
      (early : ¬ pass.planner.expired c.reqId now) :
      Turn config now pass c
        (({ pass with
          planner := (pass.planner.armDeadline config c.reqId now
            (max 0 (outstanding.endsAt - now))).2 }.recordOutstanding now c
          outstanding).answer c.reqId .DEFER outstanding.emittedBlocks)
  | breakEven (priced : pass.Prices c)
      (recomputed : pass.recomputes config c) :
      Turn config now pass c
        ({ pass with
          gpuWait := pass.gpuWait +
            config.recomputeSForTokens c.recomputeTokens }.answer c.reqId
          .DECLINE 0)
  | deadline (priced : pass.Prices c)
      (loaded : ¬ pass.recomputes config c)
      (late : pass.planner.expired c.reqId now) :
      Turn config now pass c
        ({ pass with storageWait := pass.storageDone config c }.answer c.reqId
          .ADMIT 0)
  | defers (priced : pass.Prices c) (loaded : ¬ pass.recomputes config c)
      (early : ¬ pass.planner.expired c.reqId now)
      (within : distinctCount c.loadableHashes pass.stagedAt ≤
        pass.budget) :
      Turn config now pass c
        ((pass.scheduleRead config now c
          (pass.planner.armDeadline config c.reqId now
            (pass.storageDone config c)).2
          (max pass.storageWait
            (if distinctCount c.loadableHashes pass.stagedAt = 0 then
              coveredReadyInS c.loadableHashes pass.stagedAt
            else 0))
          (max (pass.storageWait + config.chargeFor
              (distinctCount c.loadableHashes pass.stagedAt))
            (coveredReadyInS c.loadableHashes pass.stagedAt))).answer c.reqId
          .DEFER c.loadBlocks)
  | unaffordable (priced : pass.Prices c)
      (loaded : ¬ pass.recomputes config c)
      (early : ¬ pass.planner.expired c.reqId now)
      (beyond : pass.budget <
        distinctCount c.loadableHashes pass.stagedAt) :
      Turn config now pass c
        ({ pass with storageWait := pass.storageDone config c }.answer c.reqId
          .ADMIT 0)

/-- The body of the loop takes one of the branches. -/
theorem Pass.turn_spec (config : Config) (now : ℚ) (pass : Pass hash)
    (c : CandidateCostInput hash) :
    Turn config now pass c (pass.turn config now c) := by
  unfold Pass.turn
  by_cases blocked : c.blockedOnStore = true
  · rw [if_pos blocked]
    unfold Pass.midWrite
    cases found : pass.planner.stagingByReq.find? c.reqId with
    | some outstanding => exact .rides outstanding blocked found
    | none =>
        by_cases within : distinctCount c.loadableHashes pass.stagedAt ≤
            pass.budget
        · simp only [if_pos within]
          exact .reads blocked found within
        · simp only [if_neg within]
          exact .full blocked found (not_le.mp within)
  rw [if_neg blocked]
  have ready : c.blockedOnStore = false := Bool.eq_false_iff.mpr blocked
  by_cases nothing : c.loadBlocks = 0
  · rw [if_pos nothing]
    exact .missing ready nothing
  rw [if_neg nothing]
  by_cases here : c.predictedDramResident = true ∨
      pass.planner.staged.contains c.reqId = true
  · rw [if_pos here]
    exact .resident ready nothing here
  rw [if_neg here]
  cases found : pass.planner.stagingByReq.find? c.reqId with
  | some outstanding =>
      simp only [Pass.redefer]
      by_cases late : pass.planner.expired c.reqId now
      · rw [if_pos late]
        exact .overdue outstanding ready found late
      · rw [if_neg late]
        exact .redefers outstanding ready found late
  | none =>
      have priced : pass.Prices c := ⟨ready, nothing, here, found⟩
      simp only [Pass.price]
      by_cases recomputed : pass.recomputes config c
      · rw [if_pos recomputed]
        exact .breakEven priced recomputed
      rw [if_neg recomputed]
      by_cases late : pass.planner.expired c.reqId now
      · rw [if_pos late]
        exact .deadline priced recomputed late
      rw [if_neg late]
      by_cases within : distinctCount c.loadableHashes pass.stagedAt ≤
          pass.budget
      · rw [if_pos within]
        exact .defers priced recomputed late within
      · rw [if_neg within]
        exact .unaffordable priced recomputed late (not_le.mp within)

/-! ## The turns of a call -/

/-- The turns of a loop: the variables before each of them, and its
candidate. -/
def Pass.turns (config : Config) (now : ℚ) (pass : Pass hash) :
    List (CandidateCostInput hash) → List (Pass hash × CandidateCostInput hash)
  | [] => []
  | c :: rest => (pass, c) :: (pass.turn config now c).turns config now rest

/-- The turns of a call. -/
def Call.turns (config : Config) (planner : LoadPlanner) (call : Call hash) :
    List (Pass hash × CandidateCostInput hash) :=
  (call.start config planner).turns config call.now call.candidates

section Turns

variable {config : Config} {now : ℚ} {invariant : Pass hash → Prop}
  {pass : Pass hash} {candidates : List (CandidateCostInput hash)}

/-- What the branches keep holds before every turn, and after the loop. -/
theorem Pass.turns_invariant
    (step : ∀ pass after, ∀ c ∈ candidates, Turn config now pass c after →
      invariant pass → invariant after)
    (start : invariant pass) :
    (∀ turn ∈ pass.turns config now candidates, invariant turn.1) ∧
      invariant (candidates.foldl (Pass.turn config now) pass) := by
  induction candidates generalizing pass with
  | nil =>
      refine ⟨?_, start⟩
      intro turn member
      cases member
  | cons c rest inductionHypothesis =>
      have next := step _ _ c List.mem_cons_self
        (pass.turn_spec config now c) start
      obtain ⟨before, after⟩ := inductionHypothesis
        (fun pass after c member =>
          step pass after c (List.mem_cons_of_mem _ member)) next
      refine ⟨?_, after⟩
      intro turn member
      rcases List.mem_cons.mp member with rfl | later
      · exact start
      · exact before turn later

/-- What holds after one turn, and is kept by the branches, holds after the
loop. -/
theorem Pass.turns_after
    (step : ∀ pass after, ∀ c ∈ candidates, Turn config now pass c after →
      invariant pass → invariant after)
    {turn : Pass hash × CandidateCostInput hash}
    (taken : turn ∈ pass.turns config now candidates)
    (held : invariant (turn.1.turn config now turn.2)) :
    invariant (candidates.foldl (Pass.turn config now) pass) := by
  induction candidates generalizing pass with
  | nil => cases taken
  | cons c rest inductionHypothesis =>
      have further := fun pass after c member =>
        step pass after c (List.mem_cons_of_mem _ member)
      rcases List.mem_cons.mp taken with rfl | later
      · exact (Pass.turns_invariant further held).2
      · exact inductionHypothesis further later

/-- Every turn is the turn of a candidate. -/
theorem Pass.turns_candidate {turn : Pass hash × CandidateCostInput hash}
    (taken : turn ∈ pass.turns config now candidates) :
    turn.2 ∈ candidates := by
  induction candidates generalizing pass with
  | nil => cases taken
  | cons c rest inductionHypothesis =>
      rcases List.mem_cons.mp taken with rfl | later
      · exact List.mem_cons_self
      · exact List.mem_cons_of_mem _ (inductionHypothesis later)

/-- Every candidate has a turn. -/
theorem Pass.exists_turn {c : CandidateCostInput hash}
    (member : c ∈ candidates) :
    ∃ before, (before, c) ∈ pass.turns config now candidates := by
  induction candidates generalizing pass with
  | nil => cases member
  | cons first rest inductionHypothesis =>
      rcases List.mem_cons.mp member with rfl | later
      · exact ⟨pass, List.mem_cons_self⟩
      · obtain ⟨before, taken⟩ := inductionHypothesis later
        exact ⟨before, List.mem_cons_of_mem _ taken⟩

end Turns

omit [DecidableEq hash] in
@[simp]
theorem Pass.find?_answer {pass : Pass hash} {reqId : String}
    {decision : LoadDecision} {preloadBlocks : Int} :
    (pass.answer reqId decision preloadBlocks).decisions.find? reqId =
      some ⟨decision, preloadBlocks⟩ := by
  rw [Pass.answer, OrderedDict.find?_set, if_pos rfl]

/-- A turn answers its candidate, and nobody else. -/
theorem Turn.decisions {config : Config} {now : ℚ} {pass after : Pass hash}
    {c : CandidateCostInput hash} (taken : Turn config now pass c after) :
    ∃ result, after.decisions = pass.decisions.set c.reqId result := by
  cases taken <;> exact ⟨_, rfl⟩

end PyKvCache.Planner
