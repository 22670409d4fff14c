import PyKvCache.Planner.Turn
import PyKvCache.Planner.ShadowQueue
import Mathlib.Data.Finset.Card

/-!
# Shared prefixes

Within a call a block is paid for once: whoever shares it with an earlier
deferral is not charged for it again, and nobody else is spared.
-/

namespace PyKvCache.Planner

open PyKvCache.Library PyKvCache.Cost PyKvCache.Scheduler

variable {hash : Type} [DecidableEq hash]

/-! ## What is recorded -/

section Record

variable {stagedAt : OrderedDict hash ℚ} {blockHash : hash}

private theorem recordReady_contains {other : hash} {readyInS : ℚ} :
    (recordReady stagedAt other readyInS).contains blockHash = true ↔
      stagedAt.contains blockHash = true ∨ blockHash = other := by
  have set : (stagedAt.set other readyInS).contains blockHash = true ↔
      stagedAt.contains blockHash = true ∨ blockHash = other := by
    unfold OrderedDict.contains
    rw [OrderedDict.find?_set]
    by_cases same : blockHash = other
    · simp [same]
    · simp [same]
  unfold recordReady
  split
  next => exact set
  next found =>
    split
    · exact set
    · constructor
      · exact Or.inl
      · rintro (known | rfl)
        · exact known
        · exact OrderedDict.contains_iff.mpr ⟨_, found⟩

/-- A recorded read covers its blocks, and what was covered before. -/
theorem recordStaged_contains {hashes : List hash} {startInS endInS : ℚ} :
    (recordStaged stagedAt hashes startInS endInS).contains blockHash =
        true ↔
      stagedAt.contains blockHash = true ∨ blockHash ∈ hashes := by
  have loop : ∀ (ready : Nat → ℚ) (first : Nat)
      (stagedAt : OrderedDict hash ℚ),
      ((hashes.zipIdx first).foldl (fun stagedAt entry =>
          recordReady stagedAt entry.1 (ready entry.2)) stagedAt).contains
            blockHash = true ↔
        stagedAt.contains blockHash = true ∨ blockHash ∈ hashes := by
    intro ready
    induction hashes with
    | nil => simp
    | cons head tail inductionHypothesis =>
        intro first stagedAt
        rw [List.zipIdx_cons, List.foldl_cons, inductionHypothesis,
          recordReady_contains, List.mem_cons, or_assoc]
  exact loop (fun index => startInS + max 0 (endInS - startInS) *
    (index + 1) / hashes.length) 0 stagedAt

end Record

/-! ## What is emitted -/

/-- The blocks a result has read ahead; only a deferral does. -/
def PlanResult.emitted (result : PlanResult)
    (c : CandidateCostInput hash) : List hash :=
  if result.decision = .DEFER then
    sliceTo c.loadableHashes result.preloadBlocks
  else
    []

/-- The blocks the answers have read ahead for a candidate. -/
def emitted (answers : OrderedDict String PlanResult)
    (c : CandidateCostInput hash) : List hash :=
  match answers.find? c.reqId with
  | none => []
  | some result => result.emitted c

omit [DecidableEq hash] in
theorem mem_emitted_iff {answers : OrderedDict String PlanResult}
    {c : CandidateCostInput hash} {blockHash : hash} :
    blockHash ∈ emitted answers c ↔
      ∃ result, answers.find? c.reqId = some result ∧
        result.decision = .DEFER ∧
        blockHash ∈ sliceTo c.loadableHashes result.preloadBlocks := by
  unfold emitted PlanResult.emitted
  cases answers.find? c.reqId with
  | none => simp
  | some result =>
      by_cases deferred : result.decision = .DEFER
      · simp [deferred]
      · simp [deferred]

private theorem sliceTo_length {item : Type} {xs : List item} :
    sliceTo xs xs.length = xs := by
  rw [sliceTo, if_neg (by omega), Int.toNat_natCast, List.take_length]

private theorem sliceTo_zero {item : Type} {xs : List item} :
    sliceTo xs 0 = [] := by
  rw [sliceTo, if_neg (by omega)]
  rfl

/-- What a turn does to the covered blocks, to the queue and to the budget. -/
theorem Turn.covers {config : Config} {now : ℚ} {pass after : Pass hash}
    {c : CandidateCostInput hash} (taken : Turn config now pass c after)
    (whole : c.loadBlocks = c.loadableHashes.length) :
    ∃ result, after.decisions = pass.decisions.set c.reqId result ∧
      (∀ blockHash, after.stagedAt.contains blockHash = true ↔
        pass.stagedAt.contains blockHash = true ∨
          blockHash ∈ result.emitted c) ∧
      (∀ reqId, reqId ≠ c.reqId →
        after.planner.stagingByReq.find? reqId =
          pass.planner.stagingByReq.find? reqId) ∧
      (distinctCount c.loadableHashes pass.stagedAt ≤ pass.budget ∧
          after.budget = pass.budget -
            distinctCount c.loadableHashes pass.stagedAt ∧
          result.emitted c = c.loadableHashes ∨
        after.budget = pass.budget ∧
          (pass.planner.stagingByReq.find? c.reqId = none →
            result.emitted c = [])) := by
  have settled : ∀ {decision : LoadDecision}, decision ≠ .DEFER →
      PlanResult.emitted ⟨decision, 0⟩ c = [] := by
    intro decision loaded
    exact if_neg loaded
  have deferred : ∀ {n : Int},
      PlanResult.emitted ⟨.DEFER, n⟩ c = sliceTo c.loadableHashes n :=
    if_pos rfl
  have full : PlanResult.emitted ⟨.DEFER, c.loadBlocks⟩ c =
      c.loadableHashes := by
    rw [deferred, whole, sliceTo_length]
  cases taken with
  | rides outstanding _ found =>
      refine ⟨_, rfl, ?_, fun _ _ => rfl, Or.inr ⟨rfl, ?_⟩⟩
      · intro blockHash
        rw [deferred]
        exact recordStaged_contains
      · intro fresh
        rw [found] at fresh
        cases fresh
  | reads _ _ within =>
      refine ⟨_, rfl, ?_, ?_, Or.inl ⟨within, rfl, full⟩⟩
      · intro blockHash
        rw [full]
        exact recordStaged_contains
      · intro reqId different
        exact OrderedDict.find?_set.trans (if_neg different)
  | full =>
      have nothing : PlanResult.emitted ⟨.DEFER, 0⟩ c = [] := by
        rw [deferred, sliceTo_zero]
      refine ⟨_, rfl, ?_, fun _ _ => rfl, Or.inr ⟨rfl, fun _ => nothing⟩⟩
      intro blockHash
      rw [nothing]
      simp [Pass.answer]
  | redefers outstanding _ found =>
      have same := (@LoadPlanner.armDeadline_sameQueue pass.planner config
        c.reqId now (max 0 (outstanding.endsAt - now))).stagingByReq
      refine ⟨_, rfl, ?_, ?_, Or.inr ⟨rfl, ?_⟩⟩
      · intro blockHash
        rw [deferred]
        exact recordStaged_contains
      · intro reqId _
        exact congrArg (fun queue => queue.find? reqId) same
      · intro fresh
        rw [found] at fresh
        cases fresh
  | defers _ _ _ within =>
      have same := (@LoadPlanner.armDeadline_sameQueue pass.planner config
        c.reqId now (pass.storageDone config c)).stagingByReq
      refine ⟨_, rfl, ?_, ?_, Or.inl ⟨within, rfl, full⟩⟩
      · intro blockHash
        rw [full]
        exact recordStaged_contains
      · intro reqId different
        rw [← same]
        exact OrderedDict.find?_set.trans (if_neg different)
  | missing | resident | overdue | breakEven | deadline | unaffordable =>
      refine ⟨_, rfl, ?_, fun _ _ => rfl,
        Or.inr ⟨rfl, fun _ => settled (by decide)⟩⟩
      intro blockHash
      rw [settled (by decide)]
      simp [Pass.answer]

/-! ## What is charged -/

/-- A candidate pays for its blocks that no recorded read covers, and for no
others: a new read for it takes a slot and the storage for each of them; it is
computed again, or loaded at once, at the price of reading them; and nobody
else takes a slot. -/
structure Charged (config : Config) (pass : Pass hash)
    (c : CandidateCostInput hash) (result : PlanResult)
    (after : Pass hash) : Prop where
  reads : pass.planner.stagingByReq.find? c.reqId = none →
    result.emitted c ≠ [] →
    distinctCount c.loadableHashes pass.stagedAt ≤ pass.budget ∧
      after.budget =
        pass.budget - distinctCount c.loadableHashes pass.stagedAt ∧
      after.storageWait = pass.storageWait +
        config.chargeFor (distinctCount c.loadableHashes pass.stagedAt)
  spared : pass.planner.stagingByReq.find? c.reqId ≠ none ∨
    result.emitted c = [] → after.budget = pass.budget
  priced : pass.Prices c →
    (result.decision = .DECLINE ↔ pass.recomputes config c) ∧
    (result.decision = .ADMIT →
      after.storageWait = pass.storageDone config c)

theorem Turn.charges {config : Config} {now : ℚ} {pass after : Pass hash}
    {c : CandidateCostInput hash} (taken : Turn config now pass c after)
    (whole : c.loadBlocks = c.loadableHashes.length) :
    ∃ result, after.decisions = pass.decisions.set c.reqId result ∧
      Charged config pass c result after := by
  have settled : ∀ {decision : LoadDecision}, decision ≠ .DEFER →
      PlanResult.emitted ⟨decision, 0⟩ c = [] := by
    intro decision loaded
    exact if_neg loaded
  have full : PlanResult.emitted ⟨.DEFER, c.loadBlocks⟩ c =
      c.loadableHashes := by
    rw [PlanResult.emitted, if_pos rfl, whole, sliceTo_length]
  have fenced : c.blockedOnStore = true → ¬ pass.Prices c := by
    intro blocked prices
    rw [prices.1] at blocked
    cases blocked
  have queued : ∀ {outstanding : Staging},
      pass.planner.stagingByReq.find? c.reqId = some outstanding →
      pass.planner.stagingByReq.find? c.reqId ≠ none := by
    intro outstanding found fresh
    rw [found] at fresh
    cases fresh
  -- a read of no blocks takes no slot
  have unread : c.loadableHashes = [] → pass.budget -
      distinctCount c.loadableHashes pass.stagedAt = pass.budget := by
    intro none
    rw [none]
    rfl
  cases taken with
  | rides _ blocked found =>
      exact ⟨_, rfl, ⟨fun fresh => absurd fresh (queued found),
        fun _ => rfl, fun prices => absurd prices (fenced blocked)⟩⟩
  | reads blocked fresh within =>
      refine ⟨_, rfl, ⟨fun _ _ => ⟨within, rfl, rfl⟩, ?_,
        fun prices => absurd prices (fenced blocked)⟩⟩
      rintro (outstanding | nothing)
      · exact absurd fresh outstanding
      · exact unread (full.symm.trans nothing)
  | full blocked =>
      have nothing : PlanResult.emitted ⟨.DEFER, 0⟩ c = [] := by
        rw [PlanResult.emitted, if_pos rfl, sliceTo_zero]
      exact ⟨_, rfl, ⟨fun _ some => absurd nothing some, fun _ => rfl,
        fun prices => absurd prices (fenced blocked)⟩⟩
  | missing _ nothing =>
      exact ⟨_, rfl, ⟨fun _ some => absurd (settled (by decide)) some,
        fun _ => rfl, fun prices => absurd nothing prices.2.1⟩⟩
  | resident _ _ here =>
      exact ⟨_, rfl, ⟨fun _ some => absurd (settled (by decide)) some,
        fun _ => rfl, fun prices => absurd here prices.2.2.1⟩⟩
  | overdue _ _ found =>
      exact ⟨_, rfl, ⟨fun _ some => absurd (settled (by decide)) some,
        fun _ => rfl, fun prices => absurd prices.2.2.2 (queued found)⟩⟩
  | redefers _ _ found =>
      exact ⟨_, rfl, ⟨fun fresh => absurd fresh (queued found),
        fun _ => rfl, fun prices => absurd prices.2.2.2 (queued found)⟩⟩
  | breakEven _ recomputed =>
      exact ⟨_, rfl, ⟨fun _ some => absurd (settled (by decide)) some,
        fun _ => rfl, fun _ => ⟨by simp [recomputed], by simp⟩⟩⟩
  | deadline _ loaded | unaffordable _ loaded =>
      exact ⟨_, rfl, ⟨fun _ some => absurd (settled (by decide)) some,
        fun _ => rfl, fun _ => ⟨by simp [loaded], fun _ => rfl⟩⟩⟩
  | defers priced loaded _ within =>
      refine ⟨_, rfl, ⟨fun _ _ => ⟨within, rfl, rfl⟩, ?_,
        fun _ => ⟨by simp [loaded], by simp⟩⟩⟩
      rintro (outstanding | nothing)
      · exact absurd priced.2.2.2 outstanding
      · exact unread (full.symm.trans nothing)

/-! ## The books of a call -/

/-- The blocks the answers have read ahead for some candidates. -/
def covered (answers : OrderedDict String PlanResult)
    (candidates : List (CandidateCostInput hash)) : List hash :=
  candidates.flatMap (emitted answers)

/-- A block that is read ahead for a candidate without an outstanding read,
and that no earlier candidate covers. -/
def Fresh (start : LoadPlanner) (answers : OrderedDict String PlanResult)
    (candidates : List (CandidateCostInput hash)) (blockHash : hash) :
    Prop :=
  ∃ earlier c later, candidates = earlier ++ c :: later ∧
    start.stagingByReq.find? c.reqId = none ∧
    blockHash ∈ emitted answers c ∧ blockHash ∉ covered answers earlier

/-- The variables of a call after the turns of some candidates. -/
structure PassBooks (config : Config) (start : LoadPlanner)
    (earlier : List (CandidateCostInput hash)) (pass : Pass hash) :
    Prop where
  staged : ∀ blockHash, pass.stagedAt.contains blockHash = true ↔
    blockHash ∈ covered pass.decisions earlier
  outstanding : ∀ reqId, reqId ∉ earlier.map CandidateCostInput.reqId →
    pass.planner.stagingByReq.find? reqId = start.stagingByReq.find? reqId
  budget : ∀ fresh : Finset hash,
    (∀ blockHash ∈ fresh, Fresh start pass.decisions earlier blockHash) →
      fresh.card + pass.budget ≤ config.maxPreloadSlots

section Books

variable {answers : OrderedDict String PlanResult} {result : PlanResult}
  {reqId : String} {earlier : List (CandidateCostInput hash)}

omit [DecidableEq hash] in
/-- Another answer does not change what is read ahead. -/
theorem emitted_set_other {c : CandidateCostInput hash}
    (different : c.reqId ≠ reqId) :
    emitted (answers.set reqId result) c = emitted answers c := by
  rw [emitted, OrderedDict.find?_set, if_neg different]
  rfl

omit [DecidableEq hash] in
theorem covered_append {c : CandidateCostInput hash} :
    covered answers (earlier ++ [c]) =
      covered answers earlier ++ emitted answers c := by
  rw [covered, List.flatMap_append, List.flatMap_singleton]
  rfl

omit [DecidableEq hash] in
theorem covered_set_other
    (different : reqId ∉ earlier.map CandidateCostInput.reqId) :
    covered (answers.set reqId result) earlier =
      covered answers earlier := by
  unfold covered
  apply List.flatMap_congr
  intro c member
  apply emitted_set_other
  rintro rfl
  exact different (List.mem_map_of_mem member)

private theorem card_le_distinctCount {hashes : List hash}
    {stagedAt : OrderedDict hash ℚ} {fresh : Finset hash}
    (each : ∀ blockHash ∈ fresh, blockHash ∈ hashes ∧
      ¬ stagedAt.contains blockHash = true) :
    fresh.card ≤ distinctCount hashes stagedAt := by
  have within : fresh ⊆ (hashes.filter fun blockHash =>
      decide (¬ stagedAt.contains blockHash = true)).toFinset := by
    intro blockHash member
    obtain ⟨listed, uncovered⟩ := each blockHash member
    rw [List.mem_toFinset, List.mem_filter]
    exact ⟨listed, decide_eq_true uncovered⟩
  unfold distinctCount
  rw [List.countP_eq_length_filter]
  exact (Finset.card_le_card within).trans (List.toFinset_card_le _)

omit [DecidableEq hash] in
/-- A fresh block of a longer list was fresh before, or it is one of the last
candidate. -/
private theorem Fresh.append {start : LoadPlanner}
    {c : CandidateCostInput hash} {blockHash : hash}
    (different : c.reqId ∉ earlier.map CandidateCostInput.reqId)
    (fresh : Fresh start (answers.set c.reqId result) (earlier ++ [c])
      blockHash) :
    Fresh start answers earlier blockHash ∨
      start.stagingByReq.find? c.reqId = none ∧
        blockHash ∈ result.emitted c ∧
        blockHash ∉ covered answers earlier := by
  obtain ⟨before, other, later, split, none, listed, uncovered⟩ := fresh
  rcases List.eq_nil_or_concat later with rfl | ⟨rest, last, rfl⟩
  · have same := List.append_inj' split rfl
    obtain ⟨rfl, last⟩ := same
    cases last
    right
    rw [emitted, OrderedDict.find?_set, if_pos rfl] at listed
    rw [covered_set_other different] at uncovered
    exact ⟨none, listed, uncovered⟩
  · left
    rw [List.concat_eq_append, ← List.cons_append,
      ← List.append_assoc] at split
    obtain ⟨shorter, last⟩ := List.append_inj' split rfl
    subst shorter
    rw [List.map_append, List.mem_append, not_or] at different
    have otherReq : other.reqId ≠ c.reqId := by
      intro same
      apply different.2
      rw [← same]
      exact List.mem_map_of_mem List.mem_cons_self
    rw [emitted_set_other otherReq] at listed
    rw [covered_set_other different.1] at uncovered
    exact ⟨before, other, rest, rfl, none, listed, uncovered⟩

/-- The turn of another candidate keeps the books. -/
private theorem PassBooks.turn {config : Config} {now : ℚ}
    {start : LoadPlanner} {pass after : Pass hash}
    {c : CandidateCostInput hash}
    (books : PassBooks config start earlier pass)
    (taken : Turn config now pass c after)
    (whole : c.loadBlocks = c.loadableHashes.length)
    (different : c.reqId ∉ earlier.map CandidateCostInput.reqId) :
    PassBooks config start (earlier ++ [c]) after := by
  obtain ⟨result, set, staged, others, charged⟩ := taken.covers whole
  have own : emitted after.decisions c = result.emitted c := by
    rw [set, emitted, OrderedDict.find?_set, if_pos rfl]
  have before : covered after.decisions earlier =
      covered pass.decisions earlier := by
    rw [set, covered_set_other different]
  constructor
  · intro blockHash
    rw [staged, books.staged, covered_append, List.mem_append, own, before]
  · intro reqId absent
    rw [List.map_append, List.mem_append, not_or] at absent
    have other : reqId ≠ c.reqId := by
      rintro rfl
      exact absent.2 List.mem_cons_self
    exact (others reqId other).trans (books.outstanding reqId absent.1)
  · intro fresh each
    rw [set] at each
    classical
    let old := fresh.filter (Fresh start pass.decisions earlier)
    let new := fresh.filter fun blockHash =>
      ¬ Fresh start pass.decisions earlier blockHash
    have parts : old.card + new.card = fresh.card :=
      Finset.card_filter_add_card_filter_not _
    have spent := books.budget old fun blockHash member =>
      (Finset.mem_filter.mp member).2
    have added : ∀ blockHash ∈ new,
        start.stagingByReq.find? c.reqId = none ∧
          blockHash ∈ result.emitted c ∧
          ¬ pass.stagedAt.contains blockHash = true := by
      intro blockHash member
      obtain ⟨listed, notOld⟩ := Finset.mem_filter.mp member
      rcases (each blockHash listed).append different with was | is
      · exact absurd was notOld
      · rw [books.staged]
        exact is
    rcases charged with ⟨within, left, all⟩ | ⟨left, nothing⟩
    · have few : new.card ≤ distinctCount c.loadableHashes pass.stagedAt :=
        card_le_distinctCount fun blockHash member => by
          obtain ⟨_, listed, uncovered⟩ := added blockHash member
          rw [all] at listed
          exact ⟨listed, uncovered⟩
      omega
    · have empty : new = ∅ := by
        rw [Finset.eq_empty_iff_forall_notMem]
        intro blockHash member
        obtain ⟨none, listed, _⟩ := added blockHash member
        rw [nothing ((books.outstanding _ different).trans none)] at listed
        cases listed
      rw [empty, Finset.card_empty] at parts
      omega

/-- The turns of distinct candidates keep the books. -/
private theorem PassBooks.turns {config : Config} {now : ℚ}
    {start : LoadPlanner} {pass : Pass hash}
    (books : PassBooks config start earlier pass)
    {candidates : List (CandidateCostInput hash)}
    (whole : ∀ c ∈ candidates, c.loadBlocks = c.loadableHashes.length)
    (distinct : ((earlier ++ candidates).map
      CandidateCostInput.reqId).Nodup) :
    PassBooks config start (earlier ++ candidates)
      (candidates.foldl (Pass.turn config now) pass) := by
  induction candidates generalizing earlier pass with
  | nil =>
      rw [List.append_nil]
      exact books
  | cons c rest inductionHypothesis =>
      have grown : earlier ++ c :: rest = (earlier ++ [c]) ++ rest := by
        rw [List.append_assoc, List.singleton_append]
      have different : c.reqId ∉ earlier.map CandidateCostInput.reqId := by
        rw [List.map_append, List.nodup_append'] at distinct
        intro member
        exact distinct.2.2 member List.mem_cons_self
      rw [grown] at distinct ⊢
      exact inductionHypothesis
        (books.turn (pass.turn_spec config now c)
          (whole c List.mem_cons_self) different)
        (fun other member => whole other (List.mem_cons_of_mem _ member))
        distinct

/-- Answers are only given to the candidates of the turns. -/
theorem decisions_of_absent {config : Config} {now : ℚ}
    {pass : Pass hash} {candidates : List (CandidateCostInput hash)}
    (absent : reqId ∉ candidates.map CandidateCostInput.reqId) :
    (candidates.foldl (Pass.turn config now) pass).decisions.find? reqId =
      pass.decisions.find? reqId := by
  induction candidates generalizing pass with
  | nil => rfl
  | cons c rest inductionHypothesis =>
      rw [List.map_cons, List.mem_cons, not_or] at absent
      obtain ⟨result, set⟩ := (pass.turn_spec config now c).decisions
      rw [List.foldl_cons, inductionHypothesis absent.2, set,
        OrderedDict.find?_set, if_neg absent.1]

end Books

/-- In a call with distinct requests, a candidate is spared exactly the blocks
that earlier deferrals have read ahead, it is charged for the others, and the
new reads do not go beyond the slots there are. -/
theorem shared_prefixes_are_paid_once {config : Config}
    (planner : LoadPlanner) (call : Call hash)
    (distinct : call.candidateIds.Nodup)
    (whole : ∀ c ∈ call.candidates,
      c.loadBlocks = c.loadableHashes.length) :
    (∀ earlier c later, call.candidates = earlier ++ c :: later →
      let pass := earlier.foldl (Pass.turn config call.now)
        (call.start config planner)
      (∀ blockHash, pass.stagedAt.contains blockHash = true ↔
        ∃ other ∈ earlier, ∃ result,
          (planner.plan config call).1.find? other.reqId = some result ∧
            result.decision = .DEFER ∧
            blockHash ∈ sliceTo other.loadableHashes
              result.preloadBlocks) ∧
      ∃ result, (planner.plan config call).1.find? c.reqId = some result ∧
        Charged config pass c result (pass.turn config call.now c)) ∧
      ∀ fresh : Finset hash,
        (∀ blockHash ∈ fresh,
          Fresh (planner.retireShadowEntries call.now)
            (planner.plan config call).1 call.candidates blockHash) →
          fresh.card ≤ config.maxPreloadSlots := by
  have empty : PassBooks config (planner.retireShadowEntries call.now) []
      (call.start config planner) := by
    constructor
    · intro blockHash
      constructor
      · intro known
        cases known
      · intro known
        cases known
    · intro reqId _
      exact congrArg (fun queue => queue.find? reqId)
        (@LoadPlanner.startCall_sameQueue planner call.candidateIds
          call.now).stagingByReq
    · intro fresh each
      have none : fresh = ∅ := by
        rw [Finset.eq_empty_iff_forall_notMem]
        intro blockHash member
        obtain ⟨earlier, c, later, split, _⟩ := each blockHash member
        exact absurd split (by simp)
      rw [none, Finset.card_empty, Nat.zero_add]
      exact le_refl _
  constructor
  · intro earlier c later split
    have ids := distinct
    rw [Call.candidateIds, split, List.map_append] at ids
    have apart := List.nodup_append'.mp ids
    refine ⟨fun blockHash => ?_, ?_⟩
    rotate_left
    · obtain ⟨result, set, charged⟩ := ((earlier.foldl
        (Pass.turn config call.now) (call.start config planner)).turn_spec
          config call.now c).charges (whole c (by
            rw [split]
            exact List.mem_append_right _ List.mem_cons_self))
      refine ⟨result, ?_, charged⟩
      change (call.candidates.foldl (Pass.turn config call.now)
        (call.start config planner)).decisions.find? c.reqId = _
      rw [split, List.foldl_append, List.foldl_cons,
        decisions_of_absent (List.nodup_cons.mp apart.2.1).1, set,
        OrderedDict.find?_set, if_pos rfl]
    have books := @PassBooks.turns hash _ [] config call.now _ _ empty earlier
      (fun other member => whole other (by
        rw [split]
        exact List.mem_append_left _ member)) apart.1
    have final : ∀ other ∈ earlier,
        (planner.plan config call).1.find? other.reqId =
          (earlier.foldl (Pass.turn config call.now)
            (call.start config planner)).decisions.find? other.reqId := by
      intro other member
      change (call.candidates.foldl (Pass.turn config call.now)
        (call.start config planner)).decisions.find? other.reqId = _
      rw [split, List.foldl_append]
      exact decisions_of_absent
        (apart.2.2 (List.mem_map_of_mem member))
    rw [books.staged, List.nil_append, covered, List.mem_flatMap]
    constructor
    · rintro ⟨other, member, listed⟩
      rw [mem_emitted_iff, ← final other member] at listed
      exact ⟨other, member, listed⟩
    · rintro ⟨other, member, listed⟩
      rw [final other member] at listed
      exact ⟨other, member, mem_emitted_iff.mpr listed⟩
  · have books := @PassBooks.turns hash _ [] config call.now _ _ empty
      call.candidates whole distinct
    intro fresh each
    exact (Nat.le_add_right _ _).trans (books.budget fresh each)

/-- Two candidates that share a block. -/
def sharingCall : Call Nat :=
  ⟨0, [sampleCandidate "a" [1, 2], sampleCandidate "b" [2, 3]], []⟩

/-- After the first of them. -/
def firstTurned : Pass Nat :=
  [sampleCandidate "a" [1, 2]].foldl (Pass.turn sampleConfig 0)
    (sharingCall.start sampleConfig .init)

/-- The second of two candidates is spared what the first one has read ahead,
and charged for the rest: one of the six slots that are left. -/
theorem shared_prefixes_are_paid_once_sample :
    (∀ blockHash, firstTurned.stagedAt.contains blockHash = true ↔
      ∃ other ∈ [sampleCandidate "a" [1, 2]], ∃ result,
        (LoadPlanner.init.plan sampleConfig sharingCall).1.find?
            other.reqId = some result ∧
          result.decision = .DEFER ∧
          blockHash ∈ sliceTo other.loadableHashes result.preloadBlocks) ∧
      firstTurned.budget = 6 ∧
      (∃ result, (LoadPlanner.init.plan sampleConfig sharingCall).1.find?
          "b" = some result ∧
        Charged sampleConfig firstTurned (sampleCandidate "b" [2, 3]) result
          (firstTurned.turn sampleConfig 0 (sampleCandidate "b" [2, 3]))) ∧
      (firstTurned.turn sampleConfig 0 (sampleCandidate "b" [2, 3])).budget =
        5 ∧
      ({3} : Finset Nat).card ≤ 8 := by
  have paid := @shared_prefixes_are_paid_once Nat _ sampleConfig .init
    sharingCall (by decide) (by decide)
  obtain ⟨spared, charged⟩ := paid.1 [sampleCandidate "a" [1, 2]]
    (sampleCandidate "b" [2, 3]) [] rfl
  refine ⟨spared, by decide +kernel, charged, by decide +kernel, ?_⟩
  apply paid.2
  intro blockHash member
  rw [Finset.mem_singleton] at member
  subst member
  exact ⟨[sampleCandidate "a" [1, 2]], sampleCandidate "b" [2, 3], [], rfl,
    by decide +kernel, by decide +kernel, by decide +kernel⟩

end PyKvCache.Planner
