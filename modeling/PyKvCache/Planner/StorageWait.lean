import PyKvCache.Planner.Deadlines
import PyKvCache.Planner.ShadowQueue

/-!
# The storage wait of a call

The wait that candidates are priced with grows from one priced candidate to the
next, as long as no expired deadline makes the call forget reads that are
already booked.
-/

namespace PyKvCache.Planner

open PyKvCache.Library PyKvCache.Cost PyKvCache.Scheduler

/-- A relation between neighbours of a filtered list is one between elements
with nothing of the filter in between. -/
private theorem isChain_filter_iff {item : Type} {keep : item → Bool}
    {related : item → item → Prop} {items : List item} :
    (items.filter keep).IsChain related ↔
      ∀ earlier first between second later,
        items = earlier ++ first :: (between ++ second :: later) →
          keep first = true → keep second = true →
          (∀ item ∈ between, ¬ keep item = true) → related first second := by
  rw [List.isChain_iff_forall_rel_of_append_cons_cons]
  constructor
  · rintro chained earlier first between second later rfl kept alsoKept gone
    apply @chained first second (earlier.filter keep) (later.filter keep)
    have none : between.filter keep = [] := List.filter_eq_nil_iff.mpr gone
    rw [List.filter_append, List.filter_cons_of_pos kept,
      List.filter_append, none, List.nil_append,
      List.filter_cons_of_pos alsoKept]
  · intro each first second before behind split
    obtain ⟨front, back, rfl, _, tail⟩ := List.filter_eq_append_iff.mp split
    obtain ⟨skipped, rest, rfl, _, kept, tail⟩ :=
      List.filter_eq_cons_iff.mp tail
    obtain ⟨between, later, rfl, gone, alsoKept, _⟩ :=
      List.filter_eq_cons_iff.mp tail
    exact each (front ++ skipped) first between second later
      (by rw [List.append_assoc]) kept alsoKept gone

variable {hash : Type} [DecidableEq hash]

namespace Pass

/-- The wait after a candidate is priced is that of a read which is booked
before others: the deadline has passed, and all blocks are covered by reads
that are done before the storage is. -/
def Forgets (config : Config) (now : ℚ) (c : CandidateCostInput hash)
    (pass : Pass hash) : Prop :=
  pass.Prices c ∧ ¬ pass.recomputes config c ∧
    pass.planner.expired c.reqId now ∧
    distinctCount c.loadableHashes pass.stagedAt = 0 ∧
    coveredReadyInS c.loadableHashes pass.stagedAt < pass.storageWait

/-- The storage time that is booked for a candidate that waits for a store. -/
def midWriteCharge (config : Config) (c : CandidateCostInput hash)
    (pass : Pass hash) : ℚ :=
  if c.blockedOnStore = true ∧
      pass.planner.stagingByReq.find? c.reqId = none ∧
      distinctCount c.loadableHashes pass.stagedAt ≤ pass.budget then
    config.chargeFor (distinctCount c.loadableHashes pass.stagedAt)
  else
    0

end Pass

section Waits

variable {config : Config} {now : ℚ} {pass after : Pass hash}
  {c : CandidateCostInput hash}

/-- A candidate that is not priced only adds its own read. -/
theorem Turn.wait_of_not_prices (taken : Turn config now pass c after)
    (unpriced : ¬ pass.Prices c) :
    after.storageWait = pass.storageWait + pass.midWriteCharge config c := by
  unfold Pass.midWriteCharge
  cases taken with
  | reads blocked fresh within =>
      rw [if_pos ⟨blocked, fresh, within⟩]
      rfl
  | rides outstanding _ found =>
      have idle : ¬ (c.blockedOnStore = true ∧
          pass.planner.stagingByReq.find? c.reqId = none ∧
          distinctCount c.loadableHashes pass.stagedAt ≤ pass.budget) := by
        rintro ⟨_, fresh, _⟩
        rw [found] at fresh
        cases fresh
      rw [if_neg idle, add_zero]
      rfl
  | full _ _ beyond =>
      rw [if_neg fun idle => absurd idle.2.2 (not_le.mpr beyond), add_zero]
      rfl
  | missing ready | resident ready | overdue _ ready | redefers _ ready =>
      rw [if_neg (by simp [ready]), add_zero]
      rfl
  | breakEven priced | deadline priced | defers priced
  | unaffordable priced => exact absurd priced unpriced

/-- A candidate that is priced does not shorten the wait, unless it
forgets. -/
theorem Turn.wait_of_prices (taken : Turn config now pass c after)
    (nonnegative : config.tables.Nonnegative) (priced : pass.Prices c) :
    (pass.Forgets config now c →
        after.storageWait =
          coveredReadyInS c.loadableHashes pass.stagedAt) ∧
      (¬ pass.Forgets config now c →
        pass.storageWait ≤ after.storageWait) := by
  have ready := priced.1
  have later : distinctCount c.loadableHashes pass.stagedAt ≠ 0 →
      pass.storageWait ≤ pass.storageDone config c := by
    intro several
    simp only [Pass.storageDone, if_neg several]
    exact (le_add_of_nonneg_right (nonnegative.service _)).trans
      (le_max_right _ _)
  have covered : distinctCount c.loadableHashes pass.stagedAt = 0 →
      pass.storageDone config c =
        coveredReadyInS c.loadableHashes pass.stagedAt := by
    intro none
    simp only [Pass.storageDone, if_pos none]
  cases taken with
  | rides _ blocked | reads blocked | full blocked =>
      rw [ready] at blocked
      cases blocked
  | missing _ nothing => exact absurd nothing priced.2.1
  | resident _ _ here => exact absurd here priced.2.2.1
  | overdue _ _ found | redefers _ _ found =>
      rw [priced.2.2.2] at found
      cases found
  | breakEven _ recomputed =>
      exact ⟨fun forgets => absurd recomputed forgets.2.1,
        fun _ => le_refl _⟩
  | deadline _ loaded late =>
      refine ⟨fun forgets => covered forgets.2.2.2.1, ?_⟩
      intro kept
      by_cases none : distinctCount c.loadableHashes pass.stagedAt = 0
      · have ahead : pass.storageWait ≤
            coveredReadyInS c.loadableHashes pass.stagedAt := by
          by_contra behind
          exact kept ⟨priced, loaded, late, none, not_le.mp behind⟩
        exact ahead.trans (covered none).ge
      · exact later none
  | defers _ _ early =>
      refine ⟨fun forgets => absurd forgets.2.2.1 early, fun _ => ?_⟩
      exact le_add_of_nonneg_right
        (LoadPlanner.chargeFor_nonneg nonnegative.service _)
  | unaffordable _ _ early beyond =>
      refine ⟨fun forgets => absurd forgets.2.2.1 early, fun _ => ?_⟩
      exact later (Nat.ne_of_gt (Nat.zero_le _ |>.trans_lt beyond))

end Waits

/-! ## Calls -/

section Calls

variable {config : Config} {now : ℚ} {pass : Pass hash}
  {candidates : List (CandidateCostInput hash)}

/-- Behind a turn come the turns of what it leaves. -/
private theorem turns_behind
    {earlier rest : List (Pass hash × CandidateCostInput hash)}
    {turn : Pass hash × CandidateCostInput hash}
    (split : pass.turns config now candidates = earlier ++ turn :: rest) :
    ∃ others,
      rest = (turn.1.turn config now turn.2).turns config now others := by
  induction earlier generalizing pass candidates with
  | nil =>
      cases candidates with
      | nil => cases split
      | cons c others =>
          cases split
          exact ⟨others, rfl⟩
  | cons first earlier inductionHypothesis =>
      cases candidates with
      | nil => cases split
      | cons c others =>
          injection split with _ tail
          exact inductionHypothesis tail

/-- Up to the next priced candidate the wait grows by the reads that are
booked for stores. -/
private theorem wait_after_unpriced
    {between later : List (Pass hash × CandidateCostInput hash)}
    {turn : Pass hash × CandidateCostInput hash}
    (split : pass.turns config now candidates = between ++ turn :: later)
    (unpriced : ∀ skipped ∈ between, ¬ skipped.1.Prices skipped.2) :
    turn.1.storageWait = pass.storageWait +
      (between.map fun skipped =>
        skipped.1.midWriteCharge config skipped.2).sum := by
  induction between generalizing pass candidates with
  | nil =>
      cases candidates with
      | nil => cases split
      | cons c others =>
          cases split
          exact (add_zero _).symm
  | cons first between inductionHypothesis =>
      cases candidates with
      | nil => cases split
      | cons c others =>
          injection split with head tail
          subst head
          have step := (pass.turn_spec config now c).wait_of_not_prices
            (unpriced _ List.mem_cons_self)
          rw [inductionHypothesis tail fun skipped member =>
            unpriced skipped (List.mem_cons_of_mem _ member), step,
            List.map_cons, List.sum_cons, add_assoc]

end Calls

/-- The waits that the candidates of a call are priced with. -/
def Call.pricedWaits (config : Config) (planner : LoadPlanner)
    (call : Call hash) : List ℚ :=
  ((call.turns config planner).filter fun turn =>
    turn.1.Prices turn.2).map fun turn => turn.1.storageWait

/-- Whatever the call forgets is made up for by the reads that are booked for
stores before the next candidate is priced. -/
def Call.MakesUp (config : Config) (planner : LoadPlanner)
    (call : Call hash) : Prop :=
  ∀ earlier forgetting between priced later,
    call.turns config planner =
        earlier ++ forgetting :: (between ++ priced :: later) →
      forgetting.1.Forgets config call.now forgetting.2 →
      priced.1.Prices priced.2 →
      (∀ skipped ∈ between, ¬ skipped.1.Prices skipped.2) →
        forgetting.1.storageWait ≤
          coveredReadyInS forgetting.2.loadableHashes
              forgetting.1.stagedAt +
            (between.map fun skipped =>
              skipped.1.midWriteCharge config skipped.2).sum

/-- No candidate is priced with a shorter wait than an earlier one exactly
where the call makes up for what it forgets. -/
theorem priced_waits_grow_iff {config : Config}
    (nonnegative : config.tables.Nonnegative) (planner : LoadPlanner)
    (call : Call hash) :
    (call.pricedWaits config planner).Pairwise (· ≤ ·) ↔
      call.MakesUp config planner := by
  have next : ∀ earlier first between second later,
      call.turns config planner =
          earlier ++ first :: (between ++ second :: later) →
        (∀ skipped ∈ between, ¬ skipped.1.Prices skipped.2) →
          second.1.storageWait =
            (first.1.turn config call.now first.2).storageWait +
              (between.map fun skipped =>
                skipped.1.midWriteCharge config skipped.2).sum := by
    intro earlier first between second later split gone
    obtain ⟨others, rest⟩ := turns_behind split
    exact wait_after_unpriced rest.symm gone
  have charges : ∀ between : List (Pass hash × CandidateCostInput hash),
      0 ≤ (between.map fun skipped =>
        skipped.1.midWriteCharge config skipped.2).sum := by
    intro between
    apply List.sum_nonneg
    intro charge member
    obtain ⟨skipped, _, rfl⟩ := List.mem_map.mp member
    unfold Pass.midWriteCharge
    split
    · exact LoadPlanner.chargeFor_nonneg nonnegative.service _
    · exact le_refl 0
  unfold Call.pricedWaits
  rw [List.pairwise_map, ← List.isChain_iff_pairwise, isChain_filter_iff]
  constructor
  · intro grows earlier forgetting between priced later split forgets prices
      gone
    have grown := grows earlier forgetting between priced later split
      (decide_eq_true forgets.1) (decide_eq_true prices)
      (fun skipped member => by simpa using gone skipped member)
    have spec := forgetting.1.turn_spec config call.now forgetting.2
    rw [next _ _ _ _ _ split gone,
      (spec.wait_of_prices nonnegative forgets.1).1 forgets] at grown
    exact grown
  · intro makesUp earlier first between second later split kept alsoKept gone
    have unpriced : ∀ skipped ∈ between, ¬ skipped.1.Prices skipped.2 :=
      fun skipped member => by simpa using gone skipped member
    have spec := (first.1.turn_spec config call.now first.2).wait_of_prices
      nonnegative (of_decide_eq_true kept)
    by_cases forgets : first.1.Forgets config call.now first.2
    · have grown := makesUp earlier first between second later split forgets
        (of_decide_eq_true alsoKept) unpriced
      rw [next _ _ _ _ _ split unpriced, spec.1 forgets]
      exact grown
    · rw [next _ _ _ _ _ split unpriced]
      exact (spec.2 forgets).trans (le_add_of_nonneg_right (charges between))

/-! ## A call that forgets -/

/-- A candidate whose read was retired and that was then admitted. -/
def admittedPlanner : LoadPlanner :=
  LoadPlanner.init.afterCalls sampleConfig
    [⟨0, [sampleCandidate "c" [7]], []⟩, ⟨3, [sampleCandidate "c" [7]], []⟩]

/-- Its block is covered by the first of two reads when its deadline has
passed. -/
def forgetfulCall : Call Nat :=
  ⟨4, [sampleCandidate "a" [7], sampleCandidate "b" [8, 9],
    sampleCandidate "c" [7], sampleCandidate "d" [10]], []⟩

theorem forgetfulCall_waits :
    LoadPlanner.Reaches Nat sampleConfig 3 admittedPlanner ∧
      sampleConfig.tables.Nonnegative ∧
      forgetfulCall.pricedWaits sampleConfig admittedPlanner = [0, 1, 5, 1] ∧
      ¬ (forgetfulCall.pricedWaits sampleConfig admittedPlanner).Pairwise
        (· ≤ ·) := by
  have first := LoadPlanner.Reaches.plan
    (@LoadPlanner.Reaches.init Nat _ sampleConfig 0)
    ⟨0, [sampleCandidate "c" [7]], []⟩ (le_refl 0)
  have second := LoadPlanner.Reaches.plan first
    ⟨3, [sampleCandidate "c" [7]], []⟩ (by decide +kernel)
  have waits : forgetfulCall.pricedWaits sampleConfig admittedPlanner =
      [0, 1, 5, 1] := by decide +kernel
  refine ⟨second, sampleConfig_nonnegative, waits, ?_⟩
  rw [waits]
  decide +kernel

/-- The same call with a candidate that waits for a store before the last
one: its charge makes up for what is forgotten. -/
def chargedCall : Call Nat :=
  ⟨4, [sampleCandidate "a" [7], sampleCandidate "b" [8, 9],
    sampleCandidate "c" [7],
    { sampleCandidate "e" [11, 12] with blockedOnStore := true },
    sampleCandidate "d" [10]], []⟩

theorem chargedCall_makesUp :
    chargedCall.pricedWaits sampleConfig admittedPlanner = [0, 1, 5, 5] ∧
      chargedCall.MakesUp sampleConfig admittedPlanner := by
  have waits : chargedCall.pricedWaits sampleConfig admittedPlanner =
      [0, 1, 5, 5] := by
    decide +kernel
  refine ⟨waits,
    (priced_waits_grow_iff sampleConfig_nonnegative _ _).mp ?_⟩
  rw [waits]
  decide +kernel

end PyKvCache.Planner
