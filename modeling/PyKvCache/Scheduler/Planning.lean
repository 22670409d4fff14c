import PyKvCache.Planner.Turn
import PyKvCache.Scheduler.MidWrite

/-!
# The manager and its planner

`plan_candidates` looks at the files of each candidate, asks the planner and
remembers nothing itself: what the planner decided is what `lookup` answers
until the next call.  A block that is being written defers whatever was
decided.
-/

namespace PyKvCache.Scheduler

open PyKvCache.Library PyKvCache.Library.Effect PyKvCache.Staging
  PyKvCache.Planner

variable {key : Type}

/-! ## The call -/

/-- `PlanCandidate`; its `position` is only logged. -/
structure PlanCandidate (key : Type) where
  reqId : String
  recomputeTokens : Int
  keys : List key

/-- `PlanDecision`. -/
inductive PlanDecision where
  | ADMIT
  | DEFER
  | DECLINE
  deriving DecidableEq

/-- `PlanOutcome`. -/
structure PlanOutcome where
  decision : PlanDecision
  preloadBlocks : Int
  deriving DecidableEq

/-- `_DECISION_TO_PLAN`. -/
def decisionToPlan : LoadDecision → PlanDecision
  | .ADMIT => .ADMIT
  | .DEFER => .DEFER
  | .DECLINE => .DECLINE

section Program

variable (env : Env key)

/-- The inner loop of `plan_candidates`: the hashes that can be loaded, and
whether one of them is still being written. -/
def loadablePrefix {planner : Type} :
    List key → Manage planner (List BlockHash × Bool)
  | [] => pure ([], false)
  | k :: keys => do
      let hash ← getBlockHash env k
      let seen ← probe env hash
      if seen.1 then do
        let later ← loadablePrefix keys
        pure (hash :: later.1, later.2)
      else if seen.2 then do
        let later ← loadablePrefix keys
        pure (hash :: later.1, true)
      else
        pure ([], false)

/-- What the planner is told about one candidate. -/
def costInput {planner : Type} (candidate : PlanCandidate key) :
    Manage planner (CandidateCostInput BlockHash) := do
  let loadable ← loadablePrefix env candidate.keys
  pure ⟨candidate.reqId, candidate.recomputeTokens, loadable.1.length,
    loadable.1, loadable.2, false⟩

/-- The outer loop of `plan_candidates`. -/
def costInputs {planner : Type} : List (PlanCandidate key) →
    Manage planner (List (CandidateCostInput BlockHash))
  | [] => pure []
  | candidate :: candidates => do
      let input ← costInput env candidate
      let later ← costInputs candidates
      pure (input :: later)

/-- The answer of `plan_candidates` for one request. -/
def planOutcome (result : PlanResult) : PlanOutcome :=
  ⟨decisionToPlan result.decision, result.preloadBlocks⟩

/-- `plan_candidates`; the planner has the configuration it was made with and
reads the clock. -/
def planCandidates (config : Config) (now : ℚ)
    (candidates : List (PlanCandidate key))
    (outstandingLoadBlocks : List Int) :
    Manage LoadPlanner (OrderedDict String PlanOutcome) := do
  let manager ← get
  match manager.planner with
  | none => pure .empty
  | some planner => do
      let inputs ← costInputs env candidates
      let planned := planner.plan config ⟨now, inputs, outstandingLoadBlocks⟩
      modify fun manager => { manager with planner := some planned.2 }
      pure (planned.1.map planOutcome)

end Program

/-! ## What the manager finds -/

theorem Env.FilesStay.onDisk_later {env : Env key}
    (stays : env.FilesStay) {earlier later : Nat} {name : String}
    (order : earlier ≤ later) (there : env.onDisk earlier name = true) :
    env.onDisk later name = true := by
  induction order with
  | refl => exact there
  | step _ inductionHypothesis => exact stays _ _ inductionHypothesis

section Looks

variable {env : Env key} {planner : Type}
  {manager next last : Manager planner}

/-- A call that only looks at files. -/
structure Looks (env : Env key) (manager next : Manager planner) : Prop
    extends Uncounted env manager next where
  planner : next.planner = manager.planner
  clock : manager.clock ≤ next.clock

namespace Looks

theorem refl (sound : CacheSound env manager) : Looks env manager manager :=
  ⟨⟨sound, rfl⟩, rfl, Nat.le_refl _⟩

theorem trans (first : Looks env manager next)
    (second : Looks env next last) : Looks env manager last :=
  ⟨⟨second.sound, second.counts.trans first.counts⟩,
    second.planner.trans first.planner, first.clock.trans second.clock⟩

end Looks

/-- What is found out about the file of a block. -/
structure Seen (env : Env key) (manager next : Manager planner)
    (hash : BlockHash) (seen : Bool × Bool) : Prop
    extends Looks env manager next where
  here : seen.1 = true → env.onDisk next.clock (env.getFileName hash) = true
  absent : seen.1 = false →
    env.onDisk manager.clock (env.getFileName hash) = false ∧
      seen.2 = manager.storeInflight.contains hash

theorem probe_seen (sound : CacheSound env manager) (hash : BlockHash) :
    wp (probe env hash) (fun seen next => Seen env manager next hash seen)
      (fun _ _ => False) manager := by
  simp only [probe, pathExists, wp_bind, wp_get, wp_ite, wp_pure,
    wp_modifyGet, wp_modify]
  refine ⟨fun cached => ?_, fun _ => ⟨fun found => ?_, fun missing => ?_⟩⟩
  · exact ⟨.refl sound, fun _ => sound.there hash cached, by simp⟩
  · exact ⟨⟨⟨sound.seen found rfl rfl, rfl⟩, rfl, Nat.le_succ _⟩,
      fun _ => sound.stays _ _ found, by simp⟩
  · exact ⟨⟨⟨sound.later rfl rfl, rfl⟩, rfl, Nat.le_succ _⟩, by simp,
      fun _ => ⟨Bool.eq_false_iff.mpr missing, rfl⟩⟩

/-- The hashes that were found for some keys, in one look at their files
between two instants. -/
structure Loadable (env : Env key) (manager next : Manager planner)
    (keys : List key) (found : List BlockHash × Bool) : Prop where
  leading : found.1 <+: keys.map env.blockHash
  grouped : ∀ k ∈ keys.take found.1.length, env.groupIdx k = 0
  each : ∀ hash ∈ found.1,
    env.onDisk next.clock (env.getFileName hash) = true ∨
      manager.storeInflight.contains hash = true
  ready : found.2 = false → ∀ hash ∈ found.1,
    env.onDisk next.clock (env.getFileName hash) = true
  blocked : found.2 = true → ∃ hash ∈ found.1,
    env.onDisk manager.clock (env.getFileName hash) = false ∧
      manager.storeInflight.contains hash = true
  stops : ∀ hash, (keys.map env.blockHash)[found.1.length]? = some hash →
    env.onDisk manager.clock (env.getFileName hash) = false ∧
      manager.storeInflight.contains hash = false

namespace Loadable

variable {keys : List key} {k : key} {found : List BlockHash × Bool}
  {seen : Bool × Bool}

/-- What was found is found in a longer look. -/
theorem widen {before after : Manager planner}
    (loadable : Loadable env manager next keys found)
    (earlier : Looks env before manager) (later : Looks env next after) :
    Loadable env before after keys found := by
  obtain ⟨leading, grouped, each, ready, blocked, stops⟩ := loadable
  rw [earlier.counts] at each blocked stops
  have still : ∀ {hash}, env.onDisk next.clock (env.getFileName hash) = true →
      env.onDisk after.clock (env.getFileName hash) = true :=
    later.sound.stays.onDisk_later later.clock
  have missing : ∀ {hash},
      env.onDisk manager.clock (env.getFileName hash) = false →
      env.onDisk before.clock (env.getFileName hash) = false := by
    intro hash
    rw [← Bool.not_eq_true, ← Bool.not_eq_true, not_imp_not]
    exact later.sound.stays.onDisk_later earlier.clock
  refine ⟨leading, grouped, ?_, fun isReady hash member =>
    still (ready isReady hash member), ?_, fun hash next => ?_⟩
  · intro hash member
    exact (each hash member).imp_left still
  · intro isBlocked
    obtain ⟨hash, member, absent, counted⟩ := blocked isBlocked
    exact ⟨hash, member, missing absent, counted⟩
  · exact (stops hash next).imp_left missing

/-- The first block is there or is being written. -/
theorem cons (group : env.groupIdx k = 0)
    (first : Seen env manager next (env.blockHash k) seen)
    (rest : Loadable env next last keys found)
    (looked : Looks env next last)
    (counted : seen.1 = true ∨ seen.2 = true) :
    Loadable env manager last (k :: keys)
      (env.blockHash k :: found.1, !seen.1 || found.2) := by
  have wide := rest.widen first.toLooks (.refl looked.sound)
  refine ⟨?_, ?_, ?_, ?_, ?_, wide.stops⟩
  · rw [List.map_cons, List.cons_prefix_cons]
    exact ⟨rfl, wide.leading⟩
  · intro other member
    rw [List.length_cons, List.take_succ_cons] at member
    rcases List.mem_cons.mp member with rfl | later
    · exact group
    · exact wide.grouped other later
  · intro hash member
    rcases List.mem_cons.mp member with rfl | later
    · cases here : seen.1 with
      | true =>
          exact Or.inl
            (looked.sound.stays.onDisk_later looked.clock (first.here here))
      | false =>
          rw [here] at counted
          rw [← (first.absent here).2]
          exact Or.inr (counted.resolve_left nofun)
    · exact wide.each hash later
  · intro isReady hash member
    rw [Bool.or_eq_false_iff, Bool.not_eq_false'] at isReady
    rcases List.mem_cons.mp member with rfl | later
    · exact looked.sound.stays.onDisk_later looked.clock
        (first.here isReady.1)
    · exact wide.ready isReady.2 hash later
  · intro isBlocked
    cases here : seen.1 with
    | false =>
        rw [here] at counted
        refine ⟨_, List.mem_cons_self, (first.absent here).1, ?_⟩
        rw [← (first.absent here).2]
        exact counted.resolve_left nofun
    | true =>
        rw [here, Bool.not_true, Bool.false_or] at isBlocked
        obtain ⟨hash, member, rest⟩ := wide.blocked isBlocked
        exact ⟨hash, List.mem_cons_of_mem _ member, rest⟩

end Loadable

theorem loadablePrefix_loadable (sound : CacheSound env manager)
    (keys : List key) :
    wp (loadablePrefix env keys)
      (fun found next => Looks env manager next ∧
        Loadable env manager next keys found)
      (fun _ => Looks env manager) manager := by
  induction keys generalizing manager with
  | nil =>
      exact ⟨.refl sound, List.nil_prefix, by simp, by simp,
        fun _ => by simp, by simp, by simp⟩
  | cons k keys inductionHypothesis =>
      simp only [loadablePrefix, getBlockHash, wp_bind, wp_ite, wp_throw,
        wp_pure]
      refine ⟨fun _ => .refl sound, fun group => ?_⟩
      rw [not_not] at group
      refine wp_post (wp_returns (probe_seen sound (env.blockHash k))) ?_
      intro seen next first
      have further := @inductionHypothesis next first.sound
      refine ⟨fun here => ?_, fun absent => ⟨fun writing => ?_,
        fun missing => ?_⟩⟩
      · refine wp_mono further ?_ fun _ _ => first.toLooks.trans
        rintro found last ⟨looked, rest⟩
        have grown := Loadable.cons group first rest looked (Or.inl here)
        rw [here] at grown
        exact ⟨first.toLooks.trans looked, grown⟩
      · refine wp_mono further ?_ fun _ _ => first.toLooks.trans
        rintro found last ⟨looked, rest⟩
        have grown := Loadable.cons group first rest looked (Or.inr writing)
        rw [Bool.eq_false_iff.mpr absent] at grown
        exact ⟨first.toLooks.trans looked, grown⟩
      · refine ⟨first.toLooks, List.nil_prefix, by simp, by simp,
          fun _ => by simp, by simp, fun hash isFirst => ?_⟩
        have there := first.absent (Bool.eq_false_iff.mpr absent)
        rw [List.map_cons, List.length_nil, List.getElem?_cons_zero,
          Option.some.injEq] at isFirst
        rw [← isFirst, ← there.2]
        exact ⟨there.1, Bool.eq_false_iff.mpr missing⟩

end Looks

/-! ## What the planner answers -/

section Answers

variable {hash : Type} [DecidableEq hash] {config : Config}

/-- An answer that can be given to a candidate. -/
structure Fits (c : CandidateCostInput hash) (result : PlanResult) :
    Prop where
  blocked : c.blockedOnStore = true → result.decision = .DEFER
  missing : c.blockedOnStore = false → c.loadBlocks = 0 →
    result.decision = .DECLINE
  admitted : result.decision = .ADMIT →
    c.blockedOnStore = false ∧ c.loadBlocks ≠ 0
  settled : result.decision ≠ .DEFER → result.preloadBlocks = 0

theorem turn_fits (now : ℚ) (pass : Pass hash)
    (c : CandidateCostInput hash) :
    ∃ result, (pass.turn config now c).decisions =
      pass.decisions.set c.reqId result ∧ Fits c result := by
  by_cases nothing : c.blockedOnStore = false ∧ c.loadBlocks = 0
  · refine ⟨⟨.DECLINE, 0⟩, ?_, by simp [nothing], fun _ _ => rfl, nofun,
      fun _ => rfl⟩
    unfold Pass.turn
    rw [if_neg (by simp [nothing.1]), if_pos nothing.2]
    rfl
  have deferred {preloadBlocks : Int} : Fits c ⟨.DEFER, preloadBlocks⟩ :=
    ⟨fun _ => rfl, fun ready none => absurd ⟨ready, none⟩ nothing, nofun,
      fun other => absurd rfl other⟩
  have admitted (ready : c.blockedOnStore = false) :
      Fits c ⟨.ADMIT, 0⟩ :=
    ⟨by simp [ready], fun _ none => absurd ⟨ready, none⟩ nothing,
      fun _ => ⟨ready, fun none => nothing ⟨ready, none⟩⟩, fun _ => rfl⟩
  have declined (ready : c.blockedOnStore = false) :
      Fits c ⟨.DECLINE, 0⟩ :=
    ⟨by simp [ready], fun _ _ => rfl, nofun, fun _ => rfl⟩
  have spec := pass.turn_spec config now c
  revert spec
  generalize pass.turn config now c = after
  intro spec
  cases spec with
  | rides => exact ⟨_, rfl, deferred⟩
  | reads => exact ⟨_, rfl, deferred⟩
  | full => exact ⟨_, rfl, deferred⟩
  | missing ready => exact ⟨_, rfl, declined ready⟩
  | resident ready => exact ⟨_, rfl, admitted ready⟩
  | overdue _ ready => exact ⟨_, rfl, admitted ready⟩
  | redefers => exact ⟨_, rfl, deferred⟩
  | breakEven priced => exact ⟨_, rfl, declined priced.1⟩
  | deadline priced => exact ⟨_, rfl, admitted priced.1⟩
  | defers => exact ⟨_, rfl, deferred⟩
  | unaffordable priced => exact ⟨_, rfl, admitted priced.1⟩

private theorem turns_fit {now : ℚ} {pass : Pass hash}
    {candidates : List (CandidateCostInput hash)} {reqId : String}
    {result : PlanResult}
    (answered : (candidates.foldl (Pass.turn config now)
      pass).decisions.find? reqId = some result) :
    pass.decisions.find? reqId = some result ∨
      ∃ c ∈ candidates, c.reqId = reqId ∧ Fits c result := by
  induction candidates generalizing pass with
  | nil => exact Or.inl answered
  | cons c rest inductionHypothesis =>
      rcases inductionHypothesis answered with early | ⟨other, later, fits⟩
      · obtain ⟨given, set, fits⟩ := @turn_fits hash _ config now pass c
        rw [set, OrderedDict.find?_set] at early
        split at early
        next same =>
          rw [← Option.some.inj early]
          exact Or.inr ⟨c, List.mem_cons_self, same.symm, fits⟩
        next => exact Or.inl early
      · exact Or.inr ⟨other, List.mem_cons_of_mem c later, fits⟩

/-- Every answer is given to a candidate it fits. -/
theorem plan_answers_fit {planner : LoadPlanner} {call : Planner.Call hash}
    {reqId : String} {result : PlanResult}
    (answered : (planner.plan config call).1.find? reqId = some result) :
    ∃ c ∈ call.candidates, c.reqId = reqId ∧ Fits c result :=
  (turns_fit answered).resolve_left nofun

/-- Every candidate is given an answer. -/
theorem plan_answers_all {planner : LoadPlanner} {call : Planner.Call hash}
    {c : CandidateCostInput hash} (member : c ∈ call.candidates) :
    ∃ result, (planner.plan config call).1.find? c.reqId = some result := by
  obtain ⟨before, taken⟩ := @Pass.exists_turn hash _ config call.now
    (call.start config planner) _ c member
  refine @Pass.turns_after hash _ config call.now
    (fun pass => ∃ result, pass.decisions.find? c.reqId = some result) _ _
    ?_ _ taken ?_
  · rintro pass after other _ step ⟨result, found⟩
    obtain ⟨given, set⟩ := step.decisions
    rw [set, OrderedDict.find?_set]
    split
    · exact ⟨given, rfl⟩
    · exact ⟨result, found⟩
  · obtain ⟨given, set⟩ := (before.turn_spec config call.now c).decisions
    rw [set, OrderedDict.find?_set, if_pos rfl]
    exact ⟨given, rfl⟩

end Answers

/-! ## One call -/

section Candidates

variable {env : Env key} {planner : Type}
  {manager next last : Manager planner}

/-- What the planner is told about a candidate agrees with the files. -/
structure Told (env : Env key) (manager next : Manager planner)
    (candidate : PlanCandidate key) (input : CandidateCostInput BlockHash) :
    Prop where
  reqId : input.reqId = candidate.reqId
  blocks : input.loadBlocks = input.loadableHashes.length
  loadable : Loadable env manager next candidate.keys
    (input.loadableHashes, input.blockedOnStore)

theorem costInputs_told (sound : CacheSound env manager)
    (candidates : List (PlanCandidate key)) :
    wp (costInputs env candidates)
      (fun inputs next => Looks env manager next ∧
        List.Forall₂ (Told env manager next) candidates inputs)
      (fun _ => Looks env manager) manager := by
  induction candidates generalizing manager with
  | nil => exact ⟨.refl sound, .nil⟩
  | cons candidate candidates inductionHypothesis =>
      simp only [costInputs, costInput, wp_bind, wp_pure]
      refine wp_post (loadablePrefix_loadable sound candidate.keys) ?_
      rintro found next ⟨looked, loadable⟩
      refine wp_mono (inductionHypothesis looked.sound) ?_
        fun _ _ => looked.trans
      rintro inputs last ⟨later, told⟩
      refine ⟨looked.trans later, .cons ?_ (told.imp fun _ _ each => ?_)⟩
      · exact ⟨rfl, rfl, loadable.widen (.refl sound) later⟩
      · exact ⟨each.reqId, each.blocks,
          each.loadable.widen looked (.refl later.sound)⟩

end Candidates

/-- An item of the first list is related to one of the second. -/
private theorem exists_of_paired {left right : Type}
    {related : left → right → Prop} {xs : List left} {ys : List right}
    {x : left} (paired : List.Forall₂ related xs ys) (member : x ∈ xs) :
    ∃ y ∈ ys, related x y := by
  induction paired with
  | nil => cases member
  | cons first rest inductionHypothesis =>
      rcases List.mem_cons.mp member with rfl | later
      · exact ⟨_, List.mem_cons_self, first⟩
      · obtain ⟨y, listed, related⟩ := inductionHypothesis later
        exact ⟨y, List.mem_cons_of_mem _ listed, related⟩

section Call

variable {env : Env key} {config : Config} {manager : Manager LoadPlanner}
  {now : ℚ} {candidates : List (PlanCandidate key)}
  {outstandingLoadBlocks : List Int}

/-- The manager after a call of `plan_candidates` that returned. -/
structure Consults (env : Env key) (manager : Manager LoadPlanner)
    (candidates : List (PlanCandidate key))
    (answers : OrderedDict String PlanOutcome)
    (next : Manager LoadPlanner) : Prop where
  uncounted : Uncounted env manager next
  clock : manager.clock ≤ next.clock
  heard : ∀ reqId, answers.find? reqId = next.planner.bind fun planner =>
    (planner.decisions.find? reqId).map planOutcome
  fits : ∀ reqId outcome, answers.find? reqId = some outcome →
    ∃ candidate ∈ candidates, candidate.reqId = reqId ∧
      ∃ input result, Told env manager next candidate input ∧
        Fits input result ∧ planOutcome result = outcome
  all : manager.planner ≠ none → ∀ candidate ∈ candidates,
    ∃ outcome, answers.find? candidate.reqId = some outcome
  planner : manager.planner = none ↔ next.planner = none

theorem planCandidates_consults (sound : CacheSound env manager) :
    wp (planCandidates env config now candidates outstandingLoadBlocks)
      (Consults env manager candidates) (fun _ => Looks env manager)
      manager := by
  unfold planCandidates
  simp only [wp_bind, wp_get]
  cases present : manager.planner with
  | none =>
      refine ⟨⟨sound, rfl⟩, Nat.le_refl _, fun reqId => ?_, by simp,
        fun other => absurd present other, Iff.rfl⟩
      rw [present]
      rfl
  | some planner =>
      simp only [wp_bind, wp_modify, wp_pure]
      refine wp_post (costInputs_told sound candidates) ?_
      rintro inputs next ⟨looked, told⟩
      refine ⟨⟨looked.sound.unchanged rfl rfl, looked.counts⟩, looked.clock,
        fun reqId => ?_, fun reqId outcome answered => ?_,
        fun _ candidate member => ?_, ?_⟩
      · rw [OrderedDict.find?_map]
        rfl
      · rw [OrderedDict.find?_map, Option.map_eq_some_iff] at answered
        obtain ⟨result, answered, rfl⟩ := answered
        obtain ⟨input, member, rfl, fits⟩ := plan_answers_fit answered
        obtain ⟨candidate, listed, told⟩ :=
          exists_of_paired told.flip member
        exact ⟨candidate, listed, told.reqId.symm, input, result,
          ⟨told.reqId, told.blocks, { told.loadable with }⟩, fits, rfl⟩
      · obtain ⟨input, listed, told⟩ := exists_of_paired told member
        obtain ⟨result, answered⟩ := @plan_answers_all _ _ config planner
          ⟨now, inputs, outstandingLoadBlocks⟩ input listed
        rw [told.reqId] at answered
        exact ⟨planOutcome result, by
          rw [OrderedDict.find?_map, answered]
          rfl⟩
      · simp [present]

end Call

/-! ## Histories -/

/-- The manager and its stores, and the last call of `plan_candidates`. -/
structure Consulted (key : Type) where
  world : World key LoadPlanner
  candidates : List (PlanCandidate key)
  since : Nat
  answers : OrderedDict String PlanOutcome

/-- A call of the scheduler. -/
inductive Consult (key : Type) where
  | ofManager (call : Call key)
  | planCandidates (now : ℚ) (candidates : List (PlanCandidate key))
      (outstandingLoadBlocks : List Int)

/-- What `lookup` makes of a decision. -/
def heeded (decision : Option PlanDecision) (found : Bool) : Option Bool :=
  match decision with
  | some .DECLINE => some false
  | some .DEFER => none
  | _ => some found

namespace Consulted

/-- After `__init__`, with or without a planner. -/
def init (planning : Bool) : Consulted key :=
  ⟨.init (if planning then some .init else none), [], 0, .empty⟩

variable [DecidableEq key]

/-- A call; when `plan_candidates` raises, the last answers stay. -/
def after (env : Env key) (config : Config) (consulted : Consulted key) :
    Consult key → Consulted key
  | .ofManager .resetCache =>
      ⟨consulted.world.after env .resetCache, [], 0, .empty⟩
  | .ofManager call =>
      { consulted with world := consulted.world.after env call }
  | .planCandidates now candidates outstandingLoadBlocks =>
      match planCandidates env config now candidates outstandingLoadBlocks
          consulted.world.manager with
      | .ok answers manager =>
          ⟨⟨manager, consulted.world.stores⟩, candidates,
            consulted.world.manager.clock, answers⟩
      | .error _ manager =>
          { consulted with world := ⟨manager, consulted.world.stores⟩ }

/-- The calls that can be made. -/
def Allows (env : Env key) (consulted : Consulted key) :
    Consult key → Prop
  | .ofManager call =>
      consulted.world.Allows call ∧ InOrder env consulted.world call
  | .planCandidates .. => True

/-- Reachable by calls of the scheduler, in order. -/
def Reachable (env : Env key) (config : Config) (planning : Bool)
    (consulted : Consulted key) : Prop :=
  Relation.ReflTransGen
    (fun before next => ∃ call, before.Allows env call ∧
      next = before.after env config call)
    (init planning) consulted

/-- What `lookup` is to say about a block for a request: a block that is being
written is deferred, and otherwise the last plan decides. -/
def verdictFor (env : Env key) (consulted : Consulted key)
    (reqId : Option String) (hash : BlockHash) : Option Bool :=
  let found := env.onDisk consulted.world.manager.clock (env.getFileName hash)
  if found = false ∧ consulted.world.Writing env hash then
    none
  else
    heeded ((reqId.bind consulted.answers.find?).map PlanOutcome.decision)
      found

end Consulted

/-- What speaks for an answer: how many of the first keys of the candidate
could be loaded when the call began, and that an admitted request finds them
all. -/
structure Grounds (env : Env key) (since clock : Nat)
    (candidate : PlanCandidate key) (outcome : PlanOutcome) (count : Nat) :
    Prop where
  within : count ≤ candidate.keys.length
  missing : count = 0 → outcome.decision = .DECLINE
  admitted : outcome.decision = .ADMIT → 0 < count ∧
    ∀ k ∈ candidate.keys.take count, env.groupIdx k = 0 ∧
      env.onDisk clock (env.getFileName (env.blockHash k)) = true
  stops : ∀ k, candidate.keys[count]? = some k →
    env.onDisk since (env.getFileName (env.blockHash k)) = false

/-- The last answers are the planner's, and there are grounds for them. -/
structure ConsultedBooks (env : Env key) (consulted : Consulted key) :
    Prop where
  books : ManagerBooks env consulted.world
  heard : ∀ reqId, consulted.answers.find? reqId =
    consulted.world.manager.planner.bind fun planner =>
      (planner.decisions.find? reqId).map planOutcome
  all : consulted.world.manager.planner ≠ none →
    ∀ candidate ∈ consulted.candidates,
      ∃ outcome, consulted.answers.find? candidate.reqId = some outcome
  grounds : ∀ reqId outcome, consulted.answers.find? reqId = some outcome →
    ∃ candidate ∈ consulted.candidates, candidate.reqId = reqId ∧
      ∃ count, Grounds env consulted.since consulted.world.manager.clock
        candidate outcome count

section Steps

variable {env : Env key} {config : Config} {planner : Type}

theorem Told.grounds {manager next : Manager planner}
    {candidate : PlanCandidate key} {input : CandidateCostInput BlockHash}
    {result : PlanResult} (told : Told env manager next candidate input)
    (fits : Fits input result) :
    Grounds env manager.clock next.clock candidate (planOutcome result)
      input.loadableHashes.length := by
  have loadable := told.loadable
  have within := loadable.leading.length_le
  rw [List.length_map] at within
  refine ⟨within, fun nothing => ?_, fun admitted => ?_, fun k isNext => ?_⟩
  · have ready : input.blockedOnStore = false := by
      rw [← Bool.not_eq_true]
      intro blocked
      obtain ⟨hash, member, _⟩ := loadable.blocked blocked
      rw [List.length_eq_zero_iff.mp nothing] at member
      cases member
    have declined := fits.missing ready (by rw [told.blocks, nothing]; rfl)
    rw [planOutcome, declined]
    rfl
  · have isAdmitted : result.decision = .ADMIT := by
      unfold planOutcome at admitted
      cases decided : result.decision <;> rw [decided] at admitted <;>
        first | rfl | cases admitted
    obtain ⟨ready, filled⟩ := fits.admitted isAdmitted
    rw [told.blocks] at filled
    refine ⟨by omega, fun k member => ⟨loadable.grouped k member, ?_⟩⟩
    apply loadable.ready ready
    have leading : input.loadableHashes =
        (candidate.keys.take input.loadableHashes.length).map
          env.blockHash := by
      rw [List.map_take]
      exact List.prefix_iff_eq_take.mp loadable.leading
    change env.blockHash k ∈ input.loadableHashes
    rw [leading]
    exact List.mem_map_of_mem member
  · refine (loadable.stops (env.blockHash k) ?_).1
    rw [List.getElem?_map, isNext]
    rfl

theorem Grounds.later {since clock later : Nat}
    {candidate : PlanCandidate key} {outcome : PlanOutcome} {count : Nat}
    (grounds : Grounds env since clock candidate outcome count)
    (stays : env.FilesStay) (order : clock ≤ later) :
    Grounds env since later candidate outcome count :=
  ⟨grounds.within, grounds.missing,
    fun admitted => ⟨(grounds.admitted admitted).1, fun k member =>
      ((grounds.admitted admitted).2 k member).imp_right
        (stays.onDisk_later order)⟩,
    grounds.stops⟩

/-- A call that is not for the planner. -/
def Apart (start : Manager planner) (current : Manager planner) : Prop :=
  current.planner = start.planner ∧ start.clock ≤ current.clock

section Apart

variable {start : Manager planner}

theorem getBlockHash_apart (k : key) :
    Keeps (Apart start) (getBlockHash env k) :=
  Keeps.ite (Keeps.throw _) (Keeps.pure _)

theorem pathExists_apart (hash : BlockHash) :
    Keeps (Apart start) (pathExists env hash) :=
  Keeps.modifyGet fun _ apart => ⟨apart.1, Nat.le_succ_of_le apart.2⟩

theorem maybeFlush_apart (reqId : Option String) :
    Keeps (Apart start) (maybeFlushLookupCache reqId) := by
  refine Keeps.modify fun current apart => ?_
  split
  · exact apart
  · exact apart

theorem prepareLoad_apart (keys : List key) (reqId : Option String) :
    Keeps (Apart start) (prepareLoad env keys reqId) := by
  refine Keeps.bind (maybeFlush_apart reqId) fun _ => ?_
  induction keys with
  | nil => exact Keeps.pure _
  | cons k keys inductionHypothesis =>
      exact Keeps.bind (getBlockHash_apart k) fun _ =>
        Keeps.bind inductionHypothesis fun _ => Keeps.pure _

theorem prepareKeys_apart (keys : List key) :
    Keeps (Apart start) (prepareKeys env keys) := by
  induction keys with
  | nil => exact Keeps.pure _
  | cons k keys inductionHypothesis =>
      refine Keeps.bind (getBlockHash_apart k) fun hash =>
        Keeps.bind (pathExists_apart hash) fun found =>
          Keeps.ite inductionHypothesis ?_
      exact Keeps.bind (Keeps.modify fun _ apart => apart) fun _ =>
        Keeps.bind inductionHypothesis fun _ => Keeps.pure _

theorem prepareStore_apart (keys : List key) (reqId : Option String) :
    Keeps (Apart start) (prepareStore env keys reqId) :=
  Keeps.bind (maybeFlush_apart reqId) fun _ =>
    Keeps.bind (prepareKeys_apart keys) fun _ =>
      Keeps.bind (Keeps.modify fun _ apart => apart) fun _ => Keeps.pure _

theorem completeStore_apart (keys : List key) :
    Keeps (Apart start) (completeStore env keys) :=
  Keeps.forM fun k => Keeps.bind (getBlockHash_apart k) fun _ =>
    Keeps.modify fun _ apart => apart

theorem probe_apart (hash : BlockHash) :
    Keeps (Apart start) (probe env hash) :=
  Keeps.bind Keeps.get fun _ => Keeps.ite (Keeps.pure _)
    (Keeps.bind (pathExists_apart hash) fun _ => Keeps.ite
      (Keeps.bind (Keeps.modify fun _ apart => apart) fun _ => Keeps.pure _)
      (Keeps.bind Keeps.get fun _ => Keeps.pure _))

theorem cachedExists_apart (hash : BlockHash) :
    Keeps (Apart start) (cachedExists env hash) :=
  Keeps.bind Keeps.get fun _ => Keeps.ite (Keeps.pure _)
    (Keeps.bind (pathExists_apart hash) fun _ =>
      Keeps.bind (Keeps.onlyIf (Keeps.modify fun _ apart => apart)) fun _ =>
        Keeps.pure _)

theorem lookup_apart [Scheduler.Planner planner] (k : key)
    (reqId : Option String) :
    Keeps (Apart start) (lookup env k reqId) := by
  refine Keeps.bind (getBlockHash_apart k) fun hash =>
    Keeps.bind Keeps.get fun _ => Keeps.bind (cachedExists_apart hash)
      fun _ => Keeps.bind Keeps.get fun _ => ?_
  refine Keeps.bind (Keeps.modify fun _ apart => apart) fun _ =>
    Keeps.bind (Keeps.onlyIf (Keeps.modify fun _ apart => apart)) fun _ => ?_
  exact Keeps.ite (Keeps.pure _) (Keeps.bind Keeps.get fun _ => Keeps.pure _)

/-- Only `reset_cache` and `plan_candidates` change the planner. -/
theorem World.after_apart [DecidableEq key] [Scheduler.Planner planner]
    (world : World key planner) (call : Call key)
    (other : call ≠ .resetCache) :
    Apart world.manager (world.after env call).manager := by
  have start : Apart world.manager world.manager := ⟨rfl, Nat.le_refl _⟩
  cases call with
  | prepareStore keys reqId =>
      have kept := @prepareStore_apart key env planner world.manager keys
        reqId world.manager start
      unfold wp at kept
      unfold World.after
      split at kept
      next returned =>
        simp only [returned]
        exact kept
      next raised =>
        simp only [raised]
        exact kept
  | completeStore store keys =>
      exact of_leaves (completeStore_apart keys world.manager start)
  | lookup k reqId =>
      exact of_leaves (lookup_apart k reqId world.manager start)
  | probe hash => exact of_leaves (probe_apart hash world.manager start)
  | prepareLoad keys reqId =>
      exact of_leaves (prepareLoad_apart keys reqId world.manager start)
  | resetCache => exact absurd rfl other
  | wait => exact ⟨rfl, Nat.le_succ _⟩

end Apart

end Steps

/-- `lookup` heeds the last plan. -/
theorem planned_eq_heeded (manager : Manager LoadPlanner)
    (reqId : Option String) (cached : Bool) :
    planned manager reqId cached =
      heeded ((reqId.bind fun reqId => manager.planner.bind fun planner =>
        (planner.decisions.find? reqId).map planOutcome).map
          PlanOutcome.decision) cached := by
  unfold planned
  cases manager.planner with
  | none => cases reqId <;> rfl
  | some planner =>
      cases reqId with
      | none => rfl
      | some reqId =>
          simp only [Option.bind_some, Option.map_map, Planner.decisionFor,
            LoadPlanner.decisionFor]
          cases planner.decisions.find? reqId with
          | none => rfl
          | some result =>
              obtain ⟨decision, preloadBlocks⟩ := result
              cases decision <;> rfl

namespace ConsultedBooks

variable {env : Env key} {config : Config} {consulted : Consulted key}

theorem init (stays : env.FilesStay) (planning : Bool) :
    ConsultedBooks env (.init planning : Consulted key) := by
  refine ⟨managerBooks_init stays _, fun reqId => ?_, fun _ => nofun, nofun⟩
  cases planning <;> rfl

/-- The books decide what `lookup` says. -/
theorem lookup (books : ConsultedBooks env consulted) (k : key)
    (reqId : Option String) (group : env.groupIdx k = 0) :
    ∃ final, Scheduler.lookup env k reqId consulted.world.manager =
      .ok (consulted.verdictFor env reqId (env.blockHash k)) final := by
  have said : wp (Scheduler.lookup env k reqId)
      (fun said _ =>
        said = consulted.verdictFor env reqId (env.blockHash k))
      (fun _ _ => False) consulted.world.manager := by
    simp only [Scheduler.lookup, getBlockHash, addEvent, wp_bind, wp_get,
      wp_ite, wp_pure, wp_modify, wp_onlyIf, wp_throw]
    refine ⟨fun other => other group, fun _ => wp_post
      (cachedExists_answer books.books.sound (env.blockHash k)) ?_⟩
    rintro cached next ⟨answer, counts, samePlanner⟩
    have writing := books.books.contains_iff (env.blockHash k)
    have decided : ∀ manager : Manager LoadPlanner,
        manager.planner = consulted.world.manager.planner →
        planned manager reqId cached =
          heeded ((reqId.bind consulted.answers.find?).map
            PlanOutcome.decision) cached := by
      intro manager same
      rw [planned_eq_heeded, same, funext books.heard]
    simp only [Consulted.verdictFor, ← answer, ← writing, counts]
    generalize heeded ((reqId.bind consulted.answers.find?).map
      PlanOutcome.decision) cached = said at decided ⊢
    cases cached with
    | true => simp [decided, samePlanner]
    | false =>
        cases consulted.world.manager.storeInflight.contains
            (env.blockHash k) with
        | true => simp
        | false => simp [decided, samePlanner]
  obtain ⟨_, final, returned, rfl⟩ := returned_of_wp said
  exact ⟨final, returned⟩

variable [DecidableEq key]

theorem ofManager (books : ConsultedBooks env consulted) {call : Call key}
    (allowed : consulted.world.Allows call)
    (inOrder : InOrder env consulted.world call) :
    ConsultedBooks env (consulted.after env config (.ofManager call)) := by
  have after := books.books.after allowed inOrder
  by_cases other : call = .resetCache
  · subst other
    refine ⟨after, fun reqId => ?_, fun _ => nofun, nofun⟩
    change none = (consulted.world.manager.planner.map LoadPlanner.reset).bind
      fun planner => (planner.decisions.find? reqId).map planOutcome
    cases consulted.world.manager.planner <;> rfl
  · obtain ⟨planner, clock⟩ := @World.after_apart key env LoadPlanner _ _
      consulted.world call other
    have unchanged : consulted.after env config (.ofManager call) =
        { consulted with world := consulted.world.after env call } := by
      cases call <;> first | rfl | exact absurd rfl other
    rw [unchanged]
    refine ⟨after, ?_, ?_, fun reqId outcome answered => ?_⟩
    · rw [planner]
      exact books.heard
    · rw [planner]
      exact books.all
    · obtain ⟨candidate, listed, same, count, grounds⟩ :=
        books.grounds reqId outcome answered
      exact ⟨candidate, listed, same, count,
        grounds.later books.books.sound.stays clock⟩

theorem planCandidates (books : ConsultedBooks env consulted) {now : ℚ}
    {candidates : List (PlanCandidate key)}
    {outstandingLoadBlocks : List Int} :
    ConsultedBooks env (consulted.after env config
      (.planCandidates now candidates outstandingLoadBlocks)) := by
  have outcome := @planCandidates_consults key env config _ now candidates
    outstandingLoadBlocks books.books.sound
  unfold wp at outcome
  unfold Consulted.after
  split at outcome
  next answers manager returned =>
    simp only [returned]
    refine ⟨books.books.uncounted outcome.uncounted, outcome.heard,
      fun planning => outcome.all fun none =>
        planning (outcome.planner.mp none), fun reqId given answered => ?_⟩
    obtain ⟨candidate, listed, same, input, result, told, fits, rfl⟩ :=
      outcome.fits reqId given answered
    exact ⟨candidate, listed, same, _, told.grounds fits⟩
  next raised manager failed =>
    simp only [failed]
    refine ⟨books.books.uncounted outcome.toUncounted, ?_, ?_,
      fun reqId given answered => ?_⟩
    · rw [outcome.planner]
      exact books.heard
    · rw [outcome.planner]
      exact books.all
    · obtain ⟨candidate, listed, same, count, grounds⟩ :=
        books.grounds reqId given answered
      exact ⟨candidate, listed, same, count,
        grounds.later books.books.sound.stays outcome.clock⟩

theorem after (books : ConsultedBooks env consulted) {call : Consult key}
    (allowed : consulted.Allows env call) :
    ConsultedBooks env (consulted.after env config call) := by
  cases call with
  | ofManager call => exact books.ofManager allowed.1 allowed.2
  | planCandidates => exact books.planCandidates

end ConsultedBooks

/-! ## What `lookup` says -/

section Runs

variable [DecidableEq key] {env : Env key} {config : Config}
  {planning : Bool} {consulted : Consulted key}

theorem consultedBooks (stays : env.FilesStay)
    (reached : Consulted.Reachable env config planning consulted) :
    ConsultedBooks env consulted := by
  induction reached with
  | refl => exact .init stays planning
  | tail _ step inductionHypothesis =>
      obtain ⟨call, allowed, rfl⟩ := step
      exact inductionHypothesis.after allowed

/-- A planner is never lost. -/
theorem Consulted.Reachable.planner
    (reached : Consulted.Reachable env config true consulted)
    (stays : env.FilesStay) :
    consulted.world.manager.planner ≠ none := by
  induction reached with
  | refl => exact nofun
  | @tail before _ earlier step inductionHypothesis =>
      obtain ⟨call, allowed, rfl⟩ := step
      cases call with
      | ofManager call =>
          by_cases other : call = .resetCache
          · subst other
            intro lost
            exact inductionHypothesis (Option.map_eq_none_iff.mp lost)
          · have kept := @World.after_apart key env LoadPlanner _ _
              before.world call other
            have same : (before.after env config (.ofManager call)).world =
                before.world.after env call := by
              cases call <;> rfl
            rw [same, kept.1]
            exact inductionHypothesis
      | planCandidates now candidates outstandingLoadBlocks =>
          have outcome := @planCandidates_consults key env config _ now
            candidates outstandingLoadBlocks
            (consultedBooks stays earlier).books.sound
          unfold wp at outcome
          unfold Consulted.after
          split at outcome
          next returned =>
            simp only [returned]
            exact fun lost => inductionHypothesis (outcome.planner.mpr lost)
          next failed =>
            simp only [failed]
            rw [outcome.planner]
            exact inductionHypothesis

/-- While files that are there stay, and after any history of calls: `lookup`
defers a block that is being written, and for every other block it heeds the
answer that the last call of `plan_candidates` gave to the request, if it gave
one and no reset came since. -/
theorem lookups_follow (stays : env.FilesStay)
    (reached : Consulted.Reachable env config planning consulted) (k : key)
    (reqId : Option String) (group : env.groupIdx k = 0) :
    ∃ final, lookup env k reqId consulted.world.manager =
      .ok (consulted.verdictFor env reqId (env.blockHash k)) final :=
  (consultedBooks stays reached).lookup k reqId group

/-- While files that are there stay, and after any history of calls: every
candidate of the last plan has its answer, and there are grounds for every
answer: the request is declined when its first block is neither there nor
being written, and an admitted request has a prefix, up to a block that was
missing when the plan began, whose lookups all say that the block is there. -/
theorem answers_grounded (stays : env.FilesStay)
    (reached : Consulted.Reachable env config true consulted) :
    (∀ candidate ∈ consulted.candidates,
      ∃ outcome, consulted.answers.find? candidate.reqId = some outcome) ∧
    ∀ reqId outcome, consulted.answers.find? reqId = some outcome →
      ∃ candidate ∈ consulted.candidates, candidate.reqId = reqId ∧
        ∃ count ≤ candidate.keys.length,
          (count = 0 → outcome.decision = .DECLINE) ∧
          (outcome.decision = .ADMIT → 0 < count ∧
            ∀ k ∈ candidate.keys.take count,
              ∃ final, lookup env k (some reqId) consulted.world.manager =
                .ok (some true) final) ∧
          ∀ k, candidate.keys[count]? = some k →
            env.onDisk consulted.since
              (env.getFileName (env.blockHash k)) = false := by
  have books := consultedBooks stays reached
  refine ⟨books.all (reached.planner stays), fun reqId outcome answered => ?_⟩
  obtain ⟨candidate, listed, same, count, grounds⟩ :=
    books.grounds reqId outcome answered
  refine ⟨candidate, listed, same, count, grounds.within, grounds.missing,
    fun admitted => ?_, grounds.stops⟩
  obtain ⟨positive, served⟩ := grounds.admitted admitted
  refine ⟨positive, fun k member => ?_⟩
  obtain ⟨group, there⟩ := served k member
  obtain ⟨final, said⟩ := books.lookup k (some reqId) group
  refine ⟨final, said.trans ?_⟩
  rw [Consulted.verdictFor, there, Option.bind_some, answered,
    Option.map_some, admitted]
  rfl

end Runs

section Examples

/-- The files of two blocks have been there all along. -/
def shelf : Env BlockHash where
  groupIdx := fun _ => 0
  blockHash := id
  getFileName := toString
  onDisk := fun _ name => name = "[1]" ∨ name = "[2]"

theorem shelf_filesStay : shelf.FilesStay :=
  fun _ _ there => there

/-- A request with two blocks that are there and one that is not. -/
def shelved : PlanCandidate BlockHash := ⟨"a", 16, [[1], [2], [3]]⟩

/-- The request has been planned once: its blocks are read ahead. -/
def readAhead : Consulted BlockHash :=
  (Consulted.init true).after shelf sampleConfig
    (.planCandidates 0 [shelved] [])

theorem readAhead_follows :
    ∃ final, lookup shelf [1] (some "a") readAhead.world.manager =
      .ok none final := by
  have reached : Consulted.Reachable shelf sampleConfig true readAhead :=
    Relation.ReflTransGen.single
      ⟨.planCandidates 0 [shelved] [], trivial, rfl⟩
  have deferred : readAhead.verdictFor shelf (some "a") [1] = none := by
    decide +kernel
  have said := lookups_follow shelf_filesStay reached [1] (some "a") rfl
  rwa [show shelf.blockHash [1] = [1] from rfl, deferred] at said

/-- It is planned again when they have been read. -/
def readDone : Consulted BlockHash :=
  readAhead.after shelf sampleConfig (.planCandidates 10 [shelved] [])

theorem readDone_grounded :
    ∃ count ≤ shelved.keys.length, 0 < count ∧
      ∀ k ∈ shelved.keys.take count,
        ∃ final, lookup shelf k (some "a") readDone.world.manager =
          .ok (some true) final := by
  have reached : Consulted.Reachable shelf sampleConfig true readDone :=
    (Relation.ReflTransGen.single
      ⟨.planCandidates 0 [shelved] [], trivial, rfl⟩).tail
        ⟨.planCandidates 10 [shelved] [], trivial, rfl⟩
  have answered : readDone.answers.find? "a" = some ⟨.ADMIT, 0⟩ := by
    decide +kernel
  have only : readDone.candidates.map PlanCandidate.keys =
      [shelved.keys] := by decide +kernel
  obtain ⟨candidate, listed, _, count, within, _, admitted, _⟩ :=
    (answers_grounded shelf_filesStay reached).2 "a" _ answered
  have same : candidate.keys = shelved.keys := by
    have member := List.mem_map_of_mem (f := PlanCandidate.keys) listed
    rwa [only, List.mem_singleton] at member
  rw [same] at within admitted
  exact ⟨count, within, admitted rfl⟩

end Examples

end PyKvCache.Scheduler
