import PyKvCache.Reactor.Loop

/-!
# Scripted runs

A run of the reactor for a given interleaving: the list of what happens next
is executed, so a concrete run can be evaluated, and what it ends in is
reachable.
-/

namespace PyKvCache.Reactor

open PyKvCache.Staging PyKvCache.Transfer

variable {slotCount : Nat}

/-- What happens next: the thread goes on, or another thread calls. -/
inductive Event where
  | advance
  | submit (job : Job)
  | preload (request : PreloadRequest)
  | shutdown

namespace Machine

variable (env : Env slotCount)

/-- One event. -/
def happen (machine : Machine slotCount) : Event → Machine slotCount
  | .advance => machine.advance env
  | .submit job => ⟨machine.phase, machine.state.submitJob job⟩
  | .preload request =>
      ⟨machine.phase, machine.state.enqueuePreload request⟩
  | .shutdown => ⟨machine.phase, machine.state.shutdown⟩

/-- The events one after the other. -/
def play (machine : Machine slotCount) (events : List Event) :
    Machine slotCount :=
  events.foldl (happen env) machine

/-- A submitted job is a new one. -/
def Allowed (machine : Machine slotCount) : Event → Prop
  | .submit job => job ∉ machine.state.accepted
  | _ => True

instance (machine : Machine slotCount) (event : Event) :
    Decidable (Allowed machine event) := by
  cases event <;> simp only [Allowed] <;> infer_instance

/-- Every event is allowed, and `condition` holds before it. -/
def Playable (condition : Machine slotCount → Prop) :
    Machine slotCount → List Event → Prop
  | _, [] => True
  | machine, event :: events =>
      Allowed machine event ∧ condition machine ∧
        Playable condition (machine.happen env event) events

instance decidablePlayable (condition : Machine slotCount → Prop)
    [DecidablePred condition] : (machine : Machine slotCount) →
      (events : List Event) → Decidable (Playable env condition machine events)
  | _, [] => inferInstanceAs (Decidable True)
  | machine, event :: events =>
      have := decidablePlayable condition (machine.happen env event) events
      inferInstanceAs (Decidable (_ ∧ _ ∧ _))

variable {env}

theorem step_happen {machine : Machine slotCount} {event : Event}
    (allowed : Allowed machine event) :
    Step env machine (machine.happen env event) := by
  cases event with
  | advance => exact .advance machine
  | submit job => exact .submit machine job allowed
  | preload request => exact .preload machine request
  | shutdown => exact .shutdown machine

theorem reachableUnder_play {condition : Machine slotCount → Prop}
    {machine : Machine slotCount} (events : List Event)
    (reached : ReachableUnder env condition machine)
    (playable : Playable env condition machine events) :
    ReachableUnder env condition (machine.play env events) := by
  induction events generalizing machine with
  | nil => exact reached
  | cons event events inductionHypothesis =>
      obtain ⟨allowed, met, later⟩ := playable
      exact inductionHypothesis
        (reached.tail ⟨met, step_happen allowed⟩) later

/-- A script is a run from wherever it starts. -/
theorem steps_play {machine : Machine slotCount} (events : List Event)
    (playable : Playable env (fun _ => True) machine events) :
    Relation.ReflTransGen (Step env) machine (machine.play env events) := by
  induction events generalizing machine with
  | nil => exact Relation.ReflTransGen.refl
  | cons event events inductionHypothesis =>
      obtain ⟨allowed, _, later⟩ := playable
      exact .head (step_happen allowed) (inductionHypothesis later)

/-- Where a script ends is reachable. -/
theorem reachable_play (events : List Event)
    (playable : Playable env (fun _ => True) (init env) events) :
    Reachable env ((init env).play env events) :=
  (reachableUnder_play events Relation.ReflTransGen.refl playable).reachable

end Machine

/-- The smallest pool, files of one block, and a world where no call raises
and every copy has finished when it is asked for.  `completions` says what a
poll returns, by the number of calls made before it. -/
def Env.smooth (share : Bool) (completions : Nat → List (Nat × Int)) :
    Env 5 where
  iodepth := 1
  openLookahead := 4
  sharePreload := share
  cachePolicy := none
  syncOnStore := false
  breakEven := ⟨0, 0⟩
  storageBlockTokens := 1
  layout := ⟨[0], [1], 1, rfl, by decide⟩
  ioSize := 1
  getFileName := fun _ => ""
  raises := fun _ _ => none
  finished := fun _ => true
  completions := completions
  openedFd := fun _ => 3
  tempSuffix := fun _ => ""
  iodepth_pos := by decide
  openLookahead_pos := by decide
  slotsEnough := by decide

/-- Nothing ever completes. -/
def Env.silent : Env 5 :=
  .smooth true fun _ => []

theorem Env.smooth_quiet {share : Bool}
    {completions : Nat → List (Nat × Int)} :
    (Env.smooth share completions).Quiet :=
  fun _ _ _ => rfl

/-- A job for one request; each file has the GPU blocks of one chunk. -/
def Job.ofChunks (oid : Nat) (isStore : Bool) (blockHashes : List BlockHash)
    (blockChunks : List (List Int))
    (chunkEach : blockChunks.length = blockHashes.length)
    (nonempty : blockHashes ≠ []) : Job where
  oid := oid
  jobId := oid
  isStore := isStore
  reqId := ""
  blockHashes := blockHashes
  blockChunks := blockChunks
  transferSize := blockHashes.length
  hasComputeEvent := false
  chunkEach := chunkEach
  nonempty := nonempty

/-- A job of one file. -/
def Job.ofChunk (oid : Nat) (isStore : Bool) (blockHash : BlockHash)
    (chunk : List Int) : Job :=
  .ofChunks oid isStore [blockHash] [chunk] rfl (List.cons_ne_nil _ _)

end PyKvCache.Reactor
