import PyKvCache.Library.Effect
import Mathlib.Logic.Function.Basic
import Mathlib.Logic.Relation

/-!
# Programs that are resumed at every call

A routine stops at each of its calls and goes on with the answer, so that many
of them can take turns over a world they share.  `Guarded` is the weakest
precondition of one routine when the others change the world between any two
of its calls; `steady_of_turns` puts the routines together.
-/

namespace PyKvCache.Library

/-- What is left of a program: its outcome, or the next call and how it goes
on with the answer. -/
inductive Routine (call exc reply value : Type) where
  | done (returned : value)
  | raise (raised : exc)
  | ask (next : call)
      (resume : Except exc reply → Routine call exc reply value)

namespace Routine

variable {call exc reply value result : Type}

/-! ## Programs -/

/-- One program after the other. -/
def andThen (program : Routine call exc reply result)
    (next : result → Routine call exc reply value) :
    Routine call exc reply value :=
  match program with
  | .done returned => next returned
  | .raise raised => .raise raised
  | .ask request resume =>
      .ask request fun answer => (resume answer).andThen next

instance : Monad (Routine call exc reply) where
  pure := .done
  bind := andThen

/-- A call. -/
def invoke (request : call) : Routine call exc reply reply :=
  .ask request fun answer =>
    match answer with
    | .ok returned => .done returned
    | .error raised => .raise raised

/-- `try: program except BaseException as raised: handler raised`. -/
def handling (program : Routine call exc reply value)
    (handler : exc → Routine call exc reply value) :
    Routine call exc reply value :=
  match program with
  | .done returned => .done returned
  | .raise raised => handler raised
  | .ask request resume =>
      .ask request fun answer => (resume answer).handling handler

/-- The outcome of a program as a value. -/
def attempt (program : Routine call exc reply value) :
    Routine call exc reply (Except exc value) :=
  handling (program >>= fun returned => .done (.ok returned))
    fun raised => .done (.error raised)

/-- `if condition: program`. -/
def onlyIf (condition : Prop) [Decidable condition]
    (program : Routine call exc reply PUnit) :
    Routine call exc reply PUnit :=
  if condition then program else .done ⟨⟩

/-- `try: program finally: closing`. -/
def ensuring (program : Routine call exc reply value)
    (closing : Routine call exc reply PUnit) :
    Routine call exc reply value := do
  let outcome ← attempt program
  let _ ← closing
  match outcome with
  | .ok returned => .done returned
  | .error raised => .raise raised

/-! ## One routine alone -/

section Alone

variable {state : Type}

/-- A routine whose calls are answered at once. -/
def perform (answer : call → Effect exc state reply) :
    Routine call exc reply value → Effect exc state value
  | .done returned => pure returned
  | .raise raised => throw raised
  | .ask request resume => fun start =>
      match answer request start with
      | .ok returned final => perform answer (resume (.ok returned)) final
      | .error raised final => perform answer (resume (.error raised)) final

variable {answer : call → Effect exc state reply}

@[simp]
theorem perform_done (returned : value) :
    perform answer (.done returned) = pure returned := rfl

@[simp]
theorem perform_pure (returned : value) :
    perform answer (pure returned) = pure returned := rfl

@[simp]
theorem perform_raise (raised : exc) :
    perform answer (.raise raised : Routine call exc reply value) =
      throw raised := rfl

theorem perform_ask (request : call)
    (resume : Except exc reply → Routine call exc reply value)
    (start : state) :
    perform answer (.ask request resume) start =
      match answer request start with
      | .ok returned final => perform answer (resume (.ok returned)) final
      | .error raised final =>
          perform answer (resume (.error raised)) final := by
  rw [perform]

@[simp]
theorem perform_invoke (request : call) :
    perform answer (invoke request) = answer request := by
  funext start
  rw [invoke, perform_ask]
  cases outcome : answer request start with
  | ok returned final => rfl
  | error raised final => rfl

@[simp]
theorem perform_bind (program : Routine call exc reply result)
    (next : result → Routine call exc reply value) :
    perform answer (program >>= next) =
      perform answer program >>= fun returned =>
        perform answer (next returned) := by
  induction program with
  | done returned => rfl
  | raise raised => rfl
  | ask request resume inductionHypothesis =>
      funext start
      change perform answer (.ask request fun answer =>
        resume answer >>= next) start = _
      simp only [bind, EStateM.bind, perform_ask]
      cases outcome : answer request start with
      | ok returned final =>
          exact congrFun (inductionHypothesis (.ok returned)) final
      | error raised final =>
          exact congrFun (inductionHypothesis (.error raised)) final

@[simp]
theorem perform_handling (program : Routine call exc reply value)
    (handler : exc → Routine call exc reply value) :
    perform answer (handling program handler) =
      Effect.handling (perform answer program) fun raised =>
        perform answer (handler raised) := by
  induction program with
  | done returned => rfl
  | raise raised => rfl
  | ask request resume inductionHypothesis =>
      funext start
      simp only [handling, Effect.handling, perform_ask]
      cases outcome : answer request start with
      | ok returned final =>
          exact congrFun (inductionHypothesis (.ok returned)) final
      | error raised final =>
          exact congrFun (inductionHypothesis (.error raised)) final

@[simp]
theorem perform_attempt (program : Routine call exc reply value) :
    perform answer (attempt program) =
      Effect.attempt (perform answer program) := by
  simp only [attempt, Effect.attempt, perform_handling, perform_bind,
    perform_done]

@[simp]
theorem perform_onlyIf (condition : Prop) [Decidable condition]
    (program : Routine call exc reply PUnit) :
    perform answer (onlyIf condition program) =
      Effect.onlyIf condition (perform answer program) := by
  unfold onlyIf Effect.onlyIf
  split <;> rfl

@[simp]
theorem perform_ensuring (program : Routine call exc reply value)
    (closing : Routine call exc reply PUnit) :
    perform answer (ensuring program closing) =
      Effect.ensuring (perform answer program) (perform answer closing) := by
  funext start
  simp only [ensuring, perform_bind, perform_attempt]
  simp only [Effect.ensuring, Effect.attempt, Effect.handling, bind,
    EStateM.bind]
  cases outcome : perform answer program start with
  | ok returned final => rfl
  | error raised final => rfl

end Alone

/-! ## One routine among others -/

section Guarded

variable {world : Type}

/-- Each call of the routine meets the guarantee, and it ends with `post`, if
between its calls the world changes as `rely` allows. -/
def Guarded (answers : world → call → Except exc reply → world → Prop)
    (rely guarantee : world → world → Prop)
    (post : Except exc value → world → Prop) :
    Routine call exc reply value → world → Prop
  | .done returned, now => post (.ok returned) now
  | .raise raised, now => post (.error raised) now
  | .ask request resume, now => ∀ answer next, answers now request answer next →
      guarantee now next ∧ ∀ later, rely next later →
        Guarded answers rely guarantee post (resume answer) later

variable {answers : world → call → Except exc reply → world → Prop}
  {rely guarantee : world → world → Prop}
  {post : Except exc value → world → Prop} {now : world}

theorem Guarded.mono {post' : Except exc value → world → Prop}
    {program : Routine call exc reply value}
    (guarded : Guarded answers rely guarantee post program now)
    (weaker : ∀ outcome last, post outcome last → post' outcome last) :
    Guarded answers rely guarantee post' program now := by
  induction program generalizing now with
  | done returned => exact weaker _ _ guarded
  | raise raised => exact weaker _ _ guarded
  | ask request resume inductionHypothesis =>
      intro answer next answered
      obtain ⟨kept, goesOn⟩ := guarded answer next answered
      exact ⟨kept, fun later relied =>
        inductionHypothesis answer (goesOn later relied)⟩

@[simp]
theorem guarded_done (returned : value) :
    Guarded answers rely guarantee post (.done returned) now ↔
      post (.ok returned) now := Iff.rfl

@[simp]
theorem guarded_pure (returned : value) :
    Guarded answers rely guarantee post (pure returned) now ↔
      post (.ok returned) now := Iff.rfl

@[simp]
theorem guarded_raise (raised : exc) :
    Guarded answers rely guarantee post (.raise raised) now ↔
      post (.error raised) now := Iff.rfl

@[simp]
theorem guarded_bind (program : Routine call exc reply result)
    (next : result → Routine call exc reply value) :
    Guarded answers rely guarantee post (program >>= next) now ↔
      Guarded answers rely guarantee (fun outcome last =>
        match outcome with
        | .ok returned =>
            Guarded answers rely guarantee post (next returned) last
        | .error raised => post (.error raised) last) program now := by
  induction program generalizing now with
  | done returned => exact Iff.rfl
  | raise raised => exact Iff.rfl
  | ask request resume inductionHypothesis =>
      change (∀ answer after, answers now request answer after →
        guarantee now after ∧ ∀ later, rely after later →
          Guarded answers rely guarantee post (resume answer >>= next)
            later) ↔ _
      simp only [inductionHypothesis]
      exact Iff.rfl

@[simp]
theorem guarded_handling (program : Routine call exc reply value)
    (handler : exc → Routine call exc reply value) :
    Guarded answers rely guarantee post (handling program handler) now ↔
      Guarded answers rely guarantee (fun outcome last =>
        match outcome with
        | .ok returned => post (.ok returned) last
        | .error raised =>
            Guarded answers rely guarantee post (handler raised) last)
        program now := by
  induction program generalizing now with
  | done returned => exact Iff.rfl
  | raise raised => exact Iff.rfl
  | ask request resume inductionHypothesis =>
      simp only [handling, Guarded, inductionHypothesis]

@[simp]
theorem guarded_attempt {post : Except exc (Except exc value) → world → Prop}
    (program : Routine call exc reply value) :
    Guarded answers rely guarantee post (attempt program) now ↔
      Guarded answers rely guarantee (fun outcome => post (.ok outcome))
        program now := by
  rw [attempt, guarded_handling, guarded_bind]
  constructor
  · intro guarded
    refine guarded.mono fun outcome last reached => ?_
    cases outcome with
    | ok returned => exact reached
    | error raised => exact reached
  · intro guarded
    refine guarded.mono fun outcome last reached => ?_
    cases outcome with
    | ok returned => exact reached
    | error raised => exact reached

@[simp]
theorem guarded_onlyIf {post : Except exc PUnit → world → Prop}
    (condition : Prop) [Decidable condition]
    (program : Routine call exc reply PUnit) :
    Guarded answers rely guarantee post (onlyIf condition program) now ↔
      (condition → Guarded answers rely guarantee post program now) ∧
        (¬ condition → post (.ok ⟨⟩) now) := by
  unfold onlyIf
  split
  next holds => simp [holds]
  next fails => simp [fails]

@[simp]
theorem guarded_invoke {post : Except exc reply → world → Prop}
    (request : call) :
    Guarded answers rely guarantee post (invoke request) now ↔
      ∀ answer next, answers now request answer next →
        guarantee now next ∧ ∀ later, rely next later →
          post answer later := by
  unfold invoke
  simp only [Guarded]
  refine forall_congr' fun answer => forall_congr' fun next =>
    forall_congr' fun _ => and_congr_right fun _ =>
      forall_congr' fun later => forall_congr' fun _ => ?_
  cases answer <;> exact Iff.rfl

/-- Two programs in sequence: the outcome of the first starts the second. -/
theorem Guarded.seq {program : Routine call exc reply result}
    {next : result → Routine call exc reply value}
    {middle : Except exc result → world → Prop}
    (first : Guarded answers rely guarantee middle program now)
    (second : ∀ returned last, middle (.ok returned) last →
      Guarded answers rely guarantee post (next returned) last)
    (raises : ∀ raised last, middle (.error raised) last →
      post (.error raised) last) :
    Guarded answers rely guarantee post (program >>= next) now := by
  rw [guarded_bind]
  refine first.mono fun outcome last reached => ?_
  cases outcome with
  | ok returned => exact second returned last reached
  | error raised => exact raises raised last reached

/-- A program whose outcome is a value, and what follows on it. -/
theorem Guarded.attempted {program : Routine call exc reply result}
    {next : Except exc result → Routine call exc reply value}
    {middle : Except exc result → world → Prop}
    (first : Guarded answers rely guarantee middle program now)
    (second : ∀ outcome last, middle outcome last →
      Guarded answers rely guarantee post (next outcome) last) :
    Guarded answers rely guarantee post (attempt program >>= next) now := by
  rw [guarded_bind, guarded_attempt]
  exact first.mono second

end Guarded

/-! ## Many routines -/

section Turns

variable {thread world : Type} [DecidableEq thread]

/-- The world that threads share, and what is left of each of them. -/
structure Threads (thread world call exc reply value : Type) where
  world : world
  left : thread → Routine call exc reply value

/-- Some thread gets its call answered. -/
inductive Turn
    (answers : thread → world → call → Except exc reply → world → Prop) :
    Threads thread world call exc reply value →
      Threads thread world call exc reply value → Prop
  | call {now after : world} {request : call} {answer : Except exc reply}
      {left : thread → Routine call exc reply value}
      {resume : Except exc reply → Routine call exc reply value}
      (thread : thread) (waits : left thread = .ask request resume)
      (answered : answers thread now request answer after) :
      Turn answers ⟨now, left⟩
        ⟨after, Function.update left thread (resume answer)⟩

variable
  {answers : thread → world → call → Except exc reply → world → Prop}
  {rely guarantee : thread → world → world → Prop}
  {post : thread → Except exc value → world → Prop}
  {now next : Threads thread world call exc reply value}

/-- Every thread is guarded, now and after whatever it relies on. -/
def Steady
    (answers : thread → world → call → Except exc reply → world → Prop)
    (rely guarantee : thread → world → world → Prop)
    (post : thread → Except exc value → world → Prop)
    (now : Threads thread world call exc reply value) : Prop :=
  ∀ thread later, rely thread now.world later →
    Guarded (answers thread) (rely thread) (guarantee thread) (post thread)
      (now.left thread) later

/-- A turn keeps the threads steady and meets the guarantee of one of them,
when a thread may rely on what the others guarantee. -/
theorem Steady.turn (reflexive : ∀ thread now, rely thread now now)
    (transitive : ∀ thread first second third, rely thread first second →
      rely thread second third → rely thread first third)
    (respected : ∀ thread other first second, thread ≠ other →
      guarantee thread first second → rely other first second)
    (steady : Steady answers rely guarantee post now)
    (turn : Turn answers now next) :
    (∃ thread, guarantee thread now.world next.world) ∧
      Steady answers rely guarantee post next := by
  cases turn with
  | @call before after request answer left resume thread waits answered =>
      have guarded := steady thread before (reflexive thread before)
      simp only [waits] at guarded
      obtain ⟨kept, goesOn⟩ := guarded answer after answered
      refine ⟨⟨thread, kept⟩, fun other later relied => ?_⟩
      by_cases same : other = thread
      · subst same
        simp only [Function.update_self]
        exact goesOn later relied
      · simp only [Function.update_of_ne same]
        have changed := respected thread other before after (Ne.symm same) kept
        exact steady other later
          (transitive other before after later changed relied)

/-- In every interleaving the threads stay steady. -/
theorem Steady.turns (reflexive : ∀ thread now, rely thread now now)
    (transitive : ∀ thread first second third, rely thread first second →
      rely thread second third → rely thread first third)
    (respected : ∀ thread other first second, thread ≠ other →
      guarantee thread first second → rely other first second)
    (steady : Steady answers rely guarantee post now)
    (turns : Relation.ReflTransGen (Turn answers) now next) :
    Steady answers rely guarantee post next := by
  induction turns with
  | refl => exact steady
  | tail _ turn inductionHypothesis =>
      exact (inductionHypothesis.turn reflexive transitive respected turn).2

end Turns

end Routine

end PyKvCache.Library
