import Mathlib.Tactic.Common

/-!
# Programs with a mutable state and exceptions

An exception keeps the state its program had reached, so a handler sees every
assignment made before the raise.  `wp` gives a program a condition on its
normal exit and one on its exceptional exit; the rules below take a program
apart along its own constructors.
-/

namespace PyKvCache.Library

/-- A program over a mutable state that may raise. -/
abbrev Effect (exc state value : Type) := EStateM exc state value

namespace Effect

variable {exc state value result : Type}

/-- From `start` the program returns with `post` or raises with `fail`. -/
def wp (program : Effect exc state value)
    (post : value → state → Prop) (fail : exc → state → Prop)
    (start : state) : Prop :=
  match program start with
  | .ok returned final => post returned final
  | .error raised final => fail raised final

variable {post : value → state → Prop} {fail : exc → state → Prop}
  {start : state}

/-- A weaker condition follows from a stronger one. -/
theorem wp_mono {program : Effect exc state value}
    {post' : value → state → Prop} {fail' : exc → state → Prop}
    (holds : wp program post fail start)
    (returns : ∀ returned final, post returned final → post' returned final)
    (raises : ∀ raised final, fail raised final → fail' raised final) :
    wp program post' fail' start := by
  unfold wp at holds ⊢
  split at holds
  · exact returns _ _ holds
  · exact raises _ _ holds

/-- Two conditions on each exit. -/
theorem wp_and {program : Effect exc state value}
    {post' : value → state → Prop} {fail' : exc → state → Prop}
    (first : wp program post fail start)
    (second : wp program post' fail' start) :
    wp program
      (fun returned final => post returned final ∧ post' returned final)
      (fun raised final => fail raised final ∧ fail' raised final) start := by
  unfold wp at first second ⊢
  split <;> simp_all only [and_self]

theorem wp_post {program : Effect exc state value}
    {post' : value → state → Prop}
    (holds : wp program post fail start)
    (returns : ∀ returned final, post returned final → post' returned final) :
    wp program post' fail start :=
  wp_mono holds returns (fun _ _ reached => reached)

/-- A program that does not raise. -/
theorem wp_trivial {program : Effect exc state value} :
    wp program (fun _ _ => True) (fun _ _ => True) start := by
  unfold wp
  split <;> trivial

theorem wp_returns {program : Effect exc state value}
    (holds : wp program post (fun _ _ => False) start) :
    wp program post fail start :=
  wp_mono holds (fun _ _ reached => reached) fun _ _ => False.elim

/-- A program that does not raise returns. -/
theorem returned_of_wp {program : Effect exc state value}
    (holds : wp program post (fun _ _ => False) start) :
    ∃ returned final, program start = .ok returned final ∧
      post returned final := by
  unfold wp at holds
  cases outcome : program start with
  | ok returned final =>
      rw [outcome] at holds
      exact ⟨returned, final, rfl, holds⟩
  | error raised final =>
      rw [outcome] at holds
      exact holds.elim

/-- A normal exit is the one the program takes. -/
theorem wp_run {program : Effect exc state value}
    (holds : wp program post fail start) :
    wp program
      (fun returned final =>
        program start = .ok returned final ∧ post returned final)
      fail start := by
  unfold wp at holds ⊢
  cases outcome : program start with
  | ok returned final =>
      rw [outcome] at holds
      exact ⟨rfl, holds⟩
  | error raised final =>
      rw [outcome] at holds
      exact holds

/-- The state the program leaves, whichever exit it takes. -/
def leaves (program : Effect exc state value) (start : state) : state :=
  match program start with
  | .ok _ final => final
  | .error _ final => final

/-- What holds on both exits holds of the state that is left. -/
theorem of_leaves {program : Effect exc state value} {kept : state → Prop}
    (holds : wp program (fun _ => kept) (fun _ => kept) start) :
    kept (program.leaves start) := by
  unfold wp at holds
  unfold leaves
  cases outcome : program start with
  | ok returned final =>
      rw [outcome] at holds
      exact holds
  | error raised final =>
      rw [outcome] at holds
      exact holds

@[simp]
theorem wp_pure (returned : value) :
    wp (pure returned) post fail start ↔ post returned start := Iff.rfl

@[simp]
theorem wp_bind (program : Effect exc state result)
    (next : result → Effect exc state value) :
    wp (program >>= next) post fail start ↔
      wp program (fun returned final => wp (next returned) post fail final)
        fail start := by
  simp only [wp, bind, EStateM.bind]
  cases program start <;> rfl

@[simp]
theorem wp_throw (raised : exc) :
    wp (throw raised : Effect exc state value) post fail start ↔
      fail raised start := Iff.rfl

theorem get_run (start : state) :
    (get : Effect exc state state) start = .ok start start := rfl

@[simp]
theorem wp_get {post : state → state → Prop} :
    wp (get : Effect exc state state) post fail start ↔
      post start start := Iff.rfl

@[simp]
theorem wp_modify {post : PUnit → state → Prop} (change : state → state) :
    wp (modify change : Effect exc state PUnit) post fail start ↔
      post ⟨⟩ (change start) := Iff.rfl

@[simp]
theorem wp_modifyGet (change : state → value × state) :
    wp (modifyGet change : Effect exc state value) post fail start ↔
      post (change start).1 (change start).2 := Iff.rfl

@[simp]
theorem wp_ite (condition : Prop) [Decidable condition]
    (positive negative : Effect exc state value) :
    wp (if condition then positive else negative) post fail start ↔
      (condition → wp positive post fail start) ∧
        (¬ condition → wp negative post fail start) := by
  split <;> simp_all

/-- Two programs in sequence: the first one's outcome starts the second. -/
theorem wp_seq {program : Effect exc state result}
    {next : result → Effect exc state value}
    {middle : result → state → Prop}
    (first : wp program middle fail start)
    (second : ∀ returned final, middle returned final →
      wp (next returned) post fail final) :
    wp (program >>= next) post fail start :=
  (wp_bind program next).mpr (wp_post first second)

/-- `if condition: program`. -/
def onlyIf (condition : Prop) [Decidable condition]
    (program : Effect exc state PUnit) : Effect exc state PUnit :=
  if condition then program else pure ⟨⟩

@[simp]
theorem wp_onlyIf {post : PUnit → state → Prop} (condition : Prop)
    [Decidable condition] (program : Effect exc state PUnit) :
    wp (onlyIf condition program) post fail start ↔
      (condition → wp program post fail start) ∧
        (¬ condition → post ⟨⟩ start) :=
  wp_ite condition program (pure ⟨⟩)

/-! ## Handlers -/

/-- `try: program except BaseException as raised: handler raised`. -/
def handling (program : Effect exc state value)
    (handler : exc → Effect exc state value) : Effect exc state value :=
  fun start =>
    match program start with
    | .ok returned final => .ok returned final
    | .error raised final => handler raised final

@[simp]
theorem wp_handling (program : Effect exc state value)
    (handler : exc → Effect exc state value) :
    wp (handling program handler) post fail start ↔
      wp program post
        (fun raised final => wp (handler raised) post fail final) start := by
  simp only [wp, handling]
  cases program start <;> rfl

/-- The outcome of a program as a value. -/
def attempt (program : Effect exc state value) :
    Effect exc state (Except exc value) :=
  handling (program >>= fun returned => pure (.ok returned))
    fun raised => pure (.error raised)

@[simp]
theorem wp_attempt {post : Except exc value → state → Prop}
    (program : Effect exc state value) :
    wp (attempt program) post fail start ↔
      wp program (fun returned final => post (.ok returned) final)
        (fun raised final => post (.error raised) final) start := by
  simp only [attempt, wp_handling, wp_bind, wp_pure]

/-- `try: program finally: closing`. -/
def ensuring (program : Effect exc state value)
    (closing : Effect exc state PUnit) : Effect exc state value :=
  fun start =>
    match program start with
    | .ok returned final => (closing >>= fun _ => pure returned) final
    | .error raised final => (closing >>= fun _ => throw raised) final

@[simp]
theorem wp_ensuring (program : Effect exc state value)
    (closing : Effect exc state PUnit) :
    wp (ensuring program closing) post fail start ↔
      wp program
        (fun returned final =>
          wp closing (fun _ last => post returned last) fail final)
        (fun raised final =>
          wp closing (fun _ last => fail raised last) fail final)
        start := by
  simp only [wp, ensuring, bind, EStateM.bind]
  cases program start with
  | ok returned final =>
      cases closed : closing final <;> simp [closed, pure, EStateM.pure]
  | error raised final =>
      dsimp only
      cases closing final <;> rfl

/-! ## Loops -/

/-- Run the body again as long as it returns `true`, `fuel` times at most. -/
def loop (body : Effect exc state Bool) : Nat → Effect exc state PUnit
  | 0 => pure ⟨⟩
  | fuel + 1 =>
      body >>= fun again => if again then loop body fuel else pure ⟨⟩

/-- What every round keeps, the loop keeps. -/
theorem wp_loop {body : Effect exc state Bool} (kept : state → Prop)
    (round : ∀ current, kept current →
      wp body (fun _ next => kept next) fail current)
    (fuel : Nat) (holds : kept start) :
    wp (loop body fuel) (fun _ final => kept final) fail start := by
  induction fuel generalizing start with
  | zero => exact holds
  | succ fuel inductionHypothesis =>
      refine wp_seq (round start holds) fun again next reached => ?_
      cases again with
      | false => exact reached
      | true => exact inductionHypothesis reached

/-- The states in which the rounds of a loop start. -/
def rounds (body : Effect exc state Bool) : Nat → state → List state
  | 0, _ => []
  | fuel + 1, start =>
      start ::
        match body start with
        | .ok true next => rounds body fuel next
        | _ => []

/-- What every round of this loop keeps, the loop keeps. -/
theorem wp_loop_rounds {body : Effect exc state Bool} (kept : state → Prop)
    (fuel : Nat)
    (round : ∀ current ∈ rounds body fuel start, kept current →
      wp body (fun _ next => kept next) fail current)
    (holds : kept start) :
    wp (loop body fuel) (fun _ final => kept final) fail start := by
  induction fuel generalizing start with
  | zero => exact holds
  | succ fuel inductionHypothesis =>
      have first := round start List.mem_cons_self holds
      unfold loop
      rw [wp_bind]
      unfold rounds at round
      unfold wp at first ⊢
      cases outcome : body start with
      | error raised next =>
          rw [outcome] at first
          exact first
      | ok again next =>
          rw [outcome] at first round
          cases again with
          | false => exact first
          | true =>
              exact inductionHypothesis (fun current member =>
                round current (List.mem_cons_of_mem _ member)) first

/-- The states in which the turns of a loop over a list start, each with its
item. -/
def turns {item : Type} (body : item → Effect exc state PUnit) :
    List item → state → List (item × state)
  | [], _ => []
  | head :: tail, start =>
      (head, start) ::
        match body head start with
        | .ok _ next => turns body tail next
        | .error _ _ => []

theorem mem_of_mem_turns {item : Type}
    {body : item → Effect exc state PUnit} {items : List item}
    {turn : item × state} (member : turn ∈ turns body items start) :
    turn.1 ∈ items := by
  induction items generalizing start with
  | nil => cases member
  | cons head tail inductionHypothesis =>
      unfold turns at member
      rcases List.mem_cons.mp member with rfl | later
      · exact List.mem_cons_self
      · split at later
        · exact List.mem_cons_of_mem _ (inductionHypothesis later)
        · cases later

/-- What every turn of this loop keeps, the loop keeps. -/
theorem wp_forM_turns {item : Type} {body : item → Effect exc state PUnit}
    (kept : state → Prop) (items : List item)
    (turn : ∀ current ∈ turns body items start, kept current.2 →
      wp (body current.1) (fun _ next => kept next) fail current.2)
    (holds : kept start) :
    wp (items.forM body) (fun _ final => kept final) fail start := by
  induction items generalizing start with
  | nil => exact holds
  | cons head tail inductionHypothesis =>
      have first := turn (head, start) List.mem_cons_self holds
      refine (wp_bind (body head) fun _ => tail.forM body).mpr ?_
      unfold turns at turn
      unfold wp at first ⊢
      cases outcome : body head start with
      | error raised next =>
          rw [outcome] at first
          exact first
      | ok _ next =>
          rw [outcome] at first turn
          exact inductionHypothesis (fun current member =>
            turn current (List.mem_cons_of_mem _ member)) first

/-- A loop whose measure shrinks in every round that asks for another one ends
before its fuel does. -/
theorem wp_loop_exit {body : Effect exc state Bool}
    {done : state → Prop} (kept : state → Prop) (measure : state → Nat)
    (round : ∀ current, kept current →
      wp body
        (fun again next =>
          if again then kept next ∧ measure next < measure current
          else done next)
        fail current)
    {fuel : Nat} (enough : measure start < fuel) (holds : kept start) :
    wp (loop body fuel) (fun _ final => done final) fail start := by
  induction fuel generalizing start with
  | zero => omega
  | succ fuel inductionHypothesis =>
      refine wp_seq (round start holds) fun again next reached => ?_
      cases again with
      | false => exact reached
      | true =>
          have smaller : measure next < measure start := reached.2
          exact inductionHypothesis (by omega) reached.1

/-- A loop whose rounds either reach a goal, which later rounds keep, or go on
with a smaller measure, or end: it reaches the goal or ends. -/
theorem wp_loop_reaches {body : Effect exc state Bool}
    {goal done : state → Prop} (kept : state → Prop) (measure : state → Nat)
    (stays : ∀ current, goal current →
      wp body (fun _ next => goal next) fail current)
    (round : ∀ current, kept current →
      wp body
        (fun again next =>
          goal next ∨
            if again then kept next ∧ measure next < measure current
            else done next)
        fail current)
    {fuel : Nat} (enough : measure start < fuel) (holds : kept start) :
    wp (loop body fuel) (fun _ final => goal final ∨ done final)
      fail start := by
  induction fuel generalizing start with
  | zero => omega
  | succ fuel inductionHypothesis =>
      have onward : ∀ current, goal current →
          wp (loop body fuel) (fun _ final => goal final ∨ done final)
            fail current := fun current reached =>
        wp_post (wp_loop goal stays fuel reached) fun _ _ => Or.inl
      refine wp_seq (round start holds) fun again next reached => ?_
      cases again with
      | false => exact reached
      | true =>
          rcases reached with reached | ⟨later, smaller⟩
          · exact onward next reached
          · exact inductionHypothesis (by omega) later

/-- A loop whose first round reaches a goal, which later rounds keep, or ends
it. -/
theorem wp_loop_first {body : Effect exc state Bool}
    {goal done : state → Prop}
    (stays : ∀ current, goal current →
      wp body (fun _ next => goal next) fail current)
    (first : wp body
      (fun again next => goal next ∨ (again = false ∧ done next)) fail start)
    (fuel : Nat) :
    wp (loop body (fuel + 1)) (fun _ final => goal final ∨ done final)
      fail start := by
  refine wp_seq first fun again next reached => ?_
  cases again with
  | false => exact reached.imp_right And.right
  | true =>
      rcases reached with reached | ⟨ended, _⟩
      · exact wp_post (wp_loop goal stays fuel reached) fun _ _ => Or.inl
      · cases ended

/-- A loop over a list, with the items still to come in the invariant. -/
theorem wp_forM {item : Type} {body : item → Effect exc state PUnit}
    (kept : List item → state → Prop)
    (round : ∀ head tail current, kept (head :: tail) current →
      wp (body head) (fun _ next => kept tail next) fail current)
    (items : List item) (holds : kept items start) :
    wp (items.forM body) (fun _ final => kept [] final) fail start := by
  induction items generalizing start with
  | nil => exact holds
  | cons head tail inductionHypothesis =>
      exact wp_seq (round head tail start holds) fun _ next reached =>
        inductionHypothesis reached

/-- A loop over a list whose turns either reach a goal, which later turns
keep, or settle their item for good: it reaches the goal or settles all. -/
theorem wp_forM_reaches {item : Type} {body : item → Effect exc state PUnit}
    {goal kept : state → Prop} {settled : item → state → Prop}
    (items : List item)
    (stays : ∀ head current, goal current →
      wp (body head) (fun _ next => goal next) fail current)
    (turn : ∀ head ∈ items, ∀ current, kept current →
      wp (body head)
        (fun _ next => goal next ∨
          (kept next ∧ settled head next ∧
            ∀ other, settled other current → settled other next))
        fail current)
    (holds : kept start) :
    wp (items.forM body)
      (fun _ final => goal final ∨
        (kept final ∧ ∀ head ∈ items, settled head final))
      fail start := by
  refine wp_post (wp_forM
    (fun later current => goal current ∨
      (kept current ∧ (∀ head ∈ later, head ∈ items) ∧
        ∀ head ∈ items, head ∈ later ∨ settled head current))
    ?_ items (Or.inr ⟨holds, fun _ member => member,
      fun _ member => Or.inl member⟩)) ?_
  · rintro head later current (reached | ⟨sofar, known, rest⟩)
    · exact wp_post (stays head current reached) fun _ _ => Or.inl
    · refine wp_post (turn head (known head List.mem_cons_self) current sofar)
        fun _ next reached => ?_
      refine reached.imp_right fun ⟨still, done, keeps⟩ =>
        ⟨still, fun other member =>
          known other (List.mem_cons_of_mem _ member), ?_⟩
      intro other member
      rcases rest other member with listed | settled
      · rcases List.mem_cons.mp listed with rfl | listed
        · exact Or.inr done
        · exact Or.inl listed
      · exact Or.inr (keeps other settled)
  · rintro _ final (reached | ⟨still, _, rest⟩)
    · exact Or.inl reached
    · exact Or.inr ⟨still, fun head member =>
        (rest head member).resolve_left List.not_mem_nil⟩

/-! ## Conditions that hold on every exit -/

/-- What holds when the program starts holds when it returns and when it
raises. -/
def Keeps (kept : state → Prop) (program : Effect exc state value) : Prop :=
  ∀ start, kept start →
    wp program (fun _ final => kept final) (fun _ final => kept final) start

namespace Keeps

variable {kept : state → Prop}

@[simp]
theorem pure (returned : value) :
    Keeps kept (pure returned : Effect exc state value) :=
  fun _ holds => holds

@[simp]
theorem throw (raised : exc) :
    Keeps kept (throw raised : Effect exc state value) :=
  fun _ holds => holds

@[simp]
theorem get : Keeps kept (get : Effect exc state state) :=
  fun _ holds => holds

@[simp]
theorem modify {change : state → state}
    (same : ∀ current, kept current → kept (change current)) :
    Keeps kept (modify change : Effect exc state PUnit) :=
  same

@[simp]
theorem modifyGet {change : state → value × state}
    (same : ∀ current, kept current → kept (change current).2) :
    Keeps kept (modifyGet change : Effect exc state value) :=
  same

@[simp]
theorem bind {program : Effect exc state result}
    {next : result → Effect exc state value}
    (first : Keeps kept program)
    (second : ∀ returned, Keeps kept (next returned)) :
    Keeps kept (program >>= next) :=
  fun start holds =>
    wp_seq (first start holds) fun returned => second returned

@[simp]
theorem ite {condition : Prop} [Decidable condition]
    {positive negative : Effect exc state value}
    (first : Keeps kept positive) (second : Keeps kept negative) :
    Keeps kept (if condition then positive else negative) := by
  split
  · exact first
  · exact second

@[simp]
theorem onlyIf {condition : Prop} [Decidable condition]
    {program : Effect exc state PUnit} (keeps : Keeps kept program) :
    Keeps kept (onlyIf condition program) :=
  ite keeps (pure _)

@[simp]
theorem handling {program : Effect exc state value}
    {handler : exc → Effect exc state value} (first : Keeps kept program)
    (second : ∀ raised, Keeps kept (handler raised)) :
    Keeps kept (handling program handler) :=
  fun start holds => (wp_handling program handler).mpr
    (wp_mono (first start holds) (fun _ _ reached => reached)
      fun raised final reached => second raised final reached)

@[simp]
theorem attempt {program : Effect exc state value}
    (keeps : Keeps kept program) : Keeps kept (attempt program) :=
  handling (bind keeps fun _ => pure _) fun _ => pure _

@[simp]
theorem ensuring {program : Effect exc state value}
    {closing : Effect exc state PUnit} (first : Keeps kept program)
    (second : Keeps kept closing) : Keeps kept (ensuring program closing) :=
  fun start holds => (wp_ensuring program closing).mpr
    (wp_mono (first start holds) (fun _ final reached => second final reached)
      fun _ final reached => second final reached)

@[simp]
theorem loop {body : Effect exc state Bool} (round : Keeps kept body)
    (fuel : Nat) : Keeps kept (loop body fuel) :=
  fun _ holds => wp_loop kept round fuel holds

@[simp]
theorem forM {item : Type} {body : item → Effect exc state PUnit}
    {items : List item} (round : ∀ head, Keeps kept (body head)) :
    Keeps kept (items.forM body) :=
  fun _ holds => wp_forM (fun _ => kept)
    (fun head _ current => round head current) items holds

theorem forM_mem {item : Type} {body : item → Effect exc state PUnit}
    {items : List item} (round : ∀ head ∈ items, Keeps kept (body head)) :
    Keeps kept (items.forM body) := by
  induction items with
  | nil => exact pure _
  | cons head tail inductionHypothesis =>
      exact bind (round head List.mem_cons_self) fun _ =>
        inductionHypothesis fun other member =>
          round other (List.mem_cons_of_mem head member)

/-- Two conditions that are kept, one or the other. -/
theorem or {other : state → Prop} {program : Effect exc state value}
    (left : Keeps kept program) (right : Keeps other program) :
    Keeps (fun current => kept current ∨ other current) program := by
  rintro start (holds | holds)
  · exact wp_mono (left start holds) (fun _ _ => Or.inl) fun _ _ => Or.inl
  · exact wp_mono (right start holds) (fun _ _ => Or.inr) fun _ _ => Or.inr

end Keeps

end Effect

end PyKvCache.Library
