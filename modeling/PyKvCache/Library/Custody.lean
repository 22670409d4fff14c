import Mathlib.Data.List.Count
import Mathlib.Data.List.Induction

/-!
# Custody

A log of things that are taken into custody and given away again.  In a
rightful log only what is held is given away, so every thing that is not held
any more was given away as often as it was taken.  And when several holders
share the things, a rightful one never gives away what another holds.
-/

namespace PyKvCache.Library

/-- One entry of the log. -/
inductive Handover (item : Type) where
  | taken (what : item)
  | given (what : item)
  deriving DecidableEq, Repr

namespace Handover

variable {item : Type}

/-- A split of a longer log is one of the shorter log, or at its end. -/
private theorem split_snoc {kind : Type} {entry found : kind}
    {log earlier later : List kind}
    (same : log ++ [entry] = earlier ++ found :: later) :
    (∃ between, log = earlier ++ found :: between) ∨
      entry = found ∧ earlier = log := by
  rcases List.eq_nil_or_concat later with rfl | ⟨between, last, rfl⟩
  · obtain ⟨prefixes, entries⟩ := List.append_inj' same rfl
    exact Or.inr ⟨(List.cons.inj entries).1, prefixes.symm⟩
  · rw [List.concat_eq_append, ← List.cons_append, ← List.append_assoc]
      at same
    exact Or.inl ⟨between, (List.append_inj' same rfl).1⟩

variable [DecidableEq item]

/-- What is held after one more entry. -/
def after (held : List item) : Handover item → List item
  | .taken what => what :: held
  | .given what => held.erase what

/-- What is held after the log. -/
def held (log : List (Handover item)) : List item :=
  log.foldl after []

/-- Whatever is given away was held. -/
def Rightful (log : List (Handover item)) : Prop :=
  ∀ earlier what later, log = earlier ++ .given what :: later →
    what ∈ held earlier

variable {log : List (Handover item)} {what : item}

@[simp]
theorem held_nil : held ([] : List (Handover item)) = [] := rfl

@[simp]
theorem held_taken :
    held (log ++ [.taken what]) = what :: held log := by
  simp [held, after]

@[simp]
theorem held_given :
    held (log ++ [.given what]) = (held log).erase what := by
  simp [held, after]

theorem rightful_nil : Rightful ([] : List (Handover item)) := by
  intro earlier what later same
  have length := congrArg List.length same
  simp at length

theorem Rightful.taken (rightful : Rightful log) :
    Rightful (log ++ [.taken what]) := by
  intro earlier other later same
  rcases split_snoc same with ⟨between, before⟩ | ⟨impossible, _⟩
  · exact rightful earlier other between before
  · cases impossible

theorem Rightful.given (rightful : Rightful log) (holds : what ∈ held log) :
    Rightful (log ++ [.given what]) := by
  intro earlier other later same
  rcases split_snoc same with ⟨between, before⟩ | ⟨last, rfl⟩
  · exact rightful earlier other between before
  · cases last
    exact holds

/-- A shorter log is rightful, too. -/
theorem Rightful.dropLast {entry : Handover item}
    (rightful : Rightful (log ++ [entry])) : Rightful log := by
  intro earlier other later same
  apply rightful earlier other (later ++ [entry])
  rw [same, List.append_assoc, List.cons_append]

/-- What was taken was given away, or is still held. -/
theorem Rightful.balanced (rightful : Rightful log) (what : item) :
    log.count (.taken what) =
      log.count (.given what) + (held log).count what := by
  induction log using List.reverseRecOn with
  | nil => rfl
  | append_singleton log entry inductionHypothesis =>
      have before := inductionHypothesis rightful.dropLast
      rw [List.count_append, List.count_append]
      cases entry with
      | taken other =>
          by_cases same : other = what
          · subst same
            simp [before]
            omega
          · simp [before, same]
      | given other =>
          have holds : other ∈ held log := rightful log other [] rfl
          by_cases same : other = what
          · subst same
            have positive := List.count_pos_iff.mpr holds
            simp [before]
            omega
          · simp [before, same, List.count_erase_of_ne (Ne.symm same)]

/-- With nothing held, everything was given away as often as taken. -/
theorem Rightful.returned (rightful : Rightful log) (none : held log = [])
    (what : item) : log.count (.taken what) = log.count (.given what) := by
  have balanced := rightful.balanced what
  rw [none] at balanced
  exact balanced

/-! ## Several holders -/

section Holders

variable {holder : Type} [DecidableEq holder]
  {shared : List (holder × Handover item)} {who other : holder}

/-- The entries of one holder in a log they all share. -/
def own (who : holder) (shared : List (holder × Handover item)) :
    List (Handover item) :=
  (shared.filter fun entry => entry.1 = who).map Prod.snd

/-- A thing is handed out only while nobody holds it. -/
def Fresh (shared : List (holder × Handover item)) : Prop :=
  ∀ earlier who what later,
    shared = earlier ++ (who, .taken what) :: later →
      ∀ other, what ∉ held (own other earlier)

/-- Whatever a holder gives away it held, and nobody else did. -/
def GivesOwn (who : holder) (shared : List (holder × Handover item)) :
    Prop :=
  ∀ earlier what later, shared = earlier ++ (who, .given what) :: later →
    what ∈ held (own who earlier) ∧
      ∀ other, other ≠ who → what ∉ held (own other earlier)

omit [DecidableEq item] in
theorem own_append {first second : List (holder × Handover item)} :
    own who (first ++ second) = own who first ++ own who second := by
  rw [own, List.filter_append, List.map_append]
  rfl

omit [DecidableEq item] in
theorem own_snoc_self {entry : Handover item} :
    own who (shared ++ [(who, entry)]) = own who shared ++ [entry] := by
  rw [own_append]
  simp [own]

omit [DecidableEq item] in
theorem own_snoc_other {entry : Handover item} (different : other ≠ who) :
    own who (shared ++ [(other, entry)]) = own who shared := by
  rw [own_append]
  simp [own, different]

theorem fresh_nil : Fresh ([] : List (holder × Handover item)) := by
  intro earlier who what later same
  have length := congrArg List.length same
  simp at length

theorem Fresh.taken (fresh : Fresh shared)
    (unheld : ∀ other, what ∉ held (own other shared)) :
    Fresh (shared ++ [(who, .taken what)]) := by
  intro earlier actor new later same
  rcases split_snoc same with ⟨between, before⟩ | ⟨last, rfl⟩
  · exact fresh earlier actor new between before
  · cases last
    exact unheld

theorem Fresh.given (fresh : Fresh shared) :
    Fresh (shared ++ [(who, .given what)]) := by
  intro earlier actor new later same
  rcases split_snoc same with ⟨between, before⟩ | ⟨impossible, _⟩
  · exact fresh earlier actor new between before
  · cases impossible

theorem Fresh.dropLast {entry : holder × Handover item}
    (fresh : Fresh (shared ++ [entry])) : Fresh shared := by
  intro earlier who what later same
  apply fresh earlier who what (later ++ [entry])
  rw [same, List.append_assoc, List.cons_append]

/-- No two holders hold the same thing. -/
theorem Fresh.apart (fresh : Fresh shared) (different : who ≠ other)
    (holds : what ∈ held (own who shared)) :
    what ∉ held (own other shared) := by
  induction shared using List.reverseRecOn generalizing who other with
  | nil => cases holds
  | append_singleton shared entry inductionHypothesis =>
      have before := @inductionHypothesis
      obtain ⟨actor, handed⟩ := entry
      cases handed with
      | taken new =>
          have unheld := fresh shared actor new [] rfl
          by_cases mine : actor = who
          · subst mine
            rw [own_snoc_self, held_taken, List.mem_cons] at holds
            rw [own_snoc_other different]
            rcases holds with rfl | already
            · exact unheld other
            · exact before fresh.dropLast different already
          · rw [own_snoc_other mine] at holds
            have apart := before fresh.dropLast different holds
            by_cases yours : actor = other
            · subst yours
              rw [own_snoc_self, held_taken, List.mem_cons]
              rintro (rfl | already)
              · exact unheld who holds
              · exact apart already
            · rw [own_snoc_other yours]
              exact apart
      | given old =>
          have held' : what ∈ held (own who shared) := by
            by_cases mine : actor = who
            · subst mine
              rw [own_snoc_self, held_given] at holds
              exact List.mem_of_mem_erase holds
            · rwa [own_snoc_other mine] at holds
          have apart := before fresh.dropLast different held'
          by_cases yours : actor = other
          · subst yours
            rw [own_snoc_self, held_given]
            exact fun member => apart (List.mem_of_mem_erase member)
          · rwa [own_snoc_other yours]

/-- A holder whose own log is rightful gives away only its own things,
whatever the others do. -/
theorem Rightful.givesOwn (rightful : Rightful (own who shared))
    (fresh : Fresh shared) : GivesOwn who shared := by
  rintro earlier what later rfl
  have holds : what ∈ held (own who earlier) := by
    apply rightful (own who earlier) what (own who later)
    rw [own_append]
    simp [own]
  have before : Fresh earlier := by
    intro first actor new between same
    apply fresh first actor new (between ++ (who, .given what) :: later)
    rw [same, List.append_assoc, List.cons_append]
  exact ⟨holds, fun other different =>
    before.apart (Ne.symm different) holds⟩

end Holders

end Handover

end PyKvCache.Library
