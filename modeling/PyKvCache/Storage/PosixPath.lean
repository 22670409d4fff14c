import PyKvCache.Library.Delimited

/-!
# `os.path` on POSIX systems

The three functions the file mapper uses, on strings as lists of characters.
A relative path comes out of `normpath` with no slash at either end, and
`join` puts one slash between such paths.
-/

namespace PyKvCache.Storage

open PyKvCache.Library

/-- `str`. -/
abbrev Str := List Char

namespace PosixPath

/-- `os.path.isabs`. -/
def isabs (path : Str) : Bool :=
  path.head? = some '/'

/-- One component in `os.path.join`. -/
def joinOne (path component : Str) : Str :=
  if component.head? = some '/' ∨ path = [] then
    component
  else if path.getLast? = some '/' then
    path ++ component
  else
    path ++ '/' :: component

/-- `os.path.join`. -/
def join (path : Str) (components : List Str) : Str :=
  components.foldl joinOne path

/-- The slashes a normalised path starts with: two exactly when there are two,
one when there is one or there are more than two. -/
def initialSlashes : Str → Str
  | '/' :: '/' :: '/' :: _ => ['/']
  | '/' :: '/' :: _ => ['/', '/']
  | '/' :: _ => ['/']
  | _ => []

/-- One component in the loop of `os.path.normpath`. -/
def normStep (slashes : Str) (comps : List Str) (comp : Str) : List Str :=
  if comp = [] ∨ comp = ['.'] then
    comps
  else if comp ≠ ['.', '.'] ∨ (slashes = [] ∧ comps = []) ∨
      comps.getLast? = some ['.', '.'] then
    comps ++ [comp]
  else
    comps.dropLast

/-- `os.path.normpath`. -/
def normpath (path : Str) : Str :=
  if path = [] then
    ['.']
  else
    let slashes := initialSlashes path
    let comps := (path.splitOn '/').foldl (normStep slashes) []
    let normal := slashes ++ ['/'].intercalate comps
    if normal = [] then ['.'] else normal

/-- One directory or file name: a single component that is not empty. -/
def IsComponent (name : Str) : Prop :=
  name ≠ [] ∧ '/' ∉ name

instance (name : Str) : Decidable (IsComponent name) :=
  inferInstanceAs (Decidable (_ ∧ _))

/-- A path that ends in a component. -/
def EndsInName (path : Str) : Prop :=
  ∃ last, path.getLast? = some last ∧ last ≠ '/'

variable {path name root : Str} {comps names : List Str}

theorem IsComponent.head?_ne (component : IsComponent name) :
    name.head? ≠ some '/' := by
  intro starts
  exact component.2 (List.mem_of_head? starts)

theorem IsComponent.endsInName (component : IsComponent name) :
    EndsInName name := by
  refine ⟨name.getLast component.1,
    List.getLast?_eq_some_getLast component.1, ?_⟩
  intro slash
  have member := List.getLast_mem component.1
  rw [slash] at member
  exact component.2 member

theorem EndsInName.append (ends : EndsInName name) :
    EndsInName (path ++ name) := by
  obtain ⟨last, isLast, noSlash⟩ := ends
  refine ⟨last, ?_, noSlash⟩
  rw [List.getLast?_append, isLast]
  rfl

/-! ## `join` -/

/-- Behind a name a component comes after one slash. -/
theorem joinOne_of_endsInName (ends : EndsInName path)
    (component : IsComponent name) :
    joinOne path name = path ++ '/' :: name := by
  obtain ⟨last, isLast, noSlash⟩ := ends
  have noTrailing : path.getLast? ≠ some '/' := by
    rw [isLast]
    intro slash
    exact noSlash (Option.some.inj slash)
  have relative : ¬ (name.head? = some '/' ∨ path = []) := by
    rintro (starts | empty)
    · exact component.head?_ne starts
    · rw [empty] at isLast
      cases isLast
  rw [joinOne, if_neg relative, if_neg noTrailing]

theorem join_of_endsInName (ends : EndsInName path)
    (components : ∀ name ∈ names, IsComponent name) :
    join path names = strung '/' path names := by
  induction names generalizing path with
  | nil => rfl
  | cons name names inductionHypothesis =>
      have component := components name List.mem_cons_self
      have next : EndsInName (path ++ '/' :: name) := by
        rw [← List.singleton_append, ← List.append_assoc]
        exact component.endsInName.append
      change join (joinOne path name) names =
        strung '/' (path ++ '/' :: name) names
      rw [joinOne_of_endsInName ends component]
      exact inductionHypothesis next fun other member =>
        components other (List.mem_cons_of_mem name member)

theorem endsInName_joinOne (ends : EndsInName name) :
    EndsInName (joinOne path name) := by
  unfold joinOne
  split
  · exact ends
  · split
    · exact ends.append
    · rw [← List.singleton_append, ← List.append_assoc]
      exact ends.append

/-- A relative path can be read off behind the same root. -/
theorem joinOne_cancel {other : Str} (relative : isabs name = false)
    (otherRelative : isabs other = false)
    (same : joinOne root name = joinOne root other) : name = other := by
  simp only [isabs, decide_eq_false_iff_not] at relative otherRelative
  unfold joinOne at same
  by_cases empty : root = []
  · rw [if_pos (Or.inr empty), if_pos (Or.inr empty)] at same
    exact same
  · have behind : ¬ (name.head? = some '/' ∨ root = []) :=
      fun either => either.elim relative empty
    have otherBehind : ¬ (other.head? = some '/' ∨ root = []) :=
      fun either => either.elim otherRelative empty
    rw [if_neg behind, if_neg otherBehind] at same
    split at same
    · exact List.append_cancel_left same
    · exact (List.cons.inj (List.append_cancel_left same)).2

/-! ## `normpath` -/

/-- The loop keeps components. -/
theorem normStep_components {slashes comp : Str}
    (components : ∀ name ∈ comps, IsComponent name)
    (noSlash : '/' ∉ comp) :
    ∀ name ∈ normStep slashes comps comp, IsComponent name := by
  intro name member
  unfold normStep at member
  split at member
  next => exact components name member
  next named =>
    rw [not_or] at named
    split at member
    next =>
      rcases List.mem_append.mp member with before | new
      · exact components name before
      · rw [List.mem_singleton.mp new]
        exact ⟨named.1, noSlash⟩
    next =>
      exact components name
        ((List.dropLast_sublist comps).subset member)

theorem normLoop_components {slashes : Str} {pieces : List Str}
    (components : ∀ name ∈ comps, IsComponent name)
    (noSlash : ∀ piece ∈ pieces, '/' ∉ piece) :
    ∀ name ∈ pieces.foldl (normStep slashes) comps, IsComponent name := by
  induction pieces generalizing comps with
  | nil => exact components
  | cons piece pieces inductionHypothesis =>
      exact inductionHypothesis
        (normStep_components components (noSlash piece List.mem_cons_self))
        fun other member => noSlash other (List.mem_cons_of_mem _ member)

theorem initialSlashes_of_relative (relative : isabs path = false) :
    initialSlashes path = [] := by
  simp only [isabs, decide_eq_false_iff_not] at relative
  unfold initialSlashes
  split
  next => exact absurd rfl relative
  next => exact absurd rfl relative
  next => exact absurd rfl relative
  next => rfl

/-- A relative path stays relative and ends in a name. -/
theorem normpath_of_relative (relative : isabs path = false) :
    isabs (normpath path) = false ∧ EndsInName (normpath path) := by
  have dot : isabs ['.'] = false ∧ EndsInName ['.'] :=
    ⟨rfl, '.', rfl, by decide⟩
  unfold normpath
  split
  next => exact dot
  next =>
    have components := @normLoop_components [] []
      (path.splitOn '/') nofun fun _ => notMem_of_mem_splitOn
    rw [initialSlashes_of_relative relative]
    simp only [List.nil_append]
    generalize (path.splitOn '/').foldl (normStep []) [] = comps
      at components ⊢
    split
    next => exact dot
    next named =>
      cases comps with
      | nil => exact absurd rfl named
      | cons first rest =>
          have firstComponent := components first List.mem_cons_self
          obtain ⟨last, member, ending⟩ :=
            @getLast?_intercalate _ '/' (first :: rest)
              (fun name member => (components name member).1)
              (List.cons_ne_nil _ _)
          constructor
          · rw [isabs, head?_intercalate firstComponent.1]
            exact decide_eq_false firstComponent.head?_ne
          · rw [EndsInName, ending]
            exact (components last member).endsInName

end PosixPath

end PyKvCache.Storage
