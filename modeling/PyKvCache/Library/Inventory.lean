import PyKvCache.Library.OrderedDict
import Mathlib.Algebra.BigOperators.Group.List.Basic
import Mathlib.Algebra.GroupWithZero.Nat

/-!
# Inventories

The total weight of a list does not depend on its order, and lists that weigh
the same under every weight are permutations of each other.  So where items
move between tables, the tables together stay the same up to order as soon as
their weights add up, and adding up is linear arithmetic.
-/

namespace PyKvCache.Library

variable {item other : Type}

/-- The sum of the weights of all items. -/
def weigh (weight : item → Nat) (items : List item) : Nat :=
  (items.map weight).sum

section Weigh

variable {weight : item → Nat}

@[simp]
theorem weigh_nil : weigh weight [] = 0 := rfl

@[simp]
theorem weigh_cons {head : item} {tail : List item} :
    weigh weight (head :: tail) = weight head + weigh weight tail := by
  simp [weigh]

@[simp]
theorem weigh_append {first second : List item} :
    weigh weight (first ++ second) =
      weigh weight first + weigh weight second := by
  simp [weigh]

@[simp]
theorem weigh_map {f : other → item} {items : List other} :
    weigh weight (items.map f) = weigh (fun x => weight (f x)) items := by
  simp [weigh, Function.comp_def]

@[simp]
theorem weigh_flatMap {f : other → List item} {items : List other} :
    weigh weight (items.flatMap f) =
      weigh (fun x => weigh weight (f x)) items := by
  induction items with
  | nil => rfl
  | cons head tail inductionHypothesis =>
      rw [List.flatMap_cons, weigh_append, weigh_cons, inductionHypothesis]

theorem weigh_perm (weight : item → Nat) {first second : List item}
    (perm : first.Perm second) :
    weigh weight first = weigh weight second :=
  (perm.map weight).sum_eq

theorem weigh_le {heavier : item → Nat} {items : List item}
    (each : ∀ x, weight x ≤ heavier x) :
    weigh weight items ≤ weigh heavier items := by
  induction items with
  | nil => exact Nat.le_refl _
  | cons head tail inductionHypothesis =>
      rw [weigh_cons, weigh_cons]
      exact Nat.add_le_add (each head) inductionHypothesis

theorem weigh_erase [DecidableEq item] {x : item} {items : List item}
    (member : x ∈ items) :
    weigh weight items = weight x + weigh weight (items.erase x) := by
  rw [weigh_perm _ (List.perm_cons_erase member), weigh_cons]

end Weigh

/-- A weight that counts one item. -/
theorem weigh_indicator [DecidableEq item] (x : item) (items : List item) :
    weigh (fun y => if y = x then 1 else 0) items = items.count x := by
  induction items with
  | nil => rfl
  | cons head tail inductionHypothesis =>
      rw [weigh_cons, inductionHypothesis, List.count_cons, Nat.add_comm]
      simp only [beq_iff_eq]

/-- Lists that weigh the same under every weight have the same items. -/
theorem perm_of_weigh {first second : List item}
    (same : ∀ weight : item → Nat,
      weigh weight first = weigh weight second) : first.Perm second := by
  classical
  rw [List.perm_iff_count]
  intro x
  rw [← weigh_indicator, ← weigh_indicator, same]

/-! ## Weights of tables -/

section Tables

variable {key value : Type} [DecidableEq key]

theorem OrderedDict.weigh_values_set {dict : OrderedDict key value}
    {k : key} {v : value} (new : dict.find? k = none)
    {weight : value → Nat} :
    weigh weight (dict.set k v).values =
      weight v + weigh weight dict.values := by
  rw [weigh_perm _ (values_set_of_none new), weigh_cons]

theorem OrderedDict.weigh_values_erase {dict : OrderedDict key value}
    {k : key} {v : value} (found : dict.find? k = some v)
    {weight : value → Nat} :
    weigh weight dict.values =
      weight v + weigh weight (dict.erase k).values := by
  rw [weigh_perm _ (values_perm_erase found), weigh_cons]

/-- The sum of all counts of a table. -/
def CountTable.total (table : CountTable key) : Nat :=
  weigh id table.dict.values

theorem CountTable.total_eq (table : CountTable key) (k : key) :
    table.total = table.count k + (table.erase k).total := by
  have rest : (table.erase k).total =
      weigh id (table.dict.erase k).values := rfl
  rw [rest]
  unfold total count
  cases found : table.dict.find? k with
  | none =>
      rw [OrderedDict.erase_of_find?_none found, Option.getD_none,
        Nat.zero_add]
  | some n =>
      rw [OrderedDict.weigh_values_erase found, Option.getD_some, id_eq]

theorem CountTable.total_set {table : CountTable key} {k : key} {n : Nat}
    {positive : 0 < n} :
    (table.set k n positive).total = n + (table.erase k).total := by
  unfold total
  rw [set, weigh_perm _ OrderedDict.values_set_perm, weigh_cons, id_eq,
    erase]

theorem CountTable.total_addOne {table : CountTable key} {k : key} :
    (table.addOne k).total = table.total + 1 := by
  have split := table.total_eq k
  unfold addOne
  rw [total_set]
  omega

theorem CountTable.total_takeOne {table : CountTable key} {k : key}
    (counted : 0 < table.count k) :
    (table.takeOne k).total + 1 = table.total := by
  have split := table.total_eq k
  unfold takeOne
  by_cases small : table.count k ≤ 1
  · rw [dif_pos small]
    omega
  · rw [dif_neg small, total_set]
    omega

theorem QueueTable.weigh_pushBack {table : QueueTable key value} {k : key}
    {x : value} {weight : key × value → Nat} :
    weigh weight (table.pushBack k x).pairs =
      weight (k, x) + weigh weight table.pairs := by
  rw [weigh_perm _ pairs_pushBack, weigh_cons]

theorem QueueTable.weigh_keep {table : QueueTable key value} {k : key}
    {first : value} {rest : List value}
    (equal : table.queue k = first :: rest)
    {weight : key × value → Nat} :
    weigh weight table.pairs =
      weight (k, first) + weigh weight (table.keep k rest).pairs := by
  rw [weigh_perm _ (pairs_perm_keep equal), weigh_cons]

end Tables

end PyKvCache.Library
