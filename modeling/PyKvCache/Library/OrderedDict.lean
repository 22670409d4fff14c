import Mathlib.Data.List.Perm.Basic
import Mathlib.Data.List.Nodup
import Mathlib.Tactic.Common

/-!
# Insertion-ordered dictionaries

A dictionary keeps its entries in the order their keys were first set.  Its
keys are distinct by construction, so an entry is found under its key exactly
when it is among the entries.  Dictionaries of counts and dictionaries of
queues are built from it.
-/

namespace PyKvCache.Library

/-- Entries in insertion order; no key occurs twice. -/
structure OrderedDict (key value : Type) where
  entries : List (key × value)
  distinct : (entries.map Prod.fst).Nodup

namespace OrderedDict

variable {key value : Type} [DecidableEq key]

/-- The dictionary without entries. -/
def empty : OrderedDict key value := ⟨[], List.nodup_nil⟩

/-- The value under a key. -/
def find? (dict : OrderedDict key value) (k : key) : Option value :=
  (dict.entries.find? fun entry => entry.1 = k).map Prod.snd

/-- `k in dict`. -/
def contains (dict : OrderedDict key value) (k : key) : Bool :=
  (dict.find? k).isSome

/-- `dict.values()`. -/
def values (dict : OrderedDict key value) : List value :=
  dict.entries.map Prod.snd

/-- `{k: change(v) for k, v in dict.items()}`. -/
def map {other : Type} (change : value → other)
    (dict : OrderedDict key value) : OrderedDict key other where
  entries := dict.entries.map fun entry => (entry.1, change entry.2)
  distinct := by
    rw [List.map_map]
    exact dict.distinct

/-- `dict.pop(k, None)`. -/
def erase (dict : OrderedDict key value) (k : key) :
    OrderedDict key value where
  entries := dict.entries.filter fun entry => entry.1 ≠ k
  distinct := dict.distinct.sublist (List.filter_sublist.map _)

omit [DecidableEq key] in
theorem find?_entries_eq_none {entries : List (key × value)} {k : key}
    [DecidableEq key] (absent : k ∉ entries.map Prod.fst) :
    (entries.find? fun entry => entry.1 = k) = none := by
  rw [List.find?_eq_none]
  intro entry member
  simp only [decide_eq_true_eq]
  rintro rfl
  exact absent (List.mem_map_of_mem member)

/-- Setting the value of a key leaves the keys and their order alone. -/
theorem map_fst_replace (entries : List (key × value)) (k : key)
    (v : value) :
    (entries.map fun entry => if entry.1 = k then (k, v) else entry).map
      Prod.fst = entries.map Prod.fst := by
  rw [List.map_map]
  apply List.map_congr_left
  intro entry _
  by_cases same : entry.1 = k <;> simp [same]

/-- `dict[k] = v`: in place when the key is there, at the end otherwise. -/
def set (dict : OrderedDict key value) (k : key) (v : value) :
    OrderedDict key value :=
  if present : k ∈ dict.entries.map Prod.fst then
    { entries := dict.entries.map fun entry =>
        if entry.1 = k then (k, v) else entry
      distinct := by rw [map_fst_replace]; exact dict.distinct }
  else
    { entries := dict.entries ++ [(k, v)]
      distinct := by
        rw [List.map_append, List.nodup_append]
        refine ⟨dict.distinct, List.nodup_singleton _, ?_⟩
        rintro a inDict b inNew rfl
        rw [List.map_singleton, List.mem_singleton] at inNew
        subst inNew
        exact present inDict }

/-- `dict.move_to_end(k)`. -/
def moveToEnd (dict : OrderedDict key value) (k : key) :
    OrderedDict key value :=
  match dict.find? k with
  | none => dict
  | some v => (dict.erase k).set k v

/-- `while len(dict) > limit: dict.popitem(last=False)`. -/
def keepNewest (dict : OrderedDict key value) (limit : Nat) :
    OrderedDict key value where
  entries := dict.entries.drop (dict.entries.length - limit)
  distinct := dict.distinct.sublist ((List.drop_sublist _ _).map _)

variable {dict : OrderedDict key value} {k other : key} {v : value}

theorem find?_eq_some_iff :
    dict.find? k = some v ↔ (k, v) ∈ dict.entries := by
  obtain ⟨entries, distinct⟩ := dict
  unfold find?
  induction entries with
  | nil => simp
  | cons entry entries inductionHypothesis =>
      rw [List.map_cons, List.nodup_cons] at distinct
      have later := inductionHypothesis distinct.2
      by_cases here : entry.1 = k
      · subst here
        have absent : ¬ (entry.1, v) ∈ entries := fun member =>
          distinct.1 (List.mem_map.mpr ⟨(entry.1, v), member, rfl⟩)
        simp only [List.find?_cons, decide_true, Option.map_some,
          Option.some.injEq, List.mem_cons, absent, or_false]
        constructor
        · rintro rfl
          rfl
        · intro equal
          exact (congrArg Prod.snd equal).symm
      · have different : (k, v) ≠ entry := fun equal =>
          here (congrArg Prod.fst equal).symm
        simp only [List.find?_cons, here, decide_false, List.mem_cons,
          different, false_or]
        exact later

theorem find?_eq_none_iff :
    dict.find? k = none ↔ k ∉ dict.entries.map Prod.fst := by
  constructor
  · intro missing member
    obtain ⟨entry, inDict, rfl⟩ := List.mem_map.mp member
    have found : dict.find? entry.1 = some entry.2 :=
      find?_eq_some_iff.mpr inDict
    rw [missing] at found
    cases found
  · intro absent
    rw [find?, find?_entries_eq_none absent, Option.map_none]

theorem contains_iff :
    dict.contains k = true ↔ ∃ v, dict.find? k = some v := by
  rw [contains, Option.isSome_iff_exists]

theorem contains_eq_false_iff :
    dict.contains k = false ↔ dict.find? k = none := by
  rw [contains, Option.isSome_eq_false_iff, Option.isNone_iff_eq_none]

theorem mem_values_of_find? (found : dict.find? k = some v) :
    v ∈ dict.values :=
  List.mem_map_of_mem (f := Prod.snd) (find?_eq_some_iff.mp found)

theorem exists_find?_of_mem_values (member : v ∈ dict.values) :
    ∃ k, dict.find? k = some v := by
  obtain ⟨entry, inDict, rfl⟩ := List.mem_map.mp member
  exact ⟨entry.1, find?_eq_some_iff.mpr inDict⟩

/-- Values that know their keys are distinct. -/
theorem nodup_values {keyOf : value → key}
    (keyed : ∀ k v, dict.find? k = some v → keyOf v = k) :
    dict.values.Nodup := by
  have keys : dict.values.map keyOf = dict.entries.map Prod.fst := by
    rw [values, List.map_map]
    refine List.map_congr_left fun entry member => ?_
    exact keyed entry.1 entry.2 (find?_eq_some_iff.mpr member)
  refine List.Nodup.of_map keyOf ?_
  rw [keys]
  exact dict.distinct

@[simp]
theorem find?_empty :
    (empty : OrderedDict key value).find? k = none := rfl

omit [DecidableEq key] in
@[simp]
theorem values_empty : (empty : OrderedDict key value).values = [] := rfl

omit [DecidableEq key] in
private theorem filter_ne_of_notMem [DecidableEq key]
    {entries : List (key × value)} (absent : k ∉ entries.map Prod.fst) :
    (entries.filter fun entry => entry.1 ≠ k) = entries := by
  rw [List.filter_eq_self]
  intro entry member
  simp only [decide_eq_true_eq]
  rintro rfl
  exact absent (List.mem_map_of_mem member)

/-- A found entry and the dictionary without it. -/
theorem entries_perm_erase (found : dict.find? k = some v) :
    dict.entries.Perm ((k, v) :: (dict.erase k).entries) := by
  have member := find?_eq_some_iff.mp found
  obtain ⟨entries, distinct⟩ := dict
  simp only [erase] at member ⊢
  clear found
  induction entries with
  | nil => cases member
  | cons entry entries inductionHypothesis =>
      rw [List.map_cons, List.nodup_cons] at distinct
      rcases List.mem_cons.mp member with rfl | later
      · rw [List.filter_cons_of_neg (by simp),
          filter_ne_of_notMem distinct.1]
      · have different : entry.1 ≠ k := fun same =>
          distinct.1 (same ▸ List.mem_map_of_mem (f := Prod.fst) later)
        rw [List.filter_cons_of_pos (by simpa using different)]
        exact ((inductionHypothesis distinct.2 later).cons entry).trans
          (List.Perm.swap _ _ _)

theorem erase_of_find?_none (missing : dict.find? k = none) :
    dict.erase k = dict := by
  obtain ⟨entries, distinct⟩ := dict
  have absent := find?_eq_none_iff.mp missing
  simp only [erase, OrderedDict.mk.injEq]
  exact filter_ne_of_notMem absent

theorem entries_set_perm :
    (dict.set k v).entries.Perm ((k, v) :: (dict.erase k).entries) := by
  unfold set
  split
  next present =>
    obtain ⟨entry, member, rfl⟩ := List.mem_map.mp present
    have replaced :
        ((entry.1, v) :: (dict.erase entry.1).entries) =
          ((entry.1, entry.2) :: (dict.erase entry.1).entries).map
            fun old => if old.1 = entry.1 then (entry.1, v) else old := by
      simp only [List.map_cons, if_true, List.cons.injEq, true_and]
      symm
      refine (List.map_congr_left (g := id) ?_).trans (List.map_id _)
      intro old inRest
      simp only [erase, List.mem_filter, decide_eq_true_eq] at inRest
      exact if_neg inRest.2
    rw [replaced]
    exact (entries_perm_erase (find?_eq_some_iff.mpr member)).map _
  next absent =>
    have missing := find?_eq_none_iff.mpr absent
    rw [erase_of_find?_none missing]
    exact List.perm_append_singleton _ _

theorem mem_erase_entries {entry : key × value} :
    entry ∈ (dict.erase k).entries ↔
      entry ∈ dict.entries ∧ entry.1 ≠ k := by
  simp [erase]

theorem find?_set :
    (dict.set k v).find? other =
      if other = k then some v else dict.find? other := by
  ext found
  rw [find?_eq_some_iff, entries_set_perm.mem_iff, List.mem_cons,
    mem_erase_entries]
  by_cases same : other = k
  · subst same
    simp [eq_comm]
  · simp [same, find?_eq_some_iff]

theorem entries_set_ne_nil : (dict.set k v).entries ≠ [] := by
  have found : (dict.set k v).find? k = some v := by
    rw [find?_set, if_pos rfl]
  exact List.ne_nil_of_mem (find?_eq_some_iff.mp found)

theorem find?_map {other : Type} {change : value → other} :
    (dict.map change).find? k = (dict.find? k).map change := by
  unfold find? map
  rw [List.find?_map, Option.map_map, Option.map_map]
  rfl

theorem find?_erase :
    (dict.erase k).find? other =
      if other = k then none else dict.find? other := by
  ext found
  rw [find?_eq_some_iff, mem_erase_entries]
  by_cases same : other = k
  · simp [same]
  · simp [same, find?_eq_some_iff]

omit [DecidableEq key] in
theorem mem_keepNewest_entries {limit : Nat} {entry : key × value}
    (member : entry ∈ (dict.keepNewest limit).entries) :
    entry ∈ dict.entries :=
  List.mem_of_mem_drop member

theorem values_perm_erase (found : dict.find? k = some v) :
    dict.values.Perm (v :: (dict.erase k).values) :=
  (entries_perm_erase found).map Prod.snd

theorem values_set_perm :
    (dict.set k v).values.Perm (v :: (dict.erase k).values) :=
  entries_set_perm.map Prod.snd

theorem values_set_of_none (missing : dict.find? k = none) :
    (dict.set k v).values.Perm (v :: dict.values) := by
  have perm := @values_set_perm _ _ _ dict k v
  rwa [erase_of_find?_none missing] at perm

/-- A new key is set at the end. -/
theorem entries_set_of_none (missing : dict.find? k = none) :
    (dict.set k v).entries = dict.entries ++ [(k, v)] := by
  rw [set, dif_neg (find?_eq_none_iff.mp missing)]

theorem length_set_of_none (missing : dict.find? k = none) :
    (dict.set k v).entries.length = dict.entries.length + 1 := by
  rw [entries_set_perm.length_eq, erase_of_find?_none missing,
    List.length_cons]

omit [DecidableEq key] in
theorem keepNewest_eq_self {limit : Nat}
    (fits : dict.entries.length ≤ limit) : dict.keepNewest limit = dict := by
  obtain ⟨entries, distinct⟩ := dict
  simp only [keepNewest, Nat.sub_eq_zero_of_le fits, List.drop_zero]

omit [DecidableEq key] in
theorem length_keepNewest_le {limit : Nat} :
    (dict.keepNewest limit).entries.length ≤ limit := by
  simp only [keepNewest, List.length_drop]
  omega

end OrderedDict

/-! ## Dictionaries of counts -/

/-- A dictionary of positive counts; an absent key counts zero. -/
structure CountTable (key : Type) [DecidableEq key] where
  dict : OrderedDict key Nat
  positive : ∀ k n, dict.find? k = some n → 0 < n

namespace CountTable

variable {key : Type} [DecidableEq key]

/-- The table without counts. -/
def empty : CountTable key := ⟨.empty, by simp⟩

/-- `counts.get(k, 0)`. -/
def count (table : CountTable key) (k : key) : Nat :=
  (table.dict.find? k).getD 0

/-- `k in counts`. -/
def contains (table : CountTable key) (k : key) : Bool :=
  table.dict.contains k

/-- `counts.pop(k, None)`. -/
def erase (table : CountTable key) (k : key) : CountTable key where
  dict := table.dict.erase k
  positive := by
    intro other n found
    rw [OrderedDict.find?_erase] at found
    split at found
    · cases found
    · exact table.positive other n found

/-- `counts[k] = n` for a positive `n`. -/
def set (table : CountTable key) (k : key) (n : Nat) (positive : 0 < n) :
    CountTable key where
  dict := table.dict.set k n
  positive := by
    intro other m found
    rw [OrderedDict.find?_set] at found
    split at found
    · cases found
      exact positive
    · exact table.positive other m found

/-- `counts[k] = counts.get(k, 0) + 1`. -/
def addOne (table : CountTable key) (k : key) : CountTable key :=
  table.set k (table.count k + 1) (Nat.succ_pos _)

/-- One less; a count that would reach zero is dropped. -/
def takeOne (table : CountTable key) (k : key) : CountTable key :=
  if small : table.count k ≤ 1 then
    table.erase k
  else
    table.set k (table.count k - 1) (by omega)

variable {table : CountTable key} {k other : key}

@[simp]
theorem count_empty : (empty : CountTable key).count k = 0 := rfl

theorem contains_iff : table.contains k = true ↔ 0 < table.count k := by
  rw [contains, OrderedDict.contains_iff, count]
  cases found : table.dict.find? k with
  | none => simp
  | some n => simpa using table.positive k n found

theorem entries_eq_nil (zero : ∀ k, table.count k = 0) :
    table.dict.entries = [] := by
  rw [List.eq_nil_iff_forall_not_mem]
  rintro ⟨k, n⟩ member
  have found : table.dict.find? k = some n :=
    OrderedDict.find?_eq_some_iff.mpr member
  have counted := zero k
  rw [count, found] at counted
  exact Nat.ne_of_gt (table.positive k n found) counted

theorem count_set {n : Nat} {positive : 0 < n} :
    (table.set k n positive).count other =
      if other = k then n else table.count other := by
  rw [count, set, OrderedDict.find?_set]
  split <;> rfl

theorem count_erase :
    (table.erase k).count other =
      if other = k then 0 else table.count other := by
  rw [count, erase, OrderedDict.find?_erase]
  split <;> rfl

theorem count_addOne :
    (table.addOne k).count other =
      if other = k then table.count k + 1 else table.count other :=
  count_set

theorem count_takeOne :
    (table.takeOne k).count other =
      if other = k then table.count k - 1 else table.count other := by
  unfold takeOne
  split
  next small =>
    rw [count_erase]
    split <;> omega
  next large => exact count_set

end CountTable

/-! ## Dictionaries of queues -/

/-- A dictionary of non-empty queues; an absent key has an empty one. -/
structure QueueTable (key item : Type) [DecidableEq key] where
  dict : OrderedDict key (List item)
  filled : ∀ k queue, dict.find? k = some queue → queue ≠ []

namespace QueueTable

variable {key item : Type} [DecidableEq key]

/-- The table without queues. -/
def empty : QueueTable key item := ⟨.empty, by simp⟩

/-- The queue of a key. -/
def queue (table : QueueTable key item) (k : key) : List item :=
  (table.dict.find? k).getD []

/-- `k in table`. -/
def contains (table : QueueTable key item) (k : key) : Bool :=
  table.dict.contains k

/-- Every item with the key it is queued under, key by key. -/
def pairs (table : QueueTable key item) : List (key × item) :=
  table.dict.entries.flatMap fun entry => entry.2.map (entry.1, ·)

@[simp]
theorem pairs_empty : (empty : QueueTable key item).pairs = [] := rfl

/-- The key that was set first. -/
def oldest (table : QueueTable key item) : Option key :=
  table.dict.entries.head?.map Prod.fst

/-- Forget the queue of a key. -/
def erase (table : QueueTable key item) (k : key) : QueueTable key item where
  dict := table.dict.erase k
  filled := by
    intro other queue found
    rw [OrderedDict.find?_erase] at found
    split at found
    · cases found
    · exact table.filled other queue found

/-- Set the queue of a key. -/
def set (table : QueueTable key item) (k : key) (queue : List item)
    (filled : queue ≠ []) : QueueTable key item where
  dict := table.dict.set k queue
  filled := by
    intro other found member
    rw [OrderedDict.find?_set] at member
    split at member
    · cases member
      exact filled
    · exact table.filled other found member

/-- Append one item to the queue of a key. -/
def pushBack (table : QueueTable key item) (k : key) (x : item) :
    QueueTable key item :=
  table.set k (table.queue k ++ [x]) (by simp)

/-- Append items to the queue of a key. -/
def extend (table : QueueTable key item) (k : key) (items : List item) :
    QueueTable key item :=
  items.foldl (fun current x => current.pushBack k x) table

/-- Remove the queue of a key, or keep what is left of it. -/
def keep (table : QueueTable key item) (k : key) (rest : List item) :
    QueueTable key item :=
  if filled : rest ≠ [] then table.set k rest filled else table.erase k

/-- Take the first item of the queue of a key. -/
def popFront (table : QueueTable key item) (k : key) :
    Option (item × QueueTable key item) :=
  match table.queue k with
  | [] => none
  | first :: rest => some (first, table.keep k rest)

/-- `table.move_to_end(k)`. -/
def moveToEnd (table : QueueTable key item) (k : key) :
    QueueTable key item :=
  if filled : table.queue k ≠ [] then
    (table.erase k).set k (table.queue k) filled
  else
    table

/-- `while len(table) > limit: table.popitem(last=False)`. -/
def keepNewest (table : QueueTable key item) (limit : Nat) :
    QueueTable key item where
  dict := table.dict.keepNewest limit
  filled := by
    intro k queue found
    exact table.filled k queue (OrderedDict.find?_eq_some_iff.mpr
      (OrderedDict.mem_keepNewest_entries
        (OrderedDict.find?_eq_some_iff.mp found)))

variable {table : QueueTable key item} {k other : key} {x : item}
  {rest : List item}

@[simp]
theorem queue_empty : (empty : QueueTable key item).queue k = [] := rfl

theorem find?_eq_none_iff :
    table.dict.find? k = none ↔ table.queue k = [] := by
  unfold QueueTable.queue
  cases found : table.dict.find? k with
  | none => simp
  | some present => simpa using table.filled k present found

theorem entries_eq_nil (empty : ∀ k, table.queue k = []) :
    table.dict.entries = [] := by
  rw [List.eq_nil_iff_forall_not_mem]
  rintro ⟨k, queue⟩ member
  have found : table.dict.find? k = some queue :=
    OrderedDict.find?_eq_some_iff.mpr member
  have queued := empty k
  rw [QueueTable.queue, found] at queued
  exact table.filled k queue found queued

theorem contains_iff : table.contains k = true ↔ table.queue k ≠ [] := by
  rw [contains, ← Bool.not_eq_false, ne_eq,
    OrderedDict.contains_eq_false_iff, find?_eq_none_iff]

theorem queue_set {queue : List item} {filled : queue ≠ []} :
    (table.set k queue filled).queue other =
      if other = k then queue else table.queue other := by
  rw [QueueTable.queue, set, OrderedDict.find?_set]
  split <;> rfl

theorem queue_erase :
    (table.erase k).queue other =
      if other = k then [] else table.queue other := by
  rw [QueueTable.queue, erase, OrderedDict.find?_erase]
  split <;> rfl

theorem queue_pushBack :
    (table.pushBack k x).queue other =
      if other = k then table.queue k ++ [x] else table.queue other :=
  queue_set

theorem queue_keep :
    (table.keep k rest).queue other =
      if other = k then rest else table.queue other := by
  unfold keep
  split
  next filled => exact queue_set
  next empty =>
    rw [not_ne_iff] at empty
    rw [queue_erase, empty]

theorem queue_moveToEnd :
    (table.moveToEnd k).queue other = table.queue other := by
  unfold moveToEnd
  split
  next filled =>
    rw [queue_set, queue_erase]
    split
    next same => rw [same]
    next => rfl
  next => rfl

theorem popFront_eq_some_iff {first : item} {after : QueueTable key item} :
    table.popFront k = some (first, after) ↔
      ∃ rest, table.queue k = first :: rest ∧
        after = table.keep k rest := by
  unfold popFront
  split
  next none => simp [none]
  next head rest some =>
    simp only [Option.some.injEq, Prod.mk.injEq, some, List.cons.injEq]
    constructor
    · rintro ⟨rfl, rfl⟩
      exact ⟨rest, ⟨rfl, rfl⟩, rfl⟩
    · rintro ⟨tail, ⟨rfl, rfl⟩, rfl⟩
      exact ⟨rfl, rfl⟩

theorem popFront_eq_none_iff :
    table.popFront k = none ↔ table.queue k = [] := by
  unfold popFront
  split <;> simp_all

theorem queue_oldest_ne_nil (first : table.oldest = some k) :
    table.queue k ≠ [] := by
  obtain ⟨entry, head, rfl⟩ := Option.map_eq_some_iff.mp first
  have found : table.dict.find? entry.1 = some entry.2 :=
    OrderedDict.find?_eq_some_iff.mpr (List.mem_of_head? head)
  rw [queue, found]
  exact table.filled _ _ found

/-! The items of a table, up to order. -/

theorem pairs_perm_erase :
    table.pairs.Perm
      ((table.queue k).map (k, ·) ++ (table.erase k).pairs) := by
  cases found : table.dict.find? k with
  | none =>
      have same : table.erase k = table := by
        simp only [erase, OrderedDict.erase_of_find?_none found]
      rw [same, find?_eq_none_iff.mp found]
      exact List.Perm.refl _
  | some queue =>
      have equal : table.queue k = queue := by
        rw [QueueTable.queue, found, Option.getD_some]
      have split :=
        (OrderedDict.entries_perm_erase found).flatMap_right
          fun entry => entry.2.map (entry.1, ·)
      rw [equal]
      simpa only [pairs, List.flatMap_cons, erase] using split

theorem pairs_set_perm {queue : List item} {filled : queue ≠ []} :
    (table.set k queue filled).pairs.Perm
      (queue.map (k, ·) ++ (table.erase k).pairs) := by
  have split :=
    (@OrderedDict.entries_set_perm _ _ _ table.dict k queue).flatMap_right
      fun entry => entry.2.map (entry.1, ·)
  simpa only [pairs, List.flatMap_cons, erase, set] using split

theorem pairs_pushBack :
    (table.pushBack k x).pairs.Perm ((k, x) :: table.pairs) := by
  refine pairs_set_perm.trans ?_
  rw [List.map_append, List.map_singleton]
  refine List.Perm.trans ?_ ((pairs_perm_erase (k := k)).symm.cons (k, x))
  rw [List.append_assoc]
  exact List.perm_middle

theorem pairs_keep :
    (table.keep k rest).pairs.Perm
      (rest.map (k, ·) ++ (table.erase k).pairs) := by
  unfold keep
  split
  next filled => exact pairs_set_perm
  next empty =>
    rw [not_ne_iff] at empty
    rw [empty]
    exact List.Perm.refl _

/-- Taking the first item of a queue. -/
theorem pairs_perm_keep {first : item}
    (equal : table.queue k = first :: rest) :
    table.pairs.Perm ((k, first) :: (table.keep k rest).pairs) := by
  refine (pairs_perm_erase (k := k)).trans ?_
  rw [equal, List.map_cons, List.cons_append]
  exact (pairs_keep (k := k)).symm.cons _

theorem mem_pairs_of_mem_erase {pair : key × item}
    (member : pair ∈ (table.erase k).pairs) : pair ∈ table.pairs := by
  rw [(pairs_perm_erase (k := k)).mem_iff]
  exact List.mem_append_right _ member

theorem mem_pairs_of_mem_keep {first : item} {pair : key × item}
    (equal : table.queue k = first :: rest)
    (member : pair ∈ (table.keep k rest).pairs) : pair ∈ table.pairs := by
  rw [(pairs_perm_keep equal).mem_iff]
  exact List.mem_cons_of_mem _ member

theorem pairs_moveToEnd :
    (table.moveToEnd k).pairs.Perm table.pairs := by
  unfold moveToEnd
  split
  next filled =>
    have twice : ((table.erase k).erase k) = table.erase k := by
      simp only [erase, mk.injEq]
      exact OrderedDict.erase_of_find?_none (by simp [OrderedDict.find?_erase])
    refine pairs_set_perm.trans ?_
    rw [twice]
    exact pairs_perm_erase.symm
  next => exact List.Perm.refl _

theorem mem_pairs_of_mem_keepNewest {limit : Nat} {pair : key × item}
    (member : pair ∈ (table.keepNewest limit).pairs) :
    pair ∈ table.pairs := by
  simp only [pairs, List.mem_flatMap] at member ⊢
  obtain ⟨entry, newest, inEntry⟩ := member
  exact ⟨entry, OrderedDict.mem_keepNewest_entries newest, inEntry⟩

theorem pairs_extend (items : List item) :
    (table.extend k items).pairs.Perm
      (items.map (k, ·) ++ table.pairs) := by
  induction items generalizing table with
  | nil => exact List.Perm.refl _
  | cons head tail inductionHypothesis =>
      refine (@inductionHypothesis (table.pushBack k head)).trans ?_
      refine (pairs_pushBack.append_left _).trans ?_
      rw [List.map_cons, List.cons_append]
      exact List.perm_middle

theorem queue_extend (items : List item) :
    (table.extend k items).queue other =
      if other = k then table.queue k ++ items else table.queue other := by
  induction items generalizing table with
  | nil =>
      split
      next same => simp [extend, same]
      next => rfl
  | cons head tail inductionHypothesis =>
      have tailQueue :=
        @inductionHypothesis (table.pushBack k head)
      rw [queue_pushBack, queue_pushBack, if_pos rfl,
        List.append_assoc] at tailQueue
      refine tailQueue.trans ?_
      split <;> rfl

theorem mem_pairs_of_mem_queue (member : x ∈ table.queue k) :
    (k, x) ∈ table.pairs := by
  rw [(pairs_perm_erase (k := k)).mem_iff]
  exact List.mem_append_left _ (List.mem_map_of_mem member)

end QueueTable

end PyKvCache.Library
