import PyKvCache.Library.Inventory
import PyKvCache.Scheduler.OffloadingManager
import Mathlib.Logic.Relation

/-!
# Mid-write or missing

The manager beside the stores that are outstanding, over any history of calls:
whether a block exists, is being written or is missing, and what the manager
says about it.
-/

namespace PyKvCache.Scheduler

open PyKvCache.Library PyKvCache.Library.Effect PyKvCache.Staging

variable {key planner : Type} {env : Env key}

/-! ## Each call -/

/-- How many of the keys are for a hash. -/
def occurrences (env : Env key) (hash : BlockHash) (keys : List key) : Nat :=
  keys.countP fun k => env.blockHash k = hash

/-- Some key of another group comes after a key whose file is missing. -/
def Env.raisesLate (env : Env key) (clock : Nat) : List key → Bool
  | [] => false
  | k :: keys =>
      if env.groupIdx k ≠ 0 then
        false
      else if env.onDisk clock (env.getFileName (env.blockHash k)) then
        env.raisesLate (clock + 1) keys
      else
        keys.any fun k => env.groupIdx k ≠ 0

/-- A file that is there stays. -/
def Env.FilesStay (env : Env key) : Prop :=
  ∀ clock name, env.onDisk clock name = true →
    env.onDisk (clock + 1) name = true

/-- What is cached is there, and what is there stays. -/
structure CacheSound (env : Env key) (manager : Manager planner) :
    Prop where
  stays : env.FilesStay
  there : ∀ hash, manager.lookupCache.contains hash = true →
    env.onDisk manager.clock (env.getFileName hash) = true

section Calls

variable {manager : Manager planner} {hash : BlockHash}

theorem occurrences_cons (k : key) (keys : List key) :
    occurrences env hash (k :: keys) =
      occurrences env hash keys +
        if env.blockHash k = hash then 1 else 0 := by
  unfold occurrences
  rw [List.countP_cons]
  simp only [decide_eq_true_eq]

namespace CacheSound

variable {next : Manager planner}

/-- A file that is there is still there at the next instant. -/
theorem later (sound : CacheSound env manager)
    (cache : next.lookupCache = manager.lookupCache)
    (clock : next.clock = manager.clock + 1) : CacheSound env next := by
  refine ⟨sound.stays, fun hash cached => ?_⟩
  rw [cache] at cached
  rw [clock]
  exact sound.stays _ _ (sound.there hash cached)

/-- The cache only lost entries. -/
theorem fewer (sound : CacheSound env manager)
    (fewer : ∀ hash, next.lookupCache.contains hash = true →
      manager.lookupCache.contains hash = true)
    (clock : next.clock = manager.clock) : CacheSound env next := by
  refine ⟨sound.stays, fun hash cached => ?_⟩
  rw [clock]
  exact sound.there hash (fewer hash cached)

/-- Neither the cache nor the clock changed. -/
theorem unchanged (sound : CacheSound env manager)
    (cache : next.lookupCache = manager.lookupCache)
    (clock : next.clock = manager.clock) : CacheSound env next := by
  refine sound.fewer (fun hash cached => ?_) clock
  rwa [cache] at cached

/-- A file that was seen is cached. -/
theorem seen (sound : CacheSound env manager)
    (found : env.onDisk manager.clock (env.getFileName hash) = true)
    (cache : next.lookupCache = manager.lookupCache.set hash true)
    (clock : next.clock = manager.clock + 1) : CacheSound env next := by
  refine ⟨sound.stays, fun other cached => ?_⟩
  rw [cache, OrderedDict.contains_iff] at cached
  obtain ⟨value, inCache⟩ := cached
  rw [OrderedDict.find?_set] at inCache
  rw [clock]
  by_cases same : other = hash
  · rw [same]
    exact sound.stays _ _ found
  · rw [if_neg same] at inCache
    have before := OrderedDict.contains_iff.mpr ⟨value, inCache⟩
    exact sound.stays _ _ (sound.there other before)

end CacheSound

/-- The cache stays sound and the counts stay as they are. -/
structure Uncounted (env : Env key) (manager next : Manager planner) :
    Prop where
  sound : CacheSound env next
  counts : next.storeInflight = manager.storeInflight

theorem maybeFlush_uncounted (sound : CacheSound env manager)
    (reqId : Option String) :
    wp (maybeFlushLookupCache reqId)
      (fun _ => Uncounted env manager) (fun _ _ => False) manager := by
  unfold maybeFlushLookupCache
  rw [wp_modify]
  split
  · exact ⟨sound.fewer (fun _ cached => by cases cached) rfl, rfl⟩
  · exact ⟨sound, rfl⟩

theorem getBlockHashes_uncounted (sound : CacheSound env manager)
    (keys : List key) :
    wp (getBlockHashes env keys) (fun _ => Uncounted env manager)
      (fun _ => Uncounted env manager) manager := by
  have kept : Uncounted env manager manager := ⟨sound, rfl⟩
  induction keys with
  | nil => exact kept
  | cons k keys inductionHypothesis =>
      simp only [getBlockHashes, getBlockHash, wp_bind, wp_ite, wp_throw,
        wp_pure]
      exact ⟨fun _ => kept, fun _ => inductionHypothesis⟩

theorem prepareLoad_uncounted (sound : CacheSound env manager)
    (keys : List key) (reqId : Option String) :
    wp (prepareLoad env keys reqId) (fun _ => Uncounted env manager)
      (fun _ => Uncounted env manager) manager := by
  refine wp_seq (wp_returns (maybeFlush_uncounted sound reqId)) ?_
  intro _ flushed kept
  exact wp_mono (getBlockHashes_uncounted kept.sound keys)
    (fun _ _ done => ⟨done.sound, done.counts.trans kept.counts⟩)
    fun _ _ done => ⟨done.sound, done.counts.trans kept.counts⟩

theorem probe_uncounted (sound : CacheSound env manager)
    (hash : BlockHash) :
    wp (probe env hash) (fun _ => Uncounted env manager)
      (fun _ => Uncounted env manager) manager := by
  simp only [probe, pathExists, wp_bind, wp_get, wp_ite, wp_pure,
    wp_modifyGet, wp_modify]
  refine ⟨fun _ => ⟨sound, rfl⟩, fun _ => ⟨fun found => ?_, fun _ => ?_⟩⟩
  · exact ⟨sound.seen found rfl rfl, rfl⟩
  · exact ⟨sound.later rfl rfl, rfl⟩

theorem lookup_uncounted [Planner planner] (sound : CacheSound env manager)
    (k : key) (reqId : Option String) :
    wp (lookup env k reqId) (fun _ => Uncounted env manager)
      (fun _ => Uncounted env manager) manager := by
  have looked : wp (cachedExists env (env.blockHash k))
      (fun _ => Uncounted env manager) (fun _ => Uncounted env manager)
      manager := by
    simp only [cachedExists, pathExists, wp_bind, wp_get, wp_ite, wp_pure,
      wp_modifyGet, wp_modify, wp_onlyIf]
    refine ⟨fun _ => ⟨sound, rfl⟩, fun _ => ⟨fun found => ?_, fun _ => ?_⟩⟩
    · exact ⟨sound.seen found rfl rfl, rfl⟩
    · exact ⟨sound.later rfl rfl, rfl⟩
  simp only [lookup, getBlockHash, addEvent, wp_bind, wp_get, wp_ite,
    wp_pure, wp_modify, wp_onlyIf, wp_throw]
  refine ⟨fun _ => ⟨sound, rfl⟩, fun _ => wp_post looked ?_⟩
  intro _ next kept
  have same : Uncounted env manager next := kept
  exact ⟨fun _ => ⟨fun _ => ⟨same.sound.unchanged rfl rfl, same.counts⟩,
      fun _ => ⟨same.sound.unchanged rfl rfl, same.counts⟩⟩,
    fun _ => ⟨fun _ => ⟨same.sound.unchanged rfl rfl, same.counts⟩,
      fun _ => ⟨same.sound.unchanged rfl rfl, same.counts⟩⟩⟩

/-- What a raise of the loop of `prepare_store` leaves counted. -/
structure Leaks (env : Env key) (manager : Manager planner)
    (keys : List key) (next : Manager planner) : Prop where
  raised : ∃ k ∈ keys, env.groupIdx k ≠ 0
  grown : ∀ hash, manager.storeInflight.count hash ≤
    next.storeInflight.count hash
  early : env.raisesLate manager.clock keys = false →
    next.storeInflight = manager.storeInflight
  late : env.raisesLate manager.clock keys = true →
    ∃ hash, manager.storeInflight.count hash <
      next.storeInflight.count hash

namespace Leaks

variable {keys : List key} {k : key} {next seen : Manager planner}

/-- The first key is of another group. -/
theorem first (group : env.groupIdx k ≠ 0) :
    Leaks env manager (k :: keys) manager where
  raised := ⟨k, List.mem_cons_self, group⟩
  grown := fun _ => Nat.le_refl _
  early := fun _ => rfl
  late := fun late => by simp [Env.raisesLate, group] at late

/-- The file of the first key is there. -/
theorem skip (leaks : Leaks env seen keys next)
    (group : ¬ env.groupIdx k ≠ 0)
    (found : env.onDisk manager.clock
      (env.getFileName (env.blockHash k)) = true)
    (clock : seen.clock = manager.clock + 1)
    (counts : seen.storeInflight = manager.storeInflight) :
    Leaks env manager (k :: keys) next := by
  obtain ⟨⟨other, member, raises⟩, grown, early, late⟩ := leaks
  rw [clock] at early late
  rw [counts] at grown early late
  have skipped : env.raisesLate manager.clock (k :: keys) =
      env.raisesLate (manager.clock + 1) keys := by
    rw [Env.raisesLate, if_neg group, if_pos found]
  rw [← skipped] at early late
  exact ⟨⟨other, List.mem_cons_of_mem k member, raises⟩, grown, early,
    late⟩

/-- The first key has been counted. -/
theorem counted (leaks : Leaks env seen keys next)
    (group : ¬ env.groupIdx k ≠ 0)
    (missing : ¬ env.onDisk manager.clock
      (env.getFileName (env.blockHash k)) = true)
    (counts : seen.storeInflight =
      manager.storeInflight.addOne (env.blockHash k)) :
    Leaks env manager (k :: keys) next := by
  obtain ⟨⟨other, member, raises⟩, grown, _, _⟩ := leaks
  have isLate : env.raisesLate manager.clock (k :: keys) = true := by
    rw [Env.raisesLate, if_neg group, if_neg missing, List.any_eq_true]
    exact ⟨other, member, by simpa using raises⟩
  have added : ∀ hash, seen.storeInflight.count hash =
      if hash = env.blockHash k then
        manager.storeInflight.count (env.blockHash k) + 1
      else
        manager.storeInflight.count hash := by
    intro hash
    rw [counts, CountTable.count_addOne]
  constructor
  · exact ⟨other, List.mem_cons_of_mem k member, raises⟩
  · intro hash
    have more := grown hash
    rw [added] at more
    split at more
    next same =>
      rw [same] at more ⊢
      omega
    next other => exact more
  · intro isEarly
    rw [isLate] at isEarly
    cases isEarly
  · intro _
    have more := grown (env.blockHash k)
    rw [added, if_pos rfl] at more
    exact ⟨env.blockHash k, more⟩

end Leaks

/-- The loop of `prepare_store` raises at a key of another group, after it
has counted the keys before it whose files are missing. -/
theorem prepareKeys_leaks (keys : List key) :
    wp (prepareKeys env keys) (fun _ _ => True)
      (fun _ => Leaks env manager keys) manager := by
  induction keys generalizing manager with
  | nil => trivial
  | cons k keys inductionHypothesis =>
      simp only [prepareKeys, getBlockHash, pathExists, wp_bind, wp_ite,
        wp_throw, wp_pure, wp_modifyGet, wp_modify]
      constructor
      · intro group
        exact Leaks.first group
      · intro group
        constructor
        · intro found
          exact wp_mono inductionHypothesis (fun _ _ done => done)
            fun _ _ leaks => leaks.skip group found rfl rfl
        · intro missing
          exact wp_mono inductionHypothesis (fun _ _ done => done)
            fun _ _ leaks => leaks.counted group missing rfl

/-- The counts after a raise of `prepare_store`, whatever it had cached. -/
theorem prepareStore_leaks (keys : List key) (reqId : Option String) :
    wp (prepareStore env keys reqId) (fun _ _ => True)
      (fun _ => Leaks env manager keys) manager := by
  have flushed : wp (maybeFlushLookupCache reqId)
      (fun _ (next : Manager planner) => next.clock = manager.clock ∧
        next.storeInflight = manager.storeInflight)
      (fun _ _ => False) manager := by
    unfold maybeFlushLookupCache
    rw [wp_modify]
    split <;> exact ⟨rfl, rfl⟩
  apply wp_seq (wp_returns flushed)
  intro _ next kept
  apply wp_seq (wp_mono (prepareKeys_leaks keys)
    (fun _ _ done => done) ?_)
  · intro _ _ _
    trivial
  · intro _ after leaks
    obtain ⟨raised, grown, early, late⟩ := leaks
    rw [kept.1] at early late
    rw [kept.2] at grown early late
    exact ⟨raised, grown, early, late⟩

/-- What `prepare_store` has counted when its loop ends. -/
theorem prepareKeys_counted (sound : CacheSound env manager)
    (keys : List key) :
    wp (prepareKeys env keys)
      (fun kept next => CacheSound env next ∧
        (∀ hash, next.storeInflight.count hash =
          manager.storeInflight.count hash +
            occurrences env hash (kept.map Prod.fst)) ∧
        ∀ k ∈ kept.map Prod.fst, env.groupIdx k = 0)
      (fun _ next => CacheSound env next)
      manager := by
  induction keys generalizing manager with
  | nil => exact ⟨sound, fun _ => rfl, nofun⟩
  | cons k keys inductionHypothesis =>
      simp only [prepareKeys, getBlockHash, pathExists, wp_bind, wp_ite,
        wp_throw, wp_pure, wp_modifyGet, wp_modify]
      refine ⟨fun _ => sound, fun group => ⟨fun _ => ?_, fun _ => ?_⟩⟩
      · exact inductionHypothesis (sound.later rfl rfl)
      · refine wp_post (inductionHypothesis (sound.later rfl rfl)) ?_
        rintro kept next ⟨keptSound, counted, grouped⟩
        refine ⟨keptSound, fun hash => ?_, ?_⟩
        · rw [counted hash, List.map_cons, occurrences_cons,
            CountTable.count_addOne]
          by_cases same : hash = env.blockHash k
          · rw [if_pos same, if_pos same.symm, same]
            omega
          · rw [if_neg same, if_neg (Ne.symm same), Nat.add_zero]
        · intro other member
          rcases List.mem_cons.mp member with rfl | later
          · simpa using group
          · exact grouped other later

/-- What `prepare_store` counts is what it returns. -/
theorem prepareStore_counted (sound : CacheSound env manager)
    (keys : List key) (reqId : Option String) :
    wp (prepareStore env keys reqId)
      (fun output next => CacheSound env next ∧
        (∀ hash, next.storeInflight.count hash =
          manager.storeInflight.count hash +
            occurrences env hash output.keysToStore) ∧
        ∀ k ∈ output.keysToStore, env.groupIdx k = 0)
      (fun _ next => CacheSound env next)
      manager := by
  refine wp_seq (wp_returns (maybeFlush_uncounted sound reqId)) ?_
  intro _ flushed kept
  have looped := prepareKeys_counted kept.sound keys
  rw [kept.counts] at looped
  refine wp_seq looped ?_
  rintro kept next ⟨nextSound, counted, grouped⟩
  exact ⟨nextSound.unchanged rfl rfl, counted, grouped⟩

/-- `complete_store` takes back what its keys count, as far as it goes. -/
theorem completeStore_counted (sound : CacheSound env manager)
    (keys : List key) (grouped : ∀ k ∈ keys, env.groupIdx k = 0) :
    wp (completeStore env keys)
      (fun _ next => CacheSound env next ∧
        ∀ hash, next.storeInflight.count hash =
          manager.storeInflight.count hash - occurrences env hash keys)
      (fun _ _ => False) manager := by
  induction keys generalizing manager with
  | nil => exact ⟨sound, fun _ => rfl⟩
  | cons k keys inductionHypothesis =>
      have group := grouped k List.mem_cons_self
      have others := fun other later =>
        grouped other (List.mem_cons_of_mem k later)
      have smaller : CacheSound env
          { manager with
            storeInflight :=
              manager.storeInflight.takeOne (env.blockHash k)
            lookupCache := manager.lookupCache.erase (env.blockHash k)
            probedHashes :=
              manager.probedHashes.erase (env.blockHash k) } := by
        refine sound.fewer (fun hash cached => ?_) rfl
        obtain ⟨value, found⟩ := OrderedDict.contains_iff.mp cached
        rw [OrderedDict.find?_erase] at found
        split at found
        · cases found
        · exact OrderedDict.contains_iff.mpr ⟨value, found⟩
      change wp (completeKey env k >>= fun _ => completeStore env keys) _ _ _
      simp only [completeKey, getBlockHash, wp_bind, wp_ite, wp_throw,
        wp_pure, wp_modify]
      refine ⟨fun other => other group, fun _ => ?_⟩
      refine wp_post (inductionHypothesis smaller others) ?_
      rintro _ next ⟨nextSound, counted⟩
      refine ⟨nextSound, fun hash => ?_⟩
      rw [counted hash, occurrences_cons, CountTable.count_takeOne]
      by_cases same : hash = env.blockHash k
      · rw [if_pos same, if_pos same.symm, same]
        omega
      · rw [if_neg same, if_neg (Ne.symm same), Nat.add_zero]

end Calls

/-! ## Histories -/

/-- The keys a call of `prepare_store` returned, and whether `reset_cache` has
not been called since. -/
structure Store (key : Type) where
  keys : List key
  current : Bool
  deriving DecidableEq

/-- The manager and the stores it has prepared that are not complete. -/
structure World (key planner : Type) where
  manager : Manager planner
  stores : List (Store key)

/-- The next call, or an instant that passes. -/
inductive Call (key : Type) where
  | prepareStore (keys : List key) (reqId : Option String)
  | completeStore (store : Store key) (keys : List key)
  | lookup (k : key) (reqId : Option String)
  | probe (hash : BlockHash)
  | prepareLoad (keys : List key) (reqId : Option String)
  | resetCache
  | wait

namespace World

/-- After `__init__`. -/
def init (planner? : Option planner) : World key planner :=
  ⟨.init planner?, []⟩

/-- A store is completed once, with its own keys in any order. -/
def Allows (world : World key planner) : Call key → Prop
  | .completeStore store keys =>
      store ∈ world.stores ∧ keys.Perm store.keys
  | _ => True

/-- Some store prepared since the last reset still has the hash
outstanding. -/
def Writing (env : Env key) (world : World key planner) (hash : BlockHash) :
    Prop :=
  ∃ store ∈ world.stores, store.current = true ∧
    ∃ k ∈ store.keys, env.blockHash k = hash

instance (world : World key planner) (hash : BlockHash) :
    Decidable (world.Writing env hash) :=
  inferInstanceAs (Decidable (∃ store ∈ world.stores, _))

/-- What `lookup` is to say: the block exists, is being written (`none`), or
is missing. -/
def verdict (env : Env key) (world : World key planner) (hash : BlockHash) :
    Option Bool :=
  if env.onDisk world.manager.clock (env.getFileName hash) then
    some true
  else if world.Writing env hash then
    none
  else
    some false

variable [DecidableEq key] [Planner planner]

/-- The world after a call. -/
def after (env : Env key) (world : World key planner) :
    Call key → World key planner
  | .prepareStore keys reqId =>
      match prepareStore env keys reqId world.manager with
      | .ok output manager =>
          ⟨manager, world.stores ++ [⟨output.keysToStore, true⟩]⟩
      | .error _ manager => ⟨manager, world.stores⟩
  | .completeStore store keys =>
      ⟨(completeStore env keys).leaves world.manager,
        world.stores.erase store⟩
  | .lookup k reqId =>
      ⟨(lookup env k reqId).leaves world.manager, world.stores⟩
  | .probe hash => ⟨(probe env hash).leaves world.manager, world.stores⟩
  | .prepareLoad keys reqId =>
      ⟨(prepareLoad env keys reqId).leaves world.manager, world.stores⟩
  | .resetCache =>
      ⟨resetCache.leaves world.manager,
        world.stores.map fun store => { store with current := false }⟩
  | .wait =>
      ⟨{ world.manager with clock := world.manager.clock + 1 },
        world.stores⟩

/-- Reachable by allowed calls that each meet the condition. -/
def ReachableUnder (env : Env key)
    (condition : World key planner → Call key → Prop)
    (planner? : Option planner) (world : World key planner) : Prop :=
  Relation.ReflTransGen
    (fun before next => ∃ call, before.Allows call ∧
      condition before call ∧ next = before.after env call)
    (init planner?) world

end World

/-- The pair `_probe` returns for a verdict. -/
def probed : Option Bool → Bool × Bool
  | some found => (found, false)
  | none => (false, true)

/-- The manager tells a block that is being written from a missing one. -/
structure TellsApart [Planner planner] (env : Env key)
    (world : World key planner) : Prop where
  lookup : world.manager.planner = none → ∀ k reqId, env.groupIdx k = 0 →
    ∃ final, lookup env k reqId world.manager =
      .ok (world.verdict env (env.blockHash k)) final
  probe : ∀ hash, ∃ final, probe env hash world.manager =
    .ok (probed (world.verdict env hash)) final

/-- A store prepared before the last reset is completed only for hashes that
no later store has outstanding, and `prepare_store` does not raise after it
has counted a key. -/
def InOrder (env : Env key) (world : World key planner) : Call key → Prop
  | .prepareStore keys _ =>
      env.raisesLate world.manager.clock keys = false
  | .completeStore store _ =>
      store.current = true ∨
        ∀ k ∈ store.keys, ¬ world.Writing env (env.blockHash k)
  | _ => True

/-! ## The invariant -/

/-- How often a store since the last reset has a hash outstanding. -/
def Store.pending (env : Env key) (hash : BlockHash) (store : Store key) :
    Nat :=
  if store.current then occurrences env hash store.keys else 0

/-- The manager counts what is outstanding, and caches what is there. -/
structure ManagerBooks (env : Env key) (world : World key planner) :
    Prop where
  sound : CacheSound env world.manager
  counted : ∀ hash, world.manager.storeInflight.count hash =
    weigh (Store.pending env hash) world.stores
  grouped : ∀ store ∈ world.stores, ∀ k ∈ store.keys, env.groupIdx k = 0

theorem pending_pos_iff {hash : BlockHash} {store : Store key} :
    0 < store.pending env hash ↔
      store.current = true ∧ ∃ k ∈ store.keys, env.blockHash k = hash := by
  unfold Store.pending occurrences
  split
  next current => simp [current, List.countP_pos_iff]
  next stale => simp [stale]

theorem weigh_pos_iff {item : Type} {weight : item → Nat}
    {items : List item} :
    0 < weigh weight items ↔ ∃ x ∈ items, 0 < weight x := by
  induction items with
  | nil => simp
  | cons head tail inductionHypothesis =>
      rw [weigh_cons, Nat.add_pos_iff_pos_or_pos, inductionHypothesis]
      simp

namespace ManagerBooks

variable {world : World key planner}

/-- A hash is counted while it is outstanding. -/
theorem contains_iff (books : ManagerBooks env world) (hash : BlockHash) :
    world.manager.storeInflight.contains hash = true ↔
      world.Writing env hash := by
  rw [CountTable.contains_iff, books.counted hash, weigh_pos_iff]
  simp only [pending_pos_iff, World.Writing]

/-- A call that changes neither counts nor stores. -/
theorem uncounted (books : ManagerBooks env world) {next : Manager planner}
    (kept : Uncounted env world.manager next) :
    ManagerBooks env ⟨next, world.stores⟩ :=
  ⟨kept.sound, fun hash => by rw [kept.counts]; exact books.counted hash,
    books.grouped⟩

variable [DecidableEq key] [Planner planner]

theorem prepareStore (books : ManagerBooks env world) (keys : List key)
    (reqId : Option String)
    (early : env.raisesLate world.manager.clock keys = false) :
    ManagerBooks env (world.after env (.prepareStore keys reqId)) := by
  have outcome := wp_and (prepareStore_counted books.sound keys reqId)
    (prepareStore_leaks keys reqId)
  unfold wp at outcome
  unfold World.after
  split at outcome
  next output next returned =>
    obtain ⟨⟨sound, counted, grouped⟩, _⟩ := outcome
    simp only [returned]
    refine ⟨sound, fun hash => ?_, fun store member k inStore => ?_⟩
    · rw [counted hash, books.counted hash, weigh_append, weigh_cons,
        weigh_nil, Nat.add_zero]
      rfl
    · rcases List.mem_append.mp member with before | new
      · exact books.grouped store before k inStore
      · rw [List.mem_singleton.mp new] at inStore
        exact grouped k inStore
  next error next raised =>
    obtain ⟨sound, leaks⟩ := outcome
    simp only [raised]
    exact books.uncounted ⟨sound, leaks.early early⟩

theorem completeStore (books : ManagerBooks env world) {store : Store key}
    {keys : List key} (outstanding : store ∈ world.stores)
    (own : keys.Perm store.keys)
    (inOrder : store.current = true ∨
      ∀ k ∈ store.keys, ¬ world.Writing env (env.blockHash k)) :
    ManagerBooks env (world.after env (.completeStore store keys)) := by
  have grouped : ∀ k ∈ keys, env.groupIdx k = 0 := fun k inKeys =>
    books.grouped store outstanding k (own.mem_iff.mp inKeys)
  have done := of_leaves (wp_mono
    (completeStore_counted books.sound keys grouped)
    (fun _ _ done => done) fun _ _ => False.elim)
  refine ⟨done.1, fun hash => ?_, fun other member =>
    books.grouped other (List.mem_of_mem_erase member)⟩
  have occurs : occurrences env hash keys =
      occurrences env hash store.keys := own.countP_eq _
  have total : weigh (Store.pending env hash) world.stores =
      Store.pending env hash store +
        weigh (Store.pending env hash) (world.stores.erase store) :=
    weigh_erase outstanding
  have counted := books.counted hash
  change ((Scheduler.completeStore env keys).leaves
    world.manager).storeInflight.count hash =
      weigh (Store.pending env hash) (world.stores.erase store)
  rw [done.2 hash, counted, occurs]
  rcases inOrder with current | idle
  · unfold Store.pending at total
    rw [if_pos current] at total
    unfold Store.pending
    omega
  · by_cases occurring : occurrences env hash store.keys = 0
    · have nothing : store.pending env hash = 0 := by
        unfold Store.pending
        rw [occurring, ite_self]
      rw [occurring, total, nothing]
      omega
    · obtain ⟨k, inStore, same⟩ : ∃ k ∈ store.keys,
          env.blockHash k = hash := by
        have positive := Nat.pos_of_ne_zero occurring
        unfold occurrences at positive
        rw [List.countP_pos_iff] at positive
        simpa using positive
      have uncounted : ¬ 0 < world.manager.storeInflight.count hash := by
        rw [← CountTable.contains_iff, books.contains_iff, ← same]
        exact idle k inStore
      omega

theorem resetCache (books : ManagerBooks env world) :
    ManagerBooks env (world.after env .resetCache) := by
  constructor
  · exact ⟨books.sound.stays, fun hash cached => by cases cached⟩
  · intro hash
    refine Eq.trans rfl (Nat.eq_zero_of_not_pos fun counted => ?_).symm
    obtain ⟨store, member, positive⟩ := weigh_pos_iff.mp counted
    obtain ⟨before, _, rfl⟩ := List.mem_map.mp member
    cases (pending_pos_iff.mp positive).1
  · intro store member
    obtain ⟨before, inStores, rfl⟩ := List.mem_map.mp member
    exact books.grouped before inStores

/-- An allowed call that meets the condition keeps the books. -/
theorem after (books : ManagerBooks env world) {call : Call key}
    (allowed : world.Allows call) (inOrder : InOrder env world call) :
    ManagerBooks env (world.after env call) := by
  cases call with
  | prepareStore keys reqId => exact books.prepareStore keys reqId inOrder
  | completeStore store keys =>
      exact books.completeStore allowed.1 allowed.2 inOrder
  | lookup k reqId =>
      exact books.uncounted (of_leaves (lookup_uncounted books.sound k reqId))
  | probe hash =>
      exact books.uncounted (of_leaves (probe_uncounted books.sound hash))
  | prepareLoad keys reqId =>
      exact books.uncounted
        (of_leaves (prepareLoad_uncounted books.sound keys reqId))
  | resetCache => exact books.resetCache
  | wait => exact books.uncounted ⟨books.sound.later rfl rfl, rfl⟩

end ManagerBooks

/-! ## What the manager says -/

section Answers

variable {world : World key planner}

theorem returns_of_wp {value : Type}
    {program : Manage planner value} {returned : value}
    {manager : Manager planner}
    (holds : wp program (fun value _ => value = returned)
      (fun _ _ => False) manager) :
    ∃ final, program manager = .ok returned final := by
  unfold wp at holds
  cases outcome : program manager with
  | ok value final =>
      rw [outcome] at holds
      exact ⟨final, by rw [holds]⟩
  | error raised final =>
      rw [outcome] at holds
      exact holds.elim

/-- With a sound cache `lookup` sees what is on disk. -/
theorem cachedExists_answer {manager : Manager planner}
    (sound : CacheSound env manager) (hash : BlockHash) :
    wp (cachedExists env hash)
      (fun cached next =>
        cached = env.onDisk manager.clock (env.getFileName hash) ∧
        next.storeInflight = manager.storeInflight ∧
        next.planner = manager.planner)
      (fun _ _ => False) manager := by
  simp only [cachedExists, pathExists, wp_bind, wp_get, wp_ite, wp_pure,
    wp_modifyGet, wp_modify, wp_onlyIf]
  exact ⟨fun cached => ⟨(sound.there hash cached).symm, trivial, trivial⟩,
    fun _ => ⟨fun _ => ⟨trivial, trivial, trivial⟩,
      fun _ => ⟨trivial, trivial, trivial⟩⟩⟩

/-- The verdict on a block, by what the manager counts. -/
theorem ManagerBooks.verdict_eq (books : ManagerBooks env world)
    (hash : BlockHash) :
    world.verdict env hash =
      if env.onDisk world.manager.clock (env.getFileName hash) then some true
      else if world.manager.storeInflight.contains hash then none
      else some false := by
  unfold World.verdict
  simp only [books.contains_iff hash]

/-- The books decide every answer. -/
theorem ManagerBooks.answers [Planner planner]
    (books : ManagerBooks env world) : TellsApart env world where
  probe := by
    intro hash
    apply returns_of_wp
    simp only [Scheduler.probe, pathExists, wp_bind, wp_get, wp_ite, wp_pure,
      wp_modifyGet, wp_modify]
    rw [books.verdict_eq hash]
    refine ⟨fun cached => ?_, fun _ => ⟨fun found => ?_, fun missing => ?_⟩⟩
    · rw [if_pos (books.sound.there hash cached)]
      rfl
    · rw [if_pos found]
      rfl
    · rw [if_neg missing]
      cases world.manager.storeInflight.contains hash <;> rfl
  lookup := by
    intro unplanned k reqId group
    apply returns_of_wp
    simp only [Scheduler.lookup, getBlockHash, addEvent, wp_bind, wp_get,
      wp_ite, wp_pure, wp_modify, wp_onlyIf, wp_throw]
    refine ⟨fun other => other group, fun _ =>
      wp_post (cachedExists_answer books.sound (env.blockHash k)) ?_⟩
    rintro cached next ⟨answer, counts, samePlanner⟩
    have verdict := books.verdict_eq (env.blockHash k)
    rw [← answer] at verdict
    have free : ∀ manager : Manager planner, manager.planner = none →
        planned manager reqId cached = some cached := by
      intro manager none
      unfold planned
      rw [none]
    rw [samePlanner, unplanned, counts, verdict]
    cases cached with
    | true => simp [free]
    | false =>
        cases world.manager.storeInflight.contains (env.blockHash k) with
        | true => simp
        | false => simp [free]

end Answers

section Runs

theorem managerBooks_init (stays : env.FilesStay)
    (planner? : Option planner) :
    ManagerBooks env (World.init planner? : World key planner) where
  sound := ⟨stays, fun hash cached => by cases cached⟩
  counted := fun hash => rfl
  grouped := nofun

variable [DecidableEq key] [Planner planner] {world : World key planner}
  {planner? : Option planner}

theorem managerBooks (stays : env.FilesStay)
    (reached : World.ReachableUnder env (InOrder env) planner? world) :
    ManagerBooks env world := by
  induction reached with
  | refl => exact managerBooks_init stays planner?
  | tail _ step inductionHypothesis =>
      obtain ⟨call, allowed, inOrder, rfl⟩ := step
      exact inductionHypothesis.after allowed inOrder

/-- While files that are there stay: as long as no store of an earlier epoch is
completed while a later one has its block outstanding, and no call of
`prepare_store` raises half-way, the manager tells a block that is being
written from a missing one. -/
theorem tellsApart (stays : env.FilesStay)
    (reached : World.ReachableUnder env (InOrder env) planner? world) :
    TellsApart env world :=
  (managerBooks stays reached).answers

end Runs

section Examples

instance : Planner Empty where
  decisionFor := fun planner => planner.elim
  reset := id

/-- Keys are hashes, and no file ever appears. -/
def emptyDisk : Env BlockHash where
  groupIdx := fun _ => 0
  blockHash := id
  getFileName := fun _ => ""
  onDisk := fun _ _ => false

/-- One store of a block is outstanding. -/
def storing : World BlockHash Empty :=
  (World.init none).after emptyDisk (.prepareStore [[1]] (some "a"))

theorem storing_tellsApart :
    storing.verdict emptyDisk [1] = none ∧ TellsApart emptyDisk storing := by
  have reached : World.ReachableUnder emptyDisk (InOrder emptyDisk)
      (none : Option Empty) storing :=
    Relation.ReflTransGen.single
      ⟨.prepareStore [[1]] (some "a"), trivial, rfl, rfl⟩
  exact ⟨by decide, tellsApart (fun _ _ there => there) reached⟩

/-- Another store of the block is prepared after a reset. -/
def storingAgain : World BlockHash Empty :=
  (storing.after emptyDisk .resetCache).after emptyDisk
    (.prepareStore [[1]] (some "b"))

/-- The first store ends. -/
def staleCompletion : Call BlockHash :=
  .completeStore ⟨[[1]], false⟩ [[1]]

/-- The completion of a store from before the reset makes the manager report a
block as missing that is being written. -/
theorem staleCompletion_cancels :
    World.ReachableUnder emptyDisk (fun _ _ => True) (none : Option Empty)
        (storingAgain.after emptyDisk staleCompletion) ∧
      ¬ TellsApart emptyDisk
        (storingAgain.after emptyDisk staleCompletion) := by
  constructor
  · have prepared : World.ReachableUnder emptyDisk (fun _ _ => True)
        (none : Option Empty) storing :=
      Relation.ReflTransGen.single
        ⟨.prepareStore [[1]] (some "a"), trivial, trivial, rfl⟩
    have again := (prepared.tail ⟨.resetCache, trivial, trivial, rfl⟩).tail
      ⟨.prepareStore [[1]] (some "b"), trivial, trivial, rfl⟩
    exact again.tail ⟨staleCompletion,
      ⟨by decide, List.Perm.refl _⟩, trivial, rfl⟩
  · intro apart
    obtain ⟨final, said⟩ := apart.lookup rfl [1] none rfl
    cases said

end Examples

end PyKvCache.Scheduler
