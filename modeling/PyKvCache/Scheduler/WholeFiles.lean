import PyKvCache.Scheduler.Planning
import PyKvCache.Storage.Publication

/-!
# What the manager finds is whole

The manager beside the stores of all processes, which go on while it looks at
their files.  A block that `lookup` reports, and one that `prepare_store`
leaves out, is in a file that holds it from then on.
-/

namespace PyKvCache.Storage.Writers

open PyKvCache.Library PyKvCache.Reactor
open PyKvCache.Library.Routine (Turn Threads)

/-! ## One path -/

section Paths

variable {writer : Type} {writers : Writers writer} {path : String}
  {before middle after : FileSystem writer}

variable (writers path) in
/-- The path keeps its file, and this its bytes; a new file at the path holds
the block of a writer that publishes there. -/
structure Lasts (before after : FileSystem writer) : Prop where
  kept : ∀ inode, before.names path = some inode →
    after.names path = some inode ∧
      after.content inode = before.content inode
  made : ∀ inode, before.names path = none →
    after.names path = some inode →
    ∃ publisher, writers.finalPath publisher = path ∧
      after.content inode = writers.block publisher

namespace Lasts

theorem refl (files : FileSystem writer) :
    writers.Lasts path files files where
  kept := fun _ named => ⟨named, rfl⟩
  made := by
    intro inode absent named
    rw [absent] at named
    cases named

theorem trans (first : writers.Lasts path before middle)
    (second : writers.Lasts path middle after) :
    writers.Lasts path before after where
  kept := by
    intro inode named
    obtain ⟨kept, same⟩ := first.kept inode named
    obtain ⟨keptOn, sameOn⟩ := second.kept inode kept
    exact ⟨keptOn, sameOn.trans same⟩
  made := by
    intro inode absent named
    cases between : middle.names path with
    | none => exact second.made inode between named
    | some linked =>
        obtain ⟨publisher, final, holds⟩ := first.made linked absent between
        obtain ⟨kept, same⟩ := second.kept linked between
        have only := Option.some.inj (kept.symm.trans named)
        subst only
        exact ⟨publisher, final, same.trans holds⟩

end Lasts

/-- One call, at a path that is not the caller's temporary name. -/
theorem Guarantee.lasts {caller : writer}
    (guaranteed : writers.Guarantee caller before after)
    (apart : path ≠ writers.tempPath caller) :
    writers.Lasts path before after where
  kept := by
    intro inode named
    have same := guaranteed.published path inode apart named
    rcases guaranteed.names path apart with kept | ⟨_, absent, _⟩
    · exact ⟨kept.trans named, same⟩
    · rw [absent] at named
      cases named
  made := by
    intro inode absent named
    rcases guaranteed.names path apart with kept | published
    · rw [kept, absent] at named
      cases named
    · obtain ⟨final, _, linked, found, _, whole⟩ := published
      have same := Option.some.inj (found.symm.trans named)
      subst same
      exact ⟨caller, final.symm, whole⟩

variable [DecidableEq writer]
  {now later : Threads writer (FileSystem writer) WriterCall Exc Int Bool}

/-- Any interleaving, at a path that is no temporary name. -/
theorem Sound.turns_lasts (sound : writers.Sound now)
    (turns : writers.Turns now later)
    (apart : ∀ owner, path ≠ writers.tempPath owner) :
    writers.Sound later ∧ writers.Lasts path now.world later.world := by
  induction turns with
  | refl => exact ⟨sound, .refl _⟩
  | tail _ turn inductionHypothesis =>
      obtain ⟨sound, lasts⟩ := inductionHypothesis
      obtain ⟨⟨caller, guaranteed⟩, _⟩ := sound.steady.turn
        (fun owner files => Rely.refl writers owner files)
        (fun _ _ _ _ before after => before.trans after)
        (fun _ _ _ _ different guaranteed => guaranteed.relied different)
        turn
      exact ⟨(sound.turn turn).1,
        lasts.trans (guaranteed.lasts (apart caller))⟩

end Paths

/-! ## The stores while the manager runs -/

variable {writer : Type} [DecidableEq writer]

/-- A run of the stores: their files and what is left of them, at every
instant of the manager. -/
structure Unfolding (writers : Writers writer) where
  moment : Nat →
    Threads writer (FileSystem writer) WriterCall Exc Int Bool
  starts : writers.Starts (moment 0)
  goesOn : ∀ clock, writers.Turns (moment clock) (moment (clock + 1))

namespace Unfolding

variable {writers : Writers writer} (unfolding : writers.Unfolding)
  {path : String}

theorem sound (clock : Nat) : writers.Sound (unfolding.moment clock) := by
  induction clock with
  | zero => exact unfolding.starts.sound
  | succ clock inductionHypothesis =>
      exact (inductionHypothesis.turns (unfolding.goesOn clock)).1

theorem lasts (apart : ∀ owner, path ≠ writers.tempPath owner)
    (clock : Nat) :
    writers.Lasts path (unfolding.moment 0).world
      (unfolding.moment clock).world := by
  induction clock with
  | zero => exact .refl _
  | succ clock inductionHypothesis =>
      exact inductionHypothesis.trans ((unfolding.sound clock).turns_lasts
        (unfolding.goesOn clock) apart).2

/-- The path has a file with such bytes, now and whatever the stores do from
now on. -/
def Holds (whole : String → List UInt8 → Prop) (clock : Nat)
    (path : String) : Prop :=
  ∃ inode bytes, whole path bytes ∧
    ∀ later, writers.Turns (unfolding.moment clock) later →
      later.world.names path = some inode ∧
        later.world.content inode = bytes

/-- A file that is there holds what its path is for. -/
theorem holds_of_isSome {whole : String → List UInt8 → Prop} {clock : Nat}
    (blocks : ∀ owner,
      whole (writers.finalPath owner) (writers.block owner))
    (initially : ∀ inode,
      (unfolding.moment 0).world.names path = some inode →
      whole path ((unfolding.moment 0).world.content inode))
    (apart : ∀ owner, path ≠ writers.tempPath owner)
    (there : ((unfolding.moment clock).world.names path).isSome = true) :
    unfolding.Holds whole clock path := by
  obtain ⟨inode, named⟩ := Option.isSome_iff_exists.mp there
  have sofar := unfolding.lasts apart clock
  refine ⟨inode, (unfolding.moment clock).world.content inode, ?_, ?_⟩
  · cases first : (unfolding.moment 0).world.names path with
    | none =>
        obtain ⟨publisher, final, holds⟩ := sofar.made inode first named
        rw [holds, ← final]
        exact blocks publisher
    | some old =>
        obtain ⟨kept, same⟩ := sofar.kept old first
        have only := Option.some.inj (kept.symm.trans named)
        subst only
        rw [same]
        exact initially old first
  · intro later turns
    exact ((unfolding.sound clock).turns_lasts turns apart).2.kept inode named

end Unfolding

end PyKvCache.Storage.Writers

namespace PyKvCache.Scheduler

open PyKvCache.Library PyKvCache.Library.Effect PyKvCache.Staging
  PyKvCache.Storage PyKvCache.Planner

/-! ## The manager over these files -/

/-- The keys of vLLM and the file mapper.  The name of a block's file can be
told from a temporary name. -/
structure Naming (key : Type) {writer : Type} (writers : Writers writer) where
  groupIdx : key → Int
  blockHash : key → BlockHash
  getFileName : BlockHash → String
  isBlockFile : String → Bool
  named : ∀ hash, isBlockFile (getFileName hash) = true
  apart : ∀ owner, isBlockFile (writers.tempPath owner) = false

section Found

variable {key writer : Type} {writers : Writers writer}
  (naming : Naming key writers)

theorem Naming.ne_tempPath {path : String}
    (listed : naming.isBlockFile path = true) (owner : writer) :
    path ≠ writers.tempPath owner := by
  intro same
  rw [same, naming.apart owner] at listed
  cases listed

variable [DecidableEq writer] (unfolding : writers.Unfolding)

/-- What the manager sees: the files of blocks as the stores leave them. -/
def Naming.env : Env key where
  groupIdx := naming.groupIdx
  blockHash := naming.blockHash
  getFileName := naming.getFileName
  onDisk := fun clock path => naming.isBlockFile path &&
    ((unfolding.moment clock).world.names path).isSome

/-- Stores only make files of blocks. -/
theorem Naming.env_filesStay : (naming.env unfolding).FilesStay := by
  intro clock path there
  have listed := Bool.and_eq_true_iff.mp there
  obtain ⟨inode, named⟩ := Option.isSome_iff_exists.mp listed.2
  have lasts := ((unfolding.sound clock).turns_lasts
    (unfolding.goesOn clock) (naming.ne_tempPath listed.1)).2
  exact Bool.and_eq_true_iff.mpr ⟨listed.1, Option.isSome_iff_exists.mpr
    ⟨inode, (lasts.kept inode named).1⟩⟩

end Found

/-! ## The cache over any calls -/

section Sound

variable {key planner : Type} {env : Env key} {manager : Manager planner}

theorem completeStore_sound (keys : List key) :
    Keeps (CacheSound env) (completeStore env keys :
      Manage planner PUnit) := by
  refine Keeps.forM fun k => Keeps.bind
    (Keeps.ite (Keeps.throw _) (Keeps.pure _)) fun hash => ?_
  refine Keeps.modify fun current sound => sound.fewer ?_ rfl
  intro other cached
  obtain ⟨value, found⟩ := OrderedDict.contains_iff.mp cached
  rw [OrderedDict.find?_erase] at found
  split at found
  · cases found
  · exact OrderedDict.contains_iff.mpr ⟨value, found⟩

/-- No call of the manager, allowed or not, caches a file that is missing. -/
theorem CacheSound.after [DecidableEq key] [Scheduler.Planner planner]
    {world : World key planner} (sound : CacheSound env world.manager)
    (call : Call key) :
    CacheSound env (world.after env call).manager := by
  cases call with
  | prepareStore keys reqId =>
      have kept := prepareStore_counted sound keys reqId
      unfold wp at kept
      unfold World.after
      split at kept
      next returned =>
        simp only [returned]
        exact kept.1
      next raised =>
        simp only [raised]
        exact kept
  | completeStore store keys =>
      exact of_leaves (completeStore_sound keys world.manager sound)
  | lookup k reqId => exact (of_leaves (lookup_uncounted sound k reqId)).sound
  | probe hash => exact (of_leaves (probe_uncounted sound hash)).sound
  | prepareLoad keys reqId =>
      exact (of_leaves (prepareLoad_uncounted sound keys reqId)).sound
  | resetCache => exact ⟨sound.stays, fun hash cached => by cases cached⟩
  | wait => exact sound.later rfl rfl

/-- Reachable by any calls at all. -/
def Consulted.Arises [DecidableEq key] (env : Env key) (config : Config)
    (planning : Bool) (consulted : Consulted key) : Prop :=
  Relation.ReflTransGen
    (fun before next => ∃ call, next = before.after env config call)
    (init planning) consulted

theorem Consulted.Arises.sound [DecidableEq key] {config : Config}
    {planning : Bool} {consulted : Consulted key}
    (arises : Consulted.Arises env config planning consulted)
    (stays : env.FilesStay) :
    CacheSound env consulted.world.manager := by
  induction arises with
  | refl => exact ⟨stays, fun hash cached => by cases cached⟩
  | @tail before _ _ step inductionHypothesis =>
      obtain ⟨call, rfl⟩ := step
      cases call with
      | ofManager call =>
          have same : (before.after env config (.ofManager call)).world =
              before.world.after env call := by
            cases call <;> rfl
          rw [same]
          exact inductionHypothesis.after call
      | planCandidates now candidates outstandingLoadBlocks =>
          have outcome := @planCandidates_consults key env config _ now
            candidates outstandingLoadBlocks inductionHypothesis
          unfold wp at outcome
          unfold Consulted.after
          split at outcome
          next returned =>
            simp only [returned]
            exact outcome.uncounted.sound
          next failed =>
            simp only [failed]
            exact outcome.sound

/-- Only a block that is there is reported. -/
theorem lookup_found [Scheduler.Planner planner]
    (sound : CacheSound env manager) (k : key) (reqId : Option String) :
    wp (lookup env k reqId)
      (fun said _ => said = some true →
        env.onDisk manager.clock (env.getFileName (env.blockHash k)) = true)
      (fun _ _ => True) manager := by
  have only : ∀ (current : Manager planner) (cached : Bool),
      planned current reqId cached = some true → cached = true := by
    intro current cached
    unfold planned
    split
    · split <;> simp
    · simp
  simp only [lookup, getBlockHash, addEvent, wp_bind, wp_get, wp_ite,
    wp_pure, wp_modify, wp_onlyIf, wp_throw]
  refine ⟨fun _ => trivial, fun _ => wp_post (wp_returns
    (cachedExists_answer sound (env.blockHash k))) ?_⟩
  rintro cached next ⟨answer, _, _⟩
  rw [← answer]
  exact ⟨fun _ => ⟨fun _ => by simp, fun _ => only _ cached⟩,
    fun _ => ⟨fun _ => by simp, fun _ => only _ cached⟩⟩

/-- A key that `prepare_store` leaves out has its file. -/
theorem prepareKeys_left (stays : env.FilesStay) (keys : List key) :
    wp (prepareKeys env keys)
      (fun kept next => manager.clock ≤ next.clock ∧
        ∀ k ∈ keys, k ∈ kept.map Prod.fst ∨
          env.onDisk next.clock (env.getFileName (env.blockHash k)) = true)
      (fun _ _ => True) manager := by
  induction keys generalizing manager with
  | nil => exact ⟨Nat.le_refl _, nofun⟩
  | cons k keys inductionHypothesis =>
      simp only [prepareKeys, getBlockHash, pathExists, wp_bind, wp_ite,
        wp_throw, wp_pure, wp_modifyGet, wp_modify]
      refine ⟨fun _ => trivial, fun _ => ⟨fun found => ?_, fun _ => ?_⟩⟩
      · refine wp_post inductionHypothesis ?_
        rintro kept next ⟨order, left⟩
        refine ⟨Nat.le_of_succ_le order, fun other member => ?_⟩
        rcases List.mem_cons.mp member with rfl | later
        · exact Or.inr
            (stays.onDisk_later (Nat.le_of_succ_le order) found)
        · exact left other later
      · refine wp_post inductionHypothesis ?_
        rintro kept next ⟨order, left⟩
        refine ⟨Nat.le_of_succ_le order, fun other member => ?_⟩
        rw [List.map_cons]
        rcases List.mem_cons.mp member with rfl | later
        · exact Or.inl List.mem_cons_self
        · exact (left other later).imp_left (List.mem_cons_of_mem k)

theorem prepareStore_left (stays : env.FilesStay) (keys : List key)
    (reqId : Option String) :
    wp (prepareStore env keys reqId)
      (fun output next => ∀ k ∈ keys, k ∈ output.keysToStore ∨
        env.onDisk next.clock (env.getFileName (env.blockHash k)) = true)
      (fun _ _ => True) manager := by
  refine wp_seq wp_trivial fun _ flushed _ => ?_
  refine wp_seq (prepareKeys_left stays keys) ?_
  rintro kept next ⟨_, left⟩
  exact left

end Sound

/-! ## What is found -/

section Runs

variable {key writer : Type} [DecidableEq key] [DecidableEq writer]
  {writers : Writers writer} {naming : Naming key writers}
  {unfolding : writers.Unfolding} {config : Config} {planning : Bool}
  {consulted : Consulted key} {whole : String → List UInt8 → Prop}

/-- Whatever calls came before and however the stores of all processes
interleave with them: a block that `lookup` reports as present, and one that
`prepare_store` does not ask to be stored, has a file with the bytes that
belong at its path, and keeps it whatever the stores do afterwards; if this
is so for the files from before and for what each store writes. -/
theorem found_whole
    (arises : Consulted.Arises (naming.env unfolding) config planning
      consulted)
    (blocks : ∀ owner,
      whole (writers.finalPath owner) (writers.block owner))
    (initially : ∀ path inode, naming.isBlockFile path = true →
      (unfolding.moment 0).world.names path = some inode →
      whole path ((unfolding.moment 0).world.content inode)) :
    (∀ k reqId final,
      lookup (naming.env unfolding) k reqId consulted.world.manager =
        .ok (some true) final →
      unfolding.Holds whole consulted.world.manager.clock
        (naming.getFileName (naming.blockHash k))) ∧
    ∀ keys reqId output final,
      prepareStore (naming.env unfolding) keys reqId
        consulted.world.manager = .ok output final →
      ∀ k ∈ keys, k ∈ output.keysToStore ∨
        unfolding.Holds whole final.clock
          (naming.getFileName (naming.blockHash k)) := by
  have holds : ∀ clock hash,
      (naming.env unfolding).onDisk clock (naming.getFileName hash) = true →
      unfolding.Holds whole clock (naming.getFileName hash) := by
    intro clock hash there
    have listed := naming.named hash
    exact unfolding.holds_of_isSome blocks
      (fun inode => initially _ inode listed) (naming.ne_tempPath listed)
      (Bool.and_eq_true_iff.mp there).2
  have stays := naming.env_filesStay unfolding
  constructor
  · intro k reqId final said
    have found := lookup_found (arises.sound stays) k reqId
    unfold wp at found
    rw [said] at found
    exact holds _ _ (found rfl)
  · intro keys reqId output final returned k member
    have left := @prepareStore_left key LoadPlanner (naming.env unfolding)
      consulted.world.manager stays keys reqId
    unfold wp at left
    rw [returned] at left
    exact (left k member).imp_right (holds _ _)

end Runs

section Examples

/-- Two writers store one block between the first two instants. -/
def publication : Writers.rivals.Unfolding where
  moment := fun
    | 0 => Writers.rivals.fresh
    | _ + 1 => Writers.rivals.play Writers.rivals.fresh
        Writers.firstPublishes
  starts := Writers.starts_fresh
  goesOn := fun
    | 0 => Writers.turns_play _
    | _ + 1 => .refl

/-- Every block has the one file that they publish. -/
def oneFile : Naming BlockHash Writers.rivals where
  groupIdx := fun _ => 0
  blockHash := id
  getFileName := fun _ => "h"
  isBlockFile := fun path => path == "h"
  named := fun _ => rfl
  apart := by decide

/-- An instant later. -/
def waited : Consulted BlockHash :=
  (Consulted.init false).after (oneFile.env publication) sampleConfig
    (.ofManager .wait)

theorem waited_whole :
    publication.Holds (fun _ bytes => bytes = [7]) 1 "h" := by
  have arises : Consulted.Arises (oneFile.env publication) sampleConfig
      false waited := Relation.ReflTransGen.single ⟨.ofManager .wait, rfl⟩
  have books : ConsultedBooks (oneFile.env publication) waited :=
    (ConsultedBooks.init (oneFile.env_filesStay publication)
      false).ofManager trivial trivial
  obtain ⟨final, said⟩ := books.lookup [1] none rfl
  have verdict : waited.verdictFor (oneFile.env publication) none [1] =
      some true := by decide +kernel
  rw [show (oneFile.env publication).blockHash [1] = [1] from rfl, verdict]
    at said
  exact (found_whole arises (fun _ => rfl) fun _ _ _ => nofun).1 [1] none
    final said

end Examples

end PyKvCache.Scheduler
