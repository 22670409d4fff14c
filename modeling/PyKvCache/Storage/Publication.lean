import PyKvCache.Storage.Guarantee

/-!
# Published files

Every call of a store meets the guarantee of its writer, so in every
interleaving a final path gets a whole block once and keeps it, and a store
reports success unless a call of its own has failed.
-/

namespace PyKvCache.Storage

open PyKvCache.Library PyKvCache.Reactor
open PyKvCache.Library.Routine (Guarded Turn Steady Threads attempt onlyIf
  handling ensuring invoke)

namespace Writers

variable {writer : Type} {writers : Writers writer} {owner : writer}

/-! ## The programs -/

section Accounted

variable {value : Type} {kept : FileSystem writer → Prop}
  {last : FileSystem writer}

variable (writers owner) in
/-- What a program leaves: it raises only when a call has failed. -/
def Accounted (kept : FileSystem writer → Prop)
    (outcome : Except Exc value) (last : FileSystem writer) : Prop :=
  kept last ∧ ∀ raised, outcome = .error raised → writers.Blamed owner last

theorem Accounted.of_kept {returned : value}
    (holds : kept last) :
    writers.Accounted owner kept (.ok returned) last :=
  ⟨holds, fun _ impossible => nomatch impossible⟩

theorem Accounted.of_blamed {raised : Exc}
    (holds : kept last) (blamed : writers.Blamed owner last) :
    writers.Accounted owner kept (.error raised : Except Exc value) last :=
  ⟨holds, fun _ _ => blamed⟩

theorem Accounted.raised {raised : Exc}
    (accounted : writers.Accounted owner kept
      (.error raised : Except Exc value) last) {result : Type} :
    writers.Accounted owner kept (.error raised : Except Exc result) last :=
  ⟨accounted.1, fun _ _ => accounted.2 raised rfl⟩

end Accounted

section Programs

variable [DecidableEq writer] {files now : FileSystem writer}
  {kept : FileSystem writer → Prop} {value : Type}

variable (writers owner) in
/-- The writer runs a program among the others. -/
abbrev Runs (post : Except Exc value → FileSystem writer → Prop)
    (program : Program value) (now : FileSystem writer) : Prop :=
  Guarded (Answers writers.block owner) (writers.Rely owner)
    (writers.Guarantee owner) post program now

/-- A call that touches no file leaves what the writer keeps. -/
theorem Keeps.runs_call (keeps : writers.Keeps owner kept)
    (request : ExtCall) (untouched : touchesFiles request = false)
    (holds : kept now) :
    writers.Runs owner
      (fun outcome last => kept last ∧ ∀ raised, outcome = .error raised →
        ∃ fault, raised = .fault request fault ∧
          (Fails (writers.ioSize owner) (.sys request, .error raised) →
            writers.Blamed owner last))
      (call request) now := by
  unfold Runs call
  rw [Routine.guarded_invoke]
  intro answer next answered
  obtain ⟨same, faults⟩ := answers_plain untouched answered
  have recorded := keeps.recorded now request answer holds
  rw [← same] at recorded
  refine ⟨?_, fun later relied => ?_⟩
  · rw [same]
    apply Guarantee.recorded
    rw [← same]
    exact keeps.faultless next recorded
  · have stable := keeps.stable next later relied recorded
    refine ⟨stable, fun raised outcome => ?_⟩
    obtain ⟨fault, named⟩ := faults raised outcome
    refine ⟨fault, named, fun fails => ?_⟩
    apply Blamed.stable relied
    rw [same, outcome]
    exact Blamed.of_record fails

/-- Any failure of such a call is one, unless it opens a directory. -/
theorem Keeps.runs_act (keeps : writers.Keeps owner kept)
    (request : ExtCall) (untouched : touchesFiles request = false)
    (file : ∀ path, request ≠ .openDirectory path) (holds : kept now) :
    writers.Runs owner (writers.Accounted owner kept) (act request) now := by
  have called := keeps.runs_call request untouched holds
  apply called.seq
  · intro returned last reached
    exact Accounted.of_kept reached.1
  · intro raised last reached
    obtain ⟨fault, rfl, blamed⟩ := reached.2 raised rfl
    apply Accounted.of_blamed reached.1
    apply blamed
    cases request <;>
      first
      | trivial
      | exact absurd rfl (file _)

/-- Two programs in sequence account for what they do. -/
theorem Runs.seq {result : Type} {program : Program result}
    {next : result → Program value}
    {later : FileSystem writer → Prop}
    (first : writers.Runs owner (writers.Accounted owner kept) program now)
    (weaker : ∀ last, kept last → later last)
    (second : ∀ returned last, kept last →
      writers.Runs owner (writers.Accounted owner later)
        (next returned) last) :
    writers.Runs owner (writers.Accounted owner later)
      (program >>= next) now := by
  apply Guarded.seq first
  · intro returned last reached
    exact second returned last reached.1
  · intro raised last reached
    exact Accounted.of_blamed (weaker last reached.1)
      (reached.2 raised rfl)

theorem runs_onlyIf {condition : Prop} [Decidable condition]
    {program : Program PUnit} (holds : kept now)
    (runs : writers.Runs owner (writers.Accounted owner kept) program now) :
    writers.Runs owner (writers.Accounted owner kept)
      (onlyIf condition program) now :=
  (Routine.guarded_onlyIf condition program).mpr
    ⟨fun _ => runs, fun _ => Accounted.of_kept holds⟩

/-- Removing the temporary name. -/
theorem Keeps.runs_unlinkPresent (keeps : writers.Keeps owner kept)
    (unlinked : ∀ files, kept files →
      kept (files.unlink (writers.tempPath owner)))
    (holds : kept now) :
    writers.Runs owner (writers.Accounted owner kept)
      (unlinkPresent (writers.tempPath owner)) now := by
  unfold Runs unlinkPresent act call
  rw [Routine.guarded_handling, Routine.guarded_bind,
    Routine.guarded_invoke]
  intro answer next answered
  rcases answers_unlink answered with ⟨rfl, rfl⟩ | ⟨fault, rfl, rfl⟩
  · have recorded := keeps.recorded _ (.unlink (writers.tempPath owner))
      (.ok 0) (unlinked now holds)
    refine ⟨Guarantee.unlinked (keeps.faultless _ recorded),
      fun later relied => ?_⟩
    exact Accounted.of_kept (keeps.stable _ later relied recorded)
  · have recorded := keeps.recorded now (.unlink (writers.tempPath owner))
      (.error (.fault (.unlink (writers.tempPath owner)) fault)) holds
    refine ⟨Guarantee.recorded (keeps.faultless _ recorded),
      fun later relied => ?_⟩
    have stable := keeps.stable _ later relied recorded
    by_cases missing : fault = .fileNotFound
    · subst missing
      exact Accounted.of_kept stable
    · have fails : Fails (writers.ioSize owner)
          (.sys (.unlink (writers.tempPath owner)),
            .error (.fault (.unlink (writers.tempPath owner)) fault)) :=
        missing
      have blamed := (Blamed.of_record fails).stable relied
      have raises : writers.Accounted owner kept
          (.error (.fault (.unlink (writers.tempPath owner)) fault) :
            Except Exc PUnit) later := Accounted.of_blamed stable blamed
      cases fault with
      | fileNotFound => exact absurd rfl missing
      | fileExists => exact raises
      | osError => exact raises
      | other => exact raises

theorem Keeps.runs_fsyncDir (keeps : writers.Keeps owner kept)
    {path : String} (holds : kept now) :
    writers.Runs owner (writers.Accounted owner kept)
      (fsyncDir path) now := by
  unfold fsyncDir
  have opened := keeps.runs_call (.openDirectory path) rfl holds
  apply Guarded.attempted opened
  intro outcome last reached
  obtain ⟨holds, raises⟩ := reached
  split
  · rename_i request fault
    obtain ⟨fault', same, blamed⟩ := raises _ rfl
    cases same
    exact Accounted.of_blamed holds (blamed rfl)
  · exact Accounted.of_kept holds
  · rename_i fd
    have synced : writers.Runs owner (writers.Accounted owner kept)
        (act (.fsync fd) >>= fun _ => act (.addEvent .fsyncDir)) last :=
      (keeps.runs_act _ rfl (by simp) holds).seq (fun _ held => held)
        fun _ _ held => keeps.runs_act _ rfl (by simp) held
    apply Guarded.attempted synced
    intro outcome last reached
    cases outcome with
    | ok returned =>
        have closed : writers.Runs owner (writers.Accounted owner kept)
            (act (.close fd)) last :=
          keeps.runs_act _ rfl (by simp) reached.1
        exact closed.seq (fun _ held => held)
          fun _ _ held => Accounted.of_kept held
    | error raised =>
        have blamed := reached.2 raised rfl
        have closed := keeps.blamed.runs_act (.close fd) rfl
          (by simp) ⟨reached.1, blamed⟩
        exact closed.seq (fun _ held => held.1)
          fun _ _ held => Accounted.of_blamed held.1 held.2

/-- The full file gets its final name, unless there is one. -/
theorem Full.runs_link {inode : Nat}
    (full : writers.Full owner inode now) :
    writers.Runs owner
      (fun outcome last => writers.Faultless owner last ∧
        ∀ raised, outcome = .error raised →
          (∃ request, raised = .fault request .fileExists) ∨
            writers.Blamed owner last)
      (act (.link (writers.tempPath owner) (writers.finalPath owner)))
      now := by
  unfold Runs act call
  rw [Routine.guarded_bind, Routine.guarded_invoke]
  intro answer next answered
  rcases answers_link full.owns.named answered with
    ⟨absent, rfl, rfl⟩ | ⟨fault, rfl, rfl⟩
  · have faultless : writers.Faultless owner
        ((now.link (writers.finalPath owner) inode
          (now.bounded _ _ full.owns.named)).record owner
            (.sys (.link (writers.tempPath owner)
              (writers.finalPath owner)), .ok 0)) :=
      fun _ _ _ _ _ => full.wrote.recorded
    refine ⟨Guarantee.linked _ full absent faultless,
      fun later relied => ⟨faultless.stable relied, ?_⟩⟩
    intro raised impossible
    cases impossible
  · have recorded := (keeps_full inode).recorded now
      (.link (writers.tempPath owner) (writers.finalPath owner))
      (.error (.fault (.link (writers.tempPath owner)
        (writers.finalPath owner)) fault)) full
    have faultless := (keeps_full inode).faultless _ recorded
    refine ⟨Guarantee.recorded faultless,
      fun later relied => ⟨faultless.stable relied, ?_⟩⟩
    intro raised outcome
    cases outcome
    by_cases taken : fault = .fileExists
    · subst taken
      exact Or.inl ⟨_, rfl⟩
    · have fails : Fails (writers.ioSize owner)
          (.sys (.link (writers.tempPath owner)
            (writers.finalPath owner)),
            .error (.fault (.link (writers.tempPath owner)
              (writers.finalPath owner)) fault)) := taken
      exact Or.inr ((Blamed.of_record fails).stable relied)

/-- `finish_write` of a file that holds the block. -/
theorem Full.runs_finishWrite {inode : Nat}
    (full : writers.Full owner inode now) (sync : Bool) (fd : Int) :
    writers.Runs owner (writers.Accounted owner (writers.Faultless owner))
      (finishWrite sync fd (writers.tempPath owner)
        (writers.finalPath owner)) now := by
  have keeps : writers.Keeps owner (writers.Full owner inode) :=
    keeps_full inode
  have weaker : ∀ last, writers.Full owner inode last →
      writers.Faultless owner last := fun last held =>
    keeps.faultless last held
  have synced : writers.Runs owner
      (writers.Accounted owner (writers.Full owner inode))
      (onlyIf sync (act (.fsync fd) >>= fun _ => act (.addEvent .fileSync)))
      now :=
    runs_onlyIf full ((keeps.runs_act _ rfl (by simp) full).seq
      (fun _ held => held) fun _ _ held => keeps.runs_act _ rfl (by simp) held)
  have directory : ∀ (result : Bool) last, writers.Faultless owner last →
      writers.Runs owner (writers.Accounted owner (writers.Faultless owner))
        (onlyIf sync (fsyncDir (writers.finalPath owner)) >>= fun _ =>
          pure result) last := by
    intro result last held
    exact (runs_onlyIf held (keeps_faultless.runs_fsyncDir held)).seq
      (fun _ held => held) fun _ _ held => Accounted.of_kept held
  unfold finishWrite
  apply synced.seq weaker
  intro _ last held
  have closed := keeps.runs_act (.close fd) rfl (by simp) held
  apply closed.seq weaker
  intro _ last held
  apply Guarded.attempted held.runs_link
  intro linked last reached
  obtain ⟨faultless, raises⟩ := reached
  rcases linked with raised | returned
  · by_cases lost : ∃ request, raised = .fault request .fileExists
    · obtain ⟨request, rfl⟩ := lost
      apply (keeps_faultless.runs_unlinkPresent
        (fun _ => Faultless.unlinked) faultless).seq (fun _ held => held)
      intro _ last held
      exact directory false last held
    · have blamed := (raises raised rfl).resolve_left lost
      apply (keeps_faultless.blamed.runs_unlinkPresent
        (fun _ held => ⟨held.1.unlinked, held.2⟩)
        ⟨faultless, blamed⟩).seq (fun _ held => held.1)
      intro _ last held
      split
      · rename_i request same
        exact absurd ⟨request, Except.error.inj same⟩ lost
      · exact Accounted.of_blamed held.1 held.2
      · contradiction
  · apply (keeps_faultless.runs_unlinkPresent
      (fun _ => Faultless.unlinked) faultless).seq (fun _ held => held)
    intro _ last held
    exact directory true last held

/-- `cleanup_temp` after a failure. -/
theorem runs_cleanupTemp {fd : Int}
    (faultless : writers.Faultless owner now)
    (blamed : writers.Blamed owner now) :
    writers.Runs owner
      (writers.Accounted owner fun last =>
        writers.Faultless owner last ∧ writers.Blamed owner last)
      (cleanupTemp fd (writers.tempPath owner)) now := by
  let kept : FileSystem writer → Prop := fun last =>
    writers.Faultless owner last ∧ writers.Blamed owner last
  have keeps : writers.Keeps owner kept := keeps_faultless.blamed
  have closed : writers.Runs owner (writers.Accounted owner kept)
      (closeQuietly fd) now := by
    unfold Runs closeQuietly
    rw [Routine.guarded_handling]
    have act := keeps.runs_act (.close fd) rfl (by simp)
      ⟨faultless, blamed⟩
    apply act.mono
    intro outcome last reached
    cases outcome with
    | ok returned => exact reached
    | error raised =>
        have held := reached.1
        dsimp only
        split
        · exact Accounted.of_blamed held held.2
        · exact Accounted.of_kept held
  apply closed.seq (fun _ held => held)
  intro _ last held
  exact keeps.runs_unlinkPresent
    (fun _ held => ⟨held.1.unlinked, held.2⟩) held

theorem Unopened.created (unopened : writers.Unopened owner files)
    (request : ExtCall) (answer : Except Exc Int) :
    writers.Opened owner files.next
      ((files.create (writers.tempPath owner) owner).record owner
        (.sys request, answer)) where
  owns :=
    { made := Function.update_self _ _ _
      only := by
        intro other made
        by_cases fresh : other = files.next
        · exact fresh
        · have before := (Function.update_of_ne fresh _ _).symm.trans made
          exact absurd before (unopened.unmade other)
      named := Function.update_self _ _ _
      hidden := by
        intro path different named
        have before := (Function.update_of_ne different _ _).symm.trans named
        have old := files.bounded path files.next before
        omega }
  empty := Function.update_self _ _ _
  blank := fun fd answer member =>
    unopened.blank fd answer (mem_log_record.mp member)

/-- The file of a store that is not open yet. -/
theorem Unopened.runs_openTempWrite
    (unopened : writers.Unopened owner now) :
    writers.Runs owner
      (fun (outcome : Except Exc Int) last =>
        match outcome with
        | .ok fd => ∃ inode : Nat, fd = inode ∧
            writers.Opened owner inode last
        | .error _ => writers.Faultless owner last ∧
            writers.Blamed owner last)
      (openTempWrite (writers.tempPath owner) (writers.finalPath owner))
      now := by
  have keeps : writers.Keeps owner (writers.Unopened owner) :=
    keeps_unopened
  have made := keeps.runs_act (.makedirs (writers.finalPath owner)) rfl
    (by simp) unopened
  unfold openTempWrite
  apply Guarded.seq made
  · intro _ before reached
    have unopened := reached.1
    unfold call
    rw [Routine.guarded_invoke]
    intro answer next answered
    rcases answers_openFile unopened.absent answered with
      ⟨rfl, rfl⟩ | ⟨fault, rfl, rfl⟩
    · have opened := unopened.created
        (.openFile (writers.tempPath owner)) (.ok before.next)
      have keeps : writers.Keeps owner
          (writers.Opened owner before.next) := keeps_opened before.next
      refine ⟨Guarantee.created (keeps.faultless _ opened),
        fun later relied => ⟨before.next, rfl, ?_⟩⟩
      exact keeps.stable _ later relied opened
    · have recorded := keeps.recorded before
        (.openFile (writers.tempPath owner))
        (.error (.fault (.openFile (writers.tempPath owner)) fault))
        unopened
      have faultless := keeps.faultless _ recorded
      refine ⟨Guarantee.recorded faultless, fun later relied => ?_⟩
      have fails : Fails (writers.ioSize owner)
          (.sys (.openFile (writers.tempPath owner)),
            .error (.fault (.openFile (writers.tempPath owner)) fault)) :=
        trivial
      exact ⟨faultless.stable relied,
        (Blamed.of_record fails).stable relied⟩
  · intro raised last reached
    exact ⟨keeps.faultless last reached.1, reached.2 raised rfl⟩

/-- The completion of the write: the file is full, or a failure is seen. -/
theorem Opened.runs_written {inode : Nat}
    (opened : writers.Opened owner inode now) :
    writers.Runs owner
      (fun outcome last => ∃ result : Int, outcome = .ok result ∧
        if result = writers.ioSize owner then
          writers.Full owner inode last
        else
          writers.Faultless owner last ∧ writers.Blamed owner last)
      (invoke (WriterCall.written inode)) now := by
  rw [Runs, Routine.guarded_invoke]
  intro answer next answered
  have empty : now.content (inode : Int).toNat = [] := opened.empty
  obtain ⟨result, bytes, rfl, rfl, full⟩ := answers_written empty answered
  have owns : writers.Owns owner inode
      ((now.overwrite inode bytes).record owner
        (.written inode, .ok result)) :=
    { made := opened.owns.made
      only := opened.owns.only
      named := opened.owns.named
      hidden := opened.owns.hidden }
  refine ⟨Guarantee.overwritten opened.owns owns.faultless,
    fun later relied => ⟨result, rfl, ?_⟩⟩
  rw [writers.whole owner] at full
  split
  · rename_i complete
    have whole : ((now.overwrite inode bytes).record owner
        (.written inode, .ok result)).content inode =
          writers.block owner :=
      (Function.update_self _ _ _).trans (full complete)
    have wrote : writers.Wrote owner ((now.overwrite inode bytes).record
        owner (.written inode, .ok result)) := by
      intro fd answer member
      rw [FileSystem.log_record] at member
      rcases List.mem_append.mp member with before | here
      · exact absurd before (opened.blank fd answer)
      · cases List.mem_singleton.mp here
        rw [complete]
    exact (keeps_full inode).stable _ later relied ⟨owns, whole, wrote⟩
  · rename_i short
    have fails : Fails (writers.ioSize owner)
        (.written inode, .ok result) := fun same =>
      short (Except.ok.inj same)
    exact ⟨owns.faultless.stable relied,
      (Blamed.of_record fails).stable relied⟩

/-- The `try` block of `_on_write_complete`. -/
theorem runs_publishWrite {inode : Nat} {fd result : Int}
    (written : if result = writers.ioSize owner then
        writers.Full owner inode now
      else
        writers.Faultless owner now ∧ writers.Blamed owner now) :
    writers.Runs owner (writers.Accounted owner (writers.Faultless owner))
      (writers.publishWrite owner fd result) now := by
  unfold publishWrite checkTransferred
  split at written
  · rename_i complete
    have positive : ¬ result < 0 := by omega
    rw [if_neg positive, if_neg (not_not.mpr complete)]
    have keeps : writers.Keeps owner (writers.Faultless owner) :=
      keeps_faultless
    have finished := written.runs_finishWrite (writers.syncOnStore owner) fd
    apply finished.seq (fun _ held => held)
    intro _ last held
    exact runs_onlyIf held (keeps.runs_act _ rfl (by simp) held)
  · rename_i short
    split
    · exact Accounted.of_blamed written.1 written.2
    · exact Accounted.of_blamed written.1 written.2

/-- A store reports that the file is stored, or a call of it has failed. -/
theorem Unopened.runs_storeFile
    (unopened : writers.Unopened owner now) :
    writers.Runs owner
      (fun outcome last => outcome = .ok true ∨
        writers.Blamed owner last)
      (writers.storeFile owner) now := by
  have cleaned : ∀ fd last, writers.Faultless owner last ∧
      writers.Blamed owner last →
      writers.Runs owner
        (fun outcome last => outcome = .ok true ∨
          writers.Blamed owner last)
        (cleanupTemp fd (writers.tempPath owner) >>= fun _ =>
          pure false) last := by
    intro fd last held
    apply Guarded.seq (runs_cleanupTemp held.1 held.2)
    · intro _ last reached
      exact Or.inr reached.1.2
    · intro _ last reached
      exact Or.inr reached.1.2
  unfold storeFile
  apply Guarded.attempted unopened.runs_openTempWrite
  intro opened last reached
  rcases opened with raised | fd
  · exact Or.inr reached.2
  obtain ⟨inode, rfl, opened⟩ := reached
  have keeps : writers.Keeps owner (writers.Opened owner inode) :=
    keeps_opened inode
  have queued := keeps.runs_act
    (.queueWrite (writers.userData owner) inode) rfl (by simp) opened
  apply Guarded.attempted queued
  intro queued last reached
  rcases queued with raised | _
  · exact cleaned inode last
      ⟨keeps.faultless last reached.1, reached.2 raised rfl⟩
  apply Guarded.seq reached.1.runs_written
  · intro result last reached
    obtain ⟨_, same, written⟩ := reached
    cases same
    apply Guarded.attempted (runs_publishWrite written)
    intro published last reached
    rcases published with raised | _
    · exact cleaned inode last ⟨reached.1, reached.2 raised rfl⟩
    · exact Or.inl rfl
  · intro raised last reached
    obtain ⟨_, impossible, _⟩ := reached
    cases impossible

end Programs

/-! ## All writers -/

section Immutable

variable {before middle after : FileSystem writer}

variable (writers) in
/-- Final paths keep their files and these their bytes; a new one gets the
whole block of a writer. -/
structure Immutable (before after : FileSystem writer) : Prop where
  kept : ∀ owner inode,
    before.names (writers.finalPath owner) = some inode →
    after.names (writers.finalPath owner) = some inode ∧
      after.content inode = before.content inode
  whole : ∀ owner inode,
    before.names (writers.finalPath owner) = none →
    after.names (writers.finalPath owner) = some inode →
    ∃ publisher, writers.finalPath publisher = writers.finalPath owner ∧
      after.content inode = writers.block publisher

theorem Immutable.trans (first : writers.Immutable before middle)
    (second : writers.Immutable middle after) :
    writers.Immutable before after where
  kept := by
    intro owner inode named
    obtain ⟨kept, same⟩ := first.kept owner inode named
    obtain ⟨keptOn, sameOn⟩ := second.kept owner inode kept
    exact ⟨keptOn, sameOn.trans same⟩
  whole := by
    intro owner inode absent named
    cases between : middle.names (writers.finalPath owner) with
    | none => exact second.whole owner inode between named
    | some linked =>
        obtain ⟨publisher, path, whole⟩ :=
          first.whole owner linked absent between
        obtain ⟨kept, same⟩ := second.kept owner linked between
        have only := Option.some.inj (kept.symm.trans named)
        subst only
        exact ⟨publisher, path, same.trans whole⟩

/-- One call. -/
theorem Guarantee.immutable
    (guaranteed : writers.Guarantee owner before after) :
    writers.Immutable before after where
  kept := by
    intro other inode named
    have apart := (writers.apart owner other).symm
    have same := guaranteed.published _ inode apart named
    rcases guaranteed.names _ apart with kept | ⟨_, absent, _⟩
    · exact ⟨kept.trans named, same⟩
    · rw [absent] at named
      cases named
  whole := by
    intro other inode absent named
    have apart := (writers.apart owner other).symm
    rcases guaranteed.names _ apart with kept | published
    · rw [kept, absent] at named
      cases named
    · obtain ⟨path, _, linked, found, _, whole⟩ := published
      have same := Option.some.inj (found.symm.trans named)
      subst same
      exact ⟨owner, path.symm, whole⟩

end Immutable

variable (writers) in
/-- No store has made a call yet, and the temporary names are new. -/
structure Starts
    (now : Threads writer (FileSystem writer) WriterCall Exc Int Bool) :
    Prop where
  programs : now.left = writers.storeFile
  absent : ∀ owner, now.world.names (writers.tempPath owner) = none
  creator : now.world.creator = fun _ => none
  log : now.world.log = fun _ => []

variable (writers) in
/-- No files, and every store at its first call. -/
def fresh : Threads writer (FileSystem writer) WriterCall Exc Int Bool where
  world :=
    { names := fun _ => none
      content := fun _ => []
      next := 0
      creator := fun _ => none
      log := fun _ => []
      bounded := fun _ _ impossible => nomatch impossible
      known := fun _ _ impossible => nomatch impossible }
  left := writers.storeFile

theorem starts_fresh : writers.Starts writers.fresh where
  programs := rfl
  absent := fun _ => rfl
  creator := rfl
  log := rfl

section Runs

variable [DecidableEq writer]

variable (writers) in
/-- Any number of calls of any writers, in any order. -/
abbrev Turns :
    Threads writer (FileSystem writer) WriterCall Exc Int Bool →
      Threads writer (FileSystem writer) WriterCall Exc Int Bool → Prop :=
  Relation.ReflTransGen (Turn (Answers writers.block))

variable {start now later :
    Threads writer (FileSystem writer) WriterCall Exc Int Bool}

variable (writers) in
/-- Every store goes on as it should, and has published no short write. -/
structure Sound
    (now : Threads writer (FileSystem writer) WriterCall Exc Int Bool) :
    Prop where
  steady : Steady (Answers writers.block) writers.Rely writers.Guarantee
    (fun owner outcome last => outcome = .ok true ∨
      writers.Blamed owner last) now
  faultless : ∀ owner, writers.Faultless owner now.world

theorem Starts.sound (starts : writers.Starts start) :
    writers.Sound start where
  steady := by
    intro owner later relied
    have unopened : writers.Unopened owner start.world :=
      { absent := starts.absent owner
        unmade := by
          intro inode made
          rw [starts.creator] at made
          cases made
        blank := by
          intro fd answer member
          rw [starts.log] at member
          cases member }
    rw [starts.programs]
    exact (keeps_unopened.stable _ later relied unopened).runs_storeFile
  faultless := by
    intro owner path inode _ _ made
    rw [starts.creator] at made
    cases made

/-- One turn. -/
theorem Sound.turn (sound : writers.Sound now)
    (turn : Turn (Answers writers.block) now later) :
    writers.Sound later ∧
      writers.Immutable now.world later.world := by
  obtain ⟨⟨caller, guaranteed⟩, steady⟩ := sound.steady.turn
    (fun owner files => Rely.refl writers owner files)
    (fun _ _ _ _ before after => before.trans after)
    (fun _ _ _ _ different guaranteed => guaranteed.relied different) turn
  refine ⟨⟨steady, fun owner => ?_⟩, guaranteed.immutable⟩
  by_cases same : caller = owner
  · subst same
    exact guaranteed.faultless
  · exact (sound.faultless owner).stable (guaranteed.relied same)

/-- Any interleaving. -/
theorem Sound.turns (sound : writers.Sound now)
    (turns : writers.Turns now later) :
    writers.Sound later ∧
      writers.Immutable now.world later.world := by
  induction turns with
  | refl =>
      refine ⟨sound, ⟨fun _ _ named => ⟨named, rfl⟩, ?_⟩⟩
      intro owner inode absent named
      rw [absent] at named
      cases named
  | tail _ turn inductionHypothesis =>
      obtain ⟨sound, immutable⟩ := inductionHypothesis
      obtain ⟨soundNext, immutableNext⟩ := sound.turn turn
      exact ⟨soundNext, immutable.trans immutableNext⟩

/-- In every interleaving of all stores: a final path changes once, from
absent to a writer's whole block; a short or failed write is not published;
and a store that has ended reports success, whether it lost the race or not,
unless a call of its own has failed. -/
theorem publishedOnce (starts : writers.Starts start)
    (reached : writers.Turns start now)
    (goesOn : writers.Turns now later) :
    writers.Immutable now.world later.world ∧
      (∀ owner fd answer,
        (.written fd, answer) ∈ later.world.log owner →
        answer ≠ .ok (writers.ioSize owner : Int) →
        ∀ other inode,
          later.world.names (writers.finalPath other) = some inode →
          later.world.creator inode ≠ some owner) ∧
      (∀ owner success, later.left owner = .done success →
        success = true ∨ writers.Blamed owner later.world) ∧
      ∀ owner raised, later.left owner = .raise raised →
        writers.Blamed owner later.world := by
  have sound := (starts.sound.turns reached).1
  obtain ⟨sound, immutable⟩ := sound.turns goesOn
  refine ⟨immutable, ?_, ?_, ?_⟩
  · intro owner fd answer wrote short other inode named made
    have apart := (writers.apart owner other).symm
    exact short (sound.faultless owner _ inode apart named made fd answer
      wrote)
  · intro owner success ended
    have guarded := sound.steady owner _ (Rely.refl writers owner _)
    rw [ended] at guarded
    rcases guarded with reported | blamed
    · exact Or.inl (Except.ok.inj reported)
    · exact Or.inr blamed
  · intro owner raised ended
    have guarded := sound.steady owner _ (Rely.refl writers owner _)
    rw [ended] at guarded
    exact guarded.resolve_left fun impossible => nomatch impossible

/-! ## Running a schedule -/

variable (writers) in
/-- The call a writer waits for, with this chance. -/
def step (now : Threads writer (FileSystem writer) WriterCall Exc Int Bool)
    (turn : writer × Chance) :
    Threads writer (FileSystem writer) WriterCall Exc Int Bool :=
  match now.left turn.1 with
  | .ask request resume =>
      let executed := execute writers.block turn.1 now.world request turn.2
      ⟨executed.2.record turn.1 (request, executed.1),
        Function.update now.left turn.1 (resume executed.1)⟩
  | _ => now

variable (writers) in
/-- These turns, one after the other. -/
def play (now : Threads writer (FileSystem writer) WriterCall Exc Int Bool)
    (schedule : List (writer × Chance)) :
    Threads writer (FileSystem writer) WriterCall Exc Int Bool :=
  schedule.foldl writers.step now

theorem turns_play (schedule : List (writer × Chance)) :
    writers.Turns now (writers.play now schedule) := by
  induction schedule generalizing now with
  | nil => exact .refl
  | cons turn schedule inductionHypothesis =>
      have later := @inductionHypothesis (writers.step now turn)
      unfold play
      rw [List.foldl_cons]
      apply Relation.ReflTransGen.trans _ later
      unfold step
      split
      · rename_i request resume waits
        exact .single (.call turn.1 waits ⟨turn.2, _, rfl, rfl⟩)
      · exact .refl

end Runs

/-! ## Two writers of one block -/

/-- Two processes store the same one-byte block. -/
def rivals : Writers Bool where
  syncOnStore := fun _ => false
  ioSize := fun _ => 1
  block := fun _ => [7]
  whole := fun _ => rfl
  finalPath := fun _ => "h"
  tempPath := fun first => if first then "h.tmp-1" else "h.tmp-2"
  unique := by decide
  apart := by decide
  userData := fun _ => 0
  caches := fun _ => false

/-- A call that works, and a write that stores a byte. -/
def works : Chance := ⟨none, 1, 0⟩

/-- What a store has reported. -/
def reported (program : Program Bool) : Option Bool :=
  match program with
  | .done success => some success
  | _ => none

/-- Both writers write, and then the first one publishes. -/
def firstPublishes : List (Bool × Chance) :=
  [(true, works), (true, works), (true, works), (true, works),
    (false, works), (false, works), (false, works), (false, works),
    (true, works), (true, works), (true, works)]

/-- A loser of the race that reports success, after which the file is whole. -/
theorem publishedOnce_rivals :
    let now := rivals.play rivals.fresh firstPublishes
    let later := rivals.play now [(false, works), (false, works),
      (false, works)]
    (reported (now.left true) = some true ∧
      reported (later.left false) = some true) ∧
      rivals.Immutable now.world later.world :=
  ⟨by decide +kernel, (publishedOnce starts_fresh (turns_play _)
    (turns_play _)).1⟩

/-- The loser removes its temporary file, and that fails. -/
def loserUnlinkFails : List (Bool × Chance) :=
  firstPublishes ++ [(false, works), (false, works),
    (false, ⟨some .osError, 0, 0⟩), (false, works), (false, works)]

/-- A writer may lose the race and report a failure: its `unlink` fails. -/
theorem loser_mayReportFailure :
    ¬ ∀ now, rivals.Turns rivals.fresh now → ∀ owner,
      (.sys (.link (rivals.tempPath owner) (rivals.finalPath owner)),
        .error (.fault (.link (rivals.tempPath owner)
          (rivals.finalPath owner)) .fileExists)) ∈ now.world.log owner →
      reported (now.left owner) ≠ some false := by
  intro reportsSuccess
  apply reportsSuccess (rivals.play rivals.fresh loserUnlinkFails)
    (turns_play _) false
  · decide +kernel
  · decide +kernel

end Writers

end PyKvCache.Storage
