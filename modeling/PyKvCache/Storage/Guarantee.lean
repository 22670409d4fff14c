import PyKvCache.Storage.Writer

/-!
# What a writer may do, and what it knows

Writers of all processes take turns, call by call.  What one of them may do to
the files is its guarantee, what it relies on is the guarantee of the others,
and what it knows of its own file survives their turns.
-/

namespace PyKvCache.Storage

open PyKvCache.Reactor

variable {writer : Type}

namespace FileSystem

variable [DecidableEq writer] (files : FileSystem writer) (owner : writer)
  (entry : Entry)

@[simp]
theorem names_record : (files.record owner entry).names = files.names := rfl

@[simp]
theorem content_record :
    (files.record owner entry).content = files.content := rfl

@[simp]
theorem next_record : (files.record owner entry).next = files.next := rfl

@[simp]
theorem creator_record :
    (files.record owner entry).creator = files.creator := rfl

@[simp]
theorem log_record :
    (files.record owner entry).log owner = files.log owner ++ [entry] := by
  simp [record]

theorem log_record_of_ne {other : writer} (different : other ≠ owner) :
    (files.record owner entry).log other = files.log other := by
  simp [record, different]

end FileSystem

/-- A call that failed, as far as a store does not expect it to. -/
def Fails (ioSize : Nat) : Entry → Prop
  | (.written _, answer) => answer ≠ .ok (ioSize : Int)
  | (.sys (.link _ _), .error (.fault _ fault)) => fault ≠ .fileExists
  | (.sys (.unlink _), .error (.fault _ fault)) => fault ≠ .fileNotFound
  | (.sys (.openDirectory _), .error (.fault _ fault)) => fault = .other
  | (.sys _, .error _) => True
  | (.sys _, .ok _) => False

namespace Writers

variable (writers : Writers writer) (owner : writer)

/-- Some call of the writer has failed. -/
def Blamed (files : FileSystem writer) : Prop :=
  ∃ entry ∈ files.log owner, Fails (writers.ioSize owner) entry

/-- Every write of the writer has stored a whole block. -/
def Wrote (files : FileSystem writer) : Prop :=
  ∀ fd answer, (.written fd, answer) ∈ files.log owner →
    answer = .ok (writers.ioSize owner : Int)

/-- A file of the writer that has another name than the temporary one was
written in full. -/
def Faultless (files : FileSystem writer) : Prop :=
  ∀ path inode, path ≠ writers.tempPath owner →
    files.names path = some inode → files.creator inode = some owner →
    writers.Wrote owner files

/-! ## What a writer may do -/

/-- A call that gives the final path the whole block of the writer. -/
def Publishes (path : String) (before after : FileSystem writer) : Prop :=
  path = writers.finalPath owner ∧ before.names path = none ∧
    ∃ inode, after.names path = some inode ∧
      before.creator inode = some owner ∧
      after.content inode = writers.block owner

/-- What a call of a writer does to the files. -/
structure Guarantee (before after : FileSystem writer) : Prop where
  next : before.next ≤ after.next
  content : ∀ inode, inode < before.next →
    before.creator inode ≠ some owner →
    after.content inode = before.content inode
  creator : ∀ inode, inode < before.next →
    after.creator inode = before.creator inode
  creates : ∀ inode other, before.next ≤ inode →
    after.creator inode = some other → other = owner
  names : ∀ path, path ≠ writers.tempPath owner →
    after.names path = before.names path ∨
      writers.Publishes owner path before after
  temps : ∀ inode, after.names (writers.tempPath owner) = some inode →
    before.names (writers.tempPath owner) = some inode ∨
      before.next ≤ inode
  published : ∀ path inode, path ≠ writers.tempPath owner →
    before.names path = some inode →
    after.content inode = before.content inode
  logs : ∀ other, other ≠ owner → after.log other = before.log other
  faultless : writers.Faultless owner after

/-- What a writer relies on while it waits. -/
structure Rely (before after : FileSystem writer) : Prop where
  next : before.next ≤ after.next
  content : ∀ inode, before.creator inode = some owner →
    after.content inode = before.content inode
  creator : ∀ inode, after.creator inode = some owner ↔
    before.creator inode = some owner
  temp : after.names (writers.tempPath owner) =
    before.names (writers.tempPath owner)
  names : ∀ path inode, before.creator inode = some owner →
    after.names path = some inode → before.names path = some inode
  log : after.log owner = before.log owner

theorem Rely.refl (files : FileSystem writer) :
    writers.Rely owner files files where
  next := le_refl _
  content := fun _ _ => rfl
  creator := fun _ => Iff.rfl
  temp := rfl
  names := fun _ _ _ named => named
  log := rfl

variable {writers owner}

theorem Rely.trans {first second third : FileSystem writer}
    (before : writers.Rely owner first second)
    (after : writers.Rely owner second third) :
    writers.Rely owner first third where
  next := le_trans before.next after.next
  content := by
    intro inode created
    have kept := (before.creator inode).mpr created
    rw [after.content inode kept, before.content inode created]
  creator := fun inode =>
    (after.creator inode).trans (before.creator inode)
  temp := after.temp.trans before.temp
  names := by
    intro path inode created named
    have kept := (before.creator inode).mpr created
    exact before.names path inode created
      (after.names path inode kept named)
  log := after.log.trans before.log

/-- What one writer guarantees, the others may rely on. -/
theorem Guarantee.relied {other : writer} {before after : FileSystem writer}
    (guaranteed : writers.Guarantee owner before after)
    (different : owner ≠ other) : writers.Rely other before after where
  next := guaranteed.next
  content := by
    intro inode created
    have old := before.known inode other created
    apply guaranteed.content inode old
    rw [created]
    intro same
    exact different (Option.some.inj same).symm
  creator := by
    intro inode
    by_cases old : inode < before.next
    · rw [guaranteed.creator inode old]
    · constructor
      · intro created
        have own := guaranteed.creates inode other (by omega) created
        exact absurd own.symm different
      · intro created
        have known := before.known inode other created
        omega
  temp := by
    have apart : writers.tempPath other ≠ writers.tempPath owner := by
      intro same
      exact different (writers.unique _ _ same).symm
    rcases guaranteed.names _ apart with same | ⟨final, _⟩
    · exact same
    · exact absurd final (writers.apart _ _)
  names := by
    intro path inode created named
    have old := before.known inode other created
    by_cases temp : path = writers.tempPath owner
    · subst temp
      rcases guaranteed.temps inode named with before | young
      · exact before
      · omega
    · rcases guaranteed.names path temp with same | ⟨_, _, published⟩
      · rw [← same]
        exact named
      · obtain ⟨linked, found, own, _⟩ := published
        have same : linked = inode := by
          rw [found, Option.some.injEq] at named
          exact named
        rw [same, created] at own
        exact absurd (Option.some.inj own).symm different
  log := guaranteed.logs other (Ne.symm different)

/-! ## What a writer knows -/

variable (writers owner)

/-- The writer has not opened its file. -/
structure Unopened (files : FileSystem writer) : Prop where
  absent : files.names (writers.tempPath owner) = none
  unmade : ∀ inode, files.creator inode ≠ some owner
  blank : ∀ fd answer, (.written fd, answer) ∉ files.log owner

/-- The writer has one file, under its temporary name only. -/
structure Owns (inode : Nat) (files : FileSystem writer) : Prop where
  made : files.creator inode = some owner
  only : ∀ other, files.creator other = some owner → other = inode
  named : files.names (writers.tempPath owner) = some inode
  hidden : ∀ path, path ≠ writers.tempPath owner →
    files.names path ≠ some inode

/-- The file of the writer is still empty. -/
structure Opened (inode : Nat) (files : FileSystem writer) : Prop where
  owns : writers.Owns owner inode files
  empty : files.content inode = []
  blank : ∀ fd answer, (.written fd, answer) ∉ files.log owner

/-- The file of the writer holds its block. -/
structure Full (inode : Nat) (files : FileSystem writer) : Prop where
  owns : writers.Owns owner inode files
  whole : files.content inode = writers.block owner
  wrote : writers.Wrote owner files

/-- What a writer knows across the turns of others and across its own calls
that touch no file. -/
structure Keeps (kept : FileSystem writer → Prop)
    [DecidableEq writer] : Prop where
  stable : ∀ before after, writers.Rely owner before after →
    kept before → kept after
  recorded : ∀ files request answer, kept files →
    kept (files.record owner (.sys request, answer))
  faultless : ∀ files, kept files → writers.Faultless owner files

variable {writers owner}

theorem Wrote.stable {before after : FileSystem writer}
    (relied : writers.Rely owner before after)
    (wrote : writers.Wrote owner before) : writers.Wrote owner after := by
  unfold Wrote
  rw [relied.log]
  exact wrote

theorem Blamed.stable {before after : FileSystem writer}
    (relied : writers.Rely owner before after)
    (blamed : writers.Blamed owner before) :
    writers.Blamed owner after := by
  unfold Blamed
  rw [relied.log]
  exact blamed

theorem Owns.stable {inode : Nat} {before after : FileSystem writer}
    (relied : writers.Rely owner before after)
    (owns : writers.Owns owner inode before) :
    writers.Owns owner inode after where
  made := (relied.creator inode).mpr owns.made
  only := fun other made => owns.only other ((relied.creator other).mp made)
  named := relied.temp.trans owns.named
  hidden := fun path other named =>
    owns.hidden path other (relied.names path inode owns.made named)

theorem Faultless.stable {before after : FileSystem writer}
    (relied : writers.Rely owner before after)
    (faultless : writers.Faultless owner before) :
    writers.Faultless owner after := by
  intro path inode other named made
  have old := (relied.creator inode).mp made
  have before := relied.names path inode old named
  exact (faultless path inode other before old).stable relied

theorem Faultless.unlinked {files : FileSystem writer}
    (faultless : writers.Faultless owner files) :
    writers.Faultless owner (files.unlink (writers.tempPath owner)) := by
  intro path inode different named made
  have before := (Function.update_of_ne different _ _).symm.trans named
  exact faultless path inode different before made

section Recorded

variable [DecidableEq writer] {files : FileSystem writer}
  {request : ExtCall} {answer : Except Exc Int}

theorem mem_log_record {fd : Int} {result : Except Exc Int} :
    (.written fd, result) ∈
        (files.record owner (.sys request, answer)).log owner ↔
      (.written fd, result) ∈ files.log owner := by
  simp

theorem Wrote.recorded (wrote : writers.Wrote owner files) :
    writers.Wrote owner (files.record owner (.sys request, answer)) := by
  intro fd result member
  exact wrote fd result (mem_log_record.mp member)

theorem Blamed.recorded {entry : Entry}
    (blamed : writers.Blamed owner files) :
    writers.Blamed owner (files.record owner entry) := by
  obtain ⟨old, member, fails⟩ := blamed
  refine ⟨old, ?_, fails⟩
  rw [FileSystem.log_record]
  exact List.mem_append_left _ member

/-- The call that failed is in the log. -/
theorem Blamed.of_record {entry : Entry}
    (fails : Fails (writers.ioSize owner) entry) :
    writers.Blamed owner (files.record owner entry) := by
  refine ⟨entry, ?_, fails⟩
  rw [FileSystem.log_record]
  exact List.mem_append_right _ (List.mem_singleton.mpr rfl)

theorem Owns.recorded {inode : Nat} {entry : Entry}
    (owns : writers.Owns owner inode files) :
    writers.Owns owner inode (files.record owner entry) where
  made := owns.made
  only := owns.only
  named := owns.named
  hidden := owns.hidden

theorem Faultless.recorded (faultless : writers.Faultless owner files) :
    writers.Faultless owner (files.record owner (.sys request, answer)) :=
  fun path inode other named made =>
    (faultless path inode other named made).recorded

end Recorded

/-- A file with no other name than the temporary one is faultless. -/
theorem Owns.faultless {inode : Nat} {files : FileSystem writer}
    (owns : writers.Owns owner inode files) :
    writers.Faultless owner files := by
  intro path other different named made
  rw [owns.only other made] at named
  exact absurd named (owns.hidden path different)

section Keeps

variable [DecidableEq writer]

theorem keeps_faultless : writers.Keeps owner (writers.Faultless owner) where
  stable := fun _ _ relied faultless => faultless.stable relied
  recorded := fun _ _ _ faultless => faultless.recorded
  faultless := fun _ faultless => faultless

theorem keeps_full (inode : Nat) :
    writers.Keeps owner (writers.Full owner inode) where
  stable := fun _ _ relied full =>
    { owns := full.owns.stable relied
      whole := (relied.content inode full.owns.made).trans full.whole
      wrote := full.wrote.stable relied }
  recorded := fun _ _ _ full =>
    { owns := full.owns.recorded
      whole := full.whole
      wrote := full.wrote.recorded }
  faultless := fun _ full => full.owns.faultless

theorem keeps_opened (inode : Nat) :
    writers.Keeps owner (writers.Opened owner inode) where
  stable := fun before after relied opened =>
    { owns := opened.owns.stable relied
      empty := (relied.content inode opened.owns.made).trans opened.empty
      blank := by
        rw [relied.log]
        exact opened.blank }
  recorded := fun _ _ _ opened =>
    { owns := opened.owns.recorded
      empty := opened.empty
      blank := fun fd answer member =>
        opened.blank fd answer (mem_log_record.mp member) }
  faultless := fun _ opened => opened.owns.faultless

theorem keeps_unopened :
    writers.Keeps owner (writers.Unopened owner) where
  stable := fun before after relied unopened =>
    { absent := relied.temp.trans unopened.absent
      unmade := fun inode made =>
        unopened.unmade inode ((relied.creator inode).mp made)
      blank := by
        rw [relied.log]
        exact unopened.blank }
  recorded := fun _ _ _ unopened =>
    { absent := unopened.absent
      unmade := unopened.unmade
      blank := fun fd answer member =>
        unopened.blank fd answer (mem_log_record.mp member) }
  faultless := fun files unopened path inode _ _ made =>
    absurd made (unopened.unmade inode)

/-- A failure is not forgotten. -/
theorem Keeps.blamed {kept : FileSystem writer → Prop}
    (keeps : writers.Keeps owner kept) :
    writers.Keeps owner fun files =>
      kept files ∧ writers.Blamed owner files where
  stable := fun before after relied holds =>
    ⟨keeps.stable before after relied holds.1, holds.2.stable relied⟩
  recorded := fun files request answer holds =>
    ⟨keeps.recorded files request answer holds.1, holds.2.recorded⟩
  faultless := fun files holds => keeps.faultless files holds.1

end Keeps

/-! ## One call -/

section Calls

variable [DecidableEq writer] {files : FileSystem writer} {entry : Entry}

theorem Guarantee.recorded
    (faultless : writers.Faultless owner (files.record owner entry)) :
    writers.Guarantee owner files (files.record owner entry) where
  next := le_refl _
  content := fun _ _ _ => rfl
  creator := fun _ _ => rfl
  creates := by
    intro inode other young made
    have old := files.known inode other made
    omega
  names := fun _ _ => Or.inl rfl
  temps := fun _ named => Or.inl named
  published := fun _ _ _ _ => rfl
  logs := fun _ different => files.log_record_of_ne owner entry different
  faultless := faultless

theorem Guarantee.unlinked
    (faultless : writers.Faultless owner
      ((files.unlink (writers.tempPath owner)).record owner entry)) :
    writers.Guarantee owner files
      ((files.unlink (writers.tempPath owner)).record owner entry) where
  next := le_refl _
  content := fun _ _ _ => rfl
  creator := fun _ _ => rfl
  creates := by
    intro inode other young made
    have old := files.known inode other made
    omega
  names := fun _ different => Or.inl (Function.update_of_ne different _ _)
  temps := by
    intro inode named
    have gone := Function.update_self (writers.tempPath owner) none
      files.names
    cases gone.symm.trans named
  published := fun _ _ _ _ => rfl
  logs := fun _ different =>
    (files.unlink _).log_record_of_ne owner entry different
  faultless := faultless

theorem Guarantee.linked {inode : Nat} (known : inode < files.next)
    (full : writers.Full owner inode files)
    (absent : files.names (writers.finalPath owner) = none)
    (faultless : writers.Faultless owner
      ((files.link (writers.finalPath owner) inode known).record owner
        entry)) :
    writers.Guarantee owner files
      ((files.link (writers.finalPath owner) inode known).record owner
        entry) where
  next := le_refl _
  content := fun _ _ _ => rfl
  creator := fun _ _ => rfl
  creates := by
    intro other creator young made
    have old := files.known other creator made
    omega
  names := by
    intro path _
    by_cases final : path = writers.finalPath owner
    · subst final
      exact Or.inr ⟨rfl, absent, inode, Function.update_self _ _ _,
        full.owns.made, full.whole⟩
    · exact Or.inl (Function.update_of_ne final _ _)
  temps := by
    intro other named
    have temp := Function.update_of_ne (writers.apart owner owner)
      (some inode) files.names
    exact Or.inl (temp.symm.trans named)
  published := fun _ _ _ _ => rfl
  logs := fun _ different =>
    (files.link _ _ _).log_record_of_ne owner entry different
  faultless := faultless

theorem Guarantee.created
    (faultless : writers.Faultless owner
      ((files.create (writers.tempPath owner) owner).record owner entry)) :
    writers.Guarantee owner files
      ((files.create (writers.tempPath owner) owner).record owner
        entry) where
  next := Nat.le_succ _
  content := fun inode old _ =>
    Function.update_of_ne (by omega) _ _
  creator := fun inode old => Function.update_of_ne (by omega) _ _
  creates := by
    intro inode other young made
    by_cases fresh : inode = files.next
    · subst fresh
      have same := (Function.update_self _ _ _).symm.trans made
      exact (Option.some.inj same).symm
    · have before := (Function.update_of_ne fresh _ _).symm.trans made
      have old := files.known inode other before
      omega
  names := fun _ different => Or.inl (Function.update_of_ne different _ _)
  temps := by
    intro inode named
    have same := (Function.update_self _ _ _).symm.trans named
    have fresh := Option.some.inj same
    exact Or.inr (by omega)
  published := by
    intro path inode _ named
    have old := files.bounded path inode named
    exact Function.update_of_ne (by omega) _ _
  logs := fun _ different =>
    (files.create _ _).log_record_of_ne owner entry different
  faultless := faultless

theorem Guarantee.overwritten {inode : Nat} {bytes : List UInt8}
    (owns : writers.Owns owner inode files)
    (faultless : writers.Faultless owner
      ((files.overwrite inode bytes).record owner entry)) :
    writers.Guarantee owner files
      ((files.overwrite inode bytes).record owner entry) where
  next := le_refl _
  content := by
    intro other _ foreign
    apply Function.update_of_ne
    intro same
    rw [same] at foreign
    exact foreign owns.made
  creator := fun _ _ => rfl
  creates := by
    intro other creator young made
    have old := files.known other creator made
    omega
  names := fun _ _ => Or.inl rfl
  temps := fun _ named => Or.inl named
  published := by
    intro path other different named
    apply Function.update_of_ne
    intro same
    rw [same] at named
    exact owns.hidden path different named
  logs := fun _ different =>
    (files.overwrite _ _).log_record_of_ne owner entry different
  faultless := faultless

end Calls

end Writers

end PyKvCache.Storage
