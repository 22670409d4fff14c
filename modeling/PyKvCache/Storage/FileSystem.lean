import PyKvCache.Library.Routine
import PyKvCache.Reactor.Types

/-!
# The shared file system

Paths, the files they name and what these hold, and what a system call of a
writer does to them.  A descriptor stands for the file it was opened for.
-/

namespace PyKvCache.Storage

open PyKvCache.Library PyKvCache.Reactor

/-- A system call of a store, or the completion of its write. -/
inductive WriterCall where
  | sys (call : ExtCall)
  | written (fd : Int)
  deriving DecidableEq

/-- A call and its answer. -/
abbrev Entry := WriterCall × Except Exc Int

/-- The files.  `names` has the file of every path that exists; `creator` and
`log` record who created a file, and which calls a writer has made. -/
structure FileSystem (writer : Type) where
  names : String → Option Nat
  content : Nat → List UInt8
  next : Nat
  creator : Nat → Option writer
  log : writer → List Entry
  bounded : ∀ path inode, names path = some inode → inode < next
  known : ∀ inode writer, creator inode = some writer → inode < next

namespace FileSystem

variable {writer : Type} (files : FileSystem writer)

/-- A new, empty file. -/
def create (path : String) (creator : writer) : FileSystem writer where
  names := Function.update files.names path (some files.next)
  content := Function.update files.content files.next []
  next := files.next + 1
  creator := Function.update files.creator files.next (some creator)
  log := files.log
  bounded := by
    intro other inode named
    by_cases same : other = path
    · subst same
      rw [Function.update_self, Option.some.injEq] at named
      omega
    · rw [Function.update_of_ne same] at named
      have before := files.bounded other inode named
      omega
  known := by
    intro inode other created
    by_cases same : inode = files.next
    · omega
    · rw [Function.update_of_ne same] at created
      have before := files.known inode other created
      omega

/-- The file holds these bytes. -/
def overwrite (inode : Nat) (bytes : List UInt8) : FileSystem writer :=
  { files with content := Function.update files.content inode bytes }

/-- Another name of a file. -/
def link (path : String) (inode : Nat) (known : inode < files.next) :
    FileSystem writer :=
  { files with
    names := Function.update files.names path (some inode)
    bounded := by
      intro other linked named
      by_cases same : other = path
      · subst same
        rw [Function.update_self, Option.some.injEq] at named
        omega
      · rw [Function.update_of_ne same] at named
        exact files.bounded other linked named }

/-- A name less. -/
def unlink (path : String) : FileSystem writer :=
  { files with
    names := Function.update files.names path none
    bounded := by
      intro other inode named
      by_cases same : other = path
      · subst same
        rw [Function.update_self] at named
        cases named
      · rw [Function.update_of_ne same] at named
        exact files.bounded other inode named }

/-- One more call of a writer. -/
def record [DecidableEq writer] (caller : writer) (entry : Entry) :
    FileSystem writer :=
  { files with
    log := Function.update files.log caller
      (files.log caller ++ [entry]) }

end FileSystem

/-! ## Calls -/

/-- What a call comes to: whether it fails, and for the completion of a write
how many bytes it has stored. -/
structure Chance where
  fault : Option Fault
  stored : Nat
  errno : Nat

/-- A call that touches no file. -/
def plain {writer : Type} (files : FileSystem writer) (call : ExtCall)
    (chance : Chance) : Except Exc Int × FileSystem writer :=
  match chance.fault with
  | some fault => (.error (.fault call fault), files)
  | none => (.ok 0, files)

variable {writer : Type}

/-- `open(2)` of a temporary file: an old file of that name is truncated. -/
def openFile (files : FileSystem writer) (caller : writer) (path : String)
    (chance : Chance) : Except Exc Int × FileSystem writer :=
  match chance.fault, files.names path with
  | some fault, _ => (.error (.fault (.openFile path) fault), files)
  | none, none => (.ok files.next, files.create path caller)
  | none, some inode => (.ok inode, files.overwrite inode [])

/-- The kernel has written some of the block to the start of the file, and
says how much, or that it failed. -/
def written (files : FileSystem writer) (block : List UInt8) (fd : Int)
    (chance : Chance) : Except Exc Int × FileSystem writer :=
  let stored := min chance.stored block.length
  (.ok (if chance.fault.isSome then -(chance.errno + 1) else stored),
    files.overwrite fd.toNat
      (block.take stored ++ (files.content fd.toNat).drop stored))

/-- `link(2)`: it never replaces a name. -/
def link (files : FileSystem writer) (temp final : String)
    (chance : Chance) : Except Exc Int × FileSystem writer :=
  match files.names final, found : files.names temp, chance.fault with
  | some _, _, some fault => (.error (.fault (.link temp final) fault), files)
  | some _, _, none =>
      (.error (.fault (.link temp final) .fileExists), files)
  | none, _, some .fileExists =>
      (.error (.fault (.link temp final) .osError), files)
  | none, _, some fault => (.error (.fault (.link temp final) fault), files)
  | none, none, none =>
      (.error (.fault (.link temp final) .fileNotFound), files)
  | none, some inode, none =>
      (.ok 0, files.link final inode (files.bounded _ _ found))

/-- `unlink(2)`. -/
def unlink (files : FileSystem writer) (path : String) (chance : Chance) :
    Except Exc Int × FileSystem writer :=
  match files.names path, chance.fault with
  | none, none => (.error (.fault (.unlink path) .fileNotFound), files)
  | some _, none => (.ok 0, files.unlink path)
  | some _, some .fileNotFound =>
      (.error (.fault (.unlink path) .osError), files)
  | _, some fault => (.error (.fault (.unlink path) fault), files)

/-- The calls that make, link or remove a file. -/
def touchesFiles : ExtCall → Bool
  | .openFile _ => true
  | .link _ _ => true
  | .unlink _ => true
  | _ => false

/-- What a call of a writer answers and leaves. -/
def execute (block : writer → List UInt8) (caller : writer)
    (files : FileSystem writer) (call : WriterCall) (chance : Chance) :
    Except Exc Int × FileSystem writer :=
  match call with
  | .written fd => written files (block caller) fd chance
  | .sys (.openFile path) => openFile files caller path chance
  | .sys (.link temp final) => link files temp final chance
  | .sys (.unlink path) => unlink files path chance
  | .sys call => plain files call chance

/-- The answers the file system may give to a writer. -/
def Answers [DecidableEq writer] (block : writer → List UInt8)
    (caller : writer) (files : FileSystem writer) (call : WriterCall)
    (answer : Except Exc Int) (after : FileSystem writer) : Prop :=
  ∃ chance left, execute block caller files call chance = (answer, left) ∧
    after = left.record caller (call, answer)

section Answers

variable [DecidableEq writer] {block : writer → List UInt8}
  {caller : writer} {files after : FileSystem writer}
  {answer : Except Exc Int}

/-- A call that touches no file only gets into the log. -/
theorem answers_plain {request : ExtCall}
    (untouched : touchesFiles request = false)
    (answered : Answers block caller files (.sys request) answer after) :
    after = files.record caller (.sys request, answer) ∧
      ∀ raised, answer = .error raised →
        ∃ fault, raised = .fault request fault := by
  obtain ⟨chance, left, executed, rfl⟩ := answered
  have executesPlain : execute block caller files (.sys request) chance =
      plain files request chance := by
    cases request <;> first | rfl | cases untouched
  rw [executesPlain, plain] at executed
  cases failed : chance.fault with
  | none =>
      rw [failed] at executed
      cases executed
      exact ⟨rfl, fun _ impossible => nomatch impossible⟩
  | some fault =>
      rw [failed] at executed
      cases executed
      refine ⟨rfl, fun raised outcome => ⟨fault, ?_⟩⟩
      cases outcome
      rfl

/-- A new temporary file is made, or the call fails. -/
theorem answers_openFile {path : String} (absent : files.names path = none)
    (answered :
      Answers block caller files (.sys (.openFile path)) answer after) :
    (answer = .ok files.next ∧
        after = (files.create path caller).record caller
          (.sys (.openFile path), answer)) ∨
      ∃ fault, answer = .error (.fault (.openFile path) fault) ∧
        after = files.record caller (.sys (.openFile path), answer) := by
  obtain ⟨chance, left, executed, rfl⟩ := answered
  rw [execute, openFile, absent] at executed
  cases failed : chance.fault with
  | none =>
      rw [failed] at executed
      cases executed
      exact Or.inl ⟨rfl, rfl⟩
  | some fault =>
      rw [failed] at executed
      cases executed
      exact Or.inr ⟨fault, rfl, rfl⟩

/-- A completed write says how much it has stored, or is negative. -/
theorem answers_written {fd : Int} (empty : files.content fd.toNat = [])
    (answered : Answers block caller files (.written fd) answer after) :
    ∃ result bytes, answer = .ok result ∧
      after = (files.overwrite fd.toNat bytes).record caller
        (.written fd, answer) ∧
      (result = (block caller).length → bytes = block caller) := by
  obtain ⟨chance, left, executed, rfl⟩ := answered
  rw [execute, written, empty, List.drop_nil, List.append_nil] at executed
  cases executed
  refine ⟨_, _, rfl, rfl, fun complete => ?_⟩
  apply List.take_of_length_le
  split at complete
  · omega
  · have stored := Int.ofNat_inj.mp complete
    omega

/-- A link is made where there is no name, or the call fails. -/
theorem answers_link {temp final : String} {inode : Nat}
    (named : files.names temp = some inode)
    (answered :
      Answers block caller files (.sys (.link temp final)) answer after) :
    (files.names final = none ∧ answer = .ok 0 ∧
        after = (files.link final inode
          (files.bounded temp inode named)).record caller
            (.sys (.link temp final), answer)) ∨
      ∃ fault, answer = .error (.fault (.link temp final) fault) ∧
        after = files.record caller (.sys (.link temp final), answer) := by
  obtain ⟨chance, left, executed, rfl⟩ := answered
  simp only [execute, link] at executed
  split at executed
  · cases executed
    exact Or.inr ⟨_, rfl, rfl⟩
  · cases executed
    exact Or.inr ⟨_, rfl, rfl⟩
  · cases executed
    exact Or.inr ⟨_, rfl, rfl⟩
  · cases executed
    exact Or.inr ⟨_, rfl, rfl⟩
  · cases executed
    exact Or.inr ⟨_, rfl, rfl⟩
  · rename_i linked absent found _
    cases executed
    have same := Option.some.inj (found.symm.trans named)
    subst same
    exact Or.inl ⟨absent, rfl, rfl⟩

/-- The name is removed, or the call fails. -/
theorem answers_unlink {path : String}
    (answered :
      Answers block caller files (.sys (.unlink path)) answer after) :
    after = (files.unlink path).record caller
        (.sys (.unlink path), .ok 0) ∧ answer = .ok 0 ∨
      ∃ fault, answer = .error (.fault (.unlink path) fault) ∧
        after = files.record caller (.sys (.unlink path), answer) := by
  obtain ⟨chance, left, executed, rfl⟩ := answered
  simp only [execute, unlink] at executed
  split at executed
  · cases executed
    exact Or.inr ⟨_, rfl, rfl⟩
  · cases executed
    exact Or.inl ⟨rfl, rfl⟩
  · cases executed
    exact Or.inr ⟨_, rfl, rfl⟩
  · cases executed
    exact Or.inr ⟨_, rfl, rfl⟩

end Answers

end PyKvCache.Storage
