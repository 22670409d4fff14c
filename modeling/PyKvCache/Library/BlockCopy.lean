import Mathlib.Data.List.Basic
import Mathlib.Tactic.Common

/-!
# Sequences of block copies in a flat memory

A memory maps integer addresses to cells.  A block copy moves `size` cells
from `src` to `dst`.  When the destinations of a sequence do not overlap, and
none of them overlaps a source, every copy of the sequence has its effect no
matter where it stands in it.
-/

namespace PyKvCache.Library

universe u

/-- Copy the `size` cells from `src` on to `dst` on. -/
structure BlockCopy where
  src : Int
  dst : Int
  size : Nat
  deriving DecidableEq, Repr

/-- The `size` cells from `start` on contain `address`. -/
def InBlock (start : Int) (size : Nat) (address : Int) : Prop :=
  start ≤ address ∧ address < start + size

instance (start : Int) (size : Nat) (address : Int) :
    Decidable (InBlock start size address) :=
  inferInstanceAs (Decidable (_ ∧ _))

/-- No address lies in both blocks. -/
def BlocksDisjoint (left : Int) (leftSize : Nat)
    (right : Int) (rightSize : Nat) : Prop :=
  ∀ address,
    InBlock left leftSize address → ¬ InBlock right rightSize address

namespace BlockCopy

variable {cell : Type u}

/-- The memory after one copy. -/
def run (copy : BlockCopy) (memory : Int → cell) : Int → cell :=
  fun address =>
    if InBlock copy.dst copy.size address then
      memory (copy.src + (address - copy.dst))
    else
      memory address

/-- The memory after the copies, one after the other. -/
def runAll (copies : List BlockCopy) (memory : Int → cell) : Int → cell :=
  copies.foldl (fun current copy => copy.run current) memory

@[simp]
theorem runAll_nil (memory : Int → cell) : runAll [] memory = memory := rfl

@[simp]
theorem runAll_cons (copy : BlockCopy) (copies : List BlockCopy)
    (memory : Int → cell) :
    runAll (copy :: copies) memory = runAll copies (copy.run memory) := rfl

/-- An address in no destination keeps its cell. -/
theorem runAll_of_not_written
    {copies : List BlockCopy} {address : Int}
    (untouched : ∀ copy ∈ copies, ¬ InBlock copy.dst copy.size address)
    (memory : Int → cell) :
    runAll copies memory address = memory address := by
  induction copies generalizing memory with
  | nil => rfl
  | cons copy copies inductionHypothesis =>
      have here := untouched copy (List.mem_cons_self ..)
      rw [runAll_cons,
        inductionHypothesis
          (fun other member =>
            untouched other (List.mem_cons_of_mem _ member))]
      simp [run, here]

/-- A copy of a sequence without overlaps delivers the cells its source held
at the start. -/
theorem runAll_of_mem
    {copies : List BlockCopy}
    (destinations :
      copies.Pairwise fun left right =>
        BlocksDisjoint left.dst left.size right.dst right.size)
    (sources : ∀ reader ∈ copies, ∀ writer ∈ copies,
      BlocksDisjoint reader.src reader.size writer.dst writer.size)
    (copy : BlockCopy) (member : copy ∈ copies)
    {offset : Nat} (inside : offset < copy.size) (memory : Int → cell) :
    runAll copies memory (copy.dst + offset) =
      memory (copy.src + offset) := by
  induction copies generalizing memory with
  | nil => cases member
  | cons head tail inductionHypothesis =>
      rw [List.pairwise_cons] at destinations
      have written : InBlock copy.dst copy.size (copy.dst + offset) :=
        ⟨by omega, by omega⟩
      have read : InBlock copy.src copy.size (copy.src + offset) :=
        ⟨by omega, by omega⟩
      rw [runAll_cons]
      rcases List.mem_cons.mp member with rfl | later
      · rw [runAll_of_not_written
          (fun other inTail =>
            destinations.1 other inTail _ written)]
        have shifted : copy.dst + (offset : Int) - copy.dst = offset := by
          omega
        simp only [run, written, if_true, shifted]
      · rw [inductionHypothesis destinations.2
          (fun reader inTail writer inTail' =>
            sources reader (List.mem_cons_of_mem _ inTail)
              writer (List.mem_cons_of_mem _ inTail'))
          later]
        have kept :=
          sources copy member head (List.mem_cons_self ..) _ read
        simp [run, kept]

end BlockCopy

end PyKvCache.Library
