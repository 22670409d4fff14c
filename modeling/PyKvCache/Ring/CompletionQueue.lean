import PyKvCache.Library.WrappingCounter

/-!
# The completion-queue reader

`LiburingRing.poll_all` reads the two shared counters of the completion queue,
walks from `head` to `tail`, and publishes the final `head`.  The shared words
are 32-bit and wrap; the loop variable is a Python integer and does not.

The loop is run with a fuel argument, so that a loop that never meets its exit
test shows as `none` for every fuel.
-/

namespace PyKvCache.Ring

open PyKvCache.Library

/-- One completion as the reader returns it: `(user_data, res)`. -/
abbrev Completion := Nat × Int

/-- The completion queue as the reader finds it: both counters, the entries of
the ring, and the kernel's promise that it never has more completions pending
than the ring has room for. -/
structure CompletionQueue where
  head : UInt32
  tail : UInt32
  cqEntries : Nat
  cqes : Nat → Completion
  powerOfTwo : ∃ bits, bits ≤ 32 ∧ cqEntries = 2 ^ bits
  bounded : wrappingDistance head tail ≤ cqEntries

namespace CompletionQueue

variable (queue : CompletionQueue)

/-- `_cq_mask[0]`. -/
def mask : Nat :=
  queue.cqEntries - 1

/-- The body of the `while head != tail` loop, `fuel` times at most. -/
def pollLoop (tail : Nat) :
    Nat → Nat → List Completion → Option (Nat × List Completion)
  | 0, _, _ => none
  | fuel + 1, head, completions =>
      if head = tail then
        some (head, completions)
      else
        pollLoop tail fuel (head + 1)
          (completions ++ [queue.cqes (head &&& queue.mask)])

/-- `poll_all`: the published head and the completions it returns. -/
def pollAll (fuel : Nat) : Option (UInt32 × List Completion) :=
  if queue.head.toNat = queue.tail.toNat then
    some (queue.head, [])
  else
    match queue.pollLoop queue.tail.toNat fuel queue.head.toNat [] with
    | none => none
    | some (head, completions) => some (UInt32.ofNat head, completions)

/-- The ring index of the completion `offset` places after `head`. -/
def pendingIndex (offset : Nat) : Nat :=
  (queue.head.toNat + offset) % 2 ^ 32 % queue.cqEntries

/-- The completions the kernel has posted and nobody has reaped, in queue
order. -/
def pending : List Completion :=
  (List.range (wrappingDistance queue.head queue.tail)).map
    fun offset => queue.cqes (queue.pendingIndex offset)

/-- What the reader is for: it ends, returns the pending completions in queue
order, and publishes `head = tail`. -/
def PollsCorrectly : Prop :=
  ∃ fuel, queue.pollAll fuel = some (queue.tail, queue.pending)

theorem and_mask (index : Nat) :
    index &&& queue.mask = index % queue.cqEntries :=
  and_pred_entries queue.powerOfTwo index

theorem mod_wrap_mod_cqEntries (index : Nat) :
    index % 2 ^ 32 % queue.cqEntries = index % queue.cqEntries :=
  mod_wrap_mod_entries queue.powerOfTwo index

/-- Below the tail the loop collects the remaining entries and stops. -/
theorem pollLoop_of_le (tail : Nat) :
    ∀ (steps head : Nat) (completions : List Completion),
      head + steps = tail →
        queue.pollLoop tail (steps + 1) head completions =
          some (tail, completions ++
            (List.range steps).map fun offset =>
              queue.cqes ((head + offset) % queue.cqEntries)) := by
  intro steps
  induction steps with
  | zero =>
      intro head completions reached
      have equal : head = tail := by omega
      simp [pollLoop, equal]
  | succ steps inductionHypothesis =>
      intro head completions remaining
      have different : head ≠ tail := by omega
      have next :=
        inductionHypothesis (head + 1)
          (completions ++ [queue.cqes (head &&& queue.mask)])
          (by omega)
      rw [pollLoop, if_neg different, next, and_mask,
        List.range_succ_eq_map]
      simp [Nat.add_comm, Nat.add_left_comm, Function.comp_def]

/-- Above the tail the loop variable only moves away from its exit test. -/
theorem pollLoop_of_gt (tail : Nat) :
    ∀ (fuel head : Nat) (completions : List Completion),
      tail < head → queue.pollLoop tail fuel head completions = none := by
  intro fuel
  induction fuel with
  | zero =>
      intro head completions _
      rfl
  | succ fuel inductionHypothesis =>
      intro head completions above
      rw [pollLoop, if_neg (by omega)]
      exact inductionHypothesis (head + 1) _ (by omega)

theorem pending_of_le (ordered : queue.head.toNat ≤ queue.tail.toNat) :
    queue.pending =
      (List.range (queue.tail.toNat - queue.head.toNat)).map
        fun offset =>
          queue.cqes ((queue.head.toNat + offset) % queue.cqEntries) := by
  simp only [pending, pendingIndex, mod_wrap_mod_cqEntries,
    wrappingDistance_of_le ordered]

theorem pollAll_of_le (ordered : queue.head.toNat ≤ queue.tail.toNat) :
    queue.pollAll (queue.tail.toNat - queue.head.toNat + 1) =
      some (queue.tail, queue.pending) := by
  rw [pollAll, pending_of_le queue ordered]
  by_cases empty : queue.head.toNat = queue.tail.toNat
  · rw [if_pos empty, UInt32.toNat_inj.mp empty]
    simp
  · rw [if_neg empty,
      queue.pollLoop_of_le queue.tail.toNat
        (queue.tail.toNat - queue.head.toNat) queue.head.toNat [] (by omega)]
    simp

theorem pollAll_of_gt (wrapped : queue.tail.toNat < queue.head.toNat)
    (fuel : Nat) :
    queue.pollAll fuel = none := by
  have different : ¬ queue.head.toNat = queue.tail.toNat := by omega
  rw [pollAll, if_neg different,
    queue.pollLoop_of_gt queue.tail.toNat fuel queue.head.toNat [] wrapped]

/-- The reader is correct exactly while the tail has not wrapped past the head
it read. -/
theorem pollsCorrectly_iff :
    queue.PollsCorrectly ↔ queue.head.toNat ≤ queue.tail.toNat := by
  constructor
  · rintro ⟨fuel, result⟩
    by_contra wrapped
    rw [queue.pollAll_of_gt (by omega) fuel] at result
    cases result
  · intro ordered
    exact ⟨_, queue.pollAll_of_le ordered⟩

/-- One completion pending across the wrap: it sits at counter `2 ^ 32 - 1`
and the tail has become zero. -/
def wrappedQueue : CompletionQueue where
  head := 4294967295
  tail := 0
  cqEntries := 1
  cqes := fun _ => (7, 4096)
  powerOfTwo := ⟨0, by decide, rfl⟩
  bounded := by decide

/-- At the wrap the reader runs forever, although one completion is pending. -/
theorem wrappedQueue_never_polls :
    wrappedQueue.pending = [(7, 4096)] ∧
      (∀ fuel, wrappedQueue.pollAll fuel = none) ∧
      ¬ wrappedQueue.PollsCorrectly := by
  refine ⟨by decide, ?_, ?_⟩
  · exact wrappedQueue.pollAll_of_gt (by decide)
  · rintro ⟨fuel, result⟩
    rw [wrappedQueue.pollAll_of_gt (by decide) fuel] at result
    cases result

end CompletionQueue

end PyKvCache.Ring
