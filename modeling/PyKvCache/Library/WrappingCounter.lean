import Mathlib.Data.Int.ModEq
import Mathlib.Data.Nat.Bitwise
import Mathlib.Tactic.Common

/-!
# Free-running 32-bit counters

A producer and a consumer share two unsigned 32-bit words that only ever
increase by one and wrap modulo `2 ^ 32`.  The distance between them is taken
in the same arithmetic, so it is right on either side of the wrap; comparing
the two words as plain numbers is right only when no wrap lies between them.
-/

namespace PyKvCache.Library

/-- The number of steps from `head` to `tail` on the 32-bit circle. -/
def wrappingDistance (head tail : UInt32) : Nat :=
  (tail - head).toNat

theorem wrappingDistance_of_le {head tail : UInt32}
    (ordered : head.toNat ≤ tail.toNat) :
    wrappingDistance head tail = tail.toNat - head.toNat := by
  have headBound := head.toNat_lt
  have tailBound := tail.toNat_lt
  rw [wrappingDistance, UInt32.toNat_sub]
  omega

theorem wrappingDistance_of_lt {head tail : UInt32}
    (wrapped : tail.toNat < head.toNat) :
    wrappingDistance head tail =
      2 ^ 32 + tail.toNat - head.toNat := by
  have headBound := head.toNat_lt
  have tailBound := tail.toNat_lt
  rw [wrappingDistance, UInt32.toNat_sub]
  omega

/-- The words as places on the circle: the tail is the distance away from the
head. -/
theorem toNat_eq_head_add_distance (head tail : UInt32) :
    tail.toNat =
      (head.toNat + wrappingDistance head tail) % 2 ^ 32 := by
  have headBound := head.toNat_lt
  have tailBound := tail.toNat_lt
  rcases Nat.lt_or_ge tail.toNat head.toNat with wrapped | ordered
  · rw [wrappingDistance_of_lt wrapped]
    omega
  · rw [wrappingDistance_of_le ordered]
    omega

theorem toNat_add_ofNat (word : UInt32) (steps : Nat) :
    (word + UInt32.ofNat steps).toNat =
      (word.toNat + steps) % 2 ^ 32 := by
  rw [UInt32.toNat_add, UInt32.toNat_ofNat']
  omega

/-- The consumer advances. -/
theorem wrappingDistance_add_head
    {head tail : UInt32} {steps : Nat}
    (enough : steps ≤ wrappingDistance head tail) :
    wrappingDistance (head + UInt32.ofNat steps) tail =
      wrappingDistance head tail - steps := by
  have headBound := head.toNat_lt
  have tailBound := tail.toNat_lt
  have advanced := toNat_add_ofNat head steps
  rw [wrappingDistance, UInt32.toNat_sub] at enough ⊢
  rw [wrappingDistance, UInt32.toNat_sub, advanced]
  omega

/-- The producer advances by one. -/
theorem wrappingDistance_succ_tail
    {head tail : UInt32}
    (room : wrappingDistance head tail + 1 < 2 ^ 32) :
    wrappingDistance head (UInt32.ofNat (tail.toNat + 1)) =
      wrappingDistance head tail + 1 := by
  have headBound := head.toNat_lt
  have tailBound := tail.toNat_lt
  rw [wrappingDistance, UInt32.toNat_sub] at room ⊢
  rw [wrappingDistance, UInt32.toNat_sub, UInt32.toNat_ofNat']
  omega

/-! ## Entries of a ring -/

/-- The entry of a ring of `entries` places that the counter `offset` steps
after `head` stands for. -/
def ringIndex (entries : Nat) (head : UInt32) (offset : Nat) : Nat :=
  (head.toNat + offset) % 2 ^ 32 % entries

section Ring

variable {entries : Nat}
variable (powerOfTwo : ∃ bits, bits ≤ 32 ∧ entries = 2 ^ bits)
include powerOfTwo

theorem mod_wrap_mod_entries (index : Nat) :
    index % 2 ^ 32 % entries = index % entries := by
  obtain ⟨bits, small, equal⟩ := powerOfTwo
  rw [equal]
  exact Nat.mod_mod_of_dvd index (Nat.pow_dvd_pow 2 small)

/-- The mask the ring is indexed with. -/
theorem and_pred_entries (index : Nat) :
    index &&& (entries - 1) = index % entries := by
  obtain ⟨bits, _, equal⟩ := powerOfTwo
  rw [equal, Nat.and_two_pow_sub_one_eq_mod]

theorem entries_pos_of_powerOfTwo : 0 < entries := by
  obtain ⟨bits, _, equal⟩ := powerOfTwo
  rw [equal]
  exact Nat.two_pow_pos bits

/-- Distinct offsets within one turn are distinct entries. -/
theorem ringIndex_injective
    {head : UInt32} {left right : Nat}
    (leftBound : left < entries)
    (rightBound : right < entries)
    (equal : ringIndex entries head left =
      ringIndex entries head right) :
    left = right := by
  simp only [ringIndex, mod_wrap_mod_entries powerOfTwo] at equal
  have congruent : left ≡ right [MOD entries] :=
    Nat.ModEq.add_left_cancel' head.toNat equal
  exact Nat.ModEq.eq_of_lt_of_lt congruent leftBound rightBound

/-- One whole turn leads back to the same entry. -/
theorem ringIndex_entries (head : UInt32) :
    ringIndex entries head entries = ringIndex entries head 0 := by
  simp only [ringIndex, mod_wrap_mod_entries powerOfTwo]
  simp

end Ring

theorem ringIndex_add_head
    (entries : Nat) (head : UInt32) (steps offset : Nat) :
    ringIndex entries (head + UInt32.ofNat steps) offset =
      ringIndex entries head (steps + offset) := by
  rw [ringIndex, ringIndex, toNat_add_ofNat, Nat.mod_add_mod,
    Nat.add_assoc]

/-- The entry the tail stands for. -/
theorem ringIndex_distance
    (entries : Nat) (head tail : UInt32) :
    ringIndex entries head (wrappingDistance head tail) =
      tail.toNat % entries := by
  rw [ringIndex, ← toNat_eq_head_add_distance]

end PyKvCache.Library
