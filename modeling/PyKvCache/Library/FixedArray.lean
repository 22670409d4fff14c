import Mathlib.Data.List.Basic
import Mathlib.Tactic.Common

/-!
# Arrays of a fixed length and assignments to slices

An assignment to a slice never changes the length of an array.  A slice is cut
off at the end of the array, and the values assigned to it have to fill what
is left of it; a single value is repeated.
-/

namespace PyKvCache.Library

/-- A list of exactly `length` items. -/
structure FixedArray (item : Type) (length : Nat) where
  items : List item
  sized : items.length = length

namespace FixedArray

variable {item : Type} {length : Nat}

/-- The array with `values` from the place `start` on. -/
def splice (array : FixedArray item length) (start : Nat)
    (values : List item) (fits : values.length ≤ length - start) :
    FixedArray item length where
  items :=
    array.items.take start ++ values ++
      array.items.drop (start + values.length)
  sized := by
    have sized := array.sized
    simp only [List.length_append, List.length_take, List.length_drop]
    omega

/-- `array[start:stop] = value`. -/
def fillSlice (array : FixedArray item length) (start stop : Nat)
    (value : item) : FixedArray item length :=
  array.splice start (List.replicate (min stop length - start) value) (by
    rw [List.length_replicate]
    omega)

/-- `array[start:stop] = values`, unless the shapes do not fit. -/
def assignSlice (array : FixedArray item length) (start stop : Nat)
    (values : List item) : Option (FixedArray item length) :=
  if fits : values.length = min stop length - start then
    some (array.splice start values (by omega))
  else
    match values with
    | [value] => some (array.fillSlice start stop value)
    | _ => none

variable {array : FixedArray item length} {before : List item}

/-- What was in front of the slice stays in front of it. -/
theorem prefix_splice {values : List item} (held : before <+: array.items)
    (fits : values.length ≤ length - before.length) :
    before ++ values <+:
      (array.splice before.length values fits).items := by
  have front : array.items.take before.length = before :=
    (List.prefix_iff_eq_take.mp held).symm
  change before ++ values <+:
    array.items.take before.length ++ values ++ _
  rw [front]
  exact List.prefix_append _ _

/-- Values that are assigned behind what the array holds. -/
theorem assignSlice_prefix (values : List item)
    (held : before <+: array.items)
    (room : before.length + values.length ≤ length) :
    ∃ after,
      array.assignSlice before.length (before.length + values.length)
        values = some after ∧
      before ++ values <+: after.items := by
  have fits : values.length =
      min (before.length + values.length) length - before.length := by
    omega
  have exact : array.assignSlice before.length
      (before.length + values.length) values =
        some (array.splice before.length values (by omega)) := by
    rw [assignSlice, dif_pos fits]
  exact ⟨_, exact, prefix_splice held (by omega)⟩

/-- A value that is repeated behind what the array holds. -/
theorem fillSlice_prefix (count : Nat) (value : item)
    (held : before <+: array.items)
    (room : before.length + count ≤ length) :
    before ++ List.replicate count value <+:
      (array.fillSlice before.length (before.length + count)
        value).items := by
  have filled := @prefix_splice item length array before
    (List.replicate (min (before.length + count) length - before.length)
      value) held (by rw [List.length_replicate]; omega)
  have repeated : List.replicate
      (min (before.length + count) length - before.length) value =
        List.replicate count value := by
    congr 1
    omega
  rw [← repeated]
  exact filled

end FixedArray

end PyKvCache.Library
