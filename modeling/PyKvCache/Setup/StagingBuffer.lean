import PyKvCache.Setup.SharedFileConfig
import PyKvCache.Transfer.RoundTrip
import Mathlib.Data.Rat.Floor

/-!
# The staging buffer

How many slots there are, where they lie, and the arrays that direct I/O reads
and writes.  Every slot is an aligned array of exactly one I/O, wherever the
allocator has put the memory behind the buffer.
-/

namespace PyKvCache.Setup

open PyKvCache.Library PyKvCache.Transfer

/-- What a constructor raises. -/
inductive SetupError where
  | valueError (message : String)
  | overflowError (message : String)
  | zeroDivisionError
  | indexError
  | runtimeError (message : String)
  | osError (message : String)
  deriving DecidableEq

/-! ## Alignment -/

/-- `DIRECT_IO_ALIGNMENT`. -/
def directIoAlignment : Nat := 4096

/-- `align_up`, to `DIRECT_IO_ALIGNMENT`. -/
def alignUp (value : Int) : Int :=
  (value + directIoAlignment - 1) / directIoAlignment * directIoAlignment

theorem le_alignUp (value : Int) : value ≤ alignUp value := by
  unfold alignUp directIoAlignment
  omega

theorem alignUp_of_dvd {value : Int} (aligned : value % 4096 = 0) :
    alignUp value = value := by
  unfold alignUp directIoAlignment
  omega

/-! ## The number of slots -/

/-- `value * (1 << 30)`: exact, unless it overflows. -/
def PyFloat.timesGib : PyFloat → PyFloat
  | .finite value =>
      if 2 ^ 1024 ≤ |value * 2 ^ 30| then
        .infinite (value < 0)
      else
        .finite (value * 2 ^ 30)
  | .infinite negative => .infinite negative
  | .nan => .nan

/-- `int(value)`. -/
def PyFloat.toInt : PyFloat → Except SetupError Int
  | .finite value => pure (if 0 ≤ value then ⌊value⌋ else ⌈value⌉)
  | .infinite _ =>
      throw (.overflowError "cannot convert float infinity to integer")
  | .nan => throw (.valueError "cannot convert float NaN to integer")

/-- `a // b`. -/
def floorDivide (a b : Int) : Except SetupError Int :=
  if b = 0 then throw .zeroDivisionError else pure (a.fdiv b)

/-- `StagingPool.compute_slot_count`: there are at least `min_slots`. -/
def computeSlotCount (stagingMemGib : PyFloat) (ioSize minSlots : Int) :
    Except SetupError { count : Nat // minSlots ≤ count ∧ 1 ≤ count } := do
  let stagingBytes ← stagingMemGib.timesGib.toInt
  let blocks ← floorDivide stagingBytes ioSize
  pure ⟨(max (max 1 minSlots) (max 1 blocks)).toNat, by omega⟩

/-! ## The buffer -/

/-- A two-dimensional `uint8` tensor without gaps. -/
structure StagingBuffer where
  dataPtr : Int
  slotCount : Nat
  slotBytes : Nat
  deriving DecidableEq

/-- `allocate_staging_buffer`, where `emptyPinned` is what `torch.empty` does
when it is asked for so many bytes: it raises, or its memory starts there. -/
def allocateStagingBuffer (torchCopyAvailable : Bool)
    (emptyPinned : Nat → Except SetupError Int) (layout : ParsedKvLayout)
    (slotCount : Nat) : Except SetupError StagingBuffer :=
  let slotBytes := layout.storageBlockBytes
  if torchCopyAvailable = false then
    throw (.runtimeError "vLLM and torch are required for GPU copy support")
  else if slotBytes % directIoAlignment ≠ 0 then
    throw (.valueError (s!"storage block size {slotBytes} is not " ++
      s!"divisible by direct-I/O alignment {directIoAlignment}"))
  else do
    let payloadBytes := slotCount * slotBytes
    let backing ← emptyPinned (payloadBytes + directIoAlignment - 1)
    let offset := -backing % directIoAlignment
    let aligned := backing + offset
    if aligned % directIoAlignment ≠ 0 then
      throw (.runtimeError "failed to align staging allocation")
    else
      pure ⟨aligned, slotCount, slotBytes⟩

/-- A one-dimensional `uint8` array without gaps. -/
structure ByteArrayView where
  address : Int
  nbytes : Nat
  deriving DecidableEq

/-- `staging_buffer[slot_index]`. -/
def StagingBuffer.row (buffer : StagingBuffer) (slotIndex : Int) :
    Except SetupError ByteArrayView :=
  let position := if slotIndex < 0 then slotIndex + buffer.slotCount
    else slotIndex
  if 0 ≤ position ∧ position < buffer.slotCount then
    pure ⟨buffer.dataPtr + position * buffer.slotBytes, buffer.slotBytes⟩
  else
    throw .indexError

/-- `storage_slot_view`. -/
def storageSlotView (layout : ParsedKvLayout) (buffer : StagingBuffer)
    (slotIndex : Int) : Except SetupError ByteArrayView := do
  let view ← buffer.row slotIndex
  if view.nbytes ≠ layout.storageBlockBytes then
    throw (.valueError (s!"staging slot view size {view.nbytes} does not " ++
      s!"match storage block size {layout.storageBlockBytes}"))
  else
    pure view

/-- `_validate_io_array`. -/
def validateIoArray (ioSize : Int) (array : ByteArrayView) :
    Except SetupError Unit :=
  if array.nbytes < ioSize then
    throw (.valueError "I/O array is smaller than aligned I/O size")
  else
    let remainder := array.address % directIoAlignment
    if remainder ≠ 0 then
      let address := String.ofList (Nat.toDigits 16 array.address.toNat)
      throw (.valueError ("I/O array is not aligned for direct I/O: " ++
        s!"address=0x{address}, alignment={directIoAlignment}, " ++
        s!"remainder={remainder}"))
    else
      pure ⟨⟩

/-- The memory one I/O of `io_size` bytes on an array reads or writes. -/
structure IoArray (layout : ParsedKvLayout) (buffer : StagingBuffer)
    (slotIndex : Int) (ioSize : Int) (array : ByteArrayView) : Prop where
  viewed : storageSlotView layout buffer slotIndex = .ok array
  valid : validateIoArray ioSize array = .ok ⟨⟩
  address : array.address = slotBase layout buffer.dataPtr slotIndex
  exact : (array.nbytes : Int) = ioSize
  aligned : array.address % directIoAlignment = 0 ∧
    ioSize % directIoAlignment = 0

section Allocated

variable {torchCopyAvailable : Bool}
  {emptyPinned : Nat → Except SetupError Int} {layout : ParsedKvLayout}
  {slotCount : Nat} {buffer : StagingBuffer}

theorem allocateStagingBuffer_eq_ok_iff :
    allocateStagingBuffer torchCopyAvailable emptyPinned layout slotCount =
        .ok buffer ↔
      torchCopyAvailable = true ∧ layout.storageBlockBytes % 4096 = 0 ∧
        ∃ backing,
          emptyPinned (slotCount * layout.storageBlockBytes + 4095) =
            .ok backing ∧
          buffer = ⟨backing + -backing % 4096, slotCount,
            layout.storageBlockBytes⟩ := by
  have aligns : ∀ backing : Int, (backing + -backing % 4096) % 4096 = 0 := by
    intro backing
    omega
  unfold allocateStagingBuffer
  rw [ite_throw_eq_ok_iff, ite_throw_eq_ok_iff, bind_eq_ok_iff]
  simp [directIoAlignment, aligns, pure, Except.pure, eq_comm (a := buffer)]

/-- The slots lie in the memory that was allocated. -/
theorem allocateStagingBuffer_inside
    (allocated : allocateStagingBuffer torchCopyAvailable emptyPinned layout
      slotCount = .ok buffer) :
    ∃ start,
      emptyPinned (slotCount * layout.storageBlockBytes + 4095) = .ok start ∧
      start ≤ buffer.dataPtr ∧
      buffer.dataPtr + slotCount * layout.storageBlockBytes ≤
        start + (slotCount * layout.storageBlockBytes + 4095 : Nat) := by
  obtain ⟨_, _, backing, answered, rfl⟩ :=
    allocateStagingBuffer_eq_ok_iff.mp allocated
  refine ⟨backing, answered, ?_, ?_⟩
  · simp only
    omega
  · push_cast
    omega

/-- Every slot can be read and written as it is. -/
theorem exists_ioArray
    (allocated : allocateStagingBuffer torchCopyAvailable emptyPinned layout
      slotCount = .ok buffer) (slot : Fin slotCount) :
    ∃ array, IoArray layout buffer slot.val
      (alignUp layout.storageBlockBytes) array := by
  obtain ⟨_, divides, backing, _, rfl⟩ :=
    allocateStagingBuffer_eq_ok_iff.mp allocated
  have whole : alignUp layout.storageBlockBytes =
      layout.storageBlockBytes := alignUp_of_dvd (by omega)
  have position : ¬ (slot.val : Int) < 0 := by omega
  have inside : 0 ≤ (slot.val : Int) ∧ (slot.val : Int) < slotCount := by
    omega
  have starts : (slotBase layout (backing + -backing % 4096) slot.val) %
      4096 = 0 := by
    unfold slotBase
    obtain ⟨blocks, same⟩ := Nat.dvd_of_mod_eq_zero divides
    rw [same, Nat.cast_mul, ← mul_assoc, mul_comm _ ((4096 : Nat) : Int),
      mul_assoc]
    omega
  refine ⟨⟨slotBase layout (backing + -backing % 4096) slot.val,
    layout.storageBlockBytes⟩, ?_, ?_, rfl, whole.symm, starts, ?_⟩
  · have row : StagingBuffer.row ⟨backing + -backing % 4096, slotCount,
        layout.storageBlockBytes⟩ slot.val =
          .ok ⟨slotBase layout (backing + -backing % 4096) slot.val,
            layout.storageBlockBytes⟩ := by
      unfold StagingBuffer.row
      rw [if_neg position, if_pos inside]
      rfl
    rw [storageSlotView, row]
    exact if_neg (not_not.mpr rfl)
  · unfold validateIoArray
    simp only [whole]
    rw [if_neg (by omega), if_neg]
    · rfl
    · exact not_not.mpr starts
  · rw [whole]
    unfold directIoAlignment
    omega

end Allocated

end PyKvCache.Setup
