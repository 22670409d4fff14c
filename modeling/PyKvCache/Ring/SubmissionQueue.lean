import PyKvCache.Library.WrappingCounter

/-!
# The submission queue of a ring

`LiburingRing.queue_rw`, `queue_openat` and `queue_close` write one entry into
the ring that the kernel reads, and `submit_pending` tells the kernel how many
new entries there are.  The two shared counters are 32-bit and wrap;
`_begin_sqe` subtracts them as Python integers.

The kernel side is the answer of `io_uring_enter`: it takes any number of the
submitted entries, or fails and takes none.  Two histories are kept beside the
ring: every entry that was committed, and every entry as the kernel read it.
-/

namespace PyKvCache.Ring

open PyKvCache.Library

/-- `_IoUringSqe`; all zero after the `memset`. -/
structure Sqe where
  opcode : UInt8 := 0
  flags : UInt8 := 0
  ioprio : UInt16 := 0
  fd : Int32 := 0
  off : UInt64 := 0
  addr : UInt64 := 0
  len : UInt32 := 0
  rwFlags : UInt32 := 0
  userData : UInt64 := 0
  bufIndex : UInt16 := 0
  personality : UInt16 := 0
  spliceFdIn : Int32 := 0
  addr3 : UInt64 := 0
  resv : UInt64 := 0
  deriving DecidableEq

def opRead : UInt8 := 22
def opWrite : UInt8 := 23
def opOpenat : UInt8 := 18
def opClose : UInt8 := 19
def sqeAsync : UInt8 := 1 <<< (4 : UInt8)
def atFdcwd : Int := -100

/-- An `OSError` with its `errno` and text. -/
structure RingError where
  errno : Nat
  text : String
  deriving DecidableEq

/-- What `_enter` raises. -/
def enterFailed (errno : Nat) : RingError :=
  ⟨errno, "io_uring_enter failed"⟩

/-- `EAGAIN`; `OSError` with it is a `BlockingIOError`. -/
def submissionQueueFull : RingError :=
  ⟨11, "io_uring submission queue is full"⟩

/-- The keyword arguments of the three `queue_*` methods.  The `ptr` of
`queue_rw` is a `c_void_p`, whose `value` is `None` for the null pointer. -/
inductive Request where
  | rw (userData : Int) (fd : Int) (ptr : Option Nat) (nbytes : Int)
      (write : Bool)
  | openat (userData : Int) (pathPtr : Int) (openFlags : Int)
      (mode : Int) (dirfd : Int)
  | close (userData : Int) (fd : Int)
  deriving DecidableEq

/-- The assignments each method makes to the zeroed entry.  `ctypes` stores an
integer modulo the width of the field. -/
def Request.fill : Request → Sqe → Sqe
  | .rw userData fd ptr nbytes write, sqe =>
      { sqe with
        opcode := if write then opWrite else opRead
        flags := sqeAsync
        fd := Int32.ofInt fd
        off := 0
        addr := UInt64.ofNat (ptr.getD 0)
        len := UInt32.ofInt nbytes
        userData := UInt64.ofInt userData }
  | .openat userData pathPtr openFlags mode dirfd, sqe =>
      { sqe with
        opcode := opOpenat
        flags := sqeAsync
        fd := Int32.ofInt dirfd
        off := 0
        addr := UInt64.ofInt pathPtr
        len := UInt32.ofInt mode
        rwFlags := UInt32.ofInt openFlags
        userData := UInt64.ofInt userData }
  | .close userData fd, sqe =>
      { sqe with
        opcode := opClose
        fd := Int32.ofInt fd
        userData := UInt64.ofInt userData }

/-- The answer of the `io_uring_enter` system call: minus one with an `errno`,
or the number of entries the kernel took. -/
inductive Entered where
  | failed (errno : Nat)
  | consumed (submitted : Nat)
  deriving DecidableEq

/-- The submission side of a ring: the shared words and arrays, the Python
counter, and the two histories. -/
structure SubmissionQueue where
  head : UInt32
  tail : UInt32
  sqEntries : Nat
  sqArray : Nat → Nat
  sqes : Nat → Sqe
  pendingSubmit : Nat
  committed : List Sqe
  consumed : List Sqe
  powerOfTwo : ∃ bits, bits ≤ 31 ∧ sqEntries = 2 ^ bits

namespace SubmissionQueue

variable (queue : SubmissionQueue)

/-- `_sq_mask[0]`. -/
def mask : Nat :=
  queue.sqEntries - 1

/-- How many entries the kernel has not taken yet. -/
def occupied : Nat :=
  wrappingDistance queue.head queue.tail

/-- The entry of `_sq_array` that is `offset` places behind the head. -/
def place (offset : Nat) : Nat :=
  ringIndex queue.sqEntries queue.head offset

/-- The entries the kernel has not taken yet, as it will read them: through
`_sq_array`, from the head on. -/
def waiting : List Sqe :=
  (List.range queue.occupied).map fun offset =>
    queue.sqes (queue.sqArray (queue.place offset))

/-- The kernel takes the next `submitted` entries. -/
def take (submitted : Nat) : SubmissionQueue :=
  { queue with
    head := queue.head + UInt32.ofNat submitted
    consumed := queue.consumed ++ queue.waiting.take submitted }

/-- `_enter`. -/
def enter : Entered → Except RingError Unit × SubmissionQueue
  | .failed errno => (.error (enterFailed errno), queue)
  | .consumed submitted =>
      (.ok (),
        { queue.take submitted with
          pendingSubmit := queue.pendingSubmit - submitted })

/-- `submit_pending`. -/
def submitPending (entered : Entered) :
    Except RingError Unit × SubmissionQueue :=
  if queue.pendingSubmit = 0 then
    (.ok (), queue)
  else
    queue.enter entered

/-- `tail - head >= self._params.sq_entries`, on Python integers. -/
def looksFull : Prop :=
  (queue.sqEntries : Int) ≤ (queue.tail.toNat : Int) - queue.head.toNat

instance : Decidable queue.looksFull :=
  inferInstanceAs (Decidable (_ ≤ _))

/-- The end of `_begin_sqe`: the index and the tail it returns, and the zeroed
entry. -/
def zeroSqe : Except RingError (Nat × Nat) × SubmissionQueue :=
  let index := queue.tail.toNat &&& queue.mask
  (.ok (index, queue.tail.toNat),
    { queue with sqes := Function.update queue.sqes index {} })

/-- `_begin_sqe`. -/
def beginSqe (entered : Entered) :
    Except RingError (Nat × Nat) × SubmissionQueue :=
  if queue.looksFull then
    match queue.submitPending entered with
    | (.error error, flushed) => (.error error, flushed)
    | (.ok (), flushed) =>
        if flushed.looksFull then
          (.error submissionQueueFull, flushed)
        else
          flushed.zeroSqe
  else
    queue.zeroSqe

/-- The assignments through the `sqe` reference. -/
def fillSqe (request : Request) (index : Nat) : SubmissionQueue :=
  { queue with
    sqes :=
      Function.update queue.sqes index (request.fill (queue.sqes index)) }

/-- `_commit_sqe`. -/
def commitSqe (index tail : Nat) : SubmissionQueue :=
  { queue with
    sqArray := Function.update queue.sqArray index index
    tail := UInt32.ofNat (tail + 1)
    pendingSubmit := queue.pendingSubmit + 1
    committed := queue.committed ++ [queue.sqes index] }

/-- `queue_rw`, `queue_openat` and `queue_close`; `entered` is the answer of
the kernel in case the call flushes. -/
def queueSqe (request : Request) (entered : Entered) :
    Except RingError Unit × SubmissionQueue :=
  match queue.beginSqe entered with
  | (.error error, stopped) => (.error error, stopped)
  | (.ok (index, tail), begun) =>
      (.ok (), (begun.fillSqe request index).commitSqe index tail)

/-- The kernel takes at most what the call submits, a `c_uint32`, and at most
what the ring holds. -/
def Allows : Entered → Prop
  | .failed _ => True
  | .consumed submitted =>
      submitted ≤ (UInt32.ofNat queue.pendingSubmit).toNat ∧
        submitted ≤ queue.occupied

instance (entered : Entered) : Decidable (queue.Allows entered) :=
  match entered with
  | .failed _ => inferInstanceAs (Decidable True)
  | .consumed _ => inferInstanceAs (Decidable (_ ∧ _))

/-! ## What the ring promises -/

/-- Every committed entry was read by the kernel as it was written, or waits in
the ring, in order; and the counter is the number of those that wait. -/
structure Accounts : Prop where
  history : queue.committed = queue.consumed ++ queue.waiting
  pending : queue.pendingSubmit = queue.waiting.length

/-- What one call of a `queue_*` method owes: the entry it takes stands for no
entry that waits, what it commits is the request, and when it raises the ring
is full after the flush. -/
structure QueuesRight (request : Request) (entered : Entered) : Prop where
  fresh :
    ∀ index tail begun,
      queue.beginSqe entered = (.ok (index, tail), begun) →
        ∀ offset, offset < begun.occupied →
          begun.place offset ≠ index ∧
            begun.sqArray (begun.place offset) ≠ index
  commits :
    ∀ queued,
      queue.queueSqe request entered = (.ok (), queued) →
        queued.committed = queue.committed ++ [request.fill {}]
  raises :
    ∀ error stopped,
      queue.queueSqe request entered = (.error error, stopped) →
        stopped = (queue.submitPending entered).2 ∧
          stopped.occupied = stopped.sqEntries

/-- The ring is full, and the tail has wrapped while the head has not. -/
def FullAcrossWrap : Prop :=
  queue.occupied = queue.sqEntries ∧
    queue.tail.toNat < queue.head.toNat

instance : Decidable queue.FullAcrossWrap :=
  inferInstanceAs (Decidable (_ ∧ _))

/-- A ring that was not used yet; the counters may stand anywhere. -/
structure Started : Prop where
  empty : queue.head = queue.tail
  pending : queue.pendingSubmit = 0
  committed : queue.committed = []
  consumed : queue.consumed = []

/-- The states that calls lead to, with every answer the kernel may give, when
the `queue_*` methods are only called in states that meet a condition. -/
inductive Reaches (Meets : SubmissionQueue → Prop)
    (start : SubmissionQueue) : SubmissionQueue → Prop
  | refl : Reaches Meets start start
  | submit {queue : SubmissionQueue} (entered : Entered) :
      Reaches Meets start queue → queue.Allows entered →
      Reaches Meets start (queue.submitPending entered).2
  | queue {queue : SubmissionQueue}
      (request : Request) (entered : Entered) :
      Reaches Meets start queue → queue.Allows entered → Meets queue →
      Reaches Meets start (queue.queueSqe request entered).2

theorem Reaches.mono
    {Meets Allowed : SubmissionQueue → Prop}
    {start queue : SubmissionQueue}
    (weaker : ∀ state, Meets state → Allowed state)
    (reached : Reaches Meets start queue) :
    Reaches Allowed start queue := by
  induction reached with
  | refl => exact .refl
  | submit entered _ allowed inductionHypothesis =>
      exact .submit entered inductionHypothesis allowed
  | queue request entered _ allowed meets inductionHypothesis =>
      exact .queue request entered inductionHypothesis allowed
        (weaker _ meets)

/-! ## The kernel takes entries -/

theorem wordSized :
    ∃ bits, bits ≤ 32 ∧ queue.sqEntries = 2 ^ bits := by
  obtain ⟨bits, small, equal⟩ := queue.powerOfTwo
  exact ⟨bits, by omega, equal⟩

theorem sqEntries_lt : queue.sqEntries < 2 ^ 32 := by
  obtain ⟨bits, small, equal⟩ := queue.powerOfTwo
  rw [equal]
  exact Nat.pow_lt_pow_right (by omega) (by omega)

theorem sqEntries_pos : 0 < queue.sqEntries :=
  entries_pos_of_powerOfTwo queue.wordSized

theorem place_take (submitted offset : Nat) :
    (queue.take submitted).place offset =
      queue.place (submitted + offset) :=
  ringIndex_add_head queue.sqEntries queue.head submitted offset

section Take

variable {queue}

@[simp] theorem length_waiting :
    queue.waiting.length = queue.occupied := by
  simp [waiting]

theorem occupied_take {submitted : Nat}
    (enough : submitted ≤ queue.occupied) :
    (queue.take submitted).occupied = queue.occupied - submitted :=
  wrappingDistance_add_head enough

theorem waiting_take {submitted : Nat}
    (enough : submitted ≤ queue.occupied) :
    (queue.take submitted).waiting = queue.waiting.drop submitted := by
  apply List.ext_getElem
  · rw [length_waiting, List.length_drop, length_waiting,
      occupied_take enough]
  · intro position _ _
    simp only [waiting, List.getElem_map, List.getElem_range,
      List.getElem_drop, place_take]
    rfl

/-- The entry `_begin_sqe` takes is the one behind the last that waits. -/
theorem tail_and_mask :
    queue.tail.toNat &&& queue.mask = queue.place queue.occupied := by
  rw [mask, and_pred_entries queue.wordSized, place, occupied,
    ringIndex_distance]

end Take

/-- The invariant of a ring that is used as it should be: the books are right,
the ring holds no more than its size, and `_sq_array` is the identity where an
entry waits. -/
structure Sound : Prop extends queue.Accounts where
  room : queue.occupied ≤ queue.sqEntries
  array :
    ∀ offset, offset < queue.occupied →
      queue.sqArray (queue.place offset) = queue.place offset

section Keeps

variable {queue} (sound : queue.Sound)
include sound

theorem Sound.enter {entered : Entered}
    (allowed : queue.Allows entered) :
    (queue.enter entered).2.Sound := by
  cases entered with
  | failed errno => exact sound
  | consumed submitted =>
      have enough : submitted ≤ queue.occupied := allowed.2
      have counted := sound.pending
      have left := occupied_take enough
      have later := waiting_take enough
      constructor
      · constructor
        · change queue.committed =
            (queue.consumed ++ queue.waiting.take submitted) ++
              (queue.take submitted).waiting
          rw [later, List.append_assoc, List.take_append_drop]
          exact sound.history
        · change queue.pendingSubmit - submitted =
            (queue.take submitted).waiting.length
          rw [length_waiting] at counted ⊢
          omega
      · change (queue.take submitted).occupied ≤ queue.sqEntries
        have room := sound.room
        omega
      · intro offset waits
        change offset < (queue.take submitted).occupied at waits
        have place := queue.place_take submitted offset
        change queue.sqArray ((queue.take submitted).place offset) =
          (queue.take submitted).place offset
        rw [place]
        exact sound.array _ (by omega)

theorem Sound.submitPending {entered : Entered}
    (allowed : queue.Allows entered) :
    (queue.submitPending entered).2.Sound := by
  rw [SubmissionQueue.submitPending]
  by_cases idle : queue.pendingSubmit = 0
  · rw [if_pos idle]
    exact sound
  · rw [if_neg idle]
    exact sound.enter allowed

/-- The test of `_begin_sqe` is right unless the ring is full across the
wrap. -/
theorem Sound.looksFull_iff :
    queue.looksFull ↔
      queue.occupied = queue.sqEntries ∧
        queue.head.toNat ≤ queue.tail.toNat := by
  have room := sound.room
  have positive := queue.sqEntries_pos
  rcases Nat.lt_or_ge queue.tail.toNat queue.head.toNat with
    wrapped | ordered
  · constructor
    · intro full
      rw [looksFull] at full
      omega
    · intro full
      omega
  · have distance := wrappingDistance_of_le ordered
    rw [looksFull]
    rw [occupied] at room ⊢
    omega

end Keeps

/-! ## One call of a `queue_*` method -/

/-- What the method does once `_begin_sqe` has found room. -/
def putSqe (request : Request) : SubmissionQueue :=
  let index := queue.tail.toNat &&& queue.mask
  (queue.zeroSqe.2.fillSqe request index).commitSqe index
    queue.tail.toNat

section Put

variable {queue} (request : Request)

theorem sqes_putSqe :
    (queue.putSqe request).sqes =
      Function.update queue.sqes (queue.place queue.occupied)
        (request.fill {}) := by
  simp [putSqe, zeroSqe, fillSqe, commitSqe, tail_and_mask]

theorem sqArray_putSqe :
    (queue.putSqe request).sqArray =
      Function.update queue.sqArray (queue.place queue.occupied)
        (queue.place queue.occupied) := by
  simp [putSqe, zeroSqe, fillSqe, commitSqe, tail_and_mask]

theorem committed_putSqe :
    (queue.putSqe request).committed =
      queue.committed ++ [request.fill {}] := by
  simp [putSqe, zeroSqe, fillSqe, commitSqe]

/-- A place that waits is not the place behind the last one. -/
theorem place_ne_place_occupied {offset : Nat}
    (notFull : queue.occupied < queue.sqEntries)
    (waits : offset < queue.occupied) :
    queue.place offset ≠ queue.place queue.occupied := by
  intro equal
  have same :=
    ringIndex_injective queue.wordSized
      (Nat.lt_trans waits notFull) notFull equal
  omega

theorem occupied_putSqe (notFull : queue.occupied < queue.sqEntries) :
    (queue.putSqe request).occupied = queue.occupied + 1 := by
  have word := queue.sqEntries_lt
  have room : wrappingDistance queue.head queue.tail + 1 < 2 ^ 32 := by
    rw [occupied] at notFull
    omega
  exact wrappingDistance_succ_tail room

theorem waiting_putSqe
    (sound : queue.Sound)
    (notFull : queue.occupied < queue.sqEntries) :
    (queue.putSqe request).waiting =
      queue.waiting ++ [request.fill {}] := by
  rw [waiting, occupied_putSqe request notFull, List.range_succ,
    List.map_append, List.map_singleton, sqes_putSqe, sqArray_putSqe]
  congr 1
  · apply List.map_congr_left
    intro offset listed
    have waits := List.mem_range.mp listed
    have other := place_ne_place_occupied notFull waits
    change Function.update queue.sqes _ _
      (Function.update queue.sqArray _ _ (queue.place offset)) = _
    rw [Function.update_of_ne other, sound.array offset waits,
      Function.update_of_ne other]
  · change [Function.update queue.sqes _ _
      (Function.update queue.sqArray _ _ (queue.place queue.occupied))] =
        _
    rw [Function.update_self, Function.update_self]

theorem Sound.putSqe
    (sound : queue.Sound)
    (notFull : queue.occupied < queue.sqEntries) :
    (queue.putSqe request).Sound := by
  have longer := occupied_putSqe request notFull
  have pending := sound.pending
  constructor
  · constructor
    · rw [committed_putSqe, waiting_putSqe request sound notFull,
        ← List.append_assoc]
      exact congrArg (· ++ [request.fill {}]) sound.history
    · change queue.pendingSubmit + 1 = _
      rw [length_waiting] at pending ⊢
      omega
  · change (queue.putSqe request).occupied ≤ queue.sqEntries
    omega
  · intro offset waits
    rw [sqArray_putSqe]
    change Function.update queue.sqArray _ _ (queue.place offset) =
      queue.place offset
    by_cases last : offset = queue.occupied
    · rw [last, Function.update_self]
    · have before : offset < queue.occupied := by omega
      rw [Function.update_of_ne
        (place_ne_place_occupied notFull before)]
      exact sound.array offset before

end Put

theorem queueSqe_of_begun
    {queue begun : SubmissionQueue}
    {request : Request} {entered : Entered}
    (found : queue.beginSqe entered = begun.zeroSqe) :
    queue.queueSqe request entered = (.ok (), begun.putSqe request) := by
  rw [queueSqe, found]
  rfl

/-- What `_begin_sqe` does in a sound ring that is not full across the wrap: it
takes an entry of a ring with room, or raises with a ring that is full after
the flush. -/
theorem Sound.beginSqe_cases
    {queue : SubmissionQueue}
    (sound : queue.Sound)
    {entered : Entered}
    (allowed : queue.Allows entered)
    (ahead : ¬ queue.FullAcrossWrap) :
    (∃ begun : SubmissionQueue,
      begun.Sound ∧ begun.occupied < begun.sqEntries ∧
        begun.committed = queue.committed ∧
        queue.beginSqe entered = begun.zeroSqe) ∨
    ∃ error,
      queue.beginSqe entered =
          (.error error, (queue.submitPending entered).2) ∧
        (queue.submitPending entered).2.occupied =
          (queue.submitPending entered).2.sqEntries := by
  have positive := queue.sqEntries_pos
  have flushes := sound.submitPending allowed
  rw [beginSqe]
  by_cases full : queue.looksFull
  · have filled := (sound.looksFull_iff.mp full).1
    have pending : queue.pendingSubmit ≠ 0 := by
      have counted := sound.pending
      rw [length_waiting] at counted
      omega
    have entering : queue.submitPending entered = queue.enter entered :=
      if_neg pending
    rw [if_pos full]
    rw [entering] at flushes ⊢
    cases entered with
    | failed errno =>
        exact .inr ⟨enterFailed errno, rfl, filled⟩
    | consumed submitted =>
        have left := occupied_take allowed.2
        by_cases still : (queue.enter (.consumed submitted)).2.looksFull
        · right
          exact ⟨submissionQueueFull, if_pos still,
            (flushes.looksFull_iff.mp still).1⟩
        · left
          have moved : submitted ≠ 0 := by
            intro none
            apply still
            subst none
            change (queue.sqEntries : Int) ≤
              (queue.tail.toNat : Int) -
                (queue.head + UInt32.ofNat 0).toNat
            simpa [looksFull] using full
          refine ⟨(queue.enter (.consumed submitted)).2, flushes, ?_,
            rfl, if_neg still⟩
          change (queue.take submitted).occupied < queue.sqEntries
          omega
  · have room := sound.room
    have notFull : queue.occupied < queue.sqEntries := by
      rw [sound.looksFull_iff] at full
      rw [FullAcrossWrap] at ahead
      omega
    rw [if_neg full]
    exact .inl ⟨queue, sound, notFull, rfl, rfl⟩

theorem Sound.queueSqe
    {queue : SubmissionQueue}
    (sound : queue.Sound)
    (request : Request)
    {entered : Entered}
    (allowed : queue.Allows entered)
    (ahead : ¬ queue.FullAcrossWrap) :
    (queue.queueSqe request entered).2.Sound := by
  rcases sound.beginSqe_cases allowed ahead with
    ⟨begun, begunSound, notFull, _, found⟩ | ⟨error, stopped, _⟩
  · rw [queueSqe_of_begun found]
    exact begunSound.putSqe request notFull
  · rw [SubmissionQueue.queueSqe, stopped]
    exact sound.submitPending allowed

theorem Sound.queuesRight
    {queue : SubmissionQueue}
    (sound : queue.Sound)
    (request : Request)
    {entered : Entered}
    (allowed : queue.Allows entered)
    (ahead : ¬ queue.FullAcrossWrap) :
    queue.QueuesRight request entered := by
  rcases sound.beginSqe_cases allowed ahead with
    ⟨begun, begunSound, notFull, kept, found⟩ | ⟨error, stopped, full⟩
  · have queued :=
      @queueSqe_of_begun queue begun request entered found
    constructor
    · intro index tail written taken offset waits
      rw [found, zeroSqe] at taken
      cases taken
      change offset < begun.occupied at waits
      have other := place_ne_place_occupied notFull waits
      rw [← tail_and_mask] at other
      refine ⟨other, ?_⟩
      change begun.sqArray (begun.place offset) ≠ _
      rw [begunSound.array offset waits]
      exact other
    · intro after result
      rw [queued] at result
      cases result
      rw [committed_putSqe, kept]
    · intro error after result
      rw [queued] at result
      cases result
  · have raised :
        queue.queueSqe request entered =
          (.error error, (queue.submitPending entered).2) := by
      rw [SubmissionQueue.queueSqe, stopped]
    constructor
    · intro index tail begun taken
      rw [stopped] at taken
      cases taken
    · intro after result
      rw [raised] at result
      cases result
    · intro error after result
      rw [raised] at result
      cases result
      exact ⟨rfl, full⟩

/-- Full across the wrap the test sees an empty ring, and the entry taken is
the oldest that waits. -/
theorem Sound.not_queuesRight
    {queue : SubmissionQueue}
    (sound : queue.Sound)
    (request : Request) (entered : Entered)
    (across : queue.FullAcrossWrap) :
    ¬ queue.QueuesRight request entered := by
  intro right
  have positive := queue.sqEntries_pos
  obtain ⟨full, wrapped⟩ := across
  have missed : ¬ queue.looksFull := by
    rw [sound.looksFull_iff]
    omega
  have found : queue.beginSqe entered = queue.zeroSqe := if_neg missed
  have other :=
    (right.fresh _ _ _ (by rw [found, zeroSqe]) 0
      (by change 0 < queue.occupied; omega)).1
  apply other
  rw [tail_and_mask, full]
  exact (ringIndex_entries queue.wordSized queue.head).symm

theorem Started.sound {queue : SubmissionQueue}
    (started : queue.Started) :
    queue.Sound := by
  have none : queue.occupied = 0 := by
    simp [occupied, wrappingDistance, started.empty]
  have nothing : queue.waiting = [] := by
    rw [waiting, none]
    rfl
  constructor
  · constructor
    · rw [started.committed, started.consumed, nothing]
      rfl
    · rw [started.pending, nothing]
      rfl
  · omega
  · intro offset waits
    omega

theorem Reaches.sound
    {start queue : SubmissionQueue}
    (started : start.Started)
    (reached :
      Reaches (fun state => ¬ state.FullAcrossWrap) start queue) :
    queue.Sound := by
  induction reached with
  | refl => exact started.sound
  | submit entered _ allowed inductionHypothesis =>
      exact inductionHypothesis.submitPending allowed
  | queue request entered _ allowed ahead inductionHypothesis =>
      exact inductionHypothesis.queueSqe request allowed ahead

/-- As long as no request is queued into a ring that is full across the wrap,
no entry is lost or overwritten, the counter is right, and a call raises only
when the ring is full after the flush; and such a call is the only one that
goes wrong. -/
theorem never_loses_requests
    {start queue : SubmissionQueue}
    (started : start.Started)
    (reached :
      Reaches (fun state => ¬ state.FullAcrossWrap) start queue) :
    queue.Accounts ∧
      ∀ request entered, queue.Allows entered →
        (queue.QueuesRight request entered ↔ ¬ queue.FullAcrossWrap) := by
  have sound := reached.sound started
  refine ⟨sound.toAccounts, ?_⟩
  intro request entered allowed
  constructor
  · intro right across
    exact sound.not_queuesRight request entered across right
  · exact sound.queuesRight request allowed

/-- A new ring with one entry. -/
def firstRing : SubmissionQueue where
  head := 0
  tail := 0
  sqEntries := 1
  sqArray := fun _ => 0
  sqes := fun _ => {}
  pendingSubmit := 0
  committed := []
  consumed := []
  powerOfTwo := ⟨0, by decide, rfl⟩

theorem firstRing_started : firstRing.Started :=
  ⟨rfl, rfl, rfl, rfl⟩

/-- The conditions of the run theorem on a call that has to flush: the ring of
one entry holds a close, and the kernel takes it. -/
theorem never_loses_requests_firstRing :
    ((firstRing.queueSqe (.close 0 3) (.failed 4)).2).QueuesRight
      (.close 1 4) (.consumed 1) := by
  have reached :
      Reaches (fun state => ¬ state.FullAcrossWrap) firstRing
        (firstRing.queueSqe (.close 0 3) (.failed 4)).2 :=
    .queue _ _ .refl trivial (by decide)
  exact
    ((never_loses_requests firstRing_started reached).2 _ _
      (by decide)).mpr (by decide)

/-! ## The wrap -/

/-- An empty ring of one entry whose counters stand at `count`. -/
structure IdleAt (count : Nat) : Prop where
  entries : queue.sqEntries = 1
  head : queue.head = UInt32.ofNat count
  tail : queue.tail = UInt32.ofNat count

/-- Queueing a close into an idle ring of one entry. -/
theorem Sound.queueSqe_of_idle
    {queue : SubmissionQueue} {count : Nat}
    (sound : queue.Sound)
    (idle : queue.IdleAt count)
    (request : Request) (entered : Entered) :
    queue.queueSqe request entered = (.ok (), queue.putSqe request) ∧
      ¬ queue.FullAcrossWrap ∧ queue.occupied = 0 := by
  have none : queue.occupied = 0 := by
    simp [occupied, wrappingDistance, idle.head, idle.tail]
  have entries := idle.entries
  have missed : ¬ queue.looksFull := by
    rw [sound.looksFull_iff]
    omega
  refine ⟨queueSqe_of_begun (if_neg missed), ?_, none⟩
  intro across
  have full := across.1
  omega

/-- A close and a submit turn the counters one further. -/
theorem reaches_idleAt (count : Nat) :
    ∃ queue,
      Reaches (fun state => ¬ state.FullAcrossWrap) firstRing queue ∧
        queue.IdleAt count := by
  induction count with
  | zero => exact ⟨firstRing, .refl, rfl, rfl, rfl⟩
  | succ count inductionHypothesis =>
      obtain ⟨queue, reached, idle⟩ := inductionHypothesis
      have sound := reached.sound firstRing_started
      obtain ⟨queued, ahead, none⟩ :=
        sound.queueSqe_of_idle idle (.close 0 3) (.failed 4)
      have entries := idle.entries
      have holding :=
        Reaches.queue (.close 0 3) (.failed 4) reached trivial ahead
      rw [queued] at holding
      have filled := holding.sound firstRing_started
      have room : queue.occupied < queue.sqEntries := by omega
      have one : (queue.putSqe (.close 0 3)).occupied = 1 := by
        rw [occupied_putSqe _ room, none]
      have pending : (queue.putSqe (.close 0 3)).pendingSubmit = 1 := by
        rw [filled.pending, length_waiting, one]
      have allowed :
          (queue.putSqe (.close 0 3)).Allows (.consumed 1) := by
        rw [Allows, pending, one]
        decide
      have busy : (queue.putSqe (.close 0 3)).pendingSubmit ≠ 0 := by
        omega
      refine ⟨_, .submit (.consumed 1) holding allowed, ?_⟩
      rw [submitPending, if_neg busy]
      constructor
      · exact entries
      · change queue.head + UInt32.ofNat 1 = UInt32.ofNat (count + 1)
        rw [idle.head, UInt32.ofNat_add]
      · change UInt32.ofNat (queue.tail.toNat + 1) =
          UInt32.ofNat (count + 1)
        rw [idle.tail, UInt32.ofNat_add, UInt32.ofNat_toNat,
          UInt32.ofNat_add]

/-- After `2 ^ 32 - 1` requests the next one fills the ring of one entry across
the wrap, and the request after that is written over it. -/
theorem firstRing_overwrites :
    ¬ ∀ queue, Reaches (fun _ => True) firstRing queue →
        queue.Accounts ∧
          ∀ request entered, queue.Allows entered →
            queue.QueuesRight request entered := by
  intro always
  obtain ⟨queue, reached, idle⟩ := reaches_idleAt (2 ^ 32 - 1)
  have sound := reached.sound firstRing_started
  obtain ⟨queued, ahead, none⟩ :=
    sound.queueSqe_of_idle idle (.close 0 3) (.failed 4)
  have entries := idle.entries
  have holding :=
    Reaches.queue (.close 0 3) (.failed 4) reached trivial ahead
  rw [queued] at holding
  have filled := holding.sound firstRing_started
  have room : queue.occupied < queue.sqEntries := by omega
  have across : (queue.putSqe (.close 0 3)).FullAcrossWrap := by
    constructor
    · rw [occupied_putSqe _ room, none]
      exact entries.symm
    · change (UInt32.ofNat (queue.tail.toNat + 1)).toNat <
        queue.head.toNat
      rw [idle.head, idle.tail]
      decide
  have right :=
    (always _ (holding.mono fun _ _ => trivial)).2
      (.close 1 4) (.failed 4) trivial
  exact filled.not_queuesRight _ _ across right

end SubmissionQueue

end PyKvCache.Ring
