import PyKvCache.Ring.CompletionQueue
import PyKvCache.Ring.SubmissionQueue
import Mathlib.Data.List.Perm.Subperm

/-!
# The round trip of a request

The two queues of a ring with the kernel between them.  The kernel works on
the entries it has taken, completes them in any order, and posts one
completion for each as long as the completion queue has room.  Histories are
kept of the requests that were accepted, of the completions that were posted,
and of what `poll_all` has returned.
-/

namespace PyKvCache.Ring

open PyKvCache.Library

/-! ## The completion queue from both sides -/

namespace CompletionQueue

variable {queue : CompletionQueue}

/-- The kernel posts a completion behind the last one. -/
def post (queue : CompletionQueue) (completion : Completion)
    (room : wrappingDistance queue.head queue.tail < queue.cqEntries) :
    CompletionQueue :=
  { queue with
    tail := UInt32.ofNat (queue.tail.toNat + 1)
    cqes := Function.update queue.cqes
      (queue.tail.toNat % queue.cqEntries) completion
    bounded := by
      by_cases wraps : wrappingDistance queue.head queue.tail + 1 < 2 ^ 32
      · rw [wrappingDistance_succ_tail wraps]
        exact room
      · obtain ⟨bits, small, entries⟩ := queue.powerOfTwo
        have most := Nat.pow_le_pow_right (show 0 < 2 by decide) small
        have word := (UInt32.ofNat (queue.tail.toNat + 1) -
          queue.head).toNat_lt
        rw [← entries] at most
        unfold wrappingDistance at room wraps ⊢
        omega }

theorem pollLoop_ends {tail fuel head ended : Nat}
    {before completions : List Completion}
    (ends : queue.pollLoop tail fuel head before =
      some (ended, completions)) : ended = tail := by
  induction fuel generalizing head before with
  | zero => cases ends
  | succ fuel inductionHypothesis =>
      rw [pollLoop] at ends
      split at ends
      next reached =>
        cases ends
        exact reached
      next => exact inductionHypothesis ends

/-- `poll_all` publishes the tail it read. -/
theorem pollAll_ends {fuel : Nat} {head : UInt32}
    {completions : List Completion}
    (polled : queue.pollAll fuel = some (head, completions)) :
    head = queue.tail := by
  unfold pollAll at polled
  split at polled
  next same =>
    cases polled
    exact UInt32.toNat_inj.mp same
  next =>
    split at polled
    next => cases polled
    next ended _ ends =>
      cases polled
      rw [pollLoop_ends ends, UInt32.ofNat_toNat]

private theorem pollLoop_once {tail fuel : Nat} :
    ∀ {other head : Nat} {before : List Completion}
      {left right : Nat × List Completion},
      queue.pollLoop tail fuel head before = some left →
        queue.pollLoop tail other head before = some right →
          left = right := by
  induction fuel with
  | zero =>
      intro other head before left right ends
      cases ends
  | succ fuel inductionHypothesis =>
      intro other head before left right ends otherEnds
      cases other with
      | zero => cases otherEnds
      | succ other =>
          rw [pollLoop] at ends otherEnds
          by_cases reached : head = tail
          · rw [if_pos reached] at ends otherEnds
            exact Option.some.inj (ends.symm.trans otherEnds)
          · rw [if_neg reached] at ends otherEnds
            exact inductionHypothesis ends otherEnds

/-- What `poll_all` returns does not depend on the fuel. -/
theorem pollAll_once {fuel other : Nat}
    {left right : UInt32 × List Completion}
    (returned : queue.pollAll fuel = some left)
    (otherReturned : queue.pollAll other = some right) : left = right := by
  unfold pollAll at returned otherReturned
  by_cases empty : queue.head.toNat = queue.tail.toNat
  · rw [if_pos empty] at returned otherReturned
    exact Option.some.inj (returned.symm.trans otherReturned)
  · rw [if_neg empty] at returned otherReturned
    split at returned
    next => cases returned
    next ended _ ends =>
      split at otherReturned
      next => cases otherReturned
      next otherEnded _ otherEnds =>
        have same := pollLoop_once ends otherEnds
        cases same
        exact Option.some.inj (returned.symm.trans otherReturned)

/-- The queue once `poll_all` has published a head. -/
def publish (queue : CompletionQueue) (head : UInt32)
    (ended : head = queue.tail) : CompletionQueue :=
  { queue with
    head := head
    bounded := by
      rw [ended, wrappingDistance_of_le (Nat.le_refl _), Nat.sub_self]
      exact Nat.zero_le _ }

theorem pending_publish {head : UInt32} (ended : head = queue.tail) :
    (queue.publish head ended).pending = [] := by
  subst ended
  unfold pending
  rw [show wrappingDistance (queue.publish queue.tail rfl).head
      (queue.publish queue.tail rfl).tail = 0 from by
    change wrappingDistance queue.tail queue.tail = 0
    rw [wrappingDistance_of_le (Nat.le_refl _), Nat.sub_self]]
  rfl

/-- What was pending stays where it is, and the new completion comes last. -/
theorem pending_post {completion : Completion}
    (room : wrappingDistance queue.head queue.tail < queue.cqEntries)
    (word : wrappingDistance queue.head queue.tail + 1 < 2 ^ 32) :
    (queue.post completion room).pending = queue.pending ++ [completion] := by
  have longer : wrappingDistance (queue.post completion room).head
      (queue.post completion room).tail =
        wrappingDistance queue.head queue.tail + 1 :=
    wrappingDistance_succ_tail word
  have last : queue.pendingIndex (wrappingDistance queue.head queue.tail) =
      queue.tail.toNat % queue.cqEntries :=
    ringIndex_distance queue.cqEntries queue.head queue.tail
  unfold pending
  rw [longer, List.range_succ, List.map_append, List.map_singleton]
  congr 1
  · apply List.map_congr_left
    intro offset listed
    have waits := List.mem_range.mp listed
    have other : queue.pendingIndex offset ≠
        queue.tail.toNat % queue.cqEntries := by
      intro same
      rw [← last] at same
      have equal := ringIndex_injective queue.powerOfTwo
        (Nat.lt_trans waits room) room same
      omega
    exact Function.update_of_ne other _ _
  · change [Function.update queue.cqes _ completion (queue.pendingIndex _)] =
      [completion]
    rw [last, Function.update_self]

end CompletionQueue

/-! ## The whole ring -/

/-- `user_data`, as the kernel echoes it. -/
def Request.token (request : Request) : Nat :=
  (request.fill {}).userData.toNat

/-- A completion of an entry. -/
def echo (posted : Sqe × Int) : Completion :=
  (posted.1.userData.toNat, posted.2)

/-- A ring and the kernel behind it, with the histories. -/
structure LiveRing where
  submission : SubmissionQueue
  completion : CompletionQueue
  accepted : List Request
  working : List Sqe
  posted : List (Sqe × Int)
  reported : List Completion

namespace LiveRing

variable (ring : LiveRing)

/-- The kernel has taken further entries. -/
def hands (submission : SubmissionQueue) : LiveRing :=
  { ring with
    submission := submission
    working := ring.working ++
      submission.consumed.drop ring.submission.consumed.length }

/-- `submit_pending`. -/
def submitPending (entered : Entered) : LiveRing :=
  ring.hands (ring.submission.submitPending entered).2

/-- `queue_rw`, `queue_openat` and `queue_close`. -/
def queueSqe (request : Request) (entered : Entered) : LiveRing :=
  match ring.submission.queueSqe request entered with
  | (.ok (), submission) =>
      { ring.hands submission with accepted := ring.accepted ++ [request] }
  | (.error _, submission) => ring.hands submission

/-- The kernel completes an entry it works on. -/
def complete (sqe : Sqe) (res : Int)
    (room : wrappingDistance ring.completion.head ring.completion.tail <
      ring.completion.cqEntries) : LiveRing :=
  { ring with
    working := ring.working.erase sqe
    completion := ring.completion.post (echo (sqe, res)) room
    posted := ring.posted ++ [(sqe, res)] }

/-- `poll_all`. -/
def pollAll (fuel : Nat) : Option LiveRing :=
  match polled : ring.completion.pollAll fuel with
  | none => none
  | some (head, completions) =>
      some { ring with
        completion := ring.completion.publish head
          (CompletionQueue.pollAll_ends polled)
        reported := ring.reported ++ completions }

/-- A ring that has just been set up. -/
structure Fresh : Prop where
  started : ring.submission.Started
  submission : ring.submission.head = 0
  head : ring.completion.head = 0
  tail : ring.completion.tail = 0
  accepted : ring.accepted = []
  working : ring.working = []
  posted : ring.posted = []
  reported : ring.reported = []

/-- What a ring and its kernel can do, as long as fewer than `2 ^ 32` requests
are queued. -/
inductive Serves (start : LiveRing) : LiveRing → Prop
  | refl : Serves start start
  | submit {ring : LiveRing} (entered : Entered) :
      Serves start ring → ring.submission.Allows entered →
      Serves start (ring.submitPending entered)
  | queue {ring : LiveRing} (request : Request) (entered : Entered) :
      Serves start ring → ring.submission.Allows entered →
      ring.accepted.length + 1 < 2 ^ 32 →
      Serves start (ring.queueSqe request entered)
  | complete {ring : LiveRing} (sqe : Sqe) (res : Int)
      (room : wrappingDistance ring.completion.head ring.completion.tail <
        ring.completion.cqEntries) :
      Serves start ring → sqe ∈ ring.working →
      Serves start (ring.complete sqe res room)
  | poll {ring after : LiveRing} (fuel : Nat) :
      Serves start ring → ring.pollAll fuel = some after →
      Serves start after

/-- Every accepted request is in one place, and every completion that was
posted is returned once, in order; each call does what it owes. -/
structure RoundTrip : Prop where
  once : (ring.accepted.map fun request => request.fill {}).Perm
    (ring.submission.waiting ++ ring.working ++ ring.posted.map Prod.fst)
  told : ring.reported ++ ring.completion.pending = ring.posted.map echo
  tokens : (ring.reported.map Prod.fst).Subperm
    (ring.accepted.map Request.token)
  submits : ring.submission.pendingSubmit = ring.submission.waiting.length
  queues : ∀ request entered, ring.submission.Allows entered →
    ring.submission.QueuesRight request entered
  polls : ring.completion.PollsCorrectly

end LiveRing

/-! ## The submission side -/

namespace SubmissionQueue

variable {queue : SubmissionQueue}

/-- The counters are the lengths of the histories. -/
structure Counts (queue : SubmissionQueue) : Prop where
  tail : queue.tail = UInt32.ofNat queue.committed.length
  head : queue.head = UInt32.ofNat queue.consumed.length

theorem Counts.submitPending (counts : queue.Counts) {entered : Entered}
    (allowed : queue.Allows entered) :
    (queue.submitPending entered).2.Counts := by
  rw [SubmissionQueue.submitPending]
  split
  next => exact counts
  next =>
    cases entered with
    | failed errno => exact counts
    | consumed submitted =>
        refine ⟨counts.tail, ?_⟩
        change queue.head + UInt32.ofNat submitted =
          UInt32.ofNat (queue.consumed ++ queue.waiting.take submitted).length
        rw [counts.head, List.length_append, List.length_take, length_waiting,
          Nat.min_eq_left allowed.2, UInt32.ofNat_add]

theorem Counts.putSqe (counts : queue.Counts) (request : Request) :
    (queue.putSqe request).Counts := by
  refine ⟨?_, counts.head⟩
  rw [committed_putSqe, List.length_append, List.length_singleton]
  change UInt32.ofNat (queue.tail.toNat + 1) = _
  rw [counts.tail, UInt32.ofNat_add, UInt32.ofNat_toNat, UInt32.ofNat_add]

/-- A call puts its request into the ring as it was or as it is after the
flush, or raises. -/
theorem queueSqe_cases (request : Request) (entered : Entered) :
    (∃ begun, (begun = queue ∨ begun = (queue.submitPending entered).2) ∧
      queue.queueSqe request entered = (.ok (), begun.putSqe request)) ∨
    ∃ error, queue.queueSqe request entered =
      (.error error, (queue.submitPending entered).2) := by
  unfold SubmissionQueue.queueSqe beginSqe
  by_cases full : queue.looksFull
  · rw [if_pos full]
    rcases flushed : queue.submitPending entered with ⟨result, after⟩
    cases result with
    | error error => exact Or.inr ⟨error, rfl⟩
    | ok =>
        by_cases still : after.looksFull
        · simp only [if_pos still]
          exact Or.inr ⟨_, rfl⟩
        · simp only [if_neg still]
          exact Or.inl ⟨after, Or.inr rfl, rfl⟩
  · rw [if_neg full]
    exact Or.inl ⟨queue, Or.inl rfl, rfl⟩

/-- What the kernel takes during a flush comes behind what it took before. -/
theorem consumed_submitPending (entered : Entered) :
    queue.consumed <+: (queue.submitPending entered).2.consumed := by
  rw [submitPending]
  split
  · exact List.prefix_rfl
  · cases entered with
    | failed errno => exact List.prefix_rfl
    | consumed submitted => exact List.prefix_append _ _

theorem committed_submitPending (entered : Entered) :
    (queue.submitPending entered).2.committed = queue.committed := by
  rw [submitPending]
  split
  · rfl
  · cases entered <;> rfl

/-- Before the counters wrap the ring is never full across the wrap. -/
theorem Counts.ahead (counts : queue.Counts) (sound : queue.Sound)
    (few : queue.committed.length < 2 ^ 32) : ¬ queue.FullAcrossWrap := by
  rintro ⟨_, wrapped⟩
  have lengths := congrArg List.length sound.history
  rw [List.length_append] at lengths
  rw [counts.tail, counts.head, UInt32.toNat_ofNat', UInt32.toNat_ofNat',
    Nat.mod_eq_of_lt few, Nat.mod_eq_of_lt (by omega)] at wrapped
  omega

end SubmissionQueue

/-! ## Every run -/

namespace LiveRing

/-- The invariant of a run. -/
structure Flows (ring : LiveRing) : Prop where
  sound : ring.submission.Sound
  counts : ring.submission.Counts
  committed : ring.submission.committed =
    ring.accepted.map fun request => request.fill {}
  taken : ring.submission.consumed.Perm
    (ring.working ++ ring.posted.map Prod.fst)
  told : ring.reported ++ ring.completion.pending = ring.posted.map echo
  head : ring.completion.head = UInt32.ofNat ring.reported.length
  tail : ring.completion.tail = UInt32.ofNat ring.posted.length
  few : ring.accepted.length < 2 ^ 32

variable {ring : LiveRing}

namespace Flows

theorem posted_le (flows : Flows ring) :
    ring.working.length + ring.posted.length ≤ ring.accepted.length := by
  have history := congrArg List.length flows.sound.history
  have taken := flows.taken.length_eq
  rw [flows.committed] at history
  simp only [List.length_append, List.length_map] at history taken
  omega

theorem reported_le (flows : Flows ring) :
    ring.reported.length ≤ ring.posted.length := by
  have told := congrArg List.length flows.told
  simp only [List.length_append, List.length_map] at told
  omega

/-- Neither counter of the completion queue has wrapped. -/
theorem unwrapped (flows : Flows ring) :
    ring.completion.head.toNat = ring.reported.length ∧
      ring.completion.tail.toNat = ring.posted.length := by
  have posted := flows.posted_le
  have reported := flows.reported_le
  have few := flows.few
  rw [flows.head, flows.tail, UInt32.toNat_ofNat', UInt32.toNat_ofNat']
  exact ⟨Nat.mod_eq_of_lt (by omega), Nat.mod_eq_of_lt (by omega)⟩

theorem polls (flows : Flows ring) : ring.completion.PollsCorrectly := by
  rw [CompletionQueue.pollsCorrectly_iff, flows.unwrapped.1,
    flows.unwrapped.2]
  exact flows.reported_le

theorem ahead (flows : Flows ring) : ¬ ring.submission.FullAcrossWrap := by
  apply flows.counts.ahead flows.sound
  rw [flows.committed, List.length_map]
  exact flows.few

/-- The kernel has taken further entries of the same ones. -/
theorem hands (flows : Flows ring) {submission : SubmissionQueue}
    {accepted : List Request} (sound : submission.Sound)
    (counts : submission.Counts)
    (committed : submission.committed =
      accepted.map fun request => request.fill {})
    (further : ring.submission.consumed <+: submission.consumed)
    (few : accepted.length < 2 ^ 32) :
    Flows { ring.hands submission with accepted := accepted } := by
  refine ⟨sound, counts, committed, ?_, flows.told, flows.head, flows.tail,
    few⟩
  obtain ⟨new, consumed⟩ := further
  change submission.consumed.Perm (ring.working ++
    submission.consumed.drop ring.submission.consumed.length ++
      ring.posted.map Prod.fst)
  rw [← consumed, List.drop_left, List.append_assoc]
  refine (flows.taken.append_right new).trans ?_
  rw [List.append_assoc]
  exact (List.perm_append_comm).append_left ring.working

theorem submitPending (flows : Flows ring) {entered : Entered}
    (allowed : ring.submission.Allows entered) :
    Flows (ring.submitPending entered) := by
  have committed :=
    (SubmissionQueue.committed_submitPending entered).trans flows.committed
  exact flows.hands (flows.sound.submitPending allowed)
    (flows.counts.submitPending allowed) committed
    (SubmissionQueue.consumed_submitPending entered) flows.few

theorem queueSqe (flows : Flows ring) (request : Request)
    {entered : Entered} (allowed : ring.submission.Allows entered)
    (few : ring.accepted.length + 1 < 2 ^ 32) :
    Flows (ring.queueSqe request entered) := by
  have sound := flows.sound.queueSqe request allowed flows.ahead
  have further := @SubmissionQueue.consumed_submitPending ring.submission
    entered
  unfold LiveRing.queueSqe
  rcases SubmissionQueue.queueSqe_cases request entered with
    ⟨begun, from?, queued⟩ | ⟨error, raised⟩
  · rw [queued] at sound ⊢
    have grown : begun.committed = ring.submission.committed ∧
        ring.submission.consumed <+: begun.consumed ∧ begun.Counts := by
      rcases from? with rfl | rfl
      · exact ⟨rfl, List.prefix_rfl, flows.counts⟩
      · exact ⟨SubmissionQueue.committed_submitPending entered, further,
          flows.counts.submitPending allowed⟩
    refine flows.hands sound (grown.2.2.putSqe request) ?_ grown.2.1 ?_
    · rw [SubmissionQueue.committed_putSqe, grown.1, flows.committed,
        List.map_append, List.map_singleton]
    · rw [List.length_append, List.length_singleton]
      exact few
  · rw [raised]
    exact flows.submitPending allowed

theorem complete (flows : Flows ring) {sqe : Sqe} {res : Int}
    (room : wrappingDistance ring.completion.head ring.completion.tail <
      ring.completion.cqEntries)
    (works : sqe ∈ ring.working) :
    Flows (ring.complete sqe res room) := by
  have posted := flows.posted_le
  have busy := List.length_pos_of_mem works
  have few := flows.few
  have ordered := flows.reported_le
  rw [← flows.unwrapped.1, ← flows.unwrapped.2] at ordered
  have distance := wrappingDistance_of_le ordered
  rw [flows.unwrapped.1, flows.unwrapped.2] at distance
  refine ⟨flows.sound, flows.counts, flows.committed, ?_, ?_, flows.head, ?_,
    few⟩
  · have left := (List.perm_cons_erase works).append_right
      (ring.posted.map Prod.fst)
    refine flows.taken.trans (left.trans ?_)
    change (sqe :: (ring.working.erase sqe ++
      ring.posted.map Prod.fst)).Perm (ring.working.erase sqe ++
        (ring.posted ++ [(sqe, res)]).map Prod.fst)
    rw [List.map_append, List.map_singleton, ← List.append_assoc]
    exact (List.perm_append_singleton sqe _).symm
  · change ring.reported ++ (ring.completion.post _ room).pending =
      (ring.posted ++ [(sqe, res)]).map echo
    rw [CompletionQueue.pending_post room (by omega), ← List.append_assoc,
      flows.told, List.map_append, List.map_singleton]
  · change UInt32.ofNat (ring.completion.tail.toNat + 1) =
      UInt32.ofNat (ring.posted ++ [(sqe, res)]).length
    rw [flows.unwrapped.2, List.length_append, List.length_singleton]

theorem pollAll (flows : Flows ring) {fuel : Nat} {after : LiveRing}
    (polled : ring.pollAll fuel = some after) : Flows after := by
  unfold LiveRing.pollAll at polled
  split at polled
  next => cases polled
  next head completions found =>
    cases polled
    have ended := CompletionQueue.pollAll_ends found
    have told : ring.reported ++ completions = ring.posted.map echo := by
      obtain ⟨enough, returned⟩ := flows.polls
      have same := CompletionQueue.pollAll_once found returned
      cases same
      exact flows.told
    refine ⟨flows.sound, flows.counts, flows.committed, flows.taken, ?_, ?_,
      flows.tail, flows.few⟩
    · change (ring.reported ++ completions) ++
        (ring.completion.publish head ended).pending = _
      rw [CompletionQueue.pending_publish, List.append_nil]
      exact told
    · change head = UInt32.ofNat (ring.reported ++ completions).length
      rw [ended, flows.tail, told, List.length_map]

/-- Whatever `poll_all` returned is the completion of an accepted request. -/
theorem tokens (flows : Flows ring) :
    (ring.reported.map Prod.fst).Subperm
      (ring.accepted.map Request.token) := by
  have posted : (ring.posted.map Prod.fst).Subperm
      (ring.accepted.map fun request => request.fill {}) := by
    rw [← flows.committed, flows.sound.history]
    refine List.Subperm.trans ?_ (List.sublist_append_left _ _).subperm
    exact (List.sublist_append_right _ _).subperm.trans
      flows.taken.symm.subperm
  have reported : (ring.reported.map Prod.fst).Subperm
      ((ring.posted.map Prod.fst).map fun sqe => sqe.userData.toNat) := by
    have first := congrArg (List.map Prod.fst) flows.told
    rw [List.map_append, List.map_map] at first
    rw [List.map_map]
    exact (List.sublist_append_left _ _).subperm.trans
      (by rw [first]; exact List.Subperm.refl _)
  obtain ⟨same, perm, sublist⟩ := posted
  refine reported.trans ⟨_, perm.map _, ?_⟩
  have echoed := sublist.map fun sqe : Sqe => sqe.userData.toNat
  rw [List.map_map] at echoed
  exact echoed

theorem roundTrip (flows : Flows ring) : ring.RoundTrip where
  once := by
    rw [← flows.committed, flows.sound.history]
    rw [List.append_assoc]
    exact (flows.taken.append_right _).trans List.perm_append_comm
  told := flows.told
  tokens := flows.tokens
  submits := flows.sound.pending
  queues := fun request _ allowed =>
    flows.sound.queuesRight request allowed flows.ahead
  polls := flows.polls

end Flows

theorem Fresh.flows (fresh : ring.Fresh) : Flows ring := by
  have tail := fresh.started.empty
  refine ⟨fresh.started.sound, ⟨?_, ?_⟩, ?_, ?_, ?_, ?_, ?_, ?_⟩
  · rw [← tail, fresh.submission, fresh.started.committed]
    rfl
  · rw [fresh.submission, fresh.started.consumed]
    rfl
  · rw [fresh.started.committed, fresh.accepted]
    rfl
  · rw [fresh.started.consumed, fresh.working, fresh.posted]
    exact List.Perm.refl _
  · have empty : ring.completion.pending = [] := by
      unfold CompletionQueue.pending
      rw [fresh.head, fresh.tail]
      rfl
    rw [fresh.reported, fresh.posted, empty]
    rfl
  · rw [fresh.head, fresh.reported]
    rfl
  · rw [fresh.tail, fresh.posted]
    rfl
  · rw [fresh.accepted]
    decide

theorem Serves.flows {start : LiveRing} (fresh : start.Fresh)
    (served : Serves start ring) : Flows ring := by
  induction served with
  | refl => exact fresh.flows
  | submit entered _ allowed inductionHypothesis =>
      exact inductionHypothesis.submitPending allowed
  | queue request entered _ allowed few inductionHypothesis =>
      exact inductionHypothesis.queueSqe request allowed few
  | complete sqe res room _ works inductionHypothesis =>
      exact inductionHypothesis.complete room works
  | poll fuel _ polled inductionHypothesis =>
      exact inductionHypothesis.pollAll polled

/-- Between a ring and its kernel no request is lost, repeated or answered
twice, in whatever order the kernel completes them, as long as fewer than
`2 ^ 32` requests are queued. -/
theorem requests_roundTrip {start : LiveRing} (fresh : start.Fresh)
    (served : Serves start ring) : ring.RoundTrip :=
  (served.flows fresh).roundTrip

/-- A new ring with one entry on either side. -/
def firstLive : LiveRing where
  submission := SubmissionQueue.firstRing
  completion :=
    ⟨0, 0, 1, fun _ => (0, 0), CompletionQueue.wrappedQueue.powerOfTwo,
      by decide⟩
  accepted := []
  working := []
  posted := []
  reported := []

/-- A close is queued, submitted, completed and reported. -/
theorem firstLive_roundTrip :
    ∃ ring, Serves firstLive ring ∧ ring.reported = [(7, 0)] ∧
      ring.RoundTrip := by
  have fresh : firstLive.Fresh :=
    ⟨⟨rfl, rfl, rfl, rfl⟩, rfl, rfl, rfl, rfl, rfl, rfl, rfl⟩
  have queued := Serves.queue (.close 7 3) (.failed 4)
    (@Serves.refl firstLive) trivial (by decide)
  have submitted := Serves.submit (.consumed 1) queued (by decide)
  have completed := Serves.complete ((Request.close 7 3).fill {}) 0
    (by decide) submitted (by decide)
  have polled := Serves.poll 2 completed rfl
  exact ⟨_, polled, by decide, requests_roundTrip fresh polled⟩

end LiveRing

end PyKvCache.Ring
