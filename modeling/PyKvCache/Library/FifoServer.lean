import Mathlib.Algebra.BigOperators.Group.List.Basic
import Mathlib.Algebra.Order.Group.MinMax
import Mathlib.Data.List.Chain
import Mathlib.Order.Lattice
import Mathlib.Tactic.Abel

/-!
# A server that works through a queue

Jobs are served one after another, at unit speed.  `serve` knows only the work
that is left of each job.  A queue of bookings, each with the time it starts
and the time it is finished, is read off the clock instead; where no booking
leaves a gap behind the one before, both say the same.
-/

namespace PyKvCache.Library

/-- When a job is started and when it is finished. -/
structure Booking (K : Type) where
  start : K
  finish : K

/-- When the last of the bookings is finished. -/
def lastFinish {K : Type} (origin : K) (bookings : List (Booking K)) : K :=
  (bookings.getLast?.map Booking.finish).getD origin

theorem lastFinish_cons {K : Type} {origin : K} {first : Booking K}
    {rest : List (Booking K)} :
    lastFinish origin (first :: rest) = lastFinish first.finish rest := by
  unfold lastFinish
  rw [List.getLast?_cons]
  cases rest.getLast? <;> rfl

/-- What a loop drops from the front, where nothing behind it would go on. -/
theorem dropWhile_eq_filter {item : Type} {done : item → Bool}
    {items : List item}
    (ordered : items.Pairwise fun earlier later =>
      done later = true → done earlier = true) :
    items.dropWhile done = items.filter fun item => !done item := by
  induction items with
  | nil => rfl
  | cons first rest inductionHypothesis =>
      rw [List.pairwise_cons] at ordered
      by_cases finished : done first = true
      · rw [List.dropWhile_cons_of_pos finished,
          List.filter_cons_of_neg (by simp [finished])]
        exact inductionHypothesis ordered.2
      · have kept : (first :: rest).filter (fun item => !done item) =
            first :: rest := by
          rw [List.filter_eq_self]
          intro later member
          rcases List.mem_cons.mp member with rfl | behind
          · simpa using finished
          · have unfinished : ¬ done later = true := fun stopped =>
              finished (ordered.1 later behind stopped)
            simpa using unfinished
        rw [List.dropWhile_cons_of_neg finished, kept]

section Order

variable {K : Type} [LinearOrder K]

/-- Every booking starts when the one before is finished, the first one at
`origin`. -/
def Gapless (origin : K) : List (Booking K) → Prop
  | [] => True
  | booking :: rest =>
      booking.start = origin ∧ booking.start ≤ booking.finish ∧
        Gapless booking.finish rest

namespace Gapless

variable {origin later : K} {bookings : List (Booking K)}

theorem origin_le (gapless : Gapless origin bookings)
    {booking : Booking K} (member : booking ∈ bookings) :
    origin ≤ booking.start ∧ booking.start ≤ booking.finish := by
  induction bookings generalizing origin with
  | nil => cases member
  | cons first rest inductionHypothesis =>
      obtain ⟨start, forward, gapless⟩ := gapless
      rcases List.mem_cons.mp member with rfl | later
      · exact ⟨start.ge, forward⟩
      · have behind := inductionHypothesis gapless later
        exact ⟨start ▸ forward.trans behind.1, behind.2⟩

/-- Of a queue that has not been started nothing is finished. -/
theorem filter_eq (gapless : Gapless origin bookings)
    (waiting : later < origin) :
    bookings.filter (fun booking => later < booking.finish) = bookings := by
  rw [List.filter_eq_self]
  intro booking member
  obtain ⟨start, forward⟩ := gapless.origin_le member
  exact decide_eq_true (waiting.trans_le (start.trans forward))

/-- What is not finished still starts without a gap. -/
theorem filter (gapless : Gapless origin bookings)
    (started : origin ≤ later) :
    ∃ next, next ≤ later ∧
      Gapless next
        (bookings.filter fun booking => later < booking.finish) := by
  induction bookings generalizing origin with
  | nil => exact ⟨origin, started, trivial⟩
  | cons first rest inductionHypothesis =>
      have whole := gapless
      obtain ⟨rfl, forward, gapless⟩ := gapless
      by_cases finished : first.finish ≤ later
      · rw [List.filter_cons_of_neg (by simpa using finished)]
        exact inductionHypothesis gapless finished
      · have running : later < first.finish := not_le.mp finished
        rw [List.filter_cons_of_pos (by simpa using running),
          gapless.filter_eq running]
        exact ⟨first.start, started, whole⟩

/-- What comes first is finished first. -/
theorem pairwise (gapless : Gapless origin bookings) :
    bookings.Pairwise fun earlier later =>
      earlier.finish ≤ later.finish := by
  induction bookings generalizing origin with
  | nil => exact List.Pairwise.nil
  | cons first rest inductionHypothesis =>
      obtain ⟨_, _, gapless⟩ := gapless
      apply List.pairwise_cons.mpr
      refine ⟨?_, inductionHypothesis gapless⟩
      intro later member
      have behind := gapless.origin_le member
      exact behind.1.trans behind.2

/-- A booking at the end that starts when the last one is finished. -/
theorem append {booking : Booking K} (gapless : Gapless origin bookings)
    (start : booking.start = lastFinish origin bookings)
    (forward : booking.start ≤ booking.finish) :
    Gapless origin (bookings ++ [booking]) := by
  induction bookings generalizing origin with
  | nil => exact ⟨start, forward, trivial⟩
  | cons first rest inductionHypothesis =>
      obtain ⟨begun, ahead, gapless⟩ := gapless
      rw [lastFinish_cons] at start
      exact ⟨begun, ahead, inductionHypothesis gapless start⟩

theorem isChain (gapless : Gapless origin bookings) :
    bookings.IsChain fun earlier later =>
      earlier.finish = later.start := by
  induction bookings generalizing origin with
  | nil => exact List.IsChain.nil
  | cons first rest inductionHypothesis =>
      obtain ⟨_, _, gapless⟩ := gapless
      have ordered := inductionHypothesis gapless
      cases rest with
      | nil => exact List.IsChain.singleton _
      | cons second others =>
          exact List.isChain_cons_cons.mpr ⟨gapless.1.symm, ordered⟩

end Gapless

end Order

/-! ## The work that is left -/

section Work

variable {K : Type} [AddCommGroup K] [LinearOrder K] [IsOrderedAddMonoid K]

/-- The work that is left of each job after some time; finished jobs leave the
queue. -/
def serve (elapsed : K) : List K → List K
  | [] => []
  | work :: rest =>
      if work ≤ elapsed then
        serve (elapsed - work) rest
      else
        (work - elapsed) :: rest

namespace Booking

/-- The time a job takes. -/
def work (booking : Booking K) : K :=
  booking.finish - booking.start

/-- The work that is left of a job. -/
def left (now : K) (booking : Booking K) : K :=
  min booking.work (booking.finish - now)

variable {booking : Booking K} {now : K}

theorem left_of_le_start (waiting : now ≤ booking.start) :
    booking.left now = booking.work :=
  min_eq_left (sub_le_sub_left waiting _)

theorem left_of_start_le (started : booking.start ≤ now) :
    booking.left now = booking.finish - now :=
  min_eq_right (sub_le_sub_left started _)

end Booking

namespace Gapless

variable {origin now later : K} {bookings : List (Booking K)}

/-- A queue that has not been started has all its work left. -/
theorem map_left (gapless : Gapless origin bookings)
    (waiting : now ≤ origin) :
    bookings.map (Booking.left now) = bookings.map Booking.work := by
  apply List.map_congr_left
  intro booking member
  exact Booking.left_of_le_start
    (waiting.trans (gapless.origin_le member).1)

/-- Serving a queue from its start on. -/
theorem serve_work (gapless : Gapless origin bookings)
    (started : origin ≤ later) :
    serve (later - origin) (bookings.map Booking.work) =
      (bookings.filter fun booking => later < booking.finish).map
        (Booking.left later) := by
  induction bookings generalizing origin with
  | nil => rfl
  | cons first rest inductionHypothesis =>
      obtain ⟨rfl, forward, gapless⟩ := gapless
      rw [List.map_cons, serve]
      by_cases finished : first.finish ≤ later
      · have short : first.work ≤ later - first.start :=
          sub_le_sub_right finished _
        have spent : later - first.start - first.work =
            later - first.finish := by
          unfold Booking.work
          abel
        rw [if_pos short, spent, inductionHypothesis gapless finished,
          List.filter_cons_of_neg (by simpa using finished)]
      · have running : later < first.finish := not_le.mp finished
        have long : ¬ first.work ≤ later - first.start := by
          unfold Booking.work
          rw [sub_le_sub_iff_right]
          exact finished
        have remaining : first.work - (later - first.start) =
            first.left later := by
          rw [Booking.left_of_start_le started]
          unfold Booking.work
          abel
        rw [if_neg long, remaining,
          List.filter_cons_of_pos (by simpa using running),
          gapless.filter_eq running, List.map_cons,
          gapless.map_left running.le]

/-- Serving a queue from any later time on. -/
theorem serve_left (gapless : Gapless origin bookings)
    (started : origin ≤ now) (ordered : now ≤ later)
    (unfinished : ∀ booking ∈ bookings, now ≤ booking.finish) :
    serve (later - now) (bookings.map (Booking.left now)) =
      (bookings.filter fun booking => later < booking.finish).map
        (Booking.left later) := by
  cases bookings with
  | nil => rfl
  | cons first rest =>
      obtain ⟨rfl, forward, gapless⟩ := gapless
      have within := unfinished first List.mem_cons_self
      rw [List.map_cons, Booking.left_of_start_le started,
        gapless.map_left within, serve]
      by_cases finished : first.finish ≤ later
      · have spent : later - now - (first.finish - now) =
            later - first.finish := by abel
        rw [if_pos (sub_le_sub_right finished now), spent,
          gapless.serve_work finished,
          List.filter_cons_of_neg (by simpa using finished)]
      · have running : later < first.finish := not_le.mp finished
        have remaining : first.finish - now - (later - now) =
            first.left later := by
          rw [Booking.left_of_start_le (started.trans ordered)]
          abel
        rw [if_neg (by rwa [sub_le_sub_iff_right]), remaining,
          List.filter_cons_of_pos (by simpa using running),
          gapless.filter_eq running, List.map_cons,
          gapless.map_left running.le]

omit [IsOrderedAddMonoid K] in
private theorem sum_work (gapless : Gapless origin bookings) :
    (bookings.map Booking.work).sum = lastFinish origin bookings - origin := by
  induction bookings generalizing origin with
  | nil => exact (sub_self origin).symm
  | cons first rest inductionHypothesis =>
      obtain ⟨rfl, _, gapless⟩ := gapless
      rw [List.map_cons, List.sum_cons, inductionHypothesis gapless,
        lastFinish_cons]
      unfold Booking.work
      abel

/-- The work that is left is done when the last booking is finished. -/
theorem sum_left (gapless : Gapless origin bookings)
    (started : origin ≤ now)
    (unfinished : ∀ booking ∈ bookings, now ≤ booking.finish) :
    (bookings.map (Booking.left now)).sum = lastFinish now bookings - now := by
  cases bookings with
  | nil => exact (sub_self now).symm
  | cons first rest =>
      obtain ⟨rfl, forward, gapless⟩ := gapless
      have within := unfinished first List.mem_cons_self
      rw [List.map_cons, Booking.left_of_start_le started,
        gapless.map_left within, List.sum_cons, sum_work gapless,
        lastFinish_cons]
      abel

end Gapless

end Work

end PyKvCache.Library
