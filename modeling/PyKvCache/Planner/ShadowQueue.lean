import PyKvCache.Library.FifoServer
import PyKvCache.Planner.Turn

/-!
# The shadow queue is a server

The entries a planner keeps for its reads are the bookings of a server that
works through them one after another, whatever the calls are.
-/

namespace PyKvCache.Planner

open PyKvCache.Library PyKvCache.Cost PyKvCache.Scheduler

/-- The booking of an entry. -/
def Staging.booking (entry : Staging) : Booking ℚ :=
  ⟨entry.startsAt, entry.endsAt⟩

namespace LoadPlanner

/-- The bookings of the queue. -/
def bookings (planner : LoadPlanner) : List (Booking ℚ) :=
  planner.entries.map Staging.booking

/-- The queue has no gap, nothing in it was finished when the clock was last
read, and it has one entry for each request in it. -/
structure QueueBooks (clock : ℚ) (planner : LoadPlanner) : Prop where
  gapless : ∃ origin ≤ clock, Gapless origin planner.bookings
  unfinished : ∀ entry ∈ planner.entries, clock ≤ entry.endsAt
  timed : ∀ entry ∈ planner.entries,
    entry.endsAt = entry.startsAt + entry.serviceS
  single : (planner.entries.map Staging.reqId).Nodup
  indexed : ∀ reqId entry,
    planner.stagingByReq.find? reqId = some entry ↔
      entry ∈ planner.entries ∧ entry.reqId = reqId

/-- The work that is left of each entry. -/
def lefts (now : ℚ) (planner : LoadPlanner) : List ℚ :=
  planner.entries.map fun entry => entry.booking.left now

theorem lefts_eq {now : ℚ} {planner : LoadPlanner} :
    planner.lefts now = planner.bookings.map (Booking.left now) := by
  rw [bookings, List.map_map]
  rfl

/-- The same queue, as far as the books are concerned. -/
structure SameQueue (before after : LoadPlanner) : Prop where
  entries : after.entries = before.entries
  stagingByReq : after.stagingByReq = before.stagingByReq

theorem SameQueue.refl {planner : LoadPlanner} :
    SameQueue planner planner :=
  ⟨rfl, rfl⟩

theorem SameQueue.trans {first second third : LoadPlanner}
    (one : SameQueue first second) (two : SameQueue second third) :
    SameQueue first third :=
  ⟨two.entries.trans one.entries, two.stagingByReq.trans one.stagingByReq⟩

theorem QueueBooks.congr {clock : ℚ} {before after : LoadPlanner}
    (books : QueueBooks clock before) (same : SameQueue before after) :
    QueueBooks clock after := by
  obtain ⟨gapless, unfinished, timed, single, indexed⟩ := books
  constructor
  · unfold bookings
    rw [same.entries]
    exact gapless
  · rw [same.entries]
    exact unfinished
  · rw [same.entries]
    exact timed
  · rw [same.entries]
    exact single
  · rw [same.entries, same.stagingByReq]
    exact indexed

theorem QueueBooks.init (clock : ℚ) : QueueBooks clock .init where
  gapless := ⟨clock, le_refl clock, trivial⟩
  unfinished := by
    intro entry member
    cases member
  timed := by
    intro entry member
    cases member
  single := List.nodup_nil
  indexed := by
    intro reqId entry
    constructor
    · intro found
      cases found
    · intro member
      cases member.1

/-! ## Retirement -/

section Retire

variable {now : ℚ} {planner : LoadPlanner}

theorem retireFrom_entries (entries : List Staging) :
    (retireFrom now planner entries).entries =
      entries.dropWhile fun entry => entry.endsAt ≤ now := by
  induction entries generalizing planner with
  | nil => rfl
  | cons entry rest inductionHypothesis =>
      unfold retireFrom
      by_cases finished : entry.endsAt ≤ now
      · rw [if_pos finished, inductionHypothesis,
          List.dropWhile_cons_of_pos (by simpa using finished)]
      · rw [if_neg finished,
          List.dropWhile_cons_of_neg (by simpa using finished)]

theorem retireFrom_stagingByReq (entries : List Staging) (reqId : String) :
    (retireFrom now planner entries).stagingByReq.find? reqId =
      if reqId ∈ (entries.takeWhile fun entry => entry.endsAt ≤ now).map
          Staging.reqId then
        none
      else
        planner.stagingByReq.find? reqId := by
  induction entries generalizing planner with
  | nil => simp [retireFrom]
  | cons entry rest inductionHypothesis =>
      unfold retireFrom
      by_cases finished : entry.endsAt ≤ now
      · rw [if_pos finished, inductionHypothesis,
          List.takeWhile_cons_of_pos (by simpa using finished)]
        simp only [OrderedDict.find?_erase, List.map_cons, List.mem_cons]
        by_cases same : reqId = entry.reqId
        · simp [same]
        · simp [same]
      · rw [if_neg finished,
          List.takeWhile_cons_of_neg (by simpa using finished)]
        simp

/-- After a retirement exactly the unfinished entries are left. -/
theorem QueueBooks.retire_entries {clock : ℚ}
    (books : QueueBooks clock planner) :
    (planner.retireShadowEntries now).entries =
      planner.entries.filter fun entry => now < entry.endsAt := by
  obtain ⟨origin, _, gapless⟩ := books.gapless
  have ordered := List.pairwise_map.mp gapless.pairwise
  have whole : planner.entries.dropWhile
      (fun entry => decide (entry.endsAt ≤ now)) =
      planner.entries.filter fun entry => !decide (entry.endsAt ≤ now) := by
    apply dropWhile_eq_filter
    apply ordered.imp
    intro earlier later before finished
    exact decide_eq_true (before.trans (of_decide_eq_true finished))
  rw [retireShadowEntries, retireFrom_entries, whole]
  simp only [← decide_not, not_le]

/-- A retirement keeps the books, at the time it reads. -/
theorem QueueBooks.retire {clock : ℚ} (books : QueueBooks clock planner)
    (ordered : clock ≤ now) :
    QueueBooks now (planner.retireShadowEntries now) := by
  have entries := @QueueBooks.retire_entries now planner clock books
  have kept : ∀ entry ∈ (planner.retireShadowEntries now).entries,
      entry ∈ planner.entries ∧ now < entry.endsAt := by
    intro entry member
    rw [entries, List.mem_filter] at member
    exact ⟨member.1, of_decide_eq_true member.2⟩
  constructor
  · obtain ⟨origin, started, gapless⟩ := books.gapless
    unfold bookings
    have next := gapless.filter (started.trans ordered)
    unfold bookings at next
    rw [List.filter_map] at next
    rw [entries]
    exact next
  · intro entry member
    exact (kept entry member).2.le
  · intro entry member
    exact books.timed entry (kept entry member).1
  · rw [entries]
    exact books.single.sublist (List.filter_sublist.map _)
  · intro reqId entry
    rw [retireShadowEntries, retireFrom_stagingByReq, retireFrom_entries]
    have parted := List.takeWhile_append_dropWhile
      (p := fun entry : Staging => decide (entry.endsAt ≤ now))
      (l := planner.entries)
    have single := books.single
    rw [← parted, List.map_append, List.nodup_append'] at single
    split
    next gone =>
      constructor
      · intro found
        cases found
      · rintro ⟨member, rfl⟩
        exact absurd (List.mem_map_of_mem member) (single.2.2 gone)
    next stays =>
      rw [books.indexed]
      constructor
      · rintro ⟨member, rfl⟩
        rw [← parted, List.mem_append] at member
        rcases member with gone | left
        · exact absurd (List.mem_map_of_mem gone) stays
        · exact ⟨left, rfl⟩
      · rintro ⟨member, same⟩
        exact ⟨(List.dropWhile_sublist _).subset member, same⟩

end Retire

/-! ## The other books of a call -/

section Collect

variable {planner : LoadPlanner} {candidateIds : List String}

theorem gcStaged_sameQueue :
    SameQueue planner (planner.gcStaged candidateIds) := by
  unfold gcStaged
  apply List.foldlRecOn (motive := fun after => SameQueue planner after)
  · exact .refl
  · intro after same reqId _
    apply same.trans
    unfold gcStagedOf
    split
    · exact ⟨rfl, rfl⟩
    simp only
    split <;> exact ⟨rfl, rfl⟩

theorem gcDeadlines_sameQueue :
    SameQueue planner (planner.gcDeadlines candidateIds) := by
  unfold gcDeadlines
  apply List.foldlRecOn (motive := fun after => SameQueue planner after)
  · exact .refl
  · intro after same reqId _
    apply same.trans
    unfold gcDeadlineOf
    split
    · exact ⟨rfl, rfl⟩
    simp only
    split <;> exact ⟨rfl, rfl⟩

theorem startCall_sameQueue {now : ℚ} :
    SameQueue (planner.retireShadowEntries now)
      (planner.startCall now candidateIds) :=
  gcStaged_sameQueue.trans gcDeadlines_sameQueue

theorem armDeadline_sameQueue {config : Config} {reqId : String}
    {now predictedWaitS : ℚ} :
    SameQueue planner
      (planner.armDeadline config reqId now predictedWaitS).2 := by
  unfold armDeadline
  split <;> exact ⟨rfl, rfl⟩

end Collect

/-! ## New reads -/

section Append

variable {now serviceS : ℚ} {planner : LoadPlanner} {reqId : String}
  {emittedBlocks : Int}

/-- Where the books are in order, a new read starts when the last one is
finished. -/
theorem QueueBooks.append (books : QueueBooks now planner)
    (fresh : planner.stagingByReq.find? reqId = none)
    (nonnegative : 0 ≤ serviceS) :
    QueueBooks now
        (planner.appendShadowEntry reqId serviceS now emittedBlocks) ∧
      ∃ entry : Staging,
        (planner.appendShadowEntry reqId serviceS now emittedBlocks).entries =
            planner.entries ++ [entry] ∧
          entry.serviceS = serviceS ∧ entry.booking.left now = serviceS := by
  have absent : ∀ entry ∈ planner.entries, entry.reqId ≠ reqId := by
    intro entry member same
    rw [(books.indexed reqId entry).mpr ⟨member, same⟩] at fresh
    cases fresh
  obtain ⟨origin, started, gapless⟩ := books.gapless
  obtain ⟨startsAt, start⟩ : ∃ startsAt, planner.nextStart now = startsAt :=
    ⟨_, rfl⟩
  have later : now ≤ startsAt := by
    rw [← start, nextStart]
    split
    · exact le_refl now
    · exact le_max_left _ _
  have queue : ∃ origin ≤ now, Gapless origin (planner.bookings ++
      [⟨startsAt, startsAt + serviceS⟩]) := by
    have forward : startsAt ≤ startsAt + serviceS :=
      le_add_of_nonneg_right nonnegative
    unfold nextStart at start
    cases final : planner.entries.getLast? with
    | none =>
        rw [final] at start
        rw [List.getLast?_eq_none_iff] at final
        unfold bookings
        rw [final]
        exact ⟨startsAt, start.ge, rfl, forward, trivial⟩
    | some last =>
        rw [final] at start
        refine ⟨origin, started, gapless.append ?_ forward⟩
        have behind := books.unfinished last (List.mem_of_getLast? final)
        unfold bookings lastFinish
        rw [List.getLast?_map, final]
        exact start.symm.trans (max_eq_right behind)
  unfold appendShadowEntry
  simp only [start]
  constructor
  · constructor
    · unfold bookings at queue ⊢
      rw [List.map_append]
      exact queue
    · intro entry member
      rcases List.mem_append.mp member with old | new
      · exact books.unfinished entry old
      · rw [List.mem_singleton.mp new]
        exact later.trans (le_add_of_nonneg_right nonnegative)
    · intro entry member
      rcases List.mem_append.mp member with old | new
      · exact books.timed entry old
      · rw [List.mem_singleton.mp new]
    · rw [List.map_append, List.nodup_append']
      refine ⟨books.single, List.nodup_singleton _, ?_⟩
      intro other old new
      obtain ⟨entry, member, rfl⟩ := List.mem_map.mp old
      exact absent entry member (List.mem_singleton.mp new)
    · intro other entry
      simp only [OrderedDict.find?_set, List.mem_append,
        List.mem_singleton]
      split
      next same =>
        subst same
        constructor
        · intro found
          cases found
          exact ⟨Or.inr rfl, rfl⟩
        · rintro ⟨old | new, same⟩
          · exact absurd same (absent entry old)
          · rw [new]
      next different =>
        rw [books.indexed]
        constructor
        · rintro ⟨old, same⟩
          exact ⟨Or.inl old, same⟩
        · rintro ⟨old | new, same⟩
          · exact ⟨old, same⟩
          · rw [new] at same
            exact absurd same.symm different
  · refine ⟨_, rfl, rfl, ?_⟩
    have whole := @Booking.left_of_le_start ℚ _ _ _
      ⟨startsAt, startsAt + serviceS⟩ now later
    exact whole.trans (add_sub_cancel_left startsAt serviceS)

end Append

/-! ## A call -/

/-- New entries are only put behind the others, with all their work left. -/
def Grows (now : ℚ) (before after : LoadPlanner) : Prop :=
  ∃ appended, after.entries = before.entries ++ appended ∧
    ∀ entry ∈ appended, entry.booking.left now = entry.serviceS

theorem SameQueue.grows {now : ℚ} {before after : LoadPlanner}
    (same : SameQueue before after) : Grows now before after := by
  refine ⟨[], ?_, ?_⟩
  · rw [List.append_nil, same.entries]
  · intro entry member
    cases member

theorem Grows.trans {now : ℚ} {first second third : LoadPlanner}
    (one : Grows now first second) (two : Grows now second third) :
    Grows now first third := by
  obtain ⟨earlier, firstQueue, firstWork⟩ := one
  obtain ⟨later, secondQueue, secondWork⟩ := two
  refine ⟨earlier ++ later, ?_, ?_⟩
  · rw [secondQueue, firstQueue, List.append_assoc]
  · intro entry member
    rcases List.mem_append.mp member with old | new
    · exact firstWork entry old
    · exact secondWork entry new

section Calls

variable {hash : Type} [DecidableEq hash] {config : Config}
  (nonnegative : ∀ nblocks, 0 ≤ config.tables.serviceSOf nblocks)

include nonnegative

theorem chargeFor_nonneg (distinct : Nat) :
    0 ≤ config.chargeFor distinct := by
  unfold Config.chargeFor
  split
  · exact le_refl 0
  · exact nonnegative _

private theorem charge_queue {now : ℚ} {before planner : LoadPlanner}
    {reqId : String} {distinct : Nat} {emittedBlocks : Int}
    (books : QueueBooks now before) (same : SameQueue before planner)
    (fresh : before.stagingByReq.find? reqId = none) :
    QueueBooks now (planner.appendShadowEntry reqId
        (config.chargeFor distinct) now emittedBlocks) ∧
      Grows now before (planner.appendShadowEntry reqId
        (config.chargeFor distinct) now emittedBlocks) := by
  rw [← same.stagingByReq] at fresh
  have charged := chargeFor_nonneg nonnegative distinct
  obtain ⟨kept, entry, queue, service, left⟩ :=
    @QueueBooks.append _ _ _ _ emittedBlocks (books.congr same) fresh charged
  refine ⟨kept, same.grows.trans ⟨[entry], queue, ?_⟩⟩
  intro other member
  rw [List.mem_singleton.mp member, left, service]

/-- The turn of a candidate keeps the books. -/
theorem turn_queue {now : ℚ} {pass after : Pass hash}
    {c : CandidateCostInput hash} (taken : Turn config now pass c after)
    (books : QueueBooks now pass.planner) :
    QueueBooks now after.planner ∧
      Grows now pass.planner after.planner := by
  have unchanged : ∀ {planner : LoadPlanner},
      SameQueue pass.planner planner →
        QueueBooks now planner ∧ Grows now pass.planner planner :=
    fun same => ⟨books.congr same, same.grows⟩
  cases taken with
  | reads _ fresh =>
      exact charge_queue nonnegative books .refl fresh
  | defers priced =>
      exact charge_queue nonnegative books armDeadline_sameQueue
        priced.2.2.2
  | redefers => exact unchanged armDeadline_sameQueue
  | rides | full | missing | resident | overdue | breakEven | deadline
  | unaffordable => exact unchanged ⟨rfl, rfl⟩

/-- A call retires what is finished, and then only adds to the queue. -/
theorem plan_queue {clock : ℚ} {planner : LoadPlanner}
    (books : QueueBooks clock planner) {call : Call hash}
    (ordered : clock ≤ call.now) :
    QueueBooks call.now (planner.plan config call).2 ∧
      Grows call.now (planner.retireShadowEntries call.now)
        (planner.plan config call).2 := by
  have started := (books.retire ordered).congr
    (@startCall_sameQueue planner call.candidateIds call.now)
  have same := @startCall_sameQueue planner call.candidateIds call.now
  have looped : QueueBooks call.now (call.finish config planner).planner ∧
      Grows call.now (planner.retireShadowEntries call.now)
        (call.finish config planner).planner := by
    unfold Call.finish
    apply List.foldlRecOn (motive := fun pass : Pass hash =>
      QueueBooks call.now pass.planner ∧
        Grows call.now (planner.retireShadowEntries call.now) pass.planner)
    · exact ⟨started, same.grows⟩
    · rintro pass ⟨kept, grown⟩ c _
      obtain ⟨next, further⟩ := turn_queue nonnegative
        (pass.turn_spec config call.now c) kept
      exact ⟨next, grown.trans further⟩
  have stored : SameQueue (call.finish config planner).planner
      (planner.plan config call).2 := ⟨rfl, rfl⟩
  exact ⟨looped.1.congr stored, looped.2.trans stored.grows⟩

end Calls

/-! ## Runs -/

/-- The entries a call adds to the queue. -/
def booked {hash : Type} [DecidableEq hash] (config : Config)
    (call : Call hash) (planner : LoadPlanner) : List Staging :=
  (planner.plan config call).2.entries.drop
    (planner.retireShadowEntries call.now).entries.length

/-- A run of `plan` and `reset` with a clock that does not go back, next to a
server that is only told how much time has passed and how much work each new
read is. -/
inductive Served (hash : Type) [DecidableEq hash] (config : Config) :
    ℚ → LoadPlanner → List ℚ → Prop
  | init (clock : ℚ) : Served hash config clock .init []
  | plan {clock : ℚ} {planner : LoadPlanner} {left : List ℚ}
      (reached : Served hash config clock planner left) (call : Call hash)
      (ordered : clock ≤ call.now) :
      Served hash config call.now (planner.plan config call).2
        (serve (call.now - clock) left ++
          (planner.booked config call).map Staging.serviceS)
  | reset {clock : ℚ} {planner : LoadPlanner} {left : List ℚ}
      (reached : Served hash config clock planner left) :
      Served hash config clock planner.reset []

/-- The queue of a planner is that of a first-in-first-out server with some
work left of each entry. -/
structure ExactFifo (clock : ℚ) (planner : LoadPlanner) (left : List ℚ) :
    Prop where
  ordered : planner.entries.IsChain fun earlier later =>
    earlier.endsAt ≤ later.startsAt
  timed : ∀ entry ∈ planner.entries,
    entry.endsAt = entry.startsAt + entry.serviceS
  single : (planner.entries.map Staging.reqId).Nodup
  indexed : ∀ reqId entry,
    planner.stagingByReq.find? reqId = some entry ↔
      entry ∈ planner.entries ∧ entry.reqId = reqId
  retired : ∀ now, clock ≤ now →
    (planner.retireShadowEntries now).entries =
        planner.entries.filter (fun entry => now < entry.endsAt) ∧
      ∀ reqId entry,
        (planner.retireShadowEntries now).stagingByReq.find? reqId =
            some entry ↔
          entry ∈ (planner.retireShadowEntries now).entries ∧
            entry.reqId = reqId
  works : ∀ now, clock ≤ now →
    serve (now - clock) left =
      (planner.retireShadowEntries now).entries.map fun entry =>
        min entry.serviceS (entry.endsAt - now)
  residual : ∀ now, clock ≤ now →
    (planner.retireShadowEntries now).shadowResidual now =
      (serve (now - clock) left).sum

private theorem serve_lefts {clock now : ℚ} {planner : LoadPlanner}
    (books : QueueBooks clock planner) (ordered : clock ≤ now) :
    serve (now - clock) (planner.lefts clock) =
      (planner.retireShadowEntries now).lefts now := by
  obtain ⟨origin, started, gapless⟩ := books.gapless
  have unfinished : ∀ booking ∈ planner.bookings,
      clock ≤ booking.finish := by
    intro booking member
    obtain ⟨entry, listed, rfl⟩ := List.mem_map.mp member
    exact books.unfinished entry listed
  rw [lefts_eq, gapless.serve_left started ordered unfinished, lefts,
    books.retire_entries, bookings, List.filter_map, List.map_map]
  rfl

/-- The books say all that a server would. -/
theorem QueueBooks.exactFifo {clock : ℚ} {planner : LoadPlanner}
    (books : QueueBooks clock planner) :
    ExactFifo clock planner (planner.lefts clock) := by
  obtain ⟨origin, started, gapless⟩ := books.gapless
  constructor
  · have chained := (List.isChain_map Staging.booking).mp gapless.isChain
    exact chained.imp fun _ _ next => next.le
  · exact books.timed
  · exact books.single
  · exact books.indexed
  · intro now ordered
    exact ⟨books.retire_entries, (books.retire ordered).indexed⟩
  · intro now ordered
    rw [serve_lefts books ordered]
    apply List.map_congr_left
    intro entry member
    have work : entry.booking.work = entry.serviceS := by
      have timed := (books.retire ordered).timed entry member
      exact sub_eq_of_eq_add' timed
    exact congrArg (fun work => min work (entry.endsAt - now)) work
  · intro now ordered
    have later := books.retire ordered
    obtain ⟨next, begun, queue⟩ := later.gapless
    have unfinished : ∀ booking ∈
        (planner.retireShadowEntries now).bookings,
        now ≤ booking.finish := by
      intro booking member
      obtain ⟨entry, listed, rfl⟩ := List.mem_map.mp member
      exact later.unfinished entry listed
    rw [serve_lefts books ordered, lefts_eq,
      queue.sum_left begun unfinished]
    unfold shadowResidual lastFinish bookings
    rw [List.getLast?_map]
    cases final : (planner.retireShadowEntries now).entries.getLast? with
    | none => exact (sub_self now).symm
    | some last =>
        have behind := later.unfinished last (List.mem_of_getLast? final)
        exact max_eq_right (sub_nonneg.mpr behind)

theorem Served.books {hash : Type} [DecidableEq hash] {config : Config}
    (nonnegative : ∀ nblocks, 0 ≤ config.tables.serviceSOf nblocks)
    {clock : ℚ} {planner : LoadPlanner} {left : List ℚ}
    (reached : Served hash config clock planner left) :
    QueueBooks clock planner ∧ left = planner.lefts clock := by
  induction reached with
  | init clock => exact ⟨.init clock, rfl⟩
  | plan reached call ordered inductionHypothesis =>
      obtain ⟨books, rfl⟩ := inductionHypothesis
      obtain ⟨kept, appended, queue, works⟩ :=
        plan_queue nonnegative books ordered
      refine ⟨kept, ?_⟩
      rw [serve_lefts books ordered]
      unfold booked lefts
      rw [queue, List.drop_left, List.map_append]
      congr 1
      apply List.map_congr_left
      intro entry member
      exact (works entry member).symm
  | @reset clock planner left reached inductionHypothesis =>
      exact ⟨.init clock, rfl⟩

/-- In every run the queue of the planner is the queue of the server, and a
call only adds to what its retirement leaves. -/
theorem shadow_queue_is_fifo {hash : Type} [DecidableEq hash]
    {config : Config}
    (nonnegative : ∀ nblocks, 0 ≤ config.tables.serviceSOf nblocks)
    {clock : ℚ} {planner : LoadPlanner} {left : List ℚ}
    (reached : Served hash config clock planner left) :
    ExactFifo clock planner left ∧
      ∀ call : Call hash, clock ≤ call.now →
        (planner.plan config call).2.entries =
          (planner.retireShadowEntries call.now).entries ++
            planner.booked config call := by
  obtain ⟨books, rfl⟩ := reached.books nonnegative
  refine ⟨books.exactFifo, ?_⟩
  intro call ordered
  obtain ⟨_, appended, queue, _⟩ := plan_queue nonnegative books ordered
  rw [booked, queue, List.drop_left]

/-- Two reads of one call wait for one another. -/
def sampleCall : Call Nat :=
  ⟨3, [sampleCandidate "a" [1], sampleCandidate "b" [2, 3]], []⟩

/-- The queue after the two reads, with a second and four seconds left. -/
theorem shadow_queue_is_fifo_sample :
    ExactFifo 3 (init.plan sampleConfig sampleCall).2 [1, 4] ∧
      ∀ call : Call Nat, 3 ≤ call.now →
        ((init.plan sampleConfig sampleCall).2.plan sampleConfig
            call).2.entries =
          ((init.plan sampleConfig sampleCall).2.retireShadowEntries
              call.now).entries ++
            (init.plan sampleConfig sampleCall).2.booked sampleConfig
              call := by
  have reached := Served.plan (@Served.init Nat _ sampleConfig 0) sampleCall
    (by decide +kernel)
  have left : serve (sampleCall.now - 0) [] ++
      (init.booked sampleConfig sampleCall).map Staging.serviceS =
      [1, 4] := by decide +kernel
  rw [left] at reached
  exact shadow_queue_is_fifo sampleConfig_nonnegative.service reached

end LoadPlanner

end PyKvCache.Planner
