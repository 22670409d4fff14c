import PyKvCache.Worker.OffloadingHandler

/-!
# What the handler reports

The handler next to its futures, for any interleaving of its calls with the
reactor resolving futures.  `get_finished` looks at one future after the
other, so futures are also resolved in the middle of it.

Three histories are kept: the transfers that were accepted, whose positions
are the numbers of their futures; the futures that were reported; and those
that were reported since the last `get_declined_block_ids`.
-/

namespace PyKvCache.Worker

open PyKvCache.Library
open PyKvCache.Reactor PyKvCache.Transfer

/-- An accepted transfer. -/
structure Ticket where
  jobId : Int
  blockIds : List Int
  submission : Submission
  deriving DecidableEq

/-- The handler, the futures, and the histories; `collected` are the futures
that the current `get_finished` has found done. -/
structure World where
  handler : OffloadingHandler
  outcomes : Nat → Option Outcome
  accepted : List Ticket
  collected : List Nat
  reported : List Nat
  reportedSince : List Nat

/-- The reactor resolves a future: the break-even gate declines the load, or
the future gets anything but a `LoadDeclined`. -/
inductive Resolution where
  | decline (future : Nat)
  | settle (future : Nat) (outcome : Outcome)

/-- What happens between two calls, or is a call; the resolutions of
`getFinished` come before each future it looks at. -/
inductive Event where
  | transfer (jobId : Int) (srcSpec dstSpec : LoadStoreSpec)
      (reqId : String)
  | resolve (resolution : Resolution)
  | getFinished (during : List (List Resolution))
  | getDeclinedBlockIds
  | getDeclinedReqIds

namespace World

/-- The handler after `__init__`. -/
def start : World where
  handler := .init
  outcomes := fun _ => none
  accepted := []
  collected := []
  reported := []
  reportedSince := []

variable (world : World)

/-- The job behind a future that is not resolved yet. -/
def outstanding (future : Nat) : Option Job :=
  match world.outcomes future, world.accepted[future]? with
  | none, some ⟨_, _, .job job⟩ => some job
  | _, _ => none

/-- `set_result` or `set_exception`. -/
def settle (future : Nat) (outcome : Outcome) : World :=
  { world with
    outcomes := Function.update world.outcomes future (some outcome) }

/-- One resolution; a future is resolved once, and only loads are declined. -/
def resolve : Resolution → World
  | .decline future =>
      match world.outstanding future with
      | some job =>
          if job.isStore then
            world
          else
            world.settle future (declinedOutcome job)
      | none => world
  | .settle future outcome =>
      match world.outstanding future, outcome with
      | some _, .exception (.loadDeclined _ _) => world
      | some _, outcome => world.settle future outcome
      | none, _ => world

/-- Several resolutions, in order. -/
def resolveAll (resolutions : List Resolution) : World :=
  resolutions.foldl resolve world

/-- `transfer_async`. -/
def transfer (layout : ParsedKvLayout) (jobId : Int)
    (srcSpec dstSpec : LoadStoreSpec) (reqId : String) : World :=
  match world.handler.transferAsync layout world.accepted.length jobId
      srcSpec dstSpec reqId with
  | .error _ => world
  | .ok (handler, submission) =>
      { world with
        handler := handler
        accepted :=
          world.accepted ++
            [⟨jobId, OffloadingHandler.gpuBlockIds srcSpec dstSpec,
              submission⟩]
        outcomes :=
          match submission with
          | .atOnce outcome =>
              Function.update world.outcomes world.accepted.length
                (some outcome)
          | .job _ => world.outcomes }

/-- One round of the loop of `get_finished`. -/
def poll (entry : Int × ActiveTransfer) : World :=
  match world.outcomes entry.2.future with
  | none => world
  | some outcome =>
      { world with
        handler := world.handler.collect entry.1 entry.2 outcome
        collected := world.collected ++ [entry.2.future] }

/-- The loop of `get_finished` over `list(self._active.items())`. -/
def pollAll : World → List (Int × ActiveTransfer) →
    List (List Resolution) → World
  | world, [], _ => world
  | world, entry :: later, during =>
      pollAll ((world.resolveAll (during.headD [])).poll entry) later
        during.tail

/-- `get_finished`. -/
def getFinished (during : List (List Resolution)) :
    List TransferResult × World :=
  let polled := world.pollAll world.handler.active.entries during
  let (results, handler) := polled.handler.takeFinished
  (results,
    { polled with
      handler := handler
      collected := []
      reported := polled.collected ++ polled.reported
      reportedSince := polled.collected ++ polled.reportedSince })

/-- `get_declined_block_ids`. -/
def getDeclinedBlockIds : Finset Int × World :=
  let (blockIds, handler) := world.handler.getDeclinedBlockIds
  (blockIds, { world with handler := handler, reportedSince := [] })

/-- `get_declined_req_ids`. -/
def getDeclinedReqIds : Finset String × World :=
  let (reqIds, handler) := world.handler.getDeclinedReqIds
  (reqIds, { world with handler := handler })

variable (layout : ParsedKvLayout)

/-- One event. -/
def step : World → Event → World
  | world, .transfer jobId srcSpec dstSpec reqId =>
      world.transfer layout jobId srcSpec dstSpec reqId
  | world, .resolve resolution => world.resolve resolution
  | world, .getFinished during => (world.getFinished during).2
  | world, .getDeclinedBlockIds => world.getDeclinedBlockIds.2
  | world, .getDeclinedReqIds => world.getDeclinedReqIds.2

/-- A whole run of the handler. -/
def run (events : List Event) : World :=
  events.foldl (step layout) start

/-! ## What the calls owe -/

/-- A result is the one a future stands for: its job, and a failure exactly
for an exception other than `LoadDeclined`. -/
def Reports (future : Nat) (result : TransferResult) : Prop :=
  ∃ ticket outcome,
    world.accepted[future]? = some ticket ∧
      world.outcomes future = some outcome ∧
      result.jobId = ticket.jobId ∧
      (result.success = false ↔ OffloadingHandler.Failure outcome)

/-- The load behind a future was declined by the break-even gate. -/
def Declined (future : Nat) : Prop :=
  ∃ blockIds reqId,
    world.outcomes future = some (.exception (.loadDeclined blockIds reqId))

/-- A GPU block that was submitted for a declined load. -/
def Surfaces (future : Nat) (blockId : Int) : Prop :=
  world.Declined future ∧
    ∃ ticket, world.accepted[future]? = some ticket ∧
      blockId ∈ ticket.blockIds

/-- What a call made now answers.  `get_finished` reports, once each, futures
that were not reported before: all that are resolved when the call is made,
and none that is not resolved when the call looks at it.
`get_declined_block_ids` answers the blocks submitted for the declined loads
that were reported since the last such call. -/
structure AnswersRight : Prop where
  once :
    world.reported.Nodup ∧
      ∀ future ∈ world.reported, future < world.accepted.length
  finished :
    ∀ during, ∃ futures,
      (world.getFinished during).2.reported = futures ++ world.reported ∧
        futures.Nodup ∧
        List.Forall₂ (world.getFinished during).2.Reports futures
          (world.getFinished during).1 ∧
        (∀ future ∈ futures, future < world.accepted.length ∧
          future ∉ world.reported) ∧
        ∀ future, (world.outcomes future).isSome →
          future ∉ world.reported → future ∈ futures
  declined :
    ∀ blockId, blockId ∈ world.getDeclinedBlockIds.1 ↔
      ∃ future ∈ world.reportedSince, world.Surfaces future blockId

/-! ## The invariant -/

/-- The futures of the transfers that were not reported yet. -/
def activeFutures : List Nat :=
  world.handler.active.values.map ActiveTransfer.future

/-- The books at any moment, also in the middle of `get_finished`. -/
structure Books : Prop where
  accounts :
    (world.activeFutures ++ (world.collected ++ world.reported)).Perm
      (List.range world.accepted.length)
  tickets :
    ∀ jobId entry, (jobId, entry) ∈ world.handler.active.entries →
      ∃ ticket, world.accepted[entry.future]? = some ticket ∧
        ticket.jobId = jobId
  results :
    List.Forall₂ world.Reports world.collected
      world.handler.finished.values
  apart :
    ∀ jobId entry, (jobId, entry) ∈ world.handler.active.entries →
      world.handler.finished.find? jobId = none
  jobs :
    ∀ ticket ∈ world.accepted, ∀ job, ticket.submission = .job job →
      job.blockChunks.flatten = ticket.blockIds
  honest :
    ∀ future blockIds reqId,
      world.outcomes future =
          some (.exception (.loadDeclined blockIds reqId)) →
        ∃ ticket, world.accepted[future]? = some ticket ∧
          blockIds = ticket.blockIds
  resolved :
    ∀ future ∈ world.collected ++ world.reported,
      (world.outcomes future).isSome
  fresh :
    ∀ future, world.accepted.length ≤ future →
      world.outcomes future = none
  since : ∀ future ∈ world.reportedSince, future ∈ world.reported
  surfaced :
    ∀ blockId, blockId ∈ world.handler.declinedBlockIds ↔
      ∃ future ∈ world.collected ++ world.reportedSince,
        world.Surfaces future blockId

theorem start_books : start.Books := by
  constructor
  case accounts => exact .refl _
  case tickets =>
    intro jobId entry member
    cases member
  case results => exact .nil
  case apart =>
    intro jobId entry member
    cases member
  case jobs =>
    intro ticket member
    cases member
  case honest =>
    intro future blockIds reqId held
    cases held
  case resolved =>
    intro future member
    cases member
  case fresh =>
    intro future _
    rfl
  case since =>
    intro future member
    cases member
  case surfaced =>
    intro blockId
    simp [start, OffloadingHandler.init]

/-! ## Time passes -/

/-- Accepted transfers keep their numbers and resolved futures what they
hold. -/
structure Grows (world later : World) : Prop where
  accepted :
    ∀ (future : Nat) (ticket : Ticket),
      world.accepted[future]? = some ticket →
        later.accepted[future]? = some ticket
  outcomes :
    ∀ future outcome, world.outcomes future = some outcome →
      later.outcomes future = some outcome

theorem Grows.refl (world : World) : world.Grows world :=
  ⟨fun _ _ found => found, fun _ _ held => held⟩

theorem Grows.trans {first second third : World}
    (one : first.Grows second) (two : second.Grows third) :
    first.Grows third :=
  ⟨fun future ticket found =>
      two.accepted future ticket (one.accepted future ticket found),
    fun future outcome held =>
      two.outcomes future outcome (one.outcomes future outcome held)⟩

section Grow

variable {world} {later : World} (grows : world.Grows later)
include grows

theorem Grows.isSome {future : Nat}
    (resolved : (world.outcomes future).isSome) :
    (later.outcomes future).isSome := by
  obtain ⟨outcome, held⟩ := Option.isSome_iff_exists.mp resolved
  rw [grows.outcomes future outcome held]
  rfl

theorem Grows.reports {future : Nat} {result : TransferResult}
    (right : world.Reports future result) :
    later.Reports future result := by
  obtain ⟨ticket, outcome, found, held, ofJob, failed⟩ := right
  exact ⟨ticket, outcome, grows.accepted future ticket found,
    grows.outcomes future outcome held, ofJob, failed⟩

theorem Grows.forall₂_reports {futures : List Nat}
    {results : List TransferResult}
    (right : List.Forall₂ world.Reports futures results) :
    List.Forall₂ later.Reports futures results :=
  right.imp fun _ _ one => grows.reports one

/-- What a resolved future surfaces does not change any more. -/
theorem Grows.surfaces_iff {future : Nat} {blockId : Int}
    (resolved : (world.outcomes future).isSome)
    (known : future < world.accepted.length) :
    later.Surfaces future blockId ↔ world.Surfaces future blockId := by
  obtain ⟨outcome, held⟩ := Option.isSome_iff_exists.mp resolved
  have laterHeld := grows.outcomes future outcome held
  have found := List.getElem?_eq_getElem known
  have laterFound := grows.accepted future _ found
  simp only [Surfaces, Declined, held, laterHeld, found, laterFound]

end Grow

/-! ## The reactor resolves futures -/

section Resolve

variable {world}

theorem Books.known (books : world.Books) {future : Nat}
    (member : future ∈ world.collected ++ world.reported) :
    future < world.accepted.length := by
  have listed := List.mem_append_right world.activeFutures member
  exact List.mem_range.mp (books.accounts.mem_iff.mp listed)

/-- What waits to be surfaced stays the same. -/
theorem Books.surfaced_iff_of_grows (books : world.Books)
    {later : World} (grows : world.Grows later) (blockId : Int) :
    (∃ future ∈ world.collected ++ world.reportedSince,
        world.Surfaces future blockId) ↔
      ∃ future ∈ world.collected ++ world.reportedSince,
        later.Surfaces future blockId := by
  apply exists_congr
  intro future
  apply and_congr_right
  intro member
  have counted : future ∈ world.collected ++ world.reported := by
    rcases List.mem_append.mp member with now | before
    · exact List.mem_append_left _ now
    · exact List.mem_append_right _ (books.since future before)
  exact (grows.surfaces_iff (books.resolved future counted)
    (books.known counted)).symm

theorem outstanding_eq_some {future : Nat} {job : Job}
    (found : world.outstanding future = some job) :
    world.outcomes future = none ∧
      ∃ ticket, world.accepted[future]? = some ticket ∧
        ticket.submission = .job job := by
  rw [outstanding] at found
  split at found
  next unresolved listed =>
    cases found
    exact ⟨unresolved, _, listed, rfl⟩
  next => cases found

/-- A resolution gives an unresolved future an outcome, with the ids of its
own transfer if it is a decline; or it is none. -/
theorem Books.resolve_cases (books : world.Books)
    (resolution : Resolution) :
    world.resolve resolution = world ∨
      ∃ future outcome ticket,
        world.resolve resolution = world.settle future outcome ∧
          world.outcomes future = none ∧
          world.accepted[future]? = some ticket ∧
          ∀ blockIds reqId,
            outcome = .exception (.loadDeclined blockIds reqId) →
              blockIds = ticket.blockIds := by
  cases resolution with
  | decline future =>
      cases found : world.outstanding future with
      | none =>
          left
          rw [resolve, found]
      | some job =>
          obtain ⟨unresolved, ticket, listed, submitted⟩ :=
            outstanding_eq_some found
          by_cases store : job.isStore
          · left
            simp only [resolve, found, if_pos store]
          · right
            refine ⟨future, declinedOutcome job, ticket, ?_, unresolved,
              listed, ?_⟩
            · simp only [resolve, found, if_neg store]
            · intro blockIds reqId equal
              cases equal
              exact books.jobs ticket (List.mem_of_getElem? listed) job
                submitted
  | settle future outcome =>
      cases found : world.outstanding future with
      | none =>
          left
          simp only [resolve, found]
      | some job =>
          obtain ⟨unresolved, ticket, listed, _⟩ :=
            outstanding_eq_some found
          by_cases declines :
              ∃ blockIds reqId,
                outcome = .exception (.loadDeclined blockIds reqId)
          · obtain ⟨blockIds, reqId, rfl⟩ := declines
            left
            simp only [resolve, found]
          · right
            refine ⟨future, outcome, ticket, ?_, unresolved, listed, ?_⟩
            · cases outcome with
              | result bytes => simp only [resolve, found]
              | exception error =>
                  cases error with
                  | loadDeclined blockIds reqId =>
                      exact absurd ⟨blockIds, reqId, rfl⟩ declines
                  | _ => simp only [resolve, found]
            · intro blockIds reqId equal
              exact absurd ⟨blockIds, reqId, equal⟩ declines

theorem settle_grows {future : Nat} (outcome : Outcome)
    (unresolved : world.outcomes future = none) :
    world.Grows (world.settle future outcome) := by
  constructor
  · intro other ticket found
    exact found
  · intro other held found
    have different : other ≠ future := by
      intro same
      rw [same, unresolved] at found
      cases found
    change Function.update world.outcomes future (some outcome) other = _
    rw [Function.update_of_ne different]
    exact found

theorem Books.settle (books : world.Books)
    {future : Nat} {outcome : Outcome} {ticket : Ticket}
    (unresolved : world.outcomes future = none)
    (listed : world.accepted[future]? = some ticket)
    (own : ∀ blockIds reqId,
      outcome = .exception (.loadDeclined blockIds reqId) →
        blockIds = ticket.blockIds) :
    (world.settle future outcome).Books := by
  have grows := settle_grows outcome unresolved
  constructor
  case accounts => exact books.accounts
  case tickets => exact books.tickets
  case results => exact grows.forall₂_reports books.results
  case apart => exact books.apart
  case jobs => exact books.jobs
  case honest =>
    intro other blockIds reqId held
    by_cases same : other = future
    · subst same
      change Function.update world.outcomes other (some outcome) other =
        _ at held
      rw [Function.update_self] at held
      exact ⟨ticket, listed, own _ _ (Option.some.inj held)⟩
    · change Function.update world.outcomes future (some outcome) other =
        _ at held
      rw [Function.update_of_ne same] at held
      exact books.honest other blockIds reqId held
  case resolved =>
    intro other member
    exact grows.isSome (books.resolved other member)
  case fresh =>
    intro other beyond
    change world.accepted.length ≤ other at beyond
    have different : other ≠ future := by
      intro same
      subst same
      have inside := (List.getElem?_eq_some_iff.mp listed).1
      omega
    change Function.update world.outcomes future (some outcome) other = _
    rw [Function.update_of_ne different]
    exact books.fresh other beyond
  case since => exact books.since
  case surfaced =>
    intro blockId
    change blockId ∈ world.handler.declinedBlockIds ↔
      ∃ other ∈ world.collected ++ world.reportedSince,
        (world.settle future outcome).Surfaces other blockId
    exact (books.surfaced blockId).trans
      (books.surfaced_iff_of_grows grows blockId)

/-- What resolutions leave alone. -/
structure SameBut (world later : World) : Prop where
  handler : later.handler = world.handler
  accepted : later.accepted = world.accepted
  collected : later.collected = world.collected
  reported : later.reported = world.reported
  reportedSince : later.reportedSince = world.reportedSince

theorem Books.resolve (books : world.Books) (resolution : Resolution) :
    (world.resolve resolution).Books ∧
      world.Grows (world.resolve resolution) ∧
      world.SameBut (world.resolve resolution) := by
  rcases books.resolve_cases resolution with
    same | ⟨future, outcome, ticket, settled, unresolved, listed, own⟩
  · rw [same]
    exact ⟨books, .refl world, rfl, rfl, rfl, rfl, rfl⟩
  · rw [settled]
    exact ⟨books.settle unresolved listed own,
      settle_grows outcome unresolved, rfl, rfl, rfl, rfl, rfl⟩

theorem Books.resolveAll (books : world.Books)
    (resolutions : List Resolution) :
    (world.resolveAll resolutions).Books ∧
      world.Grows (world.resolveAll resolutions) ∧
      world.SameBut (world.resolveAll resolutions) := by
  induction resolutions generalizing world with
  | nil => exact ⟨books, .refl world, rfl, rfl, rfl, rfl, rfl⟩
  | cons first later inductionHypothesis =>
      obtain ⟨once, grown, same⟩ := books.resolve first
      obtain ⟨all, allGrown, allSame⟩ := inductionHypothesis once
      refine ⟨all, grown.trans allGrown, ?_⟩
      constructor
      · exact allSame.handler.trans same.handler
      · exact allSame.accepted.trans same.accepted
      · exact allSame.collected.trans same.collected
      · exact allSame.reported.trans same.reported
      · exact allSame.reportedSince.trans same.reportedSince

end Resolve

/-! ## `get_finished` -/

section GetFinished

variable {world}

/-- The world after a future that is done was looked at. -/
def found (world : World) (entry : Int × ActiveTransfer)
    (outcome : Outcome) : World :=
  { world with
    handler := world.handler.collect entry.1 entry.2 outcome
    collected := world.collected ++ [entry.2.future] }

theorem poll_of_none {entry : Int × ActiveTransfer}
    (unresolved : world.outcomes entry.2.future = none) :
    world.poll entry = world := by
  rw [poll, unresolved]

theorem poll_of_some {entry : Int × ActiveTransfer} {outcome : Outcome}
    (held : world.outcomes entry.2.future = some outcome) :
    world.poll entry = world.found entry outcome := by
  rw [poll, held]
  rfl

/-- What a future surfaces, by its outcome. -/
theorem Books.surfaces_iff (books : world.Books) {future : Nat}
    {outcome : Outcome} (held : world.outcomes future = some outcome)
    (blockId : Int) :
    world.Surfaces future blockId ↔
      ∃ blockIds reqId,
        outcome = .exception (.loadDeclined blockIds reqId) ∧
          blockId ∈ blockIds := by
  constructor
  · intro surfaces
    obtain ⟨⟨blockIds, reqId, declined⟩, ticket, listed, member⟩ :=
      surfaces
    obtain ⟨own, ownListed, equal⟩ :=
      books.honest future blockIds reqId declined
    rw [listed] at ownListed
    cases ownListed
    rw [held] at declined
    exact ⟨blockIds, reqId, Option.some.inj declined,
      by rw [equal]; exact member⟩
  · intro given
    obtain ⟨blockIds, reqId, declined, member⟩ := given
    rw [declined] at held
    obtain ⟨ticket, listed, equal⟩ :=
      books.honest future blockIds reqId held
    exact ⟨⟨blockIds, reqId, held⟩, ticket, listed,
      by rw [← equal]; exact member⟩

theorem Books.found (books : world.Books)
    {entry : Int × ActiveTransfer} {outcome : Outcome}
    (listed : entry ∈ world.handler.active.entries)
    (held : world.outcomes entry.2.future = some outcome) :
    (world.found entry outcome).Books := by
  have active : world.handler.active.find? entry.1 = some entry.2 :=
    OrderedDict.find?_eq_some_iff.mpr listed
  have missing := books.apart entry.1 entry.2 listed
  obtain ⟨ofJob, failed⟩ :=
    @OffloadingHandler.futureToTransferResult_result world.handler entry.1
      outcome entry.2.transferType
  constructor
  case accounts =>
    have taken :=
      (OrderedDict.values_perm_erase active).map ActiveTransfer.future
    have moved :
        (entry.2.future ::
          (world.handler.active.erase entry.1).values.map
            ActiveTransfer.future ++
          (world.collected ++ world.reported)).Perm
        (List.range world.accepted.length) :=
      (taken.symm.append_right _).trans books.accounts
    refine List.Perm.trans ?_ moved
    change (((world.handler.collect entry.1 entry.2 outcome).active.values
      |>.map ActiveTransfer.future) ++
        ((world.collected ++ [entry.2.future]) ++ world.reported)).Perm _
    rw [OffloadingHandler.collect_active, List.append_assoc]
    exact (List.perm_middle.append_left _).trans List.perm_middle
  case tickets =>
    intro jobId other member
    change (jobId, other) ∈
      (world.handler.collect entry.1 entry.2 outcome).active.entries
        at member
    rw [OffloadingHandler.collect_active,
      OrderedDict.mem_erase_entries] at member
    exact books.tickets jobId other member.1
  case results =>
    change List.Forall₂ world.Reports
      (world.collected ++ [entry.2.future])
      (world.handler.collect entry.1 entry.2 outcome).finished.values
    obtain ⟨ticket, ownTicket, ownJob⟩ :=
      books.tickets entry.1 entry.2 listed
    rw [OffloadingHandler.collect_finished, OrderedDict.values,
      OrderedDict.entries_set_of_none missing, List.map_append]
    refine List.rel_append books.results (.cons ?_ .nil)
    exact ⟨ticket, outcome, ownTicket, held, ofJob.trans ownJob.symm,
      failed⟩
  case apart =>
    intro jobId other member
    change (jobId, other) ∈
      (world.handler.collect entry.1 entry.2 outcome).active.entries
        at member
    change (world.handler.collect entry.1 entry.2 outcome).finished.find?
      jobId = none
    rw [OffloadingHandler.collect_active,
      OrderedDict.mem_erase_entries] at member
    rw [OffloadingHandler.collect_finished, OrderedDict.find?_set,
      if_neg member.2]
    exact books.apart jobId other member.1
  case jobs => exact books.jobs
  case honest => exact books.honest
  case resolved =>
    intro future member
    change future ∈
      (world.collected ++ [entry.2.future]) ++ world.reported at member
    change (world.outcomes future).isSome
    rw [List.append_assoc, List.mem_append, List.mem_append,
      List.mem_singleton] at member
    rcases member with before | rfl | reported
    · exact books.resolved future (List.mem_append_left _ before)
    · rw [held]
      rfl
    · exact books.resolved future (List.mem_append_right _ reported)
  case fresh => exact books.fresh
  case since => exact books.since
  case surfaced =>
    intro blockId
    change blockId ∈
        (world.handler.collect entry.1 entry.2
          outcome).declinedBlockIds ↔
      ∃ future ∈
        (world.collected ++ [entry.2.future]) ++ world.reportedSince,
        world.Surfaces future blockId
    rw [OffloadingHandler.collect_declinedBlockIds,
      OffloadingHandler.futureToTransferResult_declined,
      books.surfaced blockId, ← books.surfaces_iff held blockId]
    simp only [List.mem_append, List.mem_singleton]
    constructor
    · rintro (⟨future, before | since, surfaces⟩ | surfaces)
      · exact ⟨future, .inl (.inl before), surfaces⟩
      · exact ⟨future, .inr since, surfaces⟩
      · exact ⟨_, .inl (.inr rfl), surfaces⟩
    · rintro ⟨future, (before | rfl) | since, surfaces⟩
      · exact .inl ⟨future, .inl before, surfaces⟩
      · exact .inr surfaces
      · exact .inl ⟨future, .inr since, surfaces⟩

/-- One round of the loop: the futures may move on before it. -/
theorem Books.poll (books : world.Books)
    {entry : Int × ActiveTransfer}
    (listed : entry ∈ world.handler.active.entries) :
    (world.poll entry).Books := by
  cases held : world.outcomes entry.2.future with
  | none =>
      rw [poll_of_none held]
      exact books
  | some outcome =>
      rw [poll_of_some held]
      exact books.found listed held

/-- What the loop of `get_finished` does to the world. -/
structure Polls (world later : World) : Prop where
  grows : world.Grows later
  accepted : later.accepted = world.accepted
  reported : later.reported = world.reported
  reportedSince : later.reportedSince = world.reportedSince
  collected : ∀ future ∈ world.collected, future ∈ later.collected

theorem Polls.trans {first second third : World}
    (one : first.Polls second) (two : second.Polls third) :
    first.Polls third := by
  constructor
  · exact one.grows.trans two.grows
  · exact two.accepted.trans one.accepted
  · exact two.reported.trans one.reported
  · exact two.reportedSince.trans one.reportedSince
  · intro future member
    exact two.collected future (one.collected future member)

theorem SameBut.polls {later : World} (grows : world.Grows later)
    (same : world.SameBut later) :
    world.Polls later := by
  constructor
  · exact grows
  · exact same.accepted
  · exact same.reported
  · exact same.reportedSince
  · intro future member
    rw [same.collected]
    exact member

theorem polls_poll (entry : Int × ActiveTransfer) :
    world.Polls (world.poll entry) := by
  cases held : world.outcomes entry.2.future with
  | none =>
      rw [poll_of_none held]
      exact ⟨.refl world, rfl, rfl, rfl, fun _ member => member⟩
  | some outcome =>
      rw [poll_of_some held]
      refine ⟨⟨fun _ _ listed => listed, fun _ _ same => same⟩, rfl, rfl,
        rfl, ?_⟩
      intro future member
      exact List.mem_append_left _ member

/-- The entries of other jobs stay. -/
theorem mem_active_poll {entry other : Int × ActiveTransfer}
    (listed : other ∈ world.handler.active.entries)
    (different : other.1 ≠ entry.1) :
    other ∈ (world.poll entry).handler.active.entries := by
  cases held : world.outcomes entry.2.future with
  | none =>
      rw [poll_of_none held]
      exact listed
  | some outcome =>
      rw [poll_of_some held]
      change other ∈
        (world.handler.collect entry.1 entry.2 outcome).active.entries
      rw [OffloadingHandler.collect_active,
        OrderedDict.mem_erase_entries]
      exact ⟨listed, different⟩

theorem mem_collected_poll {entry : Int × ActiveTransfer}
    (resolved : (world.outcomes entry.2.future).isSome) :
    entry.2.future ∈ (world.poll entry).collected := by
  obtain ⟨outcome, held⟩ := Option.isSome_iff_exists.mp resolved
  rw [poll_of_some held]
  exact List.mem_append_right _ (List.mem_singleton_self _)

/-- The loop, over the entries that are left: it keeps the books, and collects
every future that was resolved when it began. -/
theorem Books.pollAll
    (later : List (Int × ActiveTransfer))
    (during : List (List Resolution))
    (books : world.Books)
    (listed : ∀ entry ∈ later, entry ∈ world.handler.active.entries)
    (distinct : (later.map Prod.fst).Nodup) :
    (world.pollAll later during).Books ∧
      world.Polls (world.pollAll later during) ∧
      ∀ entry ∈ later, (world.outcomes entry.2.future).isSome →
        entry.2.future ∈ (world.pollAll later during).collected := by
  induction later generalizing world during with
  | nil =>
      exact ⟨books, ⟨.refl world, rfl, rfl, rfl, fun _ member => member⟩,
        fun _ member => absurd member List.not_mem_nil⟩
  | cons entry later inductionHypothesis =>
      rw [List.map_cons, List.nodup_cons] at distinct
      obtain ⟨settled, grows, same⟩ :=
        books.resolveAll (during.headD [])
      have moved := same.polls grows
      have here := listed entry List.mem_cons_self
      rw [← same.handler] at here
      have polled :=
        @polls_poll (world.resolveAll (during.headD [])) entry
      have rest :
          ∀ other ∈ later,
            other ∈ ((world.resolveAll (during.headD [])).poll
              entry).handler.active.entries := by
        intro other member
        apply mem_active_poll
        · rw [same.handler]
          exact listed other (List.mem_cons_of_mem _ member)
        · intro equal
          apply distinct.1
          rw [← equal]
          exact List.mem_map_of_mem member
      obtain ⟨kept, polls, prompt⟩ :=
        inductionHypothesis during.tail (settled.poll here) rest distinct.2
      have both := moved.trans polled
      refine ⟨kept, both.trans polls, ?_⟩
      intro other member resolved
      rcases List.mem_cons.mp member with rfl | after
      · exact polls.collected _
          (mem_collected_poll (grows.isSome resolved))
      · exact prompt other after (both.grows.isSome resolved)

theorem Books.getFinished (books : world.Books)
    (during : List (List Resolution)) :
    (world.getFinished during).2.Books := by
  obtain ⟨kept, _⟩ :=
    books.pollAll world.handler.active.entries during
      (fun _ member => member) world.handler.active.distinct
  constructor
  case accounts => exact kept.accounts
  case tickets => exact kept.tickets
  case results => exact .nil
  case apart =>
    intro jobId entry _
    rfl
  case jobs => exact kept.jobs
  case honest => exact kept.honest
  case resolved => exact kept.resolved
  case fresh => exact kept.fresh
  case since =>
    intro future member
    rcases List.mem_append.mp member with now | before
    · exact List.mem_append_left _ now
    · exact List.mem_append_right _ (kept.since future before)
  case surfaced => exact kept.surfaced

end GetFinished

/-! ## The other calls -/

section Calls

variable {world}

/-- The world with one more transfer, whose future is open. -/
def accepting (world : World) (ticket : Ticket)
    (transferType : String × String) : World :=
  { world with
    handler :=
      { world.handler with
        active :=
          world.handler.active.set ticket.jobId
            ⟨world.accepted.length, transferType⟩ }
    accepted := world.accepted ++ [ticket] }

theorem accepting_grows (ticket : Ticket)
    (transferType : String × String) :
    world.Grows (world.accepting ticket transferType) := by
  constructor
  · intro future other found
    have inside := (List.getElem?_eq_some_iff.mp found).1
    change (world.accepted ++ [ticket])[future]? = some other
    rw [List.getElem?_append_left inside]
    exact found
  · intro future outcome held
    exact held

theorem Books.accepting (books : world.Books) {ticket : Ticket}
    (transferType : String × String)
    (notActive : world.handler.active.find? ticket.jobId = none)
    (notFinished : world.handler.finished.find? ticket.jobId = none)
    (carries : ∀ job, ticket.submission = .job job →
      job.blockChunks.flatten = ticket.blockIds) :
    (world.accepting ticket transferType).Books := by
  have grows := @accepting_grows world ticket transferType
  have entries :
      (world.accepting ticket transferType).handler.active.entries =
        world.handler.active.entries ++
          [(ticket.jobId, ⟨world.accepted.length, transferType⟩)] :=
    OrderedDict.entries_set_of_none notActive
  constructor
  case accounts =>
    have futures :
        (world.accepting ticket transferType).activeFutures =
          world.activeFutures ++ [world.accepted.length] := by
      rw [activeFutures, OrderedDict.values, entries]
      simp [activeFutures, OrderedDict.values]
    rw [futures]
    change ((world.activeFutures ++ [world.accepted.length]) ++
        (world.collected ++ world.reported)).Perm
      (List.range (world.accepted ++ [ticket]).length)
    rw [List.length_append, List.length_singleton, List.range_succ,
      List.append_assoc]
    have front := (books.accounts.cons world.accepted.length).trans
      (List.perm_append_singleton _ _).symm
    exact List.perm_middle.trans front
  case tickets =>
    intro jobId entry member
    rw [entries, List.mem_append, List.mem_singleton] at member
    rcases member with before | new
    · obtain ⟨own, found, equal⟩ := books.tickets jobId entry before
      exact ⟨own, grows.accepted _ _ found, equal⟩
    · cases new
      refine ⟨ticket, ?_, rfl⟩
      change (world.accepted ++ [ticket])[world.accepted.length]? = _
      exact List.getElem?_concat_length
  case results => exact grows.forall₂_reports books.results
  case apart =>
    intro jobId entry member
    rw [entries, List.mem_append, List.mem_singleton] at member
    rcases member with before | new
    · exact books.apart jobId entry before
    · cases new
      exact notFinished
  case jobs =>
    intro other member
    rcases List.mem_append.mp member with before | new
    · exact books.jobs other before
    · rw [List.mem_singleton] at new
      subst new
      exact carries
  case honest =>
    intro future blockIds reqId held
    obtain ⟨own, found, equal⟩ :=
      books.honest future blockIds reqId held
    exact ⟨own, grows.accepted _ _ found, equal⟩
  case resolved => exact books.resolved
  case fresh =>
    intro future beyond
    apply books.fresh
    change (world.accepted ++ [ticket]).length ≤ future at beyond
    rw [List.length_append] at beyond
    omega
  case since => exact books.since
  case surfaced =>
    intro blockId
    change blockId ∈ world.handler.declinedBlockIds ↔
      ∃ other ∈ world.collected ++ world.reportedSince,
        (world.accepting ticket transferType).Surfaces other blockId
    exact (books.surfaced blockId).trans
      (books.surfaced_iff_of_grows grows blockId)

theorem Books.transfer (books : world.Books)
    (layout : ParsedKvLayout) (jobId : Int)
    (srcSpec dstSpec : LoadStoreSpec) (reqId : String) :
    (world.transfer layout jobId srcSpec dstSpec reqId).Books := by
  rw [World.transfer]
  split
  next => exact books
  next handler submission made =>
    obtain ⟨notActive, notFinished, transferType, rfl, submitted⟩ :=
      OffloadingHandler.transferAsync_accepts made
    obtain ⟨carries, atOnce⟩ :=
      OffloadingHandler.submit_carries submitted
    have opened :=
      @Books.accepting world books
        ⟨jobId, OffloadingHandler.gpuBlockIds srcSpec dstSpec, submission⟩
        transferType notActive notFinished carries
    cases submission with
    | job job => exact opened
    | atOnce outcome =>
        refine opened.settle (books.fresh _ (Nat.le_refl _))
          List.getElem?_concat_length ?_
        intro blockIds reqId declined
        have nothing := atOnce outcome rfl
        rw [nothing] at declined
        cases declined

/-- The calls that hand declined ids out change nothing else. -/
theorem Books.handOut (books : world.Books) (blockIds : Finset Int)
    (reqIds : Finset String) (since : List Nat)
    (reported : ∀ future ∈ since, future ∈ world.reported)
    (surfaced : ∀ blockId, blockId ∈ blockIds ↔
      ∃ future ∈ world.collected ++ since, world.Surfaces future blockId) :
    Books { world with
      handler :=
        { world.handler with
          declinedBlockIds := blockIds
          declinedReqIds := reqIds }
      reportedSince := since } where
  accounts := books.accounts
  tickets := books.tickets
  results := books.results
  apart := books.apart
  jobs := books.jobs
  honest := books.honest
  resolved := books.resolved
  fresh := books.fresh
  since := reported
  surfaced := surfaced

theorem Books.getDeclinedBlockIds (books : world.Books)
    (between : world.collected = []) :
    world.getDeclinedBlockIds.2.Books := by
  have emptied := books.handOut ∅ world.handler.declinedReqIds [] nofun
    (by simp [between])
  rwa [World.getDeclinedBlockIds, OffloadingHandler.getDeclinedBlockIds_eq]

theorem Books.getDeclinedReqIds (books : world.Books) :
    world.getDeclinedReqIds.2.Books := by
  have emptied := books.handOut world.handler.declinedBlockIds ∅
    world.reportedSince books.since books.surfaced
  rwa [World.getDeclinedReqIds, OffloadingHandler.getDeclinedReqIds_eq]

end Calls

/-! ## Runs -/

section Runs

variable {world} {layout}

/-- Every event leaves the books right, and no `get_finished` half done. -/
theorem Books.step (books : world.Books)
    (between : world.collected = []) (event : Event) :
    (world.step layout event).Books ∧
      (world.step layout event).collected = [] := by
  cases event with
  | transfer jobId srcSpec dstSpec reqId =>
      refine ⟨books.transfer layout jobId srcSpec dstSpec reqId, ?_⟩
      rw [World.step, World.transfer]
      split
      next => exact between
      next => exact between
  | resolve resolution =>
      obtain ⟨kept, _, same⟩ := books.resolve resolution
      exact ⟨kept, same.collected.trans between⟩
  | getFinished during => exact ⟨books.getFinished during, rfl⟩
  | getDeclinedBlockIds =>
      exact ⟨books.getDeclinedBlockIds between, between⟩
  | getDeclinedReqIds => exact ⟨books.getDeclinedReqIds, between⟩

theorem run_books (events : List Event) :
    (run layout events).Books ∧ (run layout events).collected = [] := by
  induction events using List.reverseRecOn with
  | nil => exact ⟨start_books, rfl⟩
  | append_singleton before event inductionHypothesis =>
      obtain ⟨books, between⟩ := inductionHypothesis
      rw [run, List.foldl_append]
      exact books.step between event

/-- With the books right, the calls answer what they owe. -/
theorem Books.answersRight (books : world.Books)
    (between : world.collected = []) :
    world.AnswersRight := by
  have all := books.accounts
  rw [between, List.nil_append] at all
  have distinct := all.nodup_iff.mpr List.nodup_range
  rw [List.nodup_append] at distinct
  constructor
  case once =>
    refine ⟨distinct.2.1, ?_⟩
    intro future member
    exact books.known (List.mem_append_right _ member)
  case finished =>
    intro during
    obtain ⟨kept, polls, prompt⟩ :=
      books.pollAll world.handler.active.entries during
        (fun _ member => member) world.handler.active.distinct
    have separate :=
      (kept.accounts.nodup_iff.mpr List.nodup_range).of_append_right
    rw [polls.reported, List.nodup_append] at separate
    refine ⟨(world.pollAll world.handler.active.entries during).collected,
      ?_, separate.1, kept.results, ?_, ?_⟩
    · change _ ++ (world.pollAll _ during).reported = _
      rw [polls.reported]
    · intro future member
      constructor
      · rw [← polls.accepted]
        exact kept.known (List.mem_append_left _ member)
      · intro before
        exact separate.2.2 future member future before rfl
    · intro future resolved unreported
      have known : future < world.accepted.length := by
        by_contra beyond
        rw [books.fresh future (by omega)] at resolved
        cases resolved
      have counted := all.mem_iff.mpr (List.mem_range.mpr known)
      rcases List.mem_append.mp counted with active | reported
      · obtain ⟨entry, listed, rfl⟩ := List.mem_map.mp active
        obtain ⟨pair, inside, rfl⟩ := List.mem_map.mp listed
        exact prompt pair inside resolved
      · exact absurd reported unreported
  case declined =>
    intro blockId
    have surfaced := books.surfaced blockId
    rw [between, List.nil_append] at surfaced
    rw [World.getDeclinedBlockIds,
      OffloadingHandler.getDeclinedBlockIds_eq]
    exact surfaced

/-- In every run of the handler each accepted transfer is reported once, by the
first `get_finished` that finds its future resolved, and every block of a
declined load is surfaced once it is reported. -/
theorem transfers_are_reported_once (events : List Event) :
    (run layout events).AnswersRight := by
  obtain ⟨books, between⟩ := run_books events
  exact books.answersRight between

/-- One layer, two blocks to a file. -/
def twoBlockLayout : ParsedKvLayout where
  gpuTensors := [0]
  bytesPerKernelBlock := [8]
  storageBlockSizeFactor := 2
  sameLayers := by decide
  factorPositive := Nat.two_pos

/-- Three blocks in two files, declined and reported. -/
example :
    (run twoBlockLayout
      [.transfer 9 (.sharedStorage [[0], [1]])
        (.gpu ⟨some [5, 6, 7], none, some [1]⟩) "r0",
       .resolve (.decline 0),
       .getFinished []]).getDeclinedBlockIds.1 = {5, 6, 7} := by
  decide

end Runs

end World

end PyKvCache.Worker
