import PyKvCache.Safety.Preloads

/-!
# The sources of shared preload demands

With shared preloads a request that is taken in queues a read for a hash it
newly owns unless `_has_any_shared_state` says that there is a source for it
already.  Its summary counts pending entries that have been cancelled but are
still in the queue.
-/

namespace PyKvCache.Safety

open PyKvCache.Library PyKvCache.Staging PyKvCache.Transfer
open PyKvCache.Reactor PyKvCache.Ledger PyKvCache.Library.Effect

variable {slotCount : Nat} {env : Env slotCount}
  {state next : State slotCount} {machine : Machine slotCount}
  {hash : BlockHash} {request : PreloadRequest}

/-! ## Sources -/

/-- The entries of a hash in `_preload_pending`. -/
def pendingEntries (hash : BlockHash) (state : State slotCount) : Nat :=
  state.preloadPending.countP fun info => info.blockHash = hash

/-- A demand for the hash will be met or is parked: a pending entry will not
be consumed by a cancellation, a preload is under way, there is a shared slot,
or an entry is parked on a store or on a missing file. -/
def HasSource (hash : BlockHash) (state : State slotCount) : Prop :=
  state.preloadPendingCancel.count hash < pendingEntries hash state ∨
    (∃ info ∈ preloadsUnderWay state, info.blockHash = hash) ∨
      state.sharedCached.contains hash = true ∨
        state.preloadBlockedOnWrite.contains hash = true ∨
          state.knownMissing.contains hash = true

/-- The hash has pending entries, all of them cancelled, and nothing else. -/
structure OnlyCancelled (hash : BlockHash) (state : State slotCount) :
    Prop where
  queued : 0 < pendingEntries hash state
  cancelled :
    pendingEntries hash state ≤ state.preloadPendingCancel.count hash
  idle : ∀ info ∈ preloadsUnderWay state, info.blockHash ≠ hash
  unshared : state.sharedCached.contains hash = false
  unparked : state.preloadBlockedOnWrite.contains hash = false
  unmissed : state.knownMissing.contains hash = false

/-- A request that is taken in newly takes the ownership of a hash that is not
in the staging cache. -/
def NewlyOwns (request : PreloadRequest) (hash : BlockHash)
    (state : State slotCount) : Prop :=
  state.inStagingCache hash = false ∧
    state.preloadOwned.contains (request.reqId, hash) = false

/-! ## The summary of a hash -/

/-- The counters of a hash say what they are kept for. -/
structure Summarised (hash : BlockHash) (state : State slotCount) :
    Prop where
  pending : state.preloadPendingCount.count hash = pendingEntries hash state
  cancelled : state.preloadPendingCancel.count hash ≤
    state.preloadPendingCount.count hash
  inflight : state.preloadInflightHashes.count hash =
    (preloadsUnderWay state).countP fun info => info.blockHash = hash

theorem summarised (quiet : env.Quiet)
    (reached : Machine.Reachable env machine)
    (running : machine.phase.Running) (hash : BlockHash) :
    Summarised hash machine.state := by
  obtain ⟨todo, inv⟩ := preloadInv quiet rfl (fun _ _ => permits_any)
    (reached.under fun _ => trivial) running
  refine ⟨?_, inv.cancels hash, inflight_eq inv.counts hash⟩
  rw [pendingEntries, ← weigh_ofHash]
  exact inv.counts.pending hash

theorem OnlyCancelled.not_hasSource (only : OnlyCancelled hash state) :
    ¬ HasSource hash state := by
  rintro (live | ⟨info, carried, same⟩ | shared | parked | missed)
  · have cancelled := only.cancelled
    omega
  · exact only.idle info carried same
  · exact Bool.false_ne_true (only.unshared.symm.trans shared)
  · exact Bool.false_ne_true (only.unparked.symm.trans parked)
  · exact Bool.false_ne_true (only.unmissed.symm.trans missed)

/-- What the summary takes for a source is one, or it counts cancelled entries
only. -/
theorem Summarised.hasSource_or_onlyCancelled
    (summary : Summarised hash state)
    (some : state.hasAnySharedState hash = true) :
    HasSource hash state ∨ OnlyCancelled hash state := by
  by_cases sourced : HasSource hash state
  · exact Or.inl sourced
  simp only [HasSource, not_or, not_lt, not_exists, not_and,
    Bool.not_eq_true] at sourced
  obtain ⟨cancelled, idle, unshared, unparked, unmissed⟩ := sourced
  have none : state.preloadInflightHashes.count hash = 0 := by
    rw [summary.inflight, List.countP_eq_zero]
    intro info carried
    simpa using idle info carried
  simp only [State.hasAnySharedState, unshared, unparked, unmissed, none,
    summary.pending, Bool.or_false, Bool.false_or, lt_irrefl, decide_false,
    decide_eq_true_eq] at some
  exact Or.inr ⟨some, cancelled, idle, unshared, unparked, unmissed⟩

theorem Summarised.hasAnySharedState_of_onlyCancelled
    (summary : Summarised hash state) (only : OnlyCancelled hash state) :
    state.hasAnySharedState hash = true := by
  have queued := only.queued
  rw [← summary.pending] at queued
  simp only [State.hasAnySharedState, queued, decide_true, Bool.or_true,
    Bool.true_or]

/-! ## One hash of a request -/

/-- The sources of the hash are the same. -/
structure SameSources (hash : BlockHash)
    (state next : State slotCount) : Prop where
  pending : pendingEntries hash next = pendingEntries hash state
  counted : next.preloadPendingCount.count hash =
    state.preloadPendingCount.count hash
  cancelled : next.preloadPendingCancel = state.preloadPendingCancel
  carried : preloadsUnderWay next = preloadsUnderWay state
  inflight : next.preloadInflightHashes = state.preloadInflightHashes
  shared : next.sharedCached = state.sharedCached
  parked : next.preloadBlockedOnWrite = state.preloadBlockedOnWrite
  missed : next.knownMissing = state.knownMissing

namespace SameSources

variable (same : SameSources hash state next)

include same

theorem summarised (summary : Summarised hash state) :
    Summarised hash next := by
  refine ⟨?_, ?_, ?_⟩
  · rw [same.counted, same.pending]
    exact summary.pending
  · rw [same.cancelled, same.counted]
    exact summary.cancelled
  · rw [same.inflight, same.carried]
    exact summary.inflight

theorem hasSource_iff : HasSource hash next ↔ HasSource hash state := by
  rw [HasSource, HasSource, same.cancelled, same.pending, same.carried,
    same.shared, same.parked, same.missed]

theorem symm : SameSources hash next state where
  pending := same.pending.symm
  counted := same.counted.symm
  cancelled := same.cancelled.symm
  carried := same.carried.symm
  inflight := same.inflight.symm
  shared := same.shared.symm
  parked := same.parked.symm
  missed := same.missed.symm

theorem onlyCancelled (only : OnlyCancelled hash state) :
    OnlyCancelled hash next where
  queued := same.pending.symm ▸ only.queued
  cancelled := by
    rw [same.pending, same.cancelled]
    exact only.cancelled
  idle := same.carried.symm ▸ only.idle
  unshared := same.shared.symm ▸ only.unshared
  unparked := same.parked.symm ▸ only.unparked
  unmissed := same.missed.symm ▸ only.unmissed

end SameSources

/-- What taking some hashes of a request in means for one hash. -/
structure TakenIn (hash : BlockHash) (state next : State slotCount) :
    Prop where
  summary : Summarised hash next
  sourced : HasSource hash state → HasSource hash next
  stale : OnlyCancelled hash next ↔ OnlyCancelled hash state

theorem SameSources.takenIn (same : SameSources hash state next)
    (summary : Summarised hash state) : TakenIn hash state next where
  summary := same.summarised summary
  sourced := same.hasSource_iff.mpr
  stale := ⟨same.symm.onlyCancelled, same.onlyCancelled⟩

theorem TakenIn.trans {last : State slotCount}
    (first : TakenIn hash state next) (second : TakenIn hash next last) :
    TakenIn hash state last where
  summary := second.summary
  sourced := fun source => second.sourced (first.sourced source)
  stale := second.stale.trans first.stale

private theorem pendingEntries_append (hash : BlockHash)
    (state : State slotCount) (info : PreloadInfo) :
    (state.preloadPending ++ [info]).countP
        (fun info => info.blockHash = hash) =
      pendingEntries hash state +
        if info.blockHash = hash then 1 else 0 := by
  rw [List.countP_append, List.countP_singleton, pendingEntries]
  simp only [decide_eq_true_eq]

/-- One hash of a request. -/
theorem intakePreloadHash_takenIn (sharing : env.sharePreload = true)
    (request : PreloadRequest) (entry : BlockHash × Nat)
    (summary : Summarised hash state) :
    wp (intakePreloadHash env request entry)
      (fun _ next => TakenIn hash state next ∧
        (entry.1 = hash → NewlyOwns request hash state →
          HasSource hash next ∨ OnlyCancelled hash next))
      (fun _ _ => False) state := by
  have unchanged : SameSources hash state state :=
    ⟨rfl, rfl, rfl, rfl, rfl, rfl, rfl, rfl⟩
  simp only [intakePreloadHash, preloadOwn, wp_bind, wp_get, wp_ite, wp_pure,
    wp_modifyGet]
  constructor
  · intro cached
    refine ⟨unchanged.takenIn summary, ?_⟩
    rintro rfl ⟨uncached, _⟩
    rw [uncached] at cached
    cases cached
  intro uncached
  split
  next owned =>
    refine ⟨by simp, fun _ => ⟨unchanged.takenIn summary, ?_⟩⟩
    rintro rfl ⟨_, unowned⟩
    rw [unowned] at owned
    cases owned
  next unowned =>
    refine ⟨fun _ => ⟨fun _ => ?_, fun multi => absurd sharing multi⟩,
      fun impossible => absurd rfl impossible⟩
    simp only [wp_modify, wp_onlyIf, pendingPush]
    constructor
    · -- no source is known: a read is queued
      intro none
      let info : PreloadInfo :=
        { blockHash := entry.1
          preloadId := request.preloadId
          reqId := request.reqId
          fileIndex := entry.2
          totalFiles := request.blockHashes.length }
      have entries := pendingEntries_append hash state info
      by_cases same : entry.1 = hash
      · subst same
        rw [if_pos rfl] at entries
        have uncounted : state.preloadPendingCount.count entry.1 = 0 := by
          simp only [State.hasAnySharedState, Bool.or_eq_false_iff,
            decide_eq_false_iff_not, not_lt, Nat.le_zero] at none
          exact none.1.1.2
        have counted :
            (state.preloadPendingCount.addOne entry.1).count entry.1 =
              state.preloadPendingCount.count entry.1 + 1 := by
          rw [CountTable.count_addOne, if_pos rfl]
        have pending := summary.pending
        have cancelled := summary.cancelled
        have live : state.preloadPendingCancel.count entry.1 <
            (state.preloadPending ++ [info]).countP
              fun info => info.blockHash = entry.1 := by
          rw [entries]
          omega
        refine ⟨⟨⟨?_, ?_, summary.inflight⟩, fun _ => Or.inl live, ?_⟩,
          fun _ _ => Or.inl (Or.inl live)⟩
        · exact counted.trans ((congrArg (· + 1) pending).trans
            entries.symm)
        · exact cancelled.trans ((Nat.le_succ _).trans counted.ge)
        · refine iff_of_false (fun only => ?_) fun only => ?_
          · exact only.not_hasSource (Or.inl live)
          · have known := summary.hasAnySharedState_of_onlyCancelled only
            exact Bool.false_ne_true (none.symm.trans known)
      · rw [if_neg same, Nat.add_zero] at entries
        have kept : SameSources hash state
            { state with
              preloadOwned := (state.preloadOwned.set
                (request.reqId, entry.1) ()).keepNewest Env.maxPreloadOwned
              preloadRefcount := state.preloadRefcount.addOne entry.1
              preloadPending := state.preloadPending ++ [info]
              preloadPendingCount :=
                state.preloadPendingCount.addOne entry.1 } := by
          refine ⟨entries, ?_, rfl, rfl, rfl, rfl, rfl, rfl⟩
          rw [CountTable.count_addOne, if_neg (Ne.symm same)]
        exact ⟨kept.takenIn summary, fun equal => absurd equal same⟩
    · -- a source is known
      intro some
      have same : SameSources hash state
          { state with
            preloadOwned := (state.preloadOwned.set
              (request.reqId, entry.1) ()).keepNewest Env.maxPreloadOwned
            preloadRefcount := state.preloadRefcount.addOne entry.1 } :=
        ⟨rfl, rfl, rfl, rfl, rfl, rfl, rfl, rfl⟩
      refine ⟨same.takenIn summary, ?_⟩
      rintro rfl _
      apply (same.summarised summary).hasSource_or_onlyCancelled
      rw [Bool.not_eq_false] at some
      exact some

/-! ## A request -/

/-- The hashes of a request, one after the other. -/
theorem intakeHashes_takenIn (sharing : env.sharePreload = true)
    (request : PreloadRequest) (entries : List (BlockHash × Nat))
    (summary : Summarised hash state) :
    wp (entries.forM (intakePreloadHash env request))
      (fun _ final => TakenIn hash state final ∧
        ∀ turn ∈ turns (intakePreloadHash env request) entries state,
          turn.1.1 = hash → NewlyOwns request hash turn.2 →
            HasSource hash final ∨ OnlyCancelled hash final)
      (fun _ _ => False) state := by
  induction entries generalizing state with
  | nil =>
      have unchanged : SameSources hash state state :=
        ⟨rfl, rfl, rfl, rfl, rfl, rfl, rfl, rfl⟩
      exact ⟨unchanged.takenIn summary,
        fun _ member => absurd member List.not_mem_nil⟩
  | cons entry entries inductionHypothesis =>
      have first := intakePreloadHash_takenIn sharing request entry summary
      refine (wp_bind (intakePreloadHash env request entry)
        fun _ => entries.forM (intakePreloadHash env request)).mpr ?_
      unfold turns
      unfold wp at first ⊢
      cases outcome : intakePreloadHash env request entry state with
      | error raised next =>
          rw [outcome] at first
          exact first
      | ok _ next =>
          rw [outcome] at first
          obtain ⟨taken, served⟩ := first
          refine wp_post (inductionHypothesis taken.summary) ?_
          intro _ final reached
          obtain ⟨later, laterServed⟩ := reached
          refine ⟨taken.trans later, fun turn member => ?_⟩
          rcases List.mem_cons.mp member with rfl | member
          · intro same newly
            exact (served same newly).imp later.sourced later.stale.mpr
          · exact laterServed turn member

/-- With shared preloads, in every state the thread reaches: a hash that the
request being taken in newly owns has a source afterwards if and only if it is
not one whose pending entries are all cancelled and that has no other
source. -/
theorem intake_sourced_iff (quiet : env.Quiet)
    (sharing : env.sharePreload = true)
    (reached : Machine.Reachable env machine)
    (taking : machine.phase = .incoming) {later : List Item}
    (first : machine.state.incoming = .preload request :: later)
    {turn : (BlockHash × Nat) × State slotCount}
    (member : turn ∈ turns (intakePreloadHash env request)
      request.blockHashes.zipIdx { machine.state with incoming := later })
    (newly : NewlyOwns request turn.1.1 turn.2) :
    HasSource turn.1.1 (machine.advance env).state ↔
      ¬ OnlyCancelled turn.1.1 machine.state := by
  have running : machine.phase.Running := by
    rw [taking]
    trivial
  have summary := summarised quiet reached running turn.1.1
  have popped : Summarised turn.1.1
      { machine.state with incoming := later } :=
    ⟨summary.pending, summary.cancelled, summary.inflight⟩
  have taken := intakeHashes_takenIn sharing request
    request.blockHashes.zipIdx popped
  have stepped : machine.advance env =
      Machine.perform (intake env (.preload request)) .incoming
        { machine.state with incoming := later } := by
    unfold Machine.advance
    rw [taking]
    simp only [first]
  rw [stepped, Machine.perform]
  unfold wp at taken
  simp only [intake]
  cases outcome : request.blockHashes.zipIdx.forM
      (intakePreloadHash env request)
      { machine.state with incoming := later } with
  | error raised final =>
      rw [outcome] at taken
      exact taken.elim
  | ok _ final =>
      rw [outcome] at taken
      obtain ⟨through, served⟩ := taken
      have decided := served turn member rfl newly
      constructor
      · intro sourced only
        have stale : OnlyCancelled turn.1.1 final :=
          through.stale.mpr ⟨only.queued, only.cancelled, only.idle,
            only.unshared, only.unparked, only.unmissed⟩
        exact stale.not_hasSource sourced
      · intro live
        refine decided.resolve_right fun stale => live ?_
        have only := through.stale.mp stale
        exact ⟨only.queued, only.cancelled, only.idle, only.unshared,
          only.unparked, only.unmissed⟩

section Examples

instance : Decidable (HasSource hash state) :=
  inferInstanceAs (Decidable (_ ∨ _))

instance : Decidable (NewlyOwns request hash state) :=
  inferInstanceAs (Decidable (_ ∧ _))

/-- One open at a time; the open and the read of the first operations
complete. -/
def oneOpenWorld : Env 5 :=
  { Env.smooth true fun calls =>
      if calls = 4 then [(1, 7)]
      else if calls = 8 then [(2, 1)]
      else [] with
    openLookahead := 1
    openLookahead_pos := Nat.one_pos }

/-- A request demands three blocks and loads the last one, whose pending entry
is cancelled but stays in the queue behind another one.  When the load is
served, another request asks for a block. -/
def secondRequest (hash : BlockHash) : PreloadRequest :=
  ⟨[hash], "second", "other"⟩

def servedEarly (hash : BlockHash) : Machine 5 :=
  (Machine.init oneOpenWorld).play oneOpenWorld
    (.preload ⟨[[2], [3], [1]], "first", ""⟩ ::
      .submit (.ofChunk 0 false [1] [7]) ::
        (List.replicate 31 .advance ++
          [.preload (secondRequest hash), .advance]))

theorem pendingBlock_sourced :
    HasSource [3] ((servedEarly [3]).advance oneOpenWorld).state := by
  have newly : NewlyOwns (secondRequest [3]) [3]
      { (servedEarly [3]).state with incoming := [] } := by decide +kernel
  have live : ¬ OnlyCancelled [3] (servedEarly [3]).state :=
    fun only => absurd only.cancelled (by decide +kernel)
  have head : (([3], 0), { (servedEarly [3]).state with incoming := [] }) ∈
      turns (intakePreloadHash oneOpenWorld (secondRequest [3]))
        (secondRequest [3]).blockHashes.zipIdx
        { (servedEarly [3]).state with incoming := [] } :=
    List.mem_cons_self
  have quiet : oneOpenWorld.Quiet := fun _ _ _ => rfl
  have reached : Machine.Reachable oneOpenWorld (servedEarly [3]) :=
    Machine.reachable_play _ (by decide +kernel)
  have taking : (servedEarly [3]).phase = .incoming := by decide +kernel
  have first : (servedEarly [3]).state.incoming =
      .preload (secondRequest [3]) :: [] := by decide +kernel
  have sourced := intake_sourced_iff quiet rfl reached taking first head newly
  exact sourced.mpr live

/-- The second request owns a demand for the first block, and nothing will
ever read it. -/
theorem cancelledBlock_sourceless :
    Machine.Reachable oneOpenWorld (servedEarly [1]) ∧
      (servedEarly [1]).phase = .incoming ∧
      (servedEarly [1]).state.stop = false ∧
      (servedEarly [1]).state.incoming = [.preload (secondRequest [1])] ∧
      (([1], 0), { (servedEarly [1]).state with incoming := [] }) ∈
        turns (intakePreloadHash oneOpenWorld (secondRequest [1]))
          (secondRequest [1]).blockHashes.zipIdx
          { (servedEarly [1]).state with incoming := [] } ∧
      NewlyOwns (secondRequest [1]) [1]
        { (servedEarly [1]).state with incoming := [] } ∧
      ¬ HasSource [1] ((servedEarly [1]).advance oneOpenWorld).state :=
  ⟨Machine.reachable_play _ (by decide +kernel), by decide +kernel,
    by decide +kernel, by decide +kernel, List.mem_cons_self,
    by decide +kernel, by decide +kernel⟩

end Examples

end PyKvCache.Safety
