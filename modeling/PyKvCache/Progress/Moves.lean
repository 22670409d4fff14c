import PyKvCache.Progress.AtRest

/-!
# What moves something

A step of the scheduling pass moves something when it puts an operation into
the ring, starts a copy, makes one ready or ends a file.  No later step of the
pass takes that back.  A reservation finds a slot whenever one is free or can
be evicted.
-/

namespace PyKvCache.Progress

open PyKvCache.Library PyKvCache.Staging PyKvCache.Transfer
open PyKvCache.Reactor PyKvCache.Ledger PyKvCache.Safety
open PyKvCache.Library.Effect

variable {slotCount : Nat} {env : Env slotCount}
  {start state : State slotCount} {file : FileRef}
  {fail : Exc → State slotCount → Prop}

/-! ## Progress -/

/-- Something is in the ring, a copy is under way, or a file has ended since
the start. -/
def Issued (start state : State slotCount) : Prop :=
  state.inflight.entries ≠ [] ∨ state.pendingCopies ≠ [] ∨
    start.terminals.length < state.terminals.length

instance : Decidable (Issued start state) :=
  inferInstanceAs (Decidable (_ ∨ _ ∨ _))

/-- Something was issued, or a copy is ready to be launched. -/
def Moved (start state : State slotCount) : Prop :=
  Issued start state ∨ state.copyReady ≠ []

theorem moved_of_ring (queued : state.inflight.entries ≠ []) :
    Moved start state :=
  Or.inl (Or.inl queued)

private theorem terminals_ended {error : Option Exc} :
    (Ledger.ended state file error).terminals.length =
      state.terminals.length + 1 := by
  simp [Ledger.ended, State.updateJob, State.recordTerminal]

theorem fileTerminal_issued (quiet : env.Quiet) (file : FileRef)
    (error : Option Exc) :
    Keeps (Issued start) (fileTerminal env file error) := by
  intro state issued
  have later : Issued start (Ledger.ended state file error) := by
    refine issued.imp_right (.imp_right fun fewer => ?_)
    rw [terminals_ended]
    exact Nat.lt_succ_of_lt fewer
  exact wp_fileTerminal quiet.emits later later

/-- What was issued was issued for good. -/
theorem issued_unbound (quiet : env.Quiet) (start : State slotCount) :
    Unbound env (Issued start) where
  same := by
    intro state next same issued
    simp only [frame, Prod.mk.injEq] at same
    obtain ⟨_, _, _, _, inflight, _, _, _, _, _, copies, terminals, _⟩ :=
      same
    unfold Issued
    rw [inflight, copies, terminals]
    exact issued
  starts := fun _ => .modify fun _ issued => issued
  fails := fun file exc => fileTerminal_issued quiet file (some exc)
  readied := fun _ _ _ issued => issued
  launched := fun _ _ _ => Or.inr (Or.inl (List.concat_ne_nil _ _))
  handedOver := fun _ _ issued => issued
  numbered := fun _ issued => issued
  queued := fun _ _ _ _ _ => Or.inl OrderedDict.entries_set_ne_nil
  loadsLeft := fun _ _ issued => issued
  preloadsLeft := fun _ _ issued => issued

private theorem readied_unbound (quiet : env.Quiet) :
    Unbound env fun state : State slotCount => state.copyReady ≠ [] where
  same := by
    intro state next same readied
    simp only [frame, Prod.mk.injEq] at same
    obtain ⟨_, _, _, _, _, _, _, _, _, ready, _⟩ := same
    rw [ready]
    exact readied
  starts := fun _ => .modify fun _ readied => readied
  fails := fun _ _ _ readied => wp_fileTerminal quiet.emits readied readied
  readied := fun _ _ _ _ => List.concat_ne_nil _ _
  launched := fun _ _ readied => readied
  handedOver := fun _ _ readied => readied
  numbered := fun _ readied => readied
  queued := fun _ _ _ _ readied => readied
  loadsLeft := fun _ _ readied => readied
  preloadsLeft := fun _ _ readied => readied

/-- What has moved has moved for good. -/
theorem moved_unbound (quiet : env.Quiet) (start : State slotCount) :
    Unbound env (Moved start) :=
  (issued_unbound quiet start).or (readied_unbound quiet)

/-- A program that keeps a condition, with no promise if it raises. -/
theorem stays_of_keeps {value : Type} {program : React slotCount value}
    {kept : State slotCount → Prop} (keeps : Keeps kept program)
    (holds : kept state) :
    wp program (fun _ next => kept next) Crash state :=
  wp_mono (keeps state holds) (fun _ _ reached => reached)
    fun _ _ _ => trivial

/-! ## What moves something -/

/-- No end of a file has been taken back since the start. -/
def NoFewer (start state : State slotCount) : Prop :=
  start.terminals.length ≤ state.terminals.length

theorem noFewer_unbound (quiet : env.Quiet) (start : State slotCount) :
    Unbound env (NoFewer start) where
  same := by
    intro state next same since
    simp only [frame, Prod.mk.injEq] at same
    obtain ⟨_, _, _, _, _, _, _, _, _, _, _, terminals, _⟩ := same
    unfold NoFewer
    rw [terminals]
    exact since
  starts := fun _ => .modify fun _ since => since
  fails := by
    intro file exc state since
    have later : NoFewer start (Ledger.ended state file (some exc)) := by
      unfold NoFewer
      rw [terminals_ended]
      exact Nat.le_succ_of_le since
    exact wp_fileTerminal quiet.emits later later
  readied := fun _ _ _ since => since
  launched := fun _ _ since => since
  handedOver := fun _ _ since => since
  numbered := fun _ since => since
  queued := fun _ _ _ _ since => since
  loadsLeft := fun _ _ since => since
  preloadsLeft := fun _ _ since => since

theorem fileTerminal_issues (quiet : env.Quiet) {error : Option Exc}
    (since : NoFewer start state) :
    wp (fileTerminal env file error) (fun _ next => Issued start next)
      fail state := by
  have later : Issued start (Ledger.ended state file error) := by
    refine Or.inr (Or.inr ?_)
    rw [terminals_ended]
    exact Nat.lt_succ_of_le since
  exact wp_fileTerminal quiet.emits later later

theorem fileTerminal_moves (quiet : env.Quiet) {error : Option Exc}
    (since : NoFewer start state) :
    wp (fileTerminal env file error) (fun _ next => Moved start next)
      fail state :=
  wp_post (fileTerminal_issues quiet since) fun _ _ => Or.inl

theorem submitOpenRead_moves (answers : Answers env) :
    wp (submitOpenRead env file) (fun _ next => Moved start next)
      fail state := by
  simp only [submitOpenRead, startFile, modifyJob, newUserData, wp_bind,
    wp_modify, wp_modifyGet, wp_attempt, wp_external]
  exact ⟨fun _ => moved_of_ring OrderedDict.entries_set_ne_nil,
    fun _ raised => (answers.refuses raised (by simp)).elim⟩

theorem submitOpenPreload_moves (answers : Answers env)
    (info : PreloadInfo) :
    wp (submitOpenPreload env info) (fun _ next => Moved start next)
      fail state := by
  simp only [submitOpenPreload, preloadInflightAdd, newUserData, wp_bind,
    wp_modify, wp_modifyGet, wp_attempt, wp_external, wp_pure]
  exact ⟨fun _ => moved_of_ring OrderedDict.entries_set_ne_nil,
    fun _ raised => (answers.refuses raised (by simp)).elim⟩

theorem submitReadFromReady_moves (answers : Answers env) (reader : Reader)
    (fd : Int) (slot : Fin slotCount) :
    wp (submitReadFromReady env reader fd slot)
      (fun _ next => Moved start next) fail state := by
  simp only [submitReadFromReady, fillSlot, newUserData, wp_bind, wp_modify,
    wp_modifyGet, wp_attempt, wp_external]
  exact ⟨fun _ => moved_of_ring OrderedDict.entries_set_ne_nil,
    fun _ raised => (answers.refuses raised (by simp)).elim⟩

theorem asyncClose_moves (answers : Answers env) {fd : Int}
    (usable : 0 ≤ fd) :
    wp (asyncClose env fd) (fun _ next => Moved start next) fail state := by
  unfold asyncClose
  rw [if_neg (Int.not_lt.mpr usable)]
  simp only [newUserData, wp_bind, wp_modifyGet, wp_attempt, wp_external,
    wp_modify]
  exact ⟨fun _ => moved_of_ring OrderedDict.entries_set_ne_nil,
    fun _ raised => (answers.refuses raised (by simp)).elim⟩

theorem scheduleCacheHit_moves (quiet : env.Quiet)
    (since : NoFewer start state) (slot : CacheSlot (Fin slotCount)) :
    wp (scheduleCacheHit env file slot) (fun _ next => Moved start next)
      fail state := by
  simp only [scheduleCacheHit, pinCache, unpinCache, startFile, modifyJob,
    wp_bind, wp_addEvent quiet, wp_modify, wp_handling]
  exact wp_queueLoadCopy (fun _ _ => Or.inr (List.concat_ne_nil _ _))
    fun _ _ => fileTerminal_moves quiet since

theorem schedulePreloadDone_moves (quiet : env.Quiet)
    (since : NoFewer start state)
    (cached : state.hasCachedPreload file.hash = true) :
    wp (schedulePreloadDone env file) (fun _ next => Moved start next)
      fail state := by
  simp only [schedulePreloadDone, preloadCachePop, wp_bind, wp_modifyGet]
  cases popped : state.preloadSlots.popFront file.hash with
  | none =>
      rw [QueueTable.popFront_eq_none_iff] at popped
      exact absurd popped (QueueTable.contains_iff.mp cached)
  | some entry =>
      simp only [startFile, modifyJob, release, wp_bind, wp_addEvent quiet,
        wp_modify, wp_handling]
      exact wp_queueLoadCopy (fun _ _ => Or.inr (List.concat_ne_nil _ _))
        fun _ _ => fileTerminal_moves quiet since

theorem sharedClaimFromCache_moves (quiet : env.Quiet)
    (since : NoFewer start state) (slot : SharedSlot slotCount) :
    wp (sharedClaimFromCache env file slot)
      (fun _ next => Moved start next) Crash state := by
  have framed := (moved_unbound quiet start).framed
  have counting := (noFewer_unbound quiet start).framed
  unfold sharedClaimFromCache
  refine wp_seq (stays_of_keeps (counting.addEvent_keeps _) since)
    fun _ _ since => ?_
  refine wp_seq (stays_of_keeps (counting.starts _) since)
    fun _ _ since => ?_
  refine wp_seq (stays_of_keeps (counting.modifyShared_keeps _ _) since)
    fun _ _ since => ?_
  refine wp_seq ?_ fun _ _ moved =>
    stays_of_keeps (framed.sharedDecref_keeps _ _) moved
  rw [wp_handling]
  refine wp_queueLoadCopy (fun _ _ => Or.inr (List.concat_ne_nil _ _))
    fun _ _ => ?_
  refine wp_seq (stays_of_keeps (counting.modifyShared_keeps _ _) since)
    fun _ _ since => ?_
  exact wp_seq (fileTerminal_moves quiet since) fun _ _ moved =>
    stays_of_keeps (framed.maybeReleaseShared_keeps _) moved

theorem promotePendingToSharedRead_moves (answers : Answers env) :
    wp (promotePendingToSharedRead env file)
      (fun _ next => Moved start next) Crash state := by
  have framed := (moved_unbound answers.quiet start).framed
  unfold promotePendingToSharedRead
  refine wp_seq wp_trivial fun _ middle _ => ?_
  exact wp_seq (submitOpenPreload_moves answers _) fun _ _ moved =>
    stays_of_keeps (framed.schedulePreloadInflight_keeps _) moved

/-! ## Reserving a slot -/

/-- A slot has been given back; no file has been taken back. -/
private def Frees (state : State slotCount) (evicted : Bool)
    (next : State slotCount) : Prop :=
  evicted = true ∧ next.free ≠ [] ∧ next.terminals = state.terminals

/-- A slot was found; no file has been taken back. -/
private def Finds (state : State slotCount) (slot : Option (Fin slotCount))
    (next : State slotCount) : Prop :=
  slot ≠ none ∧ next.terminals = state.terminals

private theorem tryReserve_finds (free : state.free ≠ []) :
    wp tryReserve (Finds state) fail state := by
  simp only [tryReserve, wp_modifyGet]
  cases available : state.free with
  | nil => exact absurd available free
  | cons slot later => exact ⟨nofun, rfl⟩

private theorem tryReserve_misses (none : state.free = []) :
    wp tryReserve (fun slot next => slot = .none ∧ next = state)
      fail state := by
  simp only [tryReserve, wp_modifyGet, none, and_self]

private theorem evictOneCacheSlot_frees (quiet : env.Quiet)
    (evicts : (state.stagingCache.bind StagingDataCache.evictOne).isSome =
      true) :
    wp (evictOneCacheSlot env) (Frees state) fail state := by
  simp only [evictOneCacheSlot, wp_bind, wp_get]
  split
  next none =>
    rw [none] at evicts
    cases evicts
  next slot cache evicted =>
    simp only [release, wp_bind, wp_modify, wp_addEvent quiet, wp_pure]
    exact ⟨rfl, List.cons_ne_nil _ _, rfl⟩

private theorem evictOneCacheSlot_misses
    (evicts : (state.stagingCache.bind StagingDataCache.evictOne).isSome =
      false) :
    wp (evictOneCacheSlot env)
      (fun evicted next => evicted = false ∧ next = state) fail state := by
  simp only [evictOneCacheSlot, wp_bind, wp_get]
  split
  next none => exact ⟨rfl, rfl⟩
  next slot cache evicted =>
    rw [evicted] at evicts
    cases evicts

private theorem evictOneSharedSlot_frees (quiet : env.Quiet)
    (evicts : (state.sharedCached.entries.any fun entry =>
      (state.shared entry.2).copiesInflight ≤ 0) = true) :
    wp (evictOneSharedSlot env) (Frees state) fail state := by
  simp only [evictOneSharedSlot, wp_bind, wp_get]
  rw [List.any_eq_true, ← List.find?_isSome] at evicts
  split
  next none =>
    rw [none] at evicts
    cases evicts
  next hash slot chosen =>
    have kept : wp (sharedUncache slot)
        (fun _ next => next.terminals = state.terminals) fail state := by
      simp only [sharedUncache, modifyShared, wp_bind, wp_modify]
      split
      · rfl
      · rfl
    refine wp_seq kept fun _ next same => ?_
    simp only [purgeOwnedForHash, release, wp_bind, wp_modify,
      wp_addEvent quiet, wp_pure]
    exact ⟨rfl, List.cons_ne_nil _ _, same⟩

private theorem evictOneOwnedSlot_frees (quiet : env.Quiet)
    (evicts : state.preloadSlots.oldest.isSome = true) :
    wp (evictOneOwnedSlot env) (Frees state) fail state := by
  simp only [evictOneOwnedSlot, wp_bind, wp_get]
  split
  next none =>
    rw [none] at evicts
    cases evicts
  next hash oldest =>
    simp only [preloadCachePop, wp_bind, wp_modifyGet]
    cases popped : state.preloadSlots.popFront hash with
    | none =>
        rw [QueueTable.popFront_eq_none_iff] at popped
        exact absurd popped (QueueTable.queue_oldest_ne_nil oldest)
    | some entry =>
        simp only [release, wp_bind, wp_addEvent quiet, wp_modify, wp_pure]
        exact ⟨rfl, List.cons_ne_nil _ _, rfl⟩

private theorem evictOnePreloadSlot_frees (quiet : env.Quiet)
    (evicts : evictsPreload env state = true) :
    wp (evictOnePreloadSlot env) (Frees state) fail state := by
  unfold evictsPreload at evicts
  unfold evictOnePreloadSlot
  split at evicts
  next sharing =>
    rw [if_pos sharing]
    exact evictOneSharedSlot_frees quiet evicts
  next owned =>
    rw [if_neg owned]
    exact evictOneOwnedSlot_frees quiet evicts

private theorem reserveAfter_finds {evict : React slotCount Bool}
    (evicts : wp evict (Frees state) fail state) :
    wp (reserveAfter evict none) (Finds state) fail state := by
  refine wp_seq evicts ?_
  rintro _ next ⟨rfl, free, terminals⟩
  refine wp_post (tryReserve_finds free) ?_
  rintro slot last ⟨found, same⟩
  exact ⟨found, same.trans terminals⟩

private theorem reserveAfter_found {evict : React slotCount Bool}
    {origin : State slotCount} {slot : Option (Fin slotCount)}
    (found : Finds origin slot state) :
    wp (reserveAfter evict slot) (Finds origin) fail state := by
  cases slot with
  | none => exact absurd rfl found.1
  | some slot => exact found

/-- With a spare slot a preload finds one. -/
theorem reservePreloadSlot_finds (quiet : env.Quiet)
    (spare : hasSpareSlot state = true) :
    wp (reservePreloadSlot env) (Finds state) fail state := by
  unfold reservePreloadSlot
  by_cases free : state.free = []
  · simp only [hasSpareSlot, free, List.isEmpty_nil, Bool.not_true,
      Bool.false_or] at spare
    refine wp_seq (tryReserve_misses free) ?_
    rintro _ _ ⟨rfl, rfl⟩
    exact reserveAfter_finds (evictOneCacheSlot_frees quiet spare)
  · exact wp_seq (tryReserve_finds free) fun _ _ found =>
      reserveAfter_found found

/-- Without a spare slot a preload finds none. -/
theorem reservePreloadSlot_misses (none : hasSpareSlot state = false) :
    wp (reservePreloadSlot env)
      (fun slot next => slot = .none ∧ next = state) fail state := by
  unfold hasSpareSlot at none
  rw [Bool.or_eq_false_iff, Bool.not_eq_false', List.isEmpty_iff] at none
  unfold reservePreloadSlot
  refine wp_seq (tryReserve_misses none.1) ?_
  rintro _ _ ⟨rfl, rfl⟩
  refine wp_seq (evictOneCacheSlot_misses none.2) ?_
  rintro _ _ ⟨rfl, rfl⟩
  exact ⟨rfl, rfl⟩

/-- A load or a store finds a slot that is spare or that a preload has. -/
theorem reserveForegroundSlot_finds (quiet : env.Quiet)
    (reservable : hasSpareSlot state = true ∨
      evictsPreload env state = true) :
    wp (reserveForegroundSlot env) (Finds state) fail state := by
  have same : reserveForegroundSlot env = (do
      let slot ← reservePreloadSlot env
      reserveAfter (evictOnePreloadSlot env) slot) := by
    simp only [reserveForegroundSlot, reservePreloadSlot, bind_assoc]
  rw [same]
  cases spare : hasSpareSlot state with
  | true =>
      exact wp_seq (reservePreloadSlot_finds quiet spare) fun _ _ found =>
        reserveAfter_found found
  | false =>
      rw [spare] at reservable
      have evicts := reservable.resolve_left Bool.false_ne_true
      refine wp_seq (reservePreloadSlot_misses spare) ?_
      rintro _ _ ⟨rfl, rfl⟩
      exact reserveAfter_finds (evictOnePreloadSlot_frees quiet evicts)

end PyKvCache.Progress
