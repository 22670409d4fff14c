import PyKvCache.Scheduler.MidWrite

/-!
# A store that is not prepared

`prepare_store` counts every block it is about to write before it looks at the
next key.  A key of another group raises in the middle of the list, and what
was counted before it stays counted.
-/

namespace PyKvCache.Scheduler

open PyKvCache.Library PyKvCache.Library.Effect PyKvCache.Staging

section Trace

variable {key planner : Type} {env : Env key}
  {manager after : Manager planner} {keys : List key}
  {reqId : Option String} {raised : ValueError}

/-- What is left behind by a call of `prepare_store` that raises. -/
theorem leaks_of_raises
    (raises : prepareStore env keys reqId manager =
      .error raised after) :
    Leaks env manager keys after := by
  have outcome := @prepareStore_leaks key planner env manager keys reqId
  unfold wp at outcome
  rw [raises] at outcome
  exact outcome

/-- A call of `prepare_store` that raises leaves `_store_inflight` as it was
if and only if no key of another group comes after a key whose file is
missing. -/
theorem raise_leavesNoTrace_iff
    (raises : prepareStore env keys reqId manager =
      .error raised after) :
    after.storeInflight = manager.storeInflight ↔
      env.raisesLate manager.clock keys = false := by
  have leaks := leaks_of_raises raises
  constructor
  · intro same
    rw [← Bool.not_eq_true]
    intro isLate
    obtain ⟨hash, more⟩ := leaks.late isLate
    rw [same] at more
    exact Nat.lt_irrefl _ more
  · exact leaks.early

end Trace

section Examples

/-- Keys with a group and a hash; no file ever appears. -/
def groupedDisk : Env (Int × BlockHash) where
  groupIdx := Prod.fst
  blockHash := Prod.snd
  getFileName := fun _ => ""
  onDisk := fun _ _ => false

/-- The manager before any call. -/
def idle : Manager Empty := .init none

/-- The error of a key of another group. -/
def severalGroups : ValueError :=
  ⟨"py-kvcache shared-storage offload currently supports " ++
    "exactly one KV cache group"⟩

/-- The bad key comes first: nothing has been counted. -/
theorem badKeyFirst_leavesNoTrace :
    ∃ after, prepareStore groupedDisk [(1, [7]), (0, [5])] none idle =
        .error severalGroups after ∧
      (after.storeInflight = idle.storeInflight ↔
        groupedDisk.raisesLate idle.clock [(1, [7]), (0, [5])] =
          false) :=
  ⟨_, rfl, raise_leavesNoTrace_iff rfl⟩

/-- The bad key comes second: the block of the first one stays counted, and
every request that looks it up is deferred. -/
theorem badKeySecond_leavesTrace :
    ∃ after, prepareStore groupedDisk [(0, [5]), (1, [7])] none idle =
        .error severalGroups after ∧
      after.storeInflight ≠ idle.storeInflight ∧
      ∃ final, lookup groupedDisk (0, [5]) (some "a") after =
        .ok none final := by
  refine ⟨_, rfl, ?_, _, rfl⟩
  intro same
  have counts := congrArg (fun table => table.count [5]) same
  revert counts
  decide

end Examples

end PyKvCache.Scheduler
