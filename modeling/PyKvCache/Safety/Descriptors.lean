import PyKvCache.Crash.Resolved

/-!
# File descriptors

What the reactor does with the descriptors it got: in the two queues of ready
descriptors and in the ring operations they are where they belong, and the log
says that each one is held.  The one place where the log goes wrong is
`_on_write_complete`, when a call of `finish_write` raises after its close.
-/

namespace PyKvCache.Reactor

variable {slotCount : Nat}

/-- The descriptor a ring operation closes when it is reaped. -/
def RingOp.fds : RingOp slotCount → List Int
  | .reading _ _ fd => [fd]
  | .writing _ _ fd _ _ => [fd]
  | _ => []

/-- The descriptors the tables of the reactor refer to. -/
def State.openFds (state : State slotCount) : List Int :=
  state.readyFdsLoad.map Prod.fst ++
    (state.readyFdsPreload.map Prod.fst ++
      state.inflight.values.flatMap RingOp.fds)

namespace Env

variable (env : Env slotCount)

/-- `_fsync_dir` does not raise, when its first call has this number. -/
def SyncsDirectory (path : String) (number : Nat) : Prop :=
  env.raises (.openDirectory path) number ≠ some .other ∧
    (env.raises (.openDirectory path) number = none →
      env.raises (.fsync (env.openedFd number)) (number + 1) = none ∧
        env.raises (.close (env.openedFd number)) (number + 3) = none)

/-- `finish_write` does not raise from its close on, when that has this
number. -/
def PublishesFrom (fd : Int) (tempPath finalPath : String) (number : Nat) :
    Prop :=
  env.raises (.close fd) number = none ∧
    (env.raises (.link tempPath finalPath) (number + 1) = none ∨
      env.raises (.link tempPath finalPath) (number + 1) =
        some .fileExists) ∧
    (env.raises (.unlink tempPath) (number + 2) = none ∨
      env.raises (.unlink tempPath) (number + 2) = some .fileNotFound) ∧
    (env.syncOnStore = true → env.SyncsDirectory finalPath (number + 3))

/-- If `finish_write` raises, then before its close. -/
def FinishesCleanly (fd : Int) (tempPath finalPath : String)
    (number : Nat) : Prop :=
  if env.syncOnStore then
    env.raises (.fsync fd) number = none →
      env.PublishesFrom fd tempPath finalPath (number + 2)
  else
    env.PublishesFrom fd tempPath finalPath number

instance (path : String) (number : Nat) :
    Decidable (env.SyncsDirectory path number) :=
  inferInstanceAs (Decidable (_ ∧ _))

instance (fd : Int) (tempPath finalPath : String) (number : Nat) :
    Decidable (env.PublishesFrom fd tempPath finalPath number) :=
  inferInstanceAs (Decidable (_ ∧ _))

instance (fd : Int) (tempPath finalPath : String) (number : Nat) :
    Decidable (env.FinishesCleanly fd tempPath finalPath number) := by
  unfold FinishesCleanly
  infer_instance

end Env

end PyKvCache.Reactor

namespace PyKvCache.Safety

open PyKvCache.Library PyKvCache.Staging PyKvCache.Transfer
open PyKvCache.Reactor PyKvCache.Ledger PyKvCache.Library.Effect

variable {slotCount : Nat} {env : Env slotCount} {extra : List Int}
  {fd : Int} {state : State slotCount} {machine : Machine slotCount}

/-! ## The books -/

/-- What is held is in hand or in a table. -/
structure FdBooksIn (extra : List Int)
    (inflight : OrderedDict Nat (RingOp slotCount)) (nextUserData : Nat)
    (readyLoad : List (Int × FileRef))
    (readyPreload : List (Int × PreloadInfo))
    (descriptors : List (Handover Int)) : Prop where
  rightful : Handover.Rightful descriptors
  stock : (Handover.held descriptors).Perm
    (extra ++ (readyLoad.map Prod.fst ++ (readyPreload.map Prod.fst ++
      inflight.values.flatMap RingOp.fds)))
  numbered : ∀ userData op, inflight.find? userData = some op →
    userData ≤ nextUserData
  loads : ∀ entry ∈ readyLoad, 0 ≤ entry.1
  preloads : ∀ entry ∈ readyPreload, 0 ≤ entry.1
  reads : ∀ userData reader slot fd,
    inflight.find? userData = some (.reading reader slot fd) → 0 ≤ fd

/-- The books of a state, with some descriptors in hand. -/
abbrev FdBooks (extra : List Int) (state : State slotCount) : Prop :=
  FdBooksIn extra state.inflight state.nextUserData state.readyFdsLoad
    state.readyFdsPreload state.descriptors

namespace FdBooksIn

variable {inflight : OrderedDict Nat (RingOp slotCount)}
  {nextUserData : Nat} {readyLoad : List (Int × FileRef)}
  {readyPreload : List (Int × PreloadInfo)}
  {descriptors : List (Handover Int)}

theorem taken
    (books : FdBooksIn extra inflight nextUserData readyLoad readyPreload
      descriptors) (fd : Int) :
    FdBooksIn (fd :: extra) inflight nextUserData readyLoad readyPreload
      (descriptors ++ [.taken fd]) := by
  refine { books with rightful := books.rightful.taken, stock := ?_ }
  rw [Handover.held_taken]
  exact books.stock.cons fd

theorem given
    (books : FdBooksIn (fd :: extra) inflight nextUserData readyLoad
      readyPreload descriptors) :
    FdBooksIn extra inflight nextUserData readyLoad readyPreload
      (descriptors ++ [.given fd]) := by
  have holds : fd ∈ Handover.held descriptors :=
    books.stock.symm.subset List.mem_cons_self
  refine { books with rightful := books.rightful.given holds, stock := ?_ }
  rw [Handover.held_given]
  exact List.cons_perm_iff_perm_erase.mp books.stock.symm |>.2.symm

/-- An operation with an unused number takes its descriptor along. -/
theorem queued (op : RingOp slotCount)
    (books : FdBooksIn (op.fds ++ extra) inflight nextUserData readyLoad
      readyPreload descriptors)
    (usable : ∀ reader slot fd, op = .reading reader slot fd → 0 ≤ fd) :
    FdBooksIn extra (inflight.set (nextUserData + 1) op)
      (nextUserData + 1) readyLoad readyPreload descriptors := by
  have new : inflight.find? (nextUserData + 1) = none := by
    by_contra used
    obtain ⟨other, found⟩ := Option.ne_none_iff_exists'.mp used
    exact absurd (books.numbered _ _ found) (by omega)
  refine { books with stock := ?_, numbered := ?_, reads := ?_ }
  · refine books.stock.trans (perm_of_weigh fun weight => ?_)
    simp only [weigh_append, weigh_flatMap,
      OrderedDict.weigh_values_set new]
    omega
  · intro userData other found
    rw [OrderedDict.find?_set] at found
    by_cases same : userData = nextUserData + 1
    · omega
    · rw [if_neg same] at found
      exact (books.numbered _ _ found).trans (Nat.le_succ _)
  · intro userData reader slot fd found
    rw [OrderedDict.find?_set] at found
    by_cases same : userData = nextUserData + 1
    · rw [if_pos same] at found
      exact usable reader slot fd (Option.some.inj found)
    · rw [if_neg same] at found
      exact books.reads _ _ _ _ found

/-- An operation that is reaped leaves its descriptor in hand. -/
theorem reaped {userData : Nat} {op : RingOp slotCount}
    (books : FdBooksIn extra inflight nextUserData readyLoad readyPreload
      descriptors) (found : inflight.find? userData = some op) :
    FdBooksIn (op.fds ++ extra) (inflight.erase userData) nextUserData
      readyLoad readyPreload descriptors := by
  have kept : ∀ {other op},
      (inflight.erase userData).find? other = some op →
        inflight.find? other = some op := by
    intro other op found
    rw [OrderedDict.find?_erase] at found
    by_cases same : other = userData
    · rw [if_pos same] at found
      cases found
    · rwa [if_neg same] at found
  refine { books with
    stock := ?_
    numbered := fun _ _ found => books.numbered _ _ (kept found)
    reads := fun _ _ _ _ found => books.reads _ _ _ _ (kept found) }
  refine books.stock.trans (perm_of_weigh fun weight => ?_)
  simp only [weigh_append, weigh_flatMap,
    OrderedDict.weigh_values_erase found]
  omega

theorem renumbered {later : Nat}
    (books : FdBooksIn extra inflight nextUserData readyLoad readyPreload
      descriptors) (more : nextUserData ≤ later) :
    FdBooksIn extra inflight later readyLoad readyPreload descriptors :=
  { books with
    numbered := fun _ _ found => (books.numbered _ _ found).trans more }

/-- A descriptor in hand becomes ready for a load. -/
theorem readyLoadAdded {file : FileRef}
    (books : FdBooksIn (fd :: extra) inflight nextUserData readyLoad
      readyPreload descriptors) (usable : 0 ≤ fd) :
    FdBooksIn extra inflight nextUserData (readyLoad ++ [(fd, file)])
      readyPreload descriptors := by
  refine { books with stock := ?_, loads := ?_ }
  · refine books.stock.trans (perm_of_weigh fun weight => ?_)
    simp only [List.map_append, List.map_singleton, weigh_append,
      weigh_cons, weigh_nil]
    omega
  · intro entry member
    rcases List.mem_append.mp member with before | last
    · exact books.loads entry before
    · rw [List.mem_singleton.mp last]
      exact usable

theorem readyPreloadAdded {info : PreloadInfo}
    (books : FdBooksIn (fd :: extra) inflight nextUserData readyLoad
      readyPreload descriptors) (usable : 0 ≤ fd) :
    FdBooksIn extra inflight nextUserData readyLoad
      (readyPreload ++ [(fd, info)]) descriptors := by
  refine { books with stock := ?_, preloads := ?_ }
  · refine books.stock.trans (perm_of_weigh fun weight => ?_)
    simp only [List.map_append, List.map_singleton, weigh_append,
      weigh_cons, weigh_nil]
    omega
  · intro entry member
    rcases List.mem_append.mp member with before | last
    · exact books.preloads entry before
    · rw [List.mem_singleton.mp last]
      exact usable

/-- The first ready descriptor is taken in hand. -/
theorem readyLoadTaken {file : FileRef} {later : List (Int × FileRef)}
    (books : FdBooksIn extra inflight nextUserData ((fd, file) :: later)
      readyPreload descriptors) :
    FdBooksIn (fd :: extra) inflight nextUserData later readyPreload
      descriptors := by
  refine { books with
    stock := books.stock.trans (perm_of_weigh fun weight => ?_)
    loads := fun entry member =>
      books.loads entry (List.mem_cons_of_mem _ member) }
  simp only [List.map_cons, List.cons_append, weigh_append, weigh_cons]
  omega

theorem readyPreloadTaken {info : PreloadInfo}
    {later : List (Int × PreloadInfo)}
    (books : FdBooksIn extra inflight nextUserData readyLoad
      ((fd, info) :: later) descriptors) :
    FdBooksIn (fd :: extra) inflight nextUserData readyLoad later
      descriptors := by
  refine { books with
    stock := books.stock.trans (perm_of_weigh fun weight => ?_)
    preloads := fun entry member =>
      books.preloads entry (List.mem_cons_of_mem _ member) }
  simp only [List.map_cons, List.cons_append, weigh_append, weigh_cons]
  omega

end FdBooksIn

theorem fdBooks_init : FdBooks [] (State.init env) :=
  ⟨Handover.rightful_nil, List.Perm.refl _, nofun, nofun, nofun, nofun⟩

/-- Both exits of a program keep the books. -/
abbrev KeepsFds {value : Type} (extra : List Int)
    (program : React slotCount value) : Prop :=
  Keeps (FdBooks extra) program

/-- A program closes this descriptor on both exits. -/
abbrev ClosesFd (fd : Int) (extra : List Int)
    (program : React slotCount PUnit) : Prop :=
  ∀ state, FdBooks (fd :: extra) state →
    wp program (fun _ next => FdBooks extra next)
      (fun _ next => FdBooks extra next) state

section Handlers

variable (emits : env.Emits)

theorem external_fds (call : ExtCall) :
    KeepsFds extra (external env call) := by
  intro state books
  rw [wp_external]
  exact ⟨fun _ => books, fun _ _ => books⟩

/-- An operation without a descriptor, under the number it was queued with. -/
theorem opened_fds {reader : Reader} (books : FdBooks extra state) :
    FdBooksIn extra
      (state.inflight.set (state.nextUserData + 1) (.opening reader))
      (state.nextUserData + 1) state.readyFdsLoad state.readyFdsPreload
      state.descriptors :=
  FdBooksIn.queued (.opening reader) books nofun

include emits

theorem fileTerminal_fds (file : FileRef) (error : Option Exc) :
    KeepsFds extra (fileTerminal env file error) :=
  fun _ books => wp_fileTerminal emits books books

/-- Whatever handles no descriptor keeps the books. -/
theorem books_framed (extra : List Int) : Framed env (FdBooks extra) := by
  have fails : ∀ file exc,
      KeepsFds extra (fileTerminal env file (some exc)) :=
    fun _ _ => fileTerminal_fds emits _ _
  refine ⟨fun state next same books => ?_, fun _ _ books => books, fails,
    fun file => ?_, fun info => ?_, fun _ _ _ books => books,
    fun _ _ books => books⟩
  · simp only [frame, Prod.mk.injEq] at same
    obtain ⟨_, _, _, _, inflight, number, loads, preloads, log, _⟩ := same
    unfold FdBooks
    rw [inflight, number, loads, preloads, log]
    exact books
  · intro state books
    unfold submitOpenRead startFile modifyJob newUserData
    simp only [wp_bind, wp_modify, wp_modifyGet, wp_attempt, wp_external]
    exact ⟨fun _ => opened_fds books, fun _ _ =>
      fails _ _ _ (books.renumbered (Nat.le_succ _))⟩
  · intro state books
    unfold submitOpenPreload preloadInflightAdd newUserData
    simp only [wp_bind, wp_modify, wp_modifyGet, wp_attempt, wp_external,
      wp_pure]
    exact ⟨fun _ => opened_fds books, fun _ _ =>
      books.renumbered (Nat.le_succ _)⟩

omit emits

/-! ### The file store -/

theorem closeFd_closes (fd : Int) : ClosesFd fd extra (closeFd env fd) := by
  intro state books
  unfold closeFd
  rw [wp_bind, wp_modify]
  exact external_fds _ _ books.given

theorem openFd_fds (call : ExtCall) (books : FdBooks extra state) :
    wp (openFd env call) (fun fd next => FdBooks (fd :: extra) next)
      (fun _ next => FdBooks extra next) state := by
  unfold openFd
  rw [wp_bind, wp_get, wp_bind]
  refine wp_mono (external_fds call state books) (fun _ next kept => ?_)
    fun _ _ kept => kept
  rw [wp_bind, wp_modify]
  exact kept.taken _

theorem closeQuietly_closes (fd : Int) :
    ClosesFd fd extra (closeQuietly env fd) := by
  intro state books
  unfold closeQuietly
  rw [wp_handling]
  refine wp_mono (closeFd_closes fd state books) (fun _ _ kept => kept)
    fun raised next kept => ?_
  split
  · exact kept
  · exact kept

theorem unlinkPresent_fds (path : String) :
    KeepsFds extra (unlinkPresent env path) := by
  refine .handling (external_fds _) fun raised => ?_
  split
  · exact .pure _
  · exact .throw _

theorem cleanupTemp_closes (fd : Int) (tempPath : String) :
    ClosesFd fd extra (cleanupTemp env fd tempPath) := by
  intro state books
  unfold cleanupTemp
  exact wp_seq (closeQuietly_closes fd state books) fun _ next kept =>
    unlinkPresent_fds tempPath next kept

theorem openTempWrite_fds (finalPath : String)
    (books : FdBooks extra state) :
    wp (openTempWrite env finalPath)
      (fun opened next => FdBooks (opened.1 :: extra) next)
      (fun _ next => FdBooks extra next) state := by
  unfold openTempWrite
  refine wp_seq (external_fds (.makedirs finalPath) state books)
    fun _ next kept => ?_
  rw [wp_bind, wp_get]
  exact wp_seq (openFd_fds _ kept) fun _ _ opened => opened

/-- `_async_close` leaves a negative number alone, but no such number is
ever handed to it. -/
theorem asyncClose_closes (usable : 0 ≤ fd) :
    ClosesFd fd extra (asyncClose env fd) := by
  intro state books
  unfold asyncClose newUserData
  rw [if_neg (Int.not_lt.mpr usable)]
  simp only [wp_bind, wp_modifyGet, wp_attempt, wp_external, wp_modify]
  constructor
  · intro _
    have closing : (RingOp.closing fd : RingOp slotCount).fds = [] := rfl
    have given : FdBooksIn extra state.inflight state.nextUserData
      state.readyFdsLoad state.readyFdsPreload
      (state.descriptors ++ [.given fd]) := FdBooksIn.given books
    exact FdBooksIn.queued (.closing fd) given (by simp)
  · intro _ _
    exact closeQuietly_closes fd _ (books.renumbered (Nat.le_succ _))

theorem fsyncDir_fds (path : String) :
    KeepsFds extra (fsyncDir env path) := by
  intro state books
  unfold fsyncDir
  simp only [wp_bind, wp_attempt]
  refine wp_mono (openFd_fds _ books) (fun fd next opened => ?_)
    fun raised next kept => ?_
  · rw [wp_ensuring]
    have synced : KeepsFds (fd :: extra) (do
        external env (.fsync fd)
        addEvent env .fsyncDir) :=
      .bind (external_fds _) fun _ => external_fds _
    exact wp_mono (synced next opened)
      (fun _ _ kept => closeFd_closes fd _ kept)
      fun _ _ kept => closeFd_closes fd _ kept
  · split
    · exact kept
    · exact kept
    next opened => cases opened

/-! ### A write that is published -/

section Publishing

variable {tempPath finalPath : String} (quiet : env.Quiet)

include quiet

theorem fsyncDir_returns {path : String}
    (syncs : env.SyncsDirectory path state.calls) :
    wp (fsyncDir env path) (fun _ _ => True) (fun _ _ => False) state := by
  obtain ⟨openable, synced⟩ := syncs
  unfold fsyncDir openFd closeFd
  simp only [wp_bind, wp_attempt, wp_get, wp_external, wp_modify, wp_pure]
  refine ⟨fun opened => ?_, fun fault raised => ?_⟩
  · obtain ⟨flushed, closed⟩ := synced opened
    simp only [wp_ensuring, wp_bind, wp_external, wp_addEvent quiet,
      wp_modify]
    refine ⟨fun _ => ⟨fun _ => trivial, fun fault raised => ?_⟩,
      fun fault raised => ?_⟩
    · cases closed.symm.trans raised
    · cases flushed.symm.trans raised
  · split
    next raisedOther =>
      cases raisedOther
      exact absurd raised openable
    next => trivial
    next opened => cases opened

omit quiet

theorem closeFd_returns (closed : env.raises (.close fd) state.calls = none)
    (books : FdBooks (fd :: extra) state) :
    wp (closeFd env fd)
      (fun _ next => FdBooks extra next ∧ next.calls = state.calls + 1)
      (fun _ _ => False) state := by
  unfold closeFd
  simp only [wp_bind, wp_modify, wp_external]
  refine ⟨fun _ => ⟨books.given, rfl⟩, fun fault raised => ?_⟩
  cases closed.symm.trans raised

/-- The link, where a file that is there already is no error. -/
theorem link_returns
    (linked : env.raises (.link tempPath finalPath) state.calls = none ∨
      env.raises (.link tempPath finalPath) state.calls = some .fileExists)
    (books : FdBooks extra state) :
    wp (attempt (external env (.link tempPath finalPath)))
      (fun linked next =>
        (linked = .ok ⟨⟩ ∨ ∃ call, linked = .error (.fault call .fileExists)) ∧
          FdBooks extra next ∧ next.calls = state.calls + 1)
      (fun _ _ => False) state := by
  simp only [wp_attempt, wp_external]
  refine ⟨fun _ => ⟨Or.inl trivial, books, rfl⟩, fun fault raised => ?_⟩
  rcases linked with none | exists'
  · cases none.symm.trans raised
  · cases exists'.symm.trans raised
    exact ⟨Or.inr ⟨_, rfl⟩, books, rfl⟩

theorem unlinkPresent_returns
    (unlinked : env.raises (.unlink tempPath) state.calls = none ∨
      env.raises (.unlink tempPath) state.calls = some .fileNotFound)
    (books : FdBooks extra state) :
    wp (unlinkPresent env tempPath)
      (fun _ next => FdBooks extra next ∧ next.calls = state.calls + 1)
      (fun _ _ => False) state := by
  unfold unlinkPresent
  rw [wp_handling, wp_external]
  refine ⟨fun _ => ⟨books, rfl⟩, fun fault raised => ?_⟩
  rcases unlinked with none | missing
  · cases none.symm.trans raised
  · cases missing.symm.trans raised
    exact ⟨books, rfl⟩

include quiet

/-- `finish_write` returns with the file closed, or it raises before it has
closed the file. -/
theorem finishWrite_fds
    (clean : env.FinishesCleanly fd tempPath finalPath state.calls)
    (books : FdBooks (fd :: extra) state) :
    wp (finishWrite env fd tempPath finalPath)
      (fun _ next => FdBooks extra next)
      (fun _ next => FdBooks (fd :: extra) next) state := by
  unfold finishWrite
  have written : wp (onlyIf (env.syncOnStore = true) (do
        external env (.fsync fd)
        addEvent env .fileSync))
      (fun _ next => FdBooks (fd :: extra) next ∧
        env.PublishesFrom fd tempPath finalPath next.calls)
      (fun _ next => FdBooks (fd :: extra) next) state := by
    unfold Env.FinishesCleanly at clean
    simp only [wp_onlyIf, wp_bind, wp_external, wp_addEvent quiet]
    by_cases sync : env.syncOnStore = true
    · rw [if_pos sync] at clean
      exact ⟨fun _ => ⟨fun flushed => ⟨books, clean flushed⟩,
        fun _ _ => books⟩, fun async => absurd sync async⟩
    · rw [if_neg sync] at clean
      exact ⟨fun now => absurd now sync, fun _ => ⟨books, clean⟩⟩
  refine wp_seq written fun _ synced after => wp_returns ?_
  obtain ⟨kept, closed, linked, unlinked, directory⟩ := after
  refine wp_seq (closeFd_returns closed kept) fun _ closing after => ?_
  obtain ⟨given, second⟩ := after
  rw [← second] at linked
  refine wp_seq (link_returns linked given) fun outcome linking after => ?_
  obtain ⟨outcomes, given, third⟩ := after
  rw [second] at third
  rw [← third] at unlinked
  refine wp_seq (unlinkPresent_returns unlinked given)
    fun _ unlinking after => ?_
  obtain ⟨given, fourth⟩ := after
  rw [third] at fourth
  rw [← fourth] at directory
  have done : wp (onlyIf (env.syncOnStore = true) (fsyncDir env finalPath))
      (fun _ next => FdBooks extra next) (fun _ _ => False) unlinking := by
    rw [wp_onlyIf]
    refine ⟨fun sync => ?_, fun _ => given⟩
    have returns := fsyncDir_returns quiet (directory sync)
    exact wp_mono (wp_and (fsyncDir_fds finalPath unlinking given) returns)
      (fun _ _ reached => reached.1) fun _ _ reached => reached.2
  rcases outcomes with rfl | ⟨call, rfl⟩
  · exact wp_seq done fun _ _ kept => kept
  · exact wp_seq done fun _ _ kept => kept

end Publishing

/-! ### Completions -/

section Completions

variable (quiet : env.Quiet)

include quiet

theorem releaseStoreInflight_returns {hash : BlockHash} {ok : Bool} :
    wp (releaseStoreInflight env hash ok) (fun _ _ => True)
      (fun _ _ => False) state := by
  have pushes : ∀ (infos : List PreloadInfo) (start : State slotCount),
      wp (infos.forM pendingPush) (fun _ _ => True) (fun _ _ => False)
        start := fun infos start =>
    wp_forM (fun _ _ => True)
      (fun _ _ _ _ => (wp_modify _).mpr trivial) infos trivial
  unfold releaseStoreInflight
  simp only [wp_bind, wp_get, wp_modify, wp_ite, wp_pure]
  refine ⟨fun _ => trivial, fun _ => ?_⟩
  split
  · trivial
  · simp only [wp_ite, wp_bind, wp_onlyIf, wp_addEvent quiet, wp_pure]
    exact ⟨fun _ => trivial, fun _ => ⟨fun _ => ⟨fun _ => trivial,
      fun _ => trivial⟩, fun _ => ⟨fun _ => trivial, fun _ => pushes _ _⟩⟩⟩

/-- The two exits of the `try` block of `_on_write_complete`. -/
theorem publishWrite_fds {file : FileRef} {slot : Fin slotCount}
    {finalPath tempPath : String} {result : Int}
    (clean : result = env.ioSize →
      env.FinishesCleanly fd tempPath finalPath state.calls)
    (books : FdBooks (fd :: extra) state) :
    wp (publishWrite env file slot fd finalPath tempPath result)
      (fun _ next => FdBooks extra next)
      (fun _ next => FdBooks (fd :: extra) next) state := by
  have framed := books_framed quiet.emits extra
  have checked : wp (checkTransferred env "write" result)
      (fun _ next => next = state ∧ result = env.ioSize)
      (fun _ next => FdBooks (fd :: extra) next) state := by
    unfold checkTransferred
    simp only [wp_ite, wp_throw, wp_pure]
    exact ⟨fun _ => books, fun _ => ⟨fun _ => books,
      fun whole => ⟨trivial, not_not.mp whole⟩⟩⟩
  unfold publishWrite
  refine wp_seq checked fun _ next after => ?_
  obtain ⟨rfl, whole⟩ := after
  refine wp_seq (finishWrite_fds quiet (clean whole) books)
    fun _ finished published => wp_returns ?_
  have released := wp_and
    (framed.releaseOrCache_keeps file.hash slot finished published)
    (Crash.releaseOrCache_returns fun _ => quiet _ _ rfl)
  refine wp_seq (wp_mono released (fun _ _ reached => reached.1)
    fun _ _ reached => reached.2) fun _ cached kept => ?_
  have terminal : wp (fileTerminal env file none)
      (fun _ next => FdBooks extra next) (fun _ _ => False) cached :=
    wp_fileTerminal quiet.emits kept kept
  refine wp_seq terminal fun _ ended kept => ?_
  have settled := wp_and
    (framed.releaseStoreInflight_keeps file.hash true ended kept)
    (releaseStoreInflight_returns quiet)
  exact wp_mono settled (fun _ _ reached => reached.1)
    fun _ _ reached => reached.2

theorem onWriteComplete_closes {file : FileRef} {slot : Fin slotCount}
    {finalPath tempPath : String} {result : Int}
    (clean : result = env.ioSize →
      env.FinishesCleanly fd tempPath finalPath state.calls)
    (books : FdBooks (fd :: extra) state) :
    wp (onWriteComplete env file slot fd finalPath tempPath result)
      (fun _ next => FdBooks extra next)
      (fun _ next => FdBooks extra next) state := by
  have framed := books_framed quiet.emits extra
  unfold onWriteComplete
  rw [wp_handling]
  refine wp_mono (publishWrite_fds quiet clean books)
    (fun _ _ kept => kept) fun exc failed kept => ?_
  unfold failWrite
  refine wp_seq (cleanupTemp_closes fd tempPath failed kept)
    fun _ cleaned kept => ?_
  exact wp_seq (framed.release_keeps slot cleaned kept)
    fun _ released kept => framed.failStoreFile_keeps file exc released kept

end Completions

section Loop

variable (framed : ∀ extra, Framed env (FdBooks extra))

include framed

theorem onStoreCopyDone_fds (file : FileRef) (slot : Fin slotCount) :
    KeepsFds extra (onStoreCopyDone env file slot) := by
  intro state books
  unfold onStoreCopyDone
  rw [wp_bind, wp_attempt]
  refine wp_mono (openTempWrite_fds _ books) (fun opened next kept => ?_)
    fun exc next kept => ?_
  · obtain ⟨fd, tempPath⟩ := opened
    have renumbered := kept.renumbered (Nat.le_succ _)
    unfold newUserData dataDone
    simp only [wp_bind, wp_modifyGet, wp_attempt, wp_external, wp_modify]
    refine ⟨fun _ => FdBooksIn.queued _ kept (by simp), fun fault _ => ?_⟩
    refine wp_post (cleanupTemp_closes fd tempPath _ ?_)
      fun _ cleaned kept => ?_
    · exact renumbered
    · exact wp_post ((framed extra).release_keeps slot cleaned kept)
        fun _ released kept =>
          (framed extra).failStoreFile_keeps file _ released kept
  · exact (framed extra).failStoreFile_keeps file exc _ kept

theorem drainCudaCopy_fds (emits : env.Emits) (copy : CopyOp slotCount) :
    KeepsFds extra (drainCudaCopy env copy) := by
  refine .bind (.bind .get fun _ => .bind (external_fds _) fun _ =>
    .pure _) fun finished => .ite ?_ (.pure _)
  refine .bind (.modify fun _ books => books) fun _ =>
    .bind (external_fds _) fun _ => ?_
  cases copy with
  | store file slot =>
      exact .bind (.modify fun _ books => books) fun _ =>
        onStoreCopyDone_fds framed file slot
  | load members =>
      exact .forM fun copy => (framed extra).settleMember_keeps
        (fileTerminal_fds emits copy.file none)

theorem onOpenComplete_fds (reader : Reader) (resultFd : Int) :
    KeepsFds extra (onOpenComplete env reader resultFd) := by
  refine .bind (.modify fun _ books => books) fun _ => ?_
  by_cases failed : resultFd < 0
  · rw [if_pos failed]
    cases reader with
    | load file => exact (framed extra).fails _ _
    | preload info => exact (framed extra).failPreloadOpen_keeps _ _
  · rw [if_neg failed]
    intro state books
    have usable : 0 ≤ resultFd := Int.not_lt.mp failed
    have taken := books.taken resultFd
    rw [wp_bind, wp_modify]
    cases reader with
    | load file => exact taken.readyLoadAdded usable
    | preload info => exact taken.readyPreloadAdded usable

omit framed in
/-- A read that ends in any way closes its descriptor. -/
theorem ensuring_closes {program : React slotCount PUnit} (usable : 0 ≤ fd)
    (keeps : KeepsFds (fd :: extra) program) :
    ClosesFd fd extra (ensuring program (asyncClose env fd)) := by
  intro state books
  rw [wp_ensuring]
  exact wp_mono (keeps state books)
    (fun _ _ kept => asyncClose_closes usable _ kept)
    fun _ _ kept => asyncClose_closes usable _ kept

theorem onReadComplete_closes (reader : Reader) (slot : Fin slotCount)
    (result : Int) (usable : 0 ≤ fd) :
    ClosesFd fd extra (onReadComplete env reader slot fd result) := by
  have framing := framed (fd :: extra)
  cases reader with
  | load file =>
      apply ensuring_closes usable
      exact .handling
        (.bind (Framed.checkTransferred_keeps _ _) fun _ =>
          framing.queueLoadCopy_keeps _ _)
        fun _ => .bind (framing.release_keeps _) fun _ => framing.fails _ _
  | preload info =>
      intro state books
      unfold onReadComplete onSharedReadComplete onOwnedReadComplete
        preloadInflightRemove
      simp only [wp_ite, wp_bind, wp_modify]
      refine ⟨fun _ => ensuring_closes usable ?_ _ books,
        fun _ => ensuring_closes usable ?_ _ books⟩
      · exact .handling (framing.placeSharedRead_keeps _ _ _)
          (framing.failSharedRead_keeps _ _)
      · exact .handling (framing.placeOwnedRead_keeps _ _ _)
          (framing.failOwnedRead_keeps _ _)

/-- If the next completion is that of a whole write, its `finish_write` ends
cleanly. -/
def ReapsCleanly (env : Env slotCount) (state : State slotCount)
    (completion : Nat × Int) : Prop :=
  match state.inflight.find? completion.1 with
  | some (.writing _ _ fd finalPath tempPath) =>
      completion.2 = env.ioSize →
        env.FinishesCleanly fd tempPath finalPath state.calls
  | _ => True

theorem reapCompletion_fds (quiet : env.Quiet) {completion : Nat × Int}
    (clean : ReapsCleanly env state completion)
    (books : FdBooks extra state) :
    wp (reapCompletion env completion) (fun _ next => FdBooks extra next)
      (fun _ next => FdBooks extra next) state := by
  unfold ReapsCleanly at clean
  unfold reapCompletion
  rw [wp_bind, wp_get]
  cases found : state.inflight.find? completion.1 with
  | none => exact books
  | some op =>
      have reaped := books.reaped found
      rw [found] at clean
      cases op with
      | opening reader =>
          exact onOpenComplete_fds framed reader completion.2 _ reaped
      | closing fd => exact reaped
      | reading reader slot fd =>
          have usable := books.reads _ _ _ _ found
          have closes : ClosesFd fd extra
              (onReadComplete env reader slot fd completion.2) :=
            onReadComplete_closes framed reader slot completion.2 usable
          unfold dataDone fillSlot
          simp only [wp_bind, wp_modify, wp_onlyIf]
          exact ⟨fun _ => closes _ reaped, fun _ => closes _ reaped⟩
      | writing file slot fd finalPath tempPath =>
          unfold dataDone
          simp only [wp_bind, wp_modify]
          exact onWriteComplete_closes quiet clean reaped

/-! ### Scheduling -/

omit framed in
/-- What a slot is reserved for stays ready. -/
theorem ready_framed (emits : env.Emits) (loads : List (Int × FileRef))
    (preloads : List (Int × PreloadInfo)) :
    Framed env fun (state : State slotCount) =>
      state.readyFdsLoad = loads ∧ state.readyFdsPreload = preloads := by
  have fails : ∀ file exc, Keeps (fun (state : State slotCount) =>
      state.readyFdsLoad = loads ∧ state.readyFdsPreload = preloads)
      (fileTerminal env file (some exc)) :=
    fun _ _ state ready => wp_fileTerminal emits ready ready
  refine ⟨fun state next same ready => ?_, fun _ _ ready => ready, fails,
    fun file => ?_, fun info => ?_, fun _ _ _ ready => ready,
    fun _ _ ready => ready⟩
  · simp only [frame, Prod.mk.injEq] at same
    obtain ⟨_, _, _, _, _, _, sameLoads, samePreloads, _⟩ := same
    rw [sameLoads, samePreloads]
    exact ready
  · intro state ready
    unfold submitOpenRead startFile modifyJob newUserData
    simp only [wp_bind, wp_modify, wp_modifyGet, wp_attempt, wp_external]
    exact ⟨fun _ => ready, fun _ _ => fails _ _ _ ready⟩
  · intro state ready
    unfold submitOpenPreload preloadInflightAdd newUserData
    simp only [wp_bind, wp_modify, wp_modifyGet, wp_attempt, wp_external,
      wp_pure]
    exact ⟨fun _ => ready, fun _ _ => ready⟩

/-- The descriptor goes into a ring operation, or it is closed. -/
theorem submitReadFromReady_closes (reader : Reader)
    (slot : Fin slotCount) (usable : 0 ≤ fd) :
    ClosesFd fd extra (submitReadFromReady env reader fd slot) := by
  intro state books
  unfold submitReadFromReady newUserData fillSlot
  simp only [wp_bind, wp_modifyGet, wp_attempt, wp_external, wp_modify]
  refine ⟨fun _ => FdBooksIn.queued (.reading reader slot fd) books ?_,
    fun _ _ => ?_⟩
  · rintro _ _ _ ⟨⟩
    exact usable
  · have renumbered := FdBooksIn.renumbered books (Nat.le_succ _)
    refine wp_post (asyncClose_closes usable _ renumbered)
      fun _ closed kept => ?_
    exact wp_post ((framed extra).release_keeps slot closed kept)
      fun _ released kept =>
        (framed extra).failReadyRead_keeps reader _ released kept

theorem drainReadyLoadFd_fds (emits : env.Emits) :
    KeepsFds extra (drainReadyLoadFd env) := by
  intro state books
  unfold drainReadyLoadFd
  rw [wp_bind, wp_get]
  cases ready : state.readyFdsLoad with
  | nil => exact books
  | cons first later =>
      obtain ⟨fd, file⟩ := first
      have listed : (fd, file) ∈ state.readyFdsLoad := by
        rw [ready]
        exact List.mem_cons_self
      have usable : 0 ≤ fd := books.loads _ listed
      have stays := (ready_framed emits ((fd, file) :: later)
        state.readyFdsPreload).reserveForegroundSlot_keeps state ⟨ready, rfl⟩
      have keeps := (framed extra).reserveForegroundSlot_keeps state books
      simp only [wp_ite, wp_pure]
      refine ⟨fun _ => ?_, fun _ => books⟩
      rw [wp_bind]
      refine wp_mono (wp_and keeps stays) (fun slot next kept => ?_)
        fun _ _ kept => kept.1
      obtain ⟨kept, loads, _⟩ := kept
      cases slot with
      | none => exact kept
      | some slot =>
          simp only [wp_bind, wp_modify, wp_pure]
          rw [FdBooks, loads] at kept
          exact submitReadFromReady_closes framed (.load file) slot usable _
            kept.readyLoadTaken

/-- A preload read takes the first ready descriptor, if it has a slot. -/
theorem readReadyPreload_fds {info : PreloadInfo}
    {later : List (Int × PreloadInfo)} {slot : Option (Fin slotCount)}
    (usable : 0 ≤ fd) (books : FdBooks extra state)
    (ready : state.readyFdsPreload = (fd, info) :: later) :
    wp (readReadyPreload env info fd later slot)
      (fun _ next => FdBooks extra next) (fun _ next => FdBooks extra next)
      state := by
  cases slot with
  | none => exact books
  | some slot =>
      unfold readReadyPreload
      simp only [wp_bind, wp_modify, wp_pure]
      rw [FdBooks, ready] at books
      exact submitReadFromReady_closes framed (.preload info) slot usable _
        books.readyPreloadTaken

omit framed in
theorem yieldOpenFd_closes (quiet : env.Quiet) (info : PreloadInfo)
    (usable : 0 ≤ fd) : ClosesFd fd extra (yieldOpenFd env info fd) := by
  intro state books
  unfold yieldOpenFd preloadInflightRemove pendingPush
  simp only [wp_bind, wp_modify, wp_addEvent quiet]
  exact asyncClose_closes usable _ books

theorem drainReadyPreloadFd_fds (quiet : env.Quiet) :
    KeepsFds extra (drainReadyPreloadFd env) := by
  intro state books
  unfold drainReadyPreloadFd
  rw [wp_bind, wp_get]
  cases ready : state.readyFdsPreload with
  | nil => exact books
  | cons first later =>
      obtain ⟨fd, info⟩ := first
      have listed : (fd, info) ∈ state.readyFdsPreload := by
        rw [ready]
        exact List.mem_cons_self
      have usable : 0 ≤ fd := books.preloads _ listed
      have stays := ready_framed quiet.emits state.readyFdsLoad
        ((fd, info) :: later)
      -- a slot is reserved either way, and the read takes the descriptor
      have reads : ∀ {reserve : React slotCount (Option (Fin slotCount))},
          KeepsFds extra reserve →
          Keeps (fun (next : State slotCount) =>
            next.readyFdsLoad = state.readyFdsLoad ∧
              next.readyFdsPreload = (fd, info) :: later) reserve →
          wp (reserve >>= readReadyPreload env info fd later)
            (fun _ next => FdBooks extra next)
            (fun _ next => FdBooks extra next) state := by
        intro reserve keeps stays
        rw [wp_bind]
        exact wp_mono (wp_and (keeps state books) (stays state ⟨rfl, ready⟩))
          (fun _ _ kept => readReadyPreload_fds framed usable kept.1 kept.2.2)
          fun _ _ kept => kept.1
      simp only [wp_ite, wp_pure]
      refine ⟨fun _ => ⟨fun _ => reads
          (framed extra).reserveForegroundSlot_keeps
          stays.reserveForegroundSlot_keeps, fun _ => books⟩,
        fun _ => ⟨fun _ => ?_, fun _ => ⟨fun _ => reads
          (framed extra).reservePreloadSlot_keeps
          stays.reservePreloadSlot_keeps, fun _ => books⟩⟩⟩
      simp only [wp_bind, wp_modify, wp_pure]
      rw [FdBooks, ready] at books
      exact yieldOpenFd_closes quiet info usable _
        books.readyPreloadTaken

theorem scheduleWork_fds (quiet : env.Quiet) :
    KeepsFds extra (scheduleWork env) := by
  have framing := framed extra
  have loads : KeepsFds extra (drainReadyLoadFds env) :=
    .bind .get fun _ => .loop (drainReadyLoadFd_fds framed quiet.emits) _
  have preloads : KeepsFds extra (drainReadyPreloadFds env) :=
    .bind .get fun _ => .loop (drainReadyPreloadFd_fds framed quiet) _
  have speculates : KeepsFds extra (schedulePreloads env) :=
    .bind preloads fun _ => .bind .get fun _ =>
      .bind (.loop framing.drainCancelledPending_keeps _) fun _ =>
        .bind .get fun _ => .onlyIf (.loop framing.speculate_keeps _)
  exact .bind loads fun _ => .bind .get fun _ =>
    .bind (.forM framing.scheduleLoadJob_keeps) fun _ =>
      .bind (.forM framing.scheduleStoreJob_keeps) fun _ => speculates

/-! ### Intake and the crash handler -/

theorem intake_fds (item : Item) : KeepsFds extra (intake env item) := by
  have framing := framed extra
  cases item with
  | stop => exact fun _ books => framing.intakeStop_post books
  | preload request => exact .forM (framing.intakePreloadHash_keeps request)
  | job job =>
      have activates : KeepsFds extra (activate job : React slotCount _) :=
        .modify fun _ books => books
      refine .bind .get fun state => .ite ?_ (.ite ?_ ?_)
      · exact .bind (.forM (framing.intakeStoreHash_keeps job))
          fun _ => activates
      · exact .bind (framing.addEvent_keeps _) fun _ =>
          .modify fun _ books => books
      · exact .bind (.forM fun _ => .modify fun _ books => books)
          fun _ => activates

end Loop

end Handlers

/-! ## Runs -/

/-- The fields the books are about. -/
def fdTables (state : State slotCount) :=
  (state.inflight, state.nextUserData, state.readyFdsLoad,
    state.readyFdsPreload, state.descriptors)

theorem FdBooks.same {next : State slotCount} (books : FdBooks extra state)
    (same : fdTables next = fdTables state) : FdBooks extra next := by
  simp only [fdTables, Prod.mk.injEq] at same
  obtain ⟨inflight, number, loads, preloads, log⟩ := same
  unfold FdBooks
  rw [inflight, number, loads, preloads, log]
  exact books

/-- Nothing is left to close: no descriptor is open, and the ring has nothing
to open or to close either. -/
def ClosedAll (state : State slotCount) : Prop :=
  state.openFds = [] ∧ state.inflight.entries = []

theorem closedAll_same {next : State slotCount}
    (same : fdTables next = fdTables state)
    (closed : ClosedAll state) : ClosedAll next := by
  simp only [fdTables, Prod.mk.injEq] at same
  obtain ⟨inflight, _, loads, preloads, _⟩ := same
  unfold ClosedAll State.openFds
  rw [inflight, loads, preloads]
  exact closed

/-- The crash handler does not look at descriptors. -/
theorem failActive_tables (exc : Exc) :
    Keeps (fun next => fdTables next = fdTables state) (failActive exc) := by
  refine .bind (.modify fun _ same => same) fun _ => .bind .get fun _ => ?_
  exact .bind (.forM fun _ => .modify fun _ same => same) fun _ =>
    .bind (.modify fun _ same => same) fun _ =>
      .bind (.forM fun _ => .modify fun _ same => same) fun _ =>
        .modify fun _ same => same

theorem failIncoming_tables (exc : Exc) :
    Keeps (fun next => fdTables next = fdTables state)
      (failIncoming exc) := by
  refine .bind (.modify fun _ same => same) fun _ => .bind .get fun _ =>
    .bind (.modify fun _ same => same) fun _ => .forM fun item => ?_
  cases item with
  | job job => exact .modify fun _ same => same
  | preload request => exact .pure _
  | stop => exact .pure _

/-- The next step closes nothing twice and leaves nothing open: the write it
reaps is published cleanly, and the crash handler starts with nothing
open and nothing in the ring. -/
def ClosesCleanly (env : Env slotCount) (machine : Machine slotCount) :
    Prop :=
  match machine.phase with
  | .completions (completion :: _) =>
      ReapsCleanly env machine.state completion
  | .crashed _ => ClosedAll machine.state
  | _ => True

/-- The thread is gone, or it runs the last part of the crash handler. -/
def Leaving : Phase slotCount → Prop
  | .closing _ => True
  | .dead => True
  | .exited => True
  | _ => False

/-- What holds of the descriptors between any two steps. -/
structure FdsAccounted (machine : Machine slotCount) : Prop where
  books : FdBooks [] machine.state
  left : Leaving machine.phase → ClosedAll machine.state

theorem closedAll_of_idle (idle : state.hasWork = false) :
    ClosedAll state := by
  simp only [State.hasWork, Bool.or_eq_false_iff, Bool.not_eq_false',
    List.isEmpty_iff] at idle
  have none : state.inflight.values = [] := by
    simp [OrderedDict.values, idle]
  simp [ClosedAll, State.openFds, idle, none]

theorem perform_accounted {program : React slotCount PUnit}
    {next : Phase slotCount} (stays : ¬ Leaving next)
    (holds : wp program (fun _ final => FdBooks [] final)
      (fun _ final => FdBooks [] final) state) :
    FdsAccounted (Machine.perform program next state) := by
  unfold wp at holds
  unfold Machine.perform
  split at holds
  next returned =>
    rw [returned]
    exact ⟨holds, fun left => absurd left stays⟩
  next raised =>
    rw [raised]
    exact ⟨holds, False.elim⟩

/-- A part of the crash handler. -/
theorem handler_accounted {program : React slotCount PUnit}
    {next : Phase slotCount} (books : FdBooks [] state)
    (closed : ClosedAll state)
    (holds : Keeps (fun final => fdTables final = fdTables state) program) :
    FdsAccounted (Machine.perform program next state) := by
  have same := holds state rfl
  unfold wp at same
  unfold Machine.perform
  split at same
  next returned =>
    rw [returned]
    exact ⟨books.same same, fun _ => closedAll_same same closed⟩
  next raised =>
    rw [raised]
    exact ⟨books.same same, False.elim⟩

theorem unlessDone_accounted {next : Phase slotCount}
    (stays : ¬ Leaving next) (books : FdBooks [] state) :
    FdsAccounted (Machine.unlessDone next state) := by
  unfold Machine.unlessDone
  split
  next done =>
    refine ⟨books, fun _ => closedAll_of_idle ?_⟩
    simp only [Bool.and_eq_true, Bool.not_eq_true'] at done
    exact done.2
  next => exact ⟨books, fun left => absurd left stays⟩

/-- One step of the reactor thread. -/
theorem advance_accounted (quiet : env.Quiet)
    (clean : ClosesCleanly env machine) (before : FdsAccounted machine) :
    FdsAccounted (machine.advance env) := by
  obtain ⟨phase, state⟩ := machine
  obtain ⟨books, left⟩ := before
  have framed := fun extra => books_framed quiet.emits extra
  unfold Machine.advance
  cases phase with
  | loopHead => exact unlessDone_accounted id books
  | incoming =>
      dsimp only
      split
      next => exact unlessDone_accounted id books
      next item later _ =>
        exact perform_accounted id (intake_fds framed item _ books)
  | copies todo =>
      cases todo with
      | nil => exact ⟨books, False.elim⟩
      | cons copy todo =>
          exact perform_accounted id
            (drainCudaCopy_fds framed quiet.emits copy _ books)
  | poll =>
      have polled := (framed []).pollAll_keeps state books
      unfold wp at polled
      dsimp only
      split at polled
      next returned =>
        rw [returned]
        exact ⟨polled, False.elim⟩
      next raised =>
        rw [raised]
        exact ⟨polled, False.elim⟩
  | completions todo =>
      cases todo with
      | nil => exact ⟨books, False.elim⟩
      | cons completion todo =>
          exact perform_accounted id
            (reapCompletion_fds framed quiet clean books)
  | scheduling =>
      exact perform_accounted id (scheduleWork_fds framed quiet _ books)
  | flushing =>
      exact perform_accounted id ((framed []).flushCopyBatch_keeps
        (fun file => fileTerminal_fds quiet.emits file none)
        (fun _ books => books) _ books)
  | submitting => exact perform_accounted id (external_fds _ _ books)
  | finishing =>
      have finishes : KeepsFds [] (finishJobs : React slotCount PUnit) :=
        .modify fun _ books => books
      exact perform_accounted id (finishes state books)
  | crashed exc => exact handler_accounted books clean (failActive_tables exc)
  | closing exc =>
      exact handler_accounted books (left trivial) (failIncoming_tables exc)
  | dead => exact ⟨books, left⟩
  | exited => exact ⟨books, left⟩

/-- A call of another thread does not touch the tables. -/
theorem call_accounted {next : State slotCount}
    (same : fdTables next = fdTables machine.state)
    (before : FdsAccounted machine) :
    FdsAccounted ⟨machine.phase, next⟩ :=
  ⟨before.books.same same,
    fun left => closedAll_same same (before.left left)⟩

theorem step_accounted {after : Machine slotCount} (quiet : env.Quiet)
    (clean : ClosesCleanly env machine)
    (step : Machine.Step env machine after)
    (before : FdsAccounted machine) : FdsAccounted after := by
  cases step with
  | advance => exact advance_accounted quiet clean before
  | submit job _ =>
      apply call_accounted _ before
      unfold State.submitJob
      split <;> rfl
  | preload request =>
      apply call_accounted _ before
      unfold State.enqueuePreload
      split <;> rfl
  | shutdown =>
      apply call_accounted _ before
      unfold State.shutdown
      split <;> rfl

/-- The run lemma: the books are kept in every run. -/
theorem reachable_accounted (quiet : env.Quiet)
    (reached : Machine.ReachableUnder env (ClosesCleanly env) machine) :
    FdsAccounted machine := by
  induction reached with
  | refl => exact ⟨fdBooks_init, False.elim⟩
  | tail _ step inductionHypothesis =>
      exact step_accounted quiet step.1 step.2 inductionHypothesis

/-- Every close is of a descriptor the reactor owns, whatever other threads
open and close in between, and once the thread is gone each descriptor has
been closed as often as it was obtained, with nothing left in the ring. -/
structure OwnsWhatItCloses (machine : Machine slotCount) : Prop where
  rightful : Handover.Rightful machine.state.descriptors
  apart : ∀ {thread : Type} [DecidableEq thread] (reactor : thread)
    (shared : List (thread × Handover Int)),
    Handover.own reactor shared = machine.state.descriptors →
      Handover.Fresh shared → Handover.GivesOwn reactor shared
  once : ∀ fd, machine.state.descriptors.count (.taken fd) =
    machine.state.descriptors.count (.given fd) +
      machine.state.openFds.count fd
  returned : machine.phase = .exited ∨ machine.phase = .dead →
    (∀ fd, machine.state.descriptors.count (.taken fd) =
      machine.state.descriptors.count (.given fd)) ∧
    machine.state.inflight.entries = []

/-- As long as `finish_write` does not raise after its close and the thread
does not crash with descriptors open or operations in the ring, the reactor
closes each descriptor it got once, and no other. -/
theorem ownsWhatItCloses (quiet : env.Quiet)
    (reached : Machine.ReachableUnder env (ClosesCleanly env) machine) :
    OwnsWhatItCloses machine := by
  obtain ⟨books, left⟩ := reachable_accounted quiet reached
  have once : ∀ fd, machine.state.descriptors.count (.taken fd) =
      machine.state.descriptors.count (.given fd) +
        machine.state.openFds.count fd := by
    intro fd
    rw [books.rightful.balanced fd, books.stock.count_eq fd]
    rfl
  refine ⟨books.rightful, ?_, once, fun gone => ?_⟩
  · intro thread _ reactor shared same fresh
    apply Handover.Rightful.givesOwn _ fresh
    rw [same]
    exact books.rightful
  · have closed : ClosedAll machine.state := by
      apply left
      rcases gone with exited | dead
      · rw [exited]
        trivial
      · rw [dead]
        trivial
    refine ⟨fun fd => ?_, closed.2⟩
    rw [once fd, closed.1]
    rfl

section Examples

/-- A store of one file. -/
def storeOne : Job :=
  .ofChunk 0 true [1] [7]

/-- A world in which the write of that file is reaped whole and some calls
raise. -/
def storeWorld (raises : ExtCall → Nat → Option Fault) : Env 5 :=
  { Env.smooth true fun calls => if calls = 12 then [(1, 1)] else [] with
    raises := raises }

/-- The store, the end of its write, and the shutdown. -/
def storeRun : List Event :=
  .submit storeOne :: List.replicate 30 .advance ++
    .shutdown :: List.replicate 12 .advance

instance (env : Env slotCount) (state : State slotCount)
    (completion : Nat × Int) :
    Decidable (ReapsCleanly env state completion) := by
  unfold ReapsCleanly
  split <;> infer_instance

instance (env : Env slotCount) (machine : Machine slotCount) :
    Decidable (ClosesCleanly env machine) := by
  unfold ClosesCleanly ClosedAll
  split <;> infer_instance

theorem storeRun_ownsWhatItCloses :
    ((Machine.init (storeWorld fun _ _ => none)).play
        (storeWorld fun _ _ => none) storeRun).phase = .exited ∧
      OwnsWhatItCloses ((Machine.init (storeWorld fun _ _ => none)).play
        (storeWorld fun _ _ => none) storeRun) :=
  ⟨by decide, ownsWhatItCloses (fun _ _ _ => rfl)
    (Machine.reachableUnder_play _ Relation.ReflTransGen.refl (by decide))⟩

/-- `os.link` raises an `OSError`. -/
def failLink : ExtCall → Nat → Option Fault
  | .link _ _, _ => some .osError
  | _, _ => none

/-- Another thread gets the number between the two closes. -/
def numberReused : List (Bool × Handover Int) :=
  [] ++ [(true, .taken 3)] ++ [(true, .given 3)] ++ [(false, .taken 3)] ++
    [(true, .given 3)]

theorem numberReused_fresh : Handover.Fresh numberReused :=
  ((Handover.fresh_nil.taken (by decide)).given.taken (by decide)).given

theorem numberReused_givesForeign :
    ¬ Handover.GivesOwn true numberReused := by
  intro own
  have second := own [(true, .taken 3), (true, .given 3), (false, .taken 3)]
    3 [] rfl
  exact absurd second.1 (by decide)

/-- `finish_write` has closed the file when `os.link` raises, and
`cleanup_temp` closes it again. -/
theorem failedLink_closesForeign :
    Machine.Reachable (storeWorld failLink)
        ((Machine.init (storeWorld failLink)).play (storeWorld failLink)
          storeRun) ∧
      Handover.own true numberReused =
        ((Machine.init (storeWorld failLink)).play (storeWorld failLink)
          storeRun).state.descriptors ∧
      Handover.Fresh numberReused ∧
      ¬ Handover.GivesOwn true numberReused ∧
      ¬ OwnsWhatItCloses ((Machine.init (storeWorld failLink)).play
        (storeWorld failLink) storeRun) := by
  have logged : Handover.own true numberReused =
      ((Machine.init (storeWorld failLink)).play (storeWorld failLink)
        storeRun).state.descriptors := by decide
  exact ⟨Machine.reachable_play _ (by decide), logged, numberReused_fresh,
    numberReused_givesForeign, fun owns => numberReused_givesForeign
      (owns.apart true numberReused logged numberReused_fresh)⟩

/-- The poll raises while a write is on the way. -/
def failPoll : ExtCall → Nat → Option Fault
  | .pollAll, number => if number = 12 then some .other else none
  | _, _ => none

/-- The crash handler closes no descriptor. -/
theorem crashedPoll_neverCloses :
    Machine.Reachable (storeWorld failPoll)
        ((Machine.init (storeWorld failPoll)).play (storeWorld failPoll)
          storeRun) ∧
      ((Machine.init (storeWorld failPoll)).play (storeWorld failPoll)
        storeRun).phase = .dead ∧
      ((Machine.init (storeWorld failPoll)).play (storeWorld failPoll)
        storeRun).state.descriptors = [.taken 3] := by
  exact ⟨Machine.reachable_play _ (by decide), by decide, by decide⟩

end Examples

end PyKvCache.Safety
