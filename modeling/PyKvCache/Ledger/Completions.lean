import PyKvCache.Ledger.Helpers

/-!
# The completion handlers as moves

Each handler starts with the completed operation's file, preload and slot in
hand and ends with none of them.  An exception that leaves a handler ends the
thread, so nothing is claimed on that exit.
-/

namespace PyKvCache.Ledger

open PyKvCache.Library PyKvCache.Staging PyKvCache.Transfer
open PyKvCache.Reactor PyKvCache.Library.Effect

variable {slotCount : Nat} {env : Env slotCount} {slack : Slack}
  {inv : Hand slotCount → State slotCount → Prop}
  {hand : Hand slotCount} {state : State slotCount}
  {post : PUnit → State slotCount → Prop}
  {fail : Exc → State slotCount → Prop}

/-- The handlers start without work left over from another one. -/
structure Idle (hand : Hand slotCount) : Prop where
  files : hand.files = []
  copies : hand.copies = []
  loose : hand.loose = []
  fresh : hand.fresh = none
  tokens : hand.tokens = []
  promised : hand.promised = []
  due : hand.due = []
  primed : hand.primed = 0
  rooms : hand.rooms = 0

/-- The condition on an exception that nobody catches. -/
def Crash (_ : Exc) (_ : State slotCount) : Prop := True

theorem keeps_of_both {value : Type} {program : React slotCount value}
    (both : wp program (fun _ next => Held inv hand next)
      (fun _ next => Held inv hand next) state) :
    wp program (fun _ next => Held inv hand next) Crash state :=
  wp_mono both (fun _ _ kept => kept) fun _ _ _ => trivial

/-- `finally: self._async_close(fd)` after a block that raises nothing. -/
theorem closing_held (rules : Rules env slack inv)
    {program : React slotCount PUnit} (fd : Int)
    (ran : wp program (fun _ next => Held inv hand next)
      (fun _ _ => False) state) :
    wp (ensuring program (asyncClose env fd))
      (fun _ next => Held inv hand next) Crash state := by
  rw [wp_ensuring]
  refine wp_mono ran ?_ ?_
  · intro _ next kept
    exact keeps_of_both (asyncClose_held rules kept fd)
  · intro _ _ never
    exact never.elim

theorem wp_checkTransferred {what : String} {result : Int}
    (passed : result = env.ioSize → post ⟨⟩ state)
    (refused : ∀ exc, fail exc state) :
    wp (checkTransferred env what result) post fail state := by
  unfold checkTransferred
  split
  · exact refused _
  split
  · exact refused _
  next full => exact passed (not_not.mp full)

/-! ## Store copies -/

theorem failStoreFile_held (rules : Rules env slack inv) {file : FileRef}
    {exc : Exc}
    (held : Held inv { hand with stores := file :: hand.stores } state) :
    wp (failStoreFile env file exc) (fun _ next => Held inv hand next)
      fail state := by
  unfold failStoreFile
  refine wp_seq (endStore_held rules held rfl _) fun _ next ended => ?_
  exact releaseStoreInflight_held rules ended rfl false

theorem onStoreCopyDone_held (rules : Rules env slack inv)
    (hand : Hand slotCount) {file : FileRef} {slot : Fin slotCount}
    (held : Held inv
      { hand with
        stores := file :: hand.stores
        slots := (slot, some file.hash) :: hand.slots
        units := hand.units + 1 } state) :
    wp (onStoreCopyDone env file slot) (fun _ next => Held inv hand next)
      Crash state := by
  unfold onStoreCopyDone
  have opening : wp
      (attempt (openTempWrite env (env.getFileName file.hash)))
      (fun _ next => Held inv
        { hand with
          stores := file :: hand.stores
          slots := (slot, some file.hash) :: hand.slots
          units := hand.units + 1 } next) Crash state :=
    (wp_attempt _).mpr
      ((rules.silent _).openTempWrite_keeps _ state held)
  refine wp_seq opening ?_
  intro opened next kept
  cases opened with
  | error exc =>
      simp only [dataDone, release, wp_bind, wp_modify]
      have uncounted := rules.move kept (.dataDone rfl)
      have released := rules.move uncounted (.release rfl)
      exact failStoreFile_held rules released
  | ok temp =>
      obtain ⟨fd, tempPath⟩ := temp
      have numbered := rules.move kept .userData
      have ticked := rules.move numbered .tick
      simp only [newUserData, dataDone, release, wp_bind, wp_modify,
        wp_modifyGet, wp_attempt, wp_external]
      constructor
      · intro _
        exact rules.move ticked (.write fd _ tempPath rfl rfl rfl
          kept.base.next_unused (Nat.le_refl _))
      · intro _ _
        have uncounted := rules.move ticked (.dataDone rfl)
        refine wp_post (keeps_of_both
          ((rules.silent _).cleanupTemp_keeps fd tempPath _ uncounted)) ?_
        intro _ _ cleaned
        exact failStoreFile_held rules
          (rules.move cleaned (.release rfl))

theorem settleMember_held (rules : Rules env slack inv)
    (held : Held inv hand state) (loose : hand.loose = [])
    (fresh : hand.fresh = none) {copy : LoadCopy slotCount}
    {copies : List (LoadCopy slotCount)}
    (inHand : hand.copies = copy :: copies) :
    wp (settleMember env copy)
      (fun _ next => Held inv { hand with copies := copies } next)
      fail state := by
  unfold settleMember
  refine wp_seq (settleLoadSlot_held rules held loose fresh inHand) ?_
  intro _ next settled
  exact endLoad_held rules settled rfl none

/-- The members of a fused copy, one after the other. -/
theorem settleMembers_held (rules : Rules env slack inv)
    (hand : Hand slotCount) (loose : hand.loose = [])
    (fresh : hand.fresh = none) (members : List (LoadCopy slotCount))
    (held : Held inv { hand with copies := members } state) :
    wp (members.forM (settleMember env))
      (fun _ next => Held inv { hand with copies := [] } next)
      fail state := by
  refine wp_forM
    (fun copies next => Held inv { hand with copies := copies } next)
    ?_ members held
  intro copy copies current kept
  exact settleMember_held rules kept loose fresh rfl

theorem drainCudaCopy_held (rules : Rules env slack inv)
    (hand : Hand slotCount) (reaps : slack.reaps = true) (idle : Idle hand)
    {copy : CopyOp slotCount} {todo : List (CopyOp slotCount)}
    (held : Held inv { hand with todo := copy :: todo } state) :
    wp (drainCudaCopy env copy)
      (fun _ next => Held inv { hand with todo := todo } next)
      Crash state := by
  unfold drainCudaCopy queryEvent
  simp only [wp_bind, wp_get, wp_pure, wp_ite]
  refine wp_mono (external_held rules held _) ?_ fun _ _ _ => trivial
  intro _ next kept
  refine ⟨fun _ => ?_, fun _ => rules.move kept (.passCopy rfl)⟩
  rw [wp_modify]
  cases copy with
  | store file slot =>
      have taken := rules.move kept (.takeStore reaps rfl)
      refine wp_mono (external_held rules taken _) ?_ fun _ _ _ => trivial
      intro _ last elapsed
      simp only [fillSlot, wp_bind, wp_modify]
      have filled := rules.move elapsed (.fill file.hash rfl)
      exact onStoreCopyDone_held rules { hand with todo := todo } filled
  | load members =>
      have taken := rules.move kept (.takeLoads reaps idle.copies rfl)
      refine wp_mono (external_held rules taken _) ?_ fun _ _ _ => trivial
      intro _ last elapsed
      rw [idle.copies]
      exact settleMembers_held rules { hand with todo := todo, copies := [] }
        idle.loose idle.fresh members elapsed

/-! ## Opens -/

theorem parkMissing_held (rules : Rules env slack inv)
    {info : PreloadInfo}
    (held : Held inv
      { hand with tokens := (info.blockHash, true) :: hand.tokens } state) :
    wp (parkMissing info) (fun _ next => Held inv hand next)
      fail state := by
  simp only [parkMissing, blockOnWrite, rememberKnownMissing, wp_bind,
    wp_get, wp_ite, wp_modify]
  exact ⟨fun storing => rules.move held (.park rfl storing),
    fun _ => rules.move held (.miss rfl)⟩

/-- A preload that has ended leaves its demand and its waiters; the slot it
was counted for goes to nobody. -/
theorem preloadDone_held (rules : Rules env slack inv) {info : PreloadInfo}
    (clean : Bool)
    (held : Held inv
      { hand with preloads := info :: hand.preloads } state)
    (unawaited : clean = true →
      state.preloadWaiters.queue info.blockHash = [] ∧
        hand.promised = []) :
    Held inv
      { hand with
        tokens := (info.blockHash, clean) :: hand.tokens
        due := info.blockHash :: hand.due }
      { state with
        preloadInflightHashes :=
          state.preloadInflightHashes.takeOne info.blockHash
        preloadInflightTotal :=
          if state.preloadInflightHashes.count info.blockHash = 0 then
            state.preloadInflightTotal
          else
            state.preloadInflightTotal - 1 } := by
  have done := rules.move held (.preloadDone clean rfl unawaited)
  exact rules.move done (.roomDrop rfl)

/-- A preload whose open failed: its waiters fail, or it is parked. -/
theorem failPreloadOpen_held (rules : Rules env slack inv)
    (promised : hand.promised = []) {info : PreloadInfo} (exc : Exc)
    (held : Held inv
      { hand with preloads := info :: hand.preloads } state) :
    wp (failPreloadOpen env info exc) (fun _ next => Held inv hand next)
      fail state := by
  simp only [failPreloadOpen, preloadInflightRemove, wp_bind, wp_modify,
    wp_ite]
  by_cases empty : state.preloadWaiters.queue info.blockHash = []
  · have done := preloadDone_held rules true held
      fun _ => ⟨empty, promised⟩
    refine ⟨fun sharing => ?_, fun owned => ?_⟩
    · refine wp_post (failAllPreloadWaiters_held rules
        { hand with tokens := (info.blockHash, true) :: hand.tokens }
        sharing done _) ?_
      rintro failed next ⟨kept, waited⟩
      exact ⟨fun failed => absurd empty (waited.mp failed),
        fun _ => parkMissing_held rules kept⟩
    · rw [Bool.not_eq_true] at owned
      refine preloadWaiterPop_owned rules
        { hand with tokens := (info.blockHash, true) :: hand.tokens }
        owned done (fun kept _ => parkMissing_held rules kept) ?_
      intro file later next queued
      have queuedHere : state.preloadWaiters.queue info.blockHash =
        file :: later := queued
      rw [empty] at queuedHere
      cases queuedHere
  · have done := preloadDone_held rules false held (by simp)
    refine ⟨fun sharing => ?_, fun owned => ?_⟩
    · refine wp_post (failAllPreloadWaiters_held rules
        { hand with tokens := (info.blockHash, false) :: hand.tokens }
        sharing done _) ?_
      rintro failed next ⟨kept, waited⟩
      exact ⟨fun _ => rules.move kept (.tokenDrop rfl),
        fun none => absurd (waited.mpr empty) none⟩
    · rw [Bool.not_eq_true] at owned
      refine preloadWaiterPop_owned rules
        { hand with tokens := (info.blockHash, false) :: hand.tokens }
        owned done (fun _ queued => absurd queued empty) ?_
      intro file later next _ _ woken
      have dropped := rules.move woken (.tokenDrop rfl)
      exact endLoad_held rules dropped rfl _

/-- What a completed open leaves in hand. -/
def Hand.opened (hand : Hand slotCount) : Reader → Hand slotCount
  | .load file =>
      { hand with files := file :: hand.files, opens := hand.opens + 1 }
  | .preload info =>
      { hand with
        preloads := info :: hand.preloads
        opens := hand.opens + 1 }

theorem onOpenComplete_held (rules : Rules env slack inv)
    (promised : hand.promised = []) {reader : Reader} (resultFd : Int)
    (held : Held inv (hand.opened reader) state) :
    wp (onOpenComplete env reader resultFd)
      (fun _ next => Held inv hand next) fail state := by
  simp only [onOpenComplete, wp_bind, wp_modify, wp_ite]
  cases reader with
  | load file =>
      have uncounted := rules.move held (.openDone rfl)
      have failed := rules.move uncounted (.openFailed rfl)
      have obtained := rules.move uncounted (.handOver (.taken resultFd))
      exact ⟨fun _ => endLoad_held rules failed rfl _,
        fun _ => rules.move obtained (.readyLoad resultFd rfl rfl)⟩
  | preload info =>
      have uncounted := rules.move held (.openDone rfl)
      have failed := rules.move uncounted (.openFailed rfl)
      have obtained := rules.move uncounted (.handOver (.taken resultFd))
      exact ⟨fun _ => failPreloadOpen_held rules promised _ failed,
        fun _ => rules.move obtained (.readyPreload resultFd rfl rfl)⟩

/-! ## Reads -/

/-- A load served from this slot has given its demand back. -/
def GivenBack (env : Env slotCount) (slack : Slack)
    (state : State slotCount) (file : FileRef) (slot : Fin slotCount) :
    Prop :=
  slack.retains = true ∨ env.sharePreload = false ∨
    ∀ mapping,
      loadMapping env.layout (slot : Nat) file.chunk = .ok mapping →
        state.preloadOwned.contains (file.job.reqId, file.hash) = false

/-- A load copy out of a slot of its own, or the file fails and the slot is
free. -/
theorem queueOwnCopy_held (rules : Rules env slack inv) {file : FileRef}
    {slot : Fin slotCount} (given : GivenBack env slack state file slot)
    (held : Held inv
      { hand with
        files := file :: hand.files
        slots := (slot, some file.hash) :: hand.slots } state)
    (refused : ∀ error,
      loadMapping env.layout (slot : Nat) file.chunk = .error error →
        fail (.mapping error) state) :
    wp (queueLoadCopy env file (.own slot))
      (fun _ next => Held inv hand next) fail state := by
  refine wp_queueLoadCopy (fun mapping mapped => ?_) refused
  have queued := rules.move held (.queueOwn mapping rfl rfl)
  exact rules.move queued (.serve rfl
    (given.imp_right fun rest => rest.imp_right fun given =>
      given mapping mapped))

theorem onLoadReadComplete_held (rules : Rules env slack inv)
    {file : FileRef} {slot : Fin slotCount} {block : Option BlockHash}
    (fd : Int) {result : Int}
    (full : result = env.ioSize → block = some file.hash)
    (given : result = env.ioSize → GivenBack env slack state file slot)
    (held : Held inv
      { hand with
        files := file :: hand.files
        slots := (slot, block) :: hand.slots } state) :
    wp (onLoadReadComplete env file slot fd result)
      (fun _ next => Held inv hand next) Crash state := by
  unfold onLoadReadComplete
  refine closing_held rules fd ?_
  rw [wp_handling]
  have failed : ∀ exc, wp (do
      release slot
      fileTerminal env file (some exc))
      (fun _ next => Held inv hand next) (fun _ _ => False) state := by
    intro exc
    simp only [release, wp_bind, wp_modify]
    exact endLoad_held rules (rules.move held (.release rfl)) rfl _
  rw [wp_bind]
  refine wp_checkTransferred (fun size => ?_) failed
  have filled := full size
  subst filled
  exact queueOwnCopy_held rules (given size) held fun _ _ => failed _

theorem withoutDue {next : State slotCount} (noDue : hand.due = [])
    (kept : Held inv { hand with due := [] } next) : Held inv hand next := by
  rw [← noDue] at kept
  exact kept

theorem singleDue (hand : Hand slotCount) {next : State slotCount}
    {hash : BlockHash} (noDue : hand.due = [])
    (kept : Held inv { hand with due := hash :: hand.due } next) :
    Held inv { hand with due := [hash] } next := by
  rw [noDue] at kept
  exact kept

/-- The `except` block of a multi-copy read: with the read still due it fails
its waiter, after that one of another read. -/
theorem failOwnedRead_held (rules : Rules env slack inv)
    (owned : env.sharePreload = false) (noDue : hand.due = [])
    {info : PreloadInfo} {slot : Fin slotCount}
    {block : Option BlockHash} {due : List BlockHash} (exc : Exc)
    (ended : due = [info.blockHash] ∨ due = [] ∧ slack.loses = true)
    (held : Held inv
      { hand with slots := (slot, block) :: hand.slots, due := due } state) :
    wp (failOwnedRead env info slot exc) (fun _ next => Held inv hand next)
      fail state := by
  have nothingDue {next : State slotCount} :
      Held inv { hand with due := [] } next → Held inv hand next :=
    withoutDue noDue
  simp only [failOwnedRead, release, wp_bind, wp_addEvent rules.quiet,
    wp_modify]
  have ticked := rules.move held .tick
  have released := rules.move ticked (.release rfl)
  rcases ended with rfl | ⟨rfl, loses⟩
  · refine preloadWaiterPop_held rules released
      (Or.inl List.mem_cons_self) (fun empty => ?_) ?_
    · exact nothingDue (rules.move released (.dueDone rfl empty))
    · intro file later last _ _ _ woken
      rw [dueAfter_owned owned, List.erase_cons_head] at woken
      exact wp_post (endLoad_held rules woken rfl _)
        fun _ _ done => nothingDue done
  · refine preloadWaiterPop_held rules released (Or.inr ⟨loses, owned⟩)
      (fun _ => nothingDue released) ?_
    intro file later last _ _ _ woken
    rw [dueAfter_owned owned, List.erase_nil] at woken
    exact wp_post (endLoad_held rules woken rfl _)
      fun _ _ done => nothingDue done

/-- The read of a multi-copy preload.  Unless losing a file is allowed, the
waiter it serves must have a mapping. -/
theorem onOwnedReadComplete_held (rules : Rules env slack inv)
    (owned : env.sharePreload = false) (noDue : hand.due = [])
    {info : PreloadInfo} {slot : Fin slotCount}
    {block : Option BlockHash} (fd : Int) {result : Int}
    (full : result = env.ioSize → block = some info.blockHash)
    (served : slack.loses = true ∨ (result = env.ioSize →
      ∀ file later,
        state.preloadWaiters.queue info.blockHash = file :: later →
        ∀ error,
          loadMapping env.layout (slot : Nat) file.chunk ≠ .error error))
    (held : Held inv
      { hand with
        preloads := info :: hand.preloads
        slots := (slot, block) :: hand.slots } state) :
    wp (onOwnedReadComplete env info slot fd result)
      (fun _ next => Held inv hand next) Crash state := by
  have nothingDue {next : State slotCount} :
      Held inv { hand with due := [] } next → Held inv hand next :=
    withoutDue noDue
  have counted := rules.move held (.preloadDone false rfl nofun)
  have done := singleDue
    { hand with
      slots := (slot, block) :: hand.slots
      rooms := hand.rooms + 1 } noDue
    (rules.move counted (.tokenDrop rfl))
  simp only [onOwnedReadComplete, preloadInflightRemove, wp_bind, wp_modify]
  refine closing_held rules fd ?_
  rw [wp_handling]
  simp only [placeOwnedRead, wp_bind]
  refine wp_checkTransferred (fun size => ?_) fun exc =>
    failOwnedRead_held rules owned noDue exc (Or.inl rfl)
      (rules.move done (.roomDrop rfl))
  have filled := full size
  subst filled
  refine preloadWaiterPop_held rules done (Or.inl List.mem_cons_self)
    (fun empty => ?_) ?_
  · simp only [wp_addEvent rules.quiet, wp_bind, wp_get, wp_ite]
    have ticked := rules.move done .tick
    simp only [release, preloadCachePush, wp_modify]
    refine ⟨fun _ => ?_, fun _ => ?_⟩
    · have served := rules.move ticked (.dueDone rfl empty)
      have dropped := rules.move served (.roomDrop rfl)
      exact nothingDue (rules.move dropped (.release rfl))
    · exact nothingDue
        (rules.move ticked (.preloadPush rfl rfl empty rfl owned))
  · intro file later next queued wants _ woken
    simp only [wp_addEvent rules.quiet, wp_bind]
    rw [← wants, dueAfter_owned owned, List.erase_cons_head] at woken
    have roomless := rules.move woken (.roomDrop rfl)
    have ticked := rules.move (rules.move roomless .tick) .tick
    refine wp_queueLoadCopy (fun mapping _ => ?_) fun error refused => ?_
    · have queuedCopy := rules.move ticked (.queueOwn mapping rfl rfl)
      exact nothingDue (rules.move queuedCopy
        (.serve rfl (Or.inr (Or.inl owned))))
    have allowed : slack.loses = true := by
      rcases served with allowed | mapped
      · exact allowed
      · exact absurd refused (mapped size file later queued error)
    have lost := rules.move ticked (.lose allowed rfl)
    exact failOwnedRead_held rules owned noDue _ (Or.inr ⟨rfl, allowed⟩) lost

/-- A load copy out of the shared slot a handler has just made. -/
theorem serveOneWaiter_held (rules : Rules env slack inv)
    (hand : Hand slotCount) (sharing : env.sharePreload = true)
    (loose : hand.loose = [])
    {slot : SharedSlot slotCount} (ended : slot.blockHash ∈ hand.due)
    (held : Held inv { hand with fresh := some slot } state) :
    wp (serveOneWaiter env slot)
      (fun again next =>
        Held inv { hand with fresh := some slot } next ∧
          if again then
            (next.preloadWaiters.queue slot.blockHash).length <
              (state.preloadWaiters.queue slot.blockHash).length
          else next.preloadWaiters.queue slot.blockHash = [])
      fail state := by
  simp only [serveOneWaiter, wp_bind]
  refine preloadWaiterPop_held rules held (Or.inl ended)
    (fun empty => ⟨held, empty⟩) ?_
  intro file later next queued wants sameNext woken
  rw [dueAfter_sharing sharing] at woken
  have shorter : ∀ {last : State slotCount},
      last.preloadWaiters = next.preloadWaiters →
        (last.preloadWaiters.queue slot.blockHash).length <
          (state.preloadWaiters.queue slot.blockHash).length := by
    intro last waiters
    rw [waiters, sameNext, QueueTable.queue_keep, if_pos rfl, queued]
    exact Nat.lt_succ_self _
  simp only [wp_bind, wp_addEvent rules.quiet, claimShared, modifyShared,
    wp_modify, wp_handling]
  have ticked := rules.move woken .tick
  have claimed := rules.move ticked (.claim (Or.inl rfl))
  have settled : ∀ {last : State slotCount},
      last.preloadWaiters = next.preloadWaiters →
      wp (sharedDecref env file.job.reqId slot.blockHash)
        (fun _ after => Held inv { hand with fresh := some slot } after ∧
          QueuesKept last after)
        fail last →
      wp (sharedDecref env file.job.reqId slot.blockHash)
        (fun _ after => Held inv { hand with fresh := some slot } after ∧
          (after.preloadWaiters.queue slot.blockHash).length <
            (state.preloadWaiters.queue slot.blockHash).length)
        fail last := by
    intro last waiters given
    apply wp_post given
    rintro _ after ⟨done, queues⟩
    exact ⟨done, shorter (queues.preloadWaiters.trans waiters)⟩
  refine wp_queueLoadCopy (fun mapping _ => ?_) fun error _ => ?_
  · have queuedCopy := rules.move claimed
      (.queueShared mapping rfl rfl wants)
    exact settled rfl (sharedDecref_served rules
      { hand with fresh := some slot } loose wants queuedCopy)
  · simp only [unclaimShared, modifyShared, wp_modify]
    have unclaimed := rules.move claimed (.unclaim rfl)
    refine wp_post (endLoad_kept rules unclaimed rfl _) ?_
    rintro _ last ⟨ended, waiters⟩
    have dropped := rules.move ended
      (.looseDrop rfl (Or.inr (Or.inr rfl)))
    exact settled waiters (sharedDecref_held rules dropped loose _ _)

/-- The waiters of a shared read are served until none is left. -/
theorem serveWaiters_held (rules : Rules env slack inv)
    (hand : Hand slotCount) (slot : SharedSlot slotCount)
    (sharing : env.sharePreload = true) (loose : hand.loose = [])
    (held : Held inv
      { hand with
        fresh := some slot
        due := slot.blockHash :: hand.due } state) :
    wp (loop (serveOneWaiter env slot)
        ((state.preloadWaiters.queue slot.blockHash).length + 1))
      (fun _ next => Held inv { hand with fresh := some slot } next)
      fail state := by
  refine wp_loop_exit
    (fun current => Held inv
      { hand with
        fresh := some slot
        due := slot.blockHash :: hand.due } current)
    (fun current =>
      (current.preloadWaiters.queue slot.blockHash).length)
    (fun current kept => ?_) (Nat.lt_succ_self _) held
  refine wp_post (serveOneWaiter_held rules
    { hand with due := slot.blockHash :: hand.due } sharing loose
    List.mem_cons_self kept) ?_
  rintro again next ⟨served, rest⟩
  cases again with
  | true => exact ⟨served, rest⟩
  | false => exact rules.move served (.dueDone rfl rest)

theorem onSharedReadComplete_held (rules : Rules env slack inv)
    (sharing : env.sharePreload = true) (idle : Idle hand)
    {info : PreloadInfo} (registers : slack.registers info.blockHash = true)
    {slot : Fin slotCount}
    {block : Option BlockHash} (fd : Int) {result : Int}
    (full : result = env.ioSize → block = some info.blockHash)
    (held : Held inv
      { hand with
        preloads := info :: hand.preloads
        slots := (slot, block) :: hand.slots } state) :
    wp (onSharedReadComplete env info slot fd result)
      (fun _ next => Held inv hand next) Crash state := by
  have done := rules.move held (.preloadDone false rfl (by simp))
  simp only [onSharedReadComplete, preloadInflightRemove, wp_bind,
    wp_modify]
  refine closing_held rules fd ?_
  rw [wp_handling]
  simp only [placeSharedRead, wp_bind]
  refine wp_checkTransferred (fun size => ?_) fun exc => ?_
  · have filled := full size
    subst filled
    have ticked := rules.move done .tick
    simp only [wp_addEvent rules.quiet, newSharedSlot, wp_modifyGet, wp_get]
    have made := rules.move ticked (.sharedNew rfl idle.fresh)
    refine wp_post (serveWaiters_held rules
      { hand with
        tokens := (info.blockHash, false) :: hand.tokens
        rooms := hand.rooms + 1 }
      ⟨state.nextShared, info.blockHash, slot⟩ sharing idle.loose
      made) ?_
    intro _ next served
    -- a slot that is not registered goes the way of its last copy
    have released : ∀ raising, wp
        (maybeReleaseShared env ⟨state.nextShared, info.blockHash, slot⟩)
        (fun _ last => Held inv hand last) raising next := by
      intro raising
      have loosened := rules.move served (.loosen rfl)
      have roomless := rules.move loosened (.roomDrop rfl)
      have dropped : Held inv
          { hand with
            fresh := none
            loose := ⟨state.nextShared, info.blockHash, slot⟩ :: hand.loose }
          next :=
        rules.move roomless (.tokenDrop rfl)
      refine wp_post (maybeReleaseShared_held rules dropped rfl ?_ (by simp)) ?_
      · simp [idle.loose]
      · rintro _ last ⟨kept, _⟩
        rw [← idle.fresh] at kept
        exact kept
    simp only [wp_ite]
    refine ⟨fun _ => released _,
      fun unstopped => ⟨fun demanded => ?_, fun _ => released _⟩⟩
    rw [Bool.not_eq_true] at unstopped
    simp only [sharedCache, modifyShared, wp_bind, wp_modify]
    have cached := rules.move served
      (.sharedCache sharing rfl rfl demanded rfl registers unstopped)
    rw [← idle.fresh] at cached
    exact cached
  · simp only [failSharedRead, wp_bind, wp_addEvent rules.quiet]
    have roomless := rules.move done (.roomDrop rfl)
    have ticked := rules.move roomless .tick
    refine wp_post (failAllPreloadWaiters_held rules
      { hand with
        slots := (slot, block) :: hand.slots
        tokens := (info.blockHash, false) :: hand.tokens }
      sharing ticked exc) ?_
    rintro _ next ⟨kept, _⟩
    have released := rules.move kept (.release rfl)
    exact rules.move released (.tokenDrop rfl)

/-! ## Writes -/

theorem onWriteComplete_held (rules : Rules env slack inv)
    {file : FileRef} {slot : Fin slotCount} (fd : Int)
    (finalPath tempPath : String) (result : Int)
    (held : Held inv
      { hand with
        stores := file :: hand.stores
        slots := (slot, some file.hash) :: hand.slots } state) :
    wp (onWriteComplete env file slot fd finalPath tempPath result)
      (fun _ next => Held inv hand next) Crash state := by
  simp only [onWriteComplete, wp_handling]
  have failed : ∀ {next : State slotCount} (exc : Exc),
      Held inv
        { hand with
          stores := file :: hand.stores
          slots := (slot, some file.hash) :: hand.slots } next →
        wp (failWrite env file slot fd tempPath exc)
          (fun _ last => Held inv hand last) Crash next := by
    intro next exc kept
    unfold failWrite
    refine wp_seq (keeps_of_both
      ((rules.silent _).cleanupTemp_keeps fd tempPath next kept)) ?_
    intro _ last cleaned
    simp only [release, wp_bind, wp_modify]
    exact failStoreFile_held rules (rules.move cleaned (.release rfl))
  simp only [publishWrite, wp_bind]
  refine wp_checkTransferred (fun _ => ?_) fun exc => failed exc held
  refine wp_mono
    ((rules.silent _).finishWrite_keeps fd tempPath finalPath state held) ?_
    fun exc _ kept => failed exc kept
  intro _ next finished
  refine wp_post (releaseOrCache_held rules finished rfl) ?_
  rintro _ last ⟨retained, _⟩
  refine wp_post (endStore_held rules retained rfl none) ?_
  intro _ ending ended
  exact releaseStoreInflight_held rules ended rfl true

/-! ## The completion queue -/

/-- Where a full multi-copy preload read finds its first waiter, the copy to
that waiter has a mapping. -/
def WaiterMapped (env : Env slotCount) (state : State slotCount)
    (completion : Nat × Int) : Prop :=
  ∀ info slot fd,
    env.sharePreload = false →
    state.inflight.find? completion.1 =
      some (.reading (.preload info) slot fd) →
    completion.2 = env.ioSize →
    ∀ file later,
      state.preloadWaiters.queue info.blockHash = file :: later →
      ∀ error,
        loadMapping env.layout (slot : Nat) file.chunk ≠ .error error

/-- Where a load has read its own file, the request of the load no longer
demands the block when the read ends. -/
def OwnReadUndemanded (env : Env slotCount) (state : State slotCount)
    (completion : Nat × Int) : Prop :=
  ∀ file slot fd,
    env.sharePreload = true →
    state.inflight.find? completion.1 =
      some (.reading (.load file) slot fd) →
    completion.2 = env.ioSize →
    ∀ mapping,
      loadMapping env.layout (slot : Nat) file.chunk = .ok mapping →
        state.preloadOwned.contains (file.job.reqId, file.hash) = false

/-- What a completed read leaves in hand. -/
def Hand.readDone (hand : Hand slotCount) (slot : Fin slotCount)
    (block : Option BlockHash) : Reader → Hand slotCount
  | .load file =>
      { hand with
        files := file :: hand.files
        slots := (slot, block) :: hand.slots }
  | .preload info =>
      { hand with
        preloads := info :: hand.preloads
        slots := (slot, block) :: hand.slots }

theorem onReadComplete_held (rules : Rules env slack inv)
    (idle : Idle hand) {reader : Reader} {slot : Fin slotCount}
    {block : Option BlockHash} (fd : Int) {result : Int}
    (full : result = env.ioSize → block = some reader.hash)
    (served : slack.loses = true ∨ (env.sharePreload = false →
      result = env.ioSize → ∀ info, reader = .preload info →
      ∀ file later,
        state.preloadWaiters.queue info.blockHash = file :: later →
        ∀ error,
          loadMapping env.layout (slot : Nat) file.chunk ≠ .error error))
    (given : result = env.ioSize → ∀ file, reader = .load file →
      GivenBack env slack state file slot)
    (registers : ∀ info, reader = .preload info →
      slack.registers info.blockHash = true)
    (held : Held inv (hand.readDone slot block reader) state) :
    wp (onReadComplete env reader slot fd result)
      (fun _ next => Held inv hand next) Crash state := by
  unfold onReadComplete
  cases reader with
  | load file =>
      exact onLoadReadComplete_held rules fd full
        (fun size => given size file rfl) held
  | preload info =>
      dsimp only
      split
      next sharing =>
        exact onSharedReadComplete_held rules sharing idle
          (registers info rfl) fd full held
      next owned =>
        rw [Bool.not_eq_true] at owned
        refine onOwnedReadComplete_held rules owned idle.due fd full ?_ held
        exact served.imp_right fun mapped size => mapped owned size info rfl

/-- The read has left the ring; a full one has filled its slot. -/
theorem reapRead_held (rules : Rules env slack inv)
    (reaps : slack.reaps = true) (idle : Idle hand)
    {userData : Nat} {result : Int} {reader : Reader}
    {slot : Fin slotCount} {fd : Int} (held : Held inv hand state)
    (found : state.inflight.find? userData = some (.reading reader slot fd))
    (served : slack.loses = true ∨ WaiterMapped env state (userData, result))
    (returned : slack.retains = true ∨
      OwnReadUndemanded env state (userData, result))
    (registers : ∀ info, reader = .preload info →
      slack.registers info.blockHash = true) :
    wp (do
        dataDone
        onlyIf (result = env.ioSize) (fillSlot slot (some reader.hash))
        onReadComplete env reader slot fd result)
      (fun _ next => Held inv hand next) Crash
      { state with inflight := state.inflight.erase userData } := by
  simp only [dataDone, fillSlot, wp_bind, wp_modify, wp_onlyIf]
  have reaped : Held inv
      { hand.readDone slot none reader with units := hand.units + 1 }
      { state with inflight := state.inflight.erase userData } := by
    cases reader with
    | load file => exact rules.move held (.doneLoad reaps found)
    | preload info => exact rules.move held (.donePreload reaps found)
  have uncounted : Held inv (hand.readDone slot none reader)
      { state with
        inflight := state.inflight.erase userData
        dataInflight := state.dataInflight - 1 } := by
    cases reader with
    | load file => exact rules.move reaped (.dataDone rfl)
    | preload info => exact rules.move reaped (.dataDone rfl)
  have mapped : slack.loses = true ∨ (env.sharePreload = false →
      result = env.ioSize → ∀ info, reader = .preload info →
      ∀ file later,
        state.preloadWaiters.queue info.blockHash = file :: later →
        ∀ error,
          loadMapping env.layout (slot : Nat) file.chunk ≠
            .error error) := by
    refine served.imp_right fun mapped owned size info isPreload => ?_
    subst isPreload
    exact mapped info slot fd owned found size
  have given : result = env.ioSize → ∀ file, reader = .load file →
      GivenBack env slack state file slot := by
    intro size file isLoad
    subst isLoad
    rcases returned with allowed | undemanded
    · exact Or.inl allowed
    cases sharing : env.sharePreload with
    | false => exact Or.inr (Or.inl sharing)
    | true =>
        exact Or.inr (Or.inr (undemanded file slot fd sharing found size))
  constructor
  · intro size
    have filled : Held inv
        (hand.readDone slot (some reader.hash) reader)
        (State.fill { state with
          inflight := state.inflight.erase userData
          dataInflight := state.dataInflight - 1 } slot
          (some reader.hash)) := by
      cases reader with
      | load file => exact rules.move uncounted (.fill _ rfl)
      | preload info => exact rules.move uncounted (.fill _ rfl)
    exact onReadComplete_held rules idle fd (fun _ => rfl) mapped given
      registers filled
  · intro short
    exact onReadComplete_held rules idle fd
      (fun size => absurd size short) mapped given registers uncounted

/-- One completion of the ring. -/
theorem reapCompletion_held (rules : Rules env slack inv)
    (reaps : slack.reaps = true) (idle : Idle hand) (completion : Nat × Int)
    (served : slack.loses = true ∨ WaiterMapped env state completion)
    (returned : slack.retains = true ∨
      OwnReadUndemanded env state completion)
    (registers : ∀ info slot fd,
      state.inflight.find? completion.1 =
          some (.reading (.preload info) slot fd) →
        slack.registers info.blockHash = true)
    (held : Held inv hand state) :
    wp (reapCompletion env completion) (fun _ next => Held inv hand next)
      Crash state := by
  obtain ⟨userData, result⟩ := completion
  unfold reapCompletion
  rw [wp_bind, wp_get]
  cases found : state.inflight.find? userData with
  | none => exact held
  | some op =>
      rw [wp_bind, wp_modify]
      cases op with
      | reading reader slot fd =>
          exact reapRead_held rules reaps idle held found served returned
            (by
              rintro info rfl
              exact registers info slot fd found)
      | opening reader =>
          refine onOpenComplete_held rules idle.promised result ?_
          cases reader with
          | load file => exact rules.move held (.openedLoad reaps found)
          | preload info => exact rules.move held (.openedPreload reaps found)
      | writing file slot fd finalPath tempPath =>
          simp only [dataDone, wp_bind, wp_modify]
          have reaped := rules.move held (.doneWrite reaps found)
          have uncounted := rules.move reaped (.dataDone rfl)
          exact onWriteComplete_held rules fd finalPath tempPath result
            uncounted
      | closing fd => exact rules.move held (.doneClose reaps found)

end PyKvCache.Ledger
