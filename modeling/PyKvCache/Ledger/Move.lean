import PyKvCache.Reactor.Loop

/-!
# The moves of the reactor

Between two of its assignments the reactor holds some slots, files and copies
in local variables only.  A `Hand` lists them, and a `Move` is one atomic
change of a hand and a state: a slot leaves the pool, a file is put on a
waiter queue, a copy is taken off the ready list.  The handlers of the reactor
are sequences of moves, so an invariant of the reactor is proved move by move.
-/

namespace PyKvCache.Ledger

open PyKvCache.Library PyKvCache.Staging PyKvCache.Transfer
open PyKvCache.Reactor

/-- What the running handler holds and no table of the state has.

A slot comes with the block it is known to hold.  `claims` and `pins` are the
counted uses of shared slots and cache entries that no copy has yet, `loose`
the shared slots the handler still has to look after, `fresh` the one it has
made itself.  `todo` are the copies and `known` the jobs of the list a loop is
running over.  `preloads` are still
counted in `_preload_inflight_hashes`.  A token is the right to put a demand
for its hash into one of the preload tables; with `true` no pending demand for
the hash has been cancelled.  `due` are the hashes of ended preloads whose
waiters are still to be served.  `files` belong to loads and `stores` to
stores, `served` are the loads whose copy is queued and whose demand is still
to be given back, and `releases` are the ended store files still counted in
`_store_inflight`.  `units`, `opens`, `primed` and `rooms` are the data
operations, opens, opened descriptors and preload slots the handler has ended
and not yet passed on. -/
structure Hand (slotCount : Nat) where
  slots : List (Fin slotCount × Option BlockHash)
  files : List FileRef
  stores : List FileRef
  copies : List (LoadCopy slotCount)
  claims : List (SharedSlot slotCount)
  loose : List (SharedSlot slotCount)
  fresh : Option (SharedSlot slotCount)
  pins : List (CacheSlot (Fin slotCount))
  preloads : List PreloadInfo
  tokens : List (BlockHash × Bool)
  promised : List BlockHash
  due : List BlockHash
  releases : List FileRef
  served : List FileRef
  units : Nat
  opens : Nat
  primed : Nat
  rooms : Nat
  job : Option Job
  arrived : List BlockHash
  todo : List (CopyOp slotCount)
  known : List Job

/-- Between two steps of the thread nothing is in hand. -/
def Hand.empty {slotCount : Nat} : Hand slotCount where
  slots := []
  files := []
  stores := []
  copies := []
  claims := []
  loose := []
  fresh := none
  pins := []
  preloads := []
  tokens := []
  promised := []
  due := []
  releases := []
  served := []
  units := 0
  opens := 0
  primed := 0
  rooms := 0
  job := none
  arrived := []
  todo := []
  known := []

variable {slotCount : Nat}

/-- Which slips a run may make, and whether it may take work back from the
device and demands from a preload request.

With `loses` a file may be dropped, with `leaks` a store job may leave while
it still has files to schedule, and with `strands` a file may wait for a read
that could not be queued.  With `overdraws` a load may open a preload although
no preload slot is left, with `forgets` the oldest demand may be dropped
uncounted, and with `retains` a load may be served and keep its demand.
With `pulls` the stop marker may take slots from under copies that still read
them.  Without `reaps` no operation and no copy ends, without `demands` no
demand comes in, and only for the hashes in `registers` a shared slot may be
registered. -/
structure Slack where
  loses : Bool
  leaks : Bool
  strands : Bool
  overdraws : Bool
  forgets : Bool
  retains : Bool
  pulls : Bool
  reaps : Bool
  demands : Bool
  registers : BlockHash → Bool

/-- A run that may do all of it. -/
def Slack.any : Slack :=
  ⟨true, true, true, true, true, true, true, true, true, fun _ => true⟩

/-- One more file may wait for a preload of its hash. -/
def WaitRoom (env : Env slotCount) (state : State slotCount)
    (hash : BlockHash) : Prop :=
  if env.sharePreload then
    0 < state.preloadInflightHashes.count hash
  else
    (state.preloadWaiters.queue hash).length <
      state.preloadInflightHashes.count hash

/-- A waiter of an ended preload has been served.  A shared read serves all of
its waiters, any other read one. -/
def dueAfter (env : Env slotCount) (due : List BlockHash)
    (hash : BlockHash) : List BlockHash :=
  if env.sharePreload then due else due.erase hash

/-- The state after `next_file_index` and `inflight_files` of a job went up. -/
def started (state : State slotCount) (job : Job) : State slotCount :=
  state.updateJob job fun fields =>
    { fields with
      nextFileIndex := fields.nextFileIndex + 1
      inflightFiles := fields.inflightFiles + 1 }

/-- The fields of a job after one `_file_terminal` that does not raise. -/
def endedJob (job : Job) (error : Option Exc) (fields : JobState) :
    JobState :=
  let counted := fields.counted error.isNone
  if counted.futureSet then
    counted
  else
    match error with
    | some exc =>
        { counted with
          failed := some exc
          futureSet := true
          future := some (.exception exc) }
    | none =>
        if counted.doneFiles = job.totalFiles then
          { counted with
            futureSet := true
            future := some (.result job.transferSize) }
        else
          counted

/-- The state after one `_file_terminal` that does not raise. -/
def ended (state : State slotCount) (file : FileRef) (error : Option Exc) :
    State slotCount :=
  (state.recordTerminal file error).updateJob file.job
    (endedJob file.job error)

/-- The store jobs `_finish_jobs` is about to drop have scheduled all their
files. -/
def DropsScheduled (state : State slotCount) : Prop :=
  ∀ job ∈ state.active, job.isStore = true →
    (state.jobs job).finished job = true →
      job.totalFiles ≤ (state.jobs job).nextFileIndex

/-- One atomic change of what the handler holds and of the state. -/
inductive Move (env : Env slotCount) (slack : Slack)
    (hand : Hand slotCount) (state : State slotCount) :
    Hand slotCount → State slotCount → Prop
  /- Bookkeeping nothing else depends on. -/
  | tick : Move env slack hand state hand state.tick
  | handOver (entry : Handover Int) :
      Move env slack hand state hand (state.handOver entry)
  | userData : Move env slack hand state hand
      { state with nextUserData := state.nextUserData + 1 }
  /- Slots of the pool, the staging cache and the preload cache. -/
  | reserve {slot free} (available : state.free = slot :: free) :
      Move env slack hand state
        { hand with slots := (slot, none) :: hand.slots }
        { state with free := free }
  | release {slot block slots}
      (held : hand.slots = (slot, block) :: slots) :
      Move env slack hand state { hand with slots := slots }
        { state with free := slot :: state.free }
  | shuffle {slots} (perm : hand.slots.Perm slots) :
      Move env slack hand state { hand with slots := slots } state
  | fill {slot block slots} (hash : BlockHash)
      (held : hand.slots = (slot, block) :: slots) :
      Move env slack hand state
        { hand with slots := (slot, some hash) :: slots }
        (state.fill slot (some hash))
  | cacheTouch {cache} (hash : BlockHash)
      (cached : state.stagingCache = some cache) :
      Move env slack hand state hand
        { state with stagingCache := some (cache.touched hash) }
  | cacheInsert {cache slot hash slots}
      (cached : state.stagingCache = some cache)
      (absent : cache.slots.find? hash = none)
      (held : hand.slots = (slot, some hash) :: slots) :
      Move env slack hand state { hand with slots := slots }
        { state with stagingCache := some (cache.insert hash slot) }
  | cacheEvict {cache slot smaller}
      (cached : state.stagingCache = some cache)
      (evicted : cache.evictOne = some (slot, smaller)) :
      Move env slack hand state
        { hand with slots := (slot, none) :: hand.slots }
        { state with stagingCache := some smaller }
  | cachePin {cache slot} (cached : state.stagingCache = some cache)
      (found : cache.slots.find? slot.blockHash = some slot) :
      Move env slack hand state
        { hand with pins := slot :: hand.pins }
        { state with stagingCache := some (cache.pin slot) }
  | cacheUnpin {cache slot pins}
      (cached : state.stagingCache = some cache)
      (held : hand.pins = slot :: pins) :
      Move env slack hand state { hand with pins := pins }
        { state with stagingCache := some (cache.unpin slot) }
  | cacheUnpinNone {slot pins} (uncached : state.stagingCache = none)
      (held : hand.pins = slot :: pins) :
      Move env slack hand state { hand with pins := pins }
        { state with stagingCache := none }
  | preloadPush {slot info slots due rooms}
      (held : hand.slots = (slot, some info.blockHash) :: slots)
      (ended : hand.due = info.blockHash :: due)
      (unawaited : state.preloadWaiters.queue info.blockHash = [])
      (room : hand.rooms = rooms + 1) (owned : env.sharePreload = false) :
      Move env slack hand state
        { hand with slots := slots, due := due, rooms := rooms }
        { state with
          preloadSlots :=
            state.preloadSlots.pushBack info.blockHash (slot, info)
          preloadCachedTotal := state.preloadCachedTotal + 1 }
  | preloadPop {hash slot info later}
      (queued : state.preloadSlots.queue hash = (slot, info) :: later) :
      Move env slack hand state
        { hand with slots := (slot, some hash) :: hand.slots }
        { state with
          preloadSlots := state.preloadSlots.keep hash later
          preloadCachedTotal := state.preloadCachedTotal - 1 }
  /- Shared preload slots. -/
  | sharedNew {slot hash slots}
      (held : hand.slots = (slot, some hash) :: slots)
      (none : hand.fresh = none) :
      Move env slack hand state
        { hand with
          slots := slots
          fresh := some ⟨state.nextShared, hash, slot⟩ }
        { state with
          nextShared := state.nextShared + 1
          shared := Function.update state.shared
            ⟨state.nextShared, hash, slot⟩ ⟨0, false⟩ }
  | sharedCache {slot clean tokens rooms}
      (sharing : env.sharePreload = true)
      (held : hand.fresh = some slot)
      (allowed : hand.tokens = (slot.blockHash, clean) :: tokens)
      (demanded : 0 < state.preloadRefcount.count slot.blockHash)
      (room : hand.rooms = rooms + 1)
      (registers : slack.registers slot.blockHash = true)
      (running : state.stop = false) :
      Move env slack hand state
        { hand with fresh := none, tokens := tokens, rooms := rooms }
        { state.updateShared slot fun fields =>
            { fields with cached := true } with
          sharedCached := state.sharedCached.set slot.blockHash slot
          preloadCachedTotal := state.preloadCachedTotal + 1 }
  | sharedUncache {slot}
      (cached : state.sharedCached.find? slot.blockHash = some slot) :
      Move env slack hand state
        { hand with loose := slot :: hand.loose }
        ({ state with
          sharedCached := state.sharedCached.erase slot.blockHash
          preloadCachedTotal := state.preloadCachedTotal - 1
          : State slotCount }.updateShared slot fun fields =>
            { fields with cached := false })
  | claim {slot}
      (alive : hand.fresh = some slot ∨
        state.sharedCached.find? slot.blockHash = some slot) :
      Move env slack hand state
        { hand with claims := slot :: hand.claims }
        (state.updateShared slot fun fields =>
          { fields with copiesInflight := fields.copiesInflight + 1 })
  | unclaim {slot claims} (held : hand.claims = slot :: claims) :
      Move env slack hand state
        { hand with claims := claims, loose := slot :: hand.loose }
        (state.updateShared slot fun fields =>
          { fields with copiesInflight := fields.copiesInflight - 1 })
  | looseDrop {slot loose} (held : hand.loose = slot :: loose)
      (alive : (state.shared slot).cached = true ∨
        0 < (state.shared slot).copiesInflight ∨ hand.fresh = some slot) :
      Move env slack hand state { hand with loose := loose } state
  | looseTake {slot loose} (held : hand.loose = slot :: loose)
      (uncached : (state.shared slot).cached = false)
      (unused : (state.shared slot).copiesInflight ≤ 0)
      (last : slot ∉ loose) (made : hand.fresh ≠ some slot) :
      Move env slack hand state
        { hand with
          loose := loose
          slots := (slot.slotIndex, some slot.blockHash) :: hand.slots }
        state
  | loosen {slot} (held : hand.fresh = some slot) :
      Move env slack hand state
        { hand with fresh := none, loose := slot :: hand.loose } state
  /- Load copies. -/
  | queueOwn {file slot slots files} (mapping : List (Int × Int))
      (heldFile : hand.files = file :: files)
      (heldSlot : hand.slots = (slot, some file.hash) :: slots) :
      Move env slack hand state
        { hand with
          files := files
          slots := slots
          served := file :: hand.served }
        { state with
          copyReady := state.copyReady ++ [⟨⟨file, .own slot⟩, mapping⟩] }
  | queueShared {file slot files claims} (mapping : List (Int × Int))
      (heldFile : hand.files = file :: files)
      (heldClaim : hand.claims = slot :: claims)
      (same : file.hash = slot.blockHash) :
      Move env slack hand state
        { hand with
          files := files
          claims := claims
          served := file :: hand.served }
        { state with
          copyReady :=
            state.copyReady ++ [⟨⟨file, .shared slot⟩, mapping⟩] }
  | queueCache {file slot files pins} (mapping : List (Int × Int))
      (heldFile : hand.files = file :: files)
      (heldPin : hand.pins = slot :: pins)
      (same : file.hash = slot.blockHash) :
      Move env slack hand state
        { hand with
          files := files
          pins := pins
          served := file :: hand.served }
        { state with
          copyReady :=
            state.copyReady ++ [⟨⟨file, .cache slot⟩, mapping⟩] }
  | serve {file served} (held : hand.served = file :: served)
      (given : slack.retains = true ∨ env.sharePreload = false ∨
        state.preloadOwned.contains (file.job.reqId, file.hash) = false) :
      Move env slack hand state { hand with served := served } state
  | takeReady (reaps : slack.reaps = true) (empty : hand.copies = []) :
      Move env slack hand state
        { hand with copies := state.copyReady.map ReadyCopy.copy }
        { state with copyReady := [] }
  | launchLoads {members} (held : hand.copies = members) :
      Move env slack hand state { hand with copies := [] }
        { state with
          pendingCopies := state.pendingCopies ++ [.load members] }
  | takeLoads {members todo} (reaps : slack.reaps = true)
      (empty : hand.copies = [])
      (first : hand.todo = .load members :: todo) :
      Move env slack hand state
        { hand with copies := members, todo := todo }
        { state with
          pendingCopies := state.pendingCopies.erase (.load members) }
  | openOwn {file slot copies}
      (held : hand.copies = ⟨file, .own slot⟩ :: copies) :
      Move env slack hand state
        { hand with
          copies := copies
          files := file :: hand.files
          slots := (slot, some file.hash) :: hand.slots }
        state
  | openShared {file slot copies}
      (held : hand.copies = ⟨file, .shared slot⟩ :: copies) :
      Move env slack hand state
        { hand with
          copies := copies
          files := file :: hand.files
          claims := slot :: hand.claims }
        state
  | openCache {file slot copies}
      (held : hand.copies = ⟨file, .cache slot⟩ :: copies) :
      Move env slack hand state
        { hand with
          copies := copies
          files := file :: hand.files
          pins := slot :: hand.pins }
        state
  /- Files of a job. -/
  | startLoad {file : FileRef} (loading : file.job.isStore = false)
      (active : file.job ∈ hand.known)
      (unfailed : (state.jobs file.job).failed = none)
      (next : (state.jobs file.job).nextFileIndex = file.index) :
      Move env slack hand state
        { hand with files := file :: hand.files }
        (started state file.job)
  | startStore {file : FileRef} (storing : file.job.isStore = true)
      (active : file.job ∈ hand.known)
      (unfailed : (state.jobs file.job).failed = none)
      (next : (state.jobs file.job).nextFileIndex = file.index) :
      Move env slack hand state
        { hand with stores := file :: hand.stores }
        (started state file.job)
  | endLoad {file files} (error : Option Exc)
      (held : hand.files = file :: files) :
      Move env slack hand state { hand with files := files }
        (ended state file error)
  | endStore {file stores} (error : Option Exc)
      (held : hand.stores = file :: stores) :
      Move env slack hand state
        { hand with stores := stores, releases := file :: hand.releases }
        (ended state file error)
  | lose {file files} (allowed : slack.loses = true)
      (held : hand.files = file :: files) :
      Move env slack hand state { hand with files := files } state
  | wait {file files} (held : hand.files = file :: files)
      (room : (env.sharePreload = true ∧ slack.strands = true) ∨
        WaitRoom env state file.hash) :
      Move env slack hand state { hand with files := files }
        { state with
          preloadWaiters := state.preloadWaiters.pushBack file.hash file }
  | wake {hash file later}
      (ended : hash ∈ hand.due ∨
        slack.loses = true ∧ env.sharePreload = false)
      (queued : state.preloadWaiters.queue hash = file :: later) :
      Move env slack hand state
        { hand with
          files := file :: hand.files
          due := dueAfter env hand.due hash }
        { state with
          preloadWaiters := state.preloadWaiters.keep hash later }
  | wakeAll (stopped : state.stop = true) (empty : hand.files = []) :
      Move env slack hand state
        { hand with files := state.preloadWaiters.pairs.map Prod.snd }
        { state with preloadWaiters := .empty }
  /- Ring operations put into the ring. -/
  | openLoad {file files userData}
      (held : hand.files = file :: files)
      (new : state.inflight.find? userData = none)
      (numbered : userData ≤ state.nextUserData)
      (opens : state.canOpen env = true) (unprimed : hand.primed = 0) :
      Move env slack hand state { hand with files := files }
        { state with
          openInflight := state.openInflight + 1
          inflight :=
            state.inflight.set userData (.opening (.load file)) }
  | openPreload {info clean tokens userData}
      (allowed : hand.tokens = (info.blockHash, clean) :: tokens)
      (served : clean = true ∨ info.blockHash ∈ hand.promised)
      (room : (env.sharePreload = true ∧ slack.overdraws = true) ∨
        state.preloadSlotsAvailable env = true)
      (ended : hand.due = [])
      (new : state.inflight.find? userData = none)
      (numbered : userData ≤ state.nextUserData)
      (opens : state.canOpen env = true) (unprimed : hand.primed = 0)
      (noRooms : hand.rooms = 0) :
      Move env slack hand state { hand with tokens := tokens }
        { state with
          openInflight := state.openInflight + 1
          preloadInflightHashes :=
            state.preloadInflightHashes.addOne info.blockHash
          preloadInflightTotal := state.preloadInflightTotal + 1
          inflight :=
            state.inflight.set userData (.opening (.preload info)) }
  | readLoad {file slot block files slots userData} (fd : Int)
      (heldFile : hand.files = file :: files)
      (heldSlot : hand.slots = (slot, block) :: slots)
      (new : state.inflight.find? userData = none)
      (numbered : userData ≤ state.nextUserData)
      (unit : state.dataInflight < env.iodepth) :
      Move env slack hand state
        { hand with files := files, slots := slots }
        { state.fill slot none with
          dataInflight := state.dataInflight + 1
          inflight :=
            state.inflight.set userData (.reading (.load file) slot fd) }
  | readPreload {info slot block preloads slots userData} (fd : Int)
      (heldInfo : hand.preloads = info :: preloads)
      (heldSlot : hand.slots = (slot, block) :: slots)
      (new : state.inflight.find? userData = none)
      (numbered : userData ≤ state.nextUserData)
      (unit : state.dataInflight < env.iodepth) :
      Move env slack hand state
        { hand with preloads := preloads, slots := slots }
        { state.fill slot none with
          dataInflight := state.dataInflight + 1
          inflight :=
            state.inflight.set userData
              (.reading (.preload info) slot fd) }
  | write {file slot stores slots units userData} (fd : Int)
      (finalPath tempPath : String)
      (heldFile : hand.stores = file :: stores)
      (heldSlot : hand.slots = (slot, some file.hash) :: slots)
      (heldUnit : hand.units = units + 1)
      (new : state.inflight.find? userData = none)
      (numbered : userData ≤ state.nextUserData) :
      Move env slack hand state
        { hand with stores := stores, slots := slots, units := units }
        { state with
          inflight :=
            state.inflight.set userData
              (.writing file slot fd finalPath tempPath) }
  | close {userData} (fd : Int)
      (new : state.inflight.find? userData = none)
      (numbered : userData ≤ state.nextUserData) :
      Move env slack hand state hand
        { state with
          inflight := state.inflight.set userData (.closing fd) }
  /- Ring operations reaped. -/
  | openedLoad {userData file} (reaps : slack.reaps = true)
      (reaped : state.inflight.find? userData =
        some (.opening (.load file))) :
      Move env slack hand state
        { hand with files := file :: hand.files, opens := hand.opens + 1 }
        { state with inflight := state.inflight.erase userData }
  | openedPreload {userData info} (reaps : slack.reaps = true)
      (reaped : state.inflight.find? userData =
        some (.opening (.preload info))) :
      Move env slack hand state
        { hand with
          preloads := info :: hand.preloads
          opens := hand.opens + 1 }
        { state with inflight := state.inflight.erase userData }
  | doneLoad {userData file slot fd} (reaps : slack.reaps = true)
      (reaped : state.inflight.find? userData =
        some (.reading (.load file) slot fd)) :
      Move env slack hand state
        { hand with
          files := file :: hand.files
          slots := (slot, none) :: hand.slots
          units := hand.units + 1 }
        { state with inflight := state.inflight.erase userData }
  | donePreload {userData info slot fd} (reaps : slack.reaps = true)
      (reaped : state.inflight.find? userData =
        some (.reading (.preload info) slot fd)) :
      Move env slack hand state
        { hand with
          preloads := info :: hand.preloads
          slots := (slot, none) :: hand.slots
          units := hand.units + 1 }
        { state with inflight := state.inflight.erase userData }
  | doneWrite {userData file slot fd finalPath tempPath}
      (reaps : slack.reaps = true)
      (reaped : state.inflight.find? userData =
        some (.writing file slot fd finalPath tempPath)) :
      Move env slack hand state
        { hand with
          stores := file :: hand.stores
          slots := (slot, some file.hash) :: hand.slots
          units := hand.units + 1 }
        { state with inflight := state.inflight.erase userData }
  | doneClose {userData fd} (reaps : slack.reaps = true)
      (reaped : state.inflight.find? userData = some (.closing fd)) :
      Move env slack hand state hand
        { state with inflight := state.inflight.erase userData }
  | dataDone {units} (held : hand.units = units + 1) :
      Move env slack hand state { hand with units := units }
        { state with dataInflight := state.dataInflight - 1 }
  | openDone {opens} (held : hand.opens = opens + 1) :
      Move env slack hand state
        { hand with opens := opens, primed := hand.primed + 1 }
        { state with openInflight := state.openInflight - 1 }
  | openFailed {primed} (held : hand.primed = primed + 1) :
      Move env slack hand state { hand with primed := primed } state
  /- Ready descriptors. -/
  | readyLoad {file files primed} (fd : Int)
      (held : hand.files = file :: files)
      (opened : hand.primed = primed + 1) :
      Move env slack hand state
        { hand with files := files, primed := primed }
        { state with readyFdsLoad := state.readyFdsLoad ++ [(fd, file)] }
  | readyPreload {info preloads primed} (fd : Int)
      (held : hand.preloads = info :: preloads)
      (opened : hand.primed = primed + 1) :
      Move env slack hand state
        { hand with preloads := preloads, primed := primed }
        { state with
          readyFdsPreload := state.readyFdsPreload ++ [(fd, info)] }
  | takeLoadFd {fd file later}
      (first : state.readyFdsLoad = (fd, file) :: later) :
      Move env slack hand state
        { hand with files := file :: hand.files }
        { state with readyFdsLoad := later }
  | takePreloadFd {fd info later}
      (first : state.readyFdsPreload = (fd, info) :: later) :
      Move env slack hand state
        { hand with preloads := info :: hand.preloads }
        { state with readyFdsPreload := later }
  /- Preload demand. -/
  | demandAdd {reqId hash} (sharing : env.sharePreload = true)
      (allowed : slack.demands = true)
      (new : state.preloadOwned.contains (reqId, hash) = false)
      (room : slack.forgets = true ∨
        state.preloadOwned.entries.length < Env.maxPreloadOwned) :
      Move env slack hand state hand
        { state with
          preloadOwned :=
            (state.preloadOwned.set (reqId, hash) ()).keepNewest
              Env.maxPreloadOwned
          preloadRefcount := state.preloadRefcount.addOne hash }
  | demandDrop {reqId hash}
      (owned : state.preloadOwned.contains (reqId, hash) = true)
      (uncached : 1 < state.preloadRefcount.count hash ∨
        state.sharedCached.find? hash = none) :
      Move env slack hand state hand
        { state with
          preloadOwned := state.preloadOwned.erase (reqId, hash)
          preloadRefcount := state.preloadRefcount.takeOne hash }
  | demandPurge {hash}
      (uncached : state.sharedCached.find? hash = none ∨
        state.stop = false ∧
          ∃ clean tokens, hand.tokens = (hash, clean) :: tokens) :
      Move env slack hand state hand
        { state with
          preloadOwned := withoutHash state.preloadOwned hash
          preloadRefcount := state.preloadRefcount.erase hash }
  | ownCopies (multi : env.sharePreload = false)
      (owned : OrderedDict (String × BlockHash) Unit) :
      Move env slack hand state hand { state with preloadOwned := owned }
  | preloadDone {info preloads} (clean : Bool)
      (held : hand.preloads = info :: preloads)
      (unawaited : clean = true →
        state.preloadWaiters.queue info.blockHash = [] ∧
          hand.promised = []) :
      Move env slack hand state
        { hand with
          preloads := preloads
          tokens := (info.blockHash, clean) :: hand.tokens
          due := info.blockHash :: hand.due
          rooms := hand.rooms + 1 }
        { state with
          preloadInflightHashes :=
            state.preloadInflightHashes.takeOne info.blockHash
          preloadInflightTotal :=
            if state.preloadInflightHashes.count info.blockHash = 0 then
              state.preloadInflightTotal
            else
              state.preloadInflightTotal - 1 }
  | dueDone {hash due} (held : hand.due = hash :: due)
      (unawaited : state.preloadWaiters.queue hash = []) :
      Move env slack hand state { hand with due := due } state
  | roomDrop {rooms} (held : hand.rooms = rooms + 1) :
      Move env slack hand state { hand with rooms := rooms } state
  | pendingPush {info clean tokens}
      (allowed : hand.tokens = (info.blockHash, clean) :: tokens) :
      Move env slack hand state { hand with tokens := tokens }
        { state with
          preloadPending := state.preloadPending ++ [info]
          preloadPendingCount :=
            state.preloadPendingCount.addOne info.blockHash }
  | pendingDrop {info later}
      (first : state.preloadPending = info :: later)
      (cancelled :
        0 < state.preloadPendingCancel.count info.blockHash) :
      Move env slack hand state hand
        { state with
          preloadPending := later
          preloadPendingCount :=
            state.preloadPendingCount.takeOne info.blockHash
          preloadPendingCancel :=
            state.preloadPendingCancel.takeOne info.blockHash }
  | pendingTake {info later}
      (first : state.preloadPending = info :: later)
      (live : state.preloadPendingCancel.count info.blockHash = 0) :
      Move env slack hand state
        { hand with tokens := (info.blockHash, true) :: hand.tokens }
        { state with
          preloadPending := later
          preloadPendingCount :=
            state.preloadPendingCount.takeOne info.blockHash }
  | pendingCancel {hash}
      (live : state.preloadPendingCancel.count hash <
        state.preloadPendingCount.count hash) :
      Move env slack hand state
        { hand with tokens := (hash, false) :: hand.tokens }
        { state with
          preloadPendingCancel := state.preloadPendingCancel.addOne hash }
  | tokenDrop {token tokens} (held : hand.tokens = token :: tokens) :
      Move env slack hand state { hand with tokens := tokens } state
  | tokenOwned (hash : BlockHash) (owned : env.sharePreload = false) :
      Move env slack hand state
        { hand with tokens := (hash, true) :: hand.tokens } state
  | tokenNew {hash} (none : state.hasAnySharedState hash = false)
      (noTokens : hand.tokens = []) :
      Move env slack hand state
        { hand with tokens := (hash, true) :: hand.tokens } state
  | tokenPromoted {hash} (sharing : env.sharePreload = true)
      (uncached : state.sharedCached.find? hash = none)
      (idle : state.preloadInflightHashes.count hash = 0)
      (pending : 0 < state.preloadPendingCount.count hash)
      (cancelled : state.preloadPendingCount.count hash ≤
        state.preloadPendingCancel.count hash)
      (noTokens : hand.tokens = []) :
      Move env slack hand state
        { hand with tokens := (hash, false) :: hand.tokens } state
  | promise (hash : BlockHash) :
      Move env slack hand state
        { hand with promised := hash :: hand.promised } state
  | fulfil {hash promised} (held : hand.promised = hash :: promised)
      (waiting : state.preloadWaiters.queue hash ≠ []) :
      Move env slack hand state { hand with promised := promised } state
  | park {info tokens}
      (allowed : hand.tokens = (info.blockHash, true) :: tokens)
      (storing : state.storeInflight.contains info.blockHash = true) :
      Move env slack hand state { hand with tokens := tokens }
        { state with
          preloadBlockedOnWrite :=
            state.preloadBlockedOnWrite.pushBack info.blockHash info }
  | miss {info tokens}
      (allowed : hand.tokens = (info.blockHash, true) :: tokens) :
      Move env slack hand state { hand with tokens := tokens }
        { state with
          knownMissing :=
            ((state.knownMissing.pushBack info.blockHash info).moveToEnd
              info.blockHash).keepNewest Env.maxKnownMissing }
  | missJoin (info) (owned : env.sharePreload = false) :
      Move env slack hand state hand
        { state with
          knownMissing :=
            (state.knownMissing.pushBack info.blockHash info).moveToEnd
              info.blockHash }
  | forget (hash : BlockHash) :
      Move env slack hand state hand
        { state with knownMissing := state.knownMissing.erase hash }
  /- Store files. -/
  | launchStore {file slot block stores slots}
      (heldFile : hand.stores = file :: stores)
      (heldSlot : hand.slots = (slot, block) :: slots)
      (unit : state.dataInflight < env.iodepth) :
      Move env slack hand state
        { hand with stores := stores, slots := slots }
        { state.fill slot none with
          dataInflight := state.dataInflight + 1
          pendingCopies := state.pendingCopies ++ [.store file slot] }
  | takeStore {file slot todo} (reaps : slack.reaps = true)
      (first : hand.todo = .store file slot :: todo) :
      Move env slack hand state
        { hand with
          todo := todo
          stores := file :: hand.stores
          slots := (slot, none) :: hand.slots
          units := hand.units + 1 }
        { state with
          pendingCopies := state.pendingCopies.erase (.store file slot) }
  | storeDone {file releases}
      (held : hand.releases = file :: releases)
      (more : 1 < state.storeInflight.count file.hash) :
      Move env slack hand state { hand with releases := releases }
        { state with
          storeInflight := state.storeInflight.takeOne file.hash }
  | storeEnded {file releases}
      (held : hand.releases = file :: releases)
      (last : state.storeInflight.count file.hash ≤ 1) :
      Move env slack hand state
        { hand with
          releases := releases
          tokens :=
            if state.preloadBlockedOnWrite.queue file.hash = [] then
              hand.tokens
            else
              (file.hash, true) :: hand.tokens }
        { state with
          storeInflight := state.storeInflight.takeOne file.hash
          preloadBlockedOnWrite :=
            state.preloadBlockedOnWrite.erase file.hash }
  /- Items taken in, and jobs leaving. -/
  | takeJob {job later} (next : state.incoming = .job job :: later)
      (free : hand.job = none) :
      Move env slack hand state { hand with job := some job }
        { state with incoming := later }
  | takeOther {item later} (next : state.incoming = item :: later)
      (other : ∀ job, item ≠ .job job) :
      Move env slack hand state hand { state with incoming := later }
  | arrive {job hash} (held : hand.job = some job)
      (storing : job.isStore = true) :
      Move env slack hand state
        { hand with arrived := hand.arrived ++ [hash] }
        { state with
          knownMissing := state.knownMissing.erase hash
          preloadBlockedOnWrite :=
            state.preloadBlockedOnWrite.extend hash
              (state.rearmed env job.reqId hash)
          storeInflight := state.storeInflight.addOne hash }
  | activateStore {job} (held : hand.job = some job)
      (storing : job.isStore = true)
      (complete : hand.arrived = job.blockHashes) :
      Move env slack hand state { hand with job := none, arrived := [] }
        { state with active := state.active ++ [job] }
  | activateLoad {job} (held : hand.job = some job)
      (loading : job.isStore = false) :
      Move env slack hand state { hand with job := none }
        { state with active := state.active ++ [job] }
  | decline {job} (held : hand.job = some job)
      (loading : job.isStore = false) (exc : Exc) :
      Move env slack hand state { hand with job := none }
        (state.updateJob job fun fields =>
          { fields with
            futureSet := true
            future := some (.exception exc) })
  | finish (idle : hand.known = [])
      (scheduled : slack.leaks = true ∨ DropsScheduled state) :
      Move env slack hand state hand
        { state with
          active := state.active.filter fun job =>
            !(state.jobs job).finished job }
  /- The lists of the loops. -/
  | watchCopies (idle : hand.todo = []) :
      Move env slack hand state
        { hand with todo := state.pendingCopies } state
  | passCopy {copy todo} (first : hand.todo = copy :: todo) :
      Move env slack hand state { hand with todo := todo } state
  | watchJobs :
      Move env slack hand state { hand with known := state.active } state
  | unwatchJobs :
      Move env slack hand state { hand with known := [] } state
  /- The stop marker. -/
  | stop :
      Move env slack hand state hand { state with stop := true }
  | dropPreloads (stopped : state.stop = true) :
      Move env slack hand state
        { hand with
          slots :=
            state.preloadSlots.pairs.map
              (fun entry => (entry.2.1, some entry.1)) ++ hand.slots }
        { state with preloadSlots := .empty }
  | dropShared (stopped : state.stop = true) (looked : hand.loose = [])
      (none : hand.fresh = none)
      (unread : slack.pulls = true ∨
        ∀ slot ∈ state.sharedCached.values,
          (state.shared slot).copiesInflight ≤ 0) :
      Move env slack hand state
        { hand with
          slots :=
            state.sharedCached.values.map
              (fun slot => (slot.slotIndex, some slot.blockHash)) ++
                hand.slots }
        { state with sharedCached := .empty }
  | dropCache {cache} (stopped : state.stop = true)
      (cached : state.stagingCache = some cache)
      (unread : slack.pulls = true ∨
        ∀ slot ∈ cache.slots.values, cache.copiesInflight slot ≤ 0) :
      Move env slack hand state
        { hand with
          slots :=
            cache.slots.values.map
              (fun slot => (slot.slotIndex, some slot.blockHash)) ++
                hand.slots }
        { state with stagingCache := some cache.drain.2 }
  | clear (stopped : state.stop = true)
      (emptied : state.sharedCached = .empty) :
      Move env slack hand state hand state.cleared
  /- Other threads. -/
  | submit (job : Job) (new : job ∉ state.accepted) :
      Move env slack hand state hand (state.submitJob job)
  | enqueue (request : PreloadRequest) :
      Move env slack hand state hand (state.enqueuePreload request)
  | shutdown :
      Move env slack hand state hand state.shutdown

end PyKvCache.Ledger
