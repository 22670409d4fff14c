import PyKvCache.Library.Effect
import PyKvCache.Staging.StagingCache
import Mathlib.Data.Finset.Basic

/-!
# The manager of the scheduler

`SharedStorageOffloadingManager`: what the scheduler asks before it loads or
stores a block.  Other processes publish files while a call runs, so every
`os.path.exists` has its own instant.
-/

namespace PyKvCache.Scheduler

open PyKvCache.Library PyKvCache.Library.Effect PyKvCache.Staging

/-! ## The world around the manager -/

/-- The keys of vLLM, the file mapper, and the files that are on disk at each
instant.  -/
structure Env (key : Type) where
  groupIdx : key → Int
  blockHash : key → BlockHash
  getFileName : BlockHash → String
  onDisk : Nat → String → Bool

/-- `ValueError`. -/
structure ValueError where
  message : String
  deriving DecidableEq

/-- `LoadDecision`. -/
inductive LoadDecision where
  | ADMIT
  | DEFER
  | DECLINE
  deriving DecidableEq

/-- What the manager asks of its planner. -/
class Planner (planner : Type) where
  decisionFor : planner → String → Option LoadDecision
  reset : planner → planner

/-- The profiling events, with their `args`. -/
inductive ManagerEvent where
  | lookup (hit cached deferred : Bool)
  | prepareStore (checkedKeys keysToStore : Nat)
  deriving DecidableEq

/-- The fields of the manager, the instant of the next `os.path.exists`, and
the events so far. -/
structure Manager (planner : Type) where
  lookupCache : OrderedDict BlockHash Bool
  probedHashes : Finset BlockHash
  lastIoReqId : Option String
  storeInflight : CountTable BlockHash
  planner : Option planner
  clock : Nat
  events : List ManagerEvent

/-- A call to the manager. -/
abbrev Manage (planner value : Type) :=
  Effect ValueError (Manager planner) value

variable {key planner : Type} (env : Env key)

/-- `__init__`. -/
def Manager.init (planner? : Option planner) : Manager planner where
  lookupCache := .empty
  probedHashes := ∅
  lastIoReqId := none
  storeInflight := .empty
  planner := planner?
  clock := 0
  events := []

/-! ## Helpers -/

/-- `_get_block_hash`. -/
def getBlockHash (k : key) : Manage planner BlockHash :=
  if env.groupIdx k ≠ 0 then
    throw ⟨"py-kvcache shared-storage offload currently supports " ++
      "exactly one KV cache group"⟩
  else
    pure (env.blockHash k)

/-- `os.path.exists` of the file of a block. -/
def pathExists (hash : BlockHash) : Manage planner Bool :=
  modifyGet fun manager =>
    (env.onDisk manager.clock (env.getFileName hash),
      { manager with clock := manager.clock + 1 })

/-- `add_event`. -/
def addEvent (event : ManagerEvent) : Manage planner PUnit :=
  modify fun manager =>
    { manager with events := manager.events ++ [event] }

/-- `_maybe_flush_lookup_cache`. -/
def maybeFlushLookupCache (reqId : Option String) :
    Manage planner PUnit :=
  modify fun manager =>
    if reqId ≠ manager.lastIoReqId then
      { manager with
        lookupCache := .empty
        probedHashes := ∅
        lastIoReqId := reqId }
    else
      manager

/-! ## Lookups -/

/-- `_probe`: whether the file exists, and whether it is being written. -/
def probe (hash : BlockHash) : Manage planner (Bool × Bool) := do
  let manager ← get
  if manager.lookupCache.contains hash then
    pure (true, false)
  else do
    let found ← pathExists env hash
    if found then do
      modify fun manager =>
        { manager with
          lookupCache := manager.lookupCache.set hash true
          probedHashes := insert hash manager.probedHashes }
      pure (true, false)
    else do
      let manager ← get
      pure (false, manager.storeInflight.contains hash)

/-- The existence test of `lookup`, through its cache. -/
def cachedExists (hash : BlockHash) : Manage planner Bool := do
  let manager ← get
  if manager.lookupCache.contains hash then
    pure true
  else do
    let found ← pathExists env hash
    onlyIf (found = true) (modify fun manager =>
      { manager with lookupCache := manager.lookupCache.set hash true })
    pure found

/-- The answer of `lookup` for a block that is not deferred. -/
def planned [Planner planner] (manager : Manager planner)
    (reqId : Option String) (cached : Bool) : Option Bool :=
  match manager.planner, reqId with
  | some planner, some reqId =>
      match Planner.decisionFor planner reqId with
      | some .DECLINE => some false
      | some .DEFER => none
      | _ => some cached
  | _, _ => some cached

/-- `lookup`. -/
def lookup [Planner planner] (k : key) (reqId : Option String) :
    Manage planner (Option Bool) := do
  let hash ← getBlockHash env k
  let before ← get
  let fromCache := before.lookupCache.contains hash
  let cached ← cachedExists env hash
  let manager ← get
  let deferred := !cached && manager.storeInflight.contains hash
  let wasProbed := decide (hash ∈ manager.probedHashes)
  modify fun manager =>
    { manager with probedHashes := manager.probedHashes.erase hash }
  onlyIf ((!fromCache || wasProbed) = true)
    (addEvent (.lookup cached fromCache deferred))
  if deferred then
    -- a block that is being written defers whatever the planner decided
    pure none
  else do
    let manager ← get
    pure (planned manager reqId cached)

/-! ## Loads and stores -/

/-- `PrepareStoreOutput`, with the hashes of its `store_spec`. -/
structure PrepareStoreOutput (key : Type) where
  keysToStore : List key
  storeSpec : List BlockHash
  evictedKeys : List key

/-- `[self._get_block_hash(key) for key in keys]`. -/
def getBlockHashes : List key → Manage planner (List BlockHash)
  | [] => pure []
  | k :: keys => do
      let hash ← getBlockHash env k
      let later ← getBlockHashes keys
      pure (hash :: later)

/-- `prepare_load`: the hashes of the spec it returns. -/
def prepareLoad (keys : List key) (reqId : Option String) :
    Manage planner (List BlockHash) := do
  maybeFlushLookupCache reqId
  getBlockHashes env keys

/-- The loop of `prepare_store`: the keys it keeps, with their hashes. -/
def prepareKeys : List key → Manage planner (List (key × BlockHash))
  | [] => pure []
  | k :: keys => do
      let hash ← getBlockHash env k
      let found ← pathExists env hash
      if found then
        prepareKeys keys
      else do
        modify fun manager =>
          { manager with storeInflight := manager.storeInflight.addOne hash }
        let kept ← prepareKeys keys
        pure ((k, hash) :: kept)

/-- `prepare_store`. -/
def prepareStore (keys : List key) (reqId : Option String) :
    Manage planner (PrepareStoreOutput key) := do
  maybeFlushLookupCache reqId
  let kept ← prepareKeys env keys
  addEvent (.prepareStore keys.length kept.length)
  pure ⟨kept.map Prod.fst, kept.map Prod.snd, []⟩

/-- One key of `complete_store`. -/
def completeKey (k : key) : Manage planner PUnit := do
  let hash ← getBlockHash env k
  modify fun manager =>
    { manager with
      storeInflight := manager.storeInflight.takeOne hash
      lookupCache := manager.lookupCache.erase hash
      probedHashes := manager.probedHashes.erase hash }

/-- `complete_store`. -/
def completeStore (keys : List key) : Manage planner PUnit :=
  keys.forM (completeKey env)

/-- `reset_cache`. -/
def resetCache [Planner planner] : Manage planner PUnit :=
  modify fun manager =>
    { manager with
      lookupCache := .empty
      probedHashes := ∅
      lastIoReqId := none
      storeInflight := .empty
      planner := manager.planner.map Planner.reset }

end PyKvCache.Scheduler
