/-
# The registry database

`RegistryDB::processLogEntries` (`registry/RegistryDB.cpp`) applies a chunk of log entries.  The
handlers put their writes into one batch that is written at the end of the chunk.  Locations,
registry replicas, shards and CDC replicas are read from the database, so that a handler does not
see what the batch holds for them.  Block services are looked up in `updatedBlocks` first, which
has every block service that the batch writes.

A handler is given the database and the view that the batch makes of it; it reads the replicas and
locations in the first and the block services in the second, and answers with the new view.

`shardToLastHeartBeat`, `cdcToLastHeartBeat` and `registryToLastHeartBeat` fill the first bytes of
an array of eight that is not initialised, and the whole array goes into the key.  What the rest
holds is an input of the model.
-/
import TernFS.Core.Msgs
import TernFS.Lib.Run
import Mathlib.Data.Finset.Sort
import Mathlib.Data.Prod.Lex

namespace TernFS.Registry

/-! ## Records -/

/-- `ServiceType`, of the services that have replicas. -/
inductive ServiceType
  | registry
  | shard
  | cdc
deriving DecidableEq

structure IpPort where
  ip : Bytes
  port : ℕ
deriving DecidableEq

structure AddrsInfo where
  addr1 : IpPort
  addr2 : IpPort
deriving DecidableEq

/-- `AddrsInfo::clear`. -/
def AddrsInfo.empty : AddrsInfo := ⟨⟨[0, 0, 0, 0], 0⟩, ⟨[0, 0, 0, 0], 0⟩⟩

/-- `RegistryReplicaInfoKey`, `ShardInfoKey` and `CdcInfoKey`. Only the keys of shards have a
shard. -/
structure ReplicaKey where
  service : ServiceType
  location : ℕ
  shard : ℕ
  replica : ℕ
deriving DecidableEq

/-- `RegistryReplicaInfoBody`, `ShardInfoValue` and `CdcInfoValue`. -/
structure ReplicaInfo where
  isLeader : Bool
  lastSeen : ℕ
  addrs : AddrsInfo
deriving DecidableEq

/-- What `clear` leaves. -/
def ReplicaInfo.empty : ReplicaInfo := ⟨false, 0, AddrsInfo.empty⟩

/-- `BlockServiceInfoValue`. -/
structure BlockServiceInfo where
  locationId : ℕ
  storageClass : ℕ
  failureDomain : Bytes
  secretKey : Bytes
  firstSeen : ℕ
  lastSeen : ℕ
  lastInfoChange : ℕ
  addrs : AddrsInfo
  flags : UInt8
  capacityBytes : ℕ
  availableBytes : ℕ
  blocks : ℕ
  hasFiles : Bool
  path : Bytes
deriving DecidableEq

/-! `BlockServiceFlags`. -/

def STALE : UInt8 := 0x1
def NO_WRITE : UInt8 := 0x4
def DECOMMISSIONED : UInt8 := 0x8

/-- `blockServiceFlagsWritable`. -/
def blockServiceFlagsWritable (flags : UInt8) : Bool :=
  flags &&& (STALE ||| NO_WRITE ||| DECOMMISSIONED) == 0

/-- The condition under which the handlers expect a service to be in the index. -/
def BlockServiceInfo.isWritable (info : BlockServiceInfo) : Bool :=
  blockServiceFlagsWritable info.flags && decide (0 < info.availableBytes)

/-- `WritableBlockServiceKey`. -/
structure WritableBlockServiceKey where
  locationId : ℕ
  storageClass : ℕ
  failureDomain : Bytes
  availableBytes : ℕ
  id : ℕ
deriving DecidableEq

/-- `blockServiceToWritableBlockServiceKey`. -/
def BlockServiceInfo.writableKey (id : ℕ) (info : BlockServiceInfo) : WritableBlockServiceKey :=
  ⟨info.locationId, info.storageClass, info.failureDomain, info.availableBytes, id⟩

/-- The service of a `LastHeartBeatKey`. The key of a replica is shorter than the eight bytes of
the field; `rest` is what the others hold. -/
inductive Service
  | replica (key : ReplicaKey) (rest : Bytes)
  | blockService (id : ℕ)
deriving DecidableEq

/-- `LastHeartBeatKey`. -/
structure LastHeartBeatKey where
  lastSeen : ℕ
  service : Service
deriving DecidableEq

/-- The column families. The three that hold replicas are one table here. -/
structure Tables where
  locations : ℕ → Option Bytes
  replicas : ReplicaKey → Option ReplicaInfo
  blockServices : ℕ → Option BlockServiceInfo
  lastHeartBeat : Finset LastHeartBeatKey
  writableBlockServices : Finset WritableBlockServiceKey

/-- `RegistryOptions`, as far as the handlers read them. -/
structure RegistryOptions where
  enforceStableIp : Bool
  enforceStableLeader : Bool
  enforceStableBlockServicePath : Bool
  staleDelay : ℕ
  blockServiceUsageDelay : ℤ
  maxFailureDomainsPerShard : ℕ

/-! ## Requests -/

/-- `RegisterBlockServiceInfo`. -/
structure RegisterBlockServiceInfo where
  id : ℕ
  locationId : ℕ
  addrs : AddrsInfo
  storageClass : ℕ
  failureDomain : Bytes
  secretKey : Bytes
  capacityBytes : ℕ
  availableBytes : ℕ
  blocks : ℕ
  path : Bytes
deriving DecidableEq

/-- The requests that the log holds. -/
inductive Request
  | createLocation (id : ℕ) (name : Bytes)
  | renameLocation (id : ℕ) (name : Bytes)
  | registerShard (location shard replica : ℕ) (isLeader : Bool) (addrs : AddrsInfo)
  | registerCdc (location replica : ℕ) (isLeader : Bool) (addrs : AddrsInfo)
  | setBlockServiceFlags (id : ℕ) (flags flagsMask : UInt8)
  | registerBlockServices (blockServices : List RegisterBlockServiceInfo)
  | registerRegistry (location replica : ℕ) (isLeader : Bool) (addrs : AddrsInfo)
  | decommissionBlockService (id : ℕ)
  | moveShardLeader (location shard replica : ℕ)
  | clearShardInfo (location shard replica : ℕ)
  | moveCdcLeader (location replica : ℕ)
  | clearCdcInfo (location replica : ℕ)
  | updateBlockServicePath (id : ℕ) (newPath : Bytes)
  | setBlockServiceHasFiles (id : ℕ) (hasFiles : Bool)
deriving DecidableEq

/-- `RegistryMessageKind` of a request. -/
inductive Kind
  | createLocation
  | renameLocation
  | registerShard
  | registerCdc
  | setBlockServiceFlags
  | registerBlockServices
  | registerRegistry
  | decommissionBlockService
  | moveShardLeader
  | clearShardInfo
  | moveCdcLeader
  | clearCdcInfo
  | updateBlockServicePath
  | setBlockServiceHasFiles
deriving DecidableEq

def Request.kind : Request → Kind
  | .createLocation .. => .createLocation
  | .renameLocation .. => .renameLocation
  | .registerShard .. => .registerShard
  | .registerCdc .. => .registerCdc
  | .setBlockServiceFlags .. => .setBlockServiceFlags
  | .registerBlockServices .. => .registerBlockServices
  | .registerRegistry .. => .registerRegistry
  | .decommissionBlockService .. => .decommissionBlockService
  | .moveShardLeader .. => .moveShardLeader
  | .clearShardInfo .. => .clearShardInfo
  | .moveCdcLeader .. => .moveCdcLeader
  | .clearCdcInfo .. => .clearCdcInfo
  | .updateBlockServicePath .. => .updateBlockServicePath
  | .setBlockServiceHasFiles .. => .setBlockServiceHasFiles

/-- The errors of the handlers. -/
inductive RegistryError
  | locationExists
  | locationNotFound
  | invalidReplica
  | differentAddrsInfo
  | leaderPreempted
  | blockServiceNotFound
  | inconsistentBlockServiceRegistration
deriving DecidableEq

/-! ## Locations and replicas -/

/-- `LogsDB::REPLICA_COUNT`. -/
def replicaCount : ℕ := 5

namespace Tables

def putReplica (t : Tables) (key : ReplicaKey) (info : ReplicaInfo) : Tables :=
  { t with replicas := Function.update t.replicas key (some info) }

def putBlockService (t : Tables) (id : ℕ) (info : BlockServiceInfo) : Tables :=
  { t with blockServices := Function.update t.blockServices id (some info) }

/-- `initializeShardsForLocation` and `initializeCdcForLocation`. -/
def initializeLocation (t : Tables) (id : ℕ) : Tables :=
  { t with
    replicas := fun k =>
      if k.location = id ∧ k.replica < replicaCount ∧
          (k.service = .shard ∧ k.shard < 256 ∨ k.service = .cdc ∧ k.shard = 0) then
        some ReplicaInfo.empty
      else t.replicas k }

end Tables

/-- The other replicas of the same shard, or of the CDC at the same location. -/
def ReplicaKey.isOther (key k : ReplicaKey) : Bool :=
  k.service == key.service && k.location == key.location && k.shard == key.shard &&
    decide (k.replica < replicaCount) && k.replica != key.replica

/-- The loop over the other replicas: those that are leaders in the database are written again as
they are there, without the flag. -/
def clearOthers (db view : Tables) (key : ReplicaKey) : Tables :=
  { view with
    replicas := fun k =>
      if key.isOther k then
        match db.replicas k with
        | none => view.replicas k
        | some info =>
          if info.isLeader then some { info with isLeader := false } else view.replicas k
      else view.replicas k }

/-- `addressesIntersect`. -/
def addressesIntersect (currentAddr newAddr : AddrsInfo) : Bool :=
  let used (a : IpPort) := a.ip.headD 0 != 0
  let hit (a : IpPort) := used a && (a.ip == newAddr.addr1.ip || a.ip == newAddr.addr2.ip)
  !used currentAddr.addr1 && !used currentAddr.addr2 || hit currentAddr.addr1 ||
    hit currentAddr.addr2

/-- The bytes that the keys of the two heartbeats of a registration hold beyond the replica. -/
structure Padding where
  old : Bytes
  new : Bytes
deriving DecidableEq

/-- The registration of a replica. The registry's own replicas do not clear each other's flag. -/
def registerReplica (opts : RegistryOptions) (clears : Bool) (pad : Padding) (requestTime : ℕ)
    (key : ReplicaKey) (isLeader : Bool) (addrs : AddrsInfo) (db view : Tables) :
    Tables × Option RegistryError :=
  match db.replicas key with
  | none => (view, some .invalidReplica)
  | some info =>
    if opts.enforceStableIp ∧ addressesIntersect info.addrs addrs = false then
      (view, some .differentAddrsInfo)
    else if opts.enforceStableLeader ∧ info.isLeader ≠ isLeader then
      (view, some .leaderPreempted)
    else
      let view :=
        if clears ∧ info.isLeader = false ∧ isLeader then clearOthers db view key else view
      let view := { view with
        lastHeartBeat := insert (⟨requestTime, .replica key pad.new⟩ : LastHeartBeatKey)
          (view.lastHeartBeat.erase ⟨info.lastSeen, .replica key pad.old⟩) }
      (view.putReplica key ⟨isLeader, requestTime, addrs⟩, none)

/-- The move of the leadership to a replica. -/
def moveLeader (key : ReplicaKey) (db view : Tables) : Tables × Option RegistryError :=
  match db.replicas key with
  | none => (view, some .invalidReplica)
  | some info => ((clearOthers db view key).putReplica key { info with isLeader := true }, none)

/-- The clearing of what is known of a replica. -/
def clearInfo (key : ReplicaKey) (db view : Tables) : Tables × Option RegistryError :=
  match db.replicas key with
  | none => (view, some .invalidReplica)
  | some info =>
    (view.putReplica key { info with isLeader := false, addrs := AddrsInfo.empty }, none)

/-- `CREATE_LOCATION`. -/
def createLocation (id : ℕ) (name : Bytes) (db view : Tables) : Tables × Option RegistryError :=
  match db.locations id with
  | some _ => (view, some .locationExists)
  | none =>
    (Tables.initializeLocation { view with
      locations := Function.update view.locations id (some name) } id, none)

/-- `RENAME_LOCATION`. -/
def renameLocation (id : ℕ) (name : Bytes) (db view : Tables) : Tables × Option RegistryError :=
  match db.locations id with
  | none => (view, some .locationNotFound)
  | some _ => ({ view with locations := Function.update view.locations id (some name) }, none)

/-! ## Block services -/

/-- The key of the heartbeat that a block service has in the table. -/
def BlockServiceInfo.heartBeat (id : ℕ) (info : BlockServiceInfo) : LastHeartBeatKey :=
  ⟨info.lastSeen, .blockService id⟩

/-- Take the service out of the index, if it should be there. -/
def dropWritable (view : Tables) (id : ℕ) (info : BlockServiceInfo) : Tables :=
  if info.isWritable then
    { view with writableBlockServices := view.writableBlockServices.erase (info.writableKey id) }
  else view

/-- The flags that `SET_BLOCK_SERVICE_FLAGS` leaves. -/
def newFlags (old flags flagsMask : UInt8) : UInt8 :=
  if flags &&& DECOMMISSIONED &&& flagsMask ≠ 0 then DECOMMISSIONED
  else (old &&& ~~~flagsMask) ||| (flags &&& flagsMask)

/-- `SET_BLOCK_SERVICE_FLAGS`. -/
def setBlockServiceFlags (requestTime id : ℕ) (flags flagsMask : UInt8) (view : Tables) :
    Tables × Option RegistryError :=
  match view.blockServices id with
  | none => (view, some .blockServiceNotFound)
  | some info =>
    -- No updates to decommissioned services.
    if info.flags &&& DECOMMISSIONED ≠ 0 then (view, none)
    else
      let view :=
        if flags &&& DECOMMISSIONED &&& flagsMask ≠ 0 then
          { view with lastHeartBeat := view.lastHeartBeat.erase (info.heartBeat id) }
        else view
      (view.putBlockService id
        { info with flags := newFlags info.flags flags flagsMask, lastInfoChange := requestTime },
        none)

/-- `DECOMMISSION_BLOCK_SERVICE`. -/
def decommissionBlockService (requestTime id : ℕ) (view : Tables) : Tables × Option RegistryError :=
  match view.blockServices id with
  | none => (view, some .blockServiceNotFound)
  | some info =>
    if info.flags &&& DECOMMISSIONED ≠ 0 then (view, none)
    else
      let view := dropWritable view id info
      let view := { view with lastHeartBeat := view.lastHeartBeat.erase (info.heartBeat id) }
      (view.putBlockService id
        { info with flags := DECOMMISSIONED, lastInfoChange := requestTime }, none)

/-- The change of a field that nothing else depends on. -/
def updateBlockService (id : ℕ) (f : BlockServiceInfo → BlockServiceInfo) (view : Tables) :
    Tables × Option RegistryError :=
  match view.blockServices id with
  | none => (view, some .blockServiceNotFound)
  | some info => (view.putBlockService id (f info), none)

/-- The path of the service differs from the one that is registered. -/
def pathDiffers (view : Tables) (new : RegisterBlockServiceInfo) : Bool :=
  match view.blockServices new.id with
  | none => false
  | some info => info.flags != DECOMMISSIONED && !decide (SameBytes info.path new.path)

/-- A service that registers for the first time. The fields that every registration sets are not
filled in yet. -/
def RegisterBlockServiceInfo.first (new : RegisterBlockServiceInfo) (requestTime : ℕ) :
    BlockServiceInfo :=
  { locationId := new.locationId, addrs := new.addrs, storageClass := new.storageClass,
    failureDomain := new.failureDomain, secretKey := new.secretKey, flags := 0,
    firstSeen := requestTime, lastInfoChange := requestTime, hasFiles := false, path := new.path,
    lastSeen := 0, capacityBytes := 0, availableBytes := 0, blocks := 0 }

/-- What a registration makes of what is stored. -/
def RegisterBlockServiceInfo.merge (opts : RegistryOptions) (new : RegisterBlockServiceInfo)
    (requestTime : ℕ) (wasWritable : Bool) (info : BlockServiceInfo) :
    BlockServiceInfo × Bool :=
  let samePath := decide (SameBytes info.path new.path)
  let changed := info.addrs != new.addrs || !samePath || info.flags &&& STALE != 0
  let info := { info with
    addrs := new.addrs, path := if samePath then info.path else new.path,
    flags := info.flags &&& ~~~STALE, lastSeen := requestTime,
    capacityBytes := new.capacityBytes, availableBytes := new.availableBytes, blocks := new.blocks }
  let nowWritable := info.isWritable &&
    decide (opts.blockServiceUsageDelay ≤ (requestTime : ℤ) - info.firstSeen)
  ({ info with
      lastInfoChange :=
        if changed || wasWritable != nowWritable then requestTime else info.lastInfoChange },
    nowWritable)

/-- The body of the loop of `REGISTER_BLOCK_SERVICES`. -/
def registerBlockService (opts : RegistryOptions) (requestTime : ℕ) (view : Tables)
    (new : RegisterBlockServiceInfo) : Tables :=
  match view.blockServices new.id with
  | none =>
    -- There is no old key to delete.
    register view false (new.first requestTime)
  | some info =>
    if info.flags = DECOMMISSIONED then view
    else
      let view := dropWritable view new.id info
      register { view with lastHeartBeat := view.lastHeartBeat.erase (info.heartBeat new.id) }
        info.isWritable info
where
  register (view : Tables) (wasWritable : Bool) (info : BlockServiceInfo) : Tables :=
    let (info, nowWritable) := new.merge opts requestTime wasWritable info
    let view :=
      if nowWritable then
        { view with
          writableBlockServices := insert (info.writableKey new.id) view.writableBlockServices }
      else view
    let view := { view with lastHeartBeat := insert (info.heartBeat new.id) view.lastHeartBeat }
    view.putBlockService new.id info

/-- `REGISTER_BLOCK_SERVICES`. -/
def registerBlockServices (opts : RegistryOptions) (requestTime : ℕ)
    (blockServices : List RegisterBlockServiceInfo) (view : Tables) :
    Tables × Option RegistryError :=
  if opts.enforceStableBlockServicePath ∧ blockServices.any (pathDiffers view) then
    (view, some .inconsistentBlockServiceRegistration)
  else (blockServices.foldl (registerBlockService opts requestTime) view, none)

/-! ## Chunks of log entries -/

/-- The switch of `processLogEntries`. -/
def handle (opts : RegistryOptions) (pad : Padding) (requestTime : ℕ) (db view : Tables) :
    Request → Tables × Option RegistryError
  | .createLocation id name => createLocation id name db view
  | .renameLocation id name => renameLocation id name db view
  | .registerShard location shard replica isLeader addrs =>
    registerReplica opts true pad requestTime ⟨.shard, location, shard, replica⟩ isLeader addrs
      db view
  | .registerCdc location replica isLeader addrs =>
    registerReplica opts true pad requestTime ⟨.cdc, location, 0, replica⟩ isLeader addrs db view
  | .setBlockServiceFlags id flags flagsMask =>
    setBlockServiceFlags requestTime id flags flagsMask view
  | .registerBlockServices blockServices =>
    registerBlockServices opts requestTime blockServices view
  | .registerRegistry location replica isLeader addrs =>
    registerReplica opts false pad requestTime ⟨.registry, location, 0, replica⟩ isLeader addrs
      db view
  | .decommissionBlockService id => decommissionBlockService requestTime id view
  | .moveShardLeader location shard replica =>
    moveLeader ⟨.shard, location, shard, replica⟩ db view
  | .clearShardInfo location shard replica => clearInfo ⟨.shard, location, shard, replica⟩ db view
  | .moveCdcLeader location replica => moveLeader ⟨.cdc, location, 0, replica⟩ db view
  | .clearCdcInfo location replica => clearInfo ⟨.cdc, location, 0, replica⟩ db view
  | .updateBlockServicePath id newPath =>
    updateBlockService id (fun info => { info with path := newPath }) view
  | .setBlockServiceHasFiles id hasFiles =>
    updateBlockService id (fun info => { info with hasFiles := hasFiles }) view

/-- `RegistryDBLogEntry`, with its index. -/
structure LogEntry where
  idx : ℕ
  entryTime : ℕ
  requests : List Request
deriving DecidableEq

/-- `RegistryDBWriteResult`. -/
structure WriteResult where
  logIdx : ℕ
  offset : ℕ
  kind : Kind
  err : Option RegistryError
deriving DecidableEq

/-- A request of a log entry on its own, with the time of the entry and the bytes that the keys of
its heartbeats hold. -/
structure Item where
  logIdx : ℕ
  offset : ℕ
  requestTime : ℕ
  pad : Padding
  request : Request
deriving DecidableEq

/-- What stands in the bytes that are not initialised when the request is handled. -/
abbrev Stack := ℕ → ℕ → Padding

/-- The requests of an entry. The offset is a `uint8_t`. -/
def LogEntry.items (stack : Stack) (e : LogEntry) : List Item :=
  e.requests.zipIdx.map fun (req, i) => ⟨e.idx, i % 2 ^ 8, e.entryTime, stack e.idx i, req⟩

/-- The loop over the requests. -/
def handleAll (opts : RegistryOptions) (db : Tables) :
    Tables → List Item → Tables × List WriteResult
  | view, [] => (view, [])
  | view, it :: items =>
    let res := handle opts it.pad it.requestTime db view it.request
    let rest := handleAll opts db res.1 items
    (rest.1, ⟨it.logIdx, it.offset, it.request.kind, res.2⟩ :: rest.2)

/-- The block service of a heartbeat that is due. The keys are ordered by the time, so that the
loop, which ends at the first key that is not due, sees all of them. -/
def LastHeartBeatKey.due? (opts : RegistryOptions) (now : ℕ) (k : LastHeartBeatKey) : Option ℕ :=
  match k.service with
  | .replica .. => none
  | .blockService id => if k.lastSeen + opts.staleDelay ≤ now then some id else none

/-- The services with a heartbeat that is due. -/
def Tables.due (opts : RegistryOptions) (now : ℕ) (db : Tables) : Finset ℕ :=
  (db.lastHeartBeat.image (LastHeartBeatKey.due? opts now)).eraseNone

/-- `_updateStaleBlockServices`. It reads the database only, so that the order of the services
does not matter; a heartbeat of a service that is not stored fails. -/
def updateStaleBlockServices (opts : RegistryOptions) (now : ℕ) (db : Tables) : Option Tables :=
  let due := db.due opts now
  if ∀ id ∈ due, (db.blockServices id).isSome then
    some { db with
      blockServices := fun id =>
        if id ∈ due then
          (db.blockServices id).map fun info =>
            { info with flags := info.flags ||| STALE, lastInfoChange := now }
        else db.blockServices id
      lastHeartBeat := db.lastHeartBeat.filter fun k => k.due? opts now = none
      writableBlockServices := db.writableBlockServices.filter fun w =>
        ¬ (w.id ∈ due ∧ ∃ info ∈ db.blockServices w.id,
          info.isWritable = true ∧ w = info.writableKey w.id) }
  else none

/-- The database with the index of the last entry that was applied. -/
structure RegistryDB where
  tables : Tables
  lastAppliedLogEntry : ℕ

/-- `processLogEntries`; `none` is a failed assertion. -/
def processLogEntries (opts : RegistryOptions) (stack : Stack) (db : RegistryDB)
    (logEntries : List LogEntry) : Option (RegistryDB × List WriteResult) :=
  if logEntries.map (·.idx) = List.range' (db.lastAppliedLogEntry + 1) logEntries.length then
    let res := handleAll opts db.tables db.tables (logEntries.flatMap (·.items stack))
    let lastRequestTime := (logEntries.map (·.entryTime)).foldl max 0
    (updateStaleBlockServices opts lastRequestTime res.1).map fun tables =>
      (⟨tables, db.lastAppliedLogEntry + logEntries.length⟩, res.2)
  else none

/-- The tables of a new registry: `_initDb`. -/
def Tables.init : Tables :=
  Tables.initializeLocation
    { locations := fun id => if id = 0 then some [100, 101, 102, 97, 117, 108, 116] else none
      replicas := fun k =>
        if k.service = .registry ∧ k.location = 0 ∧ k.shard = 0 ∧ k.replica < replicaCount then
          some ReplicaInfo.empty
        else none
      blockServices := fun _ => none
      lastHeartBeat := ∅
      writableBlockServices := ∅ } 0

end TernFS.Registry
