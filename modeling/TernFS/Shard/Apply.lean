/-
# Applying log entries

The log entries that only the coordinator sends, the few that touch a file record alone, and
`applyLogEntry`, which dispatches on the kind of the entry: an entry either goes through as a
whole, or fails and leaves only the advanced log index behind, or takes the process down
before anything is written.
-/
import TernFS.Shard.SpanMoves

namespace TernFS

open Lib

/-! ## Entries of the coordinator -/

/-- `_applyCreateDirectoryInode`. -/
def applyCreateDirectoryInode (db : ShardDB) (time : ℕ) (entry : CreateDirectoryInodeReq) :
    Checked (ShardDB × ShardResp) :=
  match getDirectory db entry.id false with
  | .ok dir => do
    check (dir.ownerId = entry.ownerId) .mismatchingOwner
    return (db, .createDirectoryInode 0)
  | .error (.err .directoryNotFound) =>
    return ({ db with
      directories := db.directories.put entry.id ⟨entry.ownerId, time, entry.info⟩ },
      .createDirectoryInode time)
  | .error e => .error e

/-- `_applyCreateLockedCurrentEdge`. -/
def applyCreateLockedCurrentEdge (cfg : ShardConfig) (db : ShardDB) (time : ℕ)
    (entry : CreateLockedCurrentEdgeReq) : Checked (ShardDB × ShardResp) := do
  let (batch, creationTime) ← createCurrentEdge cfg db db time entry.dirId entry.name
    entry.targetId true entry.oldCreationTime
  return (batch, .createLockedCurrentEdge creationTime)

/-- `_applyUnlockCurrentEdge`.  The edge takes the target of the request. -/
def applyUnlockCurrentEdge (cfg : ShardConfig) (db : ShardDB) (time : ℕ)
    (entry : UnlockCurrentEdgeReq) : Checked (ShardDB × ShardResp) := do
  let (batch, _) ← initiateDirectoryModification db db time false entry.dirId
  let edge := cfg.edgeName entry.dirId entry.name
  let body ← orFail (.err .edgeNotFound) (db.currentEdges.get edge)
  check (body.creationTime = entry.creationTime) .mismatchingCreationTime
  let batch := if body.locked then
      { batch with
        currentEdges := batch.currentEdges.put edge ⟨.of entry.targetId false, body.creationTime⟩ }
    else batch
  if entry.wasMoved then
    return ({ batch with
      currentEdges := batch.currentEdges.delete edge
      snapshotEdges := (batch.snapshotEdges.put ⟨edge, body.creationTime⟩
        ⟨.of entry.targetId false⟩).put ⟨edge, time⟩ ⟨.of .null false⟩ }, .done)
  else return (batch, .done)

/-- `_applyLockCurrentEdge`.  The edge takes the target of the request. -/
def applyLockCurrentEdge (cfg : ShardConfig) (db : ShardDB) (time : ℕ)
    (entry : LockCurrentEdgeReq) : Checked (ShardDB × ShardResp) := do
  let (batch, _) ← initiateDirectoryModification db db time false entry.dirId
  let edge := cfg.edgeName entry.dirId entry.name
  let body ← orFail (.err .edgeNotFound) (db.currentEdges.get edge)
  check (body.creationTime = entry.creationTime) .mismatchingCreationTime
  if body.locked then return (batch, .done)
  else
    return ({ batch with
      currentEdges := batch.currentEdges.put edge ⟨.of entry.targetId true, body.creationTime⟩ },
      .done)

/-- `_applyRemoveDirectoryOwner`. -/
def applyRemoveDirectoryOwner (db : ShardDB) (time : ℕ) (entry : RemoveDirectoryOwnerReq) :
    Checked (ShardDB × ShardResp) := do
  let (batch, dir) ← initiateDirectoryModification db db time true entry.dirId
  if dir.ownerId = .null then
    -- done already
    return (batch, .done)
  else
    check (¬ HasCurrentEdge db entry.dirId) .directoryNotEmpty
    return ({ batch with
      directories := batch.directories.put entry.dirId ⟨.null, time, entry.info⟩ }, .done)

/-- `_applySetDirectoryOwner`. -/
def applySetDirectoryOwner (db : ShardDB) (time : ℕ) (entry : SetDirectoryOwnerReq) :
    Checked (ShardDB × ShardResp) := do
  let (batch, dir) ← initiateDirectoryModification db db time true entry.dirId
  return ({ batch with
    directories := batch.directories.put entry.dirId { dir with ownerId := entry.ownerId } },
    .done)

/-- `_applyMakeFileTransient`. -/
def applyMakeFileTransient (db : ShardDB) (time : ℕ) (entry : MakeFileTransientEntry) :
    Checked (ShardDB × ShardResp) :=
  match getFile db entry.id with
  | .error (.err .fileNotFound) =>
    -- done already if the file is transient
    match getTransientFile db time true entry.id with
    | .ok _ => return (db, .done)
    | .error _ => .error (.err .fileNotFound)
  | .error e => .error e
  | .ok file =>
    let body : TransientFileBody := ⟨file.fileSize, time, entry.deadlineTime, .clean, entry.note⟩
    return ({ db with
      files := db.files.delete entry.id
      transientFiles := db.transientFiles.put entry.id body }, .done)

/-- `_applyRemoveOwnedSnapshotFileEdge`.  The edge is removed whatever it is. -/
def applyRemoveOwnedSnapshotFileEdge (cfg : ShardConfig) (db : ShardDB) (time : ℕ)
    (entry : SameShardHardFileUnlinkReq) : Checked (ShardDB × ShardResp) := do
  let (batch, _) ← initiateDirectoryModification db db time true entry.ownerId
  let key : SnapshotEdgeKey := ⟨cfg.edgeName entry.ownerId entry.name, entry.creationTime⟩
  return ({ batch with snapshotEdges := batch.snapshotEdges.delete key }, .done)

/-! ## Entries about file records -/

/-- `_applyScrapTransientFile`. -/
def applyScrapTransientFile (db : ShardDB) (time : ℕ) (entry : ScrapTransientFileEntry) :
    Checked (ShardDB × ShardResp) := do
  let body ← getTransientFile db time true entry.id
  return ({ db with
    transientFiles :=
      db.transientFiles.put entry.id { body with deadline := entry.deadlineTime } }, .done)

/-- The time to set, if the most significant bit of the word says so. -/
def setTimeTo (word old : ℕ) : ℕ := if 2 ^ 63 ≤ word % 2 ^ 64 then word % 2 ^ 63 else old

/-- `_applySetTime`. -/
def applySetTime (db : ShardDB) (entry : SetTimeReq) : Checked (ShardDB × ShardResp) := do
  let file ← getFile db entry.id
  let file' := { file with
    atime := setTimeTo entry.atime file.atime
    mtime := setTimeTo entry.mtime file.mtime }
  return ({ db with files := db.files.put entry.id file' }, .done)

/-! ## Dispatch -/

/-- The effect of a log entry, by kind. -/
def applyEntryBody (cfg : ShardConfig) (cache : BlockServicesCache) (db : ShardDB) (time : ℕ) :
    ShardLogEntryBody → Checked (ShardDB × ShardResp)
  | .constructFile entry => applyConstructFile cfg db time entry
  | .linkFile entry => applyLinkFile cfg db time entry
  | .sameDirectoryRename entry => applySameDirectoryRename cfg db time entry
  | .sameDirectoryRenameSnapshot entry => applySameDirectoryRenameSnapshot cfg db time entry
  | .softUnlinkFile entry => applySoftUnlinkFile cfg db time entry
  | .createDirectoryInode entry => applyCreateDirectoryInode db time entry
  | .createLockedCurrentEdge entry => applyCreateLockedCurrentEdge cfg db time entry
  | .unlockCurrentEdge entry => applyUnlockCurrentEdge cfg db time entry
  | .lockCurrentEdge entry => applyLockCurrentEdge cfg db time entry
  | .removeDirectoryOwner entry => applyRemoveDirectoryOwner db time entry
  | .removeInode entry => applyRemoveInode db time entry
  | .setDirectoryOwner entry => applySetDirectoryOwner db time entry
  | .setDirectoryInfo entry => applySetDirectoryInfo db time entry
  | .removeNonOwnedEdge entry => applyRemoveNonOwnedEdge cfg db time entry
  | .sameShardHardFileUnlink entry => applySameShardHardFileUnlink cfg db time entry
  | .removeSpanInitiate fileId => applyRemoveSpanInitiate cfg cache db time fileId
  | .addInlineSpan entry => applyAddInlineSpan cfg db time entry
  | .addSpanAtLocationInitiate entry => applyAddSpanInitiate cfg cache db time entry
  | .addSpanCertify entry => applyAddSpanCertify cfg cache db time entry
  | .makeFileTransient entry => applyMakeFileTransient db time entry
  | .scrapTransientFile entry => applyScrapTransientFile db time entry
  | .removeSpanCertify entry => applyRemoveSpanCertify cfg cache db time entry
  | .removeOwnedSnapshotFileEdge entry => applyRemoveOwnedSnapshotFileEdge cfg db time entry
  | .swapBlocks entry => applySwapBlocks cache db entry
  | .moveSpan entry => applyMoveSpan cfg db time entry
  | .setTime entry => applySetTime db entry
  | .removeZeroBlockServiceFiles entry => applyRemoveZeroBlockServiceFiles db entry
  | .swapSpans entry => applySwapSpans db entry
  | .addSpanLocation entry => applyAddSpanLocation cfg db time entry
  | .heartbeat => return (db, .done)

/-- `_advanceLastAppliedLogEntry`, once the index has been checked. -/
def ShardDB.advance (db : ShardDB) (logIndex time : ℕ) : ShardDB :=
  { db with lastAppliedLogEntry := logIndex, lastAppliedEntryTime := time }

/-- `applyLogEntry`: the new database and the response, or `none` if the process goes down. -/
def applyLogEntry (cfg : ShardConfig) (cache : BlockServicesCache) (db : ShardDB) (logIndex : ℕ)
    (logEntry : ShardLogEntry) : Option (ShardDB × Except TernError ShardResp) :=
  if addU64 db.lastAppliedLogEntry 1 = logIndex then
    match applyEntryBody cfg cache db logEntry.time logEntry.body with
    | .ok (batch, resp) => some (batch.advance logIndex logEntry.time, .ok resp)
    | .error (.err e) => some (db.advance logIndex logEntry.time, .error e)
    | .error .crash => none
  else none

/-! ## Initialisation -/

/-- A list of packed entries, after its length. -/
def packList (entries : List Bytes) : Bytes := leBytes 2 entries.length ++ entries.flatten

/-- The parity byte for the given numbers of blocks. -/
def Parity.of (dataBlocks parityBlocks : ℕ) : Parity := ⟨dataBlocks + parityBlocks * 16⟩

/-- `defaultDirectoryInfo`: delete snapshots after 30 days; flash storage for small blocks and
disks from 2.5 MB on; up to ten data blocks and four parity blocks; stripes of 1 MiB. -/
def defaultDirectoryInfo : DirectoryInfo :=
  let minHddBlockSize := 2560000
  let span := fun maxSize dataBlocks => leBytes 4 maxSize ++ [(Parity.of dataBlocks 4).u8]
  [ ⟨1, leBytes 8 (30 * 24 * 60 * 60 * 1000000000 + 2 ^ 63) ++ leBytes 2 0⟩,
    ⟨3, packList [3 :: leBytes 4 0, 2 :: leBytes 4 minHddBlockSize]⟩,
    ⟨2, packList ([span 65536 1, span 5120000 10] ++
      (List.range 9).map fun i => span ((i + 3) * minHddBlockSize) (i + 2))⟩,
    ⟨4, leBytes 4 (2 ^ 20)⟩ ]

/-- `_initDb` on an empty database, at the given time. -/
def initDb (cfg : ShardConfig) (now : ℕ) : ShardDB where
  files := .empty
  transientFiles := .empty
  spans := .empty
  directories :=
    if cfg.shid = InodeId.rootDir.shard then
      SortedStore.empty.put .rootDir ⟨.null, 0, defaultDirectoryInfo⟩
    else .empty
  currentEdges := .empty
  snapshotEdges := .empty
  blockServicesToFiles := .empty
  nextFileId := .of .file cfg.shid 0
  nextSymlinkId := .of .symlink cfg.shid 0
  nextBlockId := cfg.shid
  lastAppliedLogEntry := 0
  lastAppliedEntryTime := now

end TernFS
