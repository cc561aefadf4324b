/-
# Directories, edges and inodes: how log entries change them

The part of `ShardDB.cpp` that applies log entries to directories, edges and file records.
Every function reads the database as it was before the entry (`db`) and adds its writes to a
pending batch, represented by the database as it will be once the batch is written (`batch`);
a function that fails leaves nothing behind, since the batch is then dropped.
-/
import TernFS.Core.Crypto
import TernFS.Shard.Entries

namespace TernFS

open Lib

/-- What a shard process is configured with.  The name hash is a third-party function
(XXH3, masked to 63 bits). -/
structure ShardConfig where
  shid : ℕ
  transientDeadlineInterval : ℕ
  secretKey : Bytes
  computeNameHash : Bytes → ℕ
  /-- Shard ids are one byte. -/
  shid_lt : shid < 2 ^ 8

/-- The key of the current edge of a name. -/
def ShardConfig.edgeName (cfg : ShardConfig) (dirId : InodeId) (name : Bytes) : EdgeName :=
  ⟨dirId.masked, cfg.computeNameHash name, name⟩

/-- `_calcCookie`: what a client needs to modify a transient file. -/
def ShardConfig.calcCookie (cfg : ShardConfig) (id : InodeId) : Bytes :=
  cbcmac (expandKey cfg.secretKey) (leBytes 8 id.u64)

/-! ## Reading records -/

/-- The id is that of a file or a symlink. -/
def InodeId.IsFile (id : InodeId) : Prop := id.type = .file ∨ id.type = .symlink

instance (id : InodeId) : Decidable id.IsFile := inferInstanceAs (Decidable (_ ∨ _))

/-- `_getDirectory`; snapshot directories (no owner, the root apart) count as missing unless
they are asked for. -/
def getDirectory (db : ShardDB) (id : InodeId) (allowSnapshot : Bool) : Checked DirectoryBody := do
  check (id.type = .directory) .typeIsNotDirectory
  let dir ← orFail (.err .directoryNotFound) (db.directories.get id)
  check (allowSnapshot = true ∨ dir.ownerId ≠ .null ∨ id = .rootDir) .directoryNotFound
  return dir

/-- `_getFile`. -/
def getFile (db : ShardDB) (id : InodeId) : Checked FileBody := do
  check id.IsFile .typeIsDirectory
  orFail (.err .fileNotFound) (db.files.get id)

/-- `_getTransientFile`; a file past its deadline counts as missing unless it is asked for. -/
def getTransientFile (db : ShardDB) (time : ℕ) (allowPastDeadline : Bool) (id : InodeId) :
    Checked TransientFileBody := do
  check id.IsFile .typeIsDirectory
  let file ← orFail (.err .fileNotFound) (db.transientFiles.get id)
  check (allowPastDeadline = true ∨ time ≤ file.deadline) .fileNotFound
  return file

/-- `_initiateDirectoryModification`: the directory, with its modification time moved to the
time of the log entry.  Time never goes backwards in a directory. -/
def initiateDirectoryModification (db batch : ShardDB) (time : ℕ) (allowSnapshot : Bool)
    (dirId : InodeId) : Checked (ShardDB × DirectoryBody) := do
  let dir ← getDirectory db dirId allowSnapshot
  check (dir.mtime < time) .mtimeIsTooRecent
  let dir' := { dir with mtime := time }
  return ({ batch with directories := batch.directories.put dirId dir' }, dir')

/-- `_initiateTransientFileModification`: the file, with its modification time moved to the
time of the log entry, and its deadline pushed back unless the operation ignores deadlines. -/
def initiateTransientFileModification (cfg : ShardConfig) (db batch : ShardDB) (time : ℕ)
    (allowPastDeadline : Bool) (id : InodeId) : Checked (ShardDB × TransientFileBody) := do
  let tf ← getTransientFile db time allowPastDeadline id
  check (tf.mtime < time) .mtimeIsTooRecent
  let deadline :=
    if allowPastDeadline then tf.deadline else addU64 time cfg.transientDeadlineInterval
  let tf' := { tf with mtime := time, deadline := deadline }
  return ({ batch with transientFiles := batch.transientFiles.put id tf' }, tf')

/-! ## Creating and removing edges -/

/-- The snapshot edges of the name that a `SeekForPrev` from the end of time finds are older
than `time`. -/
def LastSnapshotEdgeBefore (cfg : ShardConfig) (db : ShardDB) (dirId : InodeId) (name : Bytes)
    (time : ℕ) : Prop :=
  match db.snapshotEdges.seekForPrev ⟨cfg.edgeName dirId name, 2 ^ 64 - 1⟩ with
  | none => True
  | some (k, _) =>
    k.edge.dirId = dirId ∧ k.edge.nameHash = cfg.computeNameHash name ∧ k.edge.name = name →
      k.creationTime < time

instance (cfg : ShardConfig) (db : ShardDB) (dirId : InodeId) (name : Bytes) (time : ℕ) :
    Decidable (LastSnapshotEdgeBefore cfg db dirId name time) := by
  unfold LastSnapshotEdgeBefore
  exact match db.snapshotEdges.seekForPrev ⟨cfg.edgeName dirId name, 2 ^ 64 - 1⟩ with
    | none => isTrue trivial
    | some (_, _) => inferInstance

/-- `_createCurrentEdge`: make `name` point to `targetId`, and return the creation time of the
edge.  The expected creation time `oldCreationTime` is only looked at when the name is locked
already. -/
def createCurrentEdge (cfg : ShardConfig) (db batch : ShardDB) (logEntryTime : ℕ)
    (dirId : InodeId) (name : Bytes) (targetId : InodeId) (locked : Bool) (oldCreationTime : ℕ) :
    Checked (ShardDB × ℕ) := do
  let (batch, _) ← initiateDirectoryModification db batch logEntryTime false dirId
  let edge := cfg.edgeName dirId name
  match db.currentEdges.get edge with
  | none =>
    check (LastSnapshotEdgeBefore cfg db dirId name logEntryTime) .moreRecentSnapshotEdge
    let body : CurrentEdgeBody := ⟨.of targetId locked, logEntryTime⟩
    return ({ batch with currentEdges := batch.currentEdges.put edge body }, logEntryTime)
  | some existing =>
    if existing.locked then
      check (locked = true) .nameIsLocked
      check (existing.targetId = targetId) .mismatchingTarget
      check (existing.creationTime = oldCreationTime) .mismatchingCreationTime
      -- the creation time of a locked edge does not move
      let body : CurrentEdgeBody := ⟨.of targetId locked, existing.creationTime⟩
      return ({ batch with currentEdges := batch.currentEdges.put edge body },
        existing.creationTime)
    else
      check (existing.creationTime < logEntryTime) .moreRecentCurrentEdge
      check (targetId.type ≠ .directory ∧ existing.targetId.type ≠ .directory) .cannotOverrideName
      -- a file overrides a file: what was current becomes an owned snapshot edge
      let snapshot : SnapshotEdgeBody := ⟨.of existing.targetId true⟩
      let body : CurrentEdgeBody := ⟨.of targetId locked, logEntryTime⟩
      return ({ batch with
        snapshotEdges := batch.snapshotEdges.put ⟨edge, existing.creationTime⟩ snapshot
        currentEdges := batch.currentEdges.put edge body }, logEntryTime)

/-- `_softUnlinkCurrentEdge`: turn a current edge into a snapshot edge, followed by a deletion
edge at the time of the log entry. -/
def softUnlinkCurrentEdge (cfg : ShardConfig) (db batch : ShardDB) (time : ℕ) (dirId : InodeId)
    (name : Bytes) (creationTime : ℕ) (targetId : InodeId) (owned : Bool) : Checked ShardDB := do
  let (batch, _) ← initiateDirectoryModification db batch time false dirId
  let edge := cfg.edgeName dirId name
  let body ← orFail (.err .edgeNotFound) (db.currentEdges.get edge)
  check (body.targetId = targetId) .mismatchingTarget
  check (body.creationTime = creationTime) .mismatchingCreationTime
  check (body.locked = false) .edgeIsLocked
  let snapshotEdges :=
    (batch.snapshotEdges.put ⟨edge, body.creationTime⟩ ⟨.of targetId owned⟩).put ⟨edge, time⟩
      ⟨.of .null false⟩
  return { batch with
    currentEdges := batch.currentEdges.delete edge
    snapshotEdges := snapshotEdges }

/-! ## Log entries of clients -/

/-- The next id of a counter: `FromU64` asserts that the id is valid. -/
def nextInodeId (id : InodeId) : Checked InodeId := do
  let next : InodeId := ⟨addU64 id.u64 0x100⟩
  assert next.Valid
  return next

/-- `_applyConstructFile`. -/
def applyConstructFile (cfg : ShardConfig) (db : ShardDB) (time : ℕ) (entry : ConstructFileEntry) :
    Checked (ShardDB × ShardResp) := do
  let body : TransientFileBody := ⟨0, time, entry.deadlineTime, .clean, entry.note⟩
  if entry.type = InodeId.typeBits .file then
    let id ← nextInodeId db.nextFileId
    return ({ db with nextFileId := id, transientFiles := db.transientFiles.put id body },
      .constructFile id (cfg.calcCookie id))
  else
    assert (entry.type = InodeId.typeBits .symlink)
    let id ← nextInodeId db.nextSymlinkId
    return ({ db with nextSymlinkId := id, transientFiles := db.transientFiles.put id body },
      .constructFile id (cfg.calcCookie id))

/-- The creation time that a repeated `LinkFile` answers with: the file is linked there
already. -/
def alreadyLinked (cfg : ShardConfig) (db : ShardDB) (entry : LinkFileEntry) : Option ℕ :=
  match getDirectory db entry.ownerId false with
  | .error _ => none
  | .ok _ =>
    (db.currentEdges.get (cfg.edgeName entry.ownerId entry.name)).bind fun edge =>
      if edge.targetId = entry.fileId then some edge.creationTime else none

/-- `_applyLinkFile`. -/
def applyLinkFile (cfg : ShardConfig) (db : ShardDB) (time : ℕ) (entry : LinkFileEntry) :
    Checked (ShardDB × ShardResp) :=
  match getTransientFile db time false entry.fileId with
  | .error (.err .fileNotFound) => do
    -- a client that retries a link that went through
    let creationTime ← orFail (.err .fileNotFound) (alreadyLinked cfg db entry)
    return (db, .linkFile creationTime)
  | .error e => .error e
  | .ok transientFile => do
    check (transientFile.lastSpanState = .clean) .lastSpanStateNotClean
    let batch := { db with
      transientFiles := db.transientFiles.delete entry.fileId
      files := db.files.put entry.fileId ⟨transientFile.fileSize, time, time⟩ }
    let (batch, creationTime) ←
      createCurrentEdge cfg db batch time entry.ownerId entry.name entry.fileId false 0
    return (batch, .linkFile creationTime)

/-- `_applySameDirectoryRename`. -/
def applySameDirectoryRename (cfg : ShardConfig) (db : ShardDB) (time : ℕ)
    (entry : SameDirectoryRenameReq) : Checked (ShardDB × ShardResp) := do
  -- the old edge is not owned any more, since its target moves to the new one
  let batch ← softUnlinkCurrentEdge cfg db db time entry.dirId entry.oldName
    entry.oldCreationTime entry.targetId false
  let (batch, creationTime) ←
    createCurrentEdge cfg db batch time entry.dirId entry.newName entry.targetId false 0
  return (batch, .sameDirectoryRename creationTime)

/-- `_applySameDirectoryRenameSnapshot`: restore the target of an owned snapshot edge. -/
def applySameDirectoryRenameSnapshot (cfg : ShardConfig) (db : ShardDB) (time : ℕ)
    (entry : SameDirectoryRenameReq) : Checked (ShardDB × ShardResp) := do
  let (batch, _) ← initiateDirectoryModification db db time false entry.dirId
  let key : SnapshotEdgeKey := ⟨cfg.edgeName entry.dirId entry.oldName, entry.oldCreationTime⟩
  let body ← orFail (.err .edgeNotFound) (db.snapshotEdges.get key)
  check (body.targetIdWithOwned.id = entry.targetId) .mismatchingTarget
  check (body.targetIdWithOwned.extra = true) .edgeNotOwned
  let batch := { batch with
    snapshotEdges := batch.snapshotEdges.put key ⟨.of entry.targetId false⟩ }
  let (batch, creationTime) ←
    createCurrentEdge cfg db batch time entry.dirId entry.newName entry.targetId false 0
  return (batch, .sameDirectoryRenameSnapshot creationTime)

/-- `_applySoftUnlinkFile`. -/
def applySoftUnlinkFile (cfg : ShardConfig) (db : ShardDB) (time : ℕ) (entry : SoftUnlinkFileReq) :
    Checked (ShardDB × ShardResp) := do
  let batch ← softUnlinkCurrentEdge cfg db db time entry.ownerId entry.name entry.creationTime
    entry.fileId true
  return (batch, .softUnlinkFile time)

/-- The directory has a current edge. -/
def HasCurrentEdge (db : ShardDB) (dirId : InodeId) : Prop :=
  ∃ e ∈ db.currentEdges.entries, e.1.dirId = dirId

instance (db : ShardDB) (dirId : InodeId) : Decidable (HasCurrentEdge db dirId) :=
  inferInstanceAs (Decidable (∃ e ∈ db.currentEdges.entries, e.1.dirId = dirId))

/-- The directory has a snapshot edge. -/
def HasSnapshotEdge (db : ShardDB) (dirId : InodeId) : Prop :=
  ∃ e ∈ db.snapshotEdges.entries, e.1.edge.dirId = dirId

instance (db : ShardDB) (dirId : InodeId) : Decidable (HasSnapshotEdge db dirId) :=
  inferInstanceAs (Decidable (∃ e ∈ db.snapshotEdges.entries, e.1.edge.dirId = dirId))

/-- `_applyRemoveDirectoryInode`. -/
def applyRemoveDirectoryInode (db : ShardDB) (time : ℕ) (id : InodeId) :
    Checked (ShardDB × ShardResp) := do
  assert (id.type = .directory)
  match initiateDirectoryModification db db time true id with
  | .error (.err .directoryNotFound) => return (db, .done)
  | .error e => .error e
  | .ok (batch, dir) =>
    check (dir.ownerId = .null) .directoryHasOwner
    check (¬ HasSnapshotEdge db id ∧ ¬ HasCurrentEdge db id) .directoryNotEmpty
    return ({ batch with directories := batch.directories.delete id }, .done)

/-- The file has a span. -/
def HasSpan (db : ShardDB) (id : InodeId) : Prop :=
  ∃ e ∈ (db.spans.seek ⟨id, 0⟩).head?, e.1.fileId = id

instance (db : ShardDB) (id : InodeId) : Decidable (HasSpan db id) := by
  unfold HasSpan
  exact match (db.spans.seek ⟨id, 0⟩).head? with
    | none => isFalse (by simp)
    | some e => decidable_of_iff (e.1.fileId = id) (by simp)

/-- `_applyRemoveFileInode`. -/
def applyRemoveFileInode (db : ShardDB) (time : ℕ) (id : InodeId) :
    Checked (ShardDB × ShardResp) := do
  assert id.IsFile
  match getTransientFile db time true id with
  | .error (.err .fileNotFound) =>
    match getFile db id with
    | .ok _ => .error (.err .fileIsNotTransient)
    | .error (.err .fileNotFound) => return (db, .done)
    | .error e => .error e
  | .error e => .error e
  | .ok transientFile =>
    check (transientFile.deadline < time) .deadlineNotPassed
    check (¬ HasSpan db id) .fileNotEmpty
    return ({ db with transientFiles := db.transientFiles.delete id }, .done)

/-- `_applyRemoveInode`. -/
def applyRemoveInode (db : ShardDB) (time : ℕ) (entry : RemoveInodeReq) :
    Checked (ShardDB × ShardResp) :=
  if entry.id.type = .directory then applyRemoveDirectoryInode db time entry.id
  else applyRemoveFileInode db time entry.id

/-- `_applySetDirectoryInfo`. -/
def applySetDirectoryInfo (db : ShardDB) (time : ℕ) (entry : SetDirectoryInfoReq) :
    Checked (ShardDB × ShardResp) := do
  let (batch, dir) ← initiateDirectoryModification db db time true entry.id
  return ({ batch with
    directories := batch.directories.put entry.id ⟨dir.ownerId, dir.mtime, entry.info⟩ }, .done)

/-- `_applyRemoveNonOwnedEdge`. -/
def applyRemoveNonOwnedEdge (cfg : ShardConfig) (db : ShardDB) (time : ℕ)
    (entry : RemoveNonOwnedEdgeReq) : Checked (ShardDB × ShardResp) := do
  let (batch, _) ← initiateDirectoryModification db db time true entry.dirId
  let key : SnapshotEdgeKey := ⟨cfg.edgeName entry.dirId entry.name, entry.creationTime⟩
  match db.snapshotEdges.get key with
  | none => return (batch, .done)
  | some edge =>
    check (edge.targetIdWithOwned.extra = false) .edgeNotFound
    return ({ batch with snapshotEdges := batch.snapshotEdges.delete key }, .done)

/-- `_applySameShardHardFileUnlink`.  The error of opening the directory is not looked at, and
the record that was not read is then used, which takes the process down.  The edge is checked
to be owned, but not to point to `targetId`. -/
def applySameShardHardFileUnlink (cfg : ShardConfig) (db : ShardDB) (time : ℕ)
    (entry : SameShardHardFileUnlinkEntry) : Checked (ShardDB × ShardResp) :=
  match getFile db entry.targetId with
  | .error (.err .fileNotFound) => do
    -- done already if the file is transient
    let _ ← getTransientFile db time true entry.targetId
    return (db, .done)
  | .error e => .error e
  | .ok file =>
    match initiateDirectoryModification db db time true entry.ownerId with
    | .error _ => .error .crash
    | .ok (batch, _) => do
      let key : SnapshotEdgeKey := ⟨cfg.edgeName entry.ownerId entry.name, entry.creationTime⟩
      let edge ← orFail (.err .edgeNotFound) (db.snapshotEdges.get key)
      check (edge.targetIdWithOwned.extra = true) .edgeNotFound
      let body : TransientFileBody := ⟨file.fileSize, time, entry.deadlineTime, .clean, entry.name⟩
      return ({ batch with
        snapshotEdges := batch.snapshotEdges.delete key
        files := batch.files.delete entry.targetId
        transientFiles := batch.transientFiles.put entry.targetId body }, .done)

end TernFS
