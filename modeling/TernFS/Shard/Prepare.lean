/-
# Preparing log entries

How the leader of a shard turns a write request into a log entry (`prepareLogEntry`): the
checks that do not depend on the state of the shard, and the choice of block services.
-/
import TernFS.Core.Crc32c
import TernFS.Shard.Apply

namespace TernFS

open Lib

/-- The leader's view of the block services when it prepares an entry: the answer of
`pickBlockServices` for a location, a storage class, a number of services, a blacklist and a
block size. -/
abbrev PickBlockServices := ℕ → ℕ → ℕ → List BlacklistEntry → ℕ → Checked (List ℕ)

/-- `validName`. -/
def ValidName (name : Bytes) : Prop :=
  name ≠ [] ∧ name ≠ [46] ∧ name ≠ [46, 46] ∧ ∀ b ∈ name, b ≠ 47 ∧ b ≠ 0

instance (name : Bytes) : Decidable (ValidName name) := inferInstanceAs (Decidable (_ ∧ _))

variable (cfg : ShardConfig) (time : ℕ)

/-- `_checkTransientFileCookie`. -/
def checkTransientFileCookie (id : InodeId) (cookie : Bytes) : Checked PUnit := do
  check id.IsFile .typeIsDirectory
  check (cookie = cfg.calcCookie id) .badCookie

/-- The checks shared by the requests on a transient file of this shard. -/
def checkTransientFileRequest (id : InodeId) (cookie : Bytes) : Checked PUnit := do
  check id.IsFile .typeIsDirectory
  check (id.shard = cfg.shid) .badShard
  checkTransientFileCookie cfg id cookie

/-- The checks shared by the requests on a directory of this shard. -/
def checkDirectoryRequest (dirId : InodeId) : Checked PUnit := do
  check (dirId.type = .directory) .typeIsNotDirectory
  check (dirId.shard = cfg.shid) .badShard

/-! ## Files and edges -/

/-- `_prepareConstructFile`. -/
def prepareConstructFile (req : ConstructFileReq) : Checked ConstructFileEntry := do
  check (req.type = InodeId.typeBits .file ∨ req.type = InodeId.typeBits .symlink) .typeIsDirectory
  return ⟨req.type, addU64 time cfg.transientDeadlineInterval, req.note⟩

/-- `_prepareLinkFile`. -/
def prepareLinkFile (req : LinkFileReq) : Checked LinkFileEntry := do
  check (req.ownerId.type = .directory) .typeIsNotDirectory
  check (req.ownerId.shard = cfg.shid ∧ req.fileId.shard = cfg.shid) .badShard
  check (ValidName req.name) .badName
  checkTransientFileCookie cfg req.fileId req.cookie
  return ⟨req.fileId, req.ownerId, req.name⟩

/-- `_prepareSameDirectoryRename`; `dontAllowSameNames` is the template parameter. -/
def prepareSameDirectoryRename (dontAllowSameNames : Bool) (req : SameDirectoryRenameReq) :
    Checked SameDirectoryRenameReq := do
  check (req.dirId.type = .directory) .typeIsNotDirectory
  check (¬ (dontAllowSameNames = true ∧ SameBytes req.oldName req.newName))
    .sameSourceAndDestination
  check (ValidName req.newName) .badName
  check (req.dirId.shard = cfg.shid) .badShard
  return req

/-- `_prepareSoftUnlinkFile`. -/
def prepareSoftUnlinkFile (req : SoftUnlinkFileReq) : Checked SoftUnlinkFileReq := do
  check (req.ownerId.type = .directory) .typeIsNotDirectory
  check req.fileId.IsFile .typeIsDirectory
  check (req.ownerId.shard = cfg.shid) .badShard
  return req

/-- `_prepareCreateDirectoryInode`. -/
def prepareCreateDirectoryInode (req : CreateDirectoryInodeReq) :
    Checked CreateDirectoryInodeReq := do
  check (req.id.shard = cfg.shid) .badShard
  check (req.id.type = .directory ∧ req.ownerId.type = .directory) .typeIsNotDirectory
  return req

/-- `_prepareCreateLockedCurrentEdge`. -/
def prepareCreateLockedCurrentEdge (req : CreateLockedCurrentEdgeReq) :
    Checked CreateLockedCurrentEdgeReq := do
  checkDirectoryRequest cfg req.dirId
  check (ValidName req.name) .badName
  assert (req.targetId ≠ .null)
  return req

/-- `_prepareUnlockCurrentEdge`. -/
def prepareUnlockCurrentEdge (req : UnlockCurrentEdgeReq) : Checked UnlockCurrentEdgeReq := do
  checkDirectoryRequest cfg req.dirId
  return req

/-- `_prepareLockCurrentEdge`. -/
def prepareLockCurrentEdge (req : LockCurrentEdgeReq) : Checked LockCurrentEdgeReq := do
  checkDirectoryRequest cfg req.dirId
  return req

/-- `_prepareRemoveDirectoryOwner`. -/
def prepareRemoveDirectoryOwner (req : RemoveDirectoryOwnerReq) :
    Checked RemoveDirectoryOwnerReq := do
  checkDirectoryRequest cfg req.dirId
  assert (req.dirId ≠ .rootDir)
  return req

/-- `_prepareRemoveInode`. -/
def prepareRemoveInode (req : RemoveInodeReq) : Checked RemoveInodeReq := do
  check (req.id.shard = cfg.shid) .badShard
  check (req.id ≠ .null) .malformedRequest
  check (req.id ≠ .rootDir) .cannotRemoveRootDirectory
  return req

/-- `_prepareSetDirectoryOwner`. -/
def prepareSetDirectoryOwner (req : SetDirectoryOwnerReq) : Checked SetDirectoryOwnerReq := do
  checkDirectoryRequest cfg req.dirId
  check (req.ownerId.type = .directory) .typeIsNotDirectory
  return req

/-- `_prepareSetDirectoryInfo`. -/
def prepareSetDirectoryInfo (req : SetDirectoryInfoReq) : Checked SetDirectoryInfoReq := do
  checkDirectoryRequest cfg req.id
  return req

/-- `_prepareRemoveNonOwnedEdge`; the target of the request is not copied. -/
def prepareRemoveNonOwnedEdge (req : RemoveNonOwnedEdgeReq) : Checked RemoveNonOwnedEdgeReq := do
  checkDirectoryRequest cfg req.dirId
  return { req with targetId := .null }

/-- `_prepareSameShardHardFileUnlink`. -/
def prepareSameShardHardFileUnlink (req : SameShardHardFileUnlinkReq) :
    Checked SameShardHardFileUnlinkEntry := do
  check (req.ownerId.type = .directory) .typeIsNotDirectory
  check req.targetId.IsFile .typeIsDirectory
  check (req.ownerId.shard = cfg.shid ∧ req.targetId.shard = cfg.shid) .badShard
  return ⟨req.ownerId, req.targetId, req.name, req.creationTime, time⟩

/-- `_prepareMakeFileTransient`. -/
def prepareMakeFileTransient (req : MakeFileTransientReq) : Checked MakeFileTransientEntry := do
  check req.id.IsFile .typeIsDirectory
  check (req.id.shard = cfg.shid) .badShard
  return ⟨req.id, time, req.note⟩

/-- `_prepareScrapTransientFile`; symlinks are refused. -/
def prepareScrapTransientFile (req : ScrapTransientFileReq) : Checked ScrapTransientFileEntry := do
  check (req.id.type = .file) .fileIsNotTransient
  check (req.id.shard = cfg.shid) .badShard
  checkTransientFileCookie cfg req.id req.cookie
  return ⟨req.id, time⟩

/-- `_prepareRemoveOwnedSnapshotFileEdge`. -/
def prepareRemoveOwnedSnapshotFileEdge (req : SameShardHardFileUnlinkReq) :
    Checked SameShardHardFileUnlinkReq := do
  check (req.ownerId.type = .directory) .typeIsNotDirectory
  check (req.ownerId.shard = cfg.shid) .badShard
  check req.targetId.IsFile .typeIsDirectory
  return req

/-- `_prepareSetTime`. -/
def prepareSetTime (req : SetTimeReq) : Checked SetTimeReq := do
  check (req.id.type ≠ .directory) .typeIsDirectory
  check (req.id.shard = cfg.shid) .badShard
  return req

/-! ## Spans -/

/-- `_prepareRemoveSpanInitiate`. -/
def prepareRemoveSpanInitiate (req : RemoveSpanInitiateReq) : Checked InodeId := do
  checkTransientFileRequest cfg req.fileId req.cookie
  return req.fileId

/-- `_prepareAddSpanCertify`, also `_prepareRemoveSpanCertify`. -/
def prepareSpanCertify (req : SpanCertifyReq) : Checked SpanCertifyEntry := do
  checkTransientFileRequest cfg req.fileId req.cookie
  return ⟨req.fileId, req.byteOffset, req.proofs⟩

/-- `_prepareAddInlineSpan`.  An empty span must have size 0, but may come with a body. -/
def prepareAddInlineSpan (req : AddInlineSpanReq) : Checked AddInlineSpanEntry := do
  checkTransientFileRequest cfg req.fileId req.cookie
  check (req.storageClass = emptyStorage ∧ req.size = 0 ∨
    req.storageClass = inlineStorage ∧ req.size ≠ 0 ∧ req.body.length ≤ req.size) .badSpanBody
  check (req.byteOffset % ternfsPageSize = 0) .badSpanBody
  let zeros : ℕ := (req.size + 2 ^ 32 - req.body.length) % 2 ^ 32
  check (crc32cZeroExtend (crc32c 0 req.body) zeros = req.crc) .badSpanBody
  return ⟨req.fileId, req.storageClass, req.byteOffset, req.size, req.crc, req.body⟩

/-- The checksum of cells put one after the other. -/
def appendCells (cellSize : ℕ) (crc : ℕ) (cells : List ℕ) : ℕ :=
  cells.foldl (fun crc cell => crc32cAppend crc cell cellSize) crc

/-- The checksum of the exclusive or of cells. -/
def xorCells (cellSize : ℕ) : List ℕ → ℕ
  | [] => 0
  | cell :: cells => cells.foldl (fun crc cell => crc32cXor crc cell cellSize) cell

/-- The stripes of the array of checksums: one row of `blocks` cells each. -/
def AddSpanInitiateReq.stripeCrcs (req : AddSpanInitiateReq) (s : ℕ) : List ℕ :=
  (req.crcs.drop (s * req.parity.blocks)).take req.parity.blocks

/-- The checksums of one stripe are consistent: mirrored cells are the same, and otherwise the
first parity cell is the exclusive or of the data cells. -/
def StripeConsistent (req : AddSpanInitiateReq) (s : ℕ) : Prop :=
  let row := req.stripeCrcs s
  if req.parity.dataBlocks = 1 then ∀ crc ∈ row, crc = row.getD 0 0
  else xorCells req.cellSize (row.take req.parity.dataBlocks) = row.getD req.parity.dataBlocks 0

instance (req : AddSpanInitiateReq) (s : ℕ) : Decidable (StripeConsistent req s) := by
  unfold StripeConsistent
  infer_instance

/-- The checksum of the data of a span: its data cells one after the other, cut or extended to
the size of the span.  The size of the cells is a 32-bit product. -/
def AddSpanInitiateReq.spanCrc (req : AddSpanInitiateReq) : ℕ :=
  let cells := (List.range req.stripes).flatMap fun s =>
    (req.stripeCrcs s).take req.parity.dataBlocks
  let cellBytes : ℕ := req.cellSize * req.stripes * req.parity.dataBlocks % 2 ^ 32
  crc32cZeroExtend (appendCells req.cellSize 0 cells) ((req.size : ℤ) - cellBytes)

/-- `_checkSpanBody`. -/
def CheckSpanBody (req : AddSpanInitiateReq) : Prop :=
  req.parity.Valid ∧ (req.stripes ≠ 0 ∧ req.stripes < maxStripes) ∧ req.size ≤ maximumSpanSize ∧
    req.crcs.length = req.stripes * req.parity.blocks ∧
    (∀ s ∈ List.range req.stripes, StripeConsistent req s) ∧ req.spanCrc = req.crc

instance (req : AddSpanInitiateReq) : Decidable (CheckSpanBody req) :=
  inferInstanceAs (Decidable (_ ∧ _))

/-- `_prepareAddSpanInitiate`. -/
def prepareAddSpanInitiate (pick : PickBlockServices) (locationId : ℕ) (req : AddSpanInitiateReq) :
    Checked AddSpanAtLocationInitiateEntry := do
  checkTransientFileRequest cfg req.fileId req.cookie
  check (req.storageClass ≠ inlineStorage ∧ req.storageClass ≠ emptyStorage) .badSpanBody
  check (req.byteOffset % ternfsPageSize = 0 ∧ req.cellSize % ternfsPageSize = 0) .badSpanBody
  check (CheckSpanBody req) .badSpanBody
  let picked ← pick locationId req.storageClass req.parity.blocks req.blacklist
    (req.cellSize * req.stripes)
  let blockCrc := fun i => appendCells req.cellSize 0
    ((List.range req.stripes).map fun s => (req.stripeCrcs s).getD i 0)
  -- reading a service that was not picked is undefined
  assert (req.parity.blocks ≤ picked.length)
  return {
    locationId := locationId
    fileId := req.fileId
    byteOffset := req.byteOffset
    size := req.size
    crc := req.crc
    storageClass := req.storageClass
    parity := req.parity
    stripes := req.stripes
    cellSize := req.cellSize
    bodyBlocks := (List.range req.parity.blocks).map fun i => ⟨picked.getD i 0, blockCrc i⟩
    bodyStripes := (List.range req.stripes).map fun s =>
      appendCells req.cellSize 0 ((req.stripeCrcs s).take req.parity.dataBlocks) }

/-- The checks shared by the requests that move data between two files. -/
def checkTwoFiles (fileId1 fileId2 : InodeId) : Checked PUnit := do
  check (fileId1.type ≠ .directory ∧ fileId2.type ≠ .directory) .typeIsDirectory
  check (fileId1.shard = cfg.shid ∧ fileId2.shard = cfg.shid) .badShard

/-- `_prepareSwapBlocks`. -/
def prepareSwapBlocks (req : SwapBlocksReq) : Checked SwapBlocksReq := do
  checkTwoFiles cfg req.fileId1 req.fileId2
  check (req.fileId1 ≠ req.fileId2) .sameSourceAndDestination
  return req

/-- `_prepareSwapSpans`. -/
def prepareSwapSpans (req : SwapSpansReq) : Checked SwapSpansReq := do
  checkTwoFiles cfg req.fileId1 req.fileId2
  check (req.fileId1 ≠ req.fileId2) .sameSourceAndDestination
  return req

/-- `_prepareAddSpanLocation`. -/
def prepareAddSpanLocation (req : AddSpanLocationReq) : Checked AddSpanLocationReq := do
  checkTwoFiles cfg req.fileId1 req.fileId2
  check (req.fileId1 ≠ req.fileId2) .sameSourceAndDestination
  return req

/-- `_prepareMoveSpan`. -/
def prepareMoveSpan (req : MoveSpanReq) : Checked MoveSpanReq := do
  checkTwoFiles cfg req.fileId1 req.fileId2
  checkTransientFileCookie cfg req.fileId1 req.cookie1
  checkTransientFileCookie cfg req.fileId2 req.cookie2
  return req

/-! ## Dispatch -/

/-- `prepareLogEntry`, at the given time. -/
def prepareLogEntry (pick : PickBlockServices) (req : ShardReq) : Checked ShardLogEntry := do
  let body ← match req with
    | .constructFile req => .constructFile <$> prepareConstructFile cfg time req
    | .linkFile req => .linkFile <$> prepareLinkFile cfg req
    | .sameDirectoryRename req => .sameDirectoryRename <$> prepareSameDirectoryRename cfg true req
    | .sameDirectoryRenameSnapshot req =>
      .sameDirectoryRenameSnapshot <$> prepareSameDirectoryRename cfg false req
    | .softUnlinkFile req => .softUnlinkFile <$> prepareSoftUnlinkFile cfg req
    | .createDirectoryInode req => .createDirectoryInode <$> prepareCreateDirectoryInode cfg req
    | .createLockedCurrentEdge req =>
      .createLockedCurrentEdge <$> prepareCreateLockedCurrentEdge cfg req
    | .unlockCurrentEdge req => .unlockCurrentEdge <$> prepareUnlockCurrentEdge cfg req
    | .lockCurrentEdge req => .lockCurrentEdge <$> prepareLockCurrentEdge cfg req
    | .removeDirectoryOwner req => .removeDirectoryOwner <$> prepareRemoveDirectoryOwner cfg req
    | .removeInode req => .removeInode <$> prepareRemoveInode cfg req
    | .setDirectoryOwner req => .setDirectoryOwner <$> prepareSetDirectoryOwner cfg req
    | .setDirectoryInfo req => .setDirectoryInfo <$> prepareSetDirectoryInfo cfg req
    | .removeNonOwnedEdge req => .removeNonOwnedEdge <$> prepareRemoveNonOwnedEdge cfg req
    | .sameShardHardFileUnlink req =>
      .sameShardHardFileUnlink <$> prepareSameShardHardFileUnlink cfg time req
    | .removeSpanInitiate req => .removeSpanInitiate <$> prepareRemoveSpanInitiate cfg req
    | .addInlineSpan req => .addInlineSpan <$> prepareAddInlineSpan cfg req
    | .addSpanInitiate req =>
      .addSpanAtLocationInitiate <$> prepareAddSpanInitiate cfg pick defaultLocation req
    | .addSpanInitiateWithReference req _ =>
      .addSpanAtLocationInitiate <$> prepareAddSpanInitiate cfg pick defaultLocation req
    | .addSpanAtLocationInitiate locationId req _ =>
      .addSpanAtLocationInitiate <$> prepareAddSpanInitiate cfg pick locationId req
    | .addSpanCertify req => .addSpanCertify <$> prepareSpanCertify cfg req
    | .makeFileTransient req => .makeFileTransient <$> prepareMakeFileTransient cfg time req
    | .scrapTransientFile req => .scrapTransientFile <$> prepareScrapTransientFile cfg time req
    | .removeSpanCertify req => .removeSpanCertify <$> prepareSpanCertify cfg req
    | .removeOwnedSnapshotFileEdge req =>
      .removeOwnedSnapshotFileEdge <$> prepareRemoveOwnedSnapshotFileEdge cfg req
    | .swapBlocks req => .swapBlocks <$> prepareSwapBlocks cfg req
    | .moveSpan req => .moveSpan <$> prepareMoveSpan cfg req
    | .setTime req => .setTime <$> prepareSetTime cfg req
    | .removeZeroBlockServiceFiles req => pure (.removeZeroBlockServiceFiles req)
    | .swapSpans req => .swapSpans <$> prepareSwapSpans cfg req
    | .addSpanLocation req => .addSpanLocation <$> prepareAddSpanLocation cfg req
  return ⟨time, body⟩

/-! ## Steps of a shard -/

/-- One write request, with what the processes know when it is prepared and applied: the
leader's choice of block services, the cached block services of the replica that applies the
entry, and the time. -/
structure ShardStep where
  time : ℕ
  pick : PickBlockServices
  cache : BlockServicesCache
  req : ShardReq

/-- One request goes through a shard: it is prepared, and if that works the entry is applied.
A request that cannot be prepared changes nothing. -/
def shardStep (db : ShardDB) (step : ShardStep) : Option ShardDB :=
  match prepareLogEntry cfg step.time step.pick step.req with
  | .ok entry =>
    (applyLogEntry cfg step.cache db (addU64 db.lastAppliedLogEntry 1) entry).map Prod.fst
  | .error (.err _) => some db
  | .error .crash => none

end TernFS
