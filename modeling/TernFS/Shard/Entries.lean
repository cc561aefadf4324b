/-
# Requests, log entries and responses of a shard

The write requests a shard accepts, the log entries they are turned into and the responses
that applying an entry produces (`go/msgs/msgs.go`, generated into `core/MsgsGen.hpp`).
Where a log entry has exactly the fields of its request the entry type is the request type.
-/
import TernFS.Shard.Data

namespace TernFS

/-! ## Requests and entries about files and edges -/

/-- `ConstructFileReq`; the type is a raw byte. -/
structure ConstructFileReq where
  type : ℕ
  note : Bytes
deriving DecidableEq

/-- `ConstructFileEntry`. -/
structure ConstructFileEntry where
  type : ℕ
  deadlineTime : ℕ
  note : Bytes
deriving DecidableEq

/-- `LinkFileReq`. -/
structure LinkFileReq where
  fileId : InodeId
  cookie : Bytes
  ownerId : InodeId
  name : Bytes
deriving DecidableEq

/-- `LinkFileEntry`. -/
structure LinkFileEntry where
  fileId : InodeId
  ownerId : InodeId
  name : Bytes
deriving DecidableEq

/-- `SameDirectoryRenameReq`, also the shape of `SameDirectoryRenameSnapshotReq`. -/
structure SameDirectoryRenameReq where
  targetId : InodeId
  dirId : InodeId
  oldName : Bytes
  oldCreationTime : ℕ
  newName : Bytes
deriving DecidableEq

/-- `SoftUnlinkFileReq`. -/
structure SoftUnlinkFileReq where
  ownerId : InodeId
  fileId : InodeId
  name : Bytes
  creationTime : ℕ
deriving DecidableEq

/-- `CreateDirectoryInodeReq`. -/
structure CreateDirectoryInodeReq where
  id : InodeId
  ownerId : InodeId
  info : DirectoryInfo
deriving DecidableEq

/-- `CreateLockedCurrentEdgeReq`. -/
structure CreateLockedCurrentEdgeReq where
  dirId : InodeId
  name : Bytes
  targetId : InodeId
  oldCreationTime : ℕ
deriving DecidableEq

/-- `UnlockCurrentEdgeReq`. -/
structure UnlockCurrentEdgeReq where
  dirId : InodeId
  name : Bytes
  creationTime : ℕ
  targetId : InodeId
  wasMoved : Bool
deriving DecidableEq

/-- `LockCurrentEdgeReq`. -/
structure LockCurrentEdgeReq where
  dirId : InodeId
  targetId : InodeId
  creationTime : ℕ
  name : Bytes
deriving DecidableEq

/-- `RemoveDirectoryOwnerReq`. -/
structure RemoveDirectoryOwnerReq where
  dirId : InodeId
  info : DirectoryInfo
deriving DecidableEq

/-- `RemoveInodeReq`. -/
structure RemoveInodeReq where
  id : InodeId
deriving DecidableEq

/-- `SetDirectoryOwnerReq`. -/
structure SetDirectoryOwnerReq where
  dirId : InodeId
  ownerId : InodeId
deriving DecidableEq

/-- `SetDirectoryInfoReq`. -/
structure SetDirectoryInfoReq where
  id : InodeId
  info : DirectoryInfo
deriving DecidableEq

/-- `RemoveNonOwnedEdgeReq`. -/
structure RemoveNonOwnedEdgeReq where
  dirId : InodeId
  targetId : InodeId
  name : Bytes
  creationTime : ℕ
deriving DecidableEq

/-- `SameShardHardFileUnlinkReq`, also the shape of `RemoveOwnedSnapshotFileEdgeReq`. -/
structure SameShardHardFileUnlinkReq where
  ownerId : InodeId
  targetId : InodeId
  name : Bytes
  creationTime : ℕ
deriving DecidableEq

/-- `SameShardHardFileUnlinkEntry`. -/
structure SameShardHardFileUnlinkEntry where
  ownerId : InodeId
  targetId : InodeId
  name : Bytes
  creationTime : ℕ
  deadlineTime : ℕ
deriving DecidableEq

/-- `MakeFileTransientReq`. -/
structure MakeFileTransientReq where
  id : InodeId
  note : Bytes
deriving DecidableEq

/-- `MakeFileTransientEntry`. -/
structure MakeFileTransientEntry where
  id : InodeId
  deadlineTime : ℕ
  note : Bytes
deriving DecidableEq

/-- `ScrapTransientFileReq`. -/
structure ScrapTransientFileReq where
  id : InodeId
  cookie : Bytes
deriving DecidableEq

/-- `ScrapTransientFileEntry`. -/
structure ScrapTransientFileEntry where
  id : InodeId
  deadlineTime : ℕ
deriving DecidableEq

/-- `SetTimeReq`; the most significant bit of a time says whether it is to be set. -/
structure SetTimeReq where
  id : InodeId
  mtime : ℕ
  atime : ℕ
deriving DecidableEq

/-! ## Requests and entries about spans -/

/-- `RemoveSpanInitiateReq`. -/
structure RemoveSpanInitiateReq where
  fileId : InodeId
  cookie : Bytes
deriving DecidableEq

/-- `AddInlineSpanReq`. -/
structure AddInlineSpanReq where
  fileId : InodeId
  cookie : Bytes
  storageClass : ℕ
  byteOffset : ℕ
  size : ℕ
  crc : ℕ
  body : Bytes
deriving DecidableEq

/-- `AddInlineSpanEntry`. -/
structure AddInlineSpanEntry where
  fileId : InodeId
  storageClass : ℕ
  byteOffset : ℕ
  size : ℕ
  crc : ℕ
  body : Bytes
deriving DecidableEq

/-- `BlacklistEntry`. -/
structure BlacklistEntry where
  failureDomain : Bytes
  blockService : ℕ
deriving DecidableEq

/-- `AddSpanInitiateReq`. -/
structure AddSpanInitiateReq where
  fileId : InodeId
  cookie : Bytes
  byteOffset : ℕ
  size : ℕ
  crc : ℕ
  storageClass : ℕ
  blacklist : List BlacklistEntry
  parity : Parity
  stripes : ℕ
  cellSize : ℕ
  crcs : List ℕ
deriving DecidableEq

/-- `EntryNewBlockInfo`. -/
structure EntryNewBlockInfo where
  blockServiceId : ℕ
  crc : ℕ
deriving DecidableEq

/-- `AddSpanAtLocationInitiateEntry`; the flag `withReference` only picks the shape of the
response and is left out. -/
structure AddSpanAtLocationInitiateEntry where
  locationId : ℕ
  fileId : InodeId
  byteOffset : ℕ
  size : ℕ
  crc : ℕ
  storageClass : ℕ
  parity : Parity
  stripes : ℕ
  cellSize : ℕ
  bodyBlocks : List EntryNewBlockInfo
  bodyStripes : List ℕ
deriving DecidableEq

/-- `BlockProof`. -/
structure BlockProof where
  blockId : ℕ
  proof : Bytes
deriving DecidableEq

/-- `AddSpanCertifyReq`, also the shape of `RemoveSpanCertifyReq`. -/
structure SpanCertifyReq where
  fileId : InodeId
  cookie : Bytes
  byteOffset : ℕ
  proofs : List BlockProof
deriving DecidableEq

/-- `AddSpanCertifyEntry`, also the shape of `RemoveSpanCertifyEntry`. -/
structure SpanCertifyEntry where
  fileId : InodeId
  byteOffset : ℕ
  proofs : List BlockProof
deriving DecidableEq

/-- `SwapBlocksReq`. -/
structure SwapBlocksReq where
  fileId1 : InodeId
  byteOffset1 : ℕ
  blockId1 : ℕ
  fileId2 : InodeId
  byteOffset2 : ℕ
  blockId2 : ℕ
deriving DecidableEq

/-- `SwapSpansReq`. -/
structure SwapSpansReq where
  fileId1 : InodeId
  byteOffset1 : ℕ
  blocks1 : List ℕ
  fileId2 : InodeId
  byteOffset2 : ℕ
  blocks2 : List ℕ
deriving DecidableEq

/-- `AddSpanLocationReq`. -/
structure AddSpanLocationReq where
  fileId1 : InodeId
  byteOffset1 : ℕ
  blocks1 : List ℕ
  fileId2 : InodeId
  byteOffset2 : ℕ
deriving DecidableEq

/-- `MoveSpanReq`. -/
structure MoveSpanReq where
  spanSize : ℕ
  fileId1 : InodeId
  byteOffset1 : ℕ
  cookie1 : Bytes
  fileId2 : InodeId
  byteOffset2 : ℕ
  cookie2 : Bytes
deriving DecidableEq

/-- `RemoveZeroBlockServiceFilesReq`. -/
structure RemoveZeroBlockServiceFilesReq where
  startBlockService : ℕ
  startFile : InodeId
deriving DecidableEq

/-! ## Containers -/

/-- The write requests (`ShardReqContainer`).  The three requests that add a block span differ
in their location, and in a reference file that is not read. -/
inductive ShardReq
  | constructFile (req : ConstructFileReq)
  | linkFile (req : LinkFileReq)
  | sameDirectoryRename (req : SameDirectoryRenameReq)
  | sameDirectoryRenameSnapshot (req : SameDirectoryRenameReq)
  | softUnlinkFile (req : SoftUnlinkFileReq)
  | createDirectoryInode (req : CreateDirectoryInodeReq)
  | createLockedCurrentEdge (req : CreateLockedCurrentEdgeReq)
  | unlockCurrentEdge (req : UnlockCurrentEdgeReq)
  | lockCurrentEdge (req : LockCurrentEdgeReq)
  | removeDirectoryOwner (req : RemoveDirectoryOwnerReq)
  | removeInode (req : RemoveInodeReq)
  | setDirectoryOwner (req : SetDirectoryOwnerReq)
  | setDirectoryInfo (req : SetDirectoryInfoReq)
  | removeNonOwnedEdge (req : RemoveNonOwnedEdgeReq)
  | sameShardHardFileUnlink (req : SameShardHardFileUnlinkReq)
  | removeSpanInitiate (req : RemoveSpanInitiateReq)
  | addInlineSpan (req : AddInlineSpanReq)
  | addSpanInitiate (req : AddSpanInitiateReq)
  | addSpanInitiateWithReference (req : AddSpanInitiateReq) (reference : InodeId)
  | addSpanAtLocationInitiate (locationId : ℕ) (req : AddSpanInitiateReq) (reference : InodeId)
  | addSpanCertify (req : SpanCertifyReq)
  | makeFileTransient (req : MakeFileTransientReq)
  | scrapTransientFile (req : ScrapTransientFileReq)
  | removeSpanCertify (req : SpanCertifyReq)
  | removeOwnedSnapshotFileEdge (req : SameShardHardFileUnlinkReq)
  | swapBlocks (req : SwapBlocksReq)
  | moveSpan (req : MoveSpanReq)
  | setTime (req : SetTimeReq)
  | removeZeroBlockServiceFiles (req : RemoveZeroBlockServiceFilesReq)
  | swapSpans (req : SwapSpansReq)
  | addSpanLocation (req : AddSpanLocationReq)
deriving DecidableEq

/-- `isPrivilegedRequestKind`: the requests only the coordinator may send. -/
def ShardReq.Privileged : ShardReq → Prop
  | createDirectoryInode _ | setDirectoryOwner _ | createLockedCurrentEdge _ | lockCurrentEdge _
  | unlockCurrentEdge _ | removeOwnedSnapshotFileEdge _ | makeFileTransient _
  | removeDirectoryOwner _ => True
  | _ => False

instance (req : ShardReq) : Decidable req.Privileged := by
  induction req using ShardReq.casesOn <;> dsimp only [ShardReq.Privileged] <;> infer_instance

/-- The log entries that requests are turned into (`ShardLogEntryContainer`). -/
inductive ShardLogEntryBody
  | constructFile (entry : ConstructFileEntry)
  | linkFile (entry : LinkFileEntry)
  | sameDirectoryRename (entry : SameDirectoryRenameReq)
  | sameDirectoryRenameSnapshot (entry : SameDirectoryRenameReq)
  | softUnlinkFile (entry : SoftUnlinkFileReq)
  | createDirectoryInode (entry : CreateDirectoryInodeReq)
  | createLockedCurrentEdge (entry : CreateLockedCurrentEdgeReq)
  | unlockCurrentEdge (entry : UnlockCurrentEdgeReq)
  | lockCurrentEdge (entry : LockCurrentEdgeReq)
  | removeDirectoryOwner (entry : RemoveDirectoryOwnerReq)
  | removeInode (entry : RemoveInodeReq)
  | setDirectoryOwner (entry : SetDirectoryOwnerReq)
  | setDirectoryInfo (entry : SetDirectoryInfoReq)
  | removeNonOwnedEdge (entry : RemoveNonOwnedEdgeReq)
  | sameShardHardFileUnlink (entry : SameShardHardFileUnlinkEntry)
  | removeSpanInitiate (fileId : InodeId)
  | addInlineSpan (entry : AddInlineSpanEntry)
  | addSpanAtLocationInitiate (entry : AddSpanAtLocationInitiateEntry)
  | addSpanCertify (entry : SpanCertifyEntry)
  | makeFileTransient (entry : MakeFileTransientEntry)
  | scrapTransientFile (entry : ScrapTransientFileEntry)
  | removeSpanCertify (entry : SpanCertifyEntry)
  | removeOwnedSnapshotFileEdge (entry : SameShardHardFileUnlinkReq)
  | swapBlocks (entry : SwapBlocksReq)
  | moveSpan (entry : MoveSpanReq)
  | setTime (entry : SetTimeReq)
  | removeZeroBlockServiceFiles (entry : RemoveZeroBlockServiceFilesReq)
  | swapSpans (entry : SwapSpansReq)
  | addSpanLocation (entry : AddSpanLocationReq)
  | heartbeat
deriving DecidableEq

/-- `ShardLogEntry`. -/
structure ShardLogEntry where
  time : ℕ
  body : ShardLogEntryBody
deriving DecidableEq

/-! ## Responses -/

/-- `AddSpanInitiateBlockInfo`, also `RemoveSpanInitiateBlockInfo`, which adds the flags of the
block service. -/
structure BlockInfo where
  blockServiceAddrs : Bytes
  blockServiceId : ℕ
  blockServiceFailureDomain : Bytes
  blockServiceFlags : ℕ
  blockId : ℕ
  certificate : Bytes
deriving DecidableEq

/-- The successful responses (`ShardRespContainer`); `done` stands for the responses without
fields.  Of the edges that `FullReadDir` finds, only the creation times are kept. -/
inductive ShardResp
  | constructFile (id : InodeId) (cookie : Bytes)
  | linkFile (creationTime : ℕ)
  | sameDirectoryRename (newCreationTime : ℕ)
  | sameDirectoryRenameSnapshot (newCreationTime : ℕ)
  | softUnlinkFile (deleteCreationTime : ℕ)
  | createDirectoryInode (mtime : ℕ)
  | createLockedCurrentEdge (creationTime : ℕ)
  | removeSpanInitiate (byteOffset : ℕ) (blocks : List BlockInfo)
  | addSpanInitiate (blocks : List BlockInfo)
  | removeZeroBlockServiceFiles (removed nextBlockService : ℕ) (nextFile : InodeId)
  | lookup (targetId : InodeId) (creationTime : ℕ)
  | fullReadDir (creationTimes : List ℕ)
  | statDirectory (mtime : ℕ) (owner : InodeId) (info : DirectoryInfo)
  | done
deriving DecidableEq

end TernFS
