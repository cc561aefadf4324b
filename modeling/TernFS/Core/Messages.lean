/-
# The messages of the protocols

The layouts of the responses of shards and of the messages of the coordinator and of the replicas of
a log (`core/MsgsGen.cpp`), field by field in the order in which they are unpacked.
-/
import TernFS.Lib.Wire
import TernFS.Core.Crypto

namespace TernFS

open Lib

/-- The words that are checked when they are unpacked. -/
inductive WordKind
  | inodeId
  | inodeIdExtra
deriving DecidableEq

/-- `InodeId::unpack` and `InodeIdExtra::unpack` after they have read their word.  The second one
calls `id()`, which asserts that the id is valid before its validity is looked at. -/
def judgeWord : WordKind → ℕ → Except UnpackError PUnit
  | .inodeId, u64 => ensure (InodeId.Valid ⟨u64⟩) .exception
  | .inodeIdExtra, u64 => ensure (InodeId.masked ⟨u64⟩).Valid .assertion

/-- The layout of a type of the protocols. -/
abbrev Layout := Format WordKind

namespace Layout

def u8 : Layout := .scalar 1

def u16 : Layout := .scalar 2

def u32 : Layout := .scalar 4

def u64 : Layout := .scalar 8

def inodeId : Layout := .checked 8 .inodeId

def inodeIdExtra : Layout := .checked 8 .inodeIdExtra

/-- `Crc`: not a number for `unpackList`, which unpacks one after the other. -/
def crc : Layout := .record [("u32", u32)]

def ipPort : Layout := .record [("ip", .fixed 4), ("port", u16)]

def addrsInfo : Layout := .record [("addrs[0]", ipPort), ("addrs[1]", ipPort)]

/-- A container: a kind, and what belongs to messages of the kind. -/
def container (kinds : List (ℕ × Layout)) : Layout :=
  .tagged u8 (fun kind => (kinds.map Prod.fst).idxOf? kind) (kinds.map Prod.snd)

def failureDomain : Layout := .record [("name", .fixed 16)]

def directoryInfoEntry : Layout := .record [("tag", u8), ("body", .bytes)]

def directoryInfo : Layout := .record [("entries", .list 2 directoryInfoEntry)]

/-! ## Responses of a shard -/

def lookupResp : Layout := .record [("targetId", inodeId), ("creationTime", u64)]

def statFileResp : Layout := .record [("mtime", u64), ("atime", u64), ("size", u64)]

def statDirectoryResp : Layout := .record
  [("mtime", u64), ("owner", inodeId), ("info", directoryInfo)]

def currentEdge : Layout := .record
  [("targetId", inodeId), ("nameHash", u64), ("name", .bytes), ("creationTime", u64)]

def readDirResp : Layout := .record [("nextHash", u64), ("results", .list 2 currentEdge)]

def constructFileResp : Layout := .record [("id", inodeId), ("cookie", .fixed 8)]

def addSpanInitiateBlockInfo : Layout := .record
  [("blockServiceAddrs", addrsInfo), ("blockServiceId", u64),
   ("blockServiceFailureDomain", failureDomain), ("blockId", u64), ("certificate", .fixed 8)]

def addSpanInitiateResp : Layout := .record [("blocks", .list 2 addSpanInitiateBlockInfo)]

def addSpanCertifyResp : Layout := .record []

def linkFileResp : Layout := .record [("creationTime", u64)]

def softUnlinkFileResp : Layout := .record [("deleteCreationTime", u64)]

def blockService : Layout := .record [("addrs", addrsInfo), ("id", u64), ("flags", u8)]

def fetchedSpanHeader : Layout := .record
  [("byteOffset", u64), ("size", u32), ("crc", crc), ("storageClass", u8)]

def fetchedInlineSpan : Layout := .record [("body", .bytes)]

def fetchedBlock : Layout := .record [("blockServiceIx", u8), ("blockId", u64), ("crc", crc)]

def fetchedBlocksSpan : Layout := .record
  [("parity", u8), ("stripes", u8), ("cellSize", u32), ("blocks", .list 2 fetchedBlock),
   ("stripesCrc", .list 2 crc)]

/-- `FetchedSpan`: the storage class says what follows the header; it must not be empty. -/
def fetchedSpan : Layout :=
  .tagged fetchedSpanHeader (fun storageClass =>
      if storageClass = emptyStorage then none
      else if storageClass = inlineStorage then some 0 else some 1)
    [fetchedInlineSpan, fetchedBlocksSpan]

def localFileSpansResp : Layout := .record
  [("nextOffset", u64), ("blockServices", .list 2 blockService), ("spans", .list 2 fetchedSpan)]

def sameDirectoryRenameResp : Layout := .record [("newCreationTime", u64)]

def addInlineSpanResp : Layout := .record []

def setTimeResp : Layout := .record []

def fullReadDirCursor : Layout := .record
  [("current", u8), ("startName", .bytes), ("startTime", u64)]

def edge : Layout := .record
  [("current", u8), ("targetId", inodeIdExtra), ("nameHash", u64), ("name", .bytes),
   ("creationTime", u64)]

def fullReadDirResp : Layout := .record [("next", fullReadDirCursor), ("results", .list 2 edge)]

def moveSpanResp : Layout := .record []

def removeNonOwnedEdgeResp : Layout := .record []

def sameShardHardFileUnlinkResp : Layout := .record []

def statTransientFileResp : Layout := .record [("mtime", u64), ("size", u64), ("note", .bytes)]

def shardSnapshotResp : Layout := .record []

def fetchedSpanHeaderFull : Layout := .record
  [("byteOffset", u64), ("size", u32), ("crc", crc), ("isInline", u8)]

def fetchedBlockServices : Layout := .record
  [("locationId", u8), ("storageClass", u8), ("parity", u8), ("stripes", u8), ("cellSize", u32),
   ("blocks", .list 2 fetchedBlock), ("stripesCrc", .list 2 crc)]

def fetchedLocations : Layout := .record [("locations", .list 2 fetchedBlockServices)]

/-- `FetchedFullSpan`. -/
def fetchedFullSpan : Layout :=
  .tagged fetchedSpanHeaderFull (fun isInline => if isInline ≠ 0 then some 0 else some 1)
    [fetchedInlineSpan, fetchedLocations]

def fileSpansResp : Layout := .record
  [("nextOffset", u64), ("blockServices", .list 2 blockService), ("spans", .list 2 fetchedFullSpan)]

def addSpanLocationResp : Layout := .record []

def scrapTransientFileResp : Layout := .record []

def setDirectoryInfoResp : Layout := .record []

def linkEntry : Layout := .record [("id", inodeId), ("ownerId", inodeId), ("time", u64)]

def getLinkEntriesResp : Layout := .record [("entries", .list 2 linkEntry), ("nextIdx", u64)]

def waitStateAppliedResp : Layout := .record []

def visitDirectoriesResp : Layout := .record [("nextId", inodeId), ("ids", .list 2 inodeId)]

def visitFilesResp : Layout := .record [("nextId", inodeId), ("ids", .list 2 inodeId)]

def transientFile : Layout := .record [("id", inodeId), ("cookie", .fixed 8), ("deadlineTime", u64)]

def visitTransientFilesResp : Layout := .record
  [("nextId", inodeId), ("files", .list 2 transientFile)]

def removeSpanInitiateBlockInfo : Layout := .record
  [("blockServiceAddrs", addrsInfo), ("blockServiceId", u64),
   ("blockServiceFailureDomain", failureDomain), ("blockServiceFlags", u8), ("blockId", u64),
   ("certificate", .fixed 8)]

def removeSpanInitiateResp : Layout := .record
  [("byteOffset", u64), ("blocks", .list 2 removeSpanInitiateBlockInfo)]

def removeSpanCertifyResp : Layout := .record []

def swapBlocksResp : Layout := .record []

def blockServiceFilesResp : Layout := .record [("fileIds", .list 2 inodeId)]

def removeInodeResp : Layout := .record []

def addSpanInitiateWithReferenceResp : Layout := .record [("resp", addSpanInitiateResp)]

def removeZeroBlockServiceFilesResp : Layout := .record
  [("removed", u64), ("nextBlockService", u64), ("nextFile", inodeId)]

def swapSpansResp : Layout := .record []

def sameDirectoryRenameSnapshotResp : Layout := .record [("newCreationTime", u64)]

def addSpanAtLocationInitiateResp : Layout := .record [("resp", addSpanInitiateResp)]

def createDirectoryInodeResp : Layout := .record [("mtime", u64)]

def setDirectoryOwnerResp : Layout := .record []

def removeDirectoryOwnerResp : Layout := .record []

def createLockedCurrentEdgeResp : Layout := .record [("creationTime", u64)]

def lockCurrentEdgeResp : Layout := .record []

def unlockCurrentEdgeResp : Layout := .record []

def removeOwnedSnapshotFileEdgeResp : Layout := .record []

def makeFileTransientResp : Layout := .record []

def shardRespContainer : Layout := container
  [(0, u16), (1, lookupResp), (2, statFileResp), (4, statDirectoryResp), (5, readDirResp),
   (6, constructFileResp), (7, addSpanInitiateResp), (8, addSpanCertifyResp), (9, linkFileResp),
   (10, softUnlinkFileResp), (11, localFileSpansResp), (12, sameDirectoryRenameResp),
   (16, addInlineSpanResp), (17, setTimeResp), (115, fullReadDirResp), (123, moveSpanResp),
   (116, removeNonOwnedEdgeResp), (117, sameShardHardFileUnlinkResp), (3, statTransientFileResp),
   (18, shardSnapshotResp), (20, fileSpansResp), (21, addSpanLocationResp),
   (22, scrapTransientFileResp), (13, setDirectoryInfoResp), (14, getLinkEntriesResp),
   (15, waitStateAppliedResp), (112, visitDirectoriesResp), (113, visitFilesResp),
   (114, visitTransientFilesResp), (118, removeSpanInitiateResp), (119, removeSpanCertifyResp),
   (120, swapBlocksResp), (121, blockServiceFilesResp), (122, removeInodeResp),
   (124, addSpanInitiateWithReferenceResp), (125, removeZeroBlockServiceFilesResp),
   (126, swapSpansResp), (127, sameDirectoryRenameSnapshotResp),
   (19, addSpanAtLocationInitiateResp), (128, createDirectoryInodeResp),
   (129, setDirectoryOwnerResp), (137, removeDirectoryOwnerResp),
   (130, createLockedCurrentEdgeResp), (131, lockCurrentEdgeResp), (132, unlockCurrentEdgeResp),
   (134, removeOwnedSnapshotFileEdgeResp), (135, makeFileTransientResp)]

/-! ## Requests to the coordinator -/

def makeDirectoryReq : Layout := .record [("ownerId", inodeId), ("name", .bytes)]

def renameFileReq : Layout := .record
  [("targetId", inodeId), ("oldOwnerId", inodeId), ("oldName", .bytes), ("oldCreationTime", u64),
   ("newOwnerId", inodeId), ("newName", .bytes)]

def softUnlinkDirectoryReq : Layout := .record
  [("ownerId", inodeId), ("targetId", inodeId), ("creationTime", u64), ("name", .bytes)]

def renameDirectoryReq : Layout := renameFileReq

def crossShardHardUnlinkFileReq : Layout := .record
  [("ownerId", inodeId), ("targetId", inodeId), ("name", .bytes), ("creationTime", u64)]

def hardUnlinkDirectoryReq : Layout := .record [("dirId", inodeId)]

def cdcSnapshotReq : Layout := .record [("snapshotId", u64)]

def cdcReqContainer : Layout := container
  [(1, makeDirectoryReq), (2, renameFileReq), (3, softUnlinkDirectoryReq), (4, renameDirectoryReq),
   (6, crossShardHardUnlinkFileReq), (5, hardUnlinkDirectoryReq), (7, cdcSnapshotReq)]

/-! ## Responses of the coordinator -/

def makeDirectoryResp : Layout := .record [("id", inodeId), ("creationTime", u64)]

def renameFileResp : Layout := .record [("creationTime", u64)]

def softUnlinkDirectoryResp : Layout := .record []

def renameDirectoryResp : Layout := .record [("creationTime", u64)]

def crossShardHardUnlinkFileResp : Layout := .record []

def hardUnlinkDirectoryResp : Layout := .record []

def cdcSnapshotResp : Layout := .record []

def cdcRespContainer : Layout := container
  [(0, u16), (1, makeDirectoryResp), (2, renameFileResp), (3, softUnlinkDirectoryResp),
   (4, renameDirectoryResp), (6, crossShardHardUnlinkFileResp), (5, hardUnlinkDirectoryResp),
   (7, cdcSnapshotResp)]

/-! ## Requests between replicas -/

def logWriteReq : Layout := .record
  [("token", u64), ("lastReleased", u64), ("idx", u64), ("value", .list 2 u8)]

def releaseReq : Layout := .record [("token", u64), ("lastReleased", u64)]

def logReadReq : Layout := .record [("idx", u64)]

def newLeaderReq : Layout := .record [("nomineeToken", u64)]

def newLeaderConfirmReq : Layout := .record [("nomineeToken", u64), ("releasedIdx", u64)]

def logRecoveryReadReq : Layout := .record [("nomineeToken", u64), ("idx", u64)]

def logRecoveryWriteReq : Layout := .record
  [("nomineeToken", u64), ("idx", u64), ("value", .list 2 u8)]

def logReqContainer : Layout := container
  [(1, logWriteReq), (2, releaseReq), (3, logReadReq), (4, newLeaderReq), (5, newLeaderConfirmReq),
   (6, logRecoveryReadReq), (7, logRecoveryWriteReq)]

/-! ## Responses between replicas -/

def logWriteResp : Layout := .record [("result", u16)]

def releaseResp : Layout := .record [("result", u16)]

def logReadResp : Layout := .record [("result", u16), ("value", .list 2 u8)]

def newLeaderResp : Layout := .record [("result", u16), ("lastReleased", u64)]

def newLeaderConfirmResp : Layout := .record [("result", u16)]

def logRecoveryReadResp : Layout := .record [("result", u16), ("value", .list 2 u8)]

def logRecoveryWriteResp : Layout := .record [("result", u16)]

def logRespContainer : Layout := container
  [(0, u16), (1, logWriteResp), (2, releaseResp), (3, logReadResp), (4, newLeaderResp),
   (5, newLeaderConfirmResp), (6, logRecoveryReadResp), (7, logRecoveryWriteResp)]

/-- `ShardCheckPointedResp`. -/
def shardCheckPointedResp : Layout := .record [("checkPointIdx", u64), ("resp", shardRespContainer)]

end Layout

end TernFS
