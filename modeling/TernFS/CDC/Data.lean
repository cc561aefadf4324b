/-
# Transactions of the cross-directory coordinator

The requests that clients send to the coordinator (CDC), the state that it keeps for each of its
transactions (`cdc/CDCDBData.hpp`), and what a transaction asks for when it is advanced: a request
to a shard, or its end.
-/
import TernFS.Shard.Apply
import TernFS.Shard.Reads

namespace TernFS

open Lib

/-! ## Requests and responses -/

/-- `MakeDirectoryReq`. -/
structure MakeDirectoryReq where
  ownerId : InodeId
  name : Bytes
deriving DecidableEq

/-- `RenameFileReq`, also `RenameDirectoryReq`. -/
structure RenameReq where
  targetId : InodeId
  oldOwnerId : InodeId
  oldName : Bytes
  oldCreationTime : ℕ
  newOwnerId : InodeId
  newName : Bytes
deriving DecidableEq

/-- `SoftUnlinkDirectoryReq`. -/
structure SoftUnlinkDirectoryReq where
  ownerId : InodeId
  targetId : InodeId
  creationTime : ℕ
  name : Bytes
deriving DecidableEq

/-- `HardUnlinkDirectoryReq`. -/
structure HardUnlinkDirectoryReq where
  dirId : InodeId
deriving DecidableEq

/-- `CrossShardHardUnlinkFileReq`. -/
structure CrossShardHardUnlinkFileReq where
  ownerId : InodeId
  targetId : InodeId
  name : Bytes
  creationTime : ℕ
deriving DecidableEq

/-- `CDCReqContainer`. -/
inductive CDCReq
  | makeDirectory (req : MakeDirectoryReq)
  | hardUnlinkDirectory (req : HardUnlinkDirectoryReq)
  | renameFile (req : RenameReq)
  | softUnlinkDirectory (req : SoftUnlinkDirectoryReq)
  | renameDirectory (req : RenameReq)
  | crossShardHardUnlinkFile (req : CrossShardHardUnlinkFileReq)
deriving DecidableEq

/-- The successful responses of the coordinator (`CDCRespContainer`). -/
inductive CDCResp
  | makeDirectory (id : InodeId) (creationTime : ℕ)
  | hardUnlinkDirectory
  | renameFile (creationTime : ℕ)
  | softUnlinkDirectory
  | renameDirectory (creationTime : ℕ)
  | crossShardHardUnlinkFile
deriving DecidableEq

instance shards_ne_zero : NeZero 256 := ⟨by decide⟩

/-- The shard that holds an inode, as an index. -/
def InodeId.shardId (x : InodeId) : Fin 256 := ⟨x.shard, Nat.mod_lt _ (by decide)⟩

/-- The requests that the coordinator sends to shards. -/
inductive CDCShardReq
  | read (req : ShardReadReq)
  | write (req : ShardReq)
deriving DecidableEq

/-- What the coordinator gets back from a shard.  A request that is not answered in time is
answered with the error `timeout`. -/
abbrev ShardResult := Except TernError ShardResp

/-! ## States of transactions -/

/-- `MakeDirectoryStep`, with `TXN_START`. -/
inductive MakeDirectoryStep
  | start | lookup | createDir | lookupOldCreationTime | createLockedEdge | unlockEdge | rollback
deriving DecidableEq

/-- `MakeDirectoryState`; no exit error is `NO_ERROR`. -/
structure MakeDirectoryState where
  dirId : InodeId := .null
  oldCreationTime : ℕ := 0
  creationTime : ℕ := 0
  exitError : Option TernError := none
deriving DecidableEq

/-- `HardUnlinkDirectoryStep`, with `TXN_START`. -/
inductive HardUnlinkDirectoryStep
  | start | removeInode
deriving DecidableEq

/-- `RenameFileStep`, with `TXN_START`. -/
inductive RenameFileStep
  | start | lockOldEdge | lookupOldCreationTime | createNewLockedEdge | unlockNewEdge
  | unlockOldEdge | rollback
deriving DecidableEq

/-- `RenameFileState`, also `RenameDirectoryState`. -/
structure RenameState where
  newOldCreationTime : ℕ := 0
  newCreationTime : ℕ := 0
  exitError : Option TernError := none
deriving DecidableEq

/-- `SoftUnlinkDirectoryStep`, with `TXN_START`. -/
inductive SoftUnlinkDirectoryStep
  | start | lockEdge | stat | removeOwner | unlockEdge | rollback
deriving DecidableEq

/-- `SoftUnlinkDirectoryState`. -/
structure SoftUnlinkDirectoryState where
  statDirId : InodeId := .null
  exitError : Option TernError := none
deriving DecidableEq

/-- `RenameDirectoryStep`, with `TXN_START`. -/
inductive RenameDirectoryStep
  | start | lockOldEdge | lookupOldCreationTime | createLockedNewEdge | unlockNewEdge
  | unlockOldEdge | setOwner | rollback
deriving DecidableEq

/-- `CrossShardHardUnlinkFileStep`, with `TXN_START`. -/
inductive CrossShardHardUnlinkFileStep
  | start | removeEdge | makeTransient
deriving DecidableEq

/-- `TxnState`: the step of a transaction and what it has to remember. -/
inductive TxnState
  | makeDirectory (step : MakeDirectoryStep) (state : MakeDirectoryState)
  | hardUnlinkDirectory (step : HardUnlinkDirectoryStep)
  | renameFile (step : RenameFileStep) (state : RenameState)
  | softUnlinkDirectory (step : SoftUnlinkDirectoryStep) (state : SoftUnlinkDirectoryState)
  | renameDirectory (step : RenameDirectoryStep) (state : RenameState)
  | crossShardHardUnlinkFile (step : CrossShardHardUnlinkFileStep)
deriving DecidableEq

/-- `TxnState::start`. -/
def CDCReq.startState : CDCReq → TxnState
  | makeDirectory _ => .makeDirectory .start {}
  | hardUnlinkDirectory _ => .hardUnlinkDirectory .start
  | renameFile _ => .renameFile .start {}
  | softUnlinkDirectory _ => .softUnlinkDirectory .start {}
  | renameDirectory _ => .renameDirectory .start {}
  | crossShardHardUnlinkFile _ => .crossShardHardUnlinkFile .start

/-! ## What a transaction asks for -/

/-- What a finished transaction writes to the map of parents. -/
inductive ParentWrite
  | keep
  | put (dirId parent : InodeId)
  | delete (dirId : InodeId)
deriving DecidableEq

/-- How a machine leaves `StateMachineEnv` when it is resumed: with a request to a shard and the
state to persist (`needsShard`), or finished.  The shards answer a repeated request under the id
of the first copy. -/
inductive Outcome
  | needsShard (state : TxnState) (shid : Fin 256) (repeated : Bool) (req : CDCShardReq)
  | finish (resp : CDCResp) (parent : ParentWrite)
  | finishWithError (err : TernError)
deriving DecidableEq

/-- `StateMachineEnv::finishWithError` with the error that a rollback has kept; `NO_ERROR` fails
an assertion. -/
def finishWithExitError (err : Option TernError) : Option Outcome := err.map .finishWithError

/-- What machines read and write of the database of the coordinator. -/
structure CDCEnv where
  nextDirectoryId : InodeId
  parents : SortedStore InodeId InodeId

/-- `_initDbV0`. -/
def CDCEnv.init : CDCEnv := ⟨⟨InodeId.rootDir.u64 + 1⟩, .empty⟩

/-- `StateMachineEnv::nextDirectoryId`: the id and the new counter, which has to be valid. -/
def CDCEnv.allocateDirectoryId (env : CDCEnv) : Option (InodeId × CDCEnv) :=
  let next : InodeId := ⟨addU64 env.nextDirectoryId.u64 1⟩
  if next.Valid then some (env.nextDirectoryId, { env with nextDirectoryId := next }) else none

/-- Writes to the map of parents. -/
def CDCEnv.write (env : CDCEnv) : ParentWrite → CDCEnv
  | .keep => env
  | .put dirId parent => { env with parents := env.parents.put dirId parent }
  | .delete dirId => { env with parents := env.parents.delete dirId }

end TernFS
