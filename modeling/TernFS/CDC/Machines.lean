/-
# The state machines of the coordinator

The six kinds of transactions (`cdc/CDCDB.cpp`).  A machine is started, and then resumed with the
response to the request that it has sent, or without one when the coordinator comes up again.
Each function of the source that sends a request is a function to `Outcome`, and each function that
handles a response is one to `Option Outcome`: `none` is a failed `ALWAYS_ASSERT`, or the accessor
of a response that is read on a response of another kind.
-/
import TernFS.CDC.Data

namespace TernFS

open Lib

/-- `createCurrentLockedEdgeRetry`. -/
def createCurrentLockedEdgeRetry (err : TernError) : Bool :=
  err = .timeout || err = .mtimeIsTooRecent || err = .moreRecentSnapshotEdge ||
    err = .moreRecentCurrentEdge

/-! ## `MakeDirectoryStateMachine` -/

namespace MakeDirectory

variable (req : MakeDirectoryReq) (state : MakeDirectoryState)

/-- `lookup`. -/
def lookup (repeated : Bool) : Outcome :=
  .needsShard (.makeDirectory .lookup state) req.ownerId.shardId repeated
    (.read (.lookup req.ownerId req.name))

/-- `createDirectoryInode`. -/
def createDirectoryInode (repeated : Bool) : Outcome :=
  .needsShard (.makeDirectory .createDir state) state.dirId.shardId repeated
    (.write (.createDirectoryInode ⟨state.dirId, req.ownerId, []⟩))

/-- `lookupOldCreationTime`. -/
def lookupOldCreationTime (repeated : Bool) : Outcome :=
  .needsShard (.makeDirectory .lookupOldCreationTime state) req.ownerId.shardId repeated
    (.read (.fullReadDir req.ownerId req.name))

/-- `createLockedEdge`. -/
def createLockedEdge (repeated : Bool) : Outcome :=
  .needsShard (.makeDirectory .createLockedEdge state) req.ownerId.shardId repeated
    (.write (.createLockedCurrentEdge
      { dirId := req.ownerId, name := req.name, targetId := state.dirId
        oldCreationTime := state.oldCreationTime }))

/-- `unlockEdge`. -/
def unlockEdge (repeated : Bool) : Outcome :=
  .needsShard (.makeDirectory .unlockEdge state) req.ownerId.shardId repeated
    (.write (.unlockCurrentEdge
      { dirId := req.ownerId, name := req.name, targetId := state.dirId, wasMoved := false
        creationTime := state.creationTime }))

/-- `rollback`. -/
def rollback (repeated : Bool) : Outcome :=
  .needsShard (.makeDirectory .rollback state) state.dirId.shardId repeated
    (.write (.removeDirectoryOwner ⟨state.dirId, defaultDirectoryInfo⟩))

/-- `afterLookup`. -/
def afterLookup : ShardResult → Option Outcome
  | .error .timeout => some (lookup req state true)
  | .error .directoryNotFound => some (.finishWithError .directoryNotFound)
  | .error .nameNotFound => some (createDirectoryInode req state false)
  | .ok (.lookup targetId creationTime) =>
    if targetId.type = .directory then some (.finish (.makeDirectory targetId creationTime) .keep)
    else some (.finishWithError .cannotOverrideName)
  | _ => none

/-- `afterCreateDirectoryInode`. -/
def afterCreateDirectoryInode : ShardResult → Option Outcome
  | .error .timeout => some (createDirectoryInode req state true)
  | .ok _ => some (lookupOldCreationTime req state false)
  | _ => none

/-- `afterLookupOldCreationTime`. -/
def afterLookupOldCreationTime : ShardResult → Option Outcome
  | .error .timeout => some (lookupOldCreationTime req state true)
  | .error .directoryNotFound =>
    some (rollback { state with exitError := some .directoryNotFound } false)
  | .ok (.fullReadDir []) => some (createLockedEdge req { state with oldCreationTime := 0 } false)
  | .ok (.fullReadDir [time]) =>
    some (createLockedEdge req { state with oldCreationTime := time } false)
  | _ => none

/-- `afterCreateLockedEdge`. -/
def afterCreateLockedEdge : ShardResult → Option Outcome
  | .error err =>
    if createCurrentLockedEdgeRetry err then some (createLockedEdge req state true)
    else if err = .cannotOverrideName then
      some (rollback { state with exitError := some err } false)
    else if err = .mismatchingCreationTime then some (lookupOldCreationTime req state false)
    else none
  | .ok (.createLockedCurrentEdge creationTime) =>
    some (unlockEdge req { state with creationTime := creationTime } false)
  | .ok _ => none

/-- `afterUnlockEdge`. -/
def afterUnlockEdge : ShardResult → Option Outcome
  | .error .timeout | .error .mtimeIsTooRecent => some (unlockEdge req state true)
  | .ok _ =>
    some (.finish (.makeDirectory state.dirId state.creationTime) (.put state.dirId req.ownerId))
  | _ => none

/-- `afterRollback`. -/
def afterRollback : ShardResult → Option Outcome
  | .error .timeout => some (rollback state true)
  | .ok _ => finishWithExitError state.exitError
  | _ => none

/-- The request of a step is sent again. -/
def again : MakeDirectoryStep → Option Outcome
  | .start => none
  | .lookup => some (lookup req state false)
  | .createDir => some (createDirectoryInode req state false)
  | .lookupOldCreationTime => some (lookupOldCreationTime req state false)
  | .createLockedEdge => some (createLockedEdge req state false)
  | .unlockEdge => some (unlockEdge req state false)
  | .rollback => some (rollback state false)

/-- The response to the request of a step is handled. -/
def after : MakeDirectoryStep → ShardResult → Option Outcome
  | .start, _ => none
  | .lookup, resp => afterLookup req state resp
  | .createDir, resp => afterCreateDirectoryInode req state resp
  | .lookupOldCreationTime, resp => afterLookupOldCreationTime req state resp
  | .createLockedEdge, resp => afterCreateLockedEdge req state resp
  | .unlockEdge, resp => afterUnlockEdge req state resp
  | .rollback, resp => afterRollback state resp

end MakeDirectory

/-! ## `HardUnlinkDirectoryStateMachine` -/

namespace HardUnlinkDirectory

variable (req : HardUnlinkDirectoryReq)

/-- `removeInode`. -/
def removeInode (repeated : Bool) : Outcome :=
  .needsShard (.hardUnlinkDirectory .removeInode) req.dirId.shardId repeated
    (.write (.removeInode ⟨req.dirId⟩))

/-- `afterRemoveInode`. -/
def afterRemoveInode : ShardResult → Option Outcome
  | .error .timeout => some (removeInode req true)
  | .error .directoryNotFound => some (.finishWithError .directoryNotFound)
  | .error .directoryHasOwner => some (.finishWithError .directoryHasOwner)
  | .error .directoryNotEmpty => some (.finishWithError .directoryNotEmpty)
  | .ok _ => some (.finish .hardUnlinkDirectory .keep)
  | _ => none

end HardUnlinkDirectory

/-! ## `RenameFileStateMachine` -/

namespace RenameFile

variable (req : RenameReq) (state : RenameState)

/-- `lockOldEdge`. -/
def lockOldEdge (repeated : Bool) : Outcome :=
  .needsShard (.renameFile .lockOldEdge state) req.oldOwnerId.shardId repeated
    (.write (.lockCurrentEdge
      { dirId := req.oldOwnerId, name := req.oldName, targetId := req.targetId
        creationTime := req.oldCreationTime }))

/-- `lookupOldCreationTime`. -/
def lookupOldCreationTime (repeated : Bool) : Outcome :=
  .needsShard (.renameFile .lookupOldCreationTime state) req.newOwnerId.shardId repeated
    (.read (.fullReadDir req.newOwnerId req.newName))

/-- `createNewLockedEdge`. -/
def createNewLockedEdge (repeated : Bool) : Outcome :=
  .needsShard (.renameFile .createNewLockedEdge state) req.newOwnerId.shardId repeated
    (.write (.createLockedCurrentEdge
      { dirId := req.newOwnerId, name := req.newName, targetId := req.targetId
        oldCreationTime := state.newOldCreationTime }))

/-- `unlockNewEdge`. -/
def unlockNewEdge (repeated : Bool) : Outcome :=
  .needsShard (.renameFile .unlockNewEdge state) req.newOwnerId.shardId repeated
    (.write (.unlockCurrentEdge
      { dirId := req.newOwnerId, name := req.newName, targetId := req.targetId, wasMoved := false
        creationTime := state.newCreationTime }))

/-- `unlockOldEdge`. -/
def unlockOldEdge (repeated : Bool) : Outcome :=
  .needsShard (.renameFile .unlockOldEdge state) req.oldOwnerId.shardId repeated
    (.write (.unlockCurrentEdge
      { dirId := req.oldOwnerId, name := req.oldName, targetId := req.targetId, wasMoved := true
        creationTime := req.oldCreationTime }))

/-- `rollback`, which unlocks the old edge at the creation time of the new one. -/
def rollback (repeated : Bool) : Outcome :=
  .needsShard (.renameFile .rollback state) req.oldOwnerId.shardId repeated
    (.write (.unlockCurrentEdge
      { dirId := req.oldOwnerId, name := req.oldName, targetId := req.targetId, wasMoved := false
        creationTime := state.newCreationTime }))

/-- `start`. -/
def start : Outcome :=
  if req.targetId.type = .directory then .finishWithError .typeIsNotDirectory
  else if req.oldOwnerId = req.newOwnerId then .finishWithError .sameDirectories
  else lockOldEdge req state false

/-- `afterLockOldEdge`. -/
def afterLockOldEdge : ShardResult → Option Outcome
  | .error .timeout => some (lockOldEdge req state true)
  | .error .edgeNotFound => some (.finishWithError .edgeNotFound)
  | .error .mismatchingCreationTime => some (.finishWithError .mismatchingCreationTime)
  | .error .directoryNotFound => some (.finishWithError .oldDirectoryNotFound)
  | .ok _ => some (lookupOldCreationTime req state false)
  | _ => none

/-- `afterLookupOldCreationTime`. -/
def afterLookupOldCreationTime : ShardResult → Option Outcome
  | .error .timeout => some (lookupOldCreationTime req state true)
  | .error .directoryNotFound =>
    some (rollback req { state with exitError := some .newDirectoryNotFound } false)
  | .ok (.fullReadDir []) =>
    some (createNewLockedEdge req { state with newOldCreationTime := 0 } false)
  | .ok (.fullReadDir [time]) =>
    some (createNewLockedEdge req { state with newOldCreationTime := time } false)
  | _ => none

/-- `afterCreateNewLockedEdge`; the response is read whatever the error is. -/
def afterCreateNewLockedEdge : ShardResult → Option Outcome
  | .error err =>
    if createCurrentLockedEdgeRetry err then some (createNewLockedEdge req state true)
    else if err = .mismatchingCreationTime then some (lookupOldCreationTime req state false)
    else if err = .cannotOverrideName then
      some (rollback req { state with exitError := some err } false)
    else none
  | .ok (.createLockedCurrentEdge creationTime) =>
    some (unlockNewEdge req { state with newCreationTime := creationTime } false)
  | .ok _ => none

/-- `afterUnlockNewEdge`. -/
def afterUnlockNewEdge : ShardResult → Option Outcome
  | .error .timeout => some (unlockNewEdge req state true)
  | .ok _ => some (unlockOldEdge req state false)
  | _ => none

/-- `afterUnlockOldEdge`. -/
def afterUnlockOldEdge : ShardResult → Option Outcome
  | .error .timeout => some (unlockOldEdge req state true)
  | .error .edgeNotFound | .ok _ => some (.finish (.renameFile state.newCreationTime) .keep)
  | _ => none

/-- `afterRollback`. -/
def afterRollback : ShardResult → Option Outcome
  | .error .timeout => some (rollback req state true)
  | .ok _ => finishWithExitError state.exitError
  | _ => none

/-- The request of a step is sent again. -/
def again : RenameFileStep → Option Outcome
  | .start => none
  | .lockOldEdge => some (lockOldEdge req state false)
  | .lookupOldCreationTime => some (lookupOldCreationTime req state false)
  | .createNewLockedEdge => some (createNewLockedEdge req state false)
  | .unlockNewEdge => some (unlockNewEdge req state false)
  | .unlockOldEdge => some (unlockOldEdge req state false)
  | .rollback => some (rollback req state false)

/-- The response to the request of a step is handled. -/
def after : RenameFileStep → ShardResult → Option Outcome
  | .start, _ => none
  | .lockOldEdge, resp => afterLockOldEdge req state resp
  | .lookupOldCreationTime, resp => afterLookupOldCreationTime req state resp
  | .createNewLockedEdge, resp => afterCreateNewLockedEdge req state resp
  | .unlockNewEdge, resp => afterUnlockNewEdge req state resp
  | .unlockOldEdge, resp => afterUnlockOldEdge req state resp
  | .rollback, resp => afterRollback req state resp

end RenameFile

/-! ## `SoftUnlinkDirectoryStateMachine` -/

/-- `REQUIRED_DIR_INFO_TAGS`. -/
def requiredDirInfoTags : List ℕ := [1, 2, 3, 4]

/-- `DirectoryInfoEntry::operator==`. -/
def DirectoryInfoEntry.Same (a b : DirectoryInfoEntry) : Prop :=
  a.tag = b.tag ∧ SameBytes a.body b.body

instance (a b : DirectoryInfoEntry) : Decidable (a.Same b) := inferInstanceAs (Decidable (_ ∧ _))

/-- The entries with required tags, each once. -/
def requiredInfo : DirectoryInfo → DirectoryInfo → DirectoryInfo
  | info, [] => info
  | info, entry :: entries =>
    if entry.tag ∉ requiredDirInfoTags ∨ ∃ e ∈ info, e.Same entry then requiredInfo info entries
    else requiredInfo (info ++ [entry]) entries

namespace SoftUnlinkDirectory

variable (req : SoftUnlinkDirectoryReq) (state : SoftUnlinkDirectoryState)

/-- `lockEdge`. -/
def lockEdge (repeated : Bool) : Outcome :=
  .needsShard (.softUnlinkDirectory .lockEdge state) req.ownerId.shardId repeated
    (.write (.lockCurrentEdge
      { dirId := req.ownerId, name := req.name, targetId := req.targetId
        creationTime := req.creationTime }))

/-- `stat`. -/
def stat (repeated : Bool) : Outcome :=
  .needsShard (.softUnlinkDirectory .stat state) state.statDirId.shardId repeated
    (.read (.statDirectory state.statDirId))

/-- The request to remove the owner, which `afterStat` sends. -/
def removeOwner (info : DirectoryInfo) : Outcome :=
  .needsShard (.softUnlinkDirectory .removeOwner state) req.targetId.shardId false
    (.write (.removeDirectoryOwner ⟨req.targetId, info⟩))

/-- `unlockEdge`. -/
def unlockEdge (repeated : Bool) : Outcome :=
  .needsShard (.softUnlinkDirectory .unlockEdge state) req.ownerId.shardId repeated
    (.write (.unlockCurrentEdge
      { dirId := req.ownerId, name := req.name, targetId := req.targetId, wasMoved := true
        creationTime := req.creationTime }))

/-- `rollback`. -/
def rollback (repeated : Bool) : Outcome :=
  .needsShard (.softUnlinkDirectory .rollback state) req.ownerId.shardId repeated
    (.write (.unlockCurrentEdge
      { dirId := req.ownerId, name := req.name, targetId := req.targetId, wasMoved := false
        creationTime := req.creationTime }))

/-- `start`. -/
def start : Outcome :=
  if req.targetId.type ≠ .directory then .finishWithError .typeIsNotDirectory
  else lockEdge req state false

/-- `afterLockEdge`. -/
def afterLockEdge : ShardResult → Option Outcome
  | .error .timeout => some (lockEdge req state true)
  | .error .mismatchingCreationTime => some (.finishWithError .mismatchingCreationTime)
  | .error .edgeNotFound => some (.finishWithError .edgeNotFound)
  | .error .directoryNotFound => some (.finishWithError .directoryNotFound)
  | .ok _ => some (stat { state with statDirId := req.targetId } false)
  | _ => none

/-- `afterStat`.  The machine is a new one for each response, so that nothing is left of the
entries of directories visited before. -/
def afterStat : ShardResult → Option Outcome
  | .error .timeout => some (stat state true)
  | .ok (.statDirectory _ owner info) =>
    if (requiredInfo [] info).length = requiredDirInfoTags.length then
      some (removeOwner req state (requiredInfo [] info))
    else if owner = .null then none
    else some (stat { state with statDirId := owner } false)
  | _ => none

/-- `afterRemoveOwner`. -/
def afterRemoveOwner : ShardResult → Option Outcome
  | .error .timeout => some (stat state false)
  | .error .directoryNotEmpty =>
    some (rollback req { state with exitError := some .directoryNotEmpty } false)
  | .ok _ => some (unlockEdge req state false)
  | _ => none

/-- `afterUnlockEdge`. -/
def afterUnlockEdge : ShardResult → Option Outcome
  | .error .timeout => some (unlockEdge req state true)
  | .error .edgeNotFound | .ok _ => some (.finish .softUnlinkDirectory (.delete req.targetId))
  | _ => none

/-- `afterRollback`. -/
def afterRollback : ShardResult → Option Outcome
  | .error .timeout => some (rollback req state true)
  | .error .edgeNotFound | .ok _ => finishWithExitError state.exitError
  | _ => none

/-- The request of a step is sent again; the policies of the directory are looked up again before
its owner is removed. -/
def again : SoftUnlinkDirectoryStep → Option Outcome
  | .start => none
  | .lockEdge => some (lockEdge req state false)
  | .stat | .removeOwner => some (stat state false)
  | .unlockEdge => some (unlockEdge req state false)
  | .rollback => some (rollback req state false)

/-- The response to the request of a step is handled. -/
def after : SoftUnlinkDirectoryStep → ShardResult → Option Outcome
  | .start, _ => none
  | .lockEdge, resp => afterLockEdge req state resp
  | .stat, resp => afterStat req state resp
  | .removeOwner, resp => afterRemoveOwner req state resp
  | .unlockEdge, resp => afterUnlockEdge req state resp
  | .rollback, resp => afterRollback req state resp

end SoftUnlinkDirectory

/-! ## `RenameDirectoryStateMachine` -/

namespace RenameDirectory

variable (req : RenameReq) (state : RenameState)

/-- The walk of `loopCheck` from a directory up to the root, after `visited`.  Every turn visits a
directory with a parent that it has not visited, so there are not more turns than parents. -/
def walkUp (parents : SortedStore InodeId InodeId) : ℕ → List InodeId → InodeId → Option TernError
  | fuel, visited, cursor =>
    if cursor = .rootDir then none
    else if cursor ∈ visited then some .loopInDirectoryRename
    else
      match parents.get cursor with
      | none => some .directoryNotFound
      | some parent =>
        match fuel with
        | 0 => some .loopInDirectoryRename
        | fuel + 1 => walkUp parents fuel (cursor :: visited) parent

/-- `loopCheck`: the directory is visited first, as if it had been moved already. -/
def loopCheck (parents : SortedStore InodeId InodeId) : Option TernError :=
  walkUp parents (parents.entries.length + 1) [req.targetId] req.newOwnerId

/-- `lockOldEdge`. -/
def lockOldEdge (repeated : Bool) : Outcome :=
  .needsShard (.renameDirectory .lockOldEdge state) req.oldOwnerId.shardId repeated
    (.write (.lockCurrentEdge
      { dirId := req.oldOwnerId, name := req.oldName, targetId := req.targetId
        creationTime := req.oldCreationTime }))

/-- `lookupOldCreationTime`. -/
def lookupOldCreationTime (repeated : Bool) : Outcome :=
  .needsShard (.renameDirectory .lookupOldCreationTime state) req.newOwnerId.shardId repeated
    (.read (.fullReadDir req.newOwnerId req.newName))

/-- `createLockedNewEdge`. -/
def createLockedNewEdge (repeated : Bool) : Outcome :=
  .needsShard (.renameDirectory .createLockedNewEdge state) req.newOwnerId.shardId repeated
    (.write (.createLockedCurrentEdge
      { dirId := req.newOwnerId, name := req.newName, targetId := req.targetId
        oldCreationTime := state.newOldCreationTime }))

/-- `unlockNewEdge`. -/
def unlockNewEdge (repeated : Bool) : Outcome :=
  .needsShard (.renameDirectory .unlockNewEdge state) req.newOwnerId.shardId repeated
    (.write (.unlockCurrentEdge
      { dirId := req.newOwnerId, name := req.newName, targetId := req.targetId, wasMoved := false
        creationTime := state.newCreationTime }))

/-- `unlockOldEdge`. -/
def unlockOldEdge (repeated : Bool) : Outcome :=
  .needsShard (.renameDirectory .unlockOldEdge state) req.oldOwnerId.shardId repeated
    (.write (.unlockCurrentEdge
      { dirId := req.oldOwnerId, name := req.oldName, targetId := req.targetId, wasMoved := true
        creationTime := req.oldCreationTime }))

/-- `setOwner`. -/
def setOwner (repeated : Bool) : Outcome :=
  .needsShard (.renameDirectory .setOwner state) req.targetId.shardId repeated
    (.write (.setDirectoryOwner ⟨req.targetId, req.newOwnerId⟩))

/-- `rollback`. -/
def rollback (repeated : Bool) : Outcome :=
  .needsShard (.renameDirectory .rollback state) req.oldOwnerId.shardId repeated
    (.write (.unlockCurrentEdge
      { dirId := req.oldOwnerId, name := req.oldName, targetId := req.targetId, wasMoved := false
        creationTime := req.oldCreationTime }))

/-- `start`. -/
def start (parents : SortedStore InodeId InodeId) : Outcome :=
  if req.targetId.type ≠ .directory then .finishWithError .typeIsNotDirectory
  else if req.oldOwnerId = req.newOwnerId then .finishWithError .sameDirectories
  else
    match loopCheck req parents with
    | some err => .finishWithError err
    | none => lockOldEdge req state false

/-- `afterLockOldEdge`. -/
def afterLockOldEdge : ShardResult → Option Outcome
  | .error .timeout => some (lockOldEdge req state true)
  | .error .directoryNotFound => some (.finishWithError .oldDirectoryNotFound)
  | .error .edgeNotFound => some (.finishWithError .edgeNotFound)
  | .error .mismatchingCreationTime => some (.finishWithError .mismatchingCreationTime)
  | .ok _ => some (lookupOldCreationTime req state false)
  | _ => none

/-- `afterLookupOldCreationTime`. -/
def afterLookupOldCreationTime : ShardResult → Option Outcome
  | .error .timeout => some (lookupOldCreationTime req state true)
  | .error .directoryNotFound =>
    some (rollback req { state with exitError := some .directoryNotFound } false)
  | .ok (.fullReadDir []) =>
    some (createLockedNewEdge req { state with newOldCreationTime := 0 } false)
  | .ok (.fullReadDir [time]) =>
    some (createLockedNewEdge req { state with newOldCreationTime := time } false)
  | _ => none

/-- `afterCreateLockedEdge`. -/
def afterCreateLockedEdge : ShardResult → Option Outcome
  | .error err =>
    if createCurrentLockedEdgeRetry err then some (createLockedNewEdge req state true)
    else if err = .mismatchingCreationTime then some (lookupOldCreationTime req state false)
    else if err = .cannotOverrideName ∨ err = .directoryNotFound then
      some (rollback req { state with exitError := some err } false)
    else none
  | .ok (.createLockedCurrentEdge creationTime) =>
    some (unlockNewEdge req { state with newCreationTime := creationTime } false)
  | .ok _ => none

/-- `afterUnlockNewEdge`. -/
def afterUnlockNewEdge : ShardResult → Option Outcome
  | .error .timeout => some (unlockNewEdge req state true)
  | .error .edgeNotFound | .ok _ => some (unlockOldEdge req state false)
  | _ => none

/-- `afterUnlockOldEdge`. -/
def afterUnlockOldEdge : ShardResult → Option Outcome
  | .error .timeout => some (unlockOldEdge req state true)
  | .error .edgeNotFound | .ok _ => some (setOwner req state false)
  | _ => none

/-- `afterSetOwner`. -/
def afterSetOwner : ShardResult → Option Outcome
  | .error .timeout => some (setOwner req state true)
  | .ok _ =>
    some (.finish (.renameDirectory state.newCreationTime) (.put req.targetId req.newOwnerId))
  | _ => none

/-- `afterRollback`, which takes any error for the end of the rollback. -/
def afterRollback : ShardResult → Option Outcome
  | .error .timeout => some (rollback req state true)
  | _ => finishWithExitError state.exitError

/-- The request of a step is sent again. -/
def again : RenameDirectoryStep → Option Outcome
  | .start => none
  | .lockOldEdge => some (lockOldEdge req state false)
  | .lookupOldCreationTime => some (lookupOldCreationTime req state false)
  | .createLockedNewEdge => some (createLockedNewEdge req state false)
  | .unlockNewEdge => some (unlockNewEdge req state false)
  | .unlockOldEdge => some (unlockOldEdge req state false)
  | .setOwner => some (setOwner req state false)
  | .rollback => some (rollback req state false)

/-- The response to the request of a step is handled. -/
def after : RenameDirectoryStep → ShardResult → Option Outcome
  | .start, _ => none
  | .lockOldEdge, resp => afterLockOldEdge req state resp
  | .lookupOldCreationTime, resp => afterLookupOldCreationTime req state resp
  | .createLockedNewEdge, resp => afterCreateLockedEdge req state resp
  | .unlockNewEdge, resp => afterUnlockNewEdge req state resp
  | .unlockOldEdge, resp => afterUnlockOldEdge req state resp
  | .setOwner, resp => afterSetOwner req state resp
  | .rollback, resp => afterRollback req state resp

end RenameDirectory

/-! ## `CrossShardHardUnlinkFileStateMachine` -/

namespace CrossShardHardUnlinkFile

variable (req : CrossShardHardUnlinkFileReq)

/-- `removeEdge`. -/
def removeEdge (repeated : Bool) : Outcome :=
  .needsShard (.crossShardHardUnlinkFile .removeEdge) req.ownerId.shardId repeated
    (.write (.removeOwnedSnapshotFileEdge
      { ownerId := req.ownerId, targetId := req.targetId, name := req.name
        creationTime := req.creationTime }))

/-- `makeTransient`. -/
def makeTransient (repeated : Bool) : Outcome :=
  .needsShard (.crossShardHardUnlinkFile .makeTransient) req.targetId.shardId repeated
    (.write (.makeFileTransient ⟨req.targetId, req.name⟩))

/-- `start`. -/
def start : Outcome :=
  if req.ownerId.shard = req.targetId.shard then .finishWithError .sameShard
  else if req.targetId.type = .directory then .finishWithError .typeIsDirectory
  else removeEdge req false

/-- `afterRemoveEdge`. -/
def afterRemoveEdge : ShardResult → Option Outcome
  | .error .timeout | .error .mtimeIsTooRecent => some (removeEdge req true)
  | .error .directoryNotFound => some (.finishWithError .directoryNotFound)
  | .ok _ => some (makeTransient req false)
  | _ => none

/-- `afterMakeTransient`. -/
def afterMakeTransient : ShardResult → Option Outcome
  | .error .timeout => some (makeTransient req true)
  | .error .fileNotFound | .ok _ => some (.finish .crossShardHardUnlinkFile .keep)
  | _ => none

end CrossShardHardUnlinkFile

/-! ## Dispatch -/

/-- `resume` of a machine that starts. -/
def CDCReq.start (env : CDCEnv) : CDCReq → Option (CDCEnv × Outcome)
  | makeDirectory req => do
    let (dirId, env) ← env.allocateDirectoryId
    return (env, MakeDirectory.lookup req { dirId := dirId } false)
  | hardUnlinkDirectory req => some (env, HardUnlinkDirectory.removeInode req false)
  | renameFile req => some (env, RenameFile.start req {})
  | softUnlinkDirectory req => some (env, SoftUnlinkDirectory.start req {})
  | renameDirectory req => some (env, RenameDirectory.start req {} env.parents)
  | crossShardHardUnlinkFile req => some (env, CrossShardHardUnlinkFile.start req)

/-- `resume` without a response. -/
def CDCReq.again : CDCReq → TxnState → Option Outcome
  | makeDirectory req, .makeDirectory step state => MakeDirectory.again req state step
  | hardUnlinkDirectory req, .hardUnlinkDirectory .removeInode =>
    some (HardUnlinkDirectory.removeInode req false)
  | renameFile req, .renameFile step state => RenameFile.again req state step
  | softUnlinkDirectory req, .softUnlinkDirectory step state =>
    SoftUnlinkDirectory.again req state step
  | renameDirectory req, .renameDirectory step state => RenameDirectory.again req state step
  | crossShardHardUnlinkFile req, .crossShardHardUnlinkFile .removeEdge =>
    some (CrossShardHardUnlinkFile.removeEdge req false)
  | crossShardHardUnlinkFile req, .crossShardHardUnlinkFile .makeTransient =>
    some (CrossShardHardUnlinkFile.makeTransient req false)
  | _, _ => none

/-- `resume` with a response. -/
def CDCReq.after : CDCReq → TxnState → ShardResult → Option Outcome
  | makeDirectory req, .makeDirectory step state, resp => MakeDirectory.after req state step resp
  | hardUnlinkDirectory req, .hardUnlinkDirectory .removeInode, resp =>
    HardUnlinkDirectory.afterRemoveInode req resp
  | renameFile req, .renameFile step state, resp => RenameFile.after req state step resp
  | softUnlinkDirectory req, .softUnlinkDirectory step state, resp =>
    SoftUnlinkDirectory.after req state step resp
  | renameDirectory req, .renameDirectory step state, resp =>
    RenameDirectory.after req state step resp
  | crossShardHardUnlinkFile req, .crossShardHardUnlinkFile .removeEdge, resp =>
    CrossShardHardUnlinkFile.afterRemoveEdge req resp
  | crossShardHardUnlinkFile req, .crossShardHardUnlinkFile .makeTransient, resp =>
    CrossShardHardUnlinkFile.afterMakeTransient req resp
  | _, _, _ => none

/-- The step of the transaction is `TXN_START`. -/
def TxnState.IsStart : TxnState → Prop
  | makeDirectory step _ => step = .start
  | hardUnlinkDirectory step => step = .start
  | renameFile step _ => step = .start
  | softUnlinkDirectory step _ => step = .start
  | renameDirectory step _ => step = .start
  | crossShardHardUnlinkFile step => step = .start

instance (state : TxnState) : Decidable state.IsStart := by
  induction state using TxnState.casesOn <;> dsimp only [TxnState.IsStart] <;> infer_instance

/-- `resume`: what the transaction asks for next, and the database after it. -/
def CDCReq.resume (req : CDCReq) (env : CDCEnv) (state : TxnState) (resp : Option ShardResult) :
    Option (CDCEnv × Outcome) :=
  if state.IsStart then req.start env
  else
    match resp with
    | none => (req.again state).map fun outcome => (env, outcome)
    | some resp => (req.after state resp).map fun
      | .finish resp parent => (env.write parent, .finish resp parent)
      | outcome => (env, outcome)

/-- A machine that has started sends its request again, or handles the response. -/
lemma CDCReq.resume_eq_some {req : CDCReq} {env env' : CDCEnv} {state : TxnState}
    {resp : Option ShardResult} {out : Outcome} (hstart : ¬ state.IsStart)
    (h : req.resume env state resp = some (env', out)) :
    resp = none ∧ req.again state = some out ∨
      ∃ result, resp = some result ∧ req.after state result = some out := by
  unfold resume at h
  rw [if_neg hstart] at h
  cases resp with
  | none =>
    obtain ⟨out', hagain, heq⟩ := Option.map_eq_some_iff.1 h
    cases heq
    exact .inl ⟨rfl, hagain⟩
  | some result =>
    obtain ⟨out', hafter, heq⟩ := Option.map_eq_some_iff.1 h
    refine .inr ⟨result, rfl, ?_⟩
    cases out' <;> cases heq <;> exact hafter

end TernFS
