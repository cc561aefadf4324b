/-
# Reads

The read-only requests that the cross-directory coordinator sends to shards (`ShardDB::read`).
`FullReadDir` is modelled for the flags the coordinator sets (backwards, one name, from the current
edge on, at most one result): the answer is the current edge of the name, or else its latest
snapshot edge.
-/
import TernFS.Shard.Edges

namespace TernFS

open Lib

variable (cfg : ShardConfig) (db : ShardDB)

/-- The read-only requests of the coordinator. -/
inductive ShardReadReq
  | lookup (dirId : InodeId) (name : Bytes)
  | fullReadDir (dirId : InodeId) (startName : Bytes)
  | statDirectory (id : InodeId)
deriving DecidableEq

/-- `_lookup`. -/
def lookup (dirId : InodeId) (name : Bytes) : Checked ShardResp := do
  let _ ← getDirectory db dirId false
  let edge ← orFail (.err .nameNotFound) (db.currentEdges.get (cfg.edgeName dirId name))
  return .lookup edge.targetId edge.creationTime

/-- The latest snapshot edge of a name: the one that a `SeekForPrev` from the end of time finds. -/
def lastSnapshotTime (edge : EdgeName) : Option ℕ :=
  match db.snapshotEdges.seekForPrev ⟨edge, 2 ^ 64 - 1⟩ with
  | some (key, _) => if key.edge = edge then some key.creationTime else none
  | none => none

/-- `_fullReadDir`, with `_fullReadDirSameName` going backwards from the current edge. -/
def fullReadDir (dirId : InodeId) (startName : Bytes) : Checked ShardResp := do
  check (startName ≠ []) .malformedRequest
  let _ ← getDirectory db dirId true
  match db.currentEdges.get (cfg.edgeName dirId startName) with
  | some edge => return .fullReadDir [edge.creationTime]
  | none => return .fullReadDir (lastSnapshotTime db (cfg.edgeName dirId startName)).toList

/-- `_statDirectory`. -/
def statDirectory (id : InodeId) : Checked ShardResp := do
  let dir ← getDirectory db id true
  return .statDirectory dir.mtime dir.ownerId dir.info

/-- `ShardDB::read`. -/
def read : ShardReadReq → Checked ShardResp
  | .lookup dirId name => lookup cfg db dirId name
  | .fullReadDir dirId startName => fullReadDir cfg db dirId startName
  | .statDirectory id => statDirectory db id

end TernFS
