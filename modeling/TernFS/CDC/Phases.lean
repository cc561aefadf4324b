/-
# Requests of the transactions that move an edge

`RenameFile`, `RenameDirectory` and `SoftUnlinkDirectory` wait for the request of their phase
(`CDCReq.Waits.phaseRequest`).
-/
import TernFS.CDC.Responses

namespace TernFS

open Lib Option

/-- The edge that a transaction moves or removes, as its request names it. -/
structure OldEdge where
  dirId : InodeId
  name : Bytes
  targetId : InodeId
  creationTime : ℕ

/-- The edge that a transaction moves or removes. -/
def CDCReq.oldEdge : CDCReq → Option OldEdge
  | renameFile r | renameDirectory r =>
    some ⟨r.oldOwnerId, r.oldName, r.targetId, r.oldCreationTime⟩
  | softUnlinkDirectory r => some ⟨r.ownerId, r.name, r.targetId, r.creationTime⟩
  | _ => none

namespace OldEdge

variable (cfg : ClusterConfig) (o : OldEdge)

/-- The key of the edge. -/
def key : EdgeName := (cfg.shard o.dirId.shardId).edgeName o.dirId o.name

/-- The request that locks the edge. -/
def lockReq : CDCShardReq :=
  .write (.lockCurrentEdge
    { dirId := o.dirId, name := o.name, targetId := o.targetId, creationTime := o.creationTime })

/-- The edge is current in its shard, with the target of the request. -/
def Holds (shards : Fin 256 → ShardDB) (locked : Bool) : Prop :=
  (shards o.dirId.shardId).names.Edge (o.key cfg) o.targetId o.creationTime locked

/-- If the edge is the one that the request names, then the request names its target. -/
def NamesTarget (db : ShardDB) : Prop :=
  ∀ edge ∈ db.currentEdges.get (o.key cfg), edge.creationTime = o.creationTime →
    edge.targetId = o.targetId

instance (db : ShardDB) : Decidable (o.NamesTarget cfg db) :=
  inferInstanceAs (Decidable (∀ edge ∈ _, _ → _))

end OldEdge

/-- The creation time that the roll-back of a transaction unlocks the edge at. -/
def TxnState.rollbackTime (o : OldEdge) : TxnState → ℕ
  | renameFile _ state => state.newCreationTime
  | _ => o.creationTime

section

variable {req : CDCReq} {o : OldEdge} {state state' : TxnState} {shid : Fin 256} {repeated : Bool}
  {r : CDCShardReq}

lemma CDCReq.again_phase (hold : req.oldEdge = some o)
    (h : req.again state = some (.needsShard state' shid repeated r)) :
    state'.phase = state.phase := by
  unfold again at h
  split at h
  case h_3 q step st | h_4 q step st | h_5 q step st => cases step <;> cases h <;> rfl
  case h_8 => cases h
  all_goals cases hold

end

/-! ## What the transaction asks for in each phase -/

/-- The name that a transaction creates an edge under. -/
def CDCReq.newName : CDCReq → Option (InodeId × Bytes)
  | renameFile r | renameDirectory r => some (r.newOwnerId, r.newName)
  | _ => none

/-- The request that unlocks the edge again. -/
def OldEdge.unlockReq (o : OldEdge) (creationTime : ℕ) : UnlockCurrentEdgeReq :=
  { dirId := o.dirId, name := o.name, targetId := o.targetId, wasMoved := false
    creationTime := creationTime }

/-- The request that a transaction waits for in a phase. -/
inductive PhaseRequest (req : CDCReq) (o : OldEdge) (state : TxnState) :
    Phase → Fin 256 → CDCShardReq → Prop
  | lock : PhaseRequest req o state .locking o.dirId.shardId o.lockReq
  | read {shid : Fin 256} {q : ShardReadReq} : PhaseRequest req o state .locked shid (.read q)
  | create {shid : Fin 256} {q : CreateLockedCurrentEdgeReq} (hshid : shid = q.dirId.shardId)
      (hname : req.newName = some (q.dirId, q.name)) :
    PhaseRequest req o state .locked shid (.write (.createLockedCurrentEdge q))
  | removeOwner {shid : Fin 256} {q : RemoveDirectoryOwnerReq} (hname : req.newName = none) :
    PhaseRequest req o state .locked shid (.write (.removeDirectoryOwner q))
  | unlock {e : Option TernError} :
    PhaseRequest req o state (.rollingBack e) o.dirId.shardId
      (.write (.unlockCurrentEdge (o.unlockReq (state.rollbackTime o))))
  | other {shid : Fin 256} {r : CDCShardReq} : PhaseRequest req o state .goingOn shid r

lemma CDCReq.Waits.phaseRequest {req : CDCReq} {o : OldEdge} {state : TxnState} {shid : Fin 256}
    {r : CDCShardReq} (hold : req.oldEdge = some o) (hwaits : req.Waits state shid r) :
    PhaseRequest req o state state.phase shid r := by
  have hcurrent := hwaits.current
  cases hwaits.runs with
  | makeDirectory | hardUnlinkDirectory | crossShardHardUnlinkFile => cases hold
  | renameFile q step | softUnlinkDirectory q step | renameDirectory q step =>
    cases hold
    cases step <;> first
      | exact .other
      | cases hcurrent; exact .lock
      | cases hcurrent; exact .read
      | cases hcurrent; exact .create rfl rfl
      | cases hcurrent; exact .unlock
      | obtain ⟨rfl, info, rfl⟩ := hcurrent; exact .removeOwner rfl

end TernFS
