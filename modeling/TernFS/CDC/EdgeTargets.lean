/-
# Locks and the targets of edges

`LockCurrentEdge` and `UnlockCurrentEdge` find the edge by its name and check its creation time, but
not its target: they write the one that the request carries, which comes from the client of the
coordinator.  This file says exactly when the target on record stays what it was.
-/
import TernFS.CDC.Rollback

namespace TernFS

open Lib SortedStore Option

/-- The target on record for a name and a creation time: that of the current edge, if it was created
then, and that of the snapshot edge otherwise. -/
def ShardDB.recordedTarget (db : ShardDB) (e : EdgeName) (creationTime : ℕ) : Option InodeId :=
  match db.currentEdges.get e with
  | some edge =>
    if edge.creationTime = creationTime then some edge.targetId
    else (db.snapshotEdges.get ⟨e, creationTime⟩).map (·.targetIdWithOwned.id)
  | none => (db.snapshotEdges.get ⟨e, creationTime⟩).map (·.targetIdWithOwned.id)

/-- The two requests of the coordinator that look for an edge by its creation time. -/
inductive EdgeLockReq
  | lock (r : LockCurrentEdgeReq)
  | unlock (r : UnlockCurrentEdgeReq)

namespace EdgeLockReq

/-- The request to the shard. -/
def toReq : EdgeLockReq → ShardReq
  | lock r => .lockCurrentEdge r
  | unlock r => .unlockCurrentEdge r

/-- The name of the edge. -/
def edgeName (cfg : ShardConfig) : EdgeLockReq → EdgeName
  | lock r => cfg.edgeName r.dirId r.name
  | unlock r => cfg.edgeName r.dirId r.name

/-- The creation time of the edge. -/
def creationTime : EdgeLockReq → ℕ
  | lock r => r.creationTime
  | unlock r => r.creationTime

/-- The request carries the target of the edge, as far as it is written: an edge that is locked
already is not written by a lock, nor one that is not locked by an unlock that leaves it there.  An
edge that moves away at the very time of its creation is overwritten by the deletion edge. -/
def TargetOk (cfg : ShardConfig) (db : ShardDB) (time : ℕ) : EdgeLockReq → Prop
  | lock r => ∀ edge ∈ db.currentEdges.get (cfg.edgeName r.dirId r.name),
    edge.locked = false → r.targetId.masked = edge.targetId
  | unlock r => ∀ edge ∈ db.currentEdges.get (cfg.edgeName r.dirId r.name),
    if r.wasMoved = true then
      if edge.creationTime = time then edge.targetId = .null
      else r.targetId.masked = edge.targetId
    else edge.locked = true → r.targetId.masked = edge.targetId

instance (cfg : ShardConfig) (db : ShardDB) (time : ℕ) (r : EdgeLockReq) :
    Decidable (r.TargetOk cfg db time) := by
  cases r <;> dsimp only [TargetOk] <;> infer_instance

end EdgeLockReq

section

variable {cfg : ShardConfig} {db db' : ShardDB} {d : Delivery} {result : ShardResult}
  {e : EdgeName} {edge : CurrentEdgeBody} {t : ℕ}

lemma ShardDB.recordedTarget_of_some (h : db.currentEdges.get e = some edge)
    (ht : edge.creationTime = t) : db.recordedTarget e t = some edge.targetId := by
  simp only [ShardDB.recordedTarget, h, if_pos ht]

lemma ShardDB.recordedTarget_of_none (h : db.currentEdges.get e = none) :
    db.recordedTarget e t = (db.snapshotEdges.get ⟨e, t⟩).map (·.targetIdWithOwned.id) := by
  simp only [ShardDB.recordedTarget, h]

/-- A lock that succeeds leaves a locked edge as it is, and gives its own target to any other. -/
lemma recordedTarget_of_lock {r : LockCurrentEdgeReq} {resp : ShardResp}
    (h : handle cfg db d (.write (.lockCurrentEdge r)) = some (db', .ok resp)) :
    ∃ edge, db.currentEdges.get (cfg.edgeName r.dirId r.name) = some edge ∧
      edge.creationTime = r.creationTime ∧
      db'.recordedTarget (cfg.edgeName r.dirId r.name) r.creationTime =
        some (if edge.locked = true then edge.targetId else r.targetId.masked) := by
  rcases handle_write h with ⟨_, resp', index, ⟨⟩, -, batch, happly, rfl⟩ | ⟨e, hresult, -⟩
  swap
  · cases hresult
  simp only [applyEntryBody, applyLockCurrentEdge, bind_eq_ok, orFail_eq_ok, check_eq_ok,
    exists_const, Prod.exists] at happly
  obtain ⟨b, _, hinit, edge, hedge, htime, happly⟩ := happly
  obtain ⟨dir, -, -, rfl, rfl⟩ := initiateDirectoryModification_eq_ok.1 hinit
  refine ⟨edge, hedge, htime, ?_⟩
  split_ifs at happly ⊢ with hlocked
  · cases happly
    exact ShardDB.recordedTarget_of_some hedge htime
  · cases happly
    change _ = some (CurrentEdgeBody.targetId ⟨.of r.targetId true, edge.creationTime⟩)
    exact ShardDB.recordedTarget_of_some (get_put_self ..) htime

/-- The edge that moves away, unless the deletion edge has the same key. -/
lemma get_of_moved (snapshots : SortedStore SnapshotEdgeKey SnapshotEdgeBody) (e : EdgeName)
    (t time : ℕ) (targetId : InodeId) :
    (((snapshots.put ⟨e, t⟩ ⟨.of targetId false⟩).put ⟨e, time⟩ ⟨.of .null false⟩).get
      ⟨e, t⟩).map (·.targetIdWithOwned.id) = some (if t = time then .null else targetId.masked) := by
  by_cases h : t = time
  · subst h
    rw [get_put_self, if_pos rfl]
    rfl
  have hne : (⟨e, time⟩ : SnapshotEdgeKey) ≠ ⟨e, t⟩ := fun hk =>
    h (congrArg SnapshotEdgeKey.creationTime hk).symm
  rw [get_put_of_ne hne, get_put_self, if_neg h]
  rfl

/-- An unlock that succeeds gives its own target to an edge that moves away and to one that was
locked, and leaves any other as it is. -/
lemma recordedTarget_of_unlock {r : UnlockCurrentEdgeReq} {resp : ShardResp}
    (h : handle cfg db d (.write (.unlockCurrentEdge r)) = some (db', .ok resp)) :
    ∃ edge, db.currentEdges.get (cfg.edgeName r.dirId r.name) = some edge ∧
      edge.creationTime = r.creationTime ∧
      db'.recordedTarget (cfg.edgeName r.dirId r.name) r.creationTime =
        some (if r.wasMoved = true then
            if edge.creationTime = d.time then .null else r.targetId.masked
          else if edge.locked = true then r.targetId.masked else edge.targetId) := by
  rcases handle_write h with ⟨_, resp', index, ⟨⟩, -, batch, happly, rfl⟩ | ⟨e, hresult, -⟩
  swap
  · cases hresult
  simp only [applyEntryBody, applyUnlockCurrentEdge, bind_eq_ok, orFail_eq_ok, check_eq_ok,
    exists_const, Prod.exists] at happly
  obtain ⟨b, _, hinit, edge, hedge, htime, happly⟩ := happly
  obtain ⟨dir, -, -, rfl, rfl⟩ := initiateDirectoryModification_eq_ok.1 hinit
  refine ⟨edge, hedge, htime, ?_⟩
  by_cases hmoved : r.wasMoved = true
  · rw [hmoved] at happly ⊢
    cases happly
    rw [← htime]
    refine (ShardDB.recordedTarget_of_none (get_delete_self ..)).trans ?_
    cases edge.locked <;> exact get_of_moved db.snapshotEdges ..
  · simp only [hmoved, Bool.false_eq_true, if_false, pure_eq_ok, Prod.mk.injEq] at happly ⊢
    obtain ⟨rfl, -⟩ := happly
    split_ifs with hlocked
    · change _ = some (CurrentEdgeBody.targetId ⟨.of r.targetId false, edge.creationTime⟩)
      exact ShardDB.recordedTarget_of_some (get_put_self ..) htime
    · exact ShardDB.recordedTarget_of_some hedge htime

/-- **Locks and targets.** A request that locks or unlocks an edge and fails leaves the edges as they
are.  If it succeeds, the target on record stays the same if and only if the request carries it. -/
theorem recordedTarget_eq_iff {r : EdgeLockReq}
    (h : handle cfg db d (.write r.toReq) = some (db', result)) :
    (∀ err, result = .error err →
      db'.currentEdges = db.currentEdges ∧ db'.snapshotEdges = db.snapshotEdges) ∧
    ∀ resp, result = .ok resp → (db'.recordedTarget (r.edgeName cfg) r.creationTime =
        db.recordedTarget (r.edgeName cfg) r.creationTime ↔ r.TargetOk cfg db d.time) := by
  refine ⟨fun err herr => ?_, fun resp hresp => ?_⟩
  · rw [herr] at h
    have hnames : db'.names = db.names := names_of_handle_error h
    exact ⟨congrArg Names.current hnames, congrArg Names.snapshot hnames⟩
  rw [hresp] at h
  cases r with
  | lock =>
    obtain ⟨edge, hedge, htime, hafter⟩ := recordedTarget_of_lock h
    have hbefore := ShardDB.recordedTarget_of_some hedge htime
    simp only [EdgeLockReq.edgeName, EdgeLockReq.creationTime, EdgeLockReq.TargetOk, hafter,
      hbefore, hedge, mem_def, some.injEq, forall_eq']
    cases edge.locked <;> simp
  | unlock =>
    obtain ⟨edge, hedge, htime, hafter⟩ := recordedTarget_of_unlock h
    have hbefore := ShardDB.recordedTarget_of_some hedge htime
    simp only [EdgeLockReq.edgeName, EdgeLockReq.creationTime, EdgeLockReq.TargetOk, hafter,
      hbefore, hedge, mem_def, some.injEq, forall_eq']
    split_ifs with hmoved hnow hlocked
    · exact eq_comm
    · exact Iff.rfl
    · simp [hlocked]
    · simp [hlocked]

end

/-- Two files are constructed, and the first one is linked as `a`. -/
def sampleLinked : List ShardStep :=
  [sampleStep 1 sampleConstruct, sampleStep 2 sampleConstruct,
    sampleStep 3 (sampleLink (sampleFile 1) [97])]

/-- Move `a` to another directory, as if it were the given file. -/
def sampleRenameAs (f : InodeId) : RenameReq := ⟨f, .rootDir, [97], 3, sampleRemoteDir, [98]⟩

/-- The lock that the move begins with. -/
def sampleLockAs (f : InodeId) : EdgeLockReq := .lock ⟨.rootDir, f, 3, [97]⟩

/-- The edge `a` of the root directory. -/
def sampleEdge : EdgeName := (sampleCluster.shard 0).edgeName .rootDir [97]

/-- The request that a transaction waits for. -/
def TxnSystem.awaits (sys : TxnSystem) : Option CDCShardReq :=
  match sys.txn with
  | .running _ _ r => some r
  | .finished _ => none

/-- A client moves `a` as if it were the second file: the lock succeeds, and `a` becomes an edge to
the second file. -/
theorem recordedTarget_lost : ∃ db sys₀ db' resp,
      run (shardStep (sampleCluster.shard 0)) (initDb (sampleCluster.shard 0) 0) sampleLinked =
        some db ∧
      TxnSystem.start (.renameFile (sampleRenameAs (sampleFile 2)))
        (fun s => if s = 0 then db else initDb (sampleCluster.shard s) 0) .init = some sys₀ ∧
      sys₀.awaits = some (.write (sampleLockAs (sampleFile 2)).toReq) ∧
      handle (sampleCluster.shard 0) db ⟨5, samplePick, sampleCache⟩
        (.write (sampleLockAs (sampleFile 2)).toReq) = some (db', .ok resp) ∧
      db.recordedTarget sampleEdge 3 = some (sampleFile 1) ∧
      db'.recordedTarget sampleEdge 3 = some (sampleFile 2) := by
  simp only [exists_and_left]
  decide +kernel

theorem recordedTarget_kept : ∃ db db' resp,
      run (shardStep (sampleCluster.shard 0)) (initDb (sampleCluster.shard 0) 0) sampleLinked =
        some db ∧
      handle (sampleCluster.shard 0) db ⟨5, samplePick, sampleCache⟩
        (.write (sampleLockAs (sampleFile 1)).toReq) = some (db', .ok resp) ∧
      db'.recordedTarget sampleEdge 3 = db.recordedTarget sampleEdge 3 := by
  simp only [exists_and_left]
  refine exists_eq_some_imp (fun db _ (h : (sampleLockAs (sampleFile 1)).TargetOk
    (sampleCluster.shard 0) db 5 ∧ ∃ db' resp, handle (sampleCluster.shard 0) db
      ⟨5, samplePick, sampleCache⟩ (.write (sampleLockAs (sampleFile 1)).toReq) =
        some (db', .ok resp) ∧ True) => ?_) (by decide +kernel)
  obtain ⟨hok, db', resp, hhandle, -⟩ := h
  exact ⟨db', resp, hhandle, ((recordedTarget_eq_iff hhandle).2 resp rfl).2 hok⟩

end TernFS
