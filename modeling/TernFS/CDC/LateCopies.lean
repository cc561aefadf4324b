/-
# Late copies of `CreateLockedCurrentEdge`

The coordinator sends `CreateLockedCurrentEdge` again after a timeout, and a copy may reach its
shard after the transaction has unlocked the edge.  The expected creation time in the request is
meant to have such a copy refused, but the shard compares it only with edges that are locked.  This
file says exactly when a copy does no harm: it neither locks the name nor turns a current edge into
an owned snapshot edge.
-/
import TernFS.CDC.Answers
import TernFS.CDC.HardUnlink

namespace TernFS

open Lib Function Option

/-- The name is not locked anew, and no snapshot edge becomes an owner. -/
structure Harmless (edge : EdgeName) (db db' : ShardDB) : Prop where
  lock : ∀ body, db'.currentEdges.get edge = some body → body.locked = true →
    ∃ old, db.currentEdges.get edge = some old ∧ old.locked = true
  snapshot : ∀ key body, db'.snapshotEdges.get key = some body →
    body.targetIdWithOwned.extra = true → db.snapshotEdges.get key = some body

/-- The condition on the database that a late copy meets: the name is locked, or its edge cannot be
overridden; if there is no current edge, then a snapshot edge from the future is in the way.
Otherwise the directory is not there or is too young for the copy, or the request is not well
formed. -/
def LateOk (cfg : ShardConfig) (db : ShardDB) (time : ℕ) (req : CreateLockedCurrentEdgeReq) : Prop :=
  match getDirectory db req.dirId false with
  | .error _ => True
  | .ok dir => dir.mtime < time → req.dirId.shard = cfg.shid → ValidName req.name →
    match db.currentEdges.get (cfg.edgeName req.dirId req.name) with
    | none => ¬ LastSnapshotEdgeBefore cfg db req.dirId req.name time
    | some edge => edge.locked = true ∨ time ≤ edge.creationTime ∨
      req.targetId.type = .directory ∨ edge.targetId.type = .directory

instance (cfg : ShardConfig) (db : ShardDB) (time : ℕ) (req : CreateLockedCurrentEdgeReq) :
    Decidable (LateOk cfg db time req) := by
  dsimp only [LateOk]
  cases getDirectory db req.dirId false with
  | error => infer_instance
  | ok => cases db.currentEdges.get (cfg.edgeName req.dirId req.name) <;> infer_instance

section

variable {cfg : ShardConfig} {db db' : ShardDB} {d : Delivery} {req : CreateLockedCurrentEdgeReq}
  {result : ShardResult}

/-- A name without a current edge is given one only after its snapshot edges. -/
lemma lastSnapshotEdgeBefore_of_createCurrentEdge {time : ℕ} {dirId : InodeId} {name : Bytes}
    {targetId : InodeId} {locked : Bool} {oldCreationTime : ℕ} {out : ShardDB × ℕ}
    (hnone : db.currentEdges.get (cfg.edgeName dirId name) = none)
    (h : createCurrentEdge cfg db db time dirId name targetId locked oldCreationTime = .ok out) :
    LastSnapshotEdgeBefore cfg db dirId name time := by
  simp only [createCurrentEdge, hnone, bind_eq_ok, check_eq_ok, exists_const] at h
  obtain ⟨-, -, hlast, -⟩ := h
  exact hlast

/-- A copy that meets the condition is refused, or finds the name locked for it. -/
lemma harmless_of_lateOk (hok : LateOk cfg db d.time req)
    (h : handle cfg db d (.write (.createLockedCurrentEdge req)) = some (db', result)) :
    Harmless (cfg.edgeName req.dirId req.name) db db' := by
  rcases handle_write h with ⟨_, resp, index, hprepared, rfl, batch, happly, rfl⟩ |
    ⟨e, rfl, rfl | ⟨index, time, rfl⟩⟩
  · cases hprepared
    rename_i hshard hname
    simp only [applyEntryBody, applyCreateLockedCurrentEdge, bind_eq_ok, Prod.exists] at happly
    obtain ⟨b, creationTime, hcreate, ⟨⟩⟩ := happly
    obtain ⟨dir, hdir, hmtime, hcreated⟩ := createCurrentEdge_eq_ok hcreate
    simp only [LateOk, hdir] at hok
    have hedge := hok hmtime hshard hname
    cases hcreated with
    | fresh hnone =>
      rw [hnone] at hedge
      exact absurd (lastSnapshotEdgeBefore_of_createCurrentEdge hnone hcreate) hedge
    | relocked hsome hexisting =>
      exact ⟨fun body _ _ => ⟨_, hsome, hexisting⟩, fun key body hbody _ => hbody⟩
    | overridden hsome hexisting htime htarget htarget' =>
      rw [hsome] at hedge
      rcases hedge with hlocked | htime' | hdirectory | hdirectory
      · rw [hlocked] at hexisting
        cases hexisting
      · omega
      · exact absurd hdirectory htarget
      · exact absurd hdirectory htarget'
  all_goals exact ⟨fun body hbody hlocked => ⟨body, hbody, hlocked⟩, fun key body hbody _ => hbody⟩

/-- A name that is free, or whose edge can be overridden, is locked by a copy. -/
lemma exists_createCurrentEdge {dir : DirectoryBody} {time : ℕ}
    (hdir : getDirectory db req.dirId false = .ok dir) (hmtime : dir.mtime < time)
    (hedge : match db.currentEdges.get (cfg.edgeName req.dirId req.name) with
      | none => LastSnapshotEdgeBefore cfg db req.dirId req.name time
      | some edge => edge.locked = false ∧ edge.creationTime < time ∧
        req.targetId.type ≠ .directory ∧ edge.targetId.type ≠ .directory) :
    ∃ batch, createCurrentEdge cfg db db time req.dirId req.name req.targetId true
        req.oldCreationTime = .ok (batch, time) ∧
      batch.currentEdges.get (cfg.edgeName req.dirId req.name) =
        some ⟨.of req.targetId true, time⟩ := by
  cases hcurrent : db.currentEdges.get (cfg.edgeName req.dirId req.name) with
  | none =>
    rw [hcurrent] at hedge
    simp [createCurrentEdge, initiateDirectoryModification, hdir, hmtime, hcurrent, hedge]
  | some =>
    rw [hcurrent] at hedge
    obtain ⟨hlocked, htime, htarget, htarget'⟩ := hedge
    simp [createCurrentEdge, initiateDirectoryModification, hdir, hmtime, hcurrent, hlocked, htime,
      htarget, htarget']

/-- A copy that does not meet the condition locks the name. -/
lemma not_harmless_of_not_lateOk (hok : ¬ LateOk cfg db d.time req)
    (h : handle cfg db d (.write (.createLockedCurrentEdge req)) = some (db', result)) :
    ¬ Harmless (cfg.edgeName req.dirId req.name) db db' := by
  cases hdir : getDirectory db req.dirId false with
  | error =>
    simp only [LateOk, hdir] at hok
    exact absurd trivial hok
  | ok =>
    simp only [LateOk, hdir, Classical.not_imp] at hok
    obtain ⟨hmtime, hshard, hname, hedge⟩ := hok
    -- the name is not locked, and nothing is in the way of a new edge
    have hunlocked : ∀ old, db.currentEdges.get (cfg.edgeName req.dirId req.name) = some old →
        old.locked = false := by
      intro old hold
      simp only [hold, not_or, Bool.not_eq_true] at hedge
      exact hedge.1
    obtain ⟨batch, hcreate, hlocked⟩ := exists_createCurrentEdge hdir hmtime (by
      cases hcurrent : db.currentEdges.get (cfg.edgeName req.dirId req.name) with
      | none => simpa only [hcurrent, not_not] using hedge
      | some => simpa only [hcurrent, not_or, Bool.not_eq_true, not_le] using hedge)
    have htype := (getDirectory_eq_ok.1 hdir).1
    have htarget := targetId_ne_null_of_handle htype hshard hname h
    have hprepare : prepareLogEntry cfg d.time d.pick (.createLockedCurrentEdge req) =
        .ok ⟨d.time, .createLockedCurrentEdge req⟩ := by
      simp [prepareLogEntry, prepareCreateLockedCurrentEdge, checkDirectoryRequest, htype, hshard,
        hname, htarget]
    have happly : applyEntryBody cfg d.cache db d.time (.createLockedCurrentEdge req) =
        .ok (batch, .createLockedCurrentEdge d.time) := by
      simp [applyEntryBody, applyCreateLockedCurrentEdge, hcreate]
    rw [handle_write_of_ok hprepare happly] at h
    cases h
    intro hharmless
    obtain ⟨old, hold, hlock⟩ := hharmless.lock _ hlocked rfl
    rw [hunlocked old hold] at hlock
    cases hlock

end

/-- **Late copies.** Whatever has happened before, a copy of `CreateLockedCurrentEdge` that a
transaction has sent neither locks the name again nor makes a snapshot edge an owner, if and only
if it meets the condition. -/
theorem lateCopy_harmless_iff {cfg : ClusterConfig} {req : CDCReq} {sys sys' : TxnSystem} {i : ℕ}
    {d : Delivery} {shid : Fin 256} {r : CreateLockedCurrentEdgeReq}
    (hcopy : sys.sent[i]? = some (shid, .write (.createLockedCurrentEdge r)))
    (hstep : sys.step cfg req (.deliver i d) = some sys') :
    Harmless ((cfg.shard shid).edgeName r.dirId r.name) (sys.shards shid) (sys'.shards shid) ↔
      LateOk (cfg.shard shid) (sys.shards shid) d.time r := by
  cases TxnSystem.txnStep_of_step hstep with
  | @deliver _ _ shid' r' db result hsent hhandle =>
    obtain ⟨rfl, rfl⟩ := (Prod.mk.injEq ..).mp (mem_unique hcopy hsent)
    have hnew : (sys.handled shid (.write (.createLockedCurrentEdge r)) db result).shards shid =
        db := update_self ..
    rw [hnew]
    refine ⟨fun hharmless => ?_, fun hok => harmless_of_lateOk hok hhandle⟩
    by_contra hok
    exact not_harmless_of_not_lateOk hok hhandle hharmless

/-- A directory of the second shard. -/
def sampleRemoteDir : InodeId := .of .directory 1 1

/-- The second shard, with a file in its directory under the name `a`. -/
def sampleRemoteDB : ShardDB :=
  { sampleHomeDB with
    directories := SortedStore.empty.put sampleRemoteDir ⟨.rootDir, 2, defaultDirectoryInfo⟩
    currentEdges := SortedStore.empty.put ((sampleCluster.shard 1).edgeName sampleRemoteDir [97])
      ⟨.of sampleRemoteFile false, 2⟩ }

/-- The root directory is in the first shard. -/
def sampleTwoShards : Fin 256 → ShardDB := fun s =>
  if s = 1 then sampleRemoteDB else initDb (sampleCluster.shard s) 0

/-- Move the file to the root directory, under the name `b`. -/
def sampleRename : RenameReq := ⟨sampleRemoteFile, sampleRemoteDir, [97], 2, .rootDir, [98]⟩

/-- The request to create the new edge. -/
def sampleNewEdge : CreateLockedCurrentEdgeReq := ⟨.rootDir, [98], sampleRemoteFile, 0⟩

/-- The creation of the new edge times out and is sent again, and the second copy is handled before
the first one. -/
def sampleRenameEvents : List TxnEvent :=
  [sampleRespond 3, sampleRespond 4, .timeout, sampleRespond 5, sampleRespond 6]

/-- The new edge has been unlocked with success. -/
def sampleUnlocked : Handled → Bool
  | ⟨_, .write (.unlockCurrentEdge r), _, .ok _⟩ => r.dirId = .rootDir
  | _ => false

/-- A late copy of the creation is handled after the file has been moved and its new edge unlocked.
It locks the name again, and the edge of the same transaction becomes an owned snapshot edge. -/
theorem not_harmless_of_lateCopy : ∃ sys₀ sys sys',
      TxnSystem.start (.renameFile sampleRename) sampleTwoShards .init = some sys₀ ∧
      run (TxnSystem.step sampleCluster (.renameFile sampleRename)) sys₀ sampleRenameEvents =
        some sys ∧
      sys.log.any sampleUnlocked = true ∧
      sys.sent[2]? = some (0, .write (.createLockedCurrentEdge sampleNewEdge)) ∧
      sys.step sampleCluster (.renameFile sampleRename) (.deliver 2 ⟨7, samplePick, sampleCache⟩) =
        some sys' ∧
      ((sys'.shards 0).currentEdges.get ((sampleCluster.shard 0).edgeName .rootDir [98])).any
        CurrentEdgeBody.locked = true ∧
      (sys'.shards 0).snapshotEdges.get ⟨(sampleCluster.shard 0).edgeName .rootDir [98], 5⟩ =
        some ⟨.of sampleRemoteFile true⟩ ∧
      ¬ Harmless ((sampleCluster.shard 0).edgeName .rootDir [98]) (sys.shards 0) (sys'.shards 0) := by
  simp only [exists_and_left]
  refine exists_eq_some_imp (fun sys₀ _ => exists_eq_some_imp fun sys _ =>
    And.imp_right (And.imp_right (exists_eq_some_imp fun sys' _ => And.imp_right
      fun (h : _ ∧ (sys.shards 0).snapshotEdges.get
        ⟨(sampleCluster.shard 0).edgeName .rootDir [98], 5⟩ = none) => ⟨h.1, fun hharmless => ?_⟩)))
    (by decide +kernel)
  have hold := hharmless.snapshot _ _ h.1 rfl
  rw [h.2] at hold
  cases hold

/-- Make the directory `b` in the root directory. -/
def sampleMakeDirectory : MakeDirectoryReq := ⟨.rootDir, [98]⟩

/-- A late copy that would create a directory again finds its edge, which is not overridden. -/
theorem lateCopy_harmless_of_makeDirectory : ∃ sys₀ sys sys' r,
      TxnSystem.start (.makeDirectory sampleMakeDirectory) sampleTwoShards .init = some sys₀ ∧
      run (TxnSystem.step sampleCluster (.makeDirectory sampleMakeDirectory)) sys₀
        [sampleRespond 3, sampleRespond 4, sampleRespond 5, .timeout, sampleRespond 6,
          sampleRespond 7] = some sys ∧
      sys.log.any sampleUnlocked = true ∧
      sys.sent[3]? = some (0, .write (.createLockedCurrentEdge r)) ∧
      sys.step sampleCluster (.makeDirectory sampleMakeDirectory)
        (.deliver 3 ⟨8, samplePick, sampleCache⟩) = some sys' ∧
      Harmless ((sampleCluster.shard 0).edgeName r.dirId r.name) (sys.shards 0) (sys'.shards 0) := by
  have hlate : ∃ sys₀,
      TxnSystem.start (.makeDirectory sampleMakeDirectory) sampleTwoShards .init = some sys₀ ∧
      ∃ sys, run (TxnSystem.step sampleCluster (.makeDirectory sampleMakeDirectory)) sys₀
        [sampleRespond 3, sampleRespond 4, sampleRespond 5, .timeout, sampleRespond 6,
          sampleRespond 7] = some sys ∧
      sys.log.any sampleUnlocked = true ∧
      sys.sent[3]? = some (0, .write (.createLockedCurrentEdge
        ⟨.rootDir, [98], .of .directory 1 0, 0⟩)) ∧
      LateOk (sampleCluster.shard 0) (sys.shards 0) 8 ⟨.rootDir, [98], .of .directory 1 0, 0⟩ ∧
      (sys.step sampleCluster (.makeDirectory sampleMakeDirectory)
        (.deliver 3 ⟨8, samplePick, sampleCache⟩)).isSome := by decide +kernel
  obtain ⟨sys₀, hstart, sys, hrun, hunlocked, hsent, hok, hsome⟩ := hlate
  obtain ⟨sys', hstep⟩ := isSome_iff_exists.1 hsome
  exact ⟨sys₀, sys, sys', _, hstart, hrun, hunlocked, hsent, hstep,
    (lateCopy_harmless_iff hsent hstep).2 hok⟩

end TernFS
