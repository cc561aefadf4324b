/-
# What shards answer to the coordinator

For each kind of request that a transaction sends, every answer that the shard can give, together
with what it says about the database of the shard: which error stands for which state of the
directory and of the edge.  The requests are well formed as far as the shard checks them before it
looks at its database.
-/
import TernFS.CDC.Cluster

namespace TernFS

open Lib

variable {dirId : InodeId} {name : Bytes} {e : TernError} {allowSnapshot : Bool}

/-! ## The kinds of answers -/

section

variable (cfg : ShardConfig) (db : ShardDB) (time : ℕ)

/-- The answers to a request that modifies a directory and looks at nothing else. -/
inductive DirectoryAnswer (allowSnapshot : Bool) (dirId : InodeId) : ShardResult → Prop
  | noDirectory {e : Failure} (hdir : getDirectory db dirId allowSnapshot = .error e) :
    DirectoryAnswer allowSnapshot dirId (.error .directoryNotFound)
  | young {dir : DirectoryBody} (hdir : getDirectory db dirId allowSnapshot = .ok dir)
      (hmtime : ¬ dir.mtime < time) : DirectoryAnswer allowSnapshot dirId (.error .mtimeIsTooRecent)
  | done {dir : DirectoryBody} (hdir : getDirectory db dirId allowSnapshot = .ok dir)
      (hmtime : dir.mtime < time) : DirectoryAnswer allowSnapshot dirId (.ok .done)

/-- The answers to `LockCurrentEdge` and `UnlockCurrentEdge`. -/
inductive EdgeAnswer (dirId : InodeId) (name : Bytes) (creationTime : ℕ) : ShardResult → Prop
  | noDirectory {e : Failure} (hdir : getDirectory db dirId false = .error e) :
    EdgeAnswer dirId name creationTime (.error .directoryNotFound)
  | young {dir : DirectoryBody} (hdir : getDirectory db dirId false = .ok dir)
      (hmtime : ¬ dir.mtime < time) : EdgeAnswer dirId name creationTime (.error .mtimeIsTooRecent)
  | noEdge {dir : DirectoryBody} (hdir : getDirectory db dirId false = .ok dir)
      (hmtime : dir.mtime < time) (hedge : db.currentEdges.get (cfg.edgeName dirId name) = none) :
    EdgeAnswer dirId name creationTime (.error .edgeNotFound)
  | otherEdge {dir : DirectoryBody} {edge : CurrentEdgeBody}
      (hdir : getDirectory db dirId false = .ok dir) (hmtime : dir.mtime < time)
      (hedge : db.currentEdges.get (cfg.edgeName dirId name) = some edge)
      (htime : edge.creationTime ≠ creationTime) :
    EdgeAnswer dirId name creationTime (.error .mismatchingCreationTime)
  | done {dir : DirectoryBody} {edge : CurrentEdgeBody}
      (hdir : getDirectory db dirId false = .ok dir) (hmtime : dir.mtime < time)
      (hedge : db.currentEdges.get (cfg.edgeName dirId name) = some edge)
      (htime : edge.creationTime = creationTime) : EdgeAnswer dirId name creationTime (.ok .done)

/-- The answers to `CreateLockedCurrentEdge`. -/
inductive CreateAnswer (r : CreateLockedCurrentEdgeReq) : ShardResult → Prop
  | noDirectory {e : Failure} (hdir : getDirectory db r.dirId false = .error e) :
    CreateAnswer r (.error .directoryNotFound)
  | young {dir : DirectoryBody} (hdir : getDirectory db r.dirId false = .ok dir)
      (hmtime : ¬ dir.mtime < time) : CreateAnswer r (.error .mtimeIsTooRecent)
  | laterSnapshot {dir : DirectoryBody} (hdir : getDirectory db r.dirId false = .ok dir)
      (hmtime : dir.mtime < time)
      (hedge : db.currentEdges.get (cfg.edgeName r.dirId r.name) = none) :
    CreateAnswer r (.error .moreRecentSnapshotEdge)
  | otherTarget {dir : DirectoryBody} {edge : CurrentEdgeBody}
      (hdir : getDirectory db r.dirId false = .ok dir) (hmtime : dir.mtime < time)
      (hedge : db.currentEdges.get (cfg.edgeName r.dirId r.name) = some edge)
      (hlocked : edge.locked = true) (htarget : edge.targetId ≠ r.targetId) :
    CreateAnswer r (.error .mismatchingTarget)
  | otherTime {dir : DirectoryBody} {edge : CurrentEdgeBody}
      (hdir : getDirectory db r.dirId false = .ok dir) (hmtime : dir.mtime < time)
      (hedge : db.currentEdges.get (cfg.edgeName r.dirId r.name) = some edge)
      (hlocked : edge.locked = true) (htarget : edge.targetId = r.targetId)
      (htime : edge.creationTime ≠ r.oldCreationTime) :
    CreateAnswer r (.error .mismatchingCreationTime)
  | laterEdge {dir : DirectoryBody} {edge : CurrentEdgeBody}
      (hdir : getDirectory db r.dirId false = .ok dir) (hmtime : dir.mtime < time)
      (hedge : db.currentEdges.get (cfg.edgeName r.dirId r.name) = some edge)
      (hlocked : edge.locked = false) : CreateAnswer r (.error .moreRecentCurrentEdge)
  | directory {dir : DirectoryBody} {edge : CurrentEdgeBody}
      (hdir : getDirectory db r.dirId false = .ok dir) (hmtime : dir.mtime < time)
      (hedge : db.currentEdges.get (cfg.edgeName r.dirId r.name) = some edge)
      (hlocked : edge.locked = false) : CreateAnswer r (.error .cannotOverrideName)
  | done {dir : DirectoryBody} {creationTime : ℕ}
      (hdir : getDirectory db r.dirId false = .ok dir) (hmtime : dir.mtime < time)
      (hedge : ∀ edge, db.currentEdges.get (cfg.edgeName r.dirId r.name) = some edge →
        edge.locked = true → edge.targetId = r.targetId) :
    CreateAnswer r (.ok (.createLockedCurrentEdge creationTime))

/-- The answers to `RemoveDirectoryOwner`. -/
inductive RemoveOwnerAnswer (dirId : InodeId) : ShardResult → Prop
  | notDirectory {e : Failure} (hdir : getDirectory db dirId true = .error e) :
    RemoveOwnerAnswer dirId (.error .typeIsNotDirectory)
  | noDirectory {e : Failure} (hdir : getDirectory db dirId true = .error e) :
    RemoveOwnerAnswer dirId (.error .directoryNotFound)
  | young {dir : DirectoryBody} (hdir : getDirectory db dirId true = .ok dir)
      (hmtime : ¬ dir.mtime < time) : RemoveOwnerAnswer dirId (.error .mtimeIsTooRecent)
  | notEmpty {dir : DirectoryBody} (hdir : getDirectory db dirId true = .ok dir)
      (hmtime : dir.mtime < time) (howner : dir.ownerId ≠ .null) (hedge : HasCurrentEdge db dirId) :
    RemoveOwnerAnswer dirId (.error .directoryNotEmpty)
  | done {dir : DirectoryBody} (hdir : getDirectory db dirId true = .ok dir)
      (hmtime : dir.mtime < time) (hedge : dir.ownerId ≠ .null → ¬ HasCurrentEdge db dirId) :
    RemoveOwnerAnswer dirId (.ok .done)

/-- The answers to `RemoveInode` for a directory. -/
inductive RemoveInodeAnswer (dirId : InodeId) : ShardResult → Prop
  | root (hroot : dirId = .rootDir) : RemoveInodeAnswer dirId (.error .cannotRemoveRootDirectory)
  | noDirectory {e : Failure} (hroot : dirId ≠ .rootDir)
      (hdir : getDirectory db dirId true = .error e) : RemoveInodeAnswer dirId (.ok .done)
  | young {dir : DirectoryBody} (hroot : dirId ≠ .rootDir)
      (hdir : getDirectory db dirId true = .ok dir) (hmtime : ¬ dir.mtime < time) :
    RemoveInodeAnswer dirId (.error .mtimeIsTooRecent)
  | hasOwner {dir : DirectoryBody} (hroot : dirId ≠ .rootDir)
      (hdir : getDirectory db dirId true = .ok dir) (hmtime : dir.mtime < time) :
    RemoveInodeAnswer dirId (.error .directoryHasOwner)
  | notEmpty {dir : DirectoryBody} (hroot : dirId ≠ .rootDir)
      (hdir : getDirectory db dirId true = .ok dir) (hmtime : dir.mtime < time) :
    RemoveInodeAnswer dirId (.error .directoryNotEmpty)
  | done {dir : DirectoryBody} (hroot : dirId ≠ .rootDir)
      (hdir : getDirectory db dirId true = .ok dir) (hmtime : dir.mtime < time) :
    RemoveInodeAnswer dirId (.ok .done)

/-- The answers to `CreateDirectoryInode`. -/
inductive CreateDirectoryAnswer (id ownerId : InodeId) : ShardResult → Prop
  | notDirectory (htype : id.type ≠ .directory) :
    CreateDirectoryAnswer id ownerId (.error .typeIsNotDirectory)
  | otherOwner {dir : DirectoryBody} (hdir : getDirectory db id false = .ok dir)
      (howner : dir.ownerId ≠ ownerId) : CreateDirectoryAnswer id ownerId (.error .mismatchingOwner)
  | done {creationTime : ℕ} (htype : id.type = .directory)
      (howner : ∀ dir, getDirectory db id false = .ok dir → dir.ownerId = ownerId) :
    CreateDirectoryAnswer id ownerId (.ok (.createDirectoryInode creationTime))

end

/-! ## From requests to answers -/

/-- How a computation on the database is answered. -/
def Answers : Checked (ShardDB × ShardResp) → ShardResult → Prop
  | .ok (_, resp), result => result = .ok resp
  | .error (.err e), result => result = .error e
  | .error .crash, _ => False

section

variable {cfg : ShardConfig} {db db' : ShardDB} {d : Delivery} {result : ShardResult} {time : ℕ}

@[simp] lemma answers_ok {out : ShardDB × ShardResp} :
    Answers (.ok out) result ↔ result = .ok out.2 := Iff.rfl

@[simp] lemma answers_err :
    Answers (.error (.err e)) result ↔ result = .error e := Iff.rfl

/-- A check holds, or its error is the answer. -/
lemma answers_check {c : Prop} [Decidable c] {f : PUnit → Checked (ShardDB × ShardResp)}
    (h : Answers (check c e >>= f) result) :
    (c ∧ Answers (f ⟨⟩) result) ∨ (¬ c ∧ result = .error e) := by
  by_cases hc : c
  · rw [check_of hc, ok_bind] at h
    exact .inl ⟨hc, h⟩
  · rw [check_of_not hc, error_bind, answers_err] at h
    exact .inr ⟨hc, h⟩

/-- How a request is prepared, and what is logged for it. -/
def Prepares (cfg : ShardConfig) (d : Delivery) (req : ShardReq) {α : Type} (prepare : Checked α)
    (body : α → ShardLogEntryBody) : Prop :=
  prepareLogEntry cfg d.time d.pick req = (body <$> prepare) >>= fun body => pure ⟨d.time, body⟩

section

variable {α : Type} {req : ShardReq} {prepare : Checked α} {body : α → ShardLogEntryBody} {a : α}
  (h : handle cfg db d (.write req) = some (db', result)) (hreq : Prepares cfg d req prepare body)
include h hreq

/-- A write whose preparation succeeds is answered as its entry is. -/
lemma answers_of_handle (hprepare : prepare = .ok a) :
    Answers (applyEntryBody cfg d.cache db d.time (body a)) result := by
  have hlog : prepareLogEntry cfg d.time d.pick req = .ok ⟨d.time, body a⟩ := by
    rw [hreq, hprepare]
    rfl
  simp only [handle, hlog, applyLogEntry, if_true] at h
  split at h
  · rename_i batch resp happly
    cases h
    rw [happly, answers_ok]
  · rename_i e happly
    cases h
    rw [happly, answers_err]
  · cases h

/-- A write that cannot be prepared is answered with the error. -/
lemma eq_of_handle_refused (hprepare : prepare = .error (.err e)) : result = .error e := by
  have hlog : prepareLogEntry cfg d.time d.pick req = .error (.err e) := by
    rw [hreq, hprepare]
    rfl
  rw [handle, hlog] at h
  cases h
  rfl

/-- The preparation of a write that is answered has failed no assertion. -/
lemma ne_crash_of_handle : prepare ≠ .error .crash := by
  intro hprepare
  have hlog : prepareLogEntry cfg d.time d.pick req = .error .crash := by
    rw [hreq, hprepare]
    rfl
  simp [handle, hlog] at h

end

/-- The only error of looking up a directory by the id of one. -/
lemma eq_directoryNotFound {e : Failure} (htype : dirId.type = .directory)
    (hdir : getDirectory db dirId allowSnapshot = .error e) : e = .err .directoryNotFound := by
  rw [getDirectory, check_of htype, ok_bind] at hdir
  cases hget : db.directories.get dirId with
  | none =>
    rw [hget, orFail, error_bind] at hdir
    exact (Except.error.inj hdir).symm
  | some dir =>
    rw [hget, orFail, ok_bind] at hdir
    by_cases hsnapshot : allowSnapshot = true ∨ dir.ownerId ≠ .null ∨ dirId = .rootDir
    · rw [check_of hsnapshot, ok_bind] at hdir
      cases hdir
    · rw [check_of_not hsnapshot, error_bind] at hdir
      exact (Except.error.inj hdir).symm

/-- A directory that is to be modified is not there, or too young, or the modification goes on. -/
lemma answers_initiate {f : ShardDB × DirectoryBody → Checked (ShardDB × ShardResp)}
    (htype : dirId.type = .directory)
    (h : Answers (initiateDirectoryModification db db time allowSnapshot dirId >>= f) result) :
    (∃ e, getDirectory db dirId allowSnapshot = .error e ∧ result = .error .directoryNotFound) ∨
    (∃ dir, getDirectory db dirId allowSnapshot = .ok dir ∧ ¬ dir.mtime < time ∧
      result = .error .mtimeIsTooRecent) ∨
    ∃ dir, getDirectory db dirId allowSnapshot = .ok dir ∧ dir.mtime < time ∧
      Answers (f ({ db with directories := db.directories.put dirId { dir with mtime := time } },
        { dir with mtime := time })) result := by
  rw [initiateDirectoryModification] at h
  cases hdir : getDirectory db dirId allowSnapshot with
  | error =>
    obtain rfl := eq_directoryNotFound htype hdir
    rw [hdir, error_bind, error_bind, answers_err] at h
    exact .inl ⟨_, rfl, h⟩
  | ok dir =>
    rw [hdir, ok_bind, bind_assoc] at h
    rcases answers_check h with ⟨hmtime, h⟩ | ⟨hmtime, rfl⟩
    · exact .inr (.inr ⟨dir, rfl, hmtime, h⟩)
    · exact .inr (.inl ⟨dir, rfl, hmtime, rfl⟩)

/-- A directory is there to be modified, or the answer says why not. -/
lemma directoryAnswer_of_answers {f : ShardDB × DirectoryBody → ShardDB}
    (htype : dirId.type = .directory) (h : Answers (do
      let out ← initiateDirectoryModification db db time allowSnapshot dirId
      return (f out, .done)) result) : DirectoryAnswer db time allowSnapshot dirId result := by
  rcases answers_initiate htype h with ⟨e, hdir, rfl⟩ | ⟨dir, hdir, hmtime, rfl⟩ |
    ⟨dir, hdir, hmtime, h⟩
  · exact .noDirectory hdir
  · exact .young hdir hmtime
  · exact (answers_ok.1 h) ▸ .done hdir hmtime

/-- An edge to be locked or unlocked is there with its creation time, or the answer says why not. -/
lemma edgeAnswer_of_answers {creationTime : ℕ}
    {f : ShardDB × DirectoryBody → CurrentEdgeBody → Checked (ShardDB × ShardResp)}
    (htype : dirId.type = .directory) (hf : ∀ out body, ∃ batch, f out body = .ok (batch, .done))
    (h : Answers (do
      let out ← initiateDirectoryModification db db time false dirId
      let body ← orFail (.err .edgeNotFound) (db.currentEdges.get (cfg.edgeName dirId name))
      check (body.creationTime = creationTime) .mismatchingCreationTime
      f out body) result) : EdgeAnswer cfg db time dirId name creationTime result := by
  rcases answers_initiate htype h with ⟨e, hdir, rfl⟩ | ⟨dir, hdir, hmtime, rfl⟩ |
    ⟨dir, hdir, hmtime, h⟩
  · exact .noDirectory hdir
  · exact .young hdir hmtime
  cases hedge : db.currentEdges.get (cfg.edgeName dirId name) with
  | none =>
    rw [hedge, orFail, error_bind, answers_err] at h
    exact h ▸ .noEdge hdir hmtime hedge
  | some edge =>
    rw [hedge, orFail, ok_bind] at h
    rcases answers_check h with ⟨htime, h⟩ | ⟨htime, rfl⟩
    · obtain ⟨batch, hbatch⟩ := hf _ edge
      rw [hbatch, answers_ok] at h
      exact h ▸ .done hdir hmtime hedge htime
    · exact .otherEdge hdir hmtime hedge htime

lemma handle_lockCurrentEdge {r : LockCurrentEdgeReq} (htype : r.dirId.type = .directory)
    (hshard : r.dirId.shard = cfg.shid)
    (h : handle cfg db d (.write (.lockCurrentEdge r)) = some (db', result)) :
    EdgeAnswer cfg db d.time r.dirId r.name r.creationTime result := by
  have hprepare : prepareLockCurrentEdge cfg r = .ok r := by
    simp [prepareLockCurrentEdge, checkDirectoryRequest, htype, hshard]
  refine edgeAnswer_of_answers htype ?_ (answers_of_handle h rfl hprepare)
  intro out body
  split_ifs <;> exact ⟨_, rfl⟩

lemma handle_unlockCurrentEdge {r : UnlockCurrentEdgeReq} (htype : r.dirId.type = .directory)
    (hshard : r.dirId.shard = cfg.shid)
    (h : handle cfg db d (.write (.unlockCurrentEdge r)) = some (db', result)) :
    EdgeAnswer cfg db d.time r.dirId r.name r.creationTime result := by
  have hprepare : prepareUnlockCurrentEdge cfg r = .ok r := by
    simp [prepareUnlockCurrentEdge, checkDirectoryRequest, htype, hshard]
  refine edgeAnswer_of_answers htype ?_ (answers_of_handle h rfl hprepare)
  intro out body
  split_ifs <;> exact ⟨_, rfl⟩

section

variable {r : CreateLockedCurrentEdgeReq} (htype : r.dirId.type = .directory)
  (hshard : r.dirId.shard = cfg.shid) (hname : ValidName r.name)
  (h : handle cfg db d (.write (.createLockedCurrentEdge r)) = some (db', result))
include htype hshard hname h

/-- No edge is made to nothing: the shard stops. -/
lemma targetId_ne_null_of_handle : r.targetId ≠ .null := by
  intro htarget
  refine ne_crash_of_handle h rfl ?_
  simp only [prepareCreateLockedCurrentEdge, checkDirectoryRequest, assert, check_of htype,
    check_of hshard, check_of hname, ensure_of_not (not_not.2 htarget), ok_bind, error_bind]

lemma handle_createLockedCurrentEdge : CreateAnswer cfg db d.time r result := by
  have htarget := targetId_ne_null_of_handle htype hshard hname h
  have hprepare : prepareCreateLockedCurrentEdge cfg r = .ok r := by
    simp [prepareCreateLockedCurrentEdge, checkDirectoryRequest, htype, hshard, hname, htarget]
  have hanswers : Answers (createCurrentEdge cfg db db d.time r.dirId r.name r.targetId true
      r.oldCreationTime >>= fun out => pure (out.1, .createLockedCurrentEdge out.2)) result :=
    answers_of_handle h rfl hprepare
  rw [createCurrentEdge, bind_assoc] at hanswers
  rcases answers_initiate htype hanswers with ⟨e, hdir, rfl⟩ | ⟨dir, hdir, hmtime, rfl⟩ |
    ⟨dir, hdir, hmtime, hanswers⟩
  · exact .noDirectory hdir
  · exact .young hdir hmtime
  cases hedge : db.currentEdges.get (cfg.edgeName r.dirId r.name) with
  | none =>
    simp only [hedge, bind_assoc] at hanswers
    rcases answers_check hanswers with ⟨-, hanswers⟩ | ⟨-, rfl⟩
    · refine (answers_ok.1 hanswers) ▸ .done hdir hmtime ?_
      simp [hedge]
    · exact .laterSnapshot hdir hmtime hedge
  | some edge =>
    simp only [hedge] at hanswers
    cases hlocked : edge.locked with
    | true =>
      rw [if_pos hlocked, check_of trivial, ok_bind, bind_assoc] at hanswers
      rcases answers_check hanswers with ⟨htarget, hanswers⟩ | ⟨htarget, rfl⟩
      · rw [bind_assoc] at hanswers
        rcases answers_check hanswers with ⟨htime, hanswers⟩ | ⟨htime, rfl⟩
        · refine (answers_ok.1 hanswers) ▸ .done hdir hmtime ?_
          rintro edge' hedge' -
          rw [hedge, Option.some_inj] at hedge'
          exact hedge' ▸ htarget
        · exact .otherTime hdir hmtime hedge hlocked htarget htime
      · exact .otherTarget hdir hmtime hedge hlocked htarget
    | false =>
      rw [if_neg (by simp [hlocked]), bind_assoc] at hanswers
      rcases answers_check hanswers with ⟨-, hanswers⟩ | ⟨-, rfl⟩
      · rw [bind_assoc] at hanswers
        rcases answers_check hanswers with ⟨-, hanswers⟩ | ⟨-, rfl⟩
        · refine (answers_ok.1 hanswers) ▸ .done hdir hmtime ?_
          intro edge' hedge' hlocked'
          rw [hedge, Option.some_inj] at hedge'
          rw [← hedge', hlocked] at hlocked'
          cases hlocked'
        · exact .directory hdir hmtime hedge hlocked
      · exact .laterEdge hdir hmtime hedge hlocked

end

/-- What is wrong with a request that is not well formed. -/
lemma prepareCreateLockedCurrentEdge_refused {r : CreateLockedCurrentEdgeReq}
    (hshard : r.dirId.shard = cfg.shid) (h : ¬ (r.dirId.type = .directory ∧ ValidName r.name)) :
    prepareCreateLockedCurrentEdge cfg r = .error (.err .typeIsNotDirectory) ∨
      prepareCreateLockedCurrentEdge cfg r = .error (.err .badName) := by
  simp only [prepareCreateLockedCurrentEdge, checkDirectoryRequest]
  by_cases htype : r.dirId.type = .directory
  · have hname : ¬ ValidName r.name := fun hname => h ⟨htype, hname⟩
    simp only [check_of htype, check_of hshard, check_of_not hname, ok_bind, error_bind]
    exact .inr trivial
  · simp only [check_of_not htype, error_bind]
    exact .inl trivial

/-- The answers to `CreateLockedCurrentEdge` when the request need not be well formed. -/
lemma handle_createLockedCurrentEdge_cases {r : CreateLockedCurrentEdgeReq}
    (hshard : r.dirId.shard = cfg.shid)
    (h : handle cfg db d (.write (.createLockedCurrentEdge r)) = some (db', result)) :
    CreateAnswer cfg db d.time r result ∨ result = .error .typeIsNotDirectory ∨
      result = .error .badName := by
  by_cases hok : r.dirId.type = .directory ∧ ValidName r.name
  · exact .inl (handle_createLockedCurrentEdge hok.1 hshard hok.2 h)
  · rcases prepareCreateLockedCurrentEdge_refused hshard hok with htype | hname
    · exact .inr (.inl (eq_of_handle_refused h rfl htype))
    · exact .inr (.inr (eq_of_handle_refused h rfl hname))

/-- The root directory has no owner to remove: the shard stops. -/
lemma dirId_ne_rootDir_of_handle {r : RemoveDirectoryOwnerReq} (hshard : r.dirId.shard = cfg.shid)
    (h : handle cfg db d (.write (.removeDirectoryOwner r)) = some (db', result)) :
    r.dirId ≠ .rootDir := by
  intro hroot
  have htype : r.dirId.type = .directory := by
    rw [hroot]
    decide
  refine ne_crash_of_handle h rfl ?_
  simp only [prepareRemoveDirectoryOwner, checkDirectoryRequest, assert, check_of htype,
    check_of hshard, ensure_of_not (not_not.2 hroot), ok_bind, error_bind]

lemma handle_removeDirectoryOwner {r : RemoveDirectoryOwnerReq} (hshard : r.dirId.shard = cfg.shid)
    (h : handle cfg db d (.write (.removeDirectoryOwner r)) = some (db', result)) :
    RemoveOwnerAnswer db d.time r.dirId result := by
  by_cases htype : r.dirId.type ≠ .directory
  · have hrefused : prepareRemoveDirectoryOwner cfg r = .error (.err .typeIsNotDirectory) := by
      simp only [prepareRemoveDirectoryOwner, checkDirectoryRequest, check_of_not htype, error_bind]
    rw [eq_of_handle_refused h rfl hrefused]
    exact .notDirectory (by rw [getDirectory, check_of_not htype, error_bind])
  rw [not_not] at htype
  have hroot := dirId_ne_rootDir_of_handle hshard h
  have hprepare : prepareRemoveDirectoryOwner cfg r = .ok r := by
    simp [prepareRemoveDirectoryOwner, checkDirectoryRequest, htype, hshard, hroot]
  have hanswers := answers_of_handle h rfl hprepare
  simp only [applyEntryBody, applyRemoveDirectoryOwner] at hanswers
  rcases answers_initiate htype hanswers with ⟨e, hdir, rfl⟩ | ⟨dir, hdir, hmtime, rfl⟩ |
    ⟨dir, hdir, hmtime, hanswers⟩
  · exact .noDirectory hdir
  · exact .young hdir hmtime
  by_cases howner : dir.ownerId = .null
  · rw [if_pos howner] at hanswers
    exact (answers_ok.1 hanswers) ▸ .done hdir hmtime (absurd howner)
  rw [if_neg howner] at hanswers
  rcases answers_check hanswers with ⟨hedge, hanswers⟩ | ⟨hedge, rfl⟩
  · exact (answers_ok.1 hanswers) ▸ .done hdir hmtime fun _ => hedge
  · exact .notEmpty hdir hmtime howner (not_not.1 hedge)

lemma handle_setDirectoryOwner {r : SetDirectoryOwnerReq} (htype : r.dirId.type = .directory)
    (hshard : r.dirId.shard = cfg.shid) (howner : r.ownerId.type = .directory)
    (h : handle cfg db d (.write (.setDirectoryOwner r)) = some (db', result)) :
    DirectoryAnswer db d.time true r.dirId result := by
  have hprepare : prepareSetDirectoryOwner cfg r = .ok r := by
    simp [prepareSetDirectoryOwner, checkDirectoryRequest, htype, hshard, howner]
  exact directoryAnswer_of_answers htype (answers_of_handle h rfl hprepare)

lemma handle_removeOwnedSnapshotFileEdge {r : SameShardHardFileUnlinkReq}
    (htype : r.ownerId.type = .directory) (hshard : r.ownerId.shard = cfg.shid)
    (htarget : r.targetId.IsFile)
    (h : handle cfg db d (.write (.removeOwnedSnapshotFileEdge r)) = some (db', result)) :
    DirectoryAnswer db d.time true r.ownerId result := by
  have hprepare : prepareRemoveOwnedSnapshotFileEdge cfg r = .ok r := by
    simp [prepareRemoveOwnedSnapshotFileEdge, htype, hshard, htarget]
  exact directoryAnswer_of_answers htype (answers_of_handle h rfl hprepare)

lemma handle_removeInode {r : RemoveInodeReq} (htype : r.id.type = .directory)
    (hshard : r.id.shard = cfg.shid)
    (h : handle cfg db d (.write (.removeInode r)) = some (db', result)) :
    RemoveInodeAnswer db d.time r.id result := by
  have hnull : r.id ≠ .null := by
    intro hnull
    rw [hnull] at htype
    cases htype
  by_cases hroot : r.id = .rootDir
  · have hrefused : prepareRemoveInode cfg r = .error (.err .cannotRemoveRootDirectory) := by
      simp only [prepareRemoveInode, check_of hshard, check_of hnull,
        check_of_not (not_not.2 hroot), ok_bind, error_bind]
    rw [eq_of_handle_refused h rfl hrefused]
    exact .root hroot
  have hprepare : prepareRemoveInode cfg r = .ok r := by
    simp [prepareRemoveInode, hshard, hnull, hroot]
  have hanswers := answers_of_handle h rfl hprepare
  rw [applyEntryBody, applyRemoveInode, if_pos htype, applyRemoveDirectoryInode, assert,
    ensure_of htype, ok_bind, initiateDirectoryModification] at hanswers
  cases hdir : getDirectory db r.id true with
  | error =>
    obtain rfl := eq_directoryNotFound htype hdir
    rw [hdir] at hanswers
    exact (answers_ok.1 hanswers) ▸ .noDirectory hroot hdir
  | ok dir =>
    rw [hdir, ok_bind] at hanswers
    by_cases hmtime : dir.mtime < d.time
    · rw [check_of hmtime, ok_bind] at hanswers
      rcases answers_check hanswers with ⟨-, hanswers⟩ | ⟨-, rfl⟩
      · rcases answers_check hanswers with ⟨-, hanswers⟩ | ⟨-, rfl⟩
        · exact (answers_ok.1 hanswers) ▸ .done hroot hdir hmtime
        · exact .notEmpty hroot hdir hmtime
      · exact .hasOwner hroot hdir hmtime
    · rw [check_of_not hmtime] at hanswers
      exact (answers_err.1 hanswers) ▸ .young hroot hdir hmtime

lemma handle_createDirectoryInode {r : CreateDirectoryInodeReq} (hshard : r.id.shard = cfg.shid)
    (howner : r.ownerId.type = .directory)
    (h : handle cfg db d (.write (.createDirectoryInode r)) = some (db', result)) :
    CreateDirectoryAnswer db r.id r.ownerId result := by
  by_cases htype : r.id.type = .directory
  · have hprepare : prepareCreateDirectoryInode cfg r = .ok r := by
      simp [prepareCreateDirectoryInode, hshard, htype, howner]
    have hanswers := answers_of_handle h rfl hprepare
    simp only [applyEntryBody, applyCreateDirectoryInode] at hanswers
    cases hdir : getDirectory db r.id false with
    | error =>
      obtain rfl := eq_directoryNotFound htype hdir
      rw [hdir] at hanswers
      exact (answers_ok.1 hanswers) ▸ .done htype fun dir hdir' => by rw [hdir] at hdir'; cases hdir'
    | ok dir =>
      rw [hdir] at hanswers
      dsimp only at hanswers
      by_cases hsame : dir.ownerId = r.ownerId
      · rw [check_of hsame, ok_bind] at hanswers
        refine (answers_ok.1 hanswers) ▸ .done htype fun dir' hdir' => ?_
        rw [hdir, Except.ok.injEq] at hdir'
        exact hdir' ▸ hsame
      · rw [check_of_not hsame, error_bind, answers_err] at hanswers
        exact hanswers ▸ .otherOwner hdir hsame
  · have htypes : ¬ (r.id.type = .directory ∧ r.ownerId.type = .directory) := fun hboth =>
      htype hboth.1
    have hrefused : prepareCreateDirectoryInode cfg r = .error (.err .typeIsNotDirectory) := by
      simp only [prepareCreateDirectoryInode, check_of hshard, ok_bind, check_of_not htypes,
        error_bind]
    rw [eq_of_handle_refused h rfl hrefused]
    exact .notDirectory htype

/-- A file is made transient, or was so before, or is not there. -/
lemma handle_makeFileTransient {r : MakeFileTransientReq} (hfile : r.id.IsFile)
    (hshard : r.id.shard = cfg.shid)
    (h : handle cfg db d (.write (.makeFileTransient r)) = some (db', result)) :
    result = .ok .done ∨ result = .error .fileNotFound := by
  have hprepare : prepareMakeFileTransient cfg d.time r = .ok ⟨r.id, d.time, r.note⟩ := by
    simp [prepareMakeFileTransient, hfile, hshard]
  have hanswers := answers_of_handle h rfl hprepare
  simp only [applyEntryBody, applyMakeFileTransient] at hanswers
  cases hget : db.files.get r.id with
  | none =>
    have hmissing : getFile db r.id = .error (.err .fileNotFound) := by
      rw [getFile, check_of hfile, ok_bind, hget, orFail]
    rw [hmissing] at hanswers
    dsimp only at hanswers
    split at hanswers
    · exact .inl (answers_ok.1 hanswers)
    · exact .inr (answers_err.1 hanswers)
  | some file =>
    have hthere : getFile db r.id = .ok file := by
      rw [getFile, check_of hfile, ok_bind, hget, orFail]
    rw [hthere] at hanswers
    exact .inl (answers_ok.1 hanswers)

/-! ## Reads -/

lemma handle_lookup (htype : dirId.type = .directory)
    (h : handle cfg db d (.read (.lookup dirId name)) = some (db', result)) :
    result = .error .directoryNotFound ∨ result = .error .nameNotFound ∨
      ∃ targetId creationTime, result = .ok (.lookup targetId creationTime) := by
  simp only [handle, read, lookup] at h
  cases hdir : getDirectory db dirId false with
  | error =>
    obtain rfl := eq_directoryNotFound htype hdir
    rw [hdir] at h
    cases h
    exact .inl rfl
  | ok =>
    simp only [hdir, ok_bind] at h
    cases hedge : db.currentEdges.get (cfg.edgeName dirId name) with
    | none =>
      rw [hedge] at h
      cases h
      exact .inr (.inl rfl)
    | some =>
      rw [hedge] at h
      cases h
      exact .inr (.inr ⟨_, _, rfl⟩)

lemma handle_fullReadDir (htype : dirId.type = .directory) (hname : name ≠ [])
    (h : handle cfg db d (.read (.fullReadDir dirId name)) = some (db', result)) :
    (result = .error .directoryNotFound ∧ ∃ e, getDirectory db dirId true = .error e) ∨
      result = .ok (.fullReadDir []) ∨ ∃ time, result = .ok (.fullReadDir [time]) := by
  simp only [handle, read, fullReadDir, check_of hname, ok_bind] at h
  cases hdir : getDirectory db dirId true with
  | error =>
    obtain rfl := eq_directoryNotFound htype hdir
    rw [hdir] at h
    cases h
    exact .inl ⟨rfl, _, rfl⟩
  | ok =>
    simp only [hdir, ok_bind] at h
    cases hedge : db.currentEdges.get (cfg.edgeName dirId name) with
    | some =>
      rw [hedge] at h
      cases h
      exact .inr (.inr ⟨_, rfl⟩)
    | none =>
      rw [hedge] at h
      cases hlast : lastSnapshotTime db (cfg.edgeName dirId name) with
      | none =>
        rw [hlast] at h
        cases h
        exact .inr (.inl rfl)
      | some time =>
        rw [hlast] at h
        cases h
        exact .inr (.inr ⟨time, rfl⟩)

/-- What is wrong with a request that is not well formed. -/
lemma fullReadDir_refused (h : ¬ (dirId.type = .directory ∧ name ≠ [])) :
    fullReadDir cfg db dirId name = .error (.err .typeIsNotDirectory) ∨
      fullReadDir cfg db dirId name = .error (.err .malformedRequest) := by
  by_cases hname : name ≠ []
  · have htype : ¬ dirId.type = .directory := fun htype => h ⟨htype, hname⟩
    rw [fullReadDir, check_of hname, ok_bind, getDirectory, check_of_not htype, error_bind]
    exact .inl rfl
  · rw [fullReadDir, check_of_not hname, error_bind]
    exact .inr rfl

/-- A read that is refused is answered with the error. -/
lemma eq_of_handle_read_refused {req : ShardReadReq}
    (h : handle cfg db d (.read req) = some (db', result))
    (hread : read cfg db req = .error (.err e)) : result = .error e := by
  rw [handle, hread] at h
  cases h
  rfl

/-- The answers to `FullReadDir` when the request need not be well formed. -/
lemma handle_fullReadDir_cases
    (h : handle cfg db d (.read (.fullReadDir dirId name)) = some (db', result)) :
    (result = .error .directoryNotFound ∧ ∃ e, getDirectory db dirId true = .error e) ∨
      result = .ok (.fullReadDir []) ∨ (∃ time, result = .ok (.fullReadDir [time])) ∨
      result = .error .typeIsNotDirectory ∨ result = .error .malformedRequest := by
  by_cases hok : dirId.type = .directory ∧ name ≠ []
  · rcases handle_fullReadDir hok.1 hok.2 h with hdir | hnone | hone
    · exact .inl hdir
    · exact .inr (.inl hnone)
    · exact .inr (.inr (.inl hone))
  · rcases fullReadDir_refused hok with hread | hread
    · exact .inr (.inr (.inr (.inl (eq_of_handle_read_refused h hread))))
    · exact .inr (.inr (.inr (.inr (eq_of_handle_read_refused h hread))))

lemma handle_statDirectory {id : InodeId}
    (h : handle cfg db d (.read (.statDirectory id)) = some (db', result)) :
    (∃ e e', getDirectory db id true = .error e ∧ result = .error e' ∧ e' ≠ .timeout) ∨
      ∃ dir, getDirectory db id true = .ok dir ∧
        result = .ok (.statDirectory dir.mtime dir.ownerId dir.info) := by
  simp only [handle, read, statDirectory] at h
  cases hdir : getDirectory db id true with
  | error =>
    by_cases htype : id.type = .directory
    · obtain rfl := eq_directoryNotFound htype hdir
      rw [hdir] at h
      cases h
      exact .inl ⟨_, _, rfl, rfl, by decide⟩
    · rw [getDirectory, check_of_not htype, error_bind] at h hdir
      cases hdir
      cases h
      exact .inl ⟨_, _, rfl, rfl, by decide⟩
  | ok dir =>
    rw [hdir] at h
    cases h
    exact .inr ⟨dir, rfl, rfl⟩

end

end TernFS
