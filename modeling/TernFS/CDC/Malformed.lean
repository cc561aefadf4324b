/-
# Malformed requests

The coordinator checks little of what a client asks for: it logs the request, locks its directories
and sends the ids and names on to the shards.  A shard checks them before anything else, and most
steps assert that there was nothing to complain about.  So a request of the wrong type of id or with
a name that cannot be one stops the coordinator, and some stop the shard.  This file says for any
request at all which ones are taken through a step.
-/
import TernFS.CDC.Responses
import TernFS.CDC.Queues
import TernFS.Shard.Failures

namespace TernFS

open Lib Option

/-! ## The checks of the shards -/

/-- The errors of a request that is refused for its ids and names. -/
def TernError.IsRefusal (e : TernError) : Prop :=
  e = .typeIsNotDirectory ∨ e = .typeIsDirectory ∨ e = .badName ∨ e = .malformedRequest

/-- The inode whose shard a request of the coordinator is for. -/
def CDCShardReq.inode : CDCShardReq → InodeId
  | .read (.lookup dirId _) | .read (.fullReadDir dirId _) | .read (.statDirectory dirId) => dirId
  | .write (.createDirectoryInode r) => r.id
  | .write (.createLockedCurrentEdge r) => r.dirId
  | .write (.unlockCurrentEdge r) => r.dirId
  | .write (.lockCurrentEdge r) => r.dirId
  | .write (.removeDirectoryOwner r) => r.dirId
  | .write (.removeInode r) => r.id
  | .write (.setDirectoryOwner r) => r.dirId
  | .write (.removeOwnedSnapshotFileEdge r) => r.ownerId
  | .write (.makeFileTransient r) => r.id
  | .write _ => .null

/-- What a shard checks of the ids and names in a request of the coordinator. -/
def CDCShardReq.FieldsOk : CDCShardReq → Prop
  | .read (.lookup dirId _) => dirId.type = .directory
  | .read (.fullReadDir dirId name) => dirId.type = .directory ∧ name ≠ []
  | .write (.createDirectoryInode r) => r.ownerId.type = .directory
  | .write (.createLockedCurrentEdge r) => r.dirId.type = .directory ∧ ValidName r.name
  | .write (.unlockCurrentEdge r) => r.dirId.type = .directory
  | .write (.lockCurrentEdge r) => r.dirId.type = .directory
  | .write (.setDirectoryOwner r) => r.ownerId.type = .directory
  | .write (.removeOwnedSnapshotFileEdge r) => r.ownerId.type = .directory ∧ r.targetId.IsFile
  | .write (.makeFileTransient r) => r.id.IsFile
  | _ => True

/-- What a shard asserts of the ids in a request of the coordinator; there are no other requests. -/
def CDCShardReq.AssertsOk : CDCShardReq → Prop
  | .read _ => True
  | .write (.createLockedCurrentEdge r) => r.targetId ≠ .null
  | .write (.removeDirectoryOwner r) => r.dirId ≠ .rootDir
  | .write (.removeInode r) => r.id.type = .reserved → r.id = .null
  | .write (.createDirectoryInode _) | .write (.unlockCurrentEdge _) | .write (.lockCurrentEdge _)
  | .write (.setDirectoryOwner _) | .write (.removeOwnedSnapshotFileEdge _)
  | .write (.makeFileTransient _) => True
  | .write _ => False

section

variable {cfg : ShardConfig} {db db' : ShardDB} {d : Delivery} {r : CDCShardReq}
  {result : ShardResult}

lemma prepareRemoveOwnedSnapshotFileEdge_refused {q : SameShardHardFileUnlinkReq}
    (hshard : q.ownerId.shard = cfg.shid)
    (h : ¬ (q.ownerId.type = .directory ∧ q.targetId.IsFile)) :
    ∃ e : TernError, e.IsRefusal ∧ prepareRemoveOwnedSnapshotFileEdge cfg q = .error (.err e) := by
  by_cases htype : q.ownerId.type = .directory
  · have hfile : ¬ q.targetId.IsFile := fun hfile => h ⟨htype, hfile⟩
    refine ⟨.typeIsDirectory, .inr (.inl rfl), ?_⟩
    simp only [prepareRemoveOwnedSnapshotFileEdge, check_of htype, check_of hshard,
      check_of_not hfile, ok_bind, error_bind]
  · refine ⟨.typeIsNotDirectory, .inl rfl, ?_⟩
    simp only [prepareRemoveOwnedSnapshotFileEdge, check_of_not htype, error_bind]

/-- A request with a bad field is answered with a refusal. -/
lemma CDCShardReq.refusal_of_handle (hshard : r.inode.shard = cfg.shid) (hfields : ¬ r.FieldsOk)
    (h : handle cfg db d r = some (db', result)) :
    ∃ e : TernError, e.IsRefusal ∧ result = .error e := by
  unfold FieldsOk at hfields
  split at hfields
  · refine ⟨.typeIsNotDirectory, .inl rfl, eq_of_handle_read_refused h ?_⟩
    simp only [TernFS.read, lookup, getDirectory, check_of_not hfields, error_bind]
  · rcases fullReadDir_refused hfields with hread | hread
    · exact ⟨_, .inl rfl, eq_of_handle_read_refused h hread⟩
    · exact ⟨_, .inr (.inr (.inr rfl)), eq_of_handle_read_refused h hread⟩
  · rename_i q
    have hboth : ¬ (q.id.type = .directory ∧ q.ownerId.type = .directory) := fun h => hfields h.2
    refine ⟨.typeIsNotDirectory, .inl rfl, eq_of_handle_refused h rfl ?_⟩
    simp only [inode] at hshard
    simp only [prepareCreateDirectoryInode, check_of hshard, check_of_not hboth, ok_bind, error_bind]
  · rcases prepareCreateLockedCurrentEdge_refused hshard hfields with hprepare | hprepare
    · exact ⟨_, .inl rfl, eq_of_handle_refused h rfl hprepare⟩
    · exact ⟨_, .inr (.inr (.inl rfl)), eq_of_handle_refused h rfl hprepare⟩
  · refine ⟨.typeIsNotDirectory, .inl rfl, eq_of_handle_refused h rfl ?_⟩
    simp only [prepareUnlockCurrentEdge, checkDirectoryRequest, check_of_not hfields, error_bind]
  · refine ⟨.typeIsNotDirectory, .inl rfl, eq_of_handle_refused h rfl ?_⟩
    simp only [prepareLockCurrentEdge, checkDirectoryRequest, check_of_not hfields, error_bind]
  · rename_i q
    refine ⟨.typeIsNotDirectory, .inl rfl, eq_of_handle_refused h rfl ?_⟩
    simp only [inode] at hshard
    simp only [prepareSetDirectoryOwner, checkDirectoryRequest]
    by_cases htype : q.dirId.type = .directory
    · simp only [check_of htype, check_of hshard, check_of_not hfields, ok_bind, error_bind]
    · simp only [check_of_not htype, error_bind]
  · obtain ⟨e, he, hprepare⟩ := prepareRemoveOwnedSnapshotFileEdge_refused hshard hfields
    exact ⟨e, he, eq_of_handle_refused h rfl hprepare⟩
  · refine ⟨.typeIsDirectory, .inr (.inl rfl), eq_of_handle_refused h rfl ?_⟩
    simp only [prepareMakeFileTransient, check_of_not hfields, error_bind]
  · exact absurd trivial hfields

/-- A request of the coordinator is answered if neither its preparation nor its log entry fails an
assertion. -/
lemma handle_write_isSome {α : Type} {q : ShardReq} {prepare : Checked α}
    {body : α → ShardLogEntryBody}
    (hreq : Prepares cfg d q prepare body) (hprepare : FailsOnly (· ≠ .crash) prepare)
    (happly : ∀ e, prepare = .ok e →
      FailsOnly (· ≠ .crash) (applyEntryBody cfg d.cache db d.time (body e))) :
    (handle cfg db d (.write q)).isSome := by
  cases hp : prepare with
  | ok e =>
    rw [hp] at hreq
    have hlog : prepareLogEntry cfg d.time d.pick q = .ok ⟨d.time, body e⟩ := hreq
    have hbody := happly e hp
    simp only [handle, hlog, applyLogEntry, if_true]
    split
    · rfl
    · rfl
    · rename_i hcrash
      exact absurd rfl (hbody _ hcrash)
  | error e =>
    rw [hp] at hreq
    have hlog : prepareLogEntry cfg d.time d.pick q = .error e := hreq
    cases e with
    | err => simp only [handle, hlog, isSome_some]
    | crash => exact absurd rfl (hprepare _ hp)

/-- A shard answers the request if the assertions of its preparation hold. -/
lemma CDCShardReq.handle_isSome (hasserts : r.AssertsOk) : (handle cfg db d r).isSome := by
  have herr : Allows (· ≠ .crash) cfg db := allows_err
  unfold AssertsOk at hasserts
  split at hasserts
  · rename_i q
    have hread : FailsOnly (· ≠ .crash) (TernFS.read cfg db q) := by
      cases q with
      | lookup => simp [TernFS.read, lookup, getDirectory]
      | fullReadDir =>
        simp only [TernFS.read, fullReadDir, failsOnly_bind, failsOnly_check]
        refine ⟨fun _ => herr.other _ rfl, fun _ _ => ⟨getDirectory_failsOnly herr, fun _ _ => ?_⟩⟩
        split <;> exact failsOnly_pure
      | statDirectory => simp [TernFS.read, statDirectory, getDirectory]
    simp only [handle]
    split
    · rfl
    · rfl
    · rename_i hcrash
      exact absurd rfl (hread _ hcrash)
  · exact handle_write_isSome rfl
      (by simp [prepareCreateLockedCurrentEdge, checkDirectoryRequest, hasserts])
      fun _ _ => applyCreateLockedCurrentEdge_failsOnly herr
  · exact handle_write_isSome rfl
      (by simp [prepareRemoveDirectoryOwner, checkDirectoryRequest, hasserts])
      fun _ _ => applyRemoveDirectoryOwner_failsOnly herr
  · refine handle_write_isSome rfl (by simp [prepareRemoveInode]) fun e he => ?_
    simp only [prepareRemoveInode, bind_eq_ok, check_eq_ok, exists_const] at he
    obtain ⟨-, hnull, -, ⟨⟩⟩ := he
    exact applyRemoveInode_failsOnly herr fun htype => absurd (hasserts htype) hnull
  · exact handle_write_isSome rfl (by simp [prepareCreateDirectoryInode])
      fun _ _ => applyCreateDirectoryInode_failsOnly herr
  · exact handle_write_isSome rfl (by simp [prepareUnlockCurrentEdge, checkDirectoryRequest])
      fun _ _ => applyUnlockCurrentEdge_failsOnly herr
  · exact handle_write_isSome rfl (by simp [prepareLockCurrentEdge, checkDirectoryRequest])
      fun _ _ => applyLockCurrentEdge_failsOnly herr
  · exact handle_write_isSome rfl (by simp [prepareSetDirectoryOwner, checkDirectoryRequest])
      fun _ _ => applySetDirectoryOwner_failsOnly herr
  · exact handle_write_isSome rfl (by simp [prepareRemoveOwnedSnapshotFileEdge])
      fun _ _ => applyRemoveOwnedSnapshotFileEdge_failsOnly herr
  · exact handle_write_isSome rfl (by simp [prepareMakeFileTransient])
      fun _ _ => applyMakeFileTransient_failsOnly herr
  · exact hasserts.elim

/-- The file can be removed: nothing links it, and if it is transient it is overdue and empty. -/
def FileRemovable (db : ShardDB) (time : ℕ) (id : InodeId) : Prop :=
  id.IsFile ∧ match db.transientFiles.get id with
    | some file => file.deadline < time ∧ ¬ HasSpan db id
    | none => db.files.get id = none

/-- A file that can be removed is removed, and the other errors are not expected by the
coordinator. -/
lemma applyRemoveFileInode_cases (db : ShardDB) (time : ℕ) (id : InodeId) :
    (FileRemovable db time id ∧ ∃ batch, applyRemoveFileInode db time id = .ok (batch, .done)) ∨
    (¬ FileRemovable db time id ∧ (applyRemoveFileInode db time id = .error .crash ∨
      ∃ e, (e = .fileIsNotTransient ∨ e = .deadlineNotPassed ∨ e = .fileNotEmpty) ∧
        applyRemoveFileInode db time id = .error (.err e))) := by
  by_cases hfile : id.IsFile
  · cases htransient : db.transientFiles.get id with
    | some file =>
      have hget : getTransientFile db time true id = .ok file :=
        getTransientFile_eq_ok.2 ⟨hfile, htransient, .inl rfl⟩
      simp only [FileRemovable, htransient, hfile, true_and, applyRemoveFileInode, assert, hget]
      by_cases hdeadline : file.deadline < time
      · by_cases hspan : ¬ HasSpan db id
        · rw [check_of hdeadline, check_of hspan]
          exact .inl ⟨⟨hdeadline, hspan⟩, _, rfl⟩
        · rw [check_of hdeadline, check_of_not hspan]
          exact .inr ⟨fun h => hspan h.2, .inr ⟨_, .inr (.inr rfl), rfl⟩⟩
      · rw [check_of_not hdeadline]
        exact .inr ⟨fun h => hdeadline h.1, .inr ⟨_, .inr (.inl rfl), rfl⟩⟩
    | none =>
      have hget : getTransientFile db time true id = .error (.err .fileNotFound) := by
        rw [getTransientFile, check_of hfile, htransient]
        rfl
      simp only [FileRemovable, htransient, hfile, true_and, applyRemoveFileInode, assert,
        hget, getFile]
      cases db.files.get id with
      | some => exact .inr ⟨by rintro ⟨⟩, .inr ⟨_, .inl rfl, rfl⟩⟩
      | none => exact .inl ⟨rfl, _, rfl⟩
  · refine .inr ⟨fun h => hfile h.1, .inl ?_⟩
    rw [applyRemoveFileInode, assert, ensure_of_not hfile, error_bind]

/-- What the coordinator takes for the removal of a directory, when the id is that of a file. -/
lemma HardUnlinkDirectory.handled_file_iff {q : HardUnlinkDirectoryReq}
    (hshard : q.dirId.shard = cfg.shid) (htype : q.dirId.type ≠ .directory) :
    (∃ db' result, handle cfg db d (.write (.removeInode ⟨q.dirId⟩)) = some (db', result) ∧
      (afterRemoveInode q result).isSome) ↔ FileRemovable db d.time q.dirId := by
  by_cases hnull : q.dirId = .null
  · have hprepare : prepareRemoveInode cfg ⟨q.dirId⟩ = .error (.err .malformedRequest) := by
      simp only [prepareRemoveInode, check_of hshard, check_of_not (not_not.2 hnull), ok_bind,
        error_bind]
    constructor
    · rintro ⟨db', result, hhandle, hafter⟩
      rw [eq_of_handle_refused hhandle rfl hprepare] at hafter
      cases hafter
    · rintro ⟨hfile, -⟩
      rw [hnull] at hfile
      exact absurd hfile (by decide)
  have hroot : q.dirId ≠ .rootDir := by
    intro hroot
    rw [hroot] at htype
    exact htype (by decide)
  have hprepare : prepareLogEntry cfg d.time d.pick (.removeInode ⟨q.dirId⟩) =
      .ok ⟨d.time, .removeInode ⟨q.dirId⟩⟩ := by
    simp [prepareLogEntry, prepareRemoveInode, hshard, hnull, hroot]
  simp only [handle, hprepare, applyLogEntry, if_true, applyEntryBody, applyRemoveInode,
    if_neg htype]
  rcases applyRemoveFileInode_cases db d.time q.dirId with ⟨hremovable, batch, happly⟩ |
    ⟨hremovable, happly | ⟨e, he, happly⟩⟩
  · simp only [happly, hremovable, iff_true]
    exact ⟨_, _, rfl, rfl⟩
  · simp [happly, hremovable]
  · rcases he with rfl | rfl | rfl <;> simp [happly, hremovable, afterRemoveInode]

end

/-! ## The steps of the transactions -/

/-- What the shards assert of the ids in the requests of the steps. -/
def CDCReq.TargetOk : CDCReq → TxnState → Prop
  | makeDirectory _, .makeDirectory .createLockedEdge state => state.dirId ≠ .null
  | makeDirectory _, .makeDirectory .rollback state => state.dirId ≠ .rootDir
  | renameFile r, .renameFile .createNewLockedEdge _ => r.targetId ≠ .null
  | softUnlinkDirectory r, .softUnlinkDirectory .removeOwner _ => r.targetId ≠ .rootDir
  | _, _ => True

section

variable {cfg : ClusterConfig} {req : CDCReq} {state : TxnState} {shid : Fin 256} {r : CDCShardReq}

/-- The request of a step goes to the shard of its inode. -/
lemma CDCReq.Waits.shid_eq (hwaits : req.Waits state shid r) : shid = r.inode.shardId := by
  have hcurrent := hwaits.current
  cases hwaits.runs with
  | makeDirectory q step | hardUnlinkDirectory q step | renameFile q step
  | softUnlinkDirectory q step | renameDirectory q step | crossShardHardUnlinkFile q step =>
    cases step <;> first
      | cases hcurrent; rfl
      | cases hcurrent; done
      | obtain ⟨rfl, info, rfl⟩ := hcurrent; rfl

/-- A request that passes the checks of the shard has the fields that its step needs. -/
lemma CDCReq.Waits.fieldsOk (hwaits : req.Waits state shid r) (hfields : r.FieldsOk)
    (hunlink : ∀ q, req = .hardUnlinkDirectory q → q.dirId.type = .directory) :
    req.FieldsOk state := by
  have hcurrent := hwaits.current
  cases hwaits.runs with
  | makeDirectory q step | renameFile q step | softUnlinkDirectory q step
  | renameDirectory q step =>
    cases step <;> first | trivial | cases hcurrent; exact hfields
  | hardUnlinkDirectory q => exact hunlink q rfl
  | crossShardHardUnlinkFile q step =>
    have hreserved : q.targetId.IsFile → q.targetId.type ≠ .reserved := by
      intro hfile htype
      simp [InodeId.IsFile, htype] at hfile
    cases step with
    | start => trivial
    | removeEdge => cases hcurrent; exact ⟨hfields.1, hreserved hfields.2⟩
    | makeTransient => cases hcurrent; exact hreserved hfields

/-- No step expects a refusal, apart from those whose request has nothing to be refused for. -/
lemma CDCReq.after_refusal {e : TernError} (he : e.IsRefusal) (hruns : req.Runs state)
    (hfields : ¬ req.FieldsOk state) : req.after state (.error e) = none := by
  cases hruns with
  | makeDirectory q step | renameDirectory q step =>
    cases step with
    | start | rollback => exact absurd trivial hfields
    | _ => rcases he with rfl | rfl | rfl | rfl <;> rfl
  | hardUnlinkDirectory q step | renameFile q step | softUnlinkDirectory q step
  | crossShardHardUnlinkFile q step =>
    cases step with
    | start => rfl
    | _ => rcases he with rfl | rfl | rfl | rfl <;> rfl

/-- The assertions of the shard hold for the request of the step. -/
lemma CDCReq.Waits.assertsOk (hwaits : req.Waits state shid r) (hfields : req.FieldsOk state)
    (htarget : req.TargetOk state) : r.AssertsOk := by
  have hcurrent := hwaits.current
  cases hwaits.runs with
  | makeDirectory q step | renameFile q step => cases step <;> cases hcurrent <;> exact htarget
  | hardUnlinkDirectory q step =>
    have htype : q.dirId.type = .directory := hfields
    cases step with
    | start => cases hcurrent
    | removeInode =>
      cases hcurrent
      intro hreserved
      exact absurd (htype.symm.trans hreserved) (by decide)
  | softUnlinkDirectory q step =>
    cases step with
    | start => cases hcurrent
    | removeOwner =>
      obtain ⟨-, info, rfl⟩ := hcurrent
      exact htarget
    | _ => cases hcurrent; trivial
  | renameDirectory q step =>
    have hadmitted : q.targetId.type = .directory := hwaits.admitted
    have hnull : q.targetId ≠ .null := by
      intro hnull
      rw [hnull] at hadmitted
      exact absurd hadmitted (by decide)
    cases step <;> cases hcurrent <;> first | exact hnull | trivial
  | crossShardHardUnlinkFile q step => cases step <;> cases hcurrent <;> trivial

/-- A request that was answered has not failed an assertion. -/
lemma CDCReq.Waits.targetOk {db db' : ShardDB} {d : Delivery} {result : ShardResult}
    (hwaits : req.Waits state shid r) (hfields : req.FieldsOk state)
    (h : handle (cfg.shard shid) db d r = some (db', result)) : req.TargetOk state := by
  have hcurrent := hwaits.current
  cases hwaits.runs with
  | makeDirectory q step | renameFile q step | softUnlinkDirectory q step =>
    cases step <;> first
      | trivial
      | cases hcurrent; exact targetId_ne_null_of_handle hfields.1 (cfg.shard_eq _) hfields.2 h
      | cases hcurrent; exact dirId_ne_rootDir_of_handle (cfg.shard_eq _) h
      | obtain ⟨rfl, info, rfl⟩ := hcurrent; exact dirId_ne_rootDir_of_handle (cfg.shard_eq _) h
  | _ => trivial

end

/-! ## Any request -/

/-- No directory that the request locks is the null one. -/
def CDCReq.LocksOk : CDCReq → Prop
  | makeDirectory r => r.ownerId ≠ .null
  | renameFile r | renameDirectory r => r.oldOwnerId ≠ .null ∧ r.newOwnerId ≠ .null
  | softUnlinkDirectory r => r.ownerId ≠ .null ∧ r.targetId ≠ .null
  | hardUnlinkDirectory r => r.dirId ≠ .null
  | crossShardHardUnlinkFile r => r.ownerId ≠ .null

/-- When a step of the transaction is taken: its request passes the checks and the assertions of the
shard and the answer is expected, or a file is removed in the place of a directory. -/
def CDCReq.StepOk (cfg : ShardConfig) (db : ShardDB) (time : ℕ) (req : CDCReq) (state : TxnState) :
    Prop :=
  req.FieldsOk state ∧ req.TargetOk state ∧ req.ResponseOk cfg db time state ∨
    ∃ q, req = .hardUnlinkDirectory q ∧ q.dirId.type ≠ .directory ∧ FileRemovable db time q.dirId

lemma CDCReq.directoriesNeedingLock_isSome_iff (req : CDCReq) :
    req.directoriesNeedingLock.isSome ↔ req.LocksOk := by
  have hlock : moveDirectoryLock ≠ .null := by decide
  cases req with
  | makeDirectory r | crossShardHardUnlinkFile r => by_cases h : r.ownerId = .null <;>
      simp [directoriesNeedingLock, addLocks, addLock, LocksOk, h]
  | hardUnlinkDirectory r => by_cases h : r.dirId = .null <;>
      simp [directoriesNeedingLock, addLocks, addLock, LocksOk, h]
  | renameFile r =>
    by_cases hold : r.oldOwnerId = .null <;> by_cases hnew : r.newOwnerId = .null <;>
      simp [directoriesNeedingLock, addLocks, addLock, LocksOk, hold, hnew]
  | softUnlinkDirectory r =>
    by_cases howner : r.ownerId = .null <;> by_cases htarget : r.targetId = .null <;>
      simp [directoriesNeedingLock, addLocks, addLock, LocksOk, howner, htarget]
  | renameDirectory r =>
    by_cases hold : r.oldOwnerId = .null <;> by_cases hnew : r.newOwnerId = .null <;>
      by_cases hsame : r.newOwnerId = r.oldOwnerId <;>
      simp_all [directoriesNeedingLock, addLocks, addLock, LocksOk]

section

variable {cfg : ClusterConfig} {req : CDCReq} {state : TxnState} {shid : Fin 256} {r : CDCShardReq}

/-- The request of a step is answered, and the answer is handled, exactly if the step can be
taken. -/
lemma CDCReq.Waits.stepOk_iff (hwaits : req.Waits state shid r) (db : ShardDB) (d : Delivery) :
    (∃ db' result, handle (cfg.shard shid) db d r = some (db', result) ∧
      (req.after state result).isSome) ↔ req.StepOk (cfg.shard shid) db d.time state := by
  by_cases hunlink : ∀ q, req = .hardUnlinkDirectory q → q.dirId.type = .directory
  · have hnofile : ¬ ∃ q, req = .hardUnlinkDirectory q ∧ q.dirId.type ≠ .directory ∧
        FileRemovable db d.time q.dirId := by
      rintro ⟨q, hq, htype, -⟩
      exact htype (hunlink q hq)
    rw [StepOk, or_iff_left hnofile]
    constructor
    · rintro ⟨db', result, hhandle, hafter⟩
      have hfields : req.FieldsOk state := by
        by_contra hfields
        -- a refusal is an error that the step does not expect
        have hshard : r.inode.shard = (cfg.shard shid).shid := by
          rw [hwaits.shid_eq]
          exact cfg.shard_eq _
        obtain ⟨e, he, rfl⟩ := CDCShardReq.refusal_of_handle hshard
          (fun h => hfields (hwaits.fieldsOk h hunlink)) hhandle
        rw [after_refusal he hwaits.runs hfields] at hafter
        cases hafter
      exact ⟨hfields, hwaits.targetOk hfields hhandle,
        (after_isSome_iff hhandle hfields hwaits).1 hafter⟩
    · rintro ⟨hfields, htarget, hresponse⟩
      have hsome : (handle (cfg.shard shid) db d r).isSome :=
        CDCShardReq.handle_isSome (hwaits.assertsOk hfields htarget)
      obtain ⟨⟨db', result⟩, hhandle⟩ := isSome_iff_exists.1 hsome
      exact ⟨db', result, hhandle, (after_isSome_iff hhandle hfields hwaits).2 hresponse⟩
  · push Not at hunlink
    obtain ⟨q, rfl, htype⟩ := hunlink
    have hcurrent := hwaits.current
    have hstep : StepOk (cfg.shard shid) db d.time (.hardUnlinkDirectory q) state ↔
        FileRemovable db d.time q.dirId := by
      constructor
      · rintro (⟨hfields, -⟩ | ⟨q', hq, -, hremovable⟩)
        · exact absurd hfields htype
        · cases hq
          exact hremovable
      · exact fun hremovable => .inr ⟨q, rfl, htype, hremovable⟩
    rw [hstep]
    cases state with
    | hardUnlinkDirectory step =>
      cases step with
      | start => cases hcurrent
      | removeInode =>
        cases hcurrent
        exact HardUnlinkDirectory.handled_file_iff (cfg.shard_eq _) htype
    | _ => cases hcurrent

/-- A machine that has started handles a response as its step does. -/
lemma CDCReq.resume_some_isSome_iff {env : CDCEnv} {result : ShardResult} (hstart : ¬ state.IsStart) :
    (req.resume env state (some result)).isSome ↔ (req.after state result).isSome := by
  rw [resume, if_neg hstart, isSome_map]

/-! ## The end of a transaction -/

/-- The answers that a transaction still needs if it does not have to try again. -/
def TxnStatus.ahead : TxnStatus → ℕ
  | .running state _ _ => state.ahead
  | .finished _ => 0

/-- The event is an answer. -/
def TxnEvent.isRespond : TxnEvent → Bool
  | .respond _ => true
  | _ => false

/-- The event can make the transaction send a request again. -/
def TxnSystem.repeats (cfg : ClusterConfig) (sys : TxnSystem) : TxnEvent → Bool
  | .timeout | .restart => true
  | .respond d =>
    match sys.txn with
    | .running _ shid r =>
      (handle (cfg.shard shid) (sys.shards shid) d r).any fun out => out.2.triesAgain
    | .finished _ => false
  | .client _ _ | .deliver _ _ => false

lemma TxnState.ahead_bounds (state : TxnState) : 0 < state.ahead ∧ state.ahead ≤ 6 := by
  unfold ahead
  split <;> decide

/-- An answer that does not make the transaction try again brings it nearer to its end. -/
lemma TxnSystem.ahead_of_step {sys sys' : TxnSystem} {ev : TxnEvent}
    (hreached : req.Reached cfg sys.txn) (hgo : sys.repeats cfg ev = false)
    (hstep : sys.step cfg req ev = some sys') :
    sys'.txn.ahead + [ev].countP TxnEvent.isRespond ≤ sys.txn.ahead := by
  cases txnStep_of_step hstep with
  | ignored | client | deliver => exact le_rfl
  | timeout | restart => cases hgo
  | @respond d state shid r db result env out htxn hhandle hresume =>
    have hwaits := (htxn ▸ hreached).waits rfl
    have hfollows := CDCReq.after_follows (hwaits.after_of_resume hresume)
    have hahead : out.status.ahead < state.ahead := by
      cases out with
      | needsShard =>
        refine hfollows.ahead ?_
        simpa only [repeats, htxn, hhandle, any_some] using hgo
      | finish | finishWithError => exact state.ahead_bounds.1
    rw [htxn]
    exact hahead

end

end TernFS
