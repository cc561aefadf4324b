/-
# What log entries do to directories and edges

The part of a shard that names things: its directories, its current edges and its snapshot edges.
Every entry either leaves it alone, or does one of a few things to it (`NamesStep`), and the entries
that concern nothing else leave the files and their spans alone.  Invariants of directories and
edges are proved by cases on these, without going back to the code.
-/
import TernFS.FileModel.Events
import TernFS.Shard.Inversion

namespace TernFS

open Lib SortedStore

/-- The directories and edges of a shard. -/
structure Names where
  directories : SortedStore InodeId DirectoryBody
  current : SortedStore EdgeName CurrentEdgeBody
  snapshot : SortedStore SnapshotEdgeKey SnapshotEdgeBody

/-- The directories and edges in a database. -/
def ShardDB.names (db : ShardDB) : Names := ⟨db.directories, db.currentEdges, db.snapshotEdges⟩

namespace Names

variable (v : Names)

/-- The directory is there, and it is not a snapshot. -/
def There (id : InodeId) (dir : DirectoryBody) : Prop :=
  v.directories.get id = some dir ∧ (dir.ownerId ≠ .null ∨ id = .rootDir)

/-- The directory is modified at `time`. -/
def touch (id : InodeId) (dir : DirectoryBody) (time : ℕ) : Names :=
  { v with directories := v.directories.put id { dir with mtime := time } }

/-- The current edge becomes a snapshot edge, and another one says when. -/
def unlink (edge : EdgeName) (creationTime : ℕ) (targetId : InodeId) (owned : Bool) (time : ℕ) :
    Names :=
  { v with
    current := v.current.delete edge
    snapshot := (v.snapshot.put ⟨edge, creationTime⟩ ⟨.of targetId owned⟩).put ⟨edge, time⟩
      ⟨.of .null false⟩ }

end Names

/-- A current edge is created in `w`, depending on what `v` has under the name. -/
inductive CreatedName (v w : Names) (time : ℕ) (edge : EdgeName) (targetId : InodeId)
    (locked : Bool) : Names → Prop
  | fresh (hnone : v.current.get edge = none) :
    CreatedName v w time edge targetId locked
      { w with current := w.current.put edge ⟨.of targetId locked, time⟩ }
  | relocked {existing : CurrentEdgeBody} (hsome : v.current.get edge = some existing)
      (hexisting : existing.locked = true) (hlocked : locked = true)
      (htarget : existing.targetId = targetId) :
    CreatedName v w time edge targetId locked
      { w with current := w.current.put edge ⟨.of targetId locked, existing.creationTime⟩ }
  | overridden {existing : CurrentEdgeBody} (hsome : v.current.get edge = some existing)
      (hexisting : existing.locked = false) (htime : existing.creationTime < time) :
    CreatedName v w time edge targetId locked { w with
        snapshot := w.snapshot.put ⟨edge, existing.creationTime⟩ ⟨.of existing.targetId true⟩
        current := w.current.put edge ⟨.of targetId locked, time⟩ }

/-- The directory that a request modifies also where it finds its work done. -/
def ShardReq.touched : ShardReq → Option InodeId
  | .removeNonOwnedEdge r => some r.dirId
  | .lockCurrentEdge r => some r.dirId
  | .unlockCurrentEdge r => some r.dirId
  | .removeDirectoryOwner r => some r.dirId
  | _ => none

/-- The snapshot edge that a request removes. -/
def ShardReq.removedSnapshot (cfg : ShardConfig) : ShardReq → Option SnapshotEdgeKey
  | .removeNonOwnedEdge r => some ⟨cfg.edgeName r.dirId r.name, r.creationTime⟩
  | .sameShardHardFileUnlink r | .removeOwnedSnapshotFileEdge r =>
    some ⟨cfg.edgeName r.ownerId r.name, r.creationTime⟩
  | _ => none

/-- What a request does to the directories and edges of a shard. -/
inductive NamesStep (cfg : ShardConfig) (time : ℕ) (v : Names) : ShardReq → Names → Prop
  /-- Any request may be refused, and most are not about names. -/
  | stay {req : ShardReq} : NamesStep cfg time v req v
  | touch {req : ShardReq} {id : InodeId} {dir : DirectoryBody}
      (hdir : v.directories.get id = some dir) (hmtime : dir.mtime < time)
      (hreq : req.touched = some id) : NamesStep cfg time v req (v.touch id dir time)
  | link {r : LinkFileReq} {dir : DirectoryBody} {w : Names} (hdir : v.There r.ownerId dir)
      (hmtime : dir.mtime < time)
      (hcreated : CreatedName v (v.touch r.ownerId dir time) time (cfg.edgeName r.ownerId r.name)
        r.fileId false w) :
    NamesStep cfg time v (.linkFile r) w
  | softUnlink {r : SoftUnlinkFileReq} {dir : DirectoryBody} {body : CurrentEdgeBody}
      (hdir : v.There r.ownerId dir) (hmtime : dir.mtime < time)
      (hbody : v.current.get (cfg.edgeName r.ownerId r.name) = some body)
      (hlocked : body.locked = false) :
    NamesStep cfg time v (.softUnlinkFile r)
      ((v.touch r.ownerId dir time).unlink (cfg.edgeName r.ownerId r.name) body.creationTime
        body.targetId true time)
  | rename {r : SameDirectoryRenameReq} {dir : DirectoryBody} {body : CurrentEdgeBody} {w : Names}
      (hdir : v.There r.dirId dir) (hmtime : dir.mtime < time) (hname : r.oldName ≠ r.newName)
      (hbody : v.current.get (cfg.edgeName r.dirId r.oldName) = some body)
      (hlocked : body.locked = false)
      (hcreated : CreatedName v ((v.touch r.dirId dir time).unlink (cfg.edgeName r.dirId r.oldName)
        body.creationTime body.targetId false time) time (cfg.edgeName r.dirId r.newName)
        body.targetId false w) :
    NamesStep cfg time v (.sameDirectoryRename r) w
  | restore {r : SameDirectoryRenameReq} {dir : DirectoryBody} {body : SnapshotEdgeBody} {w : Names}
      (hdir : v.There r.dirId dir) (hmtime : dir.mtime < time)
      (hbody : v.snapshot.get ⟨cfg.edgeName r.dirId r.oldName, r.oldCreationTime⟩ = some body)
      (htarget : body.targetIdWithOwned.id = r.targetId)
      (howned : body.targetIdWithOwned.extra = true)
      (hcreated : CreatedName v { v.touch r.dirId dir time with
          snapshot := v.snapshot.put ⟨cfg.edgeName r.dirId r.oldName, r.oldCreationTime⟩
            ⟨.of r.targetId false⟩ }
        time (cfg.edgeName r.dirId r.newName) r.targetId false w) :
    NamesStep cfg time v (.sameDirectoryRenameSnapshot r) w
  | removeSnapshot {req : ShardReq} {id : InodeId} {dir : DirectoryBody} {name : Bytes}
      {creationTime : ℕ} (hdir : v.directories.get id = some dir) (hmtime : dir.mtime < time)
      (hreq : req.removedSnapshot cfg = some ⟨cfg.edgeName id name, creationTime⟩) :
    NamesStep cfg time v req { v.touch id dir time with
      snapshot := v.snapshot.delete ⟨cfg.edgeName id name, creationTime⟩ }
  | removeDirectory {r : RemoveInodeReq} {dir : DirectoryBody}
      (hdir : v.directories.get r.id = some dir) (hroot : r.id ≠ .rootDir)
      (howner : dir.ownerId = .null)
      (hcurrent : ∀ e body, v.current.get e = some body → e.dirId ≠ r.id)
      (hsnapshot : ∀ k body, v.snapshot.get k = some body → k.edge.dirId ≠ r.id) :
    NamesStep cfg time v (.removeInode r) { v with directories := v.directories.delete r.id }
  | setInfo {r : SetDirectoryInfoReq} {dir : DirectoryBody}
      (hdir : v.directories.get r.id = some dir) (hmtime : dir.mtime < time) :
    NamesStep cfg time v (.setDirectoryInfo r)
      { v with directories := v.directories.put r.id ⟨dir.ownerId, time, r.info⟩ }
  | createLocked {r : CreateLockedCurrentEdgeReq} {dir : DirectoryBody} {w : Names}
      (hdir : v.There r.dirId dir) (hmtime : dir.mtime < time)
      (hcreated : CreatedName v (v.touch r.dirId dir time) time (cfg.edgeName r.dirId r.name)
        r.targetId true w) :
    NamesStep cfg time v (.createLockedCurrentEdge r) w
  | lock {r : LockCurrentEdgeReq} {dir : DirectoryBody} {body : CurrentEdgeBody}
      (hdir : v.There r.dirId dir) (hmtime : dir.mtime < time)
      (hbody : v.current.get (cfg.edgeName r.dirId r.name) = some body)
      (htime : body.creationTime = r.creationTime) (hlocked : body.locked = false) :
    NamesStep cfg time v (.lockCurrentEdge r) { v.touch r.dirId dir time with
      current := v.current.put (cfg.edgeName r.dirId r.name)
        ⟨.of r.targetId true, body.creationTime⟩ }
  | unlock {r : UnlockCurrentEdgeReq} {dir : DirectoryBody} {body : CurrentEdgeBody}
      (hdir : v.There r.dirId dir) (hmtime : dir.mtime < time)
      (hbody : v.current.get (cfg.edgeName r.dirId r.name) = some body)
      (htime : body.creationTime = r.creationTime) (hlocked : body.locked = true)
      (hmoved : r.wasMoved = false) :
    NamesStep cfg time v (.unlockCurrentEdge r) { v.touch r.dirId dir time with
      current := v.current.put (cfg.edgeName r.dirId r.name)
        ⟨.of r.targetId false, body.creationTime⟩ }
  | move {r : UnlockCurrentEdgeReq} {dir : DirectoryBody} {body : CurrentEdgeBody}
      (hdir : v.There r.dirId dir) (hmtime : dir.mtime < time)
      (hbody : v.current.get (cfg.edgeName r.dirId r.name) = some body)
      (htime : body.creationTime = r.creationTime) (hmoved : r.wasMoved = true) :
    NamesStep cfg time v (.unlockCurrentEdge r)
      ((v.touch r.dirId dir time).unlink (cfg.edgeName r.dirId r.name) body.creationTime
        r.targetId false time)
  | createDirectory {r : CreateDirectoryInodeReq} (htype : r.id.type = .directory)
      (howner : r.ownerId.type = .directory) (hdir : ∀ dir, ¬ v.There r.id dir) :
    NamesStep cfg time v (.createDirectoryInode r)
      { v with directories := v.directories.put r.id ⟨r.ownerId, time, r.info⟩ }
  | removeOwner {r : RemoveDirectoryOwnerReq} {dir : DirectoryBody}
      (hdir : v.directories.get r.dirId = some dir) (hmtime : dir.mtime < time)
      (hcurrent : ∀ e body, v.current.get e = some body → e.dirId ≠ r.dirId) :
    NamesStep cfg time v (.removeDirectoryOwner r)
      { v with directories := v.directories.put r.dirId ⟨.null, time, r.info⟩ }
  | setOwner {r : SetDirectoryOwnerReq} {dir : DirectoryBody}
      (hdir : v.directories.get r.dirId = some dir) (hmtime : dir.mtime < time)
      (howner : r.ownerId.type = .directory) :
    NamesStep cfg time v (.setDirectoryOwner r)
      { v with directories := v.directories.put r.dirId ⟨r.ownerId, time, dir.info⟩ }

section

variable {cfg : ShardConfig} {cache : BlockServicesCache} {db db' batch batch' : ShardDB} {time : ℕ}
  {resp : ShardResp} {dir : DirectoryBody}

/-! ## Entries about directories and edges -/

lemma there_of_getDirectory {id : InodeId} (h : getDirectory db id false = .ok dir) :
    db.names.There id dir := by
  obtain ⟨-, hget, hthere⟩ := getDirectory_eq_ok.1 h
  exact ⟨hget, by simpa using hthere⟩

/-- The code that creates a current edge does so in the names of the batch. -/
lemma CreatedEdge.names {edge : EdgeName} {targetId : InodeId} {locked : Bool}
    {oldCreationTime creationTime : ℕ}
    (h : CreatedEdge db batch time edge targetId locked oldCreationTime batch' creationTime) :
    CreatedName db.names batch.names time edge targetId locked batch'.names ∧
      batch'.fileSide = batch.fileSide := by
  cases h with
  | fresh hnone => exact ⟨.fresh hnone, rfl⟩
  | relocked hsome hexisting hlocked htarget =>
    exact ⟨.relocked hsome hexisting hlocked htarget, rfl⟩
  | overridden hsome hexisting htime => exact ⟨.overridden hsome hexisting htime, rfl⟩

lemma applySoftUnlinkFile_namesStep {r : SoftUnlinkFileReq}
    (h : applySoftUnlinkFile cfg db time r = .ok (db', resp)) :
    NamesStep cfg time db.names (.softUnlinkFile r) db'.names ∧ db'.fileSide = db.fileSide := by
  simp only [applySoftUnlinkFile, bind_eq_ok] at h
  obtain ⟨b, hunlink, ⟨⟩⟩ := h
  obtain ⟨dir, body, hdir, hmtime, hbody, htarget, htime, hlocked, rfl⟩ :=
    softUnlinkCurrentEdge_eq_ok hunlink
  rw [← htarget, ← htime]
  exact ⟨.softUnlink (there_of_getDirectory hdir) hmtime hbody hlocked, rfl⟩

lemma applySameDirectoryRename_names {r : SameDirectoryRenameReq}
    (h : applySameDirectoryRename cfg db time r = .ok (db', resp)) :
    (∃ dir body, db.names.There r.dirId dir ∧ dir.mtime < time ∧
      db.currentEdges.get (cfg.edgeName r.dirId r.oldName) = some body ∧ body.locked = false ∧
      CreatedName db.names ((db.names.touch r.dirId dir time).unlink
        (cfg.edgeName r.dirId r.oldName) body.creationTime body.targetId false time) time
        (cfg.edgeName r.dirId r.newName) body.targetId false db'.names) ∧
      db'.fileSide = db.fileSide := by
  simp only [applySameDirectoryRename, bind_eq_ok, Prod.exists] at h
  obtain ⟨b₁, hunlink, b₂, t, hcreate, ⟨⟩⟩ := h
  obtain ⟨dir, body, hdir, hmtime, hbody, htarget, htime, hlocked, rfl⟩ :=
    softUnlinkCurrentEdge_eq_ok hunlink
  obtain ⟨dir', hdir', -, hcreated⟩ := createCurrentEdge_eq_ok hcreate
  obtain rfl : dir = dir' := Except.ok.inj (hdir.symm.trans hdir')
  obtain ⟨hnames, hside⟩ := hcreated.names
  -- the directory is touched twice, at the same time
  simp only [ShardDB.names, put_put] at hnames
  rw [← htarget, ← htime] at hnames
  exact ⟨⟨dir, body, there_of_getDirectory hdir, hmtime, hbody, hlocked, hnames⟩, hside⟩

lemma applySameDirectoryRenameSnapshot_names {r : SameDirectoryRenameReq}
    (h : applySameDirectoryRenameSnapshot cfg db time r = .ok (db', resp)) :
    (∃ dir body, db.names.There r.dirId dir ∧ dir.mtime < time ∧
      db.snapshotEdges.get ⟨cfg.edgeName r.dirId r.oldName, r.oldCreationTime⟩ = some body ∧
      body.targetIdWithOwned.id = r.targetId ∧ body.targetIdWithOwned.extra = true ∧
      CreatedName db.names { db.names.touch r.dirId dir time with
          snapshot := db.snapshotEdges.put ⟨cfg.edgeName r.dirId r.oldName, r.oldCreationTime⟩
            ⟨.of r.targetId false⟩ }
        time (cfg.edgeName r.dirId r.newName) r.targetId false db'.names) ∧
      db'.fileSide = db.fileSide := by
  simp only [applySameDirectoryRenameSnapshot, bind_eq_ok, check_eq_ok, orFail_eq_ok, exists_const,
    Prod.exists] at h
  obtain ⟨b, _, hinit, body, hbody, htarget, howned, b₂, t, hcreate, ⟨⟩⟩ := h
  obtain ⟨dir, hdir, hmtime, rfl, rfl⟩ := initiateDirectoryModification_eq_ok.1 hinit
  obtain ⟨dir', hdir', -, hcreated⟩ := createCurrentEdge_eq_ok hcreate
  obtain rfl : dir = dir' := Except.ok.inj (hdir.symm.trans hdir')
  obtain ⟨hnames, hside⟩ := hcreated.names
  simp only [ShardDB.names, put_put] at hnames
  exact ⟨⟨dir, body, there_of_getDirectory hdir, hmtime, hbody, htarget, howned, hnames⟩, hside⟩

lemma applyRemoveDirectoryInode_namesStep {id : InodeId}
    (h : applyRemoveDirectoryInode db time id = .ok (db', resp)) :
    (∀ cfg r, r.id = id → id ≠ .rootDir →
      NamesStep cfg time db.names (.removeInode r) db'.names) ∧ db'.fileSide = db.fileSide := by
  simp only [applyRemoveDirectoryInode, bind_eq_ok, assert_eq_ok, exists_const] at h
  obtain ⟨-, h⟩ := h
  split at h
  · cases h
    exact ⟨fun _ _ _ _ => .stay, rfl⟩
  · cases h
  rename_i b dir hinit
  simp only [bind_eq_ok, check_eq_ok, exists_const] at h
  obtain ⟨howner, ⟨hsnapshot, hcurrent⟩, ⟨⟩⟩ := h
  obtain ⟨dir₀, hdir, -, rfl, rfl⟩ := initiateDirectoryModification_eq_ok.1 hinit
  refine ⟨fun cfg r hid hroot => ?_, rfl⟩
  subst hid
  have hstep : NamesStep cfg time db.names (.removeInode r)
      { db.names with directories := db.directories.delete r.id } :=
    .removeDirectory (getDirectory_eq_ok.1 hdir).2.1 hroot howner
      (fun e body hbody heq => hcurrent ⟨(e, body), mem_entries_iff.2 hbody, heq⟩)
      (fun k body hbody heq => hsnapshot ⟨(k, body), mem_entries_iff.2 hbody, heq⟩)
  simpa only [ShardDB.names, delete_put] using hstep

lemma applySetDirectoryInfo_namesStep {r : SetDirectoryInfoReq}
    (h : applySetDirectoryInfo db time r = .ok (db', resp)) :
    (∀ cfg, NamesStep cfg time db.names (.setDirectoryInfo r) db'.names) ∧
      db'.fileSide = db.fileSide := by
  simp only [applySetDirectoryInfo, bind_eq_ok, Prod.exists] at h
  obtain ⟨b, _, hinit, ⟨⟩⟩ := h
  obtain ⟨dir, hdir, hmtime, rfl, rfl⟩ := initiateDirectoryModification_eq_ok.1 hinit
  refine ⟨fun cfg => ?_, rfl⟩
  have hstep : NamesStep cfg time db.names (.setDirectoryInfo r)
      { db.names with directories := db.directories.put r.id ⟨dir.ownerId, time, r.info⟩ } :=
    .setInfo (getDirectory_eq_ok.1 hdir).2.1 hmtime
  simpa only [ShardDB.names, put_put] using hstep

lemma applyRemoveNonOwnedEdge_namesStep {entry : RemoveNonOwnedEdgeReq}
    (h : applyRemoveNonOwnedEdge cfg db time entry = .ok (db', resp)) :
    (∀ r, entry = { r with targetId := .null } →
      NamesStep cfg time db.names (.removeNonOwnedEdge r) db'.names) ∧
      db'.fileSide = db.fileSide := by
  simp only [applyRemoveNonOwnedEdge, bind_eq_ok, Prod.exists] at h
  obtain ⟨b, _, hinit, h⟩ := h
  obtain ⟨dir, hdir, hmtime, rfl, rfl⟩ := initiateDirectoryModification_eq_ok.1 hinit
  have hget := (getDirectory_eq_ok.1 hdir).2.1
  split at h
  · cases h
    refine ⟨?_, rfl⟩
    rintro r rfl
    exact .touch hget hmtime rfl
  · simp only [bind_eq_ok, check_eq_ok, exists_const] at h
    obtain ⟨-, ⟨⟩⟩ := h
    refine ⟨?_, rfl⟩
    rintro r rfl
    exact .removeSnapshot hget hmtime rfl

lemma applyRemoveOwnedSnapshotFileEdge_namesStep {r : SameShardHardFileUnlinkReq}
    (h : applyRemoveOwnedSnapshotFileEdge cfg db time r = .ok (db', resp)) :
    NamesStep cfg time db.names (.removeOwnedSnapshotFileEdge r) db'.names ∧
      db'.fileSide = db.fileSide := by
  simp only [applyRemoveOwnedSnapshotFileEdge, bind_eq_ok, Prod.exists] at h
  obtain ⟨b, _, hinit, ⟨⟩⟩ := h
  obtain ⟨dir, hdir, hmtime, rfl, rfl⟩ := initiateDirectoryModification_eq_ok.1 hinit
  exact ⟨.removeSnapshot (getDirectory_eq_ok.1 hdir).2.1 hmtime rfl, rfl⟩

/-! ## Entries of the coordinator -/

lemma applyCreateLockedCurrentEdge_namesStep {r : CreateLockedCurrentEdgeReq}
    (h : applyCreateLockedCurrentEdge cfg db time r = .ok (db', resp)) :
    NamesStep cfg time db.names (.createLockedCurrentEdge r) db'.names ∧
      db'.fileSide = db.fileSide := by
  simp only [applyCreateLockedCurrentEdge, bind_eq_ok, Prod.exists] at h
  obtain ⟨b, t, hcreate, ⟨⟩⟩ := h
  obtain ⟨dir, hdir, hmtime, hcreated⟩ := createCurrentEdge_eq_ok hcreate
  obtain ⟨hnames, hside⟩ := hcreated.names
  exact ⟨.createLocked (there_of_getDirectory hdir) hmtime hnames, hside⟩

lemma applyLockCurrentEdge_namesStep {r : LockCurrentEdgeReq}
    (h : applyLockCurrentEdge cfg db time r = .ok (db', resp)) :
    NamesStep cfg time db.names (.lockCurrentEdge r) db'.names ∧ db'.fileSide = db.fileSide := by
  simp only [applyLockCurrentEdge, bind_eq_ok, orFail_eq_ok, check_eq_ok, exists_const,
    Prod.exists] at h
  obtain ⟨b, _, hinit, body, hbody, htime, h⟩ := h
  obtain ⟨dir, hdir, hmtime, rfl, rfl⟩ := initiateDirectoryModification_eq_ok.1 hinit
  split_ifs at h with hlocked
  · cases h
    exact ⟨.touch (getDirectory_eq_ok.1 hdir).2.1 hmtime rfl, rfl⟩
  · cases h
    exact ⟨.lock (there_of_getDirectory hdir) hmtime hbody htime (by simpa using hlocked), rfl⟩

lemma applyUnlockCurrentEdge_namesStep {r : UnlockCurrentEdgeReq}
    (h : applyUnlockCurrentEdge cfg db time r = .ok (db', resp)) :
    NamesStep cfg time db.names (.unlockCurrentEdge r) db'.names ∧ db'.fileSide = db.fileSide := by
  simp only [applyUnlockCurrentEdge, bind_eq_ok, orFail_eq_ok, check_eq_ok, exists_const,
    Prod.exists] at h
  obtain ⟨b, _, hinit, body, hbody, htime, h⟩ := h
  obtain ⟨dir, hdir, hmtime, rfl, rfl⟩ := initiateDirectoryModification_eq_ok.1 hinit
  have hthere := there_of_getDirectory hdir
  cases hmoved : r.wasMoved with
  | false =>
    rw [hmoved] at h
    cases h
    split_ifs with hlocked
    · exact ⟨.unlock hthere hmtime hbody htime hlocked hmoved, rfl⟩
    · exact ⟨.touch hthere.1 hmtime rfl, rfl⟩
  | true =>
    simp only [hmoved, if_true, pure_eq_ok, Prod.mk.injEq] at h
    obtain ⟨rfl, -⟩ := h
    have hstep : NamesStep cfg time db.names (.unlockCurrentEdge r) _ :=
      .move hthere hmtime hbody htime hmoved
    split_ifs with hlocked
    · refine ⟨?_, rfl⟩
      simpa only [ShardDB.names, Names.touch, Names.unlink, delete_put] using hstep
    · exact ⟨hstep, rfl⟩

lemma applyCreateDirectoryInode_namesStep {r : CreateDirectoryInodeReq}
    (h : applyCreateDirectoryInode db time r = .ok (db', resp)) :
    (∀ cfg, r.id.type = .directory → r.ownerId.type = .directory →
      NamesStep cfg time db.names (.createDirectoryInode r) db'.names) ∧
      db'.fileSide = db.fileSide := by
  unfold applyCreateDirectoryInode at h
  split at h
  · simp only [bind_eq_ok, check_eq_ok, exists_const] at h
    obtain ⟨-, ⟨⟩⟩ := h
    exact ⟨fun _ _ _ => .stay, rfl⟩
  · rename_i hdir
    cases h
    refine ⟨fun cfg htype howner => .createDirectory htype howner fun dir hthere => ?_, rfl⟩
    have hok : getDirectory db r.id false = .ok dir :=
      getDirectory_eq_ok.2 ⟨htype, hthere.1, .inr hthere.2⟩
    rw [hok] at hdir
    cases hdir
  · cases h

lemma applyRemoveDirectoryOwner_namesStep {r : RemoveDirectoryOwnerReq}
    (h : applyRemoveDirectoryOwner db time r = .ok (db', resp)) :
    (∀ cfg, NamesStep cfg time db.names (.removeDirectoryOwner r) db'.names) ∧
      db'.fileSide = db.fileSide := by
  simp only [applyRemoveDirectoryOwner, bind_eq_ok, Prod.exists] at h
  obtain ⟨b, _, hinit, h⟩ := h
  obtain ⟨dir, hdir, hmtime, rfl, rfl⟩ := initiateDirectoryModification_eq_ok.1 hinit
  have hget := (getDirectory_eq_ok.1 hdir).2.1
  split_ifs at h
  · cases h
    exact ⟨fun _ => .touch hget hmtime rfl, rfl⟩
  simp only [bind_eq_ok, check_eq_ok, exists_const] at h
  obtain ⟨hcurrent, ⟨⟩⟩ := h
  refine ⟨fun cfg => ?_, rfl⟩
  have hstep : NamesStep cfg time db.names (.removeDirectoryOwner r)
      { db.names with directories := db.directories.put r.dirId ⟨.null, time, r.info⟩ } :=
    .removeOwner hget hmtime fun e body hbody heq =>
      hcurrent ⟨(e, body), mem_entries_iff.2 hbody, heq⟩
  simpa only [ShardDB.names, put_put] using hstep

lemma applySetDirectoryOwner_namesStep {r : SetDirectoryOwnerReq}
    (h : applySetDirectoryOwner db time r = .ok (db', resp)) :
    (∀ cfg, r.ownerId.type = .directory →
      NamesStep cfg time db.names (.setDirectoryOwner r) db'.names) ∧
      db'.fileSide = db.fileSide := by
  simp only [applySetDirectoryOwner, bind_eq_ok, Prod.exists] at h
  obtain ⟨b, _, hinit, ⟨⟩⟩ := h
  obtain ⟨dir, hdir, hmtime, rfl, rfl⟩ := initiateDirectoryModification_eq_ok.1 hinit
  refine ⟨fun cfg howner => ?_, rfl⟩
  have hstep : NamesStep cfg time db.names (.setDirectoryOwner r)
      { db.names with directories := db.directories.put r.dirId ⟨r.ownerId, time, dir.info⟩ } :=
    .setOwner (getDirectory_eq_ok.1 hdir).2.1 hmtime howner
  simpa only [ShardDB.names, put_put] using hstep

/-! ## The side of the files -/

/-- The entries that concern directories and edges alone. -/
def ShardLogEntryBody.NamesOnly : ShardLogEntryBody → Prop
  | sameDirectoryRename _ | sameDirectoryRenameSnapshot _ | softUnlinkFile _
  | createDirectoryInode _ | createLockedCurrentEdge _ | unlockCurrentEdge _ | lockCurrentEdge _
  | removeDirectoryOwner _ | setDirectoryOwner _ | setDirectoryInfo _ | removeNonOwnedEdge _
  | removeOwnedSnapshotFileEdge _ => True
  | _ => False

/-- These leave the side of the files alone. -/
lemma applyEntryBody_fileSide {body : ShardLogEntryBody}
    (h : applyEntryBody cfg cache db time body = .ok (db', resp)) (hbody : body.NamesOnly) :
    db'.fileSide = db.fileSide := by
  cases body with
  | sameDirectoryRename => exact (applySameDirectoryRename_names h).2
  | sameDirectoryRenameSnapshot => exact (applySameDirectoryRenameSnapshot_names h).2
  | softUnlinkFile => exact (applySoftUnlinkFile_namesStep h).2
  | createDirectoryInode => exact (applyCreateDirectoryInode_namesStep h).2
  | createLockedCurrentEdge => exact (applyCreateLockedCurrentEdge_namesStep h).2
  | unlockCurrentEdge => exact (applyUnlockCurrentEdge_namesStep h).2
  | lockCurrentEdge => exact (applyLockCurrentEdge_namesStep h).2
  | removeDirectoryOwner => exact (applyRemoveDirectoryOwner_namesStep h).2
  | setDirectoryOwner => exact (applySetDirectoryOwner_namesStep h).2
  | setDirectoryInfo => exact (applySetDirectoryInfo_namesStep h).2
  | removeOwnedSnapshotFileEdge => exact (applyRemoveOwnedSnapshotFileEdge_namesStep h).2
  | removeNonOwnedEdge => exact (applyRemoveNonOwnedEdge_namesStep h).2
  | _ => exact hbody.elim

end

end TernFS
