/-
# How log entries move ownership

Every log entry of a client changes the number of owners of a file exactly when the file becomes
linked or stops being linked: edges that are created, overridden, renamed, removed and restored
pass the ownership of their targets on.  `SameShardHardFileUnlink` does so if the edge that it
removes points to the file that it unlinks.
-/
import TernFS.FileModel.Files
import TernFS.Shard.NameEvents

namespace TernFS

open Lib Function SortedStore

/-- Whether a file is linked, as a number. -/
def linkedCount (files : SortedStore InodeId FileBody) (f : InodeId) : ℕ :=
  if files.get f = none then 0 else 1

/-- The number of edges of the shard that own a file. -/
def ShardDB.owners (db : ShardDB) (f : InodeId) : ℕ := db.edgeView.owners f

/-- Ownership is passed on: the number of owners of a file changes as it is linked or unlinked. -/
structure OwnersKept (db db' : ShardDB) : Prop where
  ordered : db'.edgeView.Ordered
  balance : ∀ f, db'.owners f + linkedCount db.files f = db.owners f + linkedCount db'.files f

/-- Nothing changes that concerns ownership. -/
structure SameNames (db db' : ShardDB) : Prop where
  edges : db'.edgeView = db.edgeView
  linked : ∀ f, db'.files.get f = none ↔ db.files.get f = none

/-- The number of owners of a file changes as it is linked or unlinked. -/
def Balanced (db db' : ShardDB) : Prop :=
  ∀ f, db'.owners f + linkedCount db.files f = db.owners f + linkedCount db'.files f

lemma SameNames.balanced {db db' : ShardDB} (h : SameNames db db') : Balanced db db' := fun f => by
  simp only [ShardDB.owners, linkedCount, h.edges, h.linked]

section

variable {cfg : ShardConfig} {cache : BlockServicesCache} {db db' batch batch' : ShardDB} {time : ℕ}
  {resp : ShardResp}

lemma linkedCount_of_fileSide (h : db'.fileSide = db.fileSide) (f : InodeId) :
    linkedCount db'.files f = linkedCount db.files f := by
  have hlinked := congrArg (fun side => side.1.linked f = none) h
  simp only [ShardDB.fileSide, ShardDB.fileView, linkedView, Option.map_eq_none_iff] at hlinked
  simp only [linkedCount, hlinked]

/-- No file is linked or unlinked. -/
lemma Balanced.of_fileSide (hside : db'.fileSide = db.fileSide)
    (h : ∀ f, db'.owners f = db.owners f) : Balanced db db' := fun f => by
  rw [h, linkedCount_of_fileSide hside]

lemma linkedCount_put (files : SortedStore InodeId FileBody) (g : InodeId) (body : FileBody)
    (f : InodeId) : linkedCount (files.put g body) f = if g = f then 1 else linkedCount files f := by
  simp only [linkedCount, get_put]
  split_ifs <;> simp_all

lemma linkedCount_delete (files : SortedStore InodeId FileBody) (g f : InodeId) :
    linkedCount (files.delete g) f = if g = f then 0 else linkedCount files f := by
  simp only [linkedCount, get_delete]
  split_ifs <;> simp_all

/-! ## Creating and removing current edges -/

section

variable {v w w' : Names} {edge : EdgeName} {targetId : InodeId}

/-- A current edge that is created owns its target; what it overrides keeps its owner. -/
lemma CreatedName.owners (h : CreatedName v w time edge targetId false w')
    (hw : w.edgeView.Ordered) (hcurrent : w.current.get edge = v.current.get edge)
    (htarget : targetId.u64 < 2 ^ 63) (f : InodeId) :
    w'.edgeView.owners f = w.edgeView.owners f + if targetId = f then 1 else 0 := by
  rw [← CurrentEdgeBody.owns_of htarget false time]
  cases h with
  | fresh hnone =>
    have howners := currentOwners_put_of_none (hcurrent.trans hnone) ⟨.of targetId false, time⟩ f
    simp only [EdgeView.owners, Names.edgeView]
    omega
  | relocked _ _ hlocked => cases hlocked
  | overridden hsome => exact hw.owners_override (hcurrent.trans hsome) _ f

lemma deletionEdge_owns (f : InodeId) : (⟨.of .null false⟩ : SnapshotEdgeBody).owns f = 0 := by
  rw [SnapshotEdgeBody.owns_of (by decide)]
  simp

/-- A current edge that is removed passes its target on to the snapshot edge, or gives it up. -/
lemma Names.owners_unlink {id : InodeId} {dir : DirectoryBody} {name : Bytes}
    {body : CurrentEdgeBody} (hv : v.edgeView.Ordered) (hdir : v.directories.get id = some dir)
    (hmtime : dir.mtime < time) (hbody : v.current.get (cfg.edgeName id name) = some body)
    (owned : Bool) (f : InodeId) :
    ((v.touch id dir time).unlink (cfg.edgeName id name) body.creationTime body.targetId owned
        time).edgeView.owners f + (if body.targetId = f then 1 else 0) =
      v.edgeView.owners f + if owned = true ∧ body.targetId = f then 1 else 0 := by
  have howners := hv.owners_unlink hbody (Names.lt_of_current hv.kept hdir hmtime hbody)
    (Names.snapshot_eq_none hv.kept hdir hmtime) ⟨.of body.targetId owned⟩ ⟨.of .null false⟩ f
  rw [deletionEdge_owns, SnapshotEdgeBody.owns_of body.targetId_lt] at howners
  exact howners

end

section

variable (hordered : db.edgeView.Ordered)
include hordered

/-! ## Entries about edges -/

lemma applyLinkFile_balanced {entry : LinkFileEntry} (hdistinct : db.fileView.Distinct)
    (h : applyLinkFile cfg db time entry = .ok (db', resp)) : Balanced db db' := by
  unfold applyLinkFile at h
  split at h
  · simp only [bind_eq_ok, orFail_eq_ok, pure_eq_ok, Prod.mk.injEq] at h
    obtain ⟨t, -, rfl, -⟩ := h
    exact fun _ => rfl
  · cases h
  rename_i file hfile
  simp only [bind_eq_ok, check_eq_ok, pure_eq_ok, exists_const, Prod.exists, Prod.mk.injEq] at h
  obtain ⟨-, b, t, hcreate, rfl, -⟩ := h
  obtain ⟨-, hget, -⟩ := getTransientFile_eq_ok.1 hfile
  have hf : db.fileView.transient entry.fileId = some (file.fileSize, file.lastSpanState) := by
    simp [ShardDB.fileView, transientView, hget]
  -- a transient file has an id that was given out, and is not linked
  have hlt : entry.fileId.u64 < 2 ^ 63 := by
    rcases hdistinct.givenOut entry.fileId (.inr (by simp [hf])) with ⟨hbits, -⟩ | ⟨hbits, -⟩ <;>
      omega
  have hunlinked : linkedCount db.files entry.fileId = 0 :=
    if_pos (by simpa [ShardDB.fileView, linkedView] using hdistinct.linked_eq_none hf)
  obtain ⟨dir, hdir, hmtime, hcreated⟩ := createCurrentEdge_eq_ok hcreate
  obtain ⟨hnames, hside⟩ := hcreated.names
  have htouch : (db.names.touch entry.ownerId dir time).edgeView.Kept False :=
    Names.kept_modify (v := db.names) hordered.kept (there_of_getDirectory hdir).1 hmtime.le
  intro f
  have howners : b.owners f = db.owners f + if entry.fileId = f then 1 else 0 :=
    hnames.owners htouch.ordered rfl hlt f
  have hfiles : linkedCount b.files f = linkedCount (db.files.put entry.fileId _) f :=
    linkedCount_of_fileSide hside f
  rw [howners, hfiles, linkedCount_put]
  split_ifs with hid
  · rw [← hid, hunlinked]
  · rfl

lemma applySoftUnlinkFile_balanced {entry : SoftUnlinkFileReq}
    (h : applySoftUnlinkFile cfg db time entry = .ok (db', resp)) : Balanced db db' := by
  simp only [applySoftUnlinkFile, bind_eq_ok] at h
  obtain ⟨b, hunlink, ⟨⟩⟩ := h
  obtain ⟨dir, body, hdir, hmtime, hbody, htarget, htime, -, rfl⟩ :=
    softUnlinkCurrentEdge_eq_ok hunlink
  refine .of_fileSide rfl fun f => ?_
  have howners := Names.owners_unlink (v := db.names) hordered (there_of_getDirectory hdir).1 hmtime
    hbody true f
  simp only [true_and, add_left_inj, htarget, htime] at howners
  exact howners

lemma applySameDirectoryRename_balanced {entry : SameDirectoryRenameReq}
    (hne : entry.oldName ≠ entry.newName)
    (h : applySameDirectoryRename cfg db time entry = .ok (db', resp)) : Balanced db db' := by
  obtain ⟨⟨dir, body, hdir, hmtime, hbody, -, hcreated⟩, hside⟩ := applySameDirectoryRename_names h
  refine .of_fileSide hside fun f => ?_
  have howners := Names.owners_unlink (v := db.names) hordered hdir.1 hmtime hbody false f
  -- the new name is another one, so it has not been touched
  have hnew := hcreated.owners
    (Names.kept_unlink (v := db.names) hordered.kept hdir.1 hmtime hbody false).ordered
    (get_delete_of_ne (edgeName_ne hne)) body.targetId_lt f
  exact hnew.trans howners

lemma applySameDirectoryRenameSnapshot_balanced {entry : SameDirectoryRenameReq}
    (h : applySameDirectoryRenameSnapshot cfg db time entry = .ok (db', resp)) :
    Balanced db db' := by
  obtain ⟨⟨dir, body, hdir, hmtime, hbody, htarget, howned, hcreated⟩, hside⟩ :=
    applySameDirectoryRenameSnapshot_names h
  refine .of_fileSide hside fun f => ?_
  have hlt : entry.targetId.u64 < 2 ^ 63 := htarget ▸ body.targetIdWithOwned.id_lt
  have hdisowned := Names.kept_rewrite (v := db.names) hordered.kept hdir.1 hmtime
    ⟨.of entry.targetId false⟩ hbody
  have hsnapshot := snapshotOwners_put_of_some hbody ⟨.of entry.targetId false⟩ f
  rw [SnapshotEdgeBody.owns_of hlt] at hsnapshot
  simp only [SnapshotEdgeBody.owns, howned, htarget, true_and, Bool.false_eq_true, false_and,
    if_false] at hsnapshot
  have hnew : db'.owners f = _ := hcreated.owners hdisowned.ordered rfl hlt f
  rw [hnew]
  simp only [ShardDB.owners, EdgeView.owners, ShardDB.edgeView, Names.edgeView, Names.touch,
    ShardDB.names]
  omega

end

lemma applyRemoveNonOwnedEdge_balanced {entry : RemoveNonOwnedEdgeReq}
    (h : applyRemoveNonOwnedEdge cfg db time entry = .ok (db', resp)) : Balanced db db' := by
  simp only [applyRemoveNonOwnedEdge, bind_eq_ok, Prod.exists] at h
  obtain ⟨b, dir, hinit, h⟩ := h
  obtain ⟨dir₀, -, -, -, rfl⟩ := initiateDirectoryModification_eq_ok.1 hinit
  split at h
  · cases h
    exact fun _ => rfl
  rename_i edge hedge
  simp only [bind_eq_ok, check_eq_ok, exists_const] at h
  obtain ⟨howned, ⟨⟩⟩ := h
  intro f
  have hdelete := snapshotOwners_delete hedge f
  have hnone : edge.owns f = 0 := by simp [SnapshotEdgeBody.owns, howned]
  simp only [ShardDB.owners, EdgeView.owners, ShardDB.edgeView]
  omega

/-- If the owned edge that is removed points to the file that is unlinked, ownership is kept. -/
lemma applySameShardHardFileUnlink_balanced {entry : SameShardHardFileUnlinkEntry}
    (hok : ∀ edge ∈ db.snapshotEdges.get ⟨cfg.edgeName entry.ownerId entry.name, entry.creationTime⟩,
      edge.targetIdWithOwned.extra = true → db.files.get entry.targetId ≠ none →
        edge.targetIdWithOwned.id = entry.targetId)
    (h : applySameShardHardFileUnlink cfg db time entry = .ok (db', resp)) : Balanced db db' := by
  unfold applySameShardHardFileUnlink at h
  split at h
  · simp only [bind_eq_ok] at h
    obtain ⟨-, -, ⟨⟩⟩ := h
    exact fun _ => rfl
  · cases h
  rename_i file hfile
  split at h
  · cases h
  rename_i b dir hinit
  simp only [bind_eq_ok, check_eq_ok, orFail_eq_ok, exists_const] at h
  obtain ⟨edge, hedge, howned, ⟨⟩⟩ := h
  have hlinked : db.files.get entry.targetId ≠ none := by simp [(getFile_eq_ok.1 hfile).2]
  have htarget := hok edge hedge howned hlinked
  obtain ⟨dir₀, -, -, -, rfl⟩ := initiateDirectoryModification_eq_ok.1 hinit
  intro f
  have hdelete := snapshotOwners_delete hedge f
  have howns : edge.owns f = if entry.targetId = f then 1 else 0 := by
    simp [SnapshotEdgeBody.owns, howned, htarget]
  have hone : linkedCount db.files entry.targetId = 1 := if_neg hlinked
  rw [linkedCount_delete]
  simp only [ShardDB.owners, EdgeView.owners, ShardDB.edgeView]
  split_ifs at howns ⊢ with hf
  · rw [← hf] at hdelete howns ⊢
    omega
  · omega

/-- Whatever the edge is that is removed, no file gains an owner; an owned edge of the file is one
owner less. -/
lemma applyRemoveOwnedSnapshotFileEdge_owners {entry : SameShardHardFileUnlinkReq}
    (h : applyRemoveOwnedSnapshotFileEdge cfg db time entry = .ok (db', resp)) :
    db'.files = db.files ∧ ∀ f, db'.owners f ≤ db.owners f ∧
      ∀ edge ∈ db.snapshotEdges.get ⟨cfg.edgeName entry.ownerId entry.name, entry.creationTime⟩,
        db'.owners f + edge.owns f = db.owners f := by
  simp only [applyRemoveOwnedSnapshotFileEdge, bind_eq_ok, Prod.exists] at h
  obtain ⟨b, dir, hinit, ⟨⟩⟩ := h
  obtain ⟨dir₀, -, -, -, rfl⟩ := initiateDirectoryModification_eq_ok.1 hinit
  refine ⟨rfl, fun f => ?_⟩
  simp only [ShardDB.owners, EdgeView.owners, ShardDB.edgeView]
  cases hedge : db.snapshotEdges.get
      ⟨cfg.edgeName entry.ownerId entry.name, entry.creationTime⟩ with
  | none => simp [delete_of_get_eq_none hedge]
  | some edge =>
    have hdelete := snapshotOwners_delete hedge f
    refine ⟨by omega, fun edge' hedge' => ?_⟩
    obtain rfl : edge = edge' := Option.some_inj.1 hedge'
    omega

/-! ## Entries about directories -/

lemma applySetDirectoryInfo_balanced {entry : SetDirectoryInfoReq}
    (h : applySetDirectoryInfo db time entry = .ok (db', resp)) : Balanced db db' := by
  simp only [applySetDirectoryInfo, bind_eq_ok, Prod.exists] at h
  obtain ⟨b, dir, hinit, ⟨⟩⟩ := h
  obtain ⟨dir₀, -, -, rfl, rfl⟩ := initiateDirectoryModification_eq_ok.1 hinit
  exact fun _ => rfl

lemma applyRemoveDirectoryInode_balanced {id : InodeId}
    (h : applyRemoveDirectoryInode db time id = .ok (db', resp)) : Balanced db db' := by
  simp only [applyRemoveDirectoryInode, bind_eq_ok, assert_eq_ok, exists_const] at h
  obtain ⟨-, h⟩ := h
  split at h
  · cases h
    exact fun _ => rfl
  · cases h
  rename_i b dir hinit
  simp only [bind_eq_ok, check_eq_ok, exists_const] at h
  obtain ⟨-, -, ⟨⟩⟩ := h
  obtain ⟨dir₀, -, -, rfl, rfl⟩ := initiateDirectoryModification_eq_ok.1 hinit
  exact fun _ => rfl

/-! ## Entries about files and spans -/

lemma SameNames.of_named (h : db'.named = db.named) : SameNames db db' where
  edges := by
    have hedges := congrArg (fun named => EdgeView.mk (mtimeView named.1) named.2.1 named.2.2.1) h
    exact hedges
  linked f := by
    have hlinked := congrArg (fun named => named.2.2.2 f = none) h
    simpa [ShardDB.named, linkedView] using hlinked

/-! ## Requests -/

/-- What ownership needs of a request, in the state it is applied to: the owned snapshot edge by
which a linked file is hard-unlinked points to that file. -/
def ShardReq.UnlinkOk (cfg : ShardConfig) (req : ShardReq) (db : ShardDB) : Prop :=
  match req with
  | .sameShardHardFileUnlink r =>
    ∀ edge ∈ db.snapshotEdges.get ⟨cfg.edgeName r.ownerId r.name, r.creationTime⟩,
      edge.targetIdWithOwned.extra = true → db.files.get r.targetId ≠ none →
        edge.targetIdWithOwned.id = r.targetId
  | _ => True

instance (cfg : ShardConfig) (req : ShardReq) (db : ShardDB) : Decidable (req.UnlinkOk cfg db) := by
  induction req using ShardReq.casesOn <;> dsimp only [ShardReq.UnlinkOk] <;> infer_instance

lemma prepared_balanced {pick : PickBlockServices} {req : ShardReq} {entry : ShardLogEntry}
    (hordered : db.edgeView.Ordered) (hdistinct : db.fileView.Distinct)
    (hclient : ¬ req.Privileged) (hok : req.UnlinkOk cfg db)
    (hprepare : prepareLogEntry cfg time pick req = .ok entry)
    (h : applyEntryBody cfg cache db entry.time entry.body = .ok (db', resp)) :
    Balanced db db' := by
  obtain ⟨body, hprepared, rfl⟩ := prepareLogEntry_eq_ok hprepare
  cases hprepared with
  -- the requests of the coordinator
  | createDirectoryInode | createLockedCurrentEdge | unlockCurrentEdge | lockCurrentEdge |
      removeDirectoryOwner | setDirectoryOwner | makeFileTransient | removeOwnedSnapshotFileEdge =>
    exact absurd trivial hclient
  | linkFile => exact applyLinkFile_balanced hordered hdistinct h
  | sameDirectoryRename r hne =>
    exact applySameDirectoryRename_balanced hordered (fun heq => hne (heq ▸ .refl _)) h
  | sameDirectoryRenameSnapshot => exact applySameDirectoryRenameSnapshot_balanced hordered h
  | softUnlinkFile => exact applySoftUnlinkFile_balanced hordered h
  | removeInode =>
    simp only [applyEntryBody, applyRemoveInode] at h
    split_ifs at h
    · exact applyRemoveDirectoryInode_balanced h
    · exact (SameNames.of_named (applyRemoveFileInode_fileStep h).2.2).balanced
  | setDirectoryInfo => exact applySetDirectoryInfo_balanced h
  | removeNonOwnedEdge => exact applyRemoveNonOwnedEdge_balanced h
  | sameShardHardFileUnlink =>
    have hunlinked := applySameShardHardFileUnlink_balanced (fun edge => hok edge) h
    exact hunlinked
  -- the rest leaves directories, edges and linked files alone
  | _ => exact (SameNames.of_named (applyEntryBody_named h trivial)).balanced

/-- A request of a client passes ownership on. -/
theorem shardStep_ownersKept {step : ShardStep} (hordered : db.edgeView.Ordered)
    (hdistinct : db.fileView.Distinct) (hclient : ¬ step.req.Privileged)
    (hok : step.req.UnlinkOk cfg db) (h : shardStep cfg db step = some db') :
    OwnersKept db db' := by
  refine ⟨((shardStep_namesStep h).kept (v := db.names) hordered.kept fun r hr => ?_).ordered, ?_⟩
  · rw [hr] at hclient
    exact absurd trivial hclient
  rcases shardStep_eq_some h with ⟨entry, resp, index, hprepare, batch, happly, rfl⟩ | rfl |
    ⟨index, time, rfl⟩
  · have hbalanced := prepared_balanced hordered hdistinct hclient hok hprepare happly
    exact hbalanced
  · exact fun _ => rfl
  · exact fun _ => rfl

/-- A file becomes linked in its shard by a request to link it, from being transient. -/
lemma linked_of_shardStep {step : ShardStep} {f : InodeId} (h : shardStep cfg db step = some db')
    (hf : db.files.get f = none) (hf' : db'.files.get f ≠ none) :
    ∃ r, step.req = .linkFile r ∧ r.fileId = f ∧ db.transientFiles.get f ≠ none ∧
      f.shard = cfg.shid := by
  obtain ⟨ev, hev, hcauses⟩ := shardStep_requestStep h
  obtain ⟨rfl, htransient⟩ := hev.transient_of_linked (f := f)
    (by simpa [ShardDB.fileView, linkedView] using hf)
    (by simpa [ShardDB.fileView, linkedView] using hf')
  obtain ⟨r, hreq, rfl⟩ := hcauses
  refine ⟨r, hreq, rfl, by simpa [ShardDB.fileView, transientView] using htransient, ?_⟩
  rcases shardStep_eq_some h with ⟨entry, resp, index, hprepare, -⟩ | rfl | ⟨index, time, rfl⟩
  · rw [hreq] at hprepare
    obtain ⟨_, hprepared, rfl⟩ := prepareLogEntry_eq_ok hprepare
    cases hprepared with | linkFile _ hshard => exact hshard
  · exact absurd hf hf'
  · exact absurd hf hf'

end

end TernFS
