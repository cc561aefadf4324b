/-
# What requests do to directories and edges

Every request of a shard does one of the things of `NamesStep` to its directories and edges, leaves
most of them alone, and keeps the edges in order.
-/
import TernFS.EdgeModel.Edges
import TernFS.Shard.SpanChanges

namespace TernFS

open Lib SortedStore Option

section

variable {cfg : ShardConfig} {cache : BlockServicesCache} {db db' : ShardDB} {time : ℕ}
  {resp : ShardResp} {req : ShardReq}

/-! ## Requests -/

lemma NamesStep.of_eq (h : db'.names = db.names) :
    NamesStep cfg time db.names req db'.names := h ▸ .stay

lemma NamesStep.of_named (h : db'.named = db.named) : NamesStep cfg time db.names req db'.names :=
  .of_eq (congrArg (fun named => Names.mk named.1 named.2.1 named.2.2.1) h)

lemma prepared_namesStep {pick : PickBlockServices} {entry : ShardLogEntry}
    (hprepare : prepareLogEntry cfg time pick req = .ok entry)
    (h : applyEntryBody cfg cache db entry.time entry.body = .ok (db', resp)) :
    NamesStep cfg time db.names req db'.names := by
  obtain ⟨body, hprepared, rfl⟩ := prepareLogEntry_eq_ok hprepare
  cases hprepared
  case linkFile r hshard => exact (applyLinkFile_fileStep h).2 r rfl
  case sameDirectoryRename r hne =>
    obtain ⟨dir, body, hdir, hmtime, hbody, hlocked, hcreated⟩ := (applySameDirectoryRename_names h).1
    exact .rename hdir hmtime (fun heq => hne (heq ▸ .refl _)) hbody hlocked hcreated
  case sameDirectoryRenameSnapshot r =>
    obtain ⟨dir, body, hdir, hmtime, hbody, htarget, howned, hcreated⟩ :=
      (applySameDirectoryRenameSnapshot_names h).1
    exact .restore hdir hmtime hbody htarget howned hcreated
  case softUnlinkFile r => exact (applySoftUnlinkFile_namesStep h).1
  case createDirectoryInode r htype howner =>
    exact (applyCreateDirectoryInode_namesStep h).1 cfg htype howner
  case createLockedCurrentEdge r => exact (applyCreateLockedCurrentEdge_namesStep h).1
  case unlockCurrentEdge r => exact (applyUnlockCurrentEdge_namesStep h).1
  case lockCurrentEdge r => exact (applyLockCurrentEdge_namesStep h).1
  case removeDirectoryOwner r => exact (applyRemoveDirectoryOwner_namesStep h).1 cfg
  case removeInode r hnull hroot =>
    simp only [applyEntryBody, applyRemoveInode] at h
    split_ifs at h
    · exact (applyRemoveDirectoryInode_namesStep h).1 cfg r rfl hroot
    · exact .of_named (applyRemoveFileInode_fileStep h).2.2
  case setDirectoryOwner r howner => exact (applySetDirectoryOwner_namesStep h).1 cfg howner
  case setDirectoryInfo r => exact (applySetDirectoryInfo_namesStep h).1 cfg
  case removeNonOwnedEdge r => exact (applyRemoveNonOwnedEdge_namesStep h).1 r rfl
  case sameShardHardFileUnlink r htype => exact (applySameShardHardFileUnlink_fileStep h).2 r rfl
  case removeOwnedSnapshotFileEdge r => exact (applyRemoveOwnedSnapshotFileEdge_namesStep h).1
  case makeFileTransient r => exact .of_eq (applyMakeFileTransient_fileStep h).2
  -- the rest leaves directories and edges alone
  all_goals exact .of_named (applyEntryBody_named h trivial)

/-- Every step of a shard does one of the things of `NamesStep` to its directories and edges. -/
theorem shardStep_namesStep {step : ShardStep} (h : shardStep cfg db step = some db') :
    NamesStep cfg step.time db.names step.req db'.names := by
  rcases shardStep_eq_some h with ⟨entry, resp, index, hprepare, batch, happly, rfl⟩ | rfl |
    ⟨index, time, rfl⟩
  · have hnames := prepared_namesStep hprepare happly
    exact hnames
  · exact .stay
  · exact .stay

end

/-! ## What stays -/

/-- The name has a current edge with this target, creation time and lock. -/
def Names.Edge (v : Names) (e : EdgeName) (targetId : InodeId) (creationTime : ℕ) (locked : Bool) :
    Prop :=
  ∃ body, v.current.get e = some body ∧ body.targetId = targetId ∧
    body.creationTime = creationTime ∧ body.locked = locked

/-- The request of a client may change the current edge of the name. -/
def ShardReq.Renames (cfg : ShardConfig) (e : EdgeName) : ShardReq → Prop
  | linkFile r => cfg.edgeName r.ownerId r.name = e
  | softUnlinkFile r => cfg.edgeName r.ownerId r.name = e
  | sameDirectoryRename r =>
    cfg.edgeName r.dirId r.oldName = e ∨ cfg.edgeName r.dirId r.newName = e
  | sameDirectoryRenameSnapshot r => cfg.edgeName r.dirId r.newName = e
  | _ => False

instance (cfg : ShardConfig) (e : EdgeName) (req : ShardReq) : Decidable (req.Renames cfg e) := by
  induction req using ShardReq.casesOn <;> dsimp only [ShardReq.Renames] <;> infer_instance

section

variable {cfg : ShardConfig} {time : ℕ} {v w w' : Names} {e edge : EdgeName} {id : InodeId}
  {targetId targetId' : InodeId} {creationTime : ℕ} {locked : Bool} {req : ShardReq}

lemma CreatedName.get_of_ne (h : CreatedName v w time edge targetId locked w') (hne : edge ≠ e) :
    w'.current.get e = w.current.get e := by
  cases h <;> exact get_put_of_ne hne

/-- A client does not create an edge under a locked name. -/
lemma CreatedName.ne_of_locked {body : CurrentEdgeBody}
    (h : CreatedName v w time edge targetId false w') (hbody : v.current.get e = some body)
    (hlocked : body.locked = true) : edge ≠ e := by
  rintro rfl
  cases h with
  | fresh hnone =>
    rw [hbody] at hnone
    cases hnone
  | relocked _ _ hlocked' => cases hlocked'
  | overridden hsome hexisting =>
    rw [hbody, some_inj] at hsome
    rw [← hsome, hlocked] at hexisting
    cases hexisting

lemma CreatedName.directories_eq (h : CreatedName v w time edge targetId locked w') :
    w'.directories = w.directories := by
  cases h <;> rfl

/-- A request of a client leaves a current edge alone that is locked, or that it does not name. -/
lemma NamesStep.current_of_client {body : CurrentEdgeBody} (h : NamesStep cfg time v req w)
    (hclient : ¬ req.Privileged) (hbody : v.current.get e = some body)
    (hkept : body.locked = true ∨ ¬ req.Renames cfg e) : w.current.get e = some body := by
  cases h with
  | stay | touch | removeSnapshot | removeDirectory | setInfo => exact hbody
  | @link r dir _ _ _ hcreated =>
    have hne : cfg.edgeName r.ownerId r.name ≠ e :=
      hkept.elim (hcreated.ne_of_locked hbody) id
    exact (hcreated.get_of_ne hne).trans hbody
  | @softUnlink r dir body' _ _ hbody' hlocked' =>
    have hne : cfg.edgeName r.ownerId r.name ≠ e := by
      refine hkept.elim (fun hlocked heq => ?_) id
      rw [heq, hbody, some_inj] at hbody'
      rw [← hbody', hlocked] at hlocked'
      cases hlocked'
    exact (get_delete_of_ne hne).trans hbody
  | @rename r dir body' _ _ _ _ hbody' hlocked' hcreated =>
    have hold : cfg.edgeName r.dirId r.oldName ≠ e := by
      refine hkept.elim (fun hlocked heq => ?_) fun hnot heq => hnot (.inl heq)
      rw [heq, hbody, some_inj] at hbody'
      rw [← hbody', hlocked] at hlocked'
      cases hlocked'
    have hnew : cfg.edgeName r.dirId r.newName ≠ e :=
      hkept.elim (hcreated.ne_of_locked hbody) fun hnot heq => hnot (.inr heq)
    rw [hcreated.get_of_ne hnew]
    exact (get_delete_of_ne hold).trans hbody
  | @restore r dir body' _ _ _ _ _ _ hcreated =>
    have hne : cfg.edgeName r.dirId r.newName ≠ e :=
      hkept.elim (hcreated.ne_of_locked hbody) id
    exact (hcreated.get_of_ne hne).trans hbody
  | createLocked | lock | unlock | move | createDirectory | removeOwner | setOwner =>
    exact absurd trivial hclient

lemma CurrentEdgeBody.targetId_of {body : CurrentEdgeBody} (locked : Bool) (t : ℕ) :
    (⟨.of body.targetId locked, t⟩ : CurrentEdgeBody).targetId = body.targetId :=
  InodeIdExtra.of_id_of_lt body.targetId_lt locked

lemma CurrentEdgeBody.locked_of {body : CurrentEdgeBody} (locked : Bool) (t : ℕ) :
    (⟨.of body.targetId locked, t⟩ : CurrentEdgeBody).locked = locked :=
  InodeIdExtra.of_extra_of_lt body.targetId_lt locked

/-- A locked edge stays locked until it is unlocked. -/
lemma NamesStep.edge_of_locked (h : NamesStep cfg time v req w)
    (hunlock : ∀ r, req = .unlockCurrentEdge r → cfg.edgeName r.dirId r.name ≠ e)
    (hedge : v.Edge e targetId creationTime true) : w.Edge e targetId creationTime true := by
  obtain ⟨body, hbody, htarget, htime, hlocked⟩ := hedge
  by_cases hclient : req.Privileged
  swap
  · exact ⟨body, h.current_of_client hclient hbody (.inl hlocked), htarget, htime, hlocked⟩
  cases h with
  | stay | touch | removeSnapshot | createDirectory | removeOwner | setOwner =>
    exact ⟨body, hbody, htarget, htime, hlocked⟩
  | link | softUnlink | rename | restore | removeDirectory | setInfo => exact absurd hclient id
  | @createLocked r dir _ _ _ hcreated =>
    by_cases hne : cfg.edgeName r.dirId r.name = e
    · rw [hne] at hcreated
      cases hcreated with
      | fresh hnone =>
        rw [hbody] at hnone
        cases hnone
      | relocked hsome _ _ htarget' =>
        obtain rfl := mem_unique hbody hsome
        refine ⟨_, get_put_self .., ?_, htime, ?_⟩
        · rw [← htarget', CurrentEdgeBody.targetId_of, htarget]
        · rw [← htarget', CurrentEdgeBody.locked_of]
      | overridden hsome hexisting =>
        obtain rfl := mem_unique hbody hsome
        rw [hlocked] at hexisting
        cases hexisting
    · exact ⟨body, (hcreated.get_of_ne hne).trans hbody, htarget, htime, hlocked⟩
  | @lock r dir body' _ _ hbody' _ hlocked' =>
    have hne : cfg.edgeName r.dirId r.name ≠ e := by
      intro heq
      rw [heq, hbody, some_inj] at hbody'
      rw [← hbody', hlocked] at hlocked'
      cases hlocked'
    exact ⟨body, (get_put_of_ne hne).trans hbody, htarget, htime, hlocked⟩
  | unlock => exact ⟨body, (get_put_of_ne (hunlock _ rfl)).trans hbody, htarget, htime,
      hlocked⟩
  | move => exact ⟨body, (get_delete_of_ne (hunlock _ rfl)).trans hbody, htarget, htime,
      hlocked⟩

/-- A directory that is there stays there when a record is written that has an owner, or is of the
root directory, or of another directory. -/
lemma Names.There.put {body : DirectoryBody} {id' : InodeId} (h : v.There id dir)
    (hbody : id' = id → body.ownerId ≠ .null ∨ id = .rootDir)
    (hw : w.directories = v.directories.put id' body) : ∃ dir', w.There id dir' := by
  by_cases hid : id' = id
  · exact ⟨body, by rw [hw, hid, get_put_self], hbody hid⟩
  · exact ⟨dir, by rw [hw, get_put_of_ne hid]; exact h.1, h.2⟩

lemma Names.There.touch {dir' : DirectoryBody} {id' : InodeId} (h : v.There id dir)
    (hdir : v.directories.get id' = some dir')
    (hw : w.directories = (v.touch id' dir' time).directories) : ∃ dir'', w.There id dir'' := by
  refine h.put (fun hid => ?_) hw
  rw [hid, h.1, some_inj] at hdir
  exact hdir ▸ h.2

/-- A directory is there until its owner is removed. -/
lemma NamesStep.there_kept (h : NamesStep cfg time v req w)
    (hreq : ∀ r, req = .removeDirectoryOwner r → r.dirId ≠ id) (hthere : v.There id dir) :
    ∃ dir', w.There id dir' := by
  have howned : ∀ {owner : InodeId}, owner.type = .directory → owner ≠ .null := by
    rintro owner htype rfl
    cases htype
  cases h with
  | stay => exact ⟨dir, hthere⟩
  | touch hdir | removeSnapshot hdir => exact hthere.touch hdir rfl
  | softUnlink hdir | lock hdir | unlock hdir | move hdir => exact hthere.touch hdir.1 rfl
  | link hdir _ hcreated | createLocked hdir _ hcreated | rename hdir _ _ _ _ hcreated
  | restore hdir _ _ _ _ hcreated => exact hthere.touch hdir.1 hcreated.directories_eq
  | @removeDirectory r dir' hdir hroot howner =>
    have hne : r.id ≠ id := by
      rintro rfl
      obtain rfl := mem_unique hdir hthere.1
      exact hthere.2.elim (absurd howner) hroot
    exact ⟨dir, (get_delete_of_ne hne).trans hthere.1, hthere.2⟩
  | @setInfo r dir' hdir =>
    refine hthere.put (fun hid => ?_) rfl
    rw [hid, hthere.1, some_inj] at hdir
    exact hdir ▸ hthere.2
  | createDirectory _ howner | setOwner _ _ howner =>
    exact hthere.put (fun _ => .inl (howned howner)) rfl
  | removeOwner => exact hthere.put (fun hid => absurd hid (hreq _ rfl)) rfl

/-! ## The order of edges -/

/-- The edges among the names. -/
def Names.edgeView (v : Names) : EdgeView := ⟨mtimeView v.directories, v.current, v.snapshot⟩

lemma edgeName_ne {name name' : Bytes} (h : name ≠ name') :
    cfg.edgeName id name ≠ cfg.edgeName id name' := fun heq => h (congrArg EdgeName.name heq)

lemma Names.mtime_of_get (h : v.directories.get id = some dir) :
    v.edgeView.mtime id = some dir.mtime := by
  simp [Names.edgeView, mtimeView, h]

section

variable {full : Prop} {dir' : DirectoryBody} {name : Bytes} (hv : v.edgeView.Kept full)
include hv

lemma Names.kept_putDirectory (hid : id.u64 < 2 ^ 63)
    (hle : ∀ dir, v.directories.get id = some dir → dir.mtime ≤ dir'.mtime) :
    ({ v with directories := v.directories.put id dir' } : Names).edgeView.Kept full := by
  have hmtime : ∀ t, v.edgeView.mtime id = some t → t ≤ dir'.mtime := by
    intro t ht
    obtain ⟨dir, hdir, rfl⟩ := map_eq_some_iff.1 ht
    exact hle dir hdir
  have hput := hv.putDir hid hmtime
  simpa only [Names.edgeView, mtimeView_put] using hput

lemma CreatedName.kept (h : CreatedName w v time edge targetId locked w')
    (hdir : v.edgeView.mtime edge.dirId = some time)
    (hcurrent : v.current.get edge = w.current.get edge)
    (hbefore : ∀ t body, v.snapshot.get ⟨edge, t⟩ = some body → t < time) :
    w'.edgeView.Kept full := by
  cases h with
  | fresh => exact hv.create hdir hbefore
  | @relocked existing hsome =>
    have hedge : v.current.get edge = some existing := hcurrent.trans hsome
    obtain ⟨t, ht, hle⟩ := hv.current_le edge existing hedge
    exact hv.putCurrent ⟨_, existing.creationTime⟩ ht hle fun t body =>
      hv.apart edge existing t body hedge
  | overridden hsome hexisting htime => exact hv.override hdir hbefore htime _

variable (hdir : v.directories.get id = some dir)
include hdir

lemma Names.kept_modify (hle : dir.mtime ≤ dir'.mtime) :
    ({ v with directories := v.directories.put id dir' } : Names).edgeView.Kept full := by
  refine Names.kept_putDirectory hv (hv.dirIds id dir.mtime (Names.mtime_of_get hdir)) ?_
  intro dir₀ hdir₀
  obtain rfl := mem_unique hdir hdir₀
  exact hle

lemma Names.edgeName_dirId : (cfg.edgeName id name).dirId = id :=
  InodeId.masked_of_lt (hv.dirIds id dir.mtime (Names.mtime_of_get hdir))

lemma Names.mtime_touch :
    (v.touch id dir time).edgeView.mtime (cfg.edgeName id name).dirId = some time := by
  have hget : (v.touch id dir time).directories.get id = some { dir with mtime := time } :=
    get_put_self ..
  rw [Names.edgeName_dirId hv hdir]
  exact Names.mtime_of_get hget

variable (hmtime : dir.mtime < time)
include hmtime

/-- The snapshot edges of a name are older than the modification of its directory. -/
lemma Names.lt_of_snapshot {t : ℕ} {body : SnapshotEdgeBody}
    (h : v.snapshot.get ⟨cfg.edgeName id name, t⟩ = some body) : t < time := by
  obtain ⟨t', ht', hle⟩ := hv.snapshot_le _ body h
  rw [Names.edgeName_dirId hv hdir, Names.mtime_of_get hdir, some_inj] at ht'
  exact (hle.trans_eq ht'.symm).trans_lt hmtime

lemma Names.kept_rewrite {t : ℕ} {body : SnapshotEdgeBody} (body' : SnapshotEdgeBody)
    (h : v.snapshot.get ⟨cfg.edgeName id name, t⟩ = some body) :
    ({ v.touch id dir time with
      snapshot := v.snapshot.put ⟨cfg.edgeName id name, t⟩ body' } : Names).edgeView.Kept full := by
  have htouch : (v.touch id dir time).edgeView.Kept full := Names.kept_modify hv hdir hmtime.le
  exact htouch.putSnapshot (k := ⟨cfg.edgeName id name, t⟩) body' (Names.mtime_touch hv hdir)
    (Names.lt_of_snapshot hv hdir hmtime h).le
    fun current hcurrent => hv.apart _ current _ body hcurrent h

lemma Names.snapshot_eq_none : v.snapshot.get ⟨cfg.edgeName id name, time⟩ = none := by
  by_contra hne
  obtain ⟨s, hs⟩ := ne_none_iff_exists'.1 hne
  exact lt_irrefl _ (Names.lt_of_snapshot hv hdir hmtime hs)

variable {body : CurrentEdgeBody} (hbody : v.current.get (cfg.edgeName id name) = some body)
include hbody

/-- So is its current edge. -/
lemma Names.lt_of_current : body.creationTime < time := by
  obtain ⟨t, ht, hle⟩ := hv.current_le _ body hbody
  rw [Names.edgeName_dirId hv hdir, Names.mtime_of_get hdir, some_inj] at ht
  exact (hle.trans_eq ht.symm).trans_lt hmtime

lemma Names.kept_unlink (owned : Bool) :
    ((v.touch id dir time).unlink (cfg.edgeName id name) body.creationTime targetId owned
      time).edgeView.Kept full := by
  have htouch : (v.touch id dir time).edgeView.Kept full := Names.kept_modify hv hdir hmtime.le
  exact htouch.unlink (Names.mtime_touch hv hdir) (Names.lt_of_current hv hdir hmtime hbody) _ _

end

/-- Every request keeps the edges in order, if directories are created as they should. -/
theorem NamesStep.kept {full : Prop} (h : NamesStep cfg time v req w) (hv : v.edgeView.Kept full)
    (hok : ∀ r, req = .createDirectoryInode r → r.id.u64 < 2 ^ 63 ∧
      ∀ dir, v.directories.get r.id = some dir → dir.ownerId = .null → dir.mtime ≤ time) :
    w.edgeView.Kept full := by
  cases h with
  | stay => exact hv
  | touch hdir hmtime | setInfo hdir hmtime | removeOwner hdir hmtime | setOwner hdir hmtime =>
    exact Names.kept_modify hv hdir hmtime.le
  | link hdir hmtime hcreated | createLocked hdir hmtime hcreated =>
    exact hcreated.kept (Names.kept_modify hv hdir.1 hmtime.le)
      (Names.mtime_touch hv hdir.1) rfl fun t body => Names.lt_of_snapshot hv hdir.1 hmtime
  | softUnlink hdir hmtime hbody => exact Names.kept_unlink hv hdir.1 hmtime hbody true
  | @rename r dir body w hdir hmtime hname hbody hlocked hcreated =>
    have hne : cfg.edgeName r.dirId r.oldName ≠ cfg.edgeName r.dirId r.newName := edgeName_ne hname
    refine hcreated.kept (Names.kept_unlink hv hdir.1 hmtime hbody false)
      (Names.mtime_touch hv hdir.1) (get_delete_of_ne hne) fun t snapshot hs => ?_
    -- the new name is not the one that is unlinked
    have hput : v.snapshot.get ⟨cfg.edgeName r.dirId r.newName, t⟩ = some snapshot := by
      simp only [Names.unlink, Names.touch] at hs
      rwa [get_put_of_ne fun hk => hne (congrArg SnapshotEdgeKey.edge hk),
        get_put_of_ne fun hk => hne (congrArg SnapshotEdgeKey.edge hk)] at hs
    exact Names.lt_of_snapshot hv hdir.1 hmtime hput
  | @restore r dir body w hdir hmtime hbody htarget howned hcreated =>
    refine hcreated.kept (Names.kept_rewrite hv hdir.1 hmtime _ hbody)
      (Names.mtime_touch hv hdir.1) rfl fun t snapshot hs => ?_
    simp only [get_put] at hs
    split_ifs at hs with hk
    · have ht : r.oldCreationTime = t := congrArg SnapshotEdgeKey.creationTime hk
      exact ht ▸ Names.lt_of_snapshot hv hdir.1 hmtime hbody
    · exact Names.lt_of_snapshot hv hdir.1 hmtime hs
  | removeSnapshot hdir hmtime =>
    exact (Names.kept_modify hv hdir hmtime.le).deleteSnapshot _
  | @removeDirectory r dir hdir hroot howner hcurrent hsnapshot =>
    have hremove := hv.removeDir (d := r.id) hcurrent hsnapshot
    simpa only [Names.edgeView, mtimeView_delete] using hremove
  | @lock r dir body hdir hmtime hbody | @unlock r dir body hdir hmtime hbody =>
    exact (Names.kept_modify hv hdir.1 hmtime.le).putCurrent ⟨_, body.creationTime⟩
      (Names.mtime_touch hv hdir.1) (Names.lt_of_current hv hdir.1 hmtime hbody).le
      fun t snapshot => hv.apart _ body t snapshot hbody
  | move hdir hmtime hbody => exact Names.kept_unlink hv hdir.1 hmtime hbody false
  | @createDirectory r htype howner hnew =>
    obtain ⟨hid, hle⟩ := hok r rfl
    refine Names.kept_putDirectory hv hid fun dir hdir => hle dir hdir ?_
    by_contra hne
    exact hnew dir ⟨hdir, .inl hne⟩

end

end TernFS
