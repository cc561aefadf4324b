/-
# What a successful call establishes

Inversion lemmas for the functions that log entries are applied with: from a successful result
back to the records that were found, the checks that held and the writes that were made.
Every invariant of a shard is derived from these and never unfolds the functions again.
-/
import TernFS.Shard.Prepare

namespace TernFS

open Lib List Option

variable {cfg : ShardConfig} {db batch batch' : ShardDB} {time : ℕ}

/-! ## Reading records -/

variable {allowSnapshot allowPastDeadline : Bool} {id dirId targetId : InodeId}

lemma getDirectory_eq_ok {dir : DirectoryBody} : getDirectory db id allowSnapshot = .ok dir ↔
      id.type = .directory ∧ db.directories.get id = some dir ∧
        (allowSnapshot = true ∨ dir.ownerId ≠ .null ∨ id = .rootDir) := by
  simp only [getDirectory, bind_eq_ok, check_eq_ok, orFail_eq_ok, pure_eq_ok, exists_const]
  constructor
  · rintro ⟨htype, d, hget, hallow, rfl⟩
    exact ⟨htype, hget, hallow⟩
  · rintro ⟨htype, hget, hallow⟩
    exact ⟨htype, dir, hget, hallow, rfl⟩

lemma getFile_eq_ok {file : FileBody} :
    getFile db id = .ok file ↔ id.IsFile ∧ db.files.get id = some file := by
  simp [getFile]

lemma getTransientFile_eq_ok {file : TransientFileBody} :
    getTransientFile db time allowPastDeadline id = .ok file ↔
      id.IsFile ∧ db.transientFiles.get id = some file ∧
        (allowPastDeadline = true ∨ time ≤ file.deadline) := by
  simp only [getTransientFile, bind_eq_ok, check_eq_ok, orFail_eq_ok, pure_eq_ok, exists_const]
  constructor
  · rintro ⟨htype, f, hget, hallow, rfl⟩
    exact ⟨htype, hget, hallow⟩
  · rintro ⟨htype, hget, hallow⟩
    exact ⟨htype, file, hget, hallow, rfl⟩

lemma initiateDirectoryModification_eq_ok {dir' : DirectoryBody} :
    initiateDirectoryModification db batch time allowSnapshot dirId = .ok (batch', dir') ↔
      ∃ dir, getDirectory db dirId allowSnapshot = .ok dir ∧ dir.mtime < time ∧
        dir' = { dir with mtime := time } ∧
        batch' = { batch with directories := batch.directories.put dirId dir' } := by
  simp only [initiateDirectoryModification, bind_eq_ok, check_eq_ok, pure_eq_ok,
    exists_const, Prod.mk.injEq]
  constructor <;> rintro ⟨dir, hdir, hmtime, rfl, rfl⟩ <;> exact ⟨dir, hdir, hmtime, rfl, rfl⟩

/-- The transient file found is the one returned, up to its times. -/
lemma initiateTransientFileModification_eq_ok {tf' : TransientFileBody}
    (h : initiateTransientFileModification cfg db batch time allowPastDeadline id =
      .ok (batch', tf')) :
    ∃ tf, db.transientFiles.get id = some tf ∧ tf.mtime < time ∧ id.IsFile ∧
      tf'.fileSize = tf.fileSize ∧ tf'.lastSpanState = tf.lastSpanState ∧ tf'.mtime = time ∧
      batch' = { batch with transientFiles := batch.transientFiles.put id tf' } := by
  simp only [initiateTransientFileModification, bind_eq_ok, check_eq_ok, exists_const] at h
  obtain ⟨tf, htf, hmtime, ⟨⟩⟩ := h
  obtain ⟨htype, hget, -⟩ := getTransientFile_eq_ok.1 htf
  exact ⟨tf, hget, hmtime, htype, rfl, rfl, rfl, rfl⟩

/-! ## Creating and removing edges -/

/-- The three ways in which a current edge is created: the name is free, the name is locked for
the same target, or an unlocked edge is overridden. -/
inductive CreatedEdge (db batch : ShardDB) (time : ℕ) (edge : EdgeName) (targetId : InodeId)
    (locked : Bool) (oldCreationTime : ℕ) : ShardDB → ℕ → Prop
  | fresh (hnone : db.currentEdges.get edge = none) :
    CreatedEdge db batch time edge targetId locked oldCreationTime { batch with
        currentEdges := batch.currentEdges.put edge ⟨.of targetId locked, time⟩ } time
  | relocked {existing : CurrentEdgeBody} (hsome : db.currentEdges.get edge = some existing)
      (hexisting : existing.locked = true) (hlocked : locked = true)
      (htarget : existing.targetId = targetId) (htime : existing.creationTime = oldCreationTime) :
    CreatedEdge db batch time edge targetId locked oldCreationTime { batch with
        currentEdges :=
          batch.currentEdges.put edge ⟨.of targetId locked, existing.creationTime⟩ }
      existing.creationTime
  | overridden {existing : CurrentEdgeBody} (hsome : db.currentEdges.get edge = some existing)
      (hexisting : existing.locked = false) (htime : existing.creationTime < time)
      (htarget : targetId.type ≠ .directory) (htarget' : existing.targetId.type ≠ .directory) :
    CreatedEdge db batch time edge targetId locked oldCreationTime { batch with
        snapshotEdges := batch.snapshotEdges.put ⟨edge, existing.creationTime⟩
          ⟨.of existing.targetId true⟩
        currentEdges := batch.currentEdges.put edge ⟨.of targetId locked, time⟩ } time

variable {creationTime blockId : ℕ}

lemma createCurrentEdge_eq_ok {name : Bytes} {locked : Bool} {oldCreationTime : ℕ}
    (h : createCurrentEdge cfg db batch time dirId name targetId locked oldCreationTime =
      .ok (batch', creationTime)) :
    ∃ dir, getDirectory db dirId false = .ok dir ∧ dir.mtime < time ∧ CreatedEdge db
        { batch with directories := batch.directories.put dirId { dir with mtime := time } } time
        (cfg.edgeName dirId name) targetId locked oldCreationTime batch' creationTime := by
  simp only [createCurrentEdge, bind_eq_ok, Prod.exists] at h
  obtain ⟨b, dir', hinit, h⟩ := h
  obtain ⟨dir, hdir, hmtime, rfl, rfl⟩ := initiateDirectoryModification_eq_ok.1 hinit
  refine ⟨dir, hdir, hmtime, ?_⟩
  cases hedge : db.currentEdges.get (cfg.edgeName dirId name) with
  | none =>
    simp only [hedge, bind_eq_ok, check_eq_ok, exists_const] at h
    obtain ⟨-, ⟨⟩⟩ := h
    exact .fresh hedge
  | some existing =>
    cases hlocked : existing.locked with
    | true =>
      simp only [hedge, hlocked, if_true, bind_eq_ok, check_eq_ok, exists_const] at h
      obtain ⟨hl, htarget, htime, ⟨⟩⟩ := h
      exact .relocked hedge hlocked hl htarget htime
    | false =>
      simp only [hedge, hlocked, Bool.false_eq_true, if_false, bind_eq_ok, check_eq_ok,
        exists_const] at h
      obtain ⟨htime, ⟨htarget, htarget'⟩, ⟨⟩⟩ := h
      exact .overridden hedge hlocked htime htarget htarget'

lemma softUnlinkCurrentEdge_eq_ok {name : Bytes} {owned : Bool}
    (h : softUnlinkCurrentEdge cfg db batch time dirId name creationTime targetId owned =
      .ok batch') :
    ∃ dir body, getDirectory db dirId false = .ok dir ∧ dir.mtime < time ∧
      db.currentEdges.get (cfg.edgeName dirId name) = some body ∧ body.targetId = targetId ∧
      body.creationTime = creationTime ∧ body.locked = false ∧
      batch' = { batch with
        directories := batch.directories.put dirId { dir with mtime := time }
        currentEdges := batch.currentEdges.delete (cfg.edgeName dirId name)
        snapshotEdges := (batch.snapshotEdges.put ⟨cfg.edgeName dirId name, creationTime⟩
          ⟨.of targetId owned⟩).put ⟨cfg.edgeName dirId name, time⟩ ⟨.of .null false⟩ } := by
  simp only [softUnlinkCurrentEdge, bind_eq_ok, orFail_eq_ok, check_eq_ok, exists_const,
    Prod.exists] at h
  obtain ⟨b, dir', hinit, body, hbody, htarget, htime, hlocked, ⟨⟩⟩ := h
  obtain ⟨dir, hdir, hmtime, rfl, rfl⟩ := initiateDirectoryModification_eq_ok.1 hinit
  subst htime
  exact ⟨dir, body, hdir, hmtime, hbody, htarget, rfl, hlocked, rfl⟩

/-! ## Spans -/

lemma SpanBody.locations_of_isInlineStorage {span : SpanBody} (h : span.IsInlineStorage) :
    span.locations = [] := by
  obtain ⟨size, crc, storage⟩ := span
  cases storage with
  | inline => rfl
  | blocks => cases h

/-- The block that is found is where it is said to be. -/
lemma findBlockIn_eq_some {locs : List SpanBlocksBody} {found : FoundBlock}
    (h : findBlockIn blockId locs = some found) :
    locs[found.locIdx]? = some found.loc ∧ found.loc.blocks[found.blockIdx]? = some found.block ∧
      found.block.blockId = blockId := by
  induction locs generalizing found with
  | nil => cases h
  | cons loc locs ih =>
    unfold findBlockIn at h
    split at h
    · rename_i i hi
      obtain ⟨hlt, hid, -⟩ := findIdx?_eq_some_iff_getElem.1 hi
      rw [getElem?_eq_getElem hlt, map_some, some.injEq] at h
      subst h
      exact ⟨rfl, getElem?_eq_getElem hlt, of_decide_eq_true hid⟩
    · obtain ⟨found', hfound, rfl⟩ := map_eq_some_iff.1 h
      exact ih hfound

lemma SpanBody.mem_blocks_of_findBlockIn {s : SpanBody} {found : FoundBlock}
    (h : findBlockIn blockId s.locations = some found) :
    (∀ block ∈ found.loc.blocks, block ∈ s.blocks) ∧ found.block ∈ s.blocks := by
  obtain ⟨hloc, hblock, -⟩ := findBlockIn_eq_some h
  have hmem : ∀ block ∈ found.loc.blocks, block ∈ s.blocks := fun block hb =>
    mem_flatMap.2 ⟨found.loc, mem_of_getElem? hloc, hb⟩
  exact ⟨hmem, hmem _ (mem_of_getElem? hblock)⟩

/-! ## Requests and their entries -/

section

variable (cfg : ShardConfig) (time : ℕ) (pick : PickBlockServices)

/-- The body of the entry that a request is turned into, and what has been checked of the request
beyond shards and cookies. -/
inductive Prepared : ShardReq → ShardLogEntryBody → Prop
  | constructFile (r e) (h : prepareConstructFile cfg time r = .ok e) :
    Prepared (.constructFile r) (.constructFile e)
  | linkFile (r) (hshard : r.fileId.shard = cfg.shid) :
    Prepared (.linkFile r) (.linkFile ⟨r.fileId, r.ownerId, r.name⟩)
  | sameDirectoryRename (r) (hne : ¬ SameBytes r.oldName r.newName) :
    Prepared (.sameDirectoryRename r) (.sameDirectoryRename r)
  | sameDirectoryRenameSnapshot (r) :
    Prepared (.sameDirectoryRenameSnapshot r) (.sameDirectoryRenameSnapshot r)
  | softUnlinkFile (r) : Prepared (.softUnlinkFile r) (.softUnlinkFile r)
  | createDirectoryInode (r) (htype : r.id.type = .directory) (howner : r.ownerId.type = .directory) :
    Prepared (.createDirectoryInode r) (.createDirectoryInode r)
  | createLockedCurrentEdge (r) (hshard : r.dirId.shard = cfg.shid) (hname : ValidName r.name) :
    Prepared (.createLockedCurrentEdge r) (.createLockedCurrentEdge r)
  | unlockCurrentEdge (r) : Prepared (.unlockCurrentEdge r) (.unlockCurrentEdge r)
  | lockCurrentEdge (r) : Prepared (.lockCurrentEdge r) (.lockCurrentEdge r)
  | removeDirectoryOwner (r) : Prepared (.removeDirectoryOwner r) (.removeDirectoryOwner r)
  | removeInode (r) (hnull : r.id ≠ .null) (hroot : r.id ≠ .rootDir) :
    Prepared (.removeInode r) (.removeInode r)
  | setDirectoryOwner (r) (howner : r.ownerId.type = .directory) :
    Prepared (.setDirectoryOwner r) (.setDirectoryOwner r)
  | setDirectoryInfo (r) : Prepared (.setDirectoryInfo r) (.setDirectoryInfo r)
  | removeNonOwnedEdge (r) :
    Prepared (.removeNonOwnedEdge r) (.removeNonOwnedEdge { r with targetId := .null })
  | sameShardHardFileUnlink (r) (htype : r.ownerId.type = .directory) :
    Prepared (.sameShardHardFileUnlink r)
      (.sameShardHardFileUnlink ⟨r.ownerId, r.targetId, r.name, r.creationTime, time⟩)
  | removeSpanInitiate (r) : Prepared (.removeSpanInitiate r) (.removeSpanInitiate r.fileId)
  | addInlineSpan (r e) (h : prepareAddInlineSpan cfg r = .ok e) :
    Prepared (.addInlineSpan r) (.addInlineSpan e)
  | addSpanInitiate (r e) (h : prepareAddSpanInitiate cfg pick defaultLocation r = .ok e) :
    Prepared (.addSpanInitiate r) (.addSpanAtLocationInitiate e)
  | addSpanInitiateWithReference (r ref e)
      (h : prepareAddSpanInitiate cfg pick defaultLocation r = .ok e) :
    Prepared (.addSpanInitiateWithReference r ref) (.addSpanAtLocationInitiate e)
  | addSpanAtLocationInitiate (location r ref e)
      (h : prepareAddSpanInitiate cfg pick location r = .ok e) :
    Prepared (.addSpanAtLocationInitiate location r ref) (.addSpanAtLocationInitiate e)
  | addSpanCertify (r) :
    Prepared (.addSpanCertify r) (.addSpanCertify ⟨r.fileId, r.byteOffset, r.proofs⟩)
  | makeFileTransient (r) :
    Prepared (.makeFileTransient r) (.makeFileTransient ⟨r.id, time, r.note⟩)
  | scrapTransientFile (r) : Prepared (.scrapTransientFile r) (.scrapTransientFile ⟨r.id, time⟩)
  | removeSpanCertify (r) :
    Prepared (.removeSpanCertify r) (.removeSpanCertify ⟨r.fileId, r.byteOffset, r.proofs⟩)
  | removeOwnedSnapshotFileEdge (r) :
    Prepared (.removeOwnedSnapshotFileEdge r) (.removeOwnedSnapshotFileEdge r)
  | swapBlocks (r) (hne : r.fileId1 ≠ r.fileId2) : Prepared (.swapBlocks r) (.swapBlocks r)
  | moveSpan (r) : Prepared (.moveSpan r) (.moveSpan r)
  | setTime (r) : Prepared (.setTime r) (.setTime r)
  | removeZeroBlockServiceFiles (r) :
    Prepared (.removeZeroBlockServiceFiles r) (.removeZeroBlockServiceFiles r)
  | swapSpans (r) (hne : r.fileId1 ≠ r.fileId2) : Prepared (.swapSpans r) (.swapSpans r)
  | addSpanLocation (r) (hne : r.fileId1 ≠ r.fileId2) :
    Prepared (.addSpanLocation r) (.addSpanLocation r)

end

lemma prepareLogEntry_eq_ok {pick : PickBlockServices} {req : ShardReq} {entry : ShardLogEntry}
    (h : prepareLogEntry cfg time pick req = .ok entry) :
    ∃ body, Prepared cfg time pick req body ∧ entry = ⟨time, body⟩ := by
  cases req <;> simp only [prepareLogEntry, bind_eq_ok, map_eq_ok, pure_eq_ok] at h
  case removeZeroBlockServiceFiles =>
    obtain ⟨_, rfl, rfl⟩ := h
    exact ⟨_, .removeZeroBlockServiceFiles _, rfl⟩
  all_goals
    obtain ⟨_, ⟨e, h, rfl⟩, rfl⟩ := h
    refine ⟨_, ?_, rfl⟩
  case constructFile | addInlineSpan | addSpanInitiate | addSpanInitiateWithReference |
      addSpanAtLocationInitiate =>
    constructor
    exact h
  all_goals
    simp only [prepareLinkFile, prepareSameDirectoryRename, prepareSoftUnlinkFile,
      prepareCreateDirectoryInode, prepareCreateLockedCurrentEdge, prepareUnlockCurrentEdge,
      prepareLockCurrentEdge, prepareRemoveDirectoryOwner, prepareRemoveInode,
      prepareSetDirectoryOwner, prepareSetDirectoryInfo, prepareRemoveNonOwnedEdge,
      prepareSameShardHardFileUnlink, prepareRemoveSpanInitiate, prepareMakeFileTransient,
      prepareScrapTransientFile, prepareSpanCertify, prepareRemoveOwnedSnapshotFileEdge,
      prepareSwapBlocks, prepareMoveSpan, prepareSetTime, prepareSwapSpans, prepareAddSpanLocation,
      checkDirectoryRequest, bind_eq_ok, check_eq_ok, pure_eq_ok, exists_const, true_and] at h
    grind [Prepared]

/-! ## Whole steps -/

/-- A step of a shard that does not crash applies the entry the request is turned into, or leaves
everything but the log position as it was. -/
lemma shardStep_eq_some {step : ShardStep} {db' : ShardDB} (h : shardStep cfg db step = some db') :
    (∃ entry resp index, prepareLogEntry cfg step.time step.pick step.req = .ok entry ∧
      ∃ batch, applyEntryBody cfg step.cache db entry.time entry.body = .ok (batch, resp) ∧
        db' = batch.advance index entry.time) ∨
      db' = db ∨ ∃ index time, db' = db.advance index time := by
  unfold shardStep at h
  split at h
  · rename_i entry hprepare
    simp only [applyLogEntry, if_true, map_eq_some_iff, Prod.exists, exists_and_right,
      exists_eq_right] at h
    obtain ⟨resp, h⟩ := h
    split at h
    · rename_i batch resp happly
      cases h
      exact .inl ⟨entry, resp, _, hprepare, batch, happly, rfl⟩
    · cases h
      exact .inr (.inr ⟨_, _, rfl⟩)
    · cases h
  · cases h
    exact .inr (.inl rfl)
  · cases h

end TernFS
