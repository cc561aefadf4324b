/-
# Every log entry is an event of the file machine

The refinement between the code and `TernFS.FileModel.Events`: a log entry that is applied
successfully changes the files, the spans and the index as one event does, and the event
follows from the fields of the entry.
-/
import TernFS.Shard.NameSteps
import Mathlib.Tactic.Ring

namespace TernFS

open Lib Function SortedStore List

/-! ## The index -/

/-- Only the index changes, and by `delta`. -/
def IndexPosted (batch batch' : ShardDB) (delta : ℕ → InodeId → ℤ) : Prop :=
  ∃ index, batch' = { batch with blockServicesToFiles := index } ∧
    Posted (indexView batch.blockServicesToFiles) (indexView index) delta

lemma wrapI64_modEq (x : ℤ) : wrapI64 x ≡ x [ZMOD 2 ^ 64] := by
  calc (x + 2 ^ 63) % 2 ^ 64 - 2 ^ 63 ≡ x + 2 ^ 63 - 2 ^ 63 [ZMOD 2 ^ 64] :=
        (Int.mod_modEq _ _).sub_right _
    _ = x := by ring

lemma fitsI64_wrapI64 (x : ℤ) : FitsI64 (wrapI64 x) := by
  unfold FitsI64 wrapI64
  omega

namespace IndexPosted

variable {batch batch' batch'' : ShardDB} {delta delta' : ℕ → InodeId → ℤ}

protected lemma refl (batch : ShardDB) : IndexPosted batch batch 0 :=
  ⟨batch.blockServicesToFiles, rfl, Posted.refl _⟩

protected lemma trans (h : IndexPosted batch batch' delta) (h' : IndexPosted batch' batch'' delta') :
    IndexPosted batch batch'' (delta + delta') := by
  obtain ⟨index, rfl, hposted⟩ := h
  obtain ⟨index', rfl, hposted'⟩ := h'
  exact ⟨index', rfl, hposted.trans hposted'⟩

lemma congr (h : IndexPosted batch batch' delta) (hd : delta = delta') :
    IndexPosted batch batch' delta' :=
  hd ▸ h

/-- The change of the index of a fold, one change for each element. -/
lemma foldl {α : Type} {post : ShardDB → α → ShardDB} {d : α → ℕ → InodeId → ℤ}
    (hpost : ∀ batch a, IndexPosted batch (post batch a) (d a)) (batch : ShardDB) (l : List α) :
    IndexPosted batch (l.foldl post batch) (l.map d).sum := by
  induction l generalizing batch with
  | nil => exact IndexPosted.refl batch
  | cons a l ih => exact ((hpost batch a).trans (ih (post batch a))).congr (by simp)

end IndexPosted

lemma addBlockServicesToFiles_posted (batch : ShardDB) (block : BlockBody) (f : InodeId)
    (delta : ℤ) :
    IndexPosted batch (addBlockServicesToFiles batch block.blockService f delta)
      (delta • blockCounts [block] f) := by
  refine ⟨_, rfl, fun b f' => ?_⟩
  by_cases hkey : (⟨block.blockService, f⟩ : BlockServiceToFileKey) = ⟨b, f'⟩
  · obtain ⟨rfl, rfl⟩ : block.blockService = b ∧ f = f' := by simpa using hkey
    simp only [indexView, get_put_self, Option.getD_some]
    refine ⟨?_, fun _ => fitsI64_wrapI64 _⟩
    simpa [blockCounts] using wrapI64_modEq _
  · have hzero : blockCounts [block] f b f' = 0 := by
      simp only [blockCounts, countP_singleton]
      simp only [BlockServiceToFileKey.mk.injEq, not_and] at hkey
      by_cases hf : f' = f
      · have hb : block.blockService ≠ b := fun hb => hkey hb hf.symm
        simp [hb]
      · simp [hf]
    simp only [indexView, get_put_of_ne hkey]
    exact ⟨by simp [hzero], id⟩

lemma blockCounts_cons (block : BlockBody) (blocks : List BlockBody) (f : InodeId) :
    blockCounts (block :: blocks) f = blockCounts [block] f + blockCounts blocks f := by
  funext b f'
  by_cases hf : f' = f
  · simp only [blockCounts, hf, if_true, countP_cons, countP_nil, Pi.add_apply]
    push_cast
    ring
  · simp [blockCounts, hf]

lemma blockCounts_nil (f : InodeId) : blockCounts [] f = 0 := by
  funext b f'
  simp [blockCounts]

/-- A difference posted for each block of a list adds up to that of the whole list. -/
lemma sum_smul_blockCounts (delta : ℤ) (blocks : List BlockBody) (f : InodeId) :
    (blocks.map fun block => delta • blockCounts [block] f).sum = delta • blockCounts blocks f := by
  induction blocks with
  | nil => rw [map_nil, sum_nil, blockCounts_nil, zsmul_zero]
  | cons block blocks ih =>
    rw [map_cons, sum_cons, ih, ← zsmul_add, ← blockCounts_cons]

/-- Posting the same difference for every block of a list. -/
lemma foldl_addBlockServicesToFiles (batch : ShardDB) (blocks : List BlockBody) (f : InodeId)
    (delta : ℤ) :
    IndexPosted batch (blocks.foldl (fun batch block =>
      addBlockServicesToFiles batch block.blockService f delta) batch)
      (delta • blockCounts blocks f) :=
  (IndexPosted.foldl (fun batch block =>
    addBlockServicesToFiles_posted batch block f delta) batch blocks).congr
    (sum_smul_blockCounts delta blocks f)

/-- Posting one difference to one file and another to a second file, for every block. -/
lemma foldl_addBlockServicesToFiles_two (batch : ShardDB) (blocks : List BlockBody)
    (f f' : InodeId) (delta delta' : ℤ) :
    IndexPosted batch (blocks.foldl (fun batch block =>
      addBlockServicesToFiles (addBlockServicesToFiles batch block.blockService f delta)
        block.blockService f' delta') batch)
      (delta • blockCounts blocks f + delta' • blockCounts blocks f') := by
  refine (IndexPosted.foldl (fun batch block =>
    (addBlockServicesToFiles_posted batch block f delta).trans
      (addBlockServicesToFiles_posted _ block f' delta')) batch blocks).congr ?_
  rw [sum_map_add, sum_smul_blockCounts, sum_smul_blockCounts]

lemma moveBlocksToFile_posted (batch : ShardDB) (blocks : List BlockBody)
    (addTo subtractFrom : InodeId) :
    IndexPosted batch (moveBlocksToFile batch blocks addTo subtractFrom)
      (blockCounts blocks addTo - blockCounts blocks subtractFrom) :=
  (foldl_addBlockServicesToFiles_two batch blocks addTo subtractFrom 1 (-1)).congr
    (by rw [one_zsmul, neg_one_zsmul, sub_eq_add_neg])

/-- The directories and edges of a shard, and the linked files they may point to. -/
def ShardDB.named (db : ShardDB) : SortedStore InodeId DirectoryBody ×
    SortedStore EdgeName CurrentEdgeBody × SortedStore SnapshotEdgeKey SnapshotEdgeBody ×
    (InodeId → Option ℕ) :=
  (db.directories, db.currentEdges, db.snapshotEdges, linkedView db.files)

/-! ## Entries about file records -/

variable {id : InodeId}

section

variable {cfg : ShardConfig} {cache : BlockServicesCache} {db db' batch batch' : ShardDB} {time : ℕ}
  {resp : ShardResp}

/-- Opening a transient file for modification only touches its times. -/
lemma initiateTransientFileModification_fileView {allowPastDeadline : Bool}
    {tf' : TransientFileBody}
    (h : initiateTransientFileModification cfg db batch time allowPastDeadline id =
      .ok (batch', tf')) (hbatch : batch.fileView = db.fileView) :
    batch'.fileView = db.fileView ∧
      db.fileView.transient id = some (tf'.fileSize, tf'.lastSpanState) ∧
      (batch'.spans = batch.spans ∧ batch'.nextBlockId = batch.nextBlockId) ∧
      batch'.named = batch.named := by
  obtain ⟨tf, hget, -, -, hsize, hstate, -, rfl⟩ := initiateTransientFileModification_eq_ok h
  have htransient : db.fileView.transient id = some (tf'.fileSize, tf'.lastSpanState) := by
    simp [ShardDB.fileView, transientView, hget, hsize, hstate]
  refine ⟨?_, htransient, ⟨rfl, rfl⟩, rfl⟩
  rw [← hbatch] at htransient ⊢
  simp only [ShardDB.fileView, transientView_put] at htransient ⊢
  rw [← htransient, update_eq_self]

lemma nextInodeId_eq_ok {next : InodeId} (h : nextInodeId id = .ok next) :
    next.u64 = addU64 id.u64 0x100 ∧ next.Valid := by
  simp only [nextInodeId, bind_eq_ok, assert_eq_ok, exists_const] at h
  obtain ⟨hvalid, ⟨⟩⟩ := h
  exact ⟨rfl, hvalid⟩

lemma applyConstructFile_fileStep {entry : ConstructFileEntry}
    (h : applyConstructFile cfg db time entry = .ok (db', resp)) :
    (∃ f, FileStep db.fileView (.construct f) db'.fileView) ∧
      (db'.spans = db.spans ∧ db'.nextBlockId = db.nextBlockId) ∧ db'.named = db.named := by
  unfold applyConstructFile at h
  split_ifs at h
  · simp only [bind_eq_ok] at h
    obtain ⟨id, hid, ⟨⟩⟩ := h
    obtain ⟨hnext, hvalid⟩ := nextInodeId_eq_ok hid
    refine ⟨⟨id, ?_⟩, ⟨rfl, rfl⟩, rfl⟩
    simpa only [ShardDB.fileView, transientView_put] using
      FileStep.constructFile (v := db.fileView) hnext hvalid
  · simp only [bind_eq_ok, assert_eq_ok, exists_const] at h
    obtain ⟨-, id, hid, ⟨⟩⟩ := h
    obtain ⟨hnext, hvalid⟩ := nextInodeId_eq_ok hid
    refine ⟨⟨id, ?_⟩, ⟨rfl, rfl⟩, rfl⟩
    simpa only [ShardDB.fileView, transientView_put] using
      FileStep.constructSymlink (v := db.fileView) hnext hvalid

lemma applyLinkFile_fileStep {entry : LinkFileEntry}
    (h : applyLinkFile cfg db time entry = .ok (db', resp)) :
    ((db'.fileView = db.fileView ∨ FileStep db.fileView (.link entry.fileId) db'.fileView) ∧
      db'.nextBlockId = db.nextBlockId) ∧
      ∀ r : LinkFileReq, entry = ⟨r.fileId, r.ownerId, r.name⟩ →
        NamesStep cfg time db.names (.linkFile r) db'.names := by
  unfold applyLinkFile at h
  split at h
  · simp only [bind_eq_ok, orFail_eq_ok] at h
    obtain ⟨t, -, ⟨⟩⟩ := h
    exact ⟨⟨.inl rfl, rfl⟩, fun _ _ => .stay⟩
  · cases h
  rename_i file hfile
  simp only [bind_eq_ok, check_eq_ok, exists_const, Prod.exists] at h
  obtain ⟨hclean, b, t, hcreate, ⟨⟩⟩ := h
  obtain ⟨-, hget, -⟩ := getTransientFile_eq_ok.1 hfile
  have hf : db.fileView.transient entry.fileId = some (file.fileSize, .clean) := by
    simp [ShardDB.fileView, transientView, hget, hclean]
  obtain ⟨dir, hdir, hmtime, hcreated⟩ := createCurrentEdge_eq_ok hcreate
  obtain ⟨hnames, hside⟩ := hcreated.names
  have hnext := congrArg Prod.snd hside
  refine ⟨⟨.inr ?_, hnext⟩, ?_⟩
  · rw [ShardDB.fileView_eq_of_fileSide hside]
    simpa only [ShardDB.fileView, transientView_delete, linkedView_put] using FileStep.link hf
  · rintro r rfl
    exact .link (there_of_getDirectory hdir) hmtime hnames

/-- A linked file becomes a transient one of the same size. -/
lemma fileStep_unlink {file : FileBody} {body : TransientFileBody}
    (hfile : db.files.get id = some file) (hsize : body.fileSize = file.fileSize)
    (hstate : body.lastSpanState = .clean) :
    FileStep db.fileView (.unlink id) { db.fileView with
        linked := linkedView (db.files.delete id)
        transient := transientView (db.transientFiles.put id body) } := by
  have hf : db.fileView.linked id = some file.fileSize := by
    simp [ShardDB.fileView, linkedView, hfile]
  rw [linkedView_delete, transientView_put, hsize, hstate]
  exact FileStep.unlink hf

lemma applySameShardHardFileUnlink_fileStep {entry : SameShardHardFileUnlinkEntry}
    (h : applySameShardHardFileUnlink cfg db time entry = .ok (db', resp)) :
    ((db'.fileView = db.fileView ∨ FileStep db.fileView (.unlink entry.targetId) db'.fileView) ∧
      db'.nextBlockId = db.nextBlockId) ∧
      ∀ r : SameShardHardFileUnlinkReq,
        entry = ⟨r.ownerId, r.targetId, r.name, r.creationTime, time⟩ →
          NamesStep cfg time db.names (.sameShardHardFileUnlink r) db'.names := by
  unfold applySameShardHardFileUnlink at h
  split at h
  · simp only [bind_eq_ok] at h
    obtain ⟨-, -, ⟨⟩⟩ := h
    exact ⟨⟨.inl rfl, rfl⟩, fun _ _ => .stay⟩
  · cases h
  rename_i file hfile
  split at h
  · cases h
  rename_i b dir hinit
  simp only [bind_eq_ok, check_eq_ok, orFail_eq_ok, exists_const] at h
  obtain ⟨edge, -, -, ⟨⟩⟩ := h
  obtain ⟨dir, hdir, hmtime, rfl, rfl⟩ := initiateDirectoryModification_eq_ok.1 hinit
  refine ⟨⟨.inr (fileStep_unlink (getFile_eq_ok.1 hfile).2 rfl rfl), rfl⟩, ?_⟩
  rintro r rfl
  exact .removeSnapshot (getDirectory_eq_ok.1 hdir).2.1 hmtime rfl

lemma applyMakeFileTransient_fileStep {entry : MakeFileTransientEntry}
    (h : applyMakeFileTransient db time entry = .ok (db', resp)) :
    ((db'.fileView = db.fileView ∨ FileStep db.fileView (.unlink entry.id) db'.fileView) ∧
      db'.nextBlockId = db.nextBlockId) ∧ db'.names = db.names := by
  unfold applyMakeFileTransient at h
  split at h
  · split at h
    · cases h
      exact ⟨⟨.inl rfl, rfl⟩, rfl⟩
    · cases h
  · cases h
  · rename_i file hfile
    cases h
    exact ⟨⟨.inr (fileStep_unlink (getFile_eq_ok.1 hfile).2 rfl rfl), rfl⟩, rfl⟩

/-- The first span found from offset 0 on decides whether a file has spans. -/
lemma get_eq_none_of_not_hasSpan (h : ¬ HasSpan db id) (o : ℕ) : db.spans.get ⟨id, o⟩ = none := by
  by_contra hne
  obtain ⟨span, hspan⟩ := Option.ne_none_iff_exists'.1 hne
  have hmem : ((⟨id, o⟩ : SpanKey), span) ∈ db.spans.seek ⟨id, 0⟩ :=
    mem_seek.2 ⟨SpanKey.le_def.2 (.inr ⟨rfl, Nat.zero_le o⟩), hspan⟩
  cases hseek : db.spans.seek ⟨id, 0⟩ with
  | nil => simp [hseek] at hmem
  | cons e l =>
    refine h ⟨e, by simp [hseek], ?_⟩
    -- the first entry lies between the two keys of the file
    have he : e ∈ db.spans.seek ⟨id, 0⟩ := by simp [hseek]
    have hlow := SpanKey.le_def.1 (mem_seek.1 he).1
    have hsorted : SortedEntries (e :: l) := hseek ▸ db.spans.sorted.filter _
    rw [hseek] at hmem
    rcases mem_cons.1 hmem with rfl | hmem
    · rfl
    have hhigh := SpanKey.lt_def.1 (hsorted.lt_of_mem hmem)
    rcases hlow with hlow | ⟨hlow, -⟩
    · rcases hhigh with hhigh | ⟨hhigh, -⟩
      · exact absurd (hlow.trans hhigh) (lt_irrefl _)
      · exact hhigh
    · exact hlow.symm

lemma applyRemoveFileInode_fileStep (h : applyRemoveFileInode db time id = .ok (db', resp)) :
    (db'.fileView = db.fileView ∨ FileStep db.fileView (.remove id) db'.fileView) ∧
      (db'.spans = db.spans ∧ db'.nextBlockId = db.nextBlockId) ∧ db'.named = db.named := by
  simp only [applyRemoveFileInode, bind_eq_ok, assert_eq_ok, exists_const] at h
  obtain ⟨-, h⟩ := h
  split at h
  · split at h
    · cases h
    · cases h
      exact ⟨.inl rfl, ⟨rfl, rfl⟩, rfl⟩
    · cases h
  · cases h
  · simp only [bind_eq_ok, check_eq_ok, exists_const] at h
    obtain ⟨-, hspans, ⟨⟩⟩ := h
    refine ⟨.inr ?_, ⟨rfl, rfl⟩, rfl⟩
    have hnone : ∀ o, db.fileView.spans.get ⟨id, o⟩ = none := get_eq_none_of_not_hasSpan hspans
    simpa only [ShardDB.fileView, transientView_delete] using FileStep.remove hnone

lemma applyScrapTransientFile_fileSide {entry : ScrapTransientFileEntry}
    (h : applyScrapTransientFile db time entry = .ok (db', resp)) :
    db'.fileSide = db.fileSide ∧ db'.named = db.named := by
  simp only [applyScrapTransientFile, bind_eq_ok] at h
  obtain ⟨body, hbody, ⟨⟩⟩ := h
  obtain ⟨-, hget, -⟩ := getTransientFile_eq_ok.1 hbody
  have hsame : some (body.fileSize, body.lastSpanState) =
      transientView db.transientFiles entry.id := by
    simp [transientView, hget]
  refine ⟨?_, rfl⟩
  simp only [ShardDB.fileSide, ShardDB.fileView, transientView_put]
  rw [hsame, update_eq_self]

lemma applySetTime_fileSide {entry : SetTimeReq} (h : applySetTime db entry = .ok (db', resp)) :
    db'.fileSide = db.fileSide ∧ db'.named = db.named := by
  simp only [applySetTime, bind_eq_ok] at h
  obtain ⟨file, hfile, ⟨⟩⟩ := h
  obtain ⟨-, hget⟩ := getFile_eq_ok.1 hfile
  have hsame : some file.fileSize = linkedView db.files entry.id := by
    simp [linkedView, hget]
  simp only [ShardDB.fileSide, ShardDB.fileView, ShardDB.named, linkedView_put]
  rw [hsame, update_eq_self]
  exact ⟨rfl, rfl⟩

end

end TernFS
