/-
# What log entries can fail with

A log entry that is applied either goes through, or fails with an error, or takes the process
down.  For each kind of entry, this file says which failures there can be: any error will do, apart
from the two that speak of an edge from the future, and a crash is put down to the condition that
the code asserts or takes for granted.  The failures that a caller cares about are a parameter
(`P`), so that the same lemmas serve to exclude an error and to exclude a crash.
-/
import TernFS.Shard.Inversion

namespace TernFS

open Lib List Option

variable {cfg : ShardConfig} {db : ShardDB} {dirId : InodeId} {proofs : List BlockProof} {i : ℕ}

/-- The failures in `P` contain every error, apart from those about more recent edges, which they
contain if the edges of the shard can give rise to them. -/
structure Allows (P : Failure → Prop) (cfg : ShardConfig) (db : ShardDB) : Prop where
  err : ∀ e : TernError, e ≠ .moreRecentSnapshotEdge → e ≠ .moreRecentCurrentEdge → P (.err e)
  snapshot : ∀ dirId dir name time, db.directories.get dirId = some dir → dir.mtime < time →
    ¬ LastSnapshotEdgeBefore cfg db dirId name time → P (.err .moreRecentSnapshotEdge)
  current : ∀ dirId dir name time body, db.directories.get dirId = some dir → dir.mtime < time →
    db.currentEdges.get (cfg.edgeName dirId name) = some body → ¬ body.creationTime < time →
      P (.err .moreRecentCurrentEdge)

/-- The errors about more recent edges. -/
def TernError.isMoreRecent : TernError → Bool
  | .moreRecentSnapshotEdge => true
  | .moreRecentCurrentEdge => true
  | _ => false

/-- Any other error. -/
lemma Allows.other {P : Failure → Prop} (h : Allows P cfg db) (e : TernError)
    (he : e.isMoreRecent = false) : P (.err e) := by
  refine h.err e ?_ ?_
  · rintro rfl
    cases he
  · rintro rfl
    cases he

lemma Allows.check {P : Failure → Prop} (h : Allows P cfg db) {α : Type} {c : Prop} [Decidable c]
    {e : TernError} {f : PUnit → Checked α} (he : e.isMoreRecent = false)
    (hf : c → FailsOnly P (f ⟨⟩)) : FailsOnly P (check c e >>= f) :=
  .ensure (fun _ => h.other e he) hf

lemma Allows.orFail {P : Failure → Prop} (h : Allows P cfg db) {α β : Type} {o : Option α}
    {e : TernError} {f : α → Checked β} (he : e.isMoreRecent = false)
    (hf : ∀ a, o = some a → FailsOnly P (f a)) : FailsOnly P (orFail (.err e) o >>= f) :=
  .orFail (fun _ => h.other e he) hf

lemma allows_err : Allows (· ≠ .crash) cfg db where
  err _ _ _ := by simp
  snapshot _ _ _ _ _ _ _ := by simp
  current _ _ _ _ _ _ _ _ _ := by simp

variable {allowSnapshot allowPastDeadline : Bool} {f id targetId : InodeId} {n spanEnd : ℕ}
    {entry : AddSpanAtLocationInitiateEntry} {blocks : List BlockBody}

section

variable {P : Failure → Prop} {cfg : ShardConfig} {cache : BlockServicesCache} {db batch : ShardDB}
  {time : ℕ}

variable (hP : Allows P cfg db)

include hP

/-! ## Reading records -/

lemma getDirectory_failsOnly : FailsOnly P (getDirectory db id allowSnapshot) := by
  simp [getDirectory, hP.err]

lemma getFile_failsOnly : FailsOnly P (getFile db id) := by
  simp [getFile, hP.err]

lemma getTransientFile_failsOnly : FailsOnly P (getTransientFile db time allowPastDeadline id) := by
  simp [getTransientFile, hP.err]

lemma initiateDirectoryModification_failsOnly :
    FailsOnly P (initiateDirectoryModification db batch time allowSnapshot dirId) := by
  simp [initiateDirectoryModification, getDirectory_failsOnly hP, hP.err]

lemma initiateTransientFileModification_failsOnly :
    FailsOnly P (initiateTransientFileModification cfg db batch time allowPastDeadline id) := by
  simp [initiateTransientFileModification, getTransientFile_failsOnly hP, hP.err]

/-! ## Edges -/

lemma createCurrentEdge_failsOnly {name : Bytes} {locked : Bool} {oldCreationTime : ℕ} :
    FailsOnly P (createCurrentEdge cfg db batch time dirId name targetId locked
      oldCreationTime) := by
  rw [createCurrentEdge, failsOnly_bind]
  refine ⟨initiateDirectoryModification_failsOnly hP, fun out hinit => ?_⟩
  obtain ⟨dir, hdir, hmtime, -⟩ := initiateDirectoryModification_eq_ok.1 hinit
  have hget := (getDirectory_eq_ok.1 hdir).2.1
  dsimp only
  split
  · simp only [failsOnly_bind, failsOnly_check, failsOnly_pure, implies_true, and_true]
    exact hP.snapshot dirId dir name time hget hmtime
  rename_i existing hexisting
  split_ifs
  · simp [hP.err]
  · simp only [failsOnly_bind, failsOnly_check, failsOnly_pure, implies_true, and_true]
    exact ⟨hP.current dirId dir name time existing hget hmtime hexisting,
      fun _ _ _ => hP.other _ rfl⟩

lemma softUnlinkCurrentEdge_failsOnly {name : Bytes} {creationTime : ℕ} {owned : Bool} :
    FailsOnly P (softUnlinkCurrentEdge cfg db batch time dirId name creationTime targetId
      owned) := by
  simp [softUnlinkCurrentEdge, initiateDirectoryModification_failsOnly hP, hP.err]

lemma applyLinkFile_failsOnly {entry : LinkFileEntry} :
    FailsOnly P (applyLinkFile cfg db time entry) := by
  unfold applyLinkFile
  split
  · simp [hP.err]
  · rename_i e _ he
    exact failsOnly_error.2 (getTransientFile_failsOnly hP e he)
  · simp [createCurrentEdge_failsOnly hP, hP.err]

lemma applyCreateLockedCurrentEdge_failsOnly {entry : CreateLockedCurrentEdgeReq} :
    FailsOnly P (applyCreateLockedCurrentEdge cfg db time entry) := by
  simp [applyCreateLockedCurrentEdge, createCurrentEdge_failsOnly hP]

lemma applyUnlockCurrentEdge_failsOnly {entry : UnlockCurrentEdgeReq} :
    FailsOnly P (applyUnlockCurrentEdge cfg db time entry) := by
  refine .bind (initiateDirectoryModification_failsOnly hP) fun out _ =>
    hP.orFail rfl fun body _ => hP.check rfl fun _ => ?_
  split_ifs <;> exact failsOnly_pure

lemma applyLockCurrentEdge_failsOnly {entry : LockCurrentEdgeReq} :
    FailsOnly P (applyLockCurrentEdge cfg db time entry) := by
  refine .bind (initiateDirectoryModification_failsOnly hP) fun out _ =>
    hP.orFail rfl fun body _ => hP.check rfl fun _ => ?_
  split_ifs <;> exact failsOnly_pure

lemma applyRemoveNonOwnedEdge_failsOnly {entry : RemoveNonOwnedEdgeReq} :
    FailsOnly P (applyRemoveNonOwnedEdge cfg db time entry) := by
  simp only [applyRemoveNonOwnedEdge, failsOnly_bind]
  refine ⟨initiateDirectoryModification_failsOnly hP, fun out _ => ?_⟩
  split
  · exact failsOnly_pure
  · simp [hP.err]

lemma applyRemoveOwnedSnapshotFileEdge_failsOnly {entry : SameShardHardFileUnlinkReq} :
    FailsOnly P (applyRemoveOwnedSnapshotFileEdge cfg db time entry) := by
  simp [applyRemoveOwnedSnapshotFileEdge, initiateDirectoryModification_failsOnly hP]

/-- The directory of the edge is taken for granted. -/
lemma applySameShardHardFileUnlink_failsOnly {entry : SameShardHardFileUnlinkEntry}
    (hcrash : ∀ file e, db.files.get entry.targetId = some file →
      initiateDirectoryModification db db time true entry.ownerId = .error e → P .crash) :
    FailsOnly P (applySameShardHardFileUnlink cfg db time entry) := by
  unfold applySameShardHardFileUnlink
  split
  · simp [getTransientFile_failsOnly hP]
  · rename_i e _ he
    exact failsOnly_error.2 (getFile_failsOnly hP e he)
  rename_i file hfile
  split
  · rename_i e he
    exact failsOnly_error.2 (hcrash file e (getFile_eq_ok.1 hfile).2 he)
  · simp [hP.err]

/-! ## Directories -/

lemma applyCreateDirectoryInode_failsOnly {entry : CreateDirectoryInodeReq} :
    FailsOnly P (applyCreateDirectoryInode db time entry) := by
  unfold applyCreateDirectoryInode
  split
  · simp [hP.err]
  · exact failsOnly_pure
  · rename_i e _ he
    exact failsOnly_error.2 (getDirectory_failsOnly hP e he)

lemma applyRemoveDirectoryOwner_failsOnly {entry : RemoveDirectoryOwnerReq} :
    FailsOnly P (applyRemoveDirectoryOwner db time entry) := by
  simp only [applyRemoveDirectoryOwner, failsOnly_bind]
  refine ⟨initiateDirectoryModification_failsOnly hP, fun out _ => ?_⟩
  split_ifs
  · exact failsOnly_pure
  · simp [hP.err]

lemma applySetDirectoryOwner_failsOnly {entry : SetDirectoryOwnerReq} :
    FailsOnly P (applySetDirectoryOwner db time entry) := by
  simp [applySetDirectoryOwner, initiateDirectoryModification_failsOnly hP]

/-- An inode to be removed is that of a directory, a file or a symlink. -/
lemma applyRemoveInode_failsOnly {entry : RemoveInodeReq}
    (hcrash : entry.id.type = .reserved → P .crash) :
    FailsOnly P (applyRemoveInode db time entry) := by
  unfold applyRemoveInode
  split_ifs with htype
  · simp only [applyRemoveDirectoryInode, failsOnly_bind, failsOnly_assert, htype, not_true,
      IsEmpty.forall_iff, true_and]
    intro _ _
    split
    · exact failsOnly_pure
    · rename_i e _ he
      exact failsOnly_error.2 (initiateDirectoryModification_failsOnly hP e he)
    · simp [hP.err]
  · simp only [applyRemoveFileInode, failsOnly_bind, failsOnly_assert]
    refine ⟨fun hfile => hcrash ?_, fun _ _ => ?_⟩
    · cases h : entry.id.type <;> simp_all [InodeId.IsFile]
    split
    · split
      · exact failsOnly_error.2 (hP.other _ rfl)
      · exact failsOnly_pure
      · rename_i e _ he
        exact failsOnly_error.2 (getFile_failsOnly hP e he)
    · rename_i e _ he
      exact failsOnly_error.2 (getTransientFile_failsOnly hP e he)
    · simp [hP.err]

/-! ## File records -/

omit hP in
/-- The next id of a counter has to be valid. -/
lemma nextInodeId_failsOnly (hcrash : ¬ (⟨addU64 id.u64 0x100⟩ : InodeId).Valid → P .crash) :
    FailsOnly P (nextInodeId id) := by
  simpa [nextInodeId] using hcrash

omit hP in
lemma applyConstructFile_failsOnly {entry : ConstructFileEntry}
    (hfile : entry.type = InodeId.typeBits .file →
      ¬ (⟨addU64 db.nextFileId.u64 0x100⟩ : InodeId).Valid → P .crash)
    (hsymlink : entry.type ≠ InodeId.typeBits .file →
      ¬ (⟨addU64 db.nextSymlinkId.u64 0x100⟩ : InodeId).Valid → P .crash)
    (htype : entry.type ≠ InodeId.typeBits .file → entry.type ≠ InodeId.typeBits .symlink →
      P .crash) :
    FailsOnly P (applyConstructFile cfg db time entry) := by
  unfold applyConstructFile
  split_ifs with h
  · simp [nextInodeId_failsOnly (hfile h)]
  · simp only [failsOnly_bind, failsOnly_assert, failsOnly_pure, implies_true, and_true,
      nextInodeId_failsOnly (hsymlink h)]
    exact htype h

lemma applyMakeFileTransient_failsOnly {entry : MakeFileTransientEntry} :
    FailsOnly P (applyMakeFileTransient db time entry) := by
  unfold applyMakeFileTransient
  split
  · split
    · exact failsOnly_pure
    · exact failsOnly_error.2 (hP.other _ rfl)
  · rename_i e _ he
    exact failsOnly_error.2 (getFile_failsOnly hP e he)
  · exact failsOnly_pure

/-! ## Adding and removing spans -/

/-- A block on a service that the cache does not know is put down to `P`. -/
def BlockServicesCache.KnownOr (cache : BlockServicesCache) (P : Failure → Prop)
    (blocks : List BlockBody) : Prop :=
  ∀ block ∈ blocks, cache block.blockService = none → P .crash

lemma applyAddInlineSpan_failsOnly {entry : AddInlineSpanEntry} :
    FailsOnly P (applyAddInlineSpan cfg db time entry) := by
  simp only [applyAddInlineSpan, failsOnly_bind]
  refine ⟨initiateTransientFileModification_failsOnly hP, fun out _ => ?_⟩
  split_ifs <;> simp [hP.err]

omit hP in
lemma fillInAddSpanInitiate_failsOnly {loc : SpanBlocksBody}
    (hcache : cache.KnownOr P loc.blocks) : FailsOnly P (fillInAddSpanInitiate cache loc) := by
  refine failsOnly_mapM fun block hblock => ?_
  simpa using hcache block hblock

omit hP in
lemma fillInRemoveSpanInitiate_failsOnly {span : SpanBody} (hcache : cache.KnownOr P span.blocks) :
    FailsOnly P (fillInRemoveSpanInitiate cache span) := by
  refine failsOnly_mapM fun block hblock => ?_
  simpa using hcache block hblock

omit hP in
lemma length_newBlocks (n : ℕ) (entryBlocks : List EntryNewBlockInfo) :
    (newBlocks cfg time n entryBlocks).1.length = entryBlocks.length := by
  induction entryBlocks generalizing n with
  | nil => rfl
  | cons entryBlock entryBlocks ih => exact congrArg (· + 1) (ih _)

omit hP in
lemma exists_of_mem_newBlocks {entryBlocks : List EntryNewBlockInfo} {block : BlockBody}
    (h : block ∈ (newBlocks cfg time n entryBlocks).1) :
    ∃ entryBlock ∈ entryBlocks, entryBlock.blockServiceId = block.blockService := by
  induction entryBlocks generalizing n with
  | nil => cases h
  | cons entryBlock entryBlocks ih =>
    rcases mem_cons.1 h with rfl | h
    · exact ⟨entryBlock, mem_cons_self, rfl⟩
    · obtain ⟨e, he, hservice⟩ := ih h
      exact ⟨e, mem_cons_of_mem _ he, hservice⟩

/-- The record for the blocks and stripes of the entry can be allocated. -/
def AddSpanAtLocationInitiateEntry.Allocates (entry : AddSpanAtLocationInitiateEntry) : Prop :=
  entry.parity.blocks ≤ entry.bodyBlocks.length ∧ entry.stripes ≤ entry.bodyStripes.length ∧
    (0 < entry.stripes ∧ entry.stripes < 16) ∧ 0 < entry.parity.dataBlocks ∧
    entry.storageClass ≠ emptyStorage ∧ entry.storageClass ≠ inlineStorage

omit hP in
lemma AddSpanAtLocationInitiateEntry.Allocates.alloc_ne_none
    (h : entry.Allocates) (cfg : ShardConfig) (time n : ℕ) :
    SpanBlocksBody.alloc entry.locationId entry.storageClass entry.parity entry.stripes
      entry.cellSize (newBlocks cfg time n (entry.bodyBlocks.take entry.parity.blocks)).1
      (entry.bodyStripes.take entry.stripes) ≠ none := by
  obtain ⟨hblocks, hstripes, hrest⟩ := h
  have hlength : (newBlocks cfg time n (entry.bodyBlocks.take entry.parity.blocks)).1.length =
      entry.parity.blocks := by
    rw [length_newBlocks, length_take, min_eq_left hblocks]
  have hlength' : (entry.bodyStripes.take entry.stripes).length = entry.stripes := by
    rw [length_take, min_eq_left hstripes]
  rw [SpanBlocksBody.alloc, dif_pos ⟨hlength, hlength', hrest⟩]
  exact some_ne_none _

omit hP in
/-- Conversely, a record that is allocated has what it needs. -/
lemma AddSpanAtLocationInitiateEntry.allocates_of_alloc {loc : SpanBlocksBody}
    (h : SpanBlocksBody.alloc entry.locationId entry.storageClass entry.parity entry.stripes
      entry.cellSize (newBlocks cfg time n (entry.bodyBlocks.take entry.parity.blocks)).1
      (entry.bodyStripes.take entry.stripes) = some loc) : entry.Allocates := by
  simp only [SpanBlocksBody.alloc, dite_none_right_eq_some, length_newBlocks, length_take] at h
  obtain ⟨⟨hblocks, hstripes, hrest⟩, -⟩ := h
  exact ⟨min_eq_left_iff.1 hblocks, min_eq_left_iff.1 hstripes, hrest⟩

lemma applyAddSpanInitiate_failsOnly
    (halloc : ∀ file, db.transientFiles.get entry.fileId = some file →
      file.fileSize = entry.byteOffset → ¬ entry.Allocates → P .crash)
    (hnew : ∀ entryBlock ∈ entry.bodyBlocks, cache entryBlock.blockServiceId = none → P .crash)
    (hcache : ∀ k span, db.spans.get k = some span → cache.KnownOr P span.blocks) :
    FailsOnly P (applyAddSpanInitiate cfg cache db time entry) := by
  refine .bind (initiateTransientFileModification_failsOnly hP) fun ⟨batch', file'⟩ hinit => ?_
  obtain ⟨file, hfile, -, -, hsize, -⟩ := initiateTransientFileModification_eq_ok hinit
  dsimp only
  split_ifs with hoffset
  · refine hP.check rfl fun _ => hP.orFail rfl fun existing hexisting => hP.orFail rfl
      fun loc hloc => .bind (fillInAddSpanInitiate_failsOnly fun block hblock => ?_)
        fun _ _ => failsOnly_pure
    refine hcache _ existing hexisting block ?_
    have hlocs : existing.locations = [loc] := by
      unfold sameSpanAgain at hloc
      split at hloc
      · rename_i loc' hstorage
        split_ifs at hloc
        cases hloc
        simp [SpanBody.locations, hstorage]
      · cases hloc
    rw [SpanBody.blocks, hlocs, flatMap_singleton]
    exact hblock
  · refine hP.check rfl fun _ => .orFail (fun hnone => ?_) fun loc hloc =>
      .bind (fillInAddSpanInitiate_failsOnly fun block hblock => ?_) fun _ _ => failsOnly_pure
    · exact halloc file hfile (hsize.symm.trans (not_not.1 hoffset))
        fun h => h.alloc_ne_none _ _ _ hnone
    simp only [SpanBlocksBody.alloc, dite_none_right_eq_some, some.injEq] at hloc
    obtain ⟨_, rfl⟩ := hloc
    obtain ⟨entryBlock, hmem, hservice⟩ := exists_of_mem_newBlocks hblock
    rw [← hservice]
    exact hnew entryBlock (mem_of_mem_take hmem)

omit hP in
lemma checkAddProofs_failsOnly (hcache : cache.KnownOr P blocks) :
    FailsOnly P (checkAddProofs cache blocks proofs) := by
  induction blocks generalizing proofs with
  | nil => simp [checkAddProofs]
  | cons block blocks ih =>
    cases proofs with
    | nil => simp [checkAddProofs]
    | cons =>
      refine .bind (.orFail (hcache block mem_cons_self) fun _ _ => failsOnly_pure) fun good _ => ?_
      split_ifs
      · exact ih fun b hb => hcache b (mem_cons_of_mem _ hb)
      · exact failsOnly_pure

/-- The span to be certified has one location. -/
lemma applyAddSpanCertify_failsOnly {entry : SpanCertifyEntry}
    (hcache : ∀ k span, db.spans.get k = some span → cache.KnownOr P span.blocks)
    (hsingle : ∀ file span, db.transientFiles.get entry.fileId = some file →
      db.spans.get ⟨entry.fileId, entry.byteOffset⟩ = some span → file.lastSpanState = .dirty →
      file.fileSize ≤ addU64 entry.byteOffset span.spanSize → 1 < span.locations.length →
      P .crash) :
    FailsOnly P (applyAddSpanCertify cfg cache db time entry) := by
  refine .bind (initiateTransientFileModification_failsOnly hP) fun ⟨batch', file'⟩ hinit =>
    hP.orFail rfl fun span hspan => ?_
  obtain ⟨file, hfile, -, -, hsize, hstate, -⟩ := initiateTransientFileModification_eq_ok hinit
  split_ifs with hdone
  · exact failsOnly_pure
  refine hP.check rfl fun hcondemned => ?_
  split
  · exact failsOnly_error.2 (hP.other _ rfl)
  rename_i loc rest hstorage
  have hlocs : span.locations = loc :: rest := by simp [SpanBody.locations, hstorage]
  have hdirty : file.lastSpanState = .dirty := by
    cases h : file.lastSpanState with
    | clean => exact absurd (.inr (hstate.trans h)) hdone
    | dirty => rfl
    | condemned => exact absurd (hstate.trans h) hcondemned
  refine .ensure (fun hrest => hsingle file span hfile hspan hdirty ?_ ?_) fun _ =>
    hP.check rfl fun _ => .bind (checkAddProofs_failsOnly fun block hb => ?_) fun _ _ =>
      hP.check rfl fun _ => failsOnly_pure
  · rw [← hsize]
    exact Nat.le_of_not_lt fun h => hdone (.inl h)
  · rw [hlocs, length_cons]
    exact Nat.succ_lt_succ (length_pos_iff.2 hrest)
  · refine hcache _ span hspan block (mem_flatMap.2 ⟨loc, ?_, hb⟩)
    rw [hlocs]
    exact mem_cons_self

/-- A transient file that is not empty has a last span. -/
lemma applyRemoveSpanInitiate_failsOnly {fileId : InodeId}
    (hcache : ∀ k span, db.spans.get k = some span → cache.KnownOr P span.blocks)
    (hlast : ∀ file, db.transientFiles.get fileId = some file → file.fileSize ≠ 0 →
      (∀ e ∈ db.spans.seekForPrev ⟨fileId, file.fileSize⟩, e.1.fileId ≠ fileId) → P .crash) :
    FailsOnly P (applyRemoveSpanInitiate cfg cache db time fileId) := by
  refine .bind (initiateTransientFileModification_failsOnly hP) fun ⟨batch', file'⟩ hinit =>
    hP.check rfl fun hne => ?_
  obtain ⟨file, hfile, -, -, hsize, -⟩ := initiateTransientFileModification_eq_ok hinit
  rw [hsize] at hne ⊢
  refine .orFail (fun hnone => hlast file hfile hne (by simp [hnone])) fun ⟨key, span⟩ hseek =>
    .ensure (fun hkey => hlast file hfile hne ?_) fun _ => ?_
  · rintro e he
    obtain rfl : (key, span) = e := mem_unique hseek he
    exact hkey
  split_ifs
  · exact failsOnly_pure
  · rw [failsOnly_bind]
    exact ⟨fillInRemoveSpanInitiate_failsOnly
      (hcache key span (SortedStore.seekForPrev_spec hseek).1), fun _ _ => failsOnly_pure⟩

/-- A proof is there for every block, although the position wraps around. -/
lemma checkDeleteProofs_failsOnly
    (hcache : cache.KnownOr P blocks) (hlength : i + blocks.length ≤ proofs.length) :
    FailsOnly P (checkDeleteProofs cache proofs i blocks) := by
  induction blocks generalizing i with
  | nil => exact failsOnly_pure
  | cons block blocks ih =>
    have hi : i < proofs.length := by
      rw [length_cons] at hlength
      omega
    have hnext : (i + 1) % 256 + blocks.length ≤ proofs.length := by
      rw [length_cons] at hlength
      omega
    refine .orFail (fun hnone => absurd hi (getElem?_eq_none_iff.1 hnone).not_gt)
      fun proof _ => hP.check rfl fun _ =>
        .bind (.orFail (hcache block mem_cons_self) fun _ _ => failsOnly_pure) fun _ _ =>
          hP.check rfl fun _ => ih (fun b hb => hcache b (mem_cons_of_mem _ hb)) hnext

lemma checkDeleteProofsAt_failsOnly {locs : List SpanBlocksBody}
    (hcache : cache.KnownOr P (locs.flatMap SpanBlocksBody.blocks)) :
    FailsOnly P (checkDeleteProofsAt cache proofs i locs) := by
  induction locs generalizing i with
  | nil => exact failsOnly_pure
  | cons loc locs ih =>
    refine hP.check rfl fun hlength => .bind ?_ fun _ _ => ih ?_
    · rw [← loc.blocks_length] at hlength
      exact checkDeleteProofs_failsOnly hP (fun b hb => hcache b (mem_append_left _ hb)) hlength
    · exact fun b hb => hcache b (mem_append_right _ hb)

lemma applyRemoveSpanCertify_failsOnly {entry : SpanCertifyEntry}
    (hcache : ∀ k span, db.spans.get k = some span → cache.KnownOr P span.blocks) :
    FailsOnly P (applyRemoveSpanCertify cfg cache db time entry) := by
  simp only [applyRemoveSpanCertify, failsOnly_bind]
  refine ⟨initiateTransientFileModification_failsOnly hP, fun out _ => ?_⟩
  split
  · exact failsOnly_pure
  rename_i span hspan
  exact hP.check rfl fun _ => hP.check rfl fun _ =>
    .bind (checkDeleteProofsAt_failsOnly hP (hcache _ span hspan)) fun _ _ =>
      hP.check rfl fun _ => failsOnly_pure

/-! ## Moving blocks -/

/-- The id is that of a file which is linked or transient. -/
def ShardDB.FileThere (db : ShardDB) (f : InodeId) : Prop :=
  f.IsFile ∧ (db.files.get f ≠ none ∨ db.transientFiles.get f ≠ none)

omit hP in
lemma fetchSpanState_failsOnly (hfile : ¬ db.FileThere f → P .crash) :
    FailsOnly P (fetchSpanState db f spanEnd) := by
  simp only [fetchSpanState, failsOnly_bind, failsOnly_assert, assert_eq_ok]
  refine ⟨fun htype => hfile fun h => htype h.1, fun _ _ => ?_⟩
  split
  · exact failsOnly_pure
  · rename_i hlinked
    simp only [failsOnly_bind, failsOnly_orFail, failsOnly_pure, implies_true, and_true]
    exact fun hnone => hfile fun h => h.2.elim (absurd hlinked) (absurd hnone)

omit hP in
lemma ShardDB.fileThere_of_fetchSpanState {state : SpanState}
    (h : fetchSpanState db f spanEnd = .ok state) : db.FileThere f := by
  simp only [fetchSpanState, bind_eq_ok, assert_eq_ok, exists_const] at h
  obtain ⟨htype, h⟩ := h
  split at h
  · rename_i file hlinked
    exact ⟨htype, .inl (by simp [hlinked])⟩
  · simp only [bind_eq_ok, orFail_eq_ok] at h
    obtain ⟨file, htransient, -⟩ := h
    exact ⟨htype, .inr (by simp [htransient])⟩

lemma checkNoDuplicates_failsOnly {newBlock : BlockBody} (hcache : cache.KnownOr P blocks)
    (hnew : cache newBlock.blockService = none → P .crash) :
    FailsOnly P (checkNoDuplicates cache blocks i newBlock) := by
  refine .orFail hnew fun service _ => failsOnly_forM fun block hblock => hP.check rfl fun _ =>
    .orFail (hcache block (mem_of_mem_eraseIdx hblock)) fun _ _ => ?_
  simp [hP.err]

lemma applySwapBlocks_failsOnly {entry : SwapBlocksReq}
    (hcache : ∀ k span, db.spans.get k = some span → cache.KnownOr P span.blocks)
    (hfile1 : ∀ span, db.spans.get ⟨entry.fileId1, entry.byteOffset1⟩ = some span →
      ¬ db.FileThere entry.fileId1 → P .crash)
    (hfile2 : ∀ span, db.spans.get ⟨entry.fileId2, entry.byteOffset2⟩ = some span →
      ¬ db.FileThere entry.fileId2 → P .crash) :
    FailsOnly P (applySwapBlocks cache db entry) := by
  refine hP.orFail rfl fun span1 hspan1 => hP.orFail rfl fun span2 hspan2 => hP.check rfl fun _ =>
    .bind (fetchSpanState_failsOnly (hfile1 span1 hspan1)) fun _ _ =>
    .bind (fetchSpanState_failsOnly (hfile2 span2 hspan2)) fun _ _ => hP.check rfl fun _ => ?_
  split
  · rename_i found1 found2 hfound1 hfound2
    obtain ⟨hmem1, hblock1⟩ := SpanBody.mem_blocks_of_findBlockIn hfound1
    obtain ⟨hmem2, hblock2⟩ := SpanBody.mem_blocks_of_findBlockIn hfound2
    exact hP.check rfl fun _ => hP.check rfl fun _ => hP.check rfl fun _ =>
      .bind (checkNoDuplicates_failsOnly hP (fun b hb => hcache _ span1 hspan1 b (hmem1 b hb))
        (hcache _ span2 hspan2 _ hblock2)) fun _ _ =>
      .bind (checkNoDuplicates_failsOnly hP (fun b hb => hcache _ span2 hspan2 b (hmem2 b hb))
        (hcache _ span1 hspan1 _ hblock1)) fun _ _ => failsOnly_pure
  · simp [hP.err]
  · exact failsOnly_error.2 (hP.other _ rfl)

omit hP in
lemma blocksMatchIn_failsOnly {ids : List ℕ}
    (hcrash : blocks.length < ids.length → P .crash) : FailsOnly P (blocksMatchIn blocks ids) := by
  induction ids generalizing blocks with
  | nil => cases blocks <;> exact failsOnly_pure
  | cons id ids ih =>
    cases blocks with
    | nil => exact failsOnly_error.2 (hcrash (Nat.succ_pos _))
    | cons =>
      unfold blocksMatchIn
      split_ifs
      · exact ih fun h => hcrash (Nat.succ_lt_succ h)
      · exact failsOnly_pure

/-- The first location of the span has a block for every id. -/
def SpanBody.HasBlocksFor (span : SpanBody) (ids : List ℕ) : Prop :=
  ∀ loc ∈ span.locations.head?, ids.length ≤ loc.blocks.length

omit hP in
/-- The ids are compared with the blocks of the first location only: at the other ones there are
no ids left. -/
lemma blocksMatch_failsOnly {span : SpanBody} {ids : List ℕ}
    (hcrash : ¬ span.HasBlocksFor ids → P .crash) : FailsOnly P (blocksMatch span ids) := by
  have hlater : ∀ locs i, ids.length ≤ i → FailsOnly P (blocksMatchFrom ids i locs) := by
    intro locs
    induction locs with
    | nil => exact fun _ _ => failsOnly_pure
    | cons loc locs ih =>
      intro i hi
      unfold blocksMatchFrom
      split_ifs
      · exact failsOnly_pure
      rw [failsOnly_bind, drop_of_length_le hi]
      refine ⟨blocksMatchIn_failsOnly fun h => absurd h (Nat.not_lt_zero _), fun good _ => ?_⟩
      split_ifs
      · exact ih _ (Nat.le_add_left _ _)
      · exact failsOnly_pure
  unfold blocksMatch
  cases hlocs : span.locations with
  | nil => exact failsOnly_pure
  | cons loc locs =>
    unfold blocksMatchFrom
    split_ifs
    · exact failsOnly_pure
    rw [failsOnly_bind]
    refine ⟨blocksMatchIn_failsOnly fun h => hcrash fun hfor => ?_, fun good _ => ?_⟩
    · have hle := hfor loc (by simp [hlocs])
      rw [drop_zero] at h
      omega
    · split_ifs
      · exact hlater locs _ (Nat.le_add_left _ _)
      · exact failsOnly_pure

omit hP in
lemma bothMatch_failsOnly {span1 span2 : SpanBody} {ids1 ids2 : List ℕ}
    (hcrash1 : ¬ span1.HasBlocksFor ids1 → P .crash)
    (hcrash2 : ¬ span2.HasBlocksFor ids2 → P .crash) :
    FailsOnly P (bothMatch span1 ids1 span2 ids2) := by
  simp only [bothMatch, failsOnly_bind]
  refine ⟨blocksMatch_failsOnly hcrash1, fun good _ => ?_⟩
  split_ifs
  · exact blocksMatch_failsOnly hcrash2
  · exact failsOnly_pure

/-- Both lists of ids are compared with both spans. -/
lemma applySwapSpans_failsOnly {entry : SwapSpansReq}
    (hfile : ∀ k span, db.spans.get k = some span → ¬ db.FileThere k.fileId → P .crash)
    (hids1 : ∀ span, db.spans.get ⟨entry.fileId1, entry.byteOffset1⟩ = some span →
      ¬ (span.HasBlocksFor entry.blocks1 ∧ span.HasBlocksFor entry.blocks2) → P .crash)
    (hids2 : ∀ span, db.spans.get ⟨entry.fileId2, entry.byteOffset2⟩ = some span →
      ¬ (span.HasBlocksFor entry.blocks1 ∧ span.HasBlocksFor entry.blocks2) → P .crash) :
    FailsOnly P (applySwapSpans db entry) := by
  refine hP.orFail rfl fun span1 hspan1 => hP.orFail rfl fun span2 hspan2 => hP.check rfl fun _ =>
    hP.check rfl fun _ => hP.check rfl fun _ =>
    .bind (fetchSpanState_failsOnly (hfile _ span1 hspan1)) fun _ _ =>
    .bind (fetchSpanState_failsOnly (hfile _ span2 hspan2)) fun _ _ => hP.check rfl fun _ =>
    .bind (bothMatch_failsOnly (fun h => hids1 span1 hspan1 fun hboth => h hboth.2)
      (fun h => hids2 span2 hspan2 fun hboth => h hboth.1)) fun swapped _ => ?_
  split_ifs
  · exact failsOnly_pure
  · exact .bind (bothMatch_failsOnly (fun h => hids1 span1 hspan1 fun hboth => h hboth.1)
      (fun h => hids2 span2 hspan2 fun hboth => h hboth.2)) fun _ _ =>
      hP.check rfl fun _ => failsOnly_pure

/-- The span to be moved has one location. -/
lemma applyMoveSpan_failsOnly {entry : MoveSpanReq}
    (hsingle : ∀ file span, db.transientFiles.get entry.fileId1 = some file →
      db.spans.get ⟨entry.fileId1, entry.byteOffset1⟩ = some span → file.lastSpanState = .dirty →
      file.fileSize = addU64 entry.byteOffset1 span.spanSize → span.locations.length ≠ 1 →
      P .crash) :
    FailsOnly P (applyMoveSpan cfg db time entry) := by
  refine .bind (initiateTransientFileModification_failsOnly hP) fun out1 hinit1 =>
    .bind (initiateTransientFileModification_failsOnly hP) fun out2 _ => ?_
  obtain ⟨file, hfile, -, -, hsize, hstate, -⟩ := initiateTransientFileModification_eq_ok hinit1
  dsimp only
  split_ifs
  · exact failsOnly_pure
  refine hP.check rfl fun hlast => hP.orFail rfl fun span hspan =>
    hP.check rfl fun hspanSize => .ensure ?_ fun _ => failsOnly_pure
  refine hsingle file span hfile hspan (hstate ▸ hlast.1) ?_
  rw [← hsize, hlast.2.1, hspanSize]

/-- There is room for one more location. -/
lemma applyAddSpanLocation_failsOnly {entry : AddSpanLocationReq}
    (hroom : ∀ span, db.spans.get ⟨entry.fileId2, entry.byteOffset2⟩ = some span →
      254 ≤ span.locations.length → P .crash) :
    FailsOnly P (applyAddSpanLocation cfg db time entry) := by
  refine .bind (getFile_failsOnly hP) fun _ _ => .bind (initiateTransientFileModification_failsOnly hP)
    fun ⟨batch1, file1⟩ hinit => hP.check rfl fun _ => hP.orFail rfl fun destination hdestination =>
      hP.check rfl fun hblocks => ?_
  obtain ⟨file, hfile, -, htype, -⟩ := initiateTransientFileModification_eq_ok hinit
  split
  · simp [hP.err]
  have hthere : db.FileThere entry.fileId1 := ⟨htype, .inr (by simp [hfile])⟩
  refine hP.check rfl fun _ => hP.check rfl fun _ => hP.check rfl fun _ =>
    .bind (fetchSpanState_failsOnly (absurd hthere)) fun _ _ => hP.check rfl fun _ => ?_
  split
  · refine hP.check rfl fun _ => .orFail (fun hnone => hroom destination hdestination ?_)
      fun _ _ => failsOnly_pure
    unfold SpanBody.addLocation at hnone
    split at hnone
    · rename_i body hstorage
      exact absurd (by simp [SpanBody.IsInlineStorage, hstorage]) hblocks
    rename_i first rest hstorage
    split_ifs at hnone with hlength
    simp only [SpanBody.locations, hstorage, length_cons]
    omega
  · exact failsOnly_error.2 (hP.other _ rfl)

end

/-! ## All entries -/

/-- Every span is on block services that the cache knows, and belongs to a file that is there. -/
def ShardDB.Covered (db : ShardDB) (cache : BlockServicesCache) : Prop :=
  ∀ k span, db.spans.get k = some span →
    (∀ block ∈ span.blocks, cache block.blockService ≠ none) ∧ db.FileThere k.fileId

/-- What the code asserts, or takes for granted, when it applies the entry. -/
def ShardLogEntryBody.Safe (cache : BlockServicesCache) (db : ShardDB) (time : ℕ) :
    ShardLogEntryBody → Prop
  | .constructFile entry =>
    entry.type = InodeId.typeBits .file ∧ (⟨addU64 db.nextFileId.u64 0x100⟩ : InodeId).Valid ∨
      entry.type = InodeId.typeBits .symlink ∧ (⟨addU64 db.nextSymlinkId.u64 0x100⟩ : InodeId).Valid
  | .removeInode entry => entry.id.type ≠ .reserved
  | .sameShardHardFileUnlink entry =>
    db.files.get entry.targetId ≠ none →
      ∃ out, initiateDirectoryModification db db time true entry.ownerId = .ok out
  | .addSpanAtLocationInitiate entry =>
    entry.Allocates ∧ ∀ entryBlock ∈ entry.bodyBlocks, cache entryBlock.blockServiceId ≠ none
  | .addSpanCertify entry => ∀ file span, db.transientFiles.get entry.fileId = some file →
    db.spans.get ⟨entry.fileId, entry.byteOffset⟩ = some span → file.lastSpanState = .dirty →
    file.fileSize ≤ addU64 entry.byteOffset span.spanSize → span.locations.length ≤ 1
  | .removeSpanInitiate fileId => ∀ file, db.transientFiles.get fileId = some file →
    file.fileSize ≠ 0 → ∃ e ∈ db.spans.seekForPrev ⟨fileId, file.fileSize⟩, e.1.fileId = fileId
  | .swapSpans entry => ∀ span, (db.spans.get ⟨entry.fileId1, entry.byteOffset1⟩ = some span ∨
      db.spans.get ⟨entry.fileId2, entry.byteOffset2⟩ = some span) →
    span.HasBlocksFor entry.blocks1 ∧ span.HasBlocksFor entry.blocks2
  | .moveSpan entry => ∀ file span, db.transientFiles.get entry.fileId1 = some file →
    db.spans.get ⟨entry.fileId1, entry.byteOffset1⟩ = some span → file.lastSpanState = .dirty →
    file.fileSize = addU64 entry.byteOffset1 span.spanSize → span.locations.length = 1
  | .addSpanLocation entry => ∀ span,
    db.spans.get ⟨entry.fileId2, entry.byteOffset2⟩ = some span → span.locations.length < 254
  | _ => True

/-- An entry that is safe fails with an error, if at all. -/
theorem applyEntryBody_failsOnly {P : Failure → Prop} {cache : BlockServicesCache} {time : ℕ}
    {body : ShardLogEntryBody} (hP : Allows P cfg db) (hdb : ¬ db.Covered cache → P .crash)
    (hsafe : ¬ body.Safe cache db time → P .crash) :
    FailsOnly P (applyEntryBody cfg cache db time body) := by
  have hcache : ∀ k span, db.spans.get k = some span → cache.KnownOr P span.blocks :=
    fun k span hspan block hblock hnone => hdb fun h => (h k span hspan).1 block hblock hnone
  have hfile : ∀ k span, db.spans.get k = some span → ¬ db.FileThere k.fileId → P .crash :=
    fun k span hspan hthere => hdb fun h => hthere (h k span hspan).2
  cases body with
  | constructFile =>
    refine applyConstructFile_failsOnly (fun htype hvalid => hsafe ?_)
      (fun htype hvalid => hsafe ?_) (fun hfile hsymlink => hsafe ?_)
    · rintro (h | h)
      · exact hvalid h.2
      · rw [htype] at h
        cases h.1
    · rintro (h | h)
      · exact htype h.1
      · exact hvalid h.2
    · rintro (h | h)
      · exact hfile h.1
      · exact hsymlink h.1
  | linkFile => exact applyLinkFile_failsOnly hP
  | sameDirectoryRename =>
    simp [applyEntryBody, applySameDirectoryRename, softUnlinkCurrentEdge_failsOnly hP,
      createCurrentEdge_failsOnly hP]
  | sameDirectoryRenameSnapshot =>
    simp [applyEntryBody, applySameDirectoryRenameSnapshot, initiateDirectoryModification_failsOnly hP,
      createCurrentEdge_failsOnly hP, hP.err]
  | softUnlinkFile =>
    simp [applyEntryBody, applySoftUnlinkFile, softUnlinkCurrentEdge_failsOnly hP]
  | createDirectoryInode => exact applyCreateDirectoryInode_failsOnly hP
  | createLockedCurrentEdge => exact applyCreateLockedCurrentEdge_failsOnly hP
  | unlockCurrentEdge => exact applyUnlockCurrentEdge_failsOnly hP
  | lockCurrentEdge => exact applyLockCurrentEdge_failsOnly hP
  | removeDirectoryOwner => exact applyRemoveDirectoryOwner_failsOnly hP
  | removeInode => exact applyRemoveInode_failsOnly hP fun htype => hsafe fun h => h htype
  | setDirectoryOwner => exact applySetDirectoryOwner_failsOnly hP
  | setDirectoryInfo =>
    simp [applyEntryBody, applySetDirectoryInfo, initiateDirectoryModification_failsOnly hP]
  | removeNonOwnedEdge => exact applyRemoveNonOwnedEdge_failsOnly hP
  | sameShardHardFileUnlink =>
    refine applySameShardHardFileUnlink_failsOnly hP fun file e hfile herror => hsafe fun h => ?_
    obtain ⟨out, hout⟩ := h (by simp [hfile])
    rw [herror] at hout
    cases hout
  | removeSpanInitiate =>
    refine applyRemoveSpanInitiate_failsOnly hP hcache fun file hfile hne hseek => hsafe fun h => ?_
    obtain ⟨e, he, hid⟩ := h file hfile hne
    exact hseek e he hid
  | addInlineSpan => exact applyAddInlineSpan_failsOnly hP
  | addSpanAtLocationInitiate =>
    exact applyAddSpanInitiate_failsOnly hP (fun _ _ _ hn => hsafe fun h => hn h.1)
      (fun entryBlock hmem hnone => hsafe fun h => h.2 entryBlock hmem hnone) hcache
  | addSpanCertify =>
    exact applyAddSpanCertify_failsOnly hP hcache fun file span hfile hspan hdirty hend hlength =>
      hsafe fun h => absurd (h file span hfile hspan hdirty hend) (Nat.not_le.2 hlength)
  | makeFileTransient => exact applyMakeFileTransient_failsOnly hP
  | scrapTransientFile =>
    simp [applyEntryBody, applyScrapTransientFile, getTransientFile_failsOnly hP]
  | removeSpanCertify => exact applyRemoveSpanCertify_failsOnly hP hcache
  | removeOwnedSnapshotFileEdge => exact applyRemoveOwnedSnapshotFileEdge_failsOnly hP
  | swapBlocks =>
    exact applySwapBlocks_failsOnly hP hcache (fun span => hfile _ span) (fun span => hfile _ span)
  | moveSpan =>
    exact applyMoveSpan_failsOnly hP fun file span hfile hspan hdirty hend hlength =>
      hsafe fun h => hlength (h file span hfile hspan hdirty hend)
  | setTime => simp [applyEntryBody, applySetTime, getFile_failsOnly hP]
  | swapSpans =>
    exact applySwapSpans_failsOnly hP hfile
      (fun span hspan hn => hsafe fun h => hn (h span (.inl hspan)))
      (fun span hspan hn => hsafe fun h => hn (h span (.inr hspan)))
  | addSpanLocation =>
    exact applyAddSpanLocation_failsOnly hP fun span hspan hlength =>
      hsafe fun h => absurd (h span hspan) (Nat.not_lt.2 hlength)
  | removeZeroBlockServiceFiles | heartbeat => exact failsOnly_pure

end TernFS
