/-
# Retries

A client that does not hear back sends its request again.  Each handler of the requests that build
files recognises its own retry by what the first application has left behind.  This file says, for
every state and request, when an immediate retry of a request that has succeeded gets the same
answer and changes nothing but the times of transient files.
-/
import TernFS.Shard.InlineSpans
import TernFS.Shard.Spread

namespace TernFS

open Lib SortedStore Option

variable {file : TransientFileBody} {e : AddSpanAtLocationInitiateEntry}

variable {cfg : ShardConfig} {cache : BlockServicesCache} {db db' batch : ShardDB}
  {time time' logIndex : ℕ} {resp : ShardResp}

/-! ## Equality up to times -/

/-- A transient file without its times. -/
def TransientFileBody.untimed (file : TransientFileBody) : TransientFileBody :=
  { file with mtime := 0, deadline := 0 }

lemma TransientFileBody.untimed_touch (file : TransientFileBody) (allowPastDeadline : Bool) :
    (file.touch cfg time allowPastDeadline).untimed = file.untimed := rfl

/-- The column families are the same, except for the times of transient files.  The position in
the log is not looked at. -/
structure SameButTimes (db db' : ShardDB) : Prop where
  files : db'.files = db.files
  transientFiles : ∀ id, (db'.transientFiles.get id).map TransientFileBody.untimed =
    (db.transientFiles.get id).map TransientFileBody.untimed
  spans : db'.spans = db.spans
  directories : db'.directories = db.directories
  currentEdges : db'.currentEdges = db.currentEdges
  snapshotEdges : db'.snapshotEdges = db.snapshotEdges
  blockServicesToFiles : db'.blockServicesToFiles = db.blockServicesToFiles
  nextFileId : db'.nextFileId = db.nextFileId
  nextSymlinkId : db'.nextSymlinkId = db.nextSymlinkId
  nextBlockId : db'.nextBlockId = db.nextBlockId

namespace SameButTimes

lemma refl (db : ShardDB) : SameButTimes db db :=
  ⟨rfl, fun _ => rfl, rfl, rfl, rfl, rfl, rfl, rfl, rfl, rfl⟩

lemma get_put {files : SortedStore InodeId TransientFileBody} {id : InodeId}
    {file' : TransientFileBody} (hfile : files.get id = some file)
    (h : file'.untimed = file.untimed) (id' : InodeId) :
    ((files.put id file').get id').map TransientFileBody.untimed =
      (files.get id').map TransientFileBody.untimed := by
  rw [SortedStore.get_put]
  split_ifs with hid
  · subst hid
    rw [hfile, map_some, map_some, h]
  · rfl

lemma put {id : InodeId} {file' : TransientFileBody}
    (hfile : db.transientFiles.get id = some file) (h : file'.untimed = file.untimed) :
    SameButTimes db { db with transientFiles := db.transientFiles.put id file' } :=
  ⟨rfl, get_put hfile h, rfl, rfl, rfl, rfl, rfl, rfl, rfl, rfl⟩

end SameButTimes

/-- The request is applied again and gets the same answer, and nothing but times changes. -/
def AnswersAgain (cfg : ShardConfig) (cache : BlockServicesCache) (db : ShardDB) (time : ℕ)
    (body : ShardLogEntryBody) (resp : ShardResp) : Prop :=
  ∃ batch, applyEntryBody cfg cache db time body = .ok (batch, resp) ∧ SameButTimes db batch

/-! ## Adding spans -/

lemma addU64_eq_self_iff {a b : ℕ} (ha : a < 2 ^ 64) (hb : b < 2 ^ 64) : addU64 a b = a ↔ b = 0 := by
  unfold addU64
  omega

/-- `AddInlineSpan` recognises its retries, also for spans of size 0, which are written again. -/
lemma answersAgain_addInlineSpan {e : AddInlineSpanEntry}
    (hwords : e.byteOffset < 2 ^ 64 ∧ e.size < 2 ^ 64) (htime : time < time')
    (h : applyAddInlineSpan cfg db time e = .ok (batch, resp)) :
    AnswersAgain cfg cache (batch.advance logIndex time) time' (.addInlineSpan e) resp ↔
      time' ≤ addU64 time cfg.transientDeadlineInterval := by
  obtain ⟨rfl, htype, file, hfile, hdeadline, hmtime, hadded⟩ := applyAddInlineSpan_eq_ok_iff.mp h
  -- the file as the first application leaves it, and what the second one makes of it
  obtain ⟨file₁, hfile₁, hdeadline₁, hmtime₁, batch₁, hadded₁, hsame⟩ :
      ∃ file₁, (batch.advance logIndex time).transientFiles.get e.fileId = some file₁ ∧
        file₁.deadline = addU64 time cfg.transientDeadlineInterval ∧ file₁.mtime = time ∧
        ∃ batch₁, AddedInlineSpan cfg (batch.advance logIndex time) time' e file₁ batch₁ ∧
          SameButTimes (batch.advance logIndex time) batch₁ := by
    cases hadded with
    | empty hbody =>
      refine ⟨_, get_put_self _ _ _, rfl, rfl, _, .empty hbody, ?_⟩
      exact .put (get_put_self _ _ _) rfl
    | again hbody hoffset hsize hexisting hsame =>
      refine ⟨_, get_put_self _ _ _, rfl, rfl, _, .again hbody hoffset hsize hexisting hsame, ?_⟩
      exact .put (get_put_self _ _ _) rfl
    | fresh hbody hoffset hclean =>
      by_cases hzero : e.size = 0
      · -- the end of the file has not moved: the same span is written again
        have hend : addU64 e.byteOffset e.size = e.byteOffset :=
          (addU64_eq_self_iff hwords.1 hwords.2).mpr hzero
        refine ⟨_, get_put_self _ _ _, rfl, rfl, _, .fresh hbody hend hclean, ?_⟩
        have hput := put_of_get_eq_some (get_put_self db.spans
          ⟨e.fileId, e.byteOffset⟩ ⟨e.size, e.crc, .inline e.body⟩)
        exact ⟨rfl, SameButTimes.get_put (get_put_self _ _ _) rfl, hput, rfl, rfl, rfl,
          rfl, rfl, rfl, rfl⟩
      · have hend : addU64 e.byteOffset e.size ≠ e.byteOffset :=
          (addU64_eq_self_iff hwords.1 hwords.2).not.mpr hzero
        refine ⟨_, get_put_self _ _ _, rfl, rfl, _,
          .again hbody hend rfl (get_put_self _ _ _) ⟨rfl, rfl, .refl _⟩, ?_⟩
        exact .put (get_put_self _ _ _) rfl
  constructor
  · rintro ⟨batch₂, happly, -⟩
    obtain ⟨-, -, file₂, hfile₂, hle, -⟩ := applyAddInlineSpan_eq_ok_iff.mp happly
    obtain rfl := mem_unique hfile₁ hfile₂
    exact hdeadline₁ ▸ hle
  · intro hle
    refine ⟨batch₁, ?_, hsame⟩
    exact applyAddInlineSpan_eq_ok_iff.mpr
      ⟨rfl, htype, file₁, hfile₁, hdeadline₁.symm ▸ hle, hmtime₁.symm ▸ htime, hadded₁⟩

/-- A file as a handler has left it that modified it at `time`. -/
structure Touched (cfg : ShardConfig) (db : ShardDB) (time : ℕ) (id : InodeId)
    (file : TransientFileBody) : Prop where
  isFile : id.IsFile
  get : db.transientFiles.get id = some file
  mtime : file.mtime = time
  deadline : file.deadline = addU64 time cfg.transientDeadlineInterval

/-- The file can be modified again until the deadline that it was given. -/
lemma Touched.initiate_eq_ok_iff {id : InodeId} {file' : TransientFileBody}
    (h : Touched cfg db time id file) (htime : time < time') :
    initiateTransientFileModification cfg (db.advance logIndex time) (db.advance logIndex time)
        time' false id = .ok (batch, file') ↔
      time' ≤ addU64 time cfg.transientDeadlineInterval ∧ file' = file.touch cfg time' false ∧
        batch = { db.advance logIndex time with
          transientFiles := db.transientFiles.put id file' } := by
  rw [initiateTransientFileModification_eq_ok_iff, and_iff_right h.isFile]
  constructor
  · rintro ⟨file₂, hget, hle, -, hfile', hbatch⟩
    obtain rfl := mem_unique h.get hget
    exact ⟨h.deadline ▸ hle.resolve_left (by decide), hfile', hbatch⟩
  · rintro ⟨hle, hfile', hbatch⟩
    exact ⟨file, h.get, .inr (h.deadline.symm ▸ hle), h.mtime.symm ▸ htime, hfile', hbatch⟩

lemma Touched.sameButTimes {id : InodeId} (h : Touched cfg db time id file) (time' : ℕ) :
    SameButTimes (db.advance logIndex time) { db.advance logIndex time with
      transientFiles := db.transientFiles.put id (file.touch cfg time' false) } := .put h.get rfl

/-- What a successful `AddSpanInitiate` leaves behind: the span that a retry looks for. -/
lemma applyAddSpanInitiate_eq_ok
    (h : applyAddSpanInitiate cfg cache db time e = .ok (batch, resp)) :
    ∃ file' span loc infos, resp = .addSpanInitiate infos ∧ Touched cfg batch time e.fileId file' ∧
        file'.fileSize = addU64 e.byteOffset e.size ∧
        batch.spans.get ⟨e.fileId, e.byteOffset⟩ = some span ∧
        sameSpanAgain span e = some loc ∧ fillInAddSpanInitiate cache loc = .ok infos ∧
        (file'.fileSize = e.byteOffset → file'.lastSpanState = .dirty) := by
  simp only [applyAddSpanInitiate, bind_eq_ok, initiateTransientFileModification_eq_ok_iff,
    Prod.exists, Bool.false_eq_true, false_or] at h
  obtain ⟨_, _, ⟨htype, file, -, -, -, rfl, rfl⟩, h⟩ := h
  split_ifs at h with hoffset
  · simp only [bind_eq_ok, check_eq_ok, orFail_eq_ok, exists_const] at h
    obtain ⟨hsize, existing, hexisting, loc, hloc, infos, hinfos, ⟨⟩⟩ := h
    exact ⟨_, existing, loc, infos, rfl, ⟨htype, get_put_self _ _ _, rfl, rfl⟩, hsize, hexisting,
      hloc, hinfos, fun hhere => absurd hhere hoffset⟩
  · simp only [bind_eq_ok, check_eq_ok, orFail_eq_ok, exists_const] at h
    obtain ⟨-, loc, hloc, infos, hinfos, ⟨⟩⟩ := h
    refine ⟨_, _, loc, infos, rfl, ⟨htype, get_put_self _ _ _, rfl, rfl⟩, rfl,
      get_put_self _ _ _, ?_, hinfos, fun _ => rfl⟩
    obtain ⟨_, hsome⟩ := dite_none_right_eq_some.mp hloc
    obtain rfl := some_inj.mp hsome
    simp [sameSpanAgain]

/-- `AddSpanInitiate` recognises its retries by the end of the file, unless that does not move. -/
lemma answersAgain_addSpanInitiate {bodyBlocks : List EntryNewBlockInfo}
    (hwords : e.byteOffset < 2 ^ 64 ∧ e.size < 2 ^ 64) (htime : time < time')
    (h : applyAddSpanInitiate cfg cache db time e = .ok (batch, resp)) :
    AnswersAgain cfg cache (batch.advance logIndex time) time'
        (.addSpanAtLocationInitiate { e with bodyBlocks := bodyBlocks }) resp ↔
      time' ≤ addU64 time cfg.transientDeadlineInterval ∧ e.size ≠ 0 := by
  obtain ⟨file', span, loc, infos, rfl, hfile', hsize', hspan, hloc, hinfos, hdirty⟩ :=
    applyAddSpanInitiate_eq_ok h
  have hmoved : file'.fileSize = e.byteOffset ↔ e.size = 0 := by
    rw [hsize', addU64_eq_self_iff hwords.1 hwords.2]
  simp only [AnswersAgain, applyEntryBody, applyAddSpanInitiate, bind_eq_ok,
    hfile'.initiate_eq_ok_iff htime, Prod.exists]
  constructor
  · rintro ⟨batch₂, ⟨_, _, ⟨hle, rfl, rfl⟩, happly⟩, -⟩
    refine ⟨hle, fun hzero => ?_⟩
    -- the end of the file has not moved, and its last span is dirty
    have hoffset := hmoved.mpr hzero
    rw [TransientFileBody.touch_fileSize, if_neg (not_not.mpr hoffset)] at happly
    simp only [bind_eq_ok, check_eq_ok, TransientFileBody.touch_lastSpanState,
      hdirty hoffset] at happly
    obtain ⟨-, hclean, -⟩ := happly
    cases hclean
  · rintro ⟨hle, hne⟩
    refine ⟨_, ⟨_, _, ⟨hle, rfl, rfl⟩, ?_⟩, hfile'.sameButTimes time'⟩
    rw [TransientFileBody.touch_fileSize, if_pos (hmoved.not.mpr hne)]
    simp only [bind_eq_ok, check_eq_ok, orFail_eq_ok, pure_eq_ok, exists_const]
    exact ⟨hsize', span, hspan, loc, hloc, infos, hinfos, rfl⟩

/-- What a successful `AddSpanCertify` leaves behind: a span that counts as certified. -/
lemma applyAddSpanCertify_eq_ok {e : SpanCertifyEntry}
    (h : applyAddSpanCertify cfg cache db time e = .ok (batch, resp)) :
    resp = .done ∧ ∃ file' span, Touched cfg batch time e.fileId file' ∧
      batch.spans.get ⟨e.fileId, e.byteOffset⟩ = some span ∧
      (addU64 e.byteOffset span.spanSize < file'.fileSize ∨ file'.lastSpanState = .clean) := by
  simp only [applyAddSpanCertify, bind_eq_ok, orFail_eq_ok,
    initiateTransientFileModification_eq_ok_iff, Prod.exists, Bool.false_eq_true, false_or] at h
  obtain ⟨_, _, ⟨htype, file, -, -, -, rfl, rfl⟩, span, hspan, h⟩ := h
  split_ifs at h with hdone
  · cases h
    exact ⟨rfl, _, span, ⟨htype, get_put_self _ _ _, rfl, rfl⟩, hspan, hdone⟩
  simp only [bind_eq_ok, check_eq_ok, exists_const] at h
  obtain ⟨-, h⟩ := h
  split at h
  · cases h
  · simp only [bind_eq_ok, assert_eq_ok, check_eq_ok, exists_const] at h
    obtain ⟨-, -, good, -, -, ⟨⟩⟩ := h
    exact ⟨rfl, _, span, ⟨htype, get_put_self _ _ _, rfl, rfl⟩, hspan, .inr rfl⟩

lemma answersAgain_addSpanCertify {e : SpanCertifyEntry} (htime : time < time')
    (h : applyAddSpanCertify cfg cache db time e = .ok (batch, resp)) :
    AnswersAgain cfg cache (batch.advance logIndex time) time' (.addSpanCertify e) resp ↔
      time' ≤ addU64 time cfg.transientDeadlineInterval := by
  obtain ⟨rfl, file', span, hfile', hspan, hdone⟩ := applyAddSpanCertify_eq_ok h
  simp only [AnswersAgain, applyEntryBody, applyAddSpanCertify, bind_eq_ok, orFail_eq_ok,
    hfile'.initiate_eq_ok_iff htime, Prod.exists]
  constructor
  · rintro ⟨_, ⟨_, _, ⟨hle, -⟩, -⟩, -⟩
    exact hle
  · intro hle
    refine ⟨_, ⟨_, _, ⟨hle, rfl, rfl⟩, span, hspan, ?_⟩, hfile'.sameButTimes time'⟩
    rw [TransientFileBody.touch_fileSize, TransientFileBody.touch_lastSpanState, if_pos hdone]
    rfl

/-! ## Linking a file -/

/-- A `LinkFile` whose file is not transient any more answers with the edge it finds. -/
lemma answersAgain_linkFile_iff {e : LinkFileEntry} {creationTime : ℕ}
    (hfile : getTransientFile db time false e.fileId = .error (.err .fileNotFound)) :
    AnswersAgain cfg cache db time (.linkFile e) (.linkFile creationTime) ↔
      alreadyLinked cfg db e = some creationTime := by
  simp only [AnswersAgain, applyEntryBody, applyLinkFile, hfile, bind_eq_ok, orFail_eq_ok,
    pure_eq_ok, Prod.mk.injEq, ShardResp.linkFile.injEq]
  constructor
  · rintro ⟨_, ⟨c, hc, rfl, rfl⟩, -⟩
    exact hc
  · intro h
    exact ⟨db, ⟨creationTime, h, rfl, rfl⟩, .refl db⟩

lemma getTransientFile_eq_fileNotFound {id : InodeId} :
    getTransientFile db time false id = .error (.err .fileNotFound) ↔
      id.IsFile ∧ ∀ file, db.transientFiles.get id = some file → file.deadline < time := by
  by_cases htype : id.IsFile
  swap
  · rw [getTransientFile, check_of_not htype, error_bind]
    simp [htype]
  rw [getTransientFile, check_of htype, ok_bind, and_iff_right htype]
  cases hfile : db.transientFiles.get id with
  | none => simp [orFail, error_bind]
  | some file =>
    simp only [orFail, ok_bind, some.injEq, forall_eq', Bool.false_eq_true, false_or]
    by_cases hle : time ≤ file.deadline
    · simp [check_of hle, Nat.not_lt.mpr hle]
    · simp [check_of_not hle, Nat.not_le.mp hle]

lemma alreadyLinked_eq_some {e : LinkFileEntry} {creationTime : ℕ} :
    alreadyLinked cfg db e = some creationTime ↔
      (∃ dir, getDirectory db e.ownerId false = .ok dir) ∧
        ∃ edge, db.currentEdges.get (cfg.edgeName e.ownerId e.name) = some edge ∧
          edge.targetId = e.fileId ∧ edge.creationTime = creationTime := by
  rw [alreadyLinked]
  cases getDirectory db e.ownerId false with
  | error => simp
  | ok =>
    simp [bind_eq_some_iff]

/-- `LinkFile` finds the edge that it has created, if the edge could keep the id. -/
lemma answersAgain_linkFile {e : LinkFileEntry} (htime : time < time')
    (h : applyLinkFile cfg db time e = .ok (batch, resp)) :
    AnswersAgain cfg cache (batch.advance logIndex time) time' (.linkFile e) resp ↔
      e.fileId.u64 < 2 ^ 63 := by
  rw [applyLinkFile] at h
  split at h
  · -- the file had been linked before
    next hfile =>
    simp only [bind_eq_ok, orFail_eq_ok, pure_eq_ok, Prod.mk.injEq] at h
    obtain ⟨creationTime, hlinked, rfl, rfl⟩ := h
    obtain ⟨htype, hpast⟩ := getTransientFile_eq_fileNotFound.mp hfile
    have hfile' : getTransientFile (db.advance logIndex time) time' false e.fileId =
        .error (.err .fileNotFound) :=
      getTransientFile_eq_fileNotFound.mpr ⟨htype, fun file hget => (hpast file hget).trans htime⟩
    rw [answersAgain_linkFile_iff hfile']
    obtain ⟨-, edge, -, htarget, -⟩ := alreadyLinked_eq_some.mp hlinked
    exact iff_of_true hlinked (htarget ▸ edge.targetId_lt)
  · cases h
  · next file hfile =>
    simp only [bind_eq_ok, check_eq_ok, pure_eq_ok, exists_const, Prod.exists, Prod.mk.injEq] at h
    obtain ⟨-, b, creationTime, hedge, rfl, rfl⟩ := h
    obtain ⟨dir, hdir, -, hcreated⟩ := createCurrentEdge_eq_ok hedge
    -- the file is gone, the owner is there, and the name has the new edge
    obtain ⟨htransient, hdirectories, hget, rfl⟩ :
        b.transientFiles = db.transientFiles.delete e.fileId ∧
          b.directories = db.directories.put e.ownerId { dir with mtime := time } ∧
          b.currentEdges.get (cfg.edgeName e.ownerId e.name) =
            some ⟨.of e.fileId false, time⟩ ∧ creationTime = time := by
      cases hcreated with
      | fresh => exact ⟨rfl, rfl, get_put_self _ _ _, rfl⟩
      | relocked hsome hexisting hlocked => cases hlocked
      | overridden =>
        exact ⟨rfl, rfl, get_put_self _ _ _, rfl⟩
    have hfile' : getTransientFile (b.advance logIndex creationTime) time' false e.fileId =
        .error (.err .fileNotFound) := by
      refine getTransientFile_eq_fileNotFound.mpr ⟨(getTransientFile_eq_ok.mp hfile).1, ?_⟩
      intro file' hfile'
      change b.transientFiles.get e.fileId = some file' at hfile'
      rw [htransient, get_delete_self] at hfile'
      cases hfile'
    have hdir' : getDirectory (b.advance logIndex creationTime) e.ownerId false =
        .ok { dir with mtime := creationTime } := by
      obtain ⟨htype, -, howner⟩ := getDirectory_eq_ok.mp hdir
      refine getDirectory_eq_ok.mpr ⟨htype, ?_, howner⟩
      change b.directories.get e.ownerId = _
      rw [hdirectories, get_put_self]
    have hmasked : (InodeIdExtra.of e.fileId false).id = e.fileId ↔ e.fileId.u64 < 2 ^ 63 := by
      refine ⟨fun hid => ?_, fun hlt => InodeIdExtra.of_id_of_lt hlt false⟩
      rw [← hid]
      exact InodeIdExtra.id_lt _
    rw [answersAgain_linkFile_iff hfile', alreadyLinked_eq_some, ← hmasked]
    constructor
    · rintro ⟨-, edge, hedge', htarget, -⟩
      obtain rfl := mem_unique hget hedge'
      exact htarget
    · intro htarget
      exact ⟨⟨_, hdir'⟩, _, hget, htarget, rfl⟩

/-! ## Moving spans -/

/-- The two files as a moved span leaves them. -/
structure Moved (db : ShardDB) (time : ℕ) (e : MoveSpanReq) (file₁ file₂ : TransientFileBody) :
    Prop where
  type₁ : e.fileId1.IsFile
  type₂ : e.fileId2.IsFile
  get₁ : db.transientFiles.get e.fileId1 = some file₁
  get₂ : db.transientFiles.get e.fileId2 = some file₂
  mtime₁ : file₁.mtime = time
  mtime₂ : file₂.mtime = time
  already : file₁.fileSize = e.byteOffset1 ∧ file₁.lastSpanState = .clean ∧
    file₂.fileSize = addU64 e.byteOffset2 e.spanSize ∧ file₂.lastSpanState = .dirty

lemma applyMoveSpan_eq_ok {e : MoveSpanReq} (hwords : e.byteOffset1 < 2 ^ 64 ∧ e.spanSize < 2 ^ 64)
    (h : applyMoveSpan cfg db time e = .ok (batch, resp)) :
    resp = .done ∧ ∃ file₁ file₂, Moved batch time e file₁ file₂ := by
  simp only [applyMoveSpan, bind_eq_ok, initiateTransientFileModification_eq_ok_iff, Prod.exists,
    true_or, true_and] at h
  obtain ⟨_, _, ⟨htype₁, file₁, hfile₁, -, rfl, rfl⟩, _, _, ⟨htype₂, file₂, hfile₂, -, rfl, rfl⟩,
    h⟩ := h
  -- the two files are in different states
  have hne : file₁.lastSpanState ≠ file₂.lastSpanState → e.fileId1 ≠ e.fileId2 := by
    intro hstates hid
    rw [hid, hfile₂, some_inj] at hfile₁
    exact hstates (by rw [hfile₁])
  split_ifs at h with halready
  · obtain ⟨hsize₁, hclean, hsize₂, hdirty⟩ := halready
    rw [TransientFileBody.touch_lastSpanState] at hclean hdirty
    have hids := hne (by rw [hclean, hdirty]; decide)
    cases h
    refine ⟨rfl, _, _, htype₁, htype₂, ?_, get_put_self _ _ _, rfl, rfl, hsize₁, hclean,
      hsize₂, hdirty⟩
    exact (get_put_of_ne hids.symm).trans (get_put_self _ _ _)
  · simp only [bind_eq_ok, check_eq_ok, orFail_eq_ok, assert_eq_ok, exists_const] at h
    obtain ⟨⟨hdirty, hsize₁, hclean, hsize₂⟩, span, -, hspan, -, ⟨⟩⟩ := h
    rw [TransientFileBody.touch_lastSpanState] at hclean hdirty
    have hids := hne (by rw [hclean, hdirty]; decide)
    refine ⟨rfl, _, _, htype₁, htype₂, (get_put_of_ne hids.symm).trans (get_put_self _ _ _),
      get_put_self _ _ _, rfl, rfl, ?_, rfl, ?_, rfl⟩
    · change subU64 (file₁.touch cfg time true).fileSize span.spanSize = e.byteOffset1
      rw [hsize₁, hspan]
      unfold subU64 addU64
      omega
    · rw [hsize₂, hspan]

lemma answersAgain_moveSpan {e : MoveSpanReq} (htime : time < time')
    (hwords : e.byteOffset1 < 2 ^ 64 ∧ e.spanSize < 2 ^ 64)
    (h : applyMoveSpan cfg db time e = .ok (batch, resp)) :
    AnswersAgain cfg cache (batch.advance logIndex time) time' (.moveSpan e) resp := by
  obtain ⟨rfl, file₁, file₂, hmoved⟩ := applyMoveSpan_eq_ok hwords h
  have hids : e.fileId1 ≠ e.fileId2 := by
    intro hid
    have heq := hmoved.get₁
    rw [hid, hmoved.get₂, some_inj] at heq
    have hstate := hmoved.already.2.2.2
    rw [heq, hmoved.already.2.1] at hstate
    cases hstate
  refine ⟨{ batch.advance logIndex time with
    transientFiles := (batch.transientFiles.put e.fileId1 (file₁.touch cfg time' true)).put
      e.fileId2 (file₂.touch cfg time' true) }, ?_, ?_⟩
  · change applyMoveSpan _ _ _ _ = _
    simp only [applyMoveSpan, bind_eq_ok, initiateTransientFileModification_eq_ok_iff, Prod.exists,
      true_or, true_and]
    refine ⟨_, _, ⟨hmoved.type₁, file₁, hmoved.get₁, hmoved.mtime₁.symm ▸ htime, rfl, rfl⟩, _, _,
      ⟨hmoved.type₂, file₂, hmoved.get₂, hmoved.mtime₂.symm ▸ htime, rfl, rfl⟩, ?_⟩
    exact if_pos hmoved.already
  · refine ⟨rfl, fun id => ?_, rfl, rfl, rfl, rfl, rfl, rfl, rfl, rfl⟩
    have hget₂ : (batch.transientFiles.put e.fileId1 (file₁.touch cfg time' true)).get e.fileId2 =
        some file₂ := (get_put_of_ne hids).trans hmoved.get₂
    exact (SameButTimes.get_put hget₂ (file₂.untimed_touch true) id).trans
      (SameButTimes.get_put hmoved.get₁ (file₁.untimed_touch true) id)

/-! ## Adding a location -/

/-- The blocks of a location are the given ones, in this order. -/
def SpanBlocksBody.HasIds (loc : SpanBlocksBody) (ids : List ℕ) : Prop :=
  loc.blocks.map BlockBody.blockId = ids

lemma SpanBody.isSome_findBlocksLocIdx (span : SpanBody) (ids : List ℕ) :
    (span.findBlocksLocIdx ids).isSome = true ↔ ∃ loc ∈ span.locations, loc.HasIds ids := by
  rw [findBlocksLocIdx, List.findIdx?_isSome, List.any_eq_true]
  simp [SpanBlocksBody.HasIds]

/-- `AddSpanLocation` does not look at the ids in the request until it is repeated. -/
def AddSpanLocationReq.IdsOk (e : AddSpanLocationReq) (db : ShardDB) : Prop :=
  ∀ source destination, db.spans.get ⟨e.fileId1, e.byteOffset1⟩ = some source →
    db.spans.get ⟨e.fileId2, e.byteOffset2⟩ = some destination →
      ∃ loc ∈ destination.locations ++ source.locations, loc.HasIds e.blocks1

lemma applyAddSpanLocation_eq_ok {e : AddSpanLocationReq} (hids : e.fileId1 ≠ e.fileId2)
    (h : applyAddSpanLocation cfg db time e = .ok (batch, resp)) :
    resp = .done ∧ ∃ destinationFile file' destination',
        getFile batch e.fileId2 = .ok destinationFile ∧ Touched cfg batch time e.fileId1 file' ∧
        file'.lastSpanState = .clean ∧ batch.spans.get ⟨e.fileId1, e.byteOffset1⟩ = none ∧
        batch.spans.get ⟨e.fileId2, e.byteOffset2⟩ = some destination' ∧
        ¬ destination'.IsInlineStorage ∧
        ((∃ loc ∈ destination'.locations, loc.HasIds e.blocks1) ↔ e.IdsOk db) := by
  simp only [applyAddSpanLocation, bind_eq_ok, check_eq_ok, orFail_eq_ok, exists_const,
    initiateTransientFileModification_eq_ok_iff, Prod.exists, Bool.false_eq_true, false_or] at h
  obtain ⟨destinationFile, hdestinationFile, _, _, ⟨htype, file, -, -, -, rfl, rfl⟩, hclean,
    destination, hdestination, hinline, h⟩ := h
  split at h
  · next hsource =>
    simp only [bind_eq_ok, check_eq_ok, exists_const] at h
    obtain ⟨hfound, ⟨⟩⟩ := h
    refine ⟨rfl, destinationFile, _, destination, hdestinationFile,
      ⟨htype, get_put_self _ _ _, rfl, rfl⟩, hclean, hsource, hdestination, hinline, ?_⟩
    refine iff_of_true ((destination.isSome_findBlocksLocIdx _).mp hfound) ?_
    intro source _ hsource' _
    rw [hsource] at hsource'
    cases hsource'
  · next source hsource =>
    simp only [bind_eq_ok, check_eq_ok, exists_const] at h
    obtain ⟨-, -, -, state, -, -, h⟩ := h
    split at h
    · next loc hlocations =>
      simp only [bind_eq_ok, check_eq_ok, orFail_eq_ok, exists_const] at h
      obtain ⟨-, destination', hdestination', ⟨⟩⟩ := h
      obtain ⟨index, hindex, -⟩ := moveBlocksToFile_posted
        { db with transientFiles := db.transientFiles.put e.fileId1 (file.touch cfg time false) }
        loc.blocks e.fileId2 e.fileId1
      have hkeys : (⟨e.fileId1, e.byteOffset1⟩ : SpanKey) ≠ ⟨e.fileId2, e.byteOffset2⟩ := by
        simp [hids]
      have hlocations' := SpanBody.locations_addLocation hdestination'
      rw [hindex]
      refine ⟨rfl, destinationFile, _, destination', hdestinationFile,
        ⟨htype, get_put_self _ _ _, rfl, rfl⟩, hclean, get_delete_self _ _,
        (get_delete_of_ne hkeys).trans (get_put_self _ _ _), ?_, ?_⟩
      · intro hinline'
        have hnone := SpanBody.locations_of_isInlineStorage hinline'
        rw [hlocations'] at hnone
        simp at hnone
      · rw [hlocations', ← hlocations]
        refine ⟨fun hfound source' destination₂ hsource' hdestination₂ => ?_, fun hok => ?_⟩
        · obtain rfl := mem_unique hsource hsource'
          obtain rfl := mem_unique hdestination hdestination₂
          exact hfound
        · exact hok source destination hsource hdestination
    · cases h

/-- `AddSpanLocation` recognises its retries by the ids in the request. -/
lemma answersAgain_addSpanLocation {e : AddSpanLocationReq} (hids : e.fileId1 ≠ e.fileId2)
    (htime : time < time') (h : applyAddSpanLocation cfg db time e = .ok (batch, resp)) :
    AnswersAgain cfg cache (batch.advance logIndex time) time' (.addSpanLocation e) resp ↔
      time' ≤ addU64 time cfg.transientDeadlineInterval ∧ e.IdsOk db := by
  obtain ⟨rfl, destinationFile, file', destination', hdestinationFile, hfile', hclean', hsource,
    hdestination, hinline, hok⟩ := applyAddSpanLocation_eq_ok hids h
  have hgone : (batch.advance logIndex time).spans.get ⟨e.fileId1, e.byteOffset1⟩ = none := hsource
  rw [← hok, ← destination'.isSome_findBlocksLocIdx]
  simp only [AnswersAgain, applyEntryBody, applyAddSpanLocation, bind_eq_ok, check_eq_ok,
    orFail_eq_ok, exists_const, hfile'.initiate_eq_ok_iff htime, Prod.exists, hgone]
  constructor
  · rintro ⟨_, ⟨-, -, _, _, ⟨hle, -⟩, -, destination₂, hdestination₂, -, hfound, -⟩, -⟩
    obtain rfl := mem_unique hdestination hdestination₂
    exact ⟨hle, hfound⟩
  · rintro ⟨hle, hfound⟩
    exact ⟨_, ⟨destinationFile, hdestinationFile, _, _, ⟨hle, rfl, rfl⟩, hclean', destination',
      hdestination, hinline, hfound, rfl⟩, hfile'.sameButTimes time'⟩

end TernFS
