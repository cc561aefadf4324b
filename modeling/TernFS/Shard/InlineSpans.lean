/-
# Inline spans

What a successful `AddInlineSpan` leaves behind.  The request is checked when it is prepared (size,
length of the body, checksum) and when it is applied (offset, repetition), and a body without bytes
is taken for an empty span before the offset is looked at.
-/
import TernFS.Core.CrcLaws
import TernFS.Shard.Tiling

namespace TernFS

open Lib SortedStore Option

variable {cfg : ShardConfig} {cache : BlockServicesCache} {db db' : ShardDB} {time : ℕ}
  {resp : ShardResp}

/-- A transient file with its times moved to the time of a log entry. -/
def TransientFileBody.touch (file : TransientFileBody) (cfg : ShardConfig) (time : ℕ)
    (allowPastDeadline : Bool) : TransientFileBody :=
  { file with
    mtime := time
    deadline :=
      if allowPastDeadline then file.deadline else addU64 time cfg.transientDeadlineInterval }

namespace TransientFileBody

variable (file : TransientFileBody) (allowPastDeadline : Bool)

@[simp] lemma touch_fileSize : (file.touch cfg time allowPastDeadline).fileSize = file.fileSize := rfl

@[simp] lemma touch_lastSpanState :
    (file.touch cfg time allowPastDeadline).lastSpanState = file.lastSpanState := rfl

end TransientFileBody

/-- When a transient file can be modified, and what is written then. -/
lemma initiateTransientFileModification_eq_ok_iff {batch batch' : ShardDB}
    {allowPastDeadline : Bool} {id : InodeId} {file' : TransientFileBody} :
    initiateTransientFileModification cfg db batch time allowPastDeadline id = .ok (batch', file') ↔
      id.IsFile ∧ ∃ file, db.transientFiles.get id = some file ∧
        (allowPastDeadline = true ∨ time ≤ file.deadline) ∧ file.mtime < time ∧
        file' = file.touch cfg time allowPastDeadline ∧
        batch' = { batch with transientFiles := batch.transientFiles.put id file' } := by
  simp only [initiateTransientFileModification, bind_eq_ok, getTransientFile_eq_ok, check_eq_ok,
    pure_eq_ok, exists_const, Prod.mk.injEq]
  constructor
  · rintro ⟨file, ⟨htype, hfile, hdeadline⟩, hmtime, rfl, rfl⟩
    exact ⟨htype, file, hfile, hdeadline, hmtime, rfl, rfl⟩
  · rintro ⟨htype, file, hfile, hdeadline, hmtime, rfl, rfl⟩
    exact ⟨file, ⟨htype, hfile, hdeadline⟩, hmtime, rfl, rfl⟩

/-- An entry that is answered without an error has gone through. -/
lemma applyLogEntry_eq_ok_iff {logIndex : ℕ} {entry : ShardLogEntry} :
    applyLogEntry cfg cache db logIndex entry = some (db', .ok resp) ↔
      addU64 db.lastAppliedLogEntry 1 = logIndex ∧
        ∃ batch, applyEntryBody cfg cache db entry.time entry.body = .ok (batch, resp) ∧
          db' = batch.advance logIndex entry.time := by
  rw [applyLogEntry]
  by_cases hindex : addU64 db.lastAppliedLogEntry 1 = logIndex
  swap
  · simp [hindex]
  rw [if_pos hindex, and_iff_right hindex]
  constructor
  · intro h
    split at h
    · next batch resp' hbody =>
      cases h
      exact ⟨batch, hbody, rfl⟩
    · simp at h
    · cases h
  · rintro ⟨batch, hbody, rfl⟩
    rw [hbody]

/-! ## The three outcomes -/

/-- What `AddInlineSpan` does when it succeeds: nothing for a body without bytes, nothing for a
span that is there already, and otherwise a new span at the end of the file. -/
inductive AddedInlineSpan (cfg : ShardConfig) (db : ShardDB) (time : ℕ) (e : AddInlineSpanEntry)
    (file : TransientFileBody) : ShardDB → Prop
  | empty (hbody : e.body = []) :
    AddedInlineSpan cfg db time e file
      { db with transientFiles := db.transientFiles.put e.fileId (file.touch cfg time false) }
  | again {existing : SpanBody} (hbody : e.body ≠ []) (hoffset : file.fileSize ≠ e.byteOffset)
    (hsize : file.fileSize = addU64 e.byteOffset e.size)
    (hexisting : db.spans.get ⟨e.fileId, e.byteOffset⟩ = some existing)
    (hsame : SameInlineSpan existing e) :
    AddedInlineSpan cfg db time e file
      { db with transientFiles := db.transientFiles.put e.fileId (file.touch cfg time false) }
  | fresh (hbody : e.body ≠ []) (hoffset : file.fileSize = e.byteOffset)
    (hclean : file.lastSpanState = .clean) :
    AddedInlineSpan cfg db time e file { db with
        transientFiles := db.transientFiles.put e.fileId
          { file.touch cfg time false with fileSize := addU64 e.byteOffset e.size }
        spans := db.spans.put ⟨e.fileId, e.byteOffset⟩ ⟨e.size, e.crc, .inline e.body⟩ }

variable {e : AddInlineSpanEntry}

lemma applyAddInlineSpan_eq_ok_iff : applyAddInlineSpan cfg db time e = .ok (db', resp) ↔
      resp = .done ∧ e.fileId.IsFile ∧ ∃ file, db.transientFiles.get e.fileId = some file ∧
        time ≤ file.deadline ∧ file.mtime < time ∧ AddedInlineSpan cfg db time e file db' := by
  simp only [applyAddInlineSpan, bind_eq_ok, initiateTransientFileModification_eq_ok_iff,
    Prod.exists, Bool.false_eq_true, false_or]
  constructor
  · rintro ⟨batch, _, ⟨htype, file, hfile, hdeadline, hmtime, rfl, rfl⟩, h⟩
    refine ⟨?_, htype, file, hfile, hdeadline, hmtime, ?_⟩
    all_goals split_ifs at h with hbody hoffset
    all_goals simp only [bind_eq_ok, check_eq_ok, orFail_eq_ok, pure_eq_ok, exists_const,
      Prod.mk.injEq] at h
    · exact h.2.symm
    · obtain ⟨-, -, -, -, -, rfl⟩ := h
      rfl
    · exact h.2.2.symm
    · obtain ⟨rfl, -⟩ := h
      exact .empty hbody
    · obtain ⟨hsize, existing, hexisting, hsame, rfl, -⟩ := h
      exact .again hbody hoffset hsize hexisting hsame
    · obtain ⟨hclean, rfl, -⟩ := h
      rw [put_put]
      exact .fresh hbody (not_not.mp hoffset) hclean
  · rintro ⟨rfl, htype, file, hfile, hdeadline, hmtime, h⟩
    refine ⟨_, _, ⟨htype, file, hfile, hdeadline, hmtime, rfl, rfl⟩, ?_⟩
    cases h with
    | empty hbody => rw [if_pos hbody]; rfl
    | again hbody hoffset hsize hexisting hsame =>
      rw [if_neg hbody, TransientFileBody.touch_fileSize, if_pos hoffset]
      simp only [bind_eq_ok, check_eq_ok, orFail_eq_ok, pure_eq_ok, exists_const]
      exact ⟨hsize, _, hexisting, hsame, trivial⟩
    | fresh hbody hoffset hclean =>
      rw [if_neg hbody, TransientFileBody.touch_fileSize, if_neg (not_not.mpr hoffset)]
      simp only [bind_eq_ok, check_eq_ok, pure_eq_ok, exists_const, put_put]
      exact ⟨hclean, trivial⟩

/-! ## What the request is for -/

namespace AddInlineSpanReq

/-- The fields of the request fit their words. -/
def WordsOk (req : AddInlineSpanReq) : Prop :=
  req.byteOffset < 2 ^ 64 ∧ req.size < 2 ^ 32 ∧ req.body.length < 2 ^ 8 ∧ ∀ b ∈ req.body, b < 2 ^ 8

instance (req : AddInlineSpanReq) : Decidable req.WordsOk := inferInstanceAs (Decidable (_ ∧ _))

/-- The file reaches to the end of the new bytes, and these are covered by an inline span with the
body of the request, whose checksum is that of the body extended with zeros to its size. -/
def Extends (req : AddInlineSpanReq) (db : ShardDB) : Prop :=
  (∃ file, db.transientFiles.get req.fileId = some file ∧
    req.byteOffset + req.size ≤ file.fileSize) ∧
  (0 < req.size →
    db.spans.get ⟨req.fileId, req.byteOffset⟩ = some ⟨req.size, req.crc, .inline req.body⟩ ∧
    req.body.length ≤ req.size ∧
    req.crc = crc32c 0 (req.body ++ List.replicate (req.size - req.body.length) 0))

/-- The state before the request, where a successful one does what it is for.  With bytes in the
body, the end of the span does not wrap around, and a span that is there already has the same
bytes also after the first zero.  Without bytes, the effect is there already. -/
def ExtendsOk (req : AddInlineSpanReq) (db : ShardDB) : Prop :=
  if req.body = [] then
    (∃ file, db.transientFiles.get req.fileId = some file ∧
      req.byteOffset + req.size ≤ file.fileSize) ∧
    (0 < req.size →
      db.spans.get ⟨req.fileId, req.byteOffset⟩ = some ⟨req.size, req.crc, .inline []⟩)
  else
    req.byteOffset + req.size < 2 ^ 64 ∧
    ∀ file span body, db.transientFiles.get req.fileId = some file →
      file.fileSize ≠ req.byteOffset →
      db.spans.get ⟨req.fileId, req.byteOffset⟩ = some span → span.storage = .inline body →
      body = req.body

end AddInlineSpanReq

/-- What is known of an entry that has been prepared. -/
lemma prepareAddInlineSpan_eq_ok {req : AddInlineSpanReq}
    (hwords : req.WordsOk) (h : prepareAddInlineSpan cfg req = .ok e) :
    e = ⟨req.fileId, req.storageClass, req.byteOffset, req.size, req.crc, req.body⟩ ∧
      (0 < req.size → req.body.length ≤ req.size ∧
        req.crc = crc32c 0 (req.body ++ List.replicate (req.size - req.body.length) 0)) := by
  simp only [prepareAddInlineSpan, bind_eq_ok, check_eq_ok, exists_const] at h
  obtain ⟨-, -, hclass, -, hcrc, ⟨⟩⟩ := h
  refine ⟨rfl, fun hsize => ?_⟩
  obtain ⟨-, hlt, hlen, hbytes⟩ := hwords
  have hbody : req.body.length ≤ req.size := by
    rcases hclass with ⟨-, hzero⟩ | ⟨-, -, hle⟩
    · omega
    · exact hle
  have hzeros : (req.size + 2 ^ 32 - req.body.length) % 2 ^ 32 = req.size - req.body.length := by
    omega
  rw [hzeros] at hcrc
  refine ⟨hbody, ?_⟩
  rw [crc32c_append_zeros hbytes (by omega), hcrc]

/-- An inline span that is taken for the new one differs from it in its bytes at most. -/
lemma SameInlineSpan.eq_iff {span : SpanBody} (h : SameInlineSpan span e) :
    ∃ body, span.storage = .inline body ∧
      (span = ⟨e.size, e.crc, .inline e.body⟩ ↔ body = e.body) := by
  obtain ⟨size, crc, storage⟩ := span
  cases storage with
  | blocks => exact h.elim
  | inline body =>
    obtain ⟨rfl, rfl, -⟩ := h
    exact ⟨body, rfl, by simp⟩

/-- A successful `AddInlineSpan` extends the file as it should, exactly where the state before meets
the condition. -/
theorem inlineSpan_extends_iff {pick : PickBlockServices} {req : AddInlineSpanReq}
    {entry : ShardLogEntry} {logIndex : ℕ} (hwords : req.WordsOk)
    (hprepare : prepareLogEntry cfg time pick (.addInlineSpan req) = .ok entry)
    (happly : applyLogEntry cfg cache db logIndex entry = some (db', .ok resp)) :
    req.Extends db' ↔ req.ExtendsOk db := by
  simp only [prepareLogEntry, bind_eq_ok, map_eq_ok] at hprepare
  obtain ⟨_, ⟨e, he, rfl⟩, ⟨⟩⟩ := hprepare
  obtain ⟨rfl, hcrc⟩ := prepareAddInlineSpan_eq_ok hwords he
  obtain ⟨-, batch, hbody, rfl⟩ := applyLogEntry_eq_ok_iff.mp happly
  obtain ⟨-, -, file, hfile, -, -, hadded⟩ := applyAddInlineSpan_eq_ok_iff.mp hbody
  have hlt : req.byteOffset < 2 ^ 64 ∧ req.size < 2 ^ 32 := ⟨hwords.1, hwords.2.1⟩
  have hwrap : req.byteOffset + req.size ≤ addU64 req.byteOffset req.size ↔
      req.byteOffset + req.size < 2 ^ 64 := by
    unfold addU64
    omega
  -- the checksum is right for every entry that has been prepared
  have hspan : ∀ spans : SortedStore SpanKey SpanBody,
      (0 < req.size → spans.get ⟨req.fileId, req.byteOffset⟩ =
          some ⟨req.size, req.crc, .inline req.body⟩ ∧ req.body.length ≤ req.size ∧
          req.crc = crc32c 0 (req.body ++ List.replicate (req.size - req.body.length) 0)) ↔
        (0 < req.size → spans.get ⟨req.fileId, req.byteOffset⟩ =
          some ⟨req.size, req.crc, .inline req.body⟩) := by
    intro spans
    exact forall_congr' fun hsize => and_iff_left (hcrc hsize)
  simp only [AddInlineSpanReq.Extends, AddInlineSpanReq.ExtendsOk, hspan, hfile,
    some.injEq, exists_eq_left']
  cases hadded with
  | empty hempty =>
    change req.body = [] at hempty
    simp [ShardDB.advance, hempty]
  | @again existing hne hmoved hend hexisting hsame =>
    obtain ⟨body, hstorage, heq⟩ := hsame.eq_iff
    -- a span of size 0 does not move the end of the file
    have hsize : 0 < req.size := by
      rw [Nat.pos_iff_ne_zero]
      intro hzero
      rw [hzero, addU64, Nat.add_zero, Nat.mod_eq_of_lt hlt.1] at hend
      exact hmoved hend
    simp only [ShardDB.advance, get_put_self, some.injEq, exists_eq_left',
      TransientFileBody.touch_fileSize, if_neg hne, hsize, forall_const, hend, hwrap]
    refine and_congr Iff.rfl ?_
    rw [hexisting, some.injEq, heq]
    constructor
    · rintro rfl _ span body' rfl - hspan' hstorage'
      obtain rfl := some_inj.mp hspan'
      exact SpanStorage.inline.inj (hstorage'.symm.trans hstorage)
    · intro h
      exact h file existing body rfl hmoved rfl hstorage
  | fresh hne hhere =>
    simp only [ShardDB.advance, get_put_self, some.injEq, exists_eq_left',
      if_neg hne, implies_true, and_true, hwrap]
    refine (and_iff_left ?_).symm
    rintro _ span body rfl hmoved
    exact absurd hhere hmoved

/-! ## A hole -/

/-- An inline span of the given bytes, extended with zeros to a page. -/
def sampleInline (body : Bytes) : AddInlineSpanReq where
  fileId := sampleFile 1
  cookie := sampleConfig.calcCookie (sampleFile 1)
  storageClass := inlineStorage
  byteOffset := 0
  size := 4096
  crc := crc32cZeroExtend (crc32c 0 body) (4096 - body.length : ℕ)
  body := body

/-- The entry for it, at time 2. -/
def sampleInlineEntry (body : Bytes) : ShardLogEntry :=
  ⟨2, .addInlineSpan ⟨sampleFile 1, inlineStorage, 0, 4096,
    crc32cZeroExtend (crc32c 0 body) (4096 - body.length : ℕ), body⟩⟩

theorem inlineSpan_extends_one_byte : ∃ db db', run (shardStep sampleConfig) (initDb sampleConfig 0)
        [sampleStep 1 sampleConstruct] = some db ∧
      applyLogEntry sampleConfig sampleCache db (addU64 db.lastAppliedLogEntry 1)
        (sampleInlineEntry [1]) = some (db', .ok .done) ∧
      ((sampleInline [1]).Extends db' ↔ (sampleInline [1]).ExtendsOk db) := by
  have hprepare : prepareLogEntry sampleConfig 2 samplePick (.addInlineSpan (sampleInline [1])) =
      .ok (sampleInlineEntry [1]) := by
    decide +kernel
  simp only [exists_and_left]
  exact exists_eq_some_imp (fun db _ (h : ∃ db', applyLogEntry sampleConfig sampleCache db
    (addU64 db.lastAppliedLogEntry 1) (sampleInlineEntry [1]) = some (db', .ok .done)) =>
      h.imp fun db' happly => ⟨happly, inlineSpan_extends_iff (by decide +kernel) hprepare happly⟩)
    (by decide +kernel)

/-- A page of zeros, without a byte in its body, is accepted and not added. -/
theorem not_inlineSpan_extends :
    ∃ db db' entry, run (shardStep sampleConfig) (initDb sampleConfig 0)
        [sampleStep 1 sampleConstruct] = some db ∧
      (sampleInline []).WordsOk ∧
      prepareLogEntry sampleConfig 2 samplePick (.addInlineSpan (sampleInline [])) = .ok entry ∧
      applyLogEntry sampleConfig sampleCache db (addU64 db.lastAppliedLogEntry 1) entry =
        some (db', .ok .done) ∧
      ¬ (sampleInline []).Extends db' := by
  have hprepare : prepareLogEntry sampleConfig 2 samplePick (.addInlineSpan (sampleInline [])) =
      .ok (sampleInlineEntry []) := by
    decide +kernel
  simp only [exists_and_left]
  refine exists_eq_some_imp (fun db _ (h : ∃ db', applyLogEntry sampleConfig sampleCache db
    (addU64 db.lastAppliedLogEntry 1) (sampleInlineEntry []) = some (db', .ok .done) ∧
      ∃ file, db'.transientFiles.get (sampleFile 1) = some file ∧ file.fileSize = 0) => ?_)
    (by decide +kernel)
  obtain ⟨db', happly, file, hfile, hzero⟩ := h
  refine ⟨by decide +kernel, db', _, hprepare, happly, ?_⟩
  rintro ⟨⟨file', hfile', hle⟩, -⟩
  obtain rfl := mem_unique hfile hfile'
  rw [hzero] at hle
  exact absurd hle (by decide)

end TernFS
