/-
# The spans of a shard tile its files

In every state that a shard reaches, the spans of each file run from offset 0 to the size of the
file, one after the other, if the requests meet a condition that the code does not check.  It
takes spans of size 0, and `AddSpanLocation` and `RemoveSpanCertify` take away spans that are not
the last ones of their files.
-/
import TernFS.FileModel.Tiling
import TernFS.Lib.Run
import TernFS.Shard.SpanEvents

namespace TernFS

open Lib List

namespace ShardDB

variable (db : ShardDB)

/-- The spans of a file, by increasing offset. -/
def fileSpans (f : InodeId) : List (ℕ × SpanBody) :=
  (db.spans.entries.filter fun e => e.1.fileId = f).map fun e => (e.1.offset, e.2)

/-- The recorded size of a file, linked or transient. -/
def HasSize (f : InodeId) (n : ℕ) : Prop :=
  (∃ file, db.files.get f = some file ∧ file.fileSize = n) ∨
    ∃ file, db.transientFiles.get f = some file ∧ file.fileSize = n

/-- The spans of each file tile it, and every span belongs to a file. -/
structure SpansTile : Prop where
  /-- From offset 0, without gap, overlap or empty span, to the recorded size. -/
  tiles : ∀ f n, db.HasSize f n → Tiles SpanBody.spanSize 0 (db.fileSpans f) n
  /-- No spans exactly when the size is 0. -/
  empty : ∀ f n, db.HasSize f n → (db.fileSpans f = [] ↔ n = 0)
  /-- No span without a file. -/
  owned : ∀ k span, db.spans.get k = some span → ∃ n, db.HasSize k.fileId n

variable {db}

lemma mem_fileSpans {f : InodeId} {o : ℕ} {span : SpanBody} :
    (o, span) ∈ db.fileSpans f ↔ db.spans.get ⟨f, o⟩ = some span := by
  simp only [fileSpans, mem_map, mem_filter, SortedStore.mem_entries_iff]
  constructor
  · rintro ⟨⟨⟨f', o'⟩, span'⟩, ⟨hget, hf⟩, heq⟩
    obtain rfl : f' = f := by simpa using hf
    obtain ⟨rfl, rfl⟩ : o' = o ∧ span' = span := by simpa using heq
    exact hget
  · intro hget
    exact ⟨(⟨f, o⟩, span), ⟨hget, by simp⟩, rfl⟩

lemma sorted_fileSpans (f : InodeId) : SortedEntries (db.fileSpans f) := by
  refine pairwise_map.2 ?_
  refine (db.spans.sorted.filter _).imp_of_mem ?_
  intro a b ha hb hlt
  obtain ⟨-, hfa⟩ := mem_filter.1 ha
  obtain ⟨-, hfb⟩ := mem_filter.1 hb
  simp only [decide_eq_true_eq] at hfa hfb
  rcases SpanKey.lt_def.1 hlt with hf | ⟨-, ho⟩
  · rw [hfa, hfb] at hf
    exact absurd hf (lt_irrefl f)
  · exact ho

lemma lookup_fileSpans (f : InodeId) (o : ℕ) :
    lookupEntry o (db.fileSpans f) = spansOf db.spans f o :=
  Option.ext fun span => by
    rw [(sorted_fileSpans f).lookup_eq_some_iff, mem_fileSpans]
    rfl

lemma HasSize.size_eq {f : InodeId} {n : ℕ} (hdistinct : db.fileView.Distinct)
    (h : db.HasSize f n) : db.fileView.size f = n := by
  rcases h with ⟨file, hget, rfl⟩ | ⟨file, hget, rfl⟩
  · exact FileView.size_of_linked (by simp [fileView, linkedView, hget])
  · have hf : db.fileView.transient f = some (file.fileSize, file.lastSpanState) := by
      simp [fileView, transientView, hget]
    exact FileView.size_of_transient (hdistinct.linked_eq_none hf) hf

lemma spansTile_of_wellTiled (h : db.fileView.WellTiled) : db.SpansTile := by
  have htiles : ∀ f n, db.HasSize f n → Tiles SpanBody.spanSize 0 (db.fileSpans f) n := by
    intro f n hsize
    rw [← hsize.size_eq h.toDistinct]
    exact Tiled.tiles (sorted_fileSpans f) (h.tiled f).1 (lookup_fileSpans f)
  refine ⟨htiles, fun f n hsize => ?_, fun k span hspan => ?_⟩
  · rw [(htiles f n hsize).eq_nil_iff, eq_comm]
  cases hfile : db.files.get k.fileId with
  | some file => exact ⟨file.fileSize, .inl ⟨file, hfile, rfl⟩⟩
  | none =>
    cases htransient : db.transientFiles.get k.fileId with
    | some file => exact ⟨file.fileSize, .inr ⟨file, htransient, rfl⟩⟩
    | none =>
      have hsize : db.fileView.size k.fileId = 0 :=
        FileView.size_of_absent (by simp [fileView, linkedView, hfile])
          (by simp [fileView, transientView, htransient])
      have htiled := (h.tiled k.fileId).1
      rw [hsize] at htiled
      have hnone : db.spans.get k = none := htiled.eq_none_of_zero k.offset
      rw [hnone] at hspan
      cases hspan

end ShardDB

/-- A span that is to be appended has a size, and its end does not wrap around. -/
def AppendOk (byteOffset size : ℕ) : Prop := 0 < size ∧ byteOffset + size < 2 ^ 64

instance (byteOffset size : ℕ) : Decidable (AppendOk byteOffset size) :=
  inferInstanceAs (Decidable (_ ∧ _))

/-- The condition under which a request keeps files tiled: spans that are added have a size and
their ends do not wrap around; a span that `RemoveSpanCertify` or `AddSpanLocation` takes from a
transient file ends where the file does. -/
def ShardReq.TilingOk (db : ShardDB) : ShardReq → Prop
  | .addInlineSpan req => req.body ≠ [] → AppendOk req.byteOffset req.size
  | .addSpanInitiate req => AppendOk req.byteOffset req.size
  | .addSpanInitiateWithReference req _ => AppendOk req.byteOffset req.size
  | .addSpanAtLocationInitiate _ req _ => AppendOk req.byteOffset req.size
  | .removeSpanCertify req =>
    ∀ file ∈ db.transientFiles.get req.fileId, file.lastSpanState = .condemned →
      ∀ span ∈ db.spans.get ⟨req.fileId, req.byteOffset⟩,
        req.byteOffset + span.spanSize = file.fileSize
  | .moveSpan req =>
    ∀ span ∈ db.spans.get ⟨req.fileId1, req.byteOffset1⟩, req.byteOffset2 + span.spanSize < 2 ^ 64
  | .addSpanLocation req =>
    ∀ file ∈ db.transientFiles.get req.fileId1, file.lastSpanState = .clean →
      ∀ span ∈ db.spans.get ⟨req.fileId1, req.byteOffset1⟩,
        req.byteOffset1 + span.spanSize = file.fileSize
  | _ => True

instance (db : ShardDB) (req : ShardReq) : Decidable (req.TilingOk db) := by
  induction req using ShardReq.casesOn <;> dsimp only [ShardReq.TilingOk] <;> infer_instance

section

variable {cfg : ShardConfig} {db : ShardDB}

lemma exists_of_transientView {f : InodeId} {n : ℕ} {state : SpanState}
    (h : db.fileView.transient f = some (n, state)) :
    ∃ file, db.transientFiles.get f = some file ∧ file.fileSize = n ∧
      file.lastSpanState = state := by
  simp only [ShardDB.fileView, transientView, Option.map_eq_some_iff, Prod.mk.injEq] at h
  exact h

lemma ShardReq.TilingOk.event {req : ShardReq} {ev : FileEvent} {v' : FileView}
    (hok : req.TilingOk db) (hdistinct : db.fileView.Distinct) (hcauses : req.Causes ev)
    (hstep : FileStep db.fileView ev v') : db.fileView.TilingOk ev := by
  cases hstep with
  | append =>
    rcases hcauses with ⟨r, rfl, hbody, rfl, rfl, rfl⟩ | ⟨r, hreq, rfl, rfl, hsize, -⟩
    · exact hok hbody
    · change AppendOk _ _
      rw [hsize]
      cases req <;> cases hreq <;> exact hok
  | dropBlocks hf hspan =>
    obtain ⟨r, rfl, rfl, rfl⟩ := hcauses
    obtain ⟨file, hfile, hsize, hstate⟩ := exists_of_transientView hf
    intro span hspan
    rw [FileView.size_of_transient (hdistinct.linked_eq_none hf) hf, ← hsize]
    exact hok file hfile hstate span hspan
  | move =>
    obtain ⟨r, rfl, rfl, rfl⟩ := hcauses
    exact hok
  | addLocation hne hk₁ hk₂ hf₁ hf₂ hsize =>
    obtain ⟨r, rfl, rfl, rfl⟩ := hcauses
    obtain ⟨file, hfile, hsize, hstate⟩ := exists_of_transientView hf₁
    intro span hspan
    rw [FileView.size_of_transient (hdistinct.linked_eq_none hf₁) hf₁, ← hsize]
    exact hok file hfile hstate span hspan
  | _ => trivial

lemma initDb_distinct (now : ℕ) : (initDb cfg now).fileView.Distinct where
  disjoint _ := .inl rfl
  fileIds := by
    have := cfg.shid_lt
    simp only [ShardDB.fileView, initDb, InodeId.InRange, InodeId.of, InodeId.typeBits, InodeId.id]
    omega
  symlinkIds := by
    have := cfg.shid_lt
    simp only [ShardDB.fileView, initDb, InodeId.InRange, InodeId.of, InodeId.typeBits, InodeId.id]
    omega
  givenOut f hf := by
    rcases hf with hf | hf <;> exact absurd rfl hf

lemma initDb_wellTiled (now : ℕ) : (initDb cfg now).fileView.WellTiled where
  toDistinct := initDb_distinct now
  tiled f := ⟨Tiled.of_forall_none fun _ => rfl, by
    rw [FileView.size_of_absent rfl rfl]
    omega⟩

lemma shardStep_wellTiled {db' : ShardDB} {step : ShardStep} (h : db.fileView.WellTiled)
    (hok : step.req.TilingOk db) (hstep : shardStep cfg db step = some db') :
    db'.fileView.WellTiled := by
  obtain ⟨ev, hev, hcauses⟩ := shardStep_requestStep hstep
  exact h.step (hok.event h.toDistinct hcauses hev) hev

/-- **Span tiling.** In every state that a shard reaches from initialisation by requests that
meet the condition, the spans of each file tile it. -/
theorem spansTile_of_run {now : ℕ} {steps : List ShardStep}
    (hok : RunMeets (shardStep cfg) (fun db step => step.req.TilingOk db) (initDb cfg now) steps)
    (hrun : run (shardStep cfg) (initDb cfg now) steps = some db) : db.SpansTile :=
  ShardDB.spansTile_of_wellTiled
    (run_invariant (fun _ _ _ => shardStep_wellTiled) (initDb_wellTiled now) hok hrun)

end

/-! ## Sample runs -/

/-- The hash of a name of one to three bytes (`XXH3_64bits` for inputs of that length, without
bit 63). -/
def xxh3Short (name : Bytes) : ℕ :=
  let len := name.length
  let combined := name.getD 0 0 * 2 ^ 16 + name.getD (len / 2) 0 * 2 ^ 24 +
    name.getD (len - 1) 0 + len * 2 ^ 8
  let h := Nat.xor combined 0x87275a9b
  let h := Nat.xor h (h / 2 ^ 33) * 0xc2b2ae3d27d4eb4f % 2 ^ 64
  let h := Nat.xor h (h / 2 ^ 29) * 0x165667b19e3779f9 % 2 ^ 64
  Nat.xor h (h / 2 ^ 32) % 2 ^ 63

/-- The shard of the root directory. -/
def sampleConfig : ShardConfig := ⟨0, 3600, List.range 16, xxh3Short, by decide⟩

/-- The key of the block services of the sample. -/
def sampleKey : AES128Key := expandKey (List.replicate 16 7)

/-- Twenty block services, each in a failure domain of its own. -/
def sampleCache : BlockServicesCache := fun i =>
  if i < 20 then some ⟨sampleKey, [i], [], 0⟩ else none

/-- The leader picks the services from 1 on. -/
def samplePick : PickBlockServices := fun _ _ n _ _ => .ok ((List.range n).map (· + 1))

/-- A step of the sample shard. -/
def sampleStep (time : ℕ) (req : ShardReq) : ShardStep := ⟨time, samplePick, sampleCache, req⟩

/-- The `n`-th file of the sample shard. -/
def sampleFile (n : ℕ) : InodeId := .of .file 0 n

/-- Create a file. -/
def sampleConstruct : ShardReq := .constructFile ⟨2, []⟩

/-- Start a span of one block of 4096 zero bytes, of which the first `size` are data. -/
def sampleAddSpan (f : InodeId) (offset size : ℕ) : ShardReq :=
  .addSpanInitiate
    { fileId := f, cookie := sampleConfig.calcCookie f, byteOffset := offset, size := size
      crc := crc32cZeroExtend (crc32cZeroExtend 0 4096) ((size : ℤ) - 4096), storageClass := 2
      blacklist := [], parity := ⟨1⟩, stripes := 1, cellSize := 4096
      crcs := [crc32cZeroExtend 0 4096] }

/-- The proof that a block was written to the first service. -/
def sampleProof (blockId : ℕ) : BlockProof :=
  ⟨blockId, blockMac sampleKey 1 'W' blockId []⟩

/-- Certify a span of one block. -/
def sampleCertify (f : InodeId) (offset blockId : ℕ) : ShardReq :=
  .addSpanCertify ⟨f, sampleConfig.calcCookie f, offset, [sampleProof blockId]⟩

/-- A span of size 0 is accepted, and the file does not have a tiling afterwards. -/
theorem not_spansTile_of_size_zero : ∃ db, run (shardStep sampleConfig) (initDb sampleConfig 0)
      [sampleStep 1 sampleConstruct, sampleStep 2 (sampleAddSpan (sampleFile 1) 0 0)] = some db ∧
      ¬ db.SpansTile := by
  -- the file has size 0, but it has a span
  refine exists_eq_some_imp (fun db _ (h : (∃ file, db.transientFiles.get (sampleFile 1) = some file ∧
    file.fileSize = 0) ∧ (db.fileSpans (sampleFile 1)).length = 1) htile => ?_) (by decide +kernel)
  obtain ⟨hsize, hlength⟩ := h
  rw [(htile.empty (sampleFile 1) 0 (.inr hsize)).2 rfl] at hlength
  cases hlength

theorem spansTile_of_run_two_spans : ∃ db, run (shardStep sampleConfig) (initDb sampleConfig 0)
      [sampleStep 1 sampleConstruct, sampleStep 2 (sampleAddSpan (sampleFile 1) 0 4096),
        sampleStep 3 (sampleCertify (sampleFile 1) 0 256),
        sampleStep 4 (sampleAddSpan (sampleFile 1) 4096 1000)] = some db ∧ db.SpansTile := by
  exact exists_eq_some_imp (fun db hrun (_ : True) => spansTile_of_run (by decide +kernel) hrun)
    (by decide +kernel)

end TernFS
