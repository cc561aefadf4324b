/-
# Proofs that blocks were written

A span is certified with one proof for each of its blocks: the MAC, under the key of the block
service, of the id of the service and the id of the block.  `AddSpanCertify` takes the service from
the span, but the block id from the proof itself, so that it accepts a proof for any block of the
service; `RemoveSpanCertify` compares the two ids.
-/
import TernFS.Shard.Tiling

namespace TernFS

open Lib List Option

/-- The proof is good for a block on the service of the given one. -/
def Proves (cache : BlockServicesCache) (block : BlockBody) (proof : BlockProof) : Prop :=
  ∃ service, cache block.blockService = some service ∧
    proof.proof = blockMac service.secretKey block.blockService 'W' proof.blockId []

/-- The proof carries the id of the block. -/
def CarriesId (block : BlockBody) (proof : BlockProof) : Prop := proof.blockId = block.blockId

/-- The proof carries the id of the block, and it is the MAC for that id. -/
def ProvesOwn (cache : BlockServicesCache) (block : BlockBody) (proof : BlockProof) : Prop :=
  CarriesId block proof ∧ ∃ service, cache block.blockService = some service ∧
    proof.proof = blockMac service.secretKey block.blockService 'W' block.blockId []

/-- The last span of the file goes from dirty to clean. -/
def Certifies (db db' : ShardDB) (f : InodeId) : Prop :=
  (∃ file, db.transientFiles.get f = some file ∧ file.lastSpanState = .dirty) ∧
    ∃ file, db'.transientFiles.get f = some file ∧ file.lastSpanState = .clean

instance (db db' : ShardDB) (f : InodeId) : Decidable (Certifies db db' f) :=
  inferInstanceAs (Decidable (_ ∧ _))

/-- Everything that `AddSpanCertify` asks for before it looks at the proofs: the file can be
modified, its last span is dirty, and the span at the offset has not been passed and has blocks at
one location, on services that are known. -/
structure Certifiable (cfg : ShardConfig) (cache : BlockServicesCache) (db : ShardDB) (time : ℕ)
    (f : InodeId) (byteOffset : ℕ) (span : SpanBody) : Prop where
  modifiable : ∃ batch file,
    initiateTransientFileModification cfg db db time false f = .ok (batch, file)
  dirty : ∀ file, db.transientFiles.get f = some file → file.lastSpanState = .dirty ∧
    file.fileSize ≤ addU64 byteOffset span.spanSize
  there : db.spans.get ⟨f, byteOffset⟩ = some span
  oneLocation : ∃ loc, span.storage = .blocks loc []
  known : ∀ block ∈ span.blocks, cache block.blockService ≠ none

section

variable {cfg : ShardConfig} {cache : BlockServicesCache} {db db' : ShardDB} {time : ℕ}
  {blocks : List BlockBody} {proofs : List BlockProof} {resp : ShardResp}

/-! ## The loop over the proofs -/

/-- The loop accepts proofs that are good for blocks on the services of the span. -/
lemma forall₂_proves_of_checkAddProofs (hlength : blocks.length = proofs.length)
    (h : checkAddProofs cache blocks proofs = .ok true) :
    List.Forall₂ (Proves cache) blocks proofs := by
  induction blocks generalizing proofs with
  | nil =>
    obtain rfl := length_eq_zero_iff.1 hlength.symm
    exact .nil
  | cons block blocks ih =>
    cases proofs with
    | nil => cases hlength
    | cons =>
      simp only [checkAddProofs, checkBlockAddProof, bind_eq_ok, orFail_eq_ok, pure_eq_ok] at h
      obtain ⟨good, ⟨service, hservice, rfl⟩, h⟩ := h
      split_ifs at h with hgood
      · exact .cons ⟨service, hservice, of_decide_eq_true hgood⟩ (ih (Nat.succ_inj.1 hlength) h)
      · simp only [pure_eq_ok, Bool.false_eq_true] at h

/-- It stops at the first one that is not. -/
lemma checkAddProofs_eq_false (hknown : ∀ block ∈ blocks, cache block.blockService ≠ none)
    (hlength : blocks.length = proofs.length) (h : ¬ List.Forall₂ (Proves cache) blocks proofs) :
    checkAddProofs cache blocks proofs = .ok false := by
  induction blocks generalizing proofs with
  | nil =>
    obtain rfl := length_eq_zero_iff.1 hlength.symm
    exact absurd .nil h
  | cons block blocks ih =>
    cases proofs with
    | nil => cases hlength
    | cons proof proofs =>
      obtain ⟨service, hservice⟩ := ne_none_iff_exists'.1 (hknown block mem_cons_self)
      simp only [checkAddProofs, checkBlockAddProof, hservice, orFail, ok_bind]
      by_cases hgood : proof.proof =
          blockMac service.secretKey block.blockService 'W' proof.blockId []
      · have hrest : ¬ List.Forall₂ (Proves cache) blocks proofs := fun hrest =>
          h (.cons ⟨service, hservice, hgood⟩ hrest)
        have hih := ih (fun b hb => hknown b (mem_cons_of_mem _ hb)) (Nat.succ_inj.1 hlength) hrest
        rw [decide_eq_true hgood]
        exact hih
      · rw [decide_eq_false hgood]
        rfl

/-- Proofs that are good for some block are good for the blocks of the span exactly when they carry
the ids of these. -/
lemma forall₂_provesOwn_iff (h : List.Forall₂ (Proves cache) blocks proofs) :
    List.Forall₂ (ProvesOwn cache) blocks proofs ↔ List.Forall₂ CarriesId blocks proofs := by
  induction h with
  | nil => simp only [forall₂_nil_left_iff]
  | @cons block proof _ _ hproves _ ih =>
    have hown : ProvesOwn cache block proof ↔ CarriesId block proof := by
      refine ⟨And.left, fun hid => ⟨hid, ?_⟩⟩
      obtain ⟨service, hservice, hproof⟩ := hproves
      exact ⟨service, hservice, hid ▸ hproof⟩
    rw [forall₂_cons, forall₂_cons, hown, ih]

lemma not_forall₂_proves (hids : List.Forall₂ CarriesId blocks proofs)
    (h : ¬ List.Forall₂ (ProvesOwn cache) blocks proofs) :
    ¬ List.Forall₂ (Proves cache) blocks proofs :=
  fun hproves => h ((forall₂_provesOwn_iff hproves).2 hids)

/-! ## The entry -/

/-- An entry that certifies a span has gone through its proofs. -/
lemma forall₂_proves_of_certifies {entry : SpanCertifyEntry}
    (h : applyAddSpanCertify cfg cache db time entry = .ok (db', resp))
    (hcertifies : Certifies db db' entry.fileId) :
    ∃ span, db.spans.get ⟨entry.fileId, entry.byteOffset⟩ = some span ∧
      List.Forall₂ (Proves cache) span.blocks entry.proofs := by
  simp only [applyAddSpanCertify, bind_eq_ok, orFail_eq_ok, Prod.exists] at h
  obtain ⟨b, file', hinit, span, hspan, h⟩ := h
  obtain ⟨file, hfile, -, -, -, hstate, -, rfl⟩ := initiateTransientFileModification_eq_ok hinit
  split_ifs at h with hdone
  · -- nothing but the times of the file has changed
    cases h
    obtain ⟨⟨old, hold, hdirty⟩, new, hnew, hclean⟩ := hcertifies
    obtain rfl := mem_unique hfile hold
    rw [SortedStore.get_put_self, some_inj] at hnew
    rw [← hnew, hstate, hdirty] at hclean
    cases hclean
  · simp only [bind_eq_ok, check_eq_ok, exists_const] at h
    obtain ⟨-, h⟩ := h
    split at h
    · cases h
    rename_i loc rest hstorage
    simp only [bind_eq_ok, assert_eq_ok, check_eq_ok, exists_const] at h
    obtain ⟨rfl, hlength, good, hgood, rfl, -⟩ := h
    have hblocks : span.blocks = loc.blocks := by
      simp [SpanBody.blocks, SpanBody.locations, hstorage]
    refine ⟨span, hspan, ?_⟩
    rw [hblocks]
    exact forall₂_proves_of_checkAddProofs (loc.blocks_length.trans hlength) hgood

lemma applyAddSpanCertify_of_bad {entry : SpanCertifyEntry} {span : SpanBody}
    (hspan : Certifiable cfg cache db time entry.fileId entry.byteOffset span)
    (hlength : span.blocks.length = entry.proofs.length)
    (h : ¬ List.Forall₂ (Proves cache) span.blocks entry.proofs) :
    applyAddSpanCertify cfg cache db time entry = .error (.err .badBlockProof) := by
  obtain ⟨batch, file', hinit⟩ := hspan.modifiable
  obtain ⟨file, hfile, -, -, hsize, hstate, -⟩ := initiateTransientFileModification_eq_ok hinit
  obtain ⟨hdirty, hend⟩ := hspan.dirty file hfile
  obtain ⟨loc, hstorage⟩ := hspan.oneLocation
  have hblocks : span.blocks = loc.blocks := by
    simp [SpanBody.blocks, SpanBody.locations, hstorage]
  have hchecked : checkAddProofs cache loc.blocks entry.proofs = .ok false := by
    rw [← hblocks]
    exact checkAddProofs_eq_false hspan.known hlength h
  have hdone : ¬ (addU64 entry.byteOffset span.spanSize < file'.fileSize ∨
      file'.lastSpanState = .clean) := by
    rw [hsize, hstate, hdirty]
    rintro (hlt | hclean)
    · omega
    · cases hclean
  have hcondemned : file'.lastSpanState ≠ .condemned := by
    rw [hstate, hdirty]
    decide
  have hcount : loc.parity.blocks = entry.proofs.length := by
    rw [← loc.blocks_length, ← hblocks, hlength]
  rw [applyAddSpanCertify, hinit, ok_bind]
  simp only [hspan.there, orFail, ok_bind, if_neg hdone, check_of hcondemned, hstorage, assert,
    ensure_of trivial, check_of hcount, hchecked]
  rw [check_of_not (by decide), error_bind]

/-- **Proofs of blocks.** When a span is certified, its proofs are those of its own blocks if and
only if they carry the ids of these.  Proofs that do, but are not those of the blocks, are refused
as bad. -/
theorem provesOwn_iff_carriesId {pick : PickBlockServices} {r : SpanCertifyReq}
    {entry : ShardLogEntry} {logIndex : ℕ} {result : Except TernError ShardResp}
    (hprepare : prepareLogEntry cfg time pick (.addSpanCertify r) = .ok entry)
    (happly : applyLogEntry cfg cache db logIndex entry = some (db', result)) :
    (Certifies db db' r.fileId → ∃ span, db.spans.get ⟨r.fileId, r.byteOffset⟩ = some span ∧
        (List.Forall₂ (ProvesOwn cache) span.blocks r.proofs ↔
          List.Forall₂ CarriesId span.blocks r.proofs)) ∧
      ∀ span, Certifiable cfg cache db time r.fileId r.byteOffset span →
        List.Forall₂ CarriesId span.blocks r.proofs →
        ¬ List.Forall₂ (ProvesOwn cache) span.blocks r.proofs → result = .error .badBlockProof := by
  obtain ⟨_, ⟨⟩, rfl⟩ := prepareLogEntry_eq_ok hprepare
  unfold applyLogEntry at happly
  split_ifs at happly
  refine ⟨fun hcertifies => ?_, fun span hspan hids hown => ?_⟩
  · split at happly
    · rename_i batch resp hbatch
      cases happly
      obtain ⟨span, hget, hproves⟩ := forall₂_proves_of_certifies hbatch hcertifies
      exact ⟨span, hget, forall₂_provesOwn_iff hproves⟩
    · -- an entry that fails leaves the file dirty
      cases happly
      obtain ⟨⟨old, hold, hdirty⟩, new, hnew, hclean⟩ := hcertifies
      obtain rfl := mem_unique hold hnew
      rw [hdirty] at hclean
      cases hclean
    · cases happly
  · have hbad : applyEntryBody cfg cache db time (.addSpanCertify ⟨r.fileId, r.byteOffset, r.proofs⟩)
        = .error (.err .badBlockProof) :=
      applyAddSpanCertify_of_bad hspan hids.length_eq (not_forall₂_proves hids hown)
    rw [hbad] at happly
    cases happly
    rfl

end

/-- A span of one block, with the id 256, is added to a file. -/
def sampleDirty : List ShardStep :=
  [sampleStep 1 sampleConstruct, sampleStep 2 (sampleAddSpan (sampleFile 1) 0 4096)]

/-- Certify the span with the proof for a block of the same service. -/
def sampleCertifyWith (blockId : ℕ) : SpanCertifyReq :=
  ⟨sampleFile 1, sampleConfig.calcCookie (sampleFile 1), 0, [sampleProof blockId]⟩

/-- The entry for it, at time 3. -/
def sampleCertifyEntry (blockId : ℕ) : ShardLogEntry :=
  ⟨3, .addSpanCertify ⟨sampleFile 1, 0, [sampleProof blockId]⟩⟩

/-- The span is certified with the proof. -/
def SampleCertified (db : ShardDB) (blockId : ℕ) : Prop :=
  ∃ db' result, applyLogEntry sampleConfig sampleCache db (addU64 db.lastAppliedLogEntry 1)
      (sampleCertifyEntry blockId) = some (db', result) ∧ Certifies db db' (sampleFile 1) ∧
    ∃ span, db.spans.get ⟨sampleFile 1, 0⟩ = some span ∧ span.blocks.map BlockBody.blockId = [256]

instance (db : ShardDB) (blockId : ℕ) : Decidable (SampleCertified db blockId) :=
  inferInstanceAs (Decidable (∃ _ _, _ ∧ _ ∧ _))

/-- The span is certified with the proof for another block, 512, that was written to the same
service. -/
theorem certified_by_other_block : ∃ db db' entry result span,
      run (shardStep sampleConfig) (initDb sampleConfig 0) sampleDirty = some db ∧
      prepareLogEntry sampleConfig 3 samplePick (.addSpanCertify (sampleCertifyWith 512)) =
        .ok entry ∧
      applyLogEntry sampleConfig sampleCache db (addU64 db.lastAppliedLogEntry 1) entry =
        some (db', result) ∧
      Certifies db db' (sampleFile 1) ∧ db.spans.get ⟨sampleFile 1, 0⟩ = some span ∧
      ¬ List.Forall₂ (ProvesOwn sampleCache) span.blocks (sampleCertifyWith 512).proofs := by
  have hprepare : prepareLogEntry sampleConfig 3 samplePick
      (.addSpanCertify (sampleCertifyWith 512)) = .ok (sampleCertifyEntry 512) := by
    decide +kernel
  simp only [exists_and_left]
  refine exists_eq_some_imp (fun db _ (h : SampleCertified db 512) => ?_) (by decide +kernel)
  obtain ⟨db', result, happly, hcertifies, span, hspan, hids⟩ := h
  refine ⟨db', _, hprepare, result, happly, hcertifies, span, hspan, fun hown => ?_⟩
  obtain ⟨block, hblock, hid⟩ := map_eq_singleton_iff.1 hids
  rw [hblock] at hown
  obtain ⟨hid', -⟩ := (forall₂_cons.1 hown).1
  exact absurd (hid'.trans hid) (by decide)

theorem certified_by_own_block : ∃ db db' span,
      run (shardStep sampleConfig) (initDb sampleConfig 0) sampleDirty = some db ∧
      Certifies db db' (sampleFile 1) ∧ db.spans.get ⟨sampleFile 1, 0⟩ = some span ∧
      List.Forall₂ (ProvesOwn sampleCache) span.blocks (sampleCertifyWith 256).proofs := by
  have hprepare : prepareLogEntry sampleConfig 3 samplePick
      (.addSpanCertify (sampleCertifyWith 256)) = .ok (sampleCertifyEntry 256) := by
    decide +kernel
  simp only [exists_and_left]
  refine exists_eq_some_imp (fun db _ (h : SampleCertified db 256) => ?_) (by decide +kernel)
  obtain ⟨db', result, happly, hcertifies, span, hspan, hids⟩ := h
  obtain ⟨span', hspan', hiff⟩ := (provesOwn_iff_carriesId hprepare happly).1 hcertifies
  obtain rfl := mem_unique hspan hspan'
  refine ⟨db', hcertifies, span, hspan, hiff.2 ?_⟩
  obtain ⟨block, hblock, hid⟩ := map_eq_singleton_iff.1 hids
  rw [hblock]
  exact .cons hid.symm .nil

end TernFS
