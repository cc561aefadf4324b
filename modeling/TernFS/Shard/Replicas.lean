/-
# Replicas

The replicas of a shard apply the same log entries, but each with its own cache of block services,
which it refreshes on its own.  Five kinds of entries look at the cache: the two that hand out
blocks to be written or erased need their services to be known, the two that certify need their
keys, and `SwapBlocks` compares failure domains.  An entry has the same outcome on all replicas
exactly when it does not get as far as that.
-/
import TernFS.Shard.BlockProofs
import TernFS.Shard.Failures

namespace TernFS

open Lib List Option

/-! ## Outcomes -/

/-- What a replica does with the next log entry, up to the body of the response: its new database
and the error code, or nothing if it goes down. -/
def replicaOutcome (cfg : ShardConfig) (cache : BlockServicesCache) (db : ShardDB)
    (logEntry : ShardLogEntry) : Option (ShardDB × Option TernError) :=
  (applyLogEntry cfg cache db (addU64 db.lastAppliedLogEntry 1) logEntry).map fun out =>
    (out.1, match out.2 with
      | .ok _ => none
      | .error e => some e)

/-- Two computations fail in the same way, if at all. -/
def SameFailure {α : Type} (x y : Checked α) : Prop := ∀ e, x = .error e ↔ y = .error e

/-- Two computations on a database have the same outcome, up to the response. -/
def SameOutcome (x y : Checked (ShardDB × ShardResp)) : Prop := Prod.fst <$> x = Prod.fst <$> y

section

variable {α β : Type} {x y : Checked α}

lemma SameFailure.refl (x : Checked α) : SameFailure x x := fun _ => Iff.rfl

/-- Both succeed, or both fail with the same error. -/
lemma SameFailure.cases (h : SameFailure x y) :
    (∃ a b, x = .ok a ∧ y = .ok b) ∨ ∃ e, x = .error e ∧ y = .error e := by
  cases hx : x with
  | error e => exact .inr ⟨e, rfl, (h e).1 hx⟩
  | ok a =>
    cases hy : y with
    | error e =>
      rw [(h e).2 hy] at hx
      cases hx
    | ok b => exact .inl ⟨a, b, rfl, rfl⟩

lemma sameFailure_mapM {f g : α → Checked β} {l : List α} (h : ∀ a ∈ l, SameFailure (f a) (g a)) :
    SameFailure (l.mapM f) (l.mapM g) := by
  induction l with
  | nil => exact .refl _
  | cons a l ih =>
    have ih := ih fun a' ha' => h a' (mem_cons_of_mem a ha')
    rw [mapM_cons, mapM_cons]
    rcases (h a mem_cons_self).cases with ⟨b, c, hf, hg⟩ | ⟨e, hf, hg⟩
    · rw [hf, hg, ok_bind, ok_bind]
      rcases ih.cases with ⟨bs, cs, hfs, hgs⟩ | ⟨e, hfs, hgs⟩
      · rw [hfs, hgs, ok_bind, ok_bind]
        intro e
        constructor <;> intro he <;> cases he
      · rw [hfs, hgs, error_bind, error_bind]
        exact .refl _
    · rw [hf, hg, error_bind, error_bind]
      exact .refl _

lemma SameOutcome.refl (x : Checked (ShardDB × ShardResp)) : SameOutcome x x := rfl

lemma sameOutcome_bind {f g : α → Checked (ShardDB × ShardResp)}
    (h : ∀ a, x = .ok a → SameOutcome (f a) (g a)) : SameOutcome (x >>= f) (x >>= g) := by
  cases x with
  | error => rfl
  | ok a => exact h a rfl

/-- The two only answer differently. -/
lemma SameFailure.sameOutcome (h : SameFailure x y) (db : ShardDB) (f : α → ShardResp) :
    SameOutcome (x >>= fun a => pure (db, f a)) (y >>= fun a => pure (db, f a)) := by
  rcases h.cases with ⟨a, b, rfl, rfl⟩ | ⟨e, rfl, rfl⟩
  · rfl
  · rfl

end

/-! ## Caches -/

/-- The two caches have the same key and failure domain for the service, or both do not know it. -/
def SameService (cache₁ cache₂ : BlockServicesCache) (blockService : ℕ) : Prop :=
  (cache₁ blockService).map (fun s => (s.secretKey, s.failureDomain)) =
    (cache₂ blockService).map fun s => (s.secretKey, s.failureDomain)

variable {blockService : ℕ}

section

variable {cfg : ShardConfig} {cache₁ cache₂ : BlockServicesCache} {db : ShardDB} {time : ℕ}
  {blocks : List BlockBody}

/-- Both know the service, with the same key and failure domain, or none does. -/
lemma SameService.cases (h : SameService cache₁ cache₂ blockService) :
    (∃ s₁ s₂, cache₁ blockService = some s₁ ∧ cache₂ blockService = some s₂ ∧
      s₁.secretKey = s₂.secretKey ∧ s₁.failureDomain = s₂.failureDomain) ∨
    cache₁ blockService = none ∧ cache₂ blockService = none := by
  unfold SameService at h
  cases h₁ : cache₁ blockService with
  | none =>
    rw [h₁, map_none, eq_comm, map_eq_none_iff] at h
    exact .inr ⟨rfl, h⟩
  | some s₁ =>
    rw [h₁, map_some, eq_comm, map_eq_some_iff] at h
    obtain ⟨s₂, hs₂, heq⟩ := h
    obtain ⟨hkey, hdomain⟩ := Prod.mk.inj heq
    exact .inl ⟨s₁, s₂, rfl, hs₂, hkey.symm, hdomain.symm⟩

lemma checkBlockAddProof_congr (h : SameService cache₁ cache₂ blockService) (proof : BlockProof) :
    checkBlockAddProof cache₁ blockService proof = checkBlockAddProof cache₂ blockService proof := by
  rcases h.cases with ⟨s₁, s₂, h₁, h₂, hkey, -⟩ | ⟨h₁, h₂⟩
  · simp only [checkBlockAddProof, h₁, h₂, orFail, ok_bind, hkey]
  · simp only [checkBlockAddProof, h₁, h₂]

lemma checkBlockDeleteProof_congr (h : SameService cache₁ cache₂ blockService)
    (proof : BlockProof) : checkBlockDeleteProof cache₁ blockService proof =
      checkBlockDeleteProof cache₂ blockService proof := by
  rcases h.cases with ⟨s₁, s₂, h₁, h₂, hkey, -⟩ | ⟨h₁, h₂⟩
  · simp only [checkBlockDeleteProof, h₁, h₂, orFail, ok_bind, hkey]
  · simp only [checkBlockDeleteProof, h₁, h₂]

lemma checkAddProofs_congr (h : ∀ block ∈ blocks, SameService cache₁ cache₂ block.blockService)
    (proofs : List BlockProof) :
    checkAddProofs cache₁ blocks proofs = checkAddProofs cache₂ blocks proofs := by
  induction blocks generalizing proofs with
  | nil => rfl
  | cons block blocks ih =>
    cases proofs with
    | nil => rfl
    | cons proof proofs =>
      have ih := ih (fun b hb => h b (mem_cons_of_mem _ hb)) proofs
      simp only [checkAddProofs, checkBlockAddProof_congr (h block mem_cons_self), ih]

lemma checkDeleteProofs_congr (h : ∀ block ∈ blocks, SameService cache₁ cache₂ block.blockService)
    (proofs : List BlockProof) (i : ℕ) :
    checkDeleteProofs cache₁ proofs i blocks = checkDeleteProofs cache₂ proofs i blocks := by
  induction blocks generalizing i with
  | nil => rfl
  | cons block blocks ih =>
    have ih := fun i => ih (fun b hb => h b (mem_cons_of_mem _ hb)) i
    simp only [checkDeleteProofs, checkBlockDeleteProof_congr (h block mem_cons_self), ih]

lemma checkDeleteProofsAt_congr {locs : List SpanBlocksBody}
    (h : ∀ block ∈ locs.flatMap SpanBlocksBody.blocks,
      SameService cache₁ cache₂ block.blockService) (proofs : List BlockProof) (i : ℕ) :
    checkDeleteProofsAt cache₁ proofs i locs = checkDeleteProofsAt cache₂ proofs i locs := by
  induction locs generalizing i with
  | nil => rfl
  | cons loc locs ih =>
    have ih := fun i => ih (fun b hb => h b (mem_append_right _ hb)) i
    simp only [checkDeleteProofsAt, ih,
      checkDeleteProofs_congr (fun b hb => h b (mem_append_left _ hb))]

lemma checkNoDuplicates_congr {i : ℕ} {newBlock : BlockBody}
    (h : ∀ block ∈ blocks, SameService cache₁ cache₂ block.blockService)
    (hnew : SameService cache₁ cache₂ newBlock.blockService) :
    checkNoDuplicates cache₁ blocks i newBlock = checkNoDuplicates cache₂ blocks i newBlock := by
  rcases hnew.cases with ⟨n₁, n₂, hn₁, hn₂, -, hdomain⟩ | ⟨hn₁, hn₂⟩
  · simp only [checkNoDuplicates, hn₁, hn₂, orFail, ok_bind, hdomain]
    refine forM_congr fun block hblock => ?_
    rcases (h block (mem_of_mem_eraseIdx hblock)).cases with
      ⟨s₁, s₂, h₁, h₂, -, hdomain'⟩ | ⟨h₁, h₂⟩
    · simp only [h₁, h₂, ok_bind, hdomain']
    · simp only [h₁, h₂]
  · simp only [checkNoDuplicates, hn₁, hn₂, orFail, error_bind]

/-- The caches know the same services of the blocks, so that looking them all up fails for both or for
none. -/
lemma sameFailure_lookup {α : Type} {f₁ f₂ : BlockBody → BlockServiceInfo → α}
    (h : ∀ block ∈ blocks, SameService cache₁ cache₂ block.blockService) :
    SameFailure (blocks.mapM fun b => orFail .crash (cache₁ b.blockService) >>= fun s => pure (f₁ b s))
      (blocks.mapM fun b => orFail .crash (cache₂ b.blockService) >>= fun s => pure (f₂ b s)) := by
  refine sameFailure_mapM fun block hblock => ?_
  rcases (h block hblock).cases with ⟨s₁, s₂, h₁, h₂, -⟩ | ⟨h₁, h₂⟩
  · simp only [h₁, h₂, orFail, ok_bind]
    intro e
    constructor <;> intro he <;> cases he
  · simp only [h₁, h₂, orFail, error_bind]
    exact .refl _

end

/-! ## Entries that look at the cache -/

section

variable (cfg : ShardConfig) (db : ShardDB) (time : ℕ)

/-- `SwapBlocks` gets as far as the failure domains: both blocks are found in spans of the same
state, and they match. -/
inductive SwapBlocksReq.Consults (r : SwapBlocksReq) : SpanBody → SpanBody → Prop
  | intro {span₁ span₂ : SpanBody} {state : SpanState} {found₁ found₂ : FoundBlock}
      (hspan₁ : db.spans.get ⟨r.fileId1, r.byteOffset1⟩ = some span₁)
      (hspan₂ : db.spans.get ⟨r.fileId2, r.byteOffset2⟩ = some span₂)
      (hstate₁ : fetchSpanState db r.fileId1 (addU64 r.byteOffset1 span₁.size) = .ok state)
      (hstate₂ : fetchSpanState db r.fileId2 (addU64 r.byteOffset2 span₂.size) = .ok state)
      (hfound₁ : findBlockIn r.blockId1 span₁.locations = some found₁)
      (hfound₂ : findBlockIn r.blockId2 span₂.locations = some found₂)
      (hsize : found₁.loc.blockSize = found₂.loc.blockSize)
      (hcrc : found₁.block.crc = found₂.block.crc)
      (hlocation : found₁.loc.location = found₂.loc.location) :
    Consults r span₁ span₂

/-- `AddSpanCertify` gets as far as the proofs: the last span is dirty and has blocks at one
location, and there are as many proofs. -/
inductive SpanCertifyEntry.AddConsults (e : SpanCertifyEntry) : SpanBody → Prop
  | intro {batch : ShardDB} {file : TransientFileBody} {span : SpanBody} {loc : SpanBlocksBody}
      (hinit : initiateTransientFileModification cfg db db time false e.fileId = .ok (batch, file))
      (hspan : db.spans.get ⟨e.fileId, e.byteOffset⟩ = some span)
      (hend : file.fileSize ≤ addU64 e.byteOffset span.spanSize)
      (hdirty : file.lastSpanState = .dirty) (hstorage : span.storage = .blocks loc [])
      (hlength : loc.parity.blocks = e.proofs.length) :
    AddConsults e span

/-- `RemoveSpanCertify` gets as far as the first MAC: the span has blocks and its file is condemned,
there are enough proofs for the first location, and the first one is for the first block. -/
inductive SpanCertifyEntry.RemoveConsults (e : SpanCertifyEntry) : SpanBody → Prop
  | intro {batch : ShardDB} {file : TransientFileBody} {span : SpanBody} {loc : SpanBlocksBody}
      {rest : List SpanBlocksBody} {block : BlockBody} {proof : BlockProof}
      (hinit : initiateTransientFileModification cfg db db time true e.fileId = .ok (batch, file))
      (hspan : db.spans.get ⟨e.fileId, e.byteOffset⟩ = some span)
      (hcondemned : file.lastSpanState = .condemned) (hstorage : span.storage = .blocks loc rest)
      (hlength : loc.parity.blocks ≤ e.proofs.length) (hblock : loc.blocks.head? = some block)
      (hproof : e.proofs.head? = some proof) (hid : block.blockId = proof.blockId) :
    RemoveConsults e span

/-- `RemoveSpanInitiate` gets as far as the certificates: the file is not empty, and its last span
has blocks. -/
inductive RemoveSpanConsults (f : InodeId) : SpanBody → Prop
  | intro {batch : ShardDB} {file : TransientFileBody} {key : SpanKey} {span : SpanBody}
      (hinit : initiateTransientFileModification cfg db db time true f = .ok (batch, file))
      (hsize : file.fileSize ≠ 0)
      (hlast : db.spans.seekForPrev ⟨f, file.fileSize⟩ = some (key, span)) (hkey : key.fileId = f)
      (hblocks : ¬ span.IsInlineStorage) :
    RemoveSpanConsults f span

/-- `AddSpanInitiate` gets as far as the certificates: the span is there already, or it can be
added.  These are the services of its blocks. -/
inductive AddSpanAtLocationInitiateEntry.Consults (e : AddSpanAtLocationInitiateEntry) :
    List ℕ → Prop
  | again {batch : ShardDB} {file : TransientFileBody} {existing : SpanBody} {loc : SpanBlocksBody}
      (hinit : initiateTransientFileModification cfg db db time false e.fileId = .ok (batch, file))
      (hoffset : file.fileSize ≠ e.byteOffset)
      (hend : file.fileSize = addU64 e.byteOffset e.size)
      (hspan : db.spans.get ⟨e.fileId, e.byteOffset⟩ = some existing)
      (hsame : sameSpanAgain existing e = some loc) :
    Consults e (loc.blocks.map BlockBody.blockService)
  | add {batch : ShardDB} {file : TransientFileBody}
      (hinit : initiateTransientFileModification cfg db db time false e.fileId = .ok (batch, file))
      (hoffset : file.fileSize = e.byteOffset) (hclean : file.lastSpanState = .clean)
      (halloc : e.Allocates) :
    Consults e ((e.bodyBlocks.take e.parity.blocks).map EntryNewBlockInfo.blockServiceId)

/-- The entry looks these services up in the cache. -/
inductive ShardLogEntryBody.Consults : ShardLogEntryBody → List ℕ → Prop
  | swapBlocks {r : SwapBlocksReq} {span₁ span₂ : SpanBody} (h : r.Consults db span₁ span₂) :
    Consults (.swapBlocks r) ((span₁.blocks ++ span₂.blocks).map BlockBody.blockService)
  | addSpanCertify {e : SpanCertifyEntry} {span : SpanBody} (h : e.AddConsults cfg db time span) :
    Consults (.addSpanCertify e) (span.blocks.map BlockBody.blockService)
  | removeSpanCertify {e : SpanCertifyEntry} {span : SpanBody}
      (h : e.RemoveConsults cfg db time span) :
    Consults (.removeSpanCertify e) (span.blocks.map BlockBody.blockService)
  | removeSpanInitiate {f : InodeId} {span : SpanBody} (h : RemoveSpanConsults cfg db time f span) :
    Consults (.removeSpanInitiate f) (span.blocks.map BlockBody.blockService)
  | addSpanInitiate {e : AddSpanAtLocationInitiateEntry} {services : List ℕ}
      (h : e.Consults cfg db time services) : Consults (.addSpanAtLocationInitiate e) services

end

/-! ## The same outcome for caches that agree -/

section

variable {cfg : ShardConfig} {cache₁ cache₂ : BlockServicesCache} {db : ShardDB} {time : ℕ}

lemma applySwapBlocks_congr {r : SwapBlocksReq}
    (h : ∀ span₁ span₂, r.Consults db span₁ span₂ → ∀ block ∈ span₁.blocks ++ span₂.blocks,
      SameService cache₁ cache₂ block.blockService) :
    SameOutcome (applySwapBlocks cache₁ db r) (applySwapBlocks cache₂ db r) := by
  refine sameOutcome_bind fun span₁ hspan₁ => sameOutcome_bind fun span₂ hspan₂ =>
    sameOutcome_bind fun _ _ => sameOutcome_bind fun state₁ hstate₁ =>
    sameOutcome_bind fun state₂ hstate₂ => sameOutcome_bind fun _ hstate => ?_
  rw [orFail_eq_ok] at hspan₁ hspan₂
  rw [check_eq_ok] at hstate
  subst hstate
  split
  · rename_i found₁ found₂ hfound₁ hfound₂
    refine sameOutcome_bind fun _ hsize => sameOutcome_bind fun _ hcrc =>
      sameOutcome_bind fun _ hlocation => ?_
    rw [check_eq_ok] at hsize hcrc hlocation
    have hsame := h span₁ span₂
      ⟨hspan₁, hspan₂, hstate₁, hstate₂, hfound₁, hfound₂, hsize, hcrc, hlocation⟩
    obtain ⟨hmem₁, hblock₁⟩ := SpanBody.mem_blocks_of_findBlockIn hfound₁
    obtain ⟨hmem₂, hblock₂⟩ := SpanBody.mem_blocks_of_findBlockIn hfound₂
    have hcheck₁ : checkNoDuplicates cache₁ found₁.loc.blocks found₁.blockIdx found₂.block =
        checkNoDuplicates cache₂ found₁.loc.blocks found₁.blockIdx found₂.block :=
      checkNoDuplicates_congr (fun b hb => hsame b (mem_append_left _ (hmem₁ b hb)))
        (hsame _ (mem_append_right _ hblock₂))
    have hcheck₂ : checkNoDuplicates cache₁ found₂.loc.blocks found₂.blockIdx found₁.block =
        checkNoDuplicates cache₂ found₂.loc.blocks found₂.blockIdx found₁.block :=
      checkNoDuplicates_congr (fun b hb => hsame b (mem_append_right _ (hmem₂ b hb)))
        (hsame _ (mem_append_left _ hblock₁))
    rw [hcheck₁, hcheck₂]
    exact .refl _
  · exact .refl _
  · exact .refl _

lemma applyAddSpanCertify_congr {e : SpanCertifyEntry}
    (h : ∀ span, e.AddConsults cfg db time span → ∀ block ∈ span.blocks,
      SameService cache₁ cache₂ block.blockService) :
    SameOutcome (applyAddSpanCertify cfg cache₁ db time e)
      (applyAddSpanCertify cfg cache₂ db time e) := by
  refine sameOutcome_bind fun ⟨batch, file⟩ hinit => sameOutcome_bind fun span hspan => ?_
  rw [orFail_eq_ok] at hspan
  split_ifs with hdone
  · exact .refl _
  refine sameOutcome_bind fun _ hcondemned => ?_
  rw [check_eq_ok] at hcondemned
  split
  · exact .refl _
  rename_i loc rest hstorage
  refine sameOutcome_bind fun _ hrest => sameOutcome_bind fun _ hlength => ?_
  rw [assert_eq_ok] at hrest
  rw [check_eq_ok] at hlength
  subst hrest
  have hdirty : file.lastSpanState = .dirty := by
    cases hstate : file.lastSpanState with
    | clean => exact absurd (.inr hstate) hdone
    | dirty => rfl
    | condemned => exact absurd hstate hcondemned
  have hend : file.fileSize ≤ addU64 e.byteOffset span.spanSize :=
    Nat.le_of_not_lt fun hlt => hdone (.inl hlt)
  have hsame := h span ⟨hinit, hspan, hend, hdirty, hstorage, hlength⟩
  have hblocks : span.blocks = loc.blocks := by
    simp [SpanBody.blocks, SpanBody.locations, hstorage]
  rw [hblocks] at hsame
  rw [checkAddProofs_congr hsame]
  exact .refl _

lemma applyRemoveSpanInitiate_congr {f : InodeId}
    (h : ∀ span, RemoveSpanConsults cfg db time f span → ∀ block ∈ span.blocks,
      SameService cache₁ cache₂ block.blockService) :
    SameOutcome (applyRemoveSpanInitiate cfg cache₁ db time f)
      (applyRemoveSpanInitiate cfg cache₂ db time f) := by
  refine sameOutcome_bind fun ⟨batch, file⟩ hinit => sameOutcome_bind fun _ hsize =>
    sameOutcome_bind fun ⟨key, span⟩ hlast => sameOutcome_bind fun _ hkey => ?_
  rw [check_eq_ok] at hsize
  rw [orFail_eq_ok] at hlast
  rw [assert_eq_ok] at hkey
  split_ifs with hinline
  · exact .refl _
  · have hsame := h span ⟨hinit, hsize, hlast, hkey, hinline⟩
    exact (sameFailure_lookup hsame).sameOutcome _ _

lemma applyAddSpanInitiate_congr {e : AddSpanAtLocationInitiateEntry}
    (h : ∀ services, e.Consults cfg db time services → ∀ s ∈ services,
      SameService cache₁ cache₂ s) :
    SameOutcome (applyAddSpanInitiate cfg cache₁ db time e)
      (applyAddSpanInitiate cfg cache₂ db time e) := by
  refine sameOutcome_bind fun ⟨batch, file⟩ hinit => ?_
  dsimp only
  split_ifs with hoffset
  · refine sameOutcome_bind fun _ hend => sameOutcome_bind fun existing hspan =>
      sameOutcome_bind fun loc hloc => ?_
    rw [check_eq_ok] at hend
    rw [orFail_eq_ok] at hspan hloc
    have hsame := h _ (.again hinit hoffset hend hspan hloc)
    refine (sameFailure_lookup fun block hblock => ?_).sameOutcome _ _
    exact hsame _ (mem_map_of_mem hblock)
  · refine sameOutcome_bind fun _ hclean => sameOutcome_bind fun loc hloc => ?_
    rw [check_eq_ok] at hclean
    rw [orFail_eq_ok] at hloc
    have hsame := h _ (.add hinit (not_not.1 hoffset) hclean
      (AddSpanAtLocationInitiateEntry.allocates_of_alloc hloc))
    refine (sameFailure_lookup fun block hblock => ?_).sameOutcome _ _
    simp only [SpanBlocksBody.alloc, dite_none_right_eq_some, some.injEq] at hloc
    obtain ⟨_, rfl⟩ := hloc
    obtain ⟨entryBlock, hmem, hservice⟩ := exists_of_mem_newBlocks hblock
    exact hsame _ (mem_map.2 ⟨entryBlock, hmem, hservice⟩)

lemma SpanBlocksBody.blocks_ne_nil (loc : SpanBlocksBody) : loc.blocks ≠ [] := by
  intro hnil
  have hlength := loc.blocks_length
  have hdata := loc.allocated.2.1
  rw [hnil, length_nil, Parity.blocks] at hlength
  omega

lemma applyRemoveSpanCertify_congr {e : SpanCertifyEntry}
    (h : ∀ span, e.RemoveConsults cfg db time span → ∀ block ∈ span.blocks,
      SameService cache₁ cache₂ block.blockService) :
    SameOutcome (applyRemoveSpanCertify cfg cache₁ db time e)
      (applyRemoveSpanCertify cfg cache₂ db time e) := by
  refine sameOutcome_bind fun ⟨batch, file⟩ hinit => ?_
  dsimp only
  split
  · exact .refl _
  rename_i span hspan
  refine sameOutcome_bind fun _ hinline => sameOutcome_bind fun _ hcondemned => ?_
  rw [check_eq_ok] at hinline hcondemned
  have hproofs : checkDeleteProofsAt cache₁ e.proofs 0 span.locations =
      checkDeleteProofsAt cache₂ e.proofs 0 span.locations := by
    cases hstorage : span.storage with
    | inline => exact absurd (by simp [SpanBody.IsInlineStorage, hstorage]) hinline
    | blocks loc rest =>
      have hlocs : span.locations = loc :: rest := by simp [SpanBody.locations, hstorage]
      obtain ⟨block, blocks, hblocks⟩ := exists_cons_of_ne_nil loc.blocks_ne_nil
      by_cases hlength : loc.parity.blocks ≤ e.proofs.length
      · have hne : e.proofs ≠ [] := by
          intro hnil
          have hcount := loc.blocks_length
          rw [hblocks, length_cons] at hcount
          rw [hnil, length_nil] at hlength
          omega
        obtain ⟨proof, proofs, hproofs⟩ := exists_cons_of_ne_nil hne
        by_cases hid : block.blockId = proof.blockId
        · exact checkDeleteProofsAt_congr (h span ⟨hinit, hspan, hcondemned, hstorage, hlength,
            by rw [hblocks, head?_cons], by rw [hproofs, head?_cons], hid⟩) e.proofs 0
        · -- the first proof is for another block
          simp only [hlocs, checkDeleteProofsAt, hblocks, checkDeleteProofs, hproofs,
            getElem?_cons_zero, orFail, ok_bind, check_of_not hid, error_bind]
      · have hlength' : ¬ 0 + loc.parity.blocks ≤ e.proofs.length := by rwa [Nat.zero_add]
        simp only [hlocs, checkDeleteProofsAt, check_of_not hlength', error_bind]
  rw [hproofs]
  exact .refl _

end

/-! ## Caches that make a difference -/

/-- A cache without block services. -/
def emptyCache : BlockServicesCache := fun _ => none

/-- A cache with every block service. -/
def fullCache : BlockServicesCache := fun _ => some ⟨expandKey [], [], [], 0⟩

variable {body : ShardLogEntryBody} {logEntry : ShardLogEntry}

section

variable {cfg : ShardConfig} {db : ShardDB} {time : ℕ}

lemma fullCache_knownOr (P : Failure → Prop) (blocks : List BlockBody) :
    fullCache.KnownOr P blocks := by
  intro block _ hnone
  cases hnone

lemma fillInAddSpanInitiate_emptyCache (loc : SpanBlocksBody) :
    fillInAddSpanInitiate emptyCache loc = .error .crash := by
  obtain ⟨block, blocks, hblocks⟩ := exists_cons_of_ne_nil loc.blocks_ne_nil
  simp [fillInAddSpanInitiate, hblocks, emptyCache, orFail, error_bind]

lemma fillInRemoveSpanInitiate_emptyCache {span : SpanBody} (h : ¬ span.IsInlineStorage) :
    fillInRemoveSpanInitiate emptyCache span = .error .crash := by
  cases hstorage : span.storage with
  | inline => exact absurd (by simp [SpanBody.IsInlineStorage, hstorage]) h
  | blocks loc =>
    obtain ⟨block, blocks, hblocks⟩ := exists_cons_of_ne_nil loc.blocks_ne_nil
    simp [fillInRemoveSpanInitiate, SpanBody.blocks, SpanBody.locations, hstorage, hblocks,
      emptyCache, orFail, error_bind]

lemma SpanBody.not_isInlineStorage_of_findBlockIn {blockId : ℕ} {s : SpanBody} {found : FoundBlock}
    (h : findBlockIn blockId s.locations = some found) : ¬ s.IsInlineStorage := by
  intro hinline
  have hmem := (SpanBody.mem_blocks_of_findBlockIn h).2
  rw [s.blocks_of_isInlineStorage hinline] at hmem
  cases hmem

/-- An entry that looks at the cache takes a replica down that does not know any service. -/
lemma crash_of_consults {services : List ℕ} (h : body.Consults cfg db time services) :
    applyEntryBody cfg emptyCache db time body = .error .crash := by
  cases h with
  | swapBlocks h =>
    rename_i r span₁ span₂
    obtain ⟨hspan₁, hspan₂, hstate₁, hstate₂, hfound₁, hfound₂, hsize, hcrc, hlocation⟩ := h
    have hblocks : ¬ span₁.IsInlineStorage ∧ ¬ span₂.IsInlineStorage :=
      ⟨SpanBody.not_isInlineStorage_of_findBlockIn hfound₁,
        SpanBody.not_isInlineStorage_of_findBlockIn hfound₂⟩
    simp only [applyEntryBody, applySwapBlocks, hspan₁, hspan₂, orFail, ok_bind, check_of hblocks,
      hstate₁, hstate₂, check_of trivial, hfound₁, hfound₂, check_of hsize, check_of hcrc,
      check_of hlocation, checkNoDuplicates, emptyCache, error_bind]
  | addSpanCertify h =>
    rename_i e span
    obtain @⟨batch, file, _, loc, hinit, hspan, hend, hdirty, hstorage, hlength⟩ := h
    obtain ⟨block, blocks, hblocks⟩ := exists_cons_of_ne_nil loc.blocks_ne_nil
    obtain ⟨proof, proofs, hproofs⟩ : ∃ proof proofs, e.proofs = proof :: proofs := by
      refine exists_cons_of_length_pos ?_
      rw [← hlength, ← loc.blocks_length]
      exact length_pos_iff.2 loc.blocks_ne_nil
    have hdone : ¬ (addU64 e.byteOffset span.spanSize < file.fileSize ∨
        file.lastSpanState = .clean) := by
      rw [hdirty]
      rintro (hlt | hclean)
      · omega
      · cases hclean
    have hcondemned : file.lastSpanState ≠ .condemned := by
      rw [hdirty]
      decide
    simp only [applyEntryBody, applyAddSpanCertify, hinit, ok_bind, hspan, orFail, if_neg hdone,
      check_of hcondemned, hstorage, assert, ensure_of trivial, check_of hlength]
    simp only [hblocks, hproofs, checkAddProofs, checkBlockAddProof, emptyCache, orFail, error_bind]
  | removeSpanCertify h =>
    rename_i e span
    obtain @⟨batch, file, _, loc, rest, block, proof, hinit, hspan, hcondemned, hstorage, hlength,
      hblock, hproof, hid⟩ := h
    obtain ⟨blocks, hblocks⟩ := head?_eq_some_iff.1 hblock
    obtain ⟨proofs, hproofs⟩ := head?_eq_some_iff.1 hproof
    have hinline : ¬ span.IsInlineStorage := by simp [SpanBody.IsInlineStorage, hstorage]
    have hlength' : 0 + loc.parity.blocks ≤ e.proofs.length := by rwa [Nat.zero_add]
    have hlocs : span.locations = loc :: rest := by simp [SpanBody.locations, hstorage]
    simp only [applyEntryBody, applyRemoveSpanCertify, hinit, ok_bind, hspan, check_of hinline,
      check_of hcondemned, hlocs, checkDeleteProofsAt, check_of hlength']
    simp only [hblocks, hproofs, checkDeleteProofs, getElem?_cons_zero, orFail, ok_bind,
      check_of hid, checkBlockDeleteProof, emptyCache, error_bind]
  | removeSpanInitiate h =>
    obtain ⟨hinit, hsize, hlast, hkey, hblocks⟩ := h
    simp only [applyEntryBody, applyRemoveSpanInitiate, hinit, ok_bind, check_of hsize, hlast,
      orFail, assert, ensure_of hkey, if_neg hblocks, fillInRemoveSpanInitiate_emptyCache hblocks,
      error_bind]
  | addSpanInitiate h =>
    cases h with
    | again hinit hoffset hend hspan hsame =>
      simp only [applyEntryBody, applyAddSpanInitiate, hinit, ok_bind, if_pos hoffset,
        check_of hend, hspan, orFail, hsame, fillInAddSpanInitiate_emptyCache, error_bind]
    | add hinit hoffset hclean halloc =>
      obtain ⟨loc, hloc⟩ := ne_none_iff_exists'.1 (halloc.alloc_ne_none cfg time db.nextBlockId)
      simp only [applyEntryBody, applyAddSpanInitiate, hinit, ok_bind,
        if_neg (not_not.2 hoffset), check_of hclean, hloc, orFail,
        fillInAddSpanInitiate_emptyCache, error_bind]

/-- It does not take a replica down that knows all services. -/
lemma failsOnly_of_consults {services : List ℕ} (h : body.Consults cfg db time services) :
    FailsOnly (· ≠ .crash) (applyEntryBody cfg fullCache db time body) := by
  have hknown : ∀ k span, db.spans.get k = some span → fullCache.KnownOr (· ≠ .crash) span.blocks :=
    fun _ span _ => fullCache_knownOr _ span.blocks
  cases h with
  | swapBlocks h =>
    obtain ⟨hspan₁, hspan₂, hstate₁, hstate₂, -⟩ := h
    have hallows : Allows (· ≠ .crash) cfg db := allows_err
    exact applySwapBlocks_failsOnly hallows hknown
      (fun _ _ hthere => absurd (ShardDB.fileThere_of_fetchSpanState hstate₁) hthere)
      (fun _ _ hthere => absurd (ShardDB.fileThere_of_fetchSpanState hstate₂) hthere)
  | addSpanCertify h =>
    obtain ⟨hinit, hspan, hend, hdirty, hstorage, hlength⟩ := h
    refine applyAddSpanCertify_failsOnly allows_err hknown fun file span' _ hspan' _ _ hlocs => ?_
    obtain rfl := mem_unique hspan hspan'
    simp [SpanBody.locations, hstorage] at hlocs
  | removeSpanCertify => exact applyRemoveSpanCertify_failsOnly allows_err hknown
  | removeSpanInitiate h =>
    obtain @⟨batch, file, key, _, hinit, hsize, hlast, hkey, hblocks⟩ := h
    refine applyRemoveSpanInitiate_failsOnly allows_err hknown fun file' hfile' _ hother => ?_
    obtain ⟨old, hold, -, -, hsame, -⟩ := initiateTransientFileModification_eq_ok hinit
    obtain rfl := mem_unique hold hfile'
    rw [hsame] at hlast
    exact absurd hkey (hother _ hlast)
  | addSpanInitiate h =>
    cases h with
    | again hinit hoffset hend hspan hsame =>
      obtain ⟨old, hold, -, -, hsame, -⟩ := initiateTransientFileModification_eq_ok hinit
      refine applyAddSpanInitiate_failsOnly allows_err (fun file hfile hsize => ?_)
        (fun _ _ hnone => by cases hnone) hknown
      obtain rfl := mem_unique hold hfile
      exact absurd (hsame.trans hsize) hoffset
    | add hinit hoffset hclean halloc =>
      exact applyAddSpanInitiate_failsOnly allows_err (fun _ _ _ => absurd halloc)
        (fun _ _ hnone => by cases hnone) hknown

/-- Caches that agree on the services that are looked up do not make a difference. -/
lemma applyEntryBody_congr {cache₁ cache₂ : BlockServicesCache}
    (h : ∀ services, body.Consults cfg db time services → ∀ s ∈ services,
      SameService cache₁ cache₂ s) :
    SameOutcome (applyEntryBody cfg cache₁ db time body)
      (applyEntryBody cfg cache₂ db time body) := by
  cases body with
  | swapBlocks =>
    exact applySwapBlocks_congr fun _ _ hr block hblock =>
      h _ (.swapBlocks hr) _ (mem_map_of_mem hblock)
  | addSpanCertify =>
    exact applyAddSpanCertify_congr fun _ he block hblock =>
      h _ (.addSpanCertify he) _ (mem_map_of_mem hblock)
  | removeSpanCertify =>
    exact applyRemoveSpanCertify_congr fun _ he block hblock =>
      h _ (.removeSpanCertify he) _ (mem_map_of_mem hblock)
  | removeSpanInitiate =>
    exact applyRemoveSpanInitiate_congr fun _ hf block hblock =>
      h _ (.removeSpanInitiate hf) _ (mem_map_of_mem hblock)
  | addSpanAtLocationInitiate =>
    exact applyAddSpanInitiate_congr fun services he => h services (.addSpanInitiate he)
  | _ => exact .refl _

lemma replicaOutcome_congr {cache₁ cache₂ : BlockServicesCache}
    (h : SameOutcome (applyEntryBody cfg cache₁ db logEntry.time logEntry.body)
      (applyEntryBody cfg cache₂ db logEntry.time logEntry.body)) :
    replicaOutcome cfg cache₁ db logEntry = replicaOutcome cfg cache₂ db logEntry := by
  simp only [replicaOutcome, applyLogEntry, if_true]
  generalize applyEntryBody cfg cache₁ db logEntry.time logEntry.body = x at h ⊢
  generalize applyEntryBody cfg cache₂ db logEntry.time logEntry.body = y at h ⊢
  rcases x with e | ⟨batch, resp⟩ <;> rcases y with e' | ⟨batch', resp'⟩ <;> cases h <;> rfl

/-- The replica goes down when applying the body takes it down. -/
lemma replicaOutcome_eq_none_iff {cache : BlockServicesCache} :
    replicaOutcome cfg cache db logEntry = none ↔
      applyEntryBody cfg cache db logEntry.time logEntry.body = .error .crash := by
  simp only [replicaOutcome, applyLogEntry, if_true, map_eq_none_iff]
  cases applyEntryBody cfg cache db logEntry.time logEntry.body with
  | ok => simp
  | error e =>
    cases e with
    | err | crash => simp

end

/-! ## Determinism -/

/-- Two replicas with the same database do the same with a log entry if their caches agree on the
services that the entry looks up.  They do the same whatever their caches are exactly when the entry
does not look at the cache. -/
theorem replicaOutcome_eq_iff (cfg : ShardConfig) (db : ShardDB) (logEntry : ShardLogEntry) :
    (∀ cache₁ cache₂, (∀ services, logEntry.body.Consults cfg db logEntry.time services →
        ∀ s ∈ services, SameService cache₁ cache₂ s) →
      replicaOutcome cfg cache₁ db logEntry = replicaOutcome cfg cache₂ db logEntry) ∧
    ((∀ cache₁ cache₂, replicaOutcome cfg cache₁ db logEntry =
        replicaOutcome cfg cache₂ db logEntry) ↔
      ∀ services, ¬ logEntry.body.Consults cfg db logEntry.time services) := by
  refine ⟨fun cache₁ cache₂ h => replicaOutcome_congr (applyEntryBody_congr h), ?_⟩
  constructor
  · -- one replica does not know any service, and the other one knows them all
    intro h services hconsults
    have hnone := replicaOutcome_eq_none_iff.2 (crash_of_consults hconsults)
    rw [h emptyCache fullCache, replicaOutcome_eq_none_iff] at hnone
    exact failsOnly_of_consults hconsults _ hnone rfl
  · intro h cache₁ cache₂
    exact replicaOutcome_congr (applyEntryBody_congr fun services hs => absurd hs (h services))

/-- A replica with another key for the services. -/
def sampleOtherKey : BlockServicesCache := fun i =>
  (sampleCache i).map fun s => { s with secretKey := expandKey [1] }

/-- A replica that knows service 1 only if it is up to date. -/
def sampleReplica (upToDate : Bool) : BlockServicesCache := fun i =>
  if i = 1 then if upToDate then sampleCache 1 else none else none

/-- What comes of certifying the block 256: the error, and the state of the last span. -/
def sampleOutcome (cache : BlockServicesCache) (db : ShardDB) :
    Option (Option TernError × Option SpanState) :=
  (replicaOutcome sampleConfig cache db (sampleCertifyEntry 256)).map fun out =>
    (out.2, (out.1.transientFiles.get (sampleFile 1)).map (·.lastSpanState))

/-- A span is added to a file, and its block is certified.  The file becomes clean on one replica.
It stays dirty on one that has another key for the service, where the proof is wrong, and a replica
that has not heard of the service goes down. -/
theorem replicaOutcome_ne :
    ∃ db, run (shardStep sampleConfig) (initDb sampleConfig 0) sampleDirty = some db ∧
      prepareLogEntry sampleConfig 3 samplePick (.addSpanCertify (sampleCertifyWith 256)) =
        .ok (sampleCertifyEntry 256) ∧
      sampleOutcome sampleCache db = some (none, some .clean) ∧
      sampleOutcome sampleOtherKey db = some (some .badBlockProof, some .dirty) ∧
      sampleOutcome (sampleReplica false) db = none := by
  decide +kernel

/-- Replicas that know service 1 agree, whatever other services they know, and all replicas agree on
an entry that removes a directory. -/
theorem replicaOutcome_eq_of_service_one :
    ∃ db, run (shardStep sampleConfig) (initDb sampleConfig 0) sampleDirty = some db ∧
      replicaOutcome sampleConfig sampleCache db (sampleCertifyEntry 256) =
        replicaOutcome sampleConfig (sampleReplica true) db (sampleCertifyEntry 256) ∧
      ∀ cache₁ cache₂, replicaOutcome sampleConfig cache₁ db ⟨3, .removeInode ⟨sampleDir⟩⟩ =
        replicaOutcome sampleConfig cache₂ db ⟨3, .removeInode ⟨sampleDir⟩⟩ := by
  refine exists_eq_some_imp (fun db _ (h : ∃ span, db.spans.get ⟨sampleFile 1, 0⟩ = some span ∧
    span.blocks.map BlockBody.blockService = [1]) => ?_) (by decide +kernel)
  obtain ⟨span, hspan, hservices⟩ := h
  refine ⟨(replicaOutcome_eq_iff _ _ _).1 _ _ ?_, (replicaOutcome_eq_iff _ _ _).2.2 ?_⟩
  · rintro services (_ | @⟨_, span', ⟨-, hspan', -⟩⟩) s hs
    obtain rfl := mem_unique hspan hspan'
    rw [hservices, mem_singleton] at hs
    subst hs
    rfl
  · intro services h
    cases h

end TernFS
