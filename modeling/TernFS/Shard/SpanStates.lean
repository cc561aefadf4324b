/-
# Blocks that must not be read stay out of reach

A block that has not been certified, or whose erasure has been handed out, is in the last span of
a transient file.  No request moves such a block to a span that is clean, if `SwapBlocks` and
`SwapSpans` find the states of the spans they are given.  They need not: the end of a span is
computed from the length of its record and not from its size.
-/
import TernFS.FileModel.SpanStates
import TernFS.Shard.Index

namespace TernFS

open Lib

namespace ShardDB

variable (db : ShardDB)

/-- The state of a span: that of its file if the file is transient and the span ends where the
file does, and clean otherwise. -/
def spanState (k : SpanKey) : SpanState :=
  match db.spans.get k, db.transientFiles.get k.fileId with
  | some span, some file =>
    if addU64 k.offset span.spanSize = file.fileSize then file.lastSpanState else .clean
  | _, _ => .clean

/-- The blocks of a span, none if there is no such span. -/
def blocksAt (k : SpanKey) : List BlockBody := ((db.spans.get k).map SpanBody.blocks).getD []

/-- A block leaves one span and enters another. -/
def Moves (db' : ShardDB) (block : BlockBody) (k k' : SpanKey) : Prop :=
  k ≠ k' ∧ (db'.blocksAt k).count block < (db.blocksAt k).count block ∧
    (db.blocksAt k').count block < (db'.blocksAt k').count block

instance (db' : ShardDB) (block : BlockBody) (k k' : SpanKey) :
    Decidable (db.Moves db' block k k') :=
  inferInstanceAs (Decidable (_ ∧ _))

/-- The record of the span is as long as the span, as far as the end of the file is concerned. -/
def StateRead (f : InodeId) (byteOffset : ℕ) : Prop :=
  ∀ span ∈ db.spans.get ⟨f, byteOffset⟩, ∀ file ∈ db.transientFiles.get f,
    file.lastSpanState = .clean ∨
      (addU64 byteOffset span.size = file.fileSize ↔ addU64 byteOffset span.spanSize = file.fileSize)

instance (f : InodeId) (byteOffset : ℕ) : Decidable (db.StateRead f byteOffset) := by
  unfold StateRead
  infer_instance

variable {db}

lemma fileView_spanState (k : SpanKey) : db.fileView.spanState k = db.spanState k := by
  unfold FileView.spanState spanState
  simp only [fileView, transientView]
  cases db.spans.get k <;> cases db.transientFiles.get k.fileId <;> rfl

/-- A file that is read as linked or not at all has clean spans. -/
lemma StateRead.stateFound {f : InodeId} {byteOffset : ℕ} (h : db.StateRead f byteOffset)
    (hdistinct : db.fileView.Distinct) : db.fileView.StateFound ⟨f, byteOffset⟩ := by
  intro span hspan
  rw [fileView_spanState]
  have hget : db.spans.get ⟨f, byteOffset⟩ = some span := hspan
  cases htransient : db.transientFiles.get f with
  | none =>
    have hnone : db.fileView.transient f = none := by simp [fileView, transientView, htransient]
    simp only [FileView.spanStateAt, spanState, hget, htransient, hnone]
    cases db.fileView.linked f <;> rfl
  | some file =>
    have hf : db.fileView.transient f = some (file.fileSize, file.lastSpanState) := by
      simp [fileView, transientView, htransient]
    simp only [FileView.spanStateAt, spanState, hget, htransient, hf, hdistinct.linked_eq_none hf]
    rcases h span hget file htransient with hclean | hends
    · simp [hclean]
    · simp only [hends]

end ShardDB

/-- The condition under which a swap compares the states of the two spans: for each of them, the
end computed from the length of the record is the end of its file exactly when the span ends
there. -/
def ShardReq.SwapOk (db : ShardDB) : ShardReq → Prop
  | .swapBlocks req => db.StateRead req.fileId1 req.byteOffset1 ∧
    db.StateRead req.fileId2 req.byteOffset2
  | .swapSpans req => db.StateRead req.fileId1 req.byteOffset1 ∧
    db.StateRead req.fileId2 req.byteOffset2
  | _ => True

instance (db : ShardDB) (req : ShardReq) : Decidable (req.SwapOk db) := by
  induction req using ShardReq.casesOn <;> dsimp only [ShardReq.SwapOk] <;> infer_instance

/-- What a step must respect: a block that moves out of a span that is not clean moves into one
that is not clean; blocks are swapped between spans of the same state, and spans are swapped and
locations are added between clean spans. -/
structure RespectsStates (cfg : ShardConfig) (db : ShardDB) (step : ShardStep) (db' : ShardDB) :
    Prop where
  moves : ∀ block k k', db.Moves db' block k k' → db.spanState k ≠ .clean →
    db'.spanState k' ≠ .clean
  swapBlocks : ∀ req out, step.req = .swapBlocks req → applySwapBlocks step.cache db req = .ok out →
    db.spanState ⟨req.fileId1, req.byteOffset1⟩ = db.spanState ⟨req.fileId2, req.byteOffset2⟩
  swapSpans : ∀ req out, step.req = .swapSpans req → applySwapSpans db req = .ok out →
    db.spanState ⟨req.fileId1, req.byteOffset1⟩ = .clean ∧
      db.spanState ⟨req.fileId2, req.byteOffset2⟩ = .clean
  addSpanLocation : ∀ req out, step.req = .addSpanLocation req →
    applyAddSpanLocation cfg db step.time req = .ok out →
    db.spanState ⟨req.fileId1, req.byteOffset1⟩ = .clean ∧
      db.spanState ⟨req.fileId2, req.byteOffset2⟩ = .clean

section

variable {cfg : ShardConfig} {cache : BlockServicesCache} {db : ShardDB} {time : ℕ}
  {out : ShardDB × ShardResp}

lemma ShardReq.SwapOk.event {req : ShardReq} {ev : FileEvent} (hok : req.SwapOk db)
    (hdistinct : db.fileView.Distinct) (hcauses : req.Causes ev) : db.fileView.StatesFound ev := by
  cases ev with
  | swapBlocks | swapSpans =>
    obtain ⟨r, rfl, rfl, rfl⟩ := hcauses
    exact ⟨hok.1.stateFound hdistinct, hok.2.stateFound hdistinct⟩
  | _ => trivial

lemma applySwapBlocks_spanState {req : SwapBlocksReq}
    (h₁ : db.fileView.StateFound ⟨req.fileId1, req.byteOffset1⟩)
    (h₂ : db.fileView.StateFound ⟨req.fileId2, req.byteOffset2⟩)
    (h : applySwapBlocks cache db req = .ok out) :
    db.fileView.spanState ⟨req.fileId1, req.byteOffset1⟩ =
      db.fileView.spanState ⟨req.fileId2, req.byteOffset2⟩ := by
  simp only [applySwapBlocks, bind_eq_ok, orFail_eq_ok, check_eq_ok, exists_const] at h
  obtain ⟨span₁, hspan₁, span₂, hspan₂, -, state₁, hstate₁, state₂, hstate₂, hstate, -⟩ := h
  rw [← h₁ span₁ hspan₁, ← h₂ span₂ hspan₂, fetchSpanState_eq_ok hstate₁,
    fetchSpanState_eq_ok hstate₂, hstate]

lemma applySwapSpans_spanState {req : SwapSpansReq}
    (h₁ : db.fileView.StateFound ⟨req.fileId1, req.byteOffset1⟩)
    (h₂ : db.fileView.StateFound ⟨req.fileId2, req.byteOffset2⟩)
    (h : applySwapSpans db req = .ok out) :
    db.fileView.spanState ⟨req.fileId1, req.byteOffset1⟩ = .clean ∧
      db.fileView.spanState ⟨req.fileId2, req.byteOffset2⟩ = .clean := by
  simp only [applySwapSpans, bind_eq_ok, orFail_eq_ok, check_eq_ok, exists_const] at h
  obtain ⟨span₁, hspan₁, span₂, hspan₂, -, -, -, state₁, hstate₁, state₂, hstate₂, hstate, -⟩ := h
  rw [← h₁ span₁ hspan₁, ← h₂ span₂ hspan₂, fetchSpanState_eq_ok hstate₁,
    fetchSpanState_eq_ok hstate₂]
  exact hstate

lemma applyAddSpanLocation_spanState {req : AddSpanLocationReq} (hdistinct : db.fileView.Distinct)
    (h : applyAddSpanLocation cfg db time req = .ok out) :
    db.fileView.spanState ⟨req.fileId1, req.byteOffset1⟩ = .clean ∧
      db.fileView.spanState ⟨req.fileId2, req.byteOffset2⟩ = .clean := by
  simp only [applyAddSpanLocation, bind_eq_ok, check_eq_ok, exists_const, Prod.exists] at h
  obtain ⟨linked, hlinked, b, file, hinit, hclean, -⟩ := h
  obtain ⟨-, hf, -⟩ := initiateTransientFileModification_fileView hinit rfl
  rw [hclean] at hf
  have hlinked' : db.fileView.linked req.fileId2 = some linked.fileSize := by
    simp [ShardDB.fileView, linkedView, (getFile_eq_ok.1 hlinked).2]
  refine ⟨FileView.spanState_of_clean hf, ?_⟩
  unfold FileView.spanState
  rw [hdistinct.transient_eq_none hlinked']
  split
  · rename_i heq
    cases heq
  · rfl

lemma shardStep_distinct {db' : ShardDB} {step : ShardStep} (h : db.fileView.Distinct)
    (hstep : shardStep cfg db step = some db') : db'.fileView.Distinct := by
  obtain ⟨ev, hev, -⟩ := shardStep_requestStep hstep
  exact h.step hev

/-- **Unsafe blocks stay out of reach.** In every state that a shard reaches, every request that
meets the condition respects the states of spans. -/
theorem respectsStates_of_run {now : ℕ} {steps : List ShardStep} {step : ShardStep} {db' : ShardDB}
    (hrun : run (shardStep cfg) (initDb cfg now) steps = some db) (hok : step.req.SwapOk db)
    (hstep : shardStep cfg db step = some db') : RespectsStates cfg db step db' := by
  have hdistinct : db.fileView.Distinct :=
    run_preserves (fun _ _ _ => shardStep_distinct) (initDb_distinct now) hrun
  obtain ⟨ev, hev, hcauses⟩ := shardStep_requestStep hstep
  have hfound := hok.event hdistinct hcauses
  refine ⟨?_, ?_, ?_, ?_⟩
  · intro block k k' hmoves hk
    rw [← ShardDB.fileView_spanState] at hk ⊢
    exact FileView.spanState_ne_clean_of_moves hfound hev hmoves hk
  · intro req out hreq hout
    rw [hreq] at hok
    simpa only [ShardDB.fileView_spanState] using
      applySwapBlocks_spanState (hok.1.stateFound hdistinct) (hok.2.stateFound hdistinct) hout
  · intro req out hreq hout
    rw [hreq] at hok
    simpa only [ShardDB.fileView_spanState] using
      applySwapSpans_spanState (hok.1.stateFound hdistinct) (hok.2.stateFound hdistinct) hout
  · intro req out hreq hout
    simpa only [ShardDB.fileView_spanState] using applyAddSpanLocation_spanState hdistinct hout

end

/-- Link a file into the root directory. -/
def sampleLink (f : InodeId) (name : Bytes) : ShardReq :=
  .linkFile ⟨f, sampleConfig.calcCookie f, .rootDir, name⟩

/-- A file with one certified span is linked, and a span of a second file is started. -/
def sampleTwoFiles : List ShardStep :=
  [sampleStep 1 sampleConstruct, sampleStep 2 (sampleAddSpan (sampleFile 1) 0 4096),
    sampleStep 3 (sampleCertify (sampleFile 1) 0 256), sampleStep 4 (sampleLink (sampleFile 1) [97]),
    sampleStep 5 sampleConstruct, sampleStep 6 (sampleAddSpan (sampleFile 2) 0 4096)]

/-- Swap the blocks of the two spans. -/
def sampleSwap : ShardReq := .swapBlocks ⟨sampleFile 1, 0, 256, sampleFile 2, 0, 512⟩

/-- The block of the second file has not been certified, and a swap moves it into the first
file, which is linked. -/
theorem not_respectsStates_of_swap :
    ∃ db db', run (shardStep sampleConfig) (initDb sampleConfig 0) sampleTwoFiles = some db ∧
      shardStep sampleConfig db (sampleStep 7 sampleSwap) = some db' ∧
      (db'.files.get (sampleFile 1)).isSome ∧
      ¬ RespectsStates sampleConfig db (sampleStep 7 sampleSwap) db' := by
  simp only [exists_and_left]
  refine exists_eq_some_imp (fun db _ => exists_eq_some_imp fun db' _ => And.imp_right fun
    (h : ∃ block ∈ db.blocksAt ⟨sampleFile 2, 0⟩,
      db.Moves db' block ⟨sampleFile 2, 0⟩ ⟨sampleFile 1, 0⟩ ∧
        db.spanState ⟨sampleFile 2, 0⟩ = .dirty ∧
        db'.spanState ⟨sampleFile 1, 0⟩ = .clean) hrespects => ?_) (by decide +kernel)
  obtain ⟨block, -, hmoves, hdirty, hclean⟩ := h
  exact hrespects.moves block _ _ hmoves (by rw [hdirty]; decide) hclean

theorem respectsStates_of_run_certified :
    ∃ db db', run (shardStep sampleConfig) (initDb sampleConfig 0)
        (sampleTwoFiles ++ [sampleStep 7 (sampleCertify (sampleFile 2) 0 512)]) = some db ∧
      shardStep sampleConfig db (sampleStep 8 sampleSwap) = some db' ∧
      RespectsStates sampleConfig db (sampleStep 8 sampleSwap) db' := by
  simp only [exists_and_left]
  exact exists_eq_some_imp (fun db hrun (h : sampleSwap.SwapOk db ∧ _) => exists_eq_some_imp
    (fun db' hstep (_ : True) => respectsStates_of_run hrun h.1 hstep) h.2) (by decide +kernel)

end TernFS
