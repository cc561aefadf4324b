/-
# Span entries as events of the file machine

The second half of the refinement to `TernFS.FileModel.Events`: the log entries that add,
remove, swap and move spans, and the statement for all entries.  For invariants of the records
themselves (which blocks they have, at which locations, and which ids these blocks were given) each
of these lemmas also says how the spans and the last block id given out change, and that
directories, edges and linked files stay as they are.
-/
import TernFS.Shard.FileEvents
import Mathlib.Tactic.Abel

namespace TernFS

open Lib Function List Option

/-- What an entry can do to the spans, and to the last block id given out. -/
inductive SpanChange (cfg : ShardConfig) (cache : BlockServicesCache) (db : ShardDB) (time : ℕ) :
    ShardLogEntryBody → SortedStore SpanKey SpanBody → ℕ → Prop
  /-- Nothing; a span to be added is one that the file has already. -/
  | keep {body : ShardLogEntryBody}
      (hagain : ∀ e, body = .addSpanAtLocationInitiate e → ∀ file,
        db.transientFiles.get e.fileId = some file → file.fileSize ≠ e.byteOffset) :
    SpanChange cfg cache db time body db.spans db.nextBlockId
  /-- An inline span is added. -/
  | addInline {e : AddInlineSpanEntry} :
    SpanChange cfg cache db time (.addInlineSpan e)
      (db.spans.put ⟨e.fileId, e.byteOffset⟩ ⟨e.size, e.crc, .inline e.body⟩) db.nextBlockId
  /-- A span of new blocks is added at the end of a file. -/
  | allocate {e : AddSpanAtLocationInitiateEntry} {file : TransientFileBody} {loc : SpanBlocksBody}
      (hfile : db.transientFiles.get e.fileId = some file) (hsize : file.fileSize = e.byteOffset)
      (hloc : SpanBlocksBody.alloc e.locationId e.storageClass e.parity e.stripes e.cellSize
        (newBlocks cfg time db.nextBlockId (e.bodyBlocks.take e.parity.blocks)).1
        (e.bodyStripes.take e.stripes) = some loc) :
    SpanChange cfg cache db time (.addSpanAtLocationInitiate e)
      (db.spans.put ⟨e.fileId, e.byteOffset⟩ ⟨e.size, e.crc, .blocks loc []⟩)
      (newBlocks cfg time db.nextBlockId (e.bodyBlocks.take e.parity.blocks)).2
  /-- A span is removed. -/
  | drop {body : ShardLogEntryBody} {k : SpanKey}
      (hbody : ∀ e, body ≠ .addSpanAtLocationInitiate e) :
    SpanChange cfg cache db time body (db.spans.delete k) db.nextBlockId
  /-- Two blocks change places. -/
  | swapBlocks {r : SwapBlocksReq} {s₁ s₂ : SpanBody} {found₁ found₂ : FoundBlock}
      (hk₁ : db.spans.get ⟨r.fileId1, r.byteOffset1⟩ = some s₁)
      (hk₂ : db.spans.get ⟨r.fileId2, r.byteOffset2⟩ = some s₂)
      (hfound₁ : findBlockIn r.blockId1 s₁.locations = some found₁)
      (hfound₂ : findBlockIn r.blockId2 s₂.locations = some found₂)
      (hcheck₁ : checkNoDuplicates cache found₁.loc.blocks found₁.blockIdx found₂.block = .ok ())
      (hcheck₂ : checkNoDuplicates cache found₂.loc.blocks found₂.blockIdx found₁.block = .ok ()) :
    SpanChange cfg cache db time (.swapBlocks r) ((db.spans.put ⟨r.fileId1, r.byteOffset1⟩
        (s₁.setBlock found₁.locIdx found₁.blockIdx found₂.block)).put ⟨r.fileId2, r.byteOffset2⟩
        (s₂.setBlock found₂.locIdx found₂.blockIdx found₁.block)) db.nextBlockId
  /-- Two spans change places. -/
  | swapSpans {r : SwapSpansReq} {s₁ s₂ : SpanBody}
      (hk₁ : db.spans.get ⟨r.fileId1, r.byteOffset1⟩ = some s₁)
      (hk₂ : db.spans.get ⟨r.fileId2, r.byteOffset2⟩ = some s₂) :
    SpanChange cfg cache db time (.swapSpans r)
      ((db.spans.put ⟨r.fileId1, r.byteOffset1⟩ s₂).put ⟨r.fileId2, r.byteOffset2⟩ s₁)
      db.nextBlockId
  /-- A span moves to another file. -/
  | move {r : MoveSpanReq} {span : SpanBody}
      (hk₁ : db.spans.get ⟨r.fileId1, r.byteOffset1⟩ = some span) :
    SpanChange cfg cache db time (.moveSpan r)
      ((db.spans.delete ⟨r.fileId1, r.byteOffset1⟩).put ⟨r.fileId2, r.byteOffset2⟩ span)
      db.nextBlockId
  /-- The only location of a span becomes one of another span, which has none there. -/
  | addLocation {r : AddSpanLocationReq} {source destination destination' : SpanBody}
      {loc : SpanBlocksBody} (hk₁ : db.spans.get ⟨r.fileId1, r.byteOffset1⟩ = some source)
      (hk₂ : db.spans.get ⟨r.fileId2, r.byteOffset2⟩ = some destination)
      (hloc : source.locations = [loc])
      (hnew : ∀ d ∈ destination.locations, d.location ≠ loc.location)
      (hadd : destination.addLocation loc = some destination') :
    SpanChange cfg cache db time (.addSpanLocation r)
      ((db.spans.put ⟨r.fileId2, r.byteOffset2⟩ destination').delete ⟨r.fileId1, r.byteOffset1⟩)
      db.nextBlockId

variable {cfg : ShardConfig} {cache : BlockServicesCache} {db db' batch batch' : ShardDB} {time : ℕ}
  {resp : ShardResp} {body : ShardLogEntryBody}

lemma SpanChange.of_eq (h : db'.spans = db.spans ∧ db'.nextBlockId = db.nextBlockId)
    (hbody : ∀ e, body ≠ .addSpanAtLocationInitiate e) :
    SpanChange cfg cache db time body db'.spans db'.nextBlockId := by
  rw [h.1, h.2]
  exact .keep fun e he => absurd he (hbody e)

lemma SpanChange.of_fileSide (h : db'.fileSide = db.fileSide)
    (hbody : ∀ e, body ≠ .addSpanAtLocationInitiate e) :
    SpanChange cfg cache db time body db'.spans db'.nextBlockId :=
  .of_eq ⟨congrArg (fun side => side.1.spans) h, congrArg Prod.snd h⟩ hbody

variable {f fileId : InodeId}

/-- A file that is linked or unlinked keeps its spans. -/
lemma SpanChange.of_fileStep {ev : FileEvent}
    (h : (db'.fileView = db.fileView ∨ FileStep db.fileView ev db'.fileView) ∧
      db'.nextBlockId = db.nextBlockId) (hev : ev = .link f ∨ ev = .unlink f)
    (hbody : ∀ e, body ≠ .addSpanAtLocationInitiate e) :
    SpanChange cfg cache db time body db'.spans db'.nextBlockId := by
  have hstep : ∀ {v}, FileStep db.fileView ev v → v.spans = db.fileView.spans := by
    rcases hev with rfl | rfl <;> rintro v ⟨⟩ <;> rfl
  exact .of_eq ⟨h.1.elim (congrArg FileView.spans) hstep, h.2⟩ hbody

/-! ## Adding and removing spans -/

lemma SpanBlocksBody.alloc_eq_some {location storageClass stripes cellSize : ℕ} {parity : Parity}
    {blocks : List BlockBody} {stripesCrc : List ℕ} {loc : SpanBlocksBody}
    (h : SpanBlocksBody.alloc location storageClass parity stripes cellSize blocks stripesCrc =
      some loc) : loc.blocks = blocks ∧ loc.parity = parity := by
  unfold SpanBlocksBody.alloc at h
  split at h
  · cases h
    exact ⟨rfl, rfl⟩
  · cases h

@[simp] lemma SpanBody.blocks_inline (size crc : ℕ) (body : Bytes) :
    (⟨size, crc, .inline body⟩ : SpanBody).blocks = [] := rfl

@[simp] lemma SpanBody.blocks_single (size crc : ℕ) (loc : SpanBlocksBody) :
    (⟨size, crc, .blocks loc []⟩ : SpanBody).blocks = loc.blocks := by
  simp [SpanBody.blocks, SpanBody.locations]

lemma applyAddInlineSpan_fileStep {entry : AddInlineSpanEntry}
    (h : applyAddInlineSpan cfg db time entry = .ok (db', resp)) :
    (db'.fileView = db.fileView ∨ entry.body ≠ [] ∧ FileStep db.fileView
          (.append entry.fileId entry.byteOffset ⟨entry.size, entry.crc, .inline entry.body⟩)
          db'.fileView) ∧
      (∀ cache, SpanChange cfg cache db time (.addInlineSpan entry) db'.spans db'.nextBlockId) ∧
      db'.named = db.named := by
  simp only [applyAddInlineSpan, bind_eq_ok, Prod.exists] at h
  obtain ⟨b, file, hinit, h⟩ := h
  obtain ⟨hview, hf, hkept, hnamed⟩ := initiateTransientFileModification_fileView hinit rfl
  split_ifs at h with hbody hoffset
  · cases h
    exact ⟨.inl hview, fun _ => .of_eq hkept (by simp), hnamed⟩
  · simp only [bind_eq_ok, check_eq_ok, orFail_eq_ok, exists_const] at h
    obtain ⟨-, existing, -, -, ⟨⟩⟩ := h
    exact ⟨.inl hview, fun _ => .of_eq hkept (by simp), hnamed⟩
  simp only [bind_eq_ok, check_eq_ok, exists_const] at h
  obtain ⟨hclean, ⟨⟩⟩ := h
  refine ⟨.inr ⟨hbody, ?_⟩, fun _ => ?_, hnamed⟩
  · rw [not_not] at hoffset
    rw [← hview, hoffset, hclean] at hf
    have hposted : Posted b.fileView.index b.fileView.index (blockCounts
        (⟨entry.size, entry.crc, .inline entry.body⟩ : SpanBody).blocks entry.fileId) :=
      (Posted.refl _).congr (by rw [SpanBody.blocks_inline, blockCounts_nil])
    rw [← hview]
    simpa only [ShardDB.fileView, transientView_put, hclean, SpanBody.IsInlineStorage,
      ↓reduceIte] using FileStep.append hf hposted
  · rw [hkept.1, hkept.2]
    exact .addInline

lemma applyAddSpanInitiate_fileStep {entry : AddSpanAtLocationInitiateEntry}
    (h : applyAddSpanInitiate cfg cache db time entry = .ok (db', resp)) :
    (db'.fileView = db.fileView ∨
      ∃ span : SpanBody, span.spanSize = entry.size ∧ span.blocks.length = entry.parity.blocks ∧
        FileStep db.fileView (.append entry.fileId entry.byteOffset span) db'.fileView) ∧
      SpanChange cfg cache db time (.addSpanAtLocationInitiate entry) db'.spans db'.nextBlockId ∧
      db'.named = db.named := by
  simp only [applyAddSpanInitiate, bind_eq_ok, Prod.exists] at h
  obtain ⟨b, file, hinit, h⟩ := h
  obtain ⟨hview, hf, hkept, hnamed⟩ := initiateTransientFileModification_fileView hinit rfl
  obtain ⟨old, hold, -, -, hsize, -⟩ := initiateTransientFileModification_eq_ok hinit
  split_ifs at h with hoffset
  · simp only [bind_eq_ok, check_eq_ok, orFail_eq_ok, exists_const] at h
    obtain ⟨-, existing, -, loc, -, infos, -, ⟨⟩⟩ := h
    refine ⟨.inl hview, ?_, hnamed⟩
    rw [hkept.1, hkept.2]
    refine .keep fun e' he' file' hfile' => ?_
    cases he'
    obtain rfl := mem_unique hold hfile'
    rwa [← hsize]
  · simp only [bind_eq_ok, check_eq_ok, orFail_eq_ok, exists_const] at h
    obtain ⟨hclean, loc, hloc, infos, -, ⟨⟩⟩ := h
    obtain ⟨hblocks, hparity⟩ := SpanBlocksBody.alloc_eq_some hloc
    obtain ⟨index, hindex, hposted⟩ := foldl_addBlockServicesToFiles b
      (newBlocks cfg time db.nextBlockId (entry.bodyBlocks.take entry.parity.blocks)).1
      entry.fileId 1
    rw [not_not] at hoffset
    rw [hindex]
    refine ⟨.inr ⟨⟨entry.size, entry.crc, .blocks loc []⟩, rfl, ?_, ?_⟩, ?_, hnamed⟩
    · rw [SpanBody.blocks_single, loc.blocks_length, hparity]
    · rw [← hview, hoffset, hclean] at hf
      rw [← hblocks, one_zsmul, ← SpanBody.blocks_single entry.size entry.crc loc] at hposted
      rw [← hview]
      have hstep := FileStep.append hf hposted
      simpa only [ShardDB.fileView, transientView_put, SpanBody.IsInlineStorage, ↓reduceIte]
        using hstep
    · rw [hkept.1]
      exact .allocate hold (hsize.symm.trans hoffset) hloc

lemma applyAddSpanCertify_fileStep {entry : SpanCertifyEntry}
    (h : applyAddSpanCertify cfg cache db time entry = .ok (db', resp)) :
    (db'.fileView = db.fileView ∨ FileStep db.fileView (.certify entry.fileId) db'.fileView) ∧
      (db'.spans = db.spans ∧ db'.nextBlockId = db.nextBlockId) ∧ db'.named = db.named := by
  simp only [applyAddSpanCertify, bind_eq_ok, orFail_eq_ok, Prod.exists] at h
  obtain ⟨b, file, hinit, span, -, h⟩ := h
  obtain ⟨hview, hf, hkept, hnamed⟩ := initiateTransientFileModification_fileView hinit rfl
  split_ifs at h with hdone
  · cases h
    exact ⟨.inl hview, hkept, hnamed⟩
  simp only [bind_eq_ok, check_eq_ok, exists_const] at h
  obtain ⟨hcondemned, h⟩ := h
  split at h
  · cases h
  simp only [bind_eq_ok, assert_eq_ok, check_eq_ok, exists_const] at h
  obtain ⟨-, -, good, -, -, ⟨⟩⟩ := h
  have hdirty : file.lastSpanState = .dirty := by
    cases hstate : file.lastSpanState with
    | clean => exact absurd (.inr hstate) hdone
    | dirty => rfl
    | condemned => exact absurd hstate hcondemned
  refine ⟨.inr ?_, hkept, hnamed⟩
  rw [← hview, hdirty] at hf
  rw [← hview]
  simpa only [ShardDB.fileView, transientView_put] using FileStep.certify hf

lemma applyRemoveSpanInitiate_fileStep
    (h : applyRemoveSpanInitiate cfg cache db time fileId = .ok (db', resp)) :
    (FileStep db.fileView (.condemn fileId) db'.fileView ∨
      ∃ offset, FileStep db.fileView (.dropInline fileId offset) db'.fileView) ∧
      SpanChange cfg cache db time (.removeSpanInitiate fileId) db'.spans db'.nextBlockId ∧
      db'.named = db.named := by
  simp only [applyRemoveSpanInitiate, bind_eq_ok, check_eq_ok, assert_eq_ok, orFail_eq_ok,
    exists_const, Prod.exists] at h
  obtain ⟨b, file, hinit, hsize, key, span, hlast, hkey, h⟩ := h
  obtain ⟨hview, hf, hkept, hnamed⟩ := initiateTransientFileModification_fileView hinit rfl
  rw [← hkept.1] at hlast
  rw [← hview] at hf ⊢
  split_ifs at h with hinline
  · cases h
    obtain ⟨f, offset⟩ := key
    obtain rfl : f = fileId := hkey
    refine ⟨.inr ⟨offset, ?_⟩, ?_, hnamed⟩
    · simpa only [ShardDB.fileView, transientView_put] using
        FileStep.dropInline hf hsize hlast hinline
    · rw [hkept.1, hkept.2]
      exact .drop (by simp)
  · simp only [bind_eq_ok] at h
    obtain ⟨infos, -, ⟨⟩⟩ := h
    refine ⟨.inl ?_, .of_eq hkept (by simp), hnamed⟩
    simpa only [ShardDB.fileView, transientView_put] using FileStep.condemn hf hlast hkey hinline

lemma applyRemoveSpanCertify_fileStep {entry : SpanCertifyEntry}
    (h : applyRemoveSpanCertify cfg cache db time entry = .ok (db', resp)) :
    (db'.fileView = db.fileView ∨
      FileStep db.fileView (.dropBlocks entry.fileId entry.byteOffset) db'.fileView) ∧
      SpanChange cfg cache db time (.removeSpanCertify entry) db'.spans db'.nextBlockId ∧
      db'.named = db.named := by
  simp only [applyRemoveSpanCertify, bind_eq_ok, Prod.exists] at h
  obtain ⟨b, file, hinit, h⟩ := h
  obtain ⟨hview, hf, hkept, hnamed⟩ := initiateTransientFileModification_fileView hinit rfl
  cases hspan : db.spans.get ⟨entry.fileId, entry.byteOffset⟩ with
  | none =>
    simp only [hspan, pure_eq_ok, Prod.mk.injEq] at h
    obtain ⟨rfl, -⟩ := h
    exact ⟨.inl hview, .of_eq hkept (by simp), hnamed⟩
  | some span =>
    simp only [hspan, bind_eq_ok, check_eq_ok, exists_const] at h
    obtain ⟨hblocks, hcondemned, idx, -, -, ⟨⟩⟩ := h
    obtain ⟨index, hindex, hposted⟩ := foldl_addBlockServicesToFiles b span.blocks entry.fileId (-1)
    rw [hindex]
    refine ⟨.inr ?_, ?_, hnamed⟩
    · rw [neg_one_zsmul] at hposted
      rw [← hkept.1] at hspan
      rw [← hview, hcondemned] at hf
      rw [← hview]
      have hstep := FileStep.dropBlocks hf hspan hblocks hposted
      simpa only [ShardDB.fileView, transientView_put] using hstep
    · rw [hkept.1, hkept.2]
      exact .drop (by simp)

/-! ## Swapping blocks and spans -/

lemma fetchSpanState_eq_ok {spanEnd : ℕ} {state : SpanState}
    (h : fetchSpanState db f spanEnd = .ok state) :
    db.fileView.spanStateAt f spanEnd = state := by
  simp only [fetchSpanState, bind_eq_ok, assert_eq_ok, exists_const] at h
  obtain ⟨-, h⟩ := h
  cases hlinked : db.files.get f with
  | some =>
    simpa [FileView.spanStateAt, ShardDB.fileView, linkedView, hlinked] using h
  | none =>
    simp only [hlinked, bind_eq_ok, orFail_eq_ok, pure_eq_ok] at h
    obtain ⟨file, htransient, h⟩ := h
    simpa [FileView.spanStateAt, ShardDB.fileView, linkedView, transientView, hlinked, htransient]
      using h

lemma SpanBody.locations_setBlock (s : SpanBody) (locIdx blockIdx : ℕ) (block : BlockBody) :
    (s.setBlock locIdx blockIdx block).locations =
      s.locations.modify locIdx (·.setBlock blockIdx block) := by
  obtain ⟨size, crc, storage⟩ := s
  cases storage with
  | inline => simp [SpanBody.setBlock, SpanBody.locations]
  | blocks => cases locIdx <;> rfl

variable {blockId locationId : ℕ}

/-- The block that was found, and what becomes of the blocks when it is overwritten. -/
lemma findBlockIn_perm {locs : List SpanBlocksBody} {found : FoundBlock}
    (h : findBlockIn blockId locs = some found) :
    ∃ rest, (locs.flatMap SpanBlocksBody.blocks).Perm (found.block :: rest) ∧
      ∀ block, ((locs.modify found.locIdx (·.setBlock found.blockIdx block)).flatMap
        SpanBlocksBody.blocks).Perm (block :: rest) := by
  induction locs generalizing found with
  | nil => cases h
  | cons loc locs ih =>
    unfold findBlockIn at h
    split at h
    · rename_i i hi
      obtain ⟨hlt, -⟩ := findIdx?_eq_some_iff_getElem.1 hi
      rw [getElem?_eq_getElem hlt, map_some, some.injEq] at h
      subst h
      refine ⟨loc.blocks.eraseIdx i ++ locs.flatMap SpanBlocksBody.blocks, ?_, fun block => ?_⟩
      · exact (getElem_cons_eraseIdx_perm hlt).symm.append_right _
      · exact (set_perm_cons_eraseIdx hlt block).append_right _
    · simp only [map_eq_some_iff] at h
      obtain ⟨found', hfound, rfl⟩ := h
      obtain ⟨rest, hperm, hset⟩ := ih hfound
      refine ⟨loc.blocks ++ rest, ?_, fun block => ?_⟩
      · exact (hperm.append_left loc.blocks).trans perm_middle
      · exact ((hset block).append_left loc.blocks).trans perm_middle

lemma SpanBody.perm_setBlock {s : SpanBody} {found : FoundBlock}
    (h : findBlockIn blockId s.locations = some found) :
    ∃ rest, s.blocks.Perm (found.block :: rest) ∧
      ∀ block, (s.setBlock found.locIdx found.blockIdx block).blocks.Perm (block :: rest) := by
  obtain ⟨rest, hperm, hset⟩ := findBlockIn_perm h
  refine ⟨rest, hperm, fun block => ?_⟩
  rw [SpanBody.blocks, SpanBody.locations_setBlock]
  exact hset block

lemma applySwapBlocks_fileStep {entry : SwapBlocksReq}
    (h : applySwapBlocks cache db entry = .ok (db', resp)) :
    (entry.fileId1 ≠ entry.fileId2 → db'.fileView = db.fileView ∨ FileStep db.fileView
        (.swapBlocks ⟨entry.fileId1, entry.byteOffset1⟩ ⟨entry.fileId2, entry.byteOffset2⟩)
        db'.fileView) ∧
      (∀ cfg time, SpanChange cfg cache db time (.swapBlocks entry) db'.spans db'.nextBlockId) ∧
      db'.named = db.named := by
  simp only [applySwapBlocks, bind_eq_ok, orFail_eq_ok, check_eq_ok, exists_const] at h
  obtain ⟨span₁, hspan₁, span₂, hspan₂, -, state₁, hstate₁, state₂, hstate₂, hstate, h⟩ := h
  split at h
  · rename_i found₁ found₂ hfound₁ hfound₂
    simp only [bind_eq_ok, check_eq_ok, exists_const] at h
    obtain ⟨-, -, -, _, hcheck₁, _, hcheck₂, ⟨⟩⟩ := h
    refine ⟨fun hne => .inr ?_, fun _ _ => .swapBlocks hspan₁ hspan₂ hfound₁ hfound₂ hcheck₁ hcheck₂,
      rfl⟩
    obtain ⟨rest₁, hperm₁, hset₁⟩ := SpanBody.perm_setBlock hfound₁
    obtain ⟨rest₂, hperm₂, hset₂⟩ := SpanBody.perm_setBlock hfound₂
    -- the four differences, in the order in which they are posted
    obtain ⟨index, hindex, hposted⟩ :=
      (((addBlockServicesToFiles_posted db found₁.block entry.fileId1 (-1)).trans
        (addBlockServicesToFiles_posted _ found₂.block entry.fileId1 1)).trans
        (addBlockServicesToFiles_posted _ found₁.block entry.fileId2 1)).trans
        (addBlockServicesToFiles_posted _ found₂.block entry.fileId2 (-1))
    rw [hindex]
    refine FileStep.swapBlocks (v := db.fileView) hne hspan₁ hspan₂ rfl rfl hperm₁ hperm₂
      (hset₁ found₂.block) (hset₂ found₁.block) ?_ (hposted.congr ?_)
    · rw [fetchSpanState_eq_ok hstate₁, fetchSpanState_eq_ok hstate₂, hstate]
    · abel
  · simp only [bind_eq_ok, check_eq_ok, exists_const] at h
    obtain ⟨-, ⟨⟩⟩ := h
    exact ⟨fun _ => .inl rfl, fun _ _ => .of_eq ⟨rfl, rfl⟩ (by simp), rfl⟩
  · cases h

lemma applySwapSpans_fileStep {entry : SwapSpansReq}
    (h : applySwapSpans db entry = .ok (db', resp)) :
    (entry.fileId1 ≠ entry.fileId2 → db'.fileView = db.fileView ∨ FileStep db.fileView
        (.swapSpans ⟨entry.fileId1, entry.byteOffset1⟩ ⟨entry.fileId2, entry.byteOffset2⟩)
        db'.fileView) ∧
      (∀ cfg cache time,
        SpanChange cfg cache db time (.swapSpans entry) db'.spans db'.nextBlockId) ∧
      db'.named = db.named := by
  simp only [applySwapSpans, bind_eq_ok, orFail_eq_ok, check_eq_ok, exists_const] at h
  obtain ⟨span₁, hspan₁, span₂, hspan₂, -, hsize, -, state₁, hstate₁, state₂, hstate₂,
    ⟨rfl, rfl⟩, swapped, -, h⟩ := h
  split_ifs at h
  · cases h
    exact ⟨fun _ => .inl rfl, fun _ _ _ => .of_eq ⟨rfl, rfl⟩ (by simp), rfl⟩
  simp only [bind_eq_ok, check_eq_ok, exists_const] at h
  obtain ⟨expected, -, -, ⟨⟩⟩ := h
  obtain ⟨index, hindex, hposted⟩ :=
    (moveBlocksToFile_posted db span₁.blocks entry.fileId2 entry.fileId1).trans
      (moveBlocksToFile_posted _ span₂.blocks entry.fileId1 entry.fileId2)
  rw [hindex]
  refine ⟨fun hne => .inr ?_, fun _ _ _ => .swapSpans hspan₁ hspan₂, rfl⟩
  exact FileStep.swapSpans (v := db.fileView) hne hspan₁ hspan₂ hsize
    (fetchSpanState_eq_ok hstate₁) (fetchSpanState_eq_ok hstate₂) hposted

/-! ## Moving spans and locations -/

lemma applyMoveSpan_fileStep {entry : MoveSpanReq}
    (h : applyMoveSpan cfg db time entry = .ok (db', resp)) :
    (db'.fileView = db.fileView ∨ FileStep db.fileView
        (.move ⟨entry.fileId1, entry.byteOffset1⟩ ⟨entry.fileId2, entry.byteOffset2⟩)
        db'.fileView) ∧
      (∀ cache, SpanChange cfg cache db time (.moveSpan entry) db'.spans db'.nextBlockId) ∧
      db'.named = db.named := by
  simp only [applyMoveSpan, bind_eq_ok, Prod.exists] at h
  obtain ⟨b₁, file₁, hinit₁, b₂, file₂, hinit₂, h⟩ := h
  obtain ⟨hview₁, hf₁, hkept₁, hnamed₁⟩ := initiateTransientFileModification_fileView hinit₁ rfl
  obtain ⟨hview, hf₂, hkept₂, hnamed₂⟩ := initiateTransientFileModification_fileView hinit₂ hview₁
  have hkept := And.intro (hkept₂.1.trans hkept₁.1) (hkept₂.2.trans hkept₁.2)
  have hnamed := hnamed₂.trans hnamed₁
  split_ifs at h
  · cases h
    exact ⟨.inl hview, fun _ => .of_eq hkept (by simp), hnamed⟩
  simp only [bind_eq_ok, orFail_eq_ok, check_eq_ok, assert_eq_ok, exists_const] at h
  obtain ⟨⟨hdirty, hsize₁, hclean, hsize₂⟩, span, hspan, hsize, -, ⟨⟩⟩ := h
  obtain ⟨index, hindex, hposted⟩ := foldl_addBlockServicesToFiles_two b₂ span.blocks
    entry.fileId1 entry.fileId2 (-1) 1
  rw [hindex]
  refine ⟨.inr ?_, fun _ => ?_, hnamed⟩
  · rw [← hview] at hf₁ hf₂ ⊢
    rw [hdirty] at hf₁
    rw [hclean, hsize₂] at hf₂
    rw [← hkept.1] at hspan
    have hn : file₁.fileSize = addU64 entry.byteOffset1 span.spanSize := by rw [hsize₁, hsize]
    have hmoved : Posted b₂.fileView.index (indexView index)
        (blockCounts span.blocks entry.fileId2 - blockCounts span.blocks entry.fileId1) :=
      hposted.congr (by rw [one_zsmul, neg_one_zsmul]; abel)
    have hstep : FileStep b₂.fileView
        (.move ⟨entry.fileId1, entry.byteOffset1⟩ ⟨entry.fileId2, entry.byteOffset2⟩) _ :=
      FileStep.move hspan hn hf₁ hf₂ hmoved
    simpa only [ShardDB.fileView, transientView_put, hsize₂] using hstep
  · rw [hkept.1, hkept.2]
    exact .move hspan

lemma SpanBody.addLocation_eq_some {s s' : SpanBody} {loc : SpanBlocksBody}
    (h : s.addLocation loc = some s') :
    s'.spanSize = s.spanSize ∧ s'.blocks = s.blocks ++ loc.blocks := by
  obtain ⟨size, crc, storage⟩ := s
  cases storage with
  | inline => cases h
  | blocks =>
    simp only [SpanBody.addLocation, ite_none_right_eq_some, some.injEq] at h
    obtain ⟨-, rfl⟩ := h
    simp [SpanBody.blocks, SpanBody.locations]

lemma applyAddSpanLocation_fileStep {entry : AddSpanLocationReq}
    (h : applyAddSpanLocation cfg db time entry = .ok (db', resp)) :
    (entry.fileId1 ≠ entry.fileId2 → db'.fileView = db.fileView ∨ FileStep db.fileView
        (.addLocation ⟨entry.fileId1, entry.byteOffset1⟩ ⟨entry.fileId2, entry.byteOffset2⟩)
        db'.fileView) ∧
      (∀ cache, SpanChange cfg cache db time (.addSpanLocation entry) db'.spans db'.nextBlockId) ∧
      db'.named = db.named := by
  simp only [applyAddSpanLocation, bind_eq_ok, orFail_eq_ok, check_eq_ok, exists_const,
    Prod.exists] at h
  obtain ⟨linked, hlinked, b, file, hinit, hclean, destination, hdestination, -, h⟩ := h
  obtain ⟨hview, hf₁, hkept, hnamed⟩ := initiateTransientFileModification_fileView hinit rfl
  have hf₂ : db.fileView.linked entry.fileId2 = some linked.fileSize := by
    simp [ShardDB.fileView, linkedView, (getFile_eq_ok.1 hlinked).2]
  split at h
  · simp only [bind_eq_ok, check_eq_ok, exists_const] at h
    obtain ⟨-, ⟨⟩⟩ := h
    exact ⟨fun _ => .inl hview, fun _ => .of_eq hkept (by simp), hnamed⟩
  rename_i source hsource
  simp only [bind_eq_ok, check_eq_ok, exists_const] at h
  obtain ⟨-, -, -, state, -, -, h⟩ := h
  split at h
  · rename_i loc hloc
    simp only [bind_eq_ok, check_eq_ok, orFail_eq_ok, exists_const] at h
    obtain ⟨hnew, destination', hadd, ⟨⟩⟩ := h
    obtain ⟨index, hindex, hposted⟩ :=
      moveBlocksToFile_posted b loc.blocks entry.fileId2 entry.fileId1
    rw [hindex]
    refine ⟨fun hne => .inr ?_, fun _ => ?_, hnamed⟩
    · have hblocks : source.blocks = loc.blocks := by simp [SpanBody.blocks, hloc]
      obtain ⟨hsize, hblocks'⟩ := SpanBody.addLocation_eq_some hadd
      rw [hclean] at hf₁
      rw [← hblocks] at hposted hblocks'
      rw [← hview] at hf₁ hf₂ ⊢
      rw [← hkept.1] at hsource hdestination
      have hstep := FileStep.addLocation (v := b.fileView) hne hsource hdestination hf₁ hf₂ hsize
        hblocks' hposted
      simpa only [ShardDB.fileView, transientView_put, hclean] using hstep
    · rw [hkept.1, hkept.2]
      exact .addLocation hsource hdestination hloc hnew hadd
  · cases h

/-! ## Clearing the index -/

variable {index : SortedStore BlockServiceToFileKey ℤ}

lemma indexView_delete_of_eq_zero
    {key : BlockServiceToFileKey} (h : indexView index key.blockService key.fileId = 0) :
    indexView (index.delete key) = indexView index := by
  funext b f
  by_cases hkey : key = ⟨b, f⟩
  · subst hkey
    simpa [indexView] using h.symm
  · simp [indexView, SortedStore.get_delete_of_ne hkey]

/-- Deleting counters that read zero changes no counter. -/
lemma indexView_foldl_delete {zeros : List (BlockServiceToFileKey × ℤ)}
    (h : ∀ e ∈ zeros, indexView index e.1.blockService e.1.fileId = 0) :
    indexView (zeros.foldl (fun index e => index.delete e.1) index) = indexView index := by
  induction zeros generalizing index with
  | nil => rfl
  | cons e zeros ih =>
    have hdelete := indexView_delete_of_eq_zero (h e (by simp))
    rw [foldl_cons, ih, hdelete]
    intro e' he'
    rw [hdelete]
    exact h e' (by simp [he'])

lemma applyRemoveZeroBlockServiceFiles_fileSide {entry : RemoveZeroBlockServiceFilesReq}
    (h : applyRemoveZeroBlockServiceFiles db entry = .ok (db', resp)) :
    db'.fileSide = db.fileSide ∧ db'.named = db.named := by
  obtain ⟨rfl, -⟩ := h
  have hzeros : ∀ e ∈ ((db.blockServicesToFiles.seek
      ⟨entry.startBlockService, entry.startFile⟩).take maxZeroEntries).filter (fun e => e.2 = 0),
      indexView db.blockServicesToFiles e.1.blockService e.1.fileId = 0 := by
    intro e he
    obtain ⟨hseen, hzero⟩ := mem_filter.1 he
    obtain ⟨-, hget⟩ := SortedStore.mem_seek.1 (mem_of_mem_take hseen)
    simpa [indexView, hget] using hzero
  refine ⟨?_, rfl⟩
  simp only [ShardDB.fileSide, ShardDB.fileView]
  rw [indexView_foldl_delete hzeros]

/-! ## All entries -/

/-- The three requests that start a span of blocks. -/
def ShardReq.addSpan : ShardReq → Option AddSpanInitiateReq
  | .addSpanInitiate req => some req
  | .addSpanInitiateWithReference req _ => some req
  | .addSpanAtLocationInitiate _ req _ => some req
  | _ => none

/-- The request appends a span to a file. -/
def ShardReq.Appends (req : ShardReq) (f : InodeId) (offset : ℕ) (span : SpanBody) : Prop :=
  (∃ r, req = .addInlineSpan r ∧ r.body ≠ [] ∧ f = r.fileId ∧ offset = r.byteOffset ∧
    span = ⟨r.size, r.crc, .inline r.body⟩) ∨
  ∃ r, req.addSpan = some r ∧ f = r.fileId ∧ offset = r.byteOffset ∧ span.spanSize = r.size ∧
    span.blocks.length = r.parity.blocks

/-- The request may cause the event, which is about the files and spans that the request names.  Any
request may be refused, or find its work done. -/
def ShardReq.Causes (req : ShardReq) : FileEvent → Prop
  | .quiet => True
  | .construct _ => ∃ r, req = .constructFile r
  | .link f => ∃ r, req = .linkFile r ∧ f = r.fileId
  | .unlink f => (∃ r, req = .sameShardHardFileUnlink r ∧ f = r.targetId) ∨
    ∃ r, req = .makeFileTransient r ∧ f = r.id
  | .remove f => ∃ r, req = .removeInode r ∧ f = r.id
  | .append f offset span => req.Appends f offset span
  | .certify f => ∃ r, req = .addSpanCertify r ∧ f = r.fileId
  | .condemn f | .dropInline f _ => ∃ r, req = .removeSpanInitiate r ∧ f = r.fileId
  | .dropBlocks f offset => ∃ r, req = .removeSpanCertify r ∧ f = r.fileId ∧ offset = r.byteOffset
  | .swapBlocks k₁ k₂ => ∃ r, req = .swapBlocks r ∧ k₁ = ⟨r.fileId1, r.byteOffset1⟩ ∧
    k₂ = ⟨r.fileId2, r.byteOffset2⟩
  | .swapSpans k₁ k₂ => ∃ r, req = .swapSpans r ∧ k₁ = ⟨r.fileId1, r.byteOffset1⟩ ∧
    k₂ = ⟨r.fileId2, r.byteOffset2⟩
  | .move k₁ k₂ => ∃ r, req = .moveSpan r ∧ k₁ = ⟨r.fileId1, r.byteOffset1⟩ ∧
    k₂ = ⟨r.fileId2, r.byteOffset2⟩
  | .addLocation k₁ k₂ => ∃ r, req = .addSpanLocation r ∧ k₁ = ⟨r.fileId1, r.byteOffset1⟩ ∧
    k₂ = ⟨r.fileId2, r.byteOffset2⟩

/-- The step of the file machine that a request takes. -/
def RequestStep (req : ShardReq) (v v' : FileView) : Prop :=
  ∃ ev, FileStep v ev v' ∧ req.Causes ev

variable {e : AddSpanAtLocationInitiateEntry} {r : AddSpanInitiateReq}

section

variable {req : ShardReq} {pick : PickBlockServices} {entry : ShardLogEntry}

lemma RequestStep.of_eq {v v' : FileView} (h : v' = v) : RequestStep req v v' :=
  ⟨.quiet, h ▸ .quiet, trivial⟩

lemma RequestStep.of_fileSide (h : db'.fileSide = db.fileSide) :
    RequestStep req db.fileView db'.fileView :=
  .of_eq (ShardDB.fileView_eq_of_fileSide h)

lemma RequestStep.of_or {v v' : FileView} {ev : FileEvent}
    (h : v' = v ∨ FileStep v ev v') (hcauses : req.Causes ev) : RequestStep req v v' := by
  rcases h with h | h
  · exact .of_eq h
  · exact ⟨ev, h, hcauses⟩

/-- A prepared span keeps the fields of the request. -/
lemma prepareAddSpanInitiate_eq_ok (h : prepareAddSpanInitiate cfg pick locationId r = .ok e) :
    e.fileId = r.fileId ∧ e.byteOffset = r.byteOffset ∧ e.size = r.size ∧ e.parity = r.parity := by
  simp only [prepareAddSpanInitiate, bind_eq_ok, check_eq_ok, assert_eq_ok, exists_const] at h
  obtain ⟨-, -, -, -, -, picked, -, -, ⟨⟩⟩ := h
  exact ⟨rfl, rfl, rfl, rfl⟩

lemma addSpan_requestStep (hreq : req.addSpan = some r)
    (hprepare : prepareAddSpanInitiate cfg pick locationId r = .ok e)
    (h : applyAddSpanInitiate cfg cache db time e = .ok (db', resp)) :
    RequestStep req db.fileView db'.fileView := by
  obtain ⟨hfile, hoffset, hsize, hparity⟩ := prepareAddSpanInitiate_eq_ok hprepare
  rcases (applyAddSpanInitiate_fileStep h).1 with h | ⟨span, hspan, hblocks, hstep⟩
  · exact .of_eq h
  · exact ⟨_, hstep, .inr ⟨r, hreq, hfile, hoffset, hspan.trans hsize, by rw [hblocks, hparity]⟩⟩

lemma addInlineSpan_requestStep {r : AddInlineSpanReq} {e : AddInlineSpanEntry}
    (hprepare : prepareAddInlineSpan cfg r = .ok e)
    (h : applyAddInlineSpan cfg db time e = .ok (db', resp)) :
    RequestStep (.addInlineSpan r) db.fileView db'.fileView := by
  simp only [prepareAddInlineSpan, bind_eq_ok, check_eq_ok, exists_const] at hprepare
  obtain ⟨-, -, -, -, -, ⟨⟩⟩ := hprepare
  rcases (applyAddInlineSpan_fileStep h).1 with h | ⟨hbody, hstep⟩
  · exact .of_eq h
  · exact ⟨_, hstep, .inl ⟨r, rfl, hbody, rfl, rfl, rfl⟩⟩

lemma applyRemoveSpanInitiate_requestStep {r : RemoveSpanInitiateReq}
    (h : applyRemoveSpanInitiate cfg cache db time r.fileId = .ok (db', resp)) :
    RequestStep (.removeSpanInitiate r) db.fileView db'.fileView := by
  rcases (applyRemoveSpanInitiate_fileStep h).1 with hstep | ⟨offset, hstep⟩
  · exact ⟨_, hstep, r, rfl, rfl⟩
  · exact ⟨_, hstep, r, rfl, rfl⟩

lemma applyRemoveInode_requestStep {r : RemoveInodeReq}
    (h : applyRemoveInode db time r = .ok (db', resp)) :
    RequestStep (.removeInode r) db.fileView db'.fileView := by
  unfold applyRemoveInode at h
  split_ifs at h
  · exact .of_fileSide (applyRemoveDirectoryInode_namesStep h).2
  · exact .of_or (applyRemoveFileInode_fileStep h).1 ⟨r, rfl, rfl⟩

/-- **Refinement.** A request that is prepared and applied takes a step of the file machine. -/
theorem prepared_requestStep (hprepare : prepareLogEntry cfg time pick req = .ok entry)
    (h : applyEntryBody cfg cache db entry.time entry.body = .ok (db', resp)) :
    RequestStep req db.fileView db'.fileView := by
  obtain ⟨body, hprepared, rfl⟩ := prepareLogEntry_eq_ok hprepare
  cases hprepared with
  | constructFile r =>
    obtain ⟨f, hstep⟩ := (applyConstructFile_fileStep h).1
    exact ⟨_, hstep, r, rfl⟩
  | linkFile r => exact .of_or (applyLinkFile_fileStep h).1.1 ⟨r, rfl, rfl⟩
  | removeInode => exact applyRemoveInode_requestStep h
  | sameShardHardFileUnlink r =>
    exact .of_or (applySameShardHardFileUnlink_fileStep h).1.1 (.inl ⟨r, rfl, rfl⟩)
  | removeSpanInitiate => exact applyRemoveSpanInitiate_requestStep h
  | addInlineSpan r e he => exact addInlineSpan_requestStep he h
  | addSpanInitiate r e he | addSpanInitiateWithReference r ref e he
  | addSpanAtLocationInitiate location r ref e he => exact addSpan_requestStep rfl he h
  | addSpanCertify r => exact .of_or (applyAddSpanCertify_fileStep h).1 ⟨r, rfl, rfl⟩
  | makeFileTransient r =>
    exact .of_or (applyMakeFileTransient_fileStep h).1.1 (.inr ⟨r, rfl, rfl⟩)
  | scrapTransientFile => exact .of_fileSide (applyScrapTransientFile_fileSide h).1
  | removeSpanCertify r =>
    exact .of_or (applyRemoveSpanCertify_fileStep h).1 ⟨r, rfl, rfl, rfl⟩
  | swapBlocks r hne => exact .of_or ((applySwapBlocks_fileStep h).1 hne) ⟨r, rfl, rfl, rfl⟩
  | moveSpan r => exact .of_or (applyMoveSpan_fileStep h).1 ⟨r, rfl, rfl, rfl⟩
  | setTime => exact .of_fileSide (applySetTime_fileSide h).1
  | removeZeroBlockServiceFiles =>
    exact .of_fileSide (applyRemoveZeroBlockServiceFiles_fileSide h).1
  | swapSpans r hne => exact .of_or ((applySwapSpans_fileStep h).1 hne) ⟨r, rfl, rfl, rfl⟩
  | addSpanLocation r hne =>
    exact .of_or ((applyAddSpanLocation_fileStep h).1 hne) ⟨r, rfl, rfl, rfl⟩
  -- the rest is about directories and edges
  | _ => exact .of_fileSide (applyEntryBody_fileSide h trivial)

/-- A step of a shard takes a step of the file machine. -/
theorem shardStep_requestStep {step : ShardStep} (h : shardStep cfg db step = some db') :
    RequestStep step.req db.fileView db'.fileView := by
  rcases shardStep_eq_some h with ⟨entry, resp, index, hprepare, batch, happly, rfl⟩ | rfl |
    ⟨index, time, rfl⟩
  · have hstep := prepared_requestStep hprepare happly
    exact hstep
  · exact .of_eq rfl
  · exact .of_eq rfl

end

end TernFS
