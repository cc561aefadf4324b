/-
# Requests that list the blocks of a span

`RemoveSpanCertify` brings a proof for each block of the span it removes, and `SwapSpans` the ids of
the blocks of the spans it exchanges.  Both walk over the locations of a span and over the list at
once.  The first one always gives each block its own proof, but it takes the span that it is given
for the last one of the file.  The other one runs over the whole list at the first location, so that
it never gets to a second one.
-/
import TernFS.Shard.Failures
import TernFS.Shard.SwapRetries
import TernFS.Shard.SpanStates

namespace TernFS

open Lib List

variable {cfg : ShardConfig} {cache : BlockServicesCache} {db db' : ShardDB} {time : ℕ}
  {resp : ShardResp}

/-! ## Removing a span -/

/-- The proof carries the id of the block, and it is the MAC for having erased that block. -/
def ErasedOwn (cache : BlockServicesCache) (block : BlockBody) (proof : BlockProof) : Prop :=
  block.blockId = proof.blockId ∧ ∃ service, cache block.blockService = some service ∧
    proof.proof = blockMac service.secretKey block.blockService 'E' block.blockId []

variable {blocks : List BlockBody} {idx idx' : ℕ} {proofs : List BlockProof}

/-- A position that fits one byte is kept in one byte. -/
lemma checkDeleteProofs_lt
    (h : checkDeleteProofs cache proofs idx blocks = .ok idx') (hidx : idx < 256) : idx' < 256 := by
  induction blocks generalizing idx with
  | nil =>
    cases h
    exact hidx
  | cons block blocks ih =>
    simp only [checkDeleteProofs, bind_eq_ok, check_eq_ok, exists_const] at h
    obtain ⟨-, -, -, -, -, -, h⟩ := h
    exact ih h (Nat.mod_lt _ (by decide))

variable {locs : List SpanBlocksBody}

lemma checkDeleteProofsAt_lt
    (h : checkDeleteProofsAt cache proofs idx locs = .ok idx') (hidx : idx < 256) : idx' < 256 := by
  induction locs generalizing idx with
  | nil =>
    cases h
    exact hidx
  | cons loc locs ih =>
    simp only [checkDeleteProofsAt, bind_eq_ok, check_eq_ok, exists_const] at h
    obtain ⟨-, idx₁, hloc, h⟩ := h
    exact ih h (checkDeleteProofs_lt hloc hidx)

/-- As long as the position fits one byte, each block is checked against its own proof. -/
lemma checkDeleteProofs_eq_ok
    (h : checkDeleteProofs cache proofs idx blocks = .ok idx') (hidx : idx + blocks.length < 256) :
    idx' = idx + blocks.length ∧
      List.Forall₂ (ErasedOwn cache) blocks ((proofs.drop idx).take blocks.length) := by
  induction blocks generalizing idx with
  | nil =>
    cases h
    exact ⟨rfl, .nil⟩
  | cons block blocks ih =>
    simp only [checkDeleteProofs, checkBlockDeleteProof, bind_eq_ok, orFail_eq_ok, check_eq_ok,
      pure_eq_ok, exists_const] at h
    obtain ⟨proof, hproof, hid, _, ⟨service, hservice, rfl⟩, hgood, h⟩ := h
    rw [length_cons] at hidx
    rw [Nat.mod_eq_of_lt (by omega)] at h
    obtain ⟨rfl, hrest⟩ := ih h (by omega)
    obtain ⟨hlt, rfl⟩ := List.getElem?_eq_some_iff.1 hproof
    rw [drop_eq_getElem_cons hlt, length_cons, take_succ_cons]
    refine ⟨by omega, .cons ⟨hid, service, hservice, ?_⟩ hrest⟩
    rw [hid]
    exact of_decide_eq_true hgood

/-- The position stays below the number of proofs, so the locations go on one behind the other. -/
lemma checkDeleteProofsAt_eq_ok (hlength : proofs.length < 256)
    (h : checkDeleteProofsAt cache proofs idx locs = .ok idx') :
    idx' = idx + (locs.flatMap SpanBlocksBody.blocks).length ∧
      List.Forall₂ (ErasedOwn cache) (locs.flatMap SpanBlocksBody.blocks)
        ((proofs.drop idx).take (locs.flatMap SpanBlocksBody.blocks).length) := by
  induction locs generalizing idx with
  | nil =>
    cases h
    exact ⟨rfl, .nil⟩
  | cons loc locs ih =>
    simp only [checkDeleteProofsAt, bind_eq_ok, check_eq_ok, exists_const] at h
    obtain ⟨hroom, idx₁, hloc, h⟩ := h
    rw [← loc.blocks_length] at hroom
    obtain ⟨rfl, hfirst⟩ := checkDeleteProofs_eq_ok hloc (by omega)
    obtain ⟨rfl, hrest⟩ := ih h
    rw [flatMap_cons, length_append, take_add, drop_drop]
    exact ⟨by omega, rel_append hfirst hrest⟩

/-- The last span of a file. -/
structure ShardDB.LastSpan (db : ShardDB) (k : SpanKey) (span : SpanBody) : Prop where
  get : db.spans.get k = some span
  le : ∀ k', db.spans.get k' ≠ none → k'.fileId = k.fileId → k'.offset ≤ k.offset

/-- The last span of a file that is condemned is removed, with a proof for each of its blocks. -/
structure RemovesLast (cache : BlockServicesCache) (db : ShardDB) (e : SpanCertifyEntry)
    (span : SpanBody) (db' : ShardDB) : Prop where
  last : db.LastSpan ⟨e.fileId, e.byteOffset⟩ span
  condemned : ∃ file, db.transientFiles.get e.fileId = some file ∧ file.lastSpanState = .condemned
  proofs : List.Forall₂ (ErasedOwn cache) span.blocks e.proofs
  spans : db'.spans = db.spans.delete ⟨e.fileId, e.byteOffset⟩
  size : ∃ file, db'.transientFiles.get e.fileId = some file ∧ file.fileSize = e.byteOffset

/-- A span is removed as the last one exactly if it is the one that the request names, and without
such a span no span is touched. -/
theorem removesLast_iff {e : SpanCertifyEntry}
    (h : applyRemoveSpanCertify cfg cache db time e = .ok (db', resp)) :
    (db.spans.get ⟨e.fileId, e.byteOffset⟩ = none → db'.spans = db.spans) ∧
      ∀ span, db.spans.get ⟨e.fileId, e.byteOffset⟩ = some span →
        (RemovesLast cache db e span db' ↔ db.LastSpan ⟨e.fileId, e.byteOffset⟩ span) := by
  simp only [applyRemoveSpanCertify, bind_eq_ok, initiateTransientFileModification_eq_ok_iff,
    Prod.exists] at h
  obtain ⟨_, _, ⟨-, file, hfile, -, -, rfl, rfl⟩, h⟩ := h
  refine ⟨fun hnone => ?_, fun span hspan => ⟨RemovesLast.last, fun hlast => ?_⟩⟩
  · rw [hnone] at h
    cases h
    rfl
  simp only [hspan, bind_eq_ok, check_eq_ok, exists_const] at h
  obtain ⟨-, hcondemned, idx, hproofs, rfl, ⟨⟩⟩ := h
  have hlength := checkDeleteProofsAt_lt hproofs (by decide)
  obtain ⟨hidx, herased⟩ := checkDeleteProofsAt_eq_ok hlength hproofs
  rw [Nat.zero_add] at hidx
  rw [drop_zero, ← hidx, take_length] at herased
  obtain ⟨index, hindex, -⟩ := foldl_addBlockServicesToFiles
    { db with transientFiles := db.transientFiles.put e.fileId (file.touch cfg time true) }
    span.blocks e.fileId (-1)
  rw [hindex]
  exact ⟨hlast, ⟨file, hfile, hcondemned⟩, herased, rfl, _, SortedStore.get_put_self _ _ _, rfl⟩

/-- A file of two spans, the last of which is condemned. -/
def sampleCondemned : List ShardStep :=
  [sampleStep 1 sampleConstruct, sampleStep 2 (sampleAddSpan (sampleFile 1) 0 4096),
    sampleStep 3 (sampleCertify (sampleFile 1) 0 256),
    sampleStep 4 (sampleAddSpan (sampleFile 1) 4096 4096),
    sampleStep 5 (sampleCertify (sampleFile 1) 4096 512),
    sampleStep 6 (.removeSpanInitiate ⟨sampleFile 1, sampleConfig.calcCookie (sampleFile 1)⟩)]

/-- Remove a span of one block, which was erased. -/
def sampleRemove (offset blockId : ℕ) : SpanCertifyEntry :=
  ⟨sampleFile 1, offset, [⟨blockId, blockMac sampleKey 1 'E' blockId []⟩]⟩

theorem removesLast_of_condemned :
    ∃ db out, run (shardStep sampleConfig) (initDb sampleConfig 0) sampleCondemned = some db ∧
      applyRemoveSpanCertify sampleConfig sampleCache db 7 (sampleRemove 4096 512) = .ok out ∧
      ∃ span, RemovesLast sampleCache db (sampleRemove 4096 512) span out.1 := by
  simp only [exists_and_left]
  refine exists_eq_some_imp (fun db _ (h : ∃ out,
    applyRemoveSpanCertify sampleConfig sampleCache db 7 (sampleRemove 4096 512) = .ok out ∧
      db.spans.get ⟨sampleFile 1, 4096⟩ ≠ none ∧
      ∀ e ∈ db.spans.entries, e.1.offset ≤ 4096) => ?_) (by decide +kernel)
  obtain ⟨out, happly, hspan, hle⟩ := h
  obtain ⟨span, hspan⟩ := Option.ne_none_iff_exists'.1 hspan
  refine ⟨out, happly, span, ((removesLast_iff happly).2 span hspan).2 ⟨hspan, fun k hk _ => ?_⟩⟩
  obtain ⟨span', hspan'⟩ := Option.ne_none_iff_exists'.1 hk
  exact hle (k, span') (SortedStore.mem_entries_iff.2 hspan')

/-- The request names the span before it, which is removed. -/
theorem not_removesLast_of_condemned :
    ∃ db out, run (shardStep sampleConfig) (initDb sampleConfig 0) sampleCondemned = some db ∧
      applyRemoveSpanCertify sampleConfig sampleCache db 7 (sampleRemove 0 256) = .ok out ∧
      out.1.spans ≠ db.spans ∧
      ∀ span, ¬ RemovesLast sampleCache db (sampleRemove 0 256) span out.1 := by
  simp only [exists_and_left]
  refine exists_eq_some_imp (fun db _ (h : ∃ out,
    applyRemoveSpanCertify sampleConfig sampleCache db 7 (sampleRemove 0 256) = .ok out ∧
      out.1.spans ≠ db.spans ∧
      db.spans.get ⟨sampleFile 1, 4096⟩ ≠ none) => ?_) (by decide +kernel)
  obtain ⟨out, happly, hchanged, hspan⟩ := h
  refine ⟨out, happly, hchanged, fun span hremoves => ?_⟩
  exact absurd (hremoves.last.le ⟨sampleFile 1, 4096⟩ hspan rfl) (by decide)

/-! ## Swapping spans -/

/-- The ids are those of the blocks of the first location, and there are more. -/
def SpanBody.Overrun (s : SpanBody) (ids : List ℕ) : Prop :=
  ∃ first ∈ s.locations.head?, first.blocks.map BlockBody.blockId <+: ids ∧
    first.blocks.length < ids.length

instance (s : SpanBody) (ids : List ℕ) : Decidable (s.Overrun ids) :=
  inferInstanceAs (Decidable (∃ first ∈ s.locations.head?, _))

variable {s s₁ s₂ : SpanBody} {ids ids₁ ids₂ : List ℕ}

/-- Comparing the blocks of a location fails on ids that go on behind them. -/
lemma blocksMatchIn_eq : blocksMatchIn blocks ids =
    if blocks.map BlockBody.blockId <+: ids ∧ blocks.length < ids.length then .error .crash
    else .ok (decide (ids <+: blocks.map BlockBody.blockId)) := by
  induction blocks generalizing ids with
  | nil =>
    cases ids with
    | nil => rfl
    | cons => simp [blocksMatchIn]
  | cons block blocks ih =>
    cases ids with
    | nil => simp [blocksMatchIn, pure, Except.pure]
    | cons =>
      rw [blocksMatchIn]
      split_ifs with hid <;> simp_all [cons_prefix_cons, eq_comm, pure, Except.pure]

/-- Unless the list overruns the first location, the comparison is exact: a span of several
locations is never matched. -/
lemma blocksMatch_eq (hblocks : ¬ s.IsInlineStorage) : blocksMatch s ids =
    if s.Overrun ids then .error .crash else .ok (decide (s.blockIds = ids)) := by
  obtain ⟨size, crc, _ | ⟨first, rest⟩⟩ := s
  · exact absurd trivial hblocks
  have hover : (⟨size, crc, .blocks first rest⟩ : SpanBody).Overrun ids ↔
      first.blocks.map BlockBody.blockId <+: ids ∧ first.blocks.length < ids.length := by
    simp [SpanBody.Overrun, SpanBody.locations]
  have hids : (⟨size, crc, .blocks first rest⟩ : SpanBody).blockIds =
      first.blocks.map BlockBody.blockId ++
        (rest.flatMap SpanBlocksBody.blocks).map BlockBody.blockId := map_append
  show blocksMatchFrom ids 0 (first :: rest) = _
  simp only [hover]
  rw [blocksMatchFrom, Nat.zero_add, drop_zero, blocksMatchIn_eq, hids, ← first.blocks_length]
  split_ifs with hshort hlong hlong
  · omega
  · rw [decide_eq_false]
    · rfl
    · rintro rfl
      simp at hshort
  · rfl
  · rw [ok_bind]
    by_cases hprefix : ids <+: first.blocks.map BlockBody.blockId
    · obtain rfl := hprefix.eq_of_length_le (by simpa using hshort)
      rw [decide_eq_true hprefix, if_pos rfl]
      cases rest with
      | nil => simp [blocksMatchFrom, pure, Except.pure]
      | cons loc =>
        have hpos : 0 < loc.blocks.length := by
          rw [loc.blocks_length, Parity.blocks]
          have hdata := loc.allocated.2.1
          omega
        rw [blocksMatchFrom, if_pos (by rw [← loc.blocks_length]; omega), decide_eq_false]
        · rfl
        · simp [ne_nil_of_length_pos hpos]
    · rw [decide_eq_false hprefix, decide_eq_false]
      · rfl
      rintro rfl
      have hnil := not_and.1 hlong (prefix_append _ _)
      rw [length_append, length_map, Nat.lt_add_right_iff_pos, length_pos_iff, not_not] at hnil
      exact hprefix (by rw [hnil, append_nil])

/-- The first list overruns the first span, or it is the list of that span and the second one
overruns the second span. -/
def SpanBody.OverrunsOf (s₁ : SpanBody) (ids₁ : List ℕ) (s₂ : SpanBody) (ids₂ : List ℕ) : Prop :=
  s₁.Overrun ids₁ ∨ s₁.blockIds = ids₁ ∧ s₂.Overrun ids₂

instance : Decidable (s₁.OverrunsOf ids₁ s₂ ids₂) := inferInstanceAs (Decidable (_ ∨ _))

lemma bothMatch_eq (hblocks : ¬ s₁.IsInlineStorage ∧ ¬ s₂.IsInlineStorage) :
    bothMatch s₁ ids₁ s₂ ids₂ = if s₁.OverrunsOf ids₁ s₂ ids₂ then .error .crash
      else .ok (decide (s₁.blockIds = ids₁ ∧ s₂.blockIds = ids₂)) := by
  rw [bothMatch, blocksMatch_eq hblocks.1, blocksMatch_eq hblocks.2]
  by_cases hover : s₁.Overrun ids₁
  · simp [SpanBody.OverrunsOf, hover, error_bind]
  · by_cases hids : s₁.blockIds = ids₁ <;>
      simp [SpanBody.OverrunsOf, hover, hids, ok_bind, pure, Except.pure]

/-- Two spans of blocks with the same size and checksum. -/
def SpanBody.Alike (s₁ s₂ : SpanBody) : Prop :=
  (¬ s₁.IsInlineStorage ∧ ¬ s₂.IsInlineStorage) ∧ s₁.spanSize = s₂.spanSize ∧ s₁.crc = s₂.crc

instance : Decidable (s₁.Alike s₂) := inferInstanceAs (Decidable (_ ∧ _))

namespace SwapSpansReq

variable {e : SwapSpansReq}

/-- Whether the states of both spans are read as clean, with the ends taken from the lengths of the
records. -/
def readsClean (db : ShardDB) (e : SwapSpansReq) (s₁ s₂ : SpanBody) : Checked Bool := do
  let state1 ← fetchSpanState db e.fileId1 (addU64 e.byteOffset1 s₁.size)
  let state2 ← fetchSpanState db e.fileId2 (addU64 e.byteOffset2 s₂.size)
  return decide (state1 = .clean ∧ state2 = .clean)

/-- Both spans are clean. -/
def Clean (db : ShardDB) (e : SwapSpansReq) : Prop :=
  db.spanState ⟨e.fileId1, e.byteOffset1⟩ = .clean ∧ db.spanState ⟨e.fileId2, e.byteOffset2⟩ = .clean

instance : Decidable (e.Clean db) := inferInstanceAs (Decidable (_ ∧ _))

/-- The lists are those of the two spans. -/
def Names (e : SwapSpansReq) (s₁ s₂ : SpanBody) : Prop :=
  s₁.blockIds = e.blocks1 ∧ s₂.blockIds = e.blocks2

instance : Decidable (e.Names s₁ s₂) := inferInstanceAs (Decidable (_ ∧ _))

/-- The spans are exchanged exactly if the lists are theirs.  If they are the other way round, it
was done before.  In all other cases the request fails. -/
def Exact (db : ShardDB) (e : SwapSpansReq) (s₁ s₂ : SpanBody) : Prop :=
  if (s₁.Alike s₂ ∧ e.Clean db) ∧ e.Names s₂ s₁ then applySwapSpans db e = .ok (db, .done)
  else if (s₁.Alike s₂ ∧ e.Clean db) ∧ e.Names s₁ s₂ then
    ∃ db', applySwapSpans db e = .ok (db', .done) ∧ db'.spans =
      (db.spans.put ⟨e.fileId1, e.byteOffset1⟩ s₂).put ⟨e.fileId2, e.byteOffset2⟩ s₁
  else ∃ err, applySwapSpans db e = .error (.err err)

/-- A list overruns the span that it is compared with.  The lists the other way round are compared
first. -/
def Overruns (e : SwapSpansReq) (s₁ s₂ : SpanBody) : Prop :=
  s₁.OverrunsOf e.blocks2 s₂ e.blocks1 ∨
    ¬ e.Names s₂ s₁ ∧ s₁.OverrunsOf e.blocks1 s₂ e.blocks2

instance : Decidable (e.Overruns s₁ s₂) := inferInstanceAs (Decidable (_ ∨ _))

/-- The condition for spans that are alike: their states can be read, they are read as they are if
the lists are those of the spans, and no list overruns if both are read as clean. -/
def ReadOk (db : ShardDB) (e : SwapSpansReq) (s₁ s₂ : SpanBody) : Prop :=
  ∃ clean, e.readsClean db s₁ s₂ = .ok clean ∧
    (e.Names s₁ s₂ ∨ e.Names s₂ s₁ → (clean = true ↔ e.Clean db)) ∧
    (clean = true → ¬ e.Overruns s₁ s₂)

lemma not_exact_of_crash (h : applySwapSpans db e = .error .crash) : ¬ e.Exact db s₁ s₂ := by
  unfold Exact
  split_ifs <;> simp [h]

/-- A state that cannot be read stops the shard. -/
lemma readsClean_failsOnly : FailsOnly (· = .crash) (e.readsClean db s₁ s₂) :=
  .bind (fetchSpanState_failsOnly fun _ => rfl) fun _ _ =>
    .bind (fetchSpanState_failsOnly fun _ => rfl) fun _ _ => failsOnly_pure

section

variable (hspan₁ : db.spans.get ⟨e.fileId1, e.byteOffset1⟩ = some s₁)
  (hspan₂ : db.spans.get ⟨e.fileId2, e.byteOffset2⟩ = some s₂)

include hspan₁ hspan₂

/-- Spans that are not alike are refused before their states are read. -/
lemma apply_of_not_alike (halike : ¬ s₁.Alike s₂) :
    ∃ err, applySwapSpans db e = .error (.err err) := by
  simp only [applySwapSpans, hspan₁, hspan₂, orFail, ok_bind, check, ensure]
  split_ifs with hblocks hsize hcrc
  · exact absurd ⟨hblocks, hsize, hcrc⟩ halike
  all_goals exact ⟨_, rfl⟩

/-- Of spans that are alike the states are read, and then the lists are compared. -/
lemma apply_of_alike (halike : s₁.Alike s₂) : ∃ db' : ShardDB, db'.spans =
        (db.spans.put ⟨e.fileId1, e.byteOffset1⟩ s₂).put ⟨e.fileId2, e.byteOffset2⟩ s₁ ∧
      applySwapSpans db e = e.readsClean db s₁ s₂ >>= fun clean =>
        if clean = false then .error (.err .swapSpansNotClean)
        else if e.Overruns s₁ s₂ then .error .crash
        else if e.Names s₂ s₁ then .ok (db, .done)
        else if e.Names s₁ s₂ then .ok (db', .done)
        else .error (.err .swapSpansMismatchingBlocks) := by
  obtain ⟨hblocks, hsize, hcrc⟩ := halike
  obtain ⟨index, hindex, -⟩ := (moveBlocksToFile_posted db s₁.blocks e.fileId2 e.fileId1).trans
    (moveBlocksToFile_posted _ s₂.blocks e.fileId1 e.fileId2)
  refine ⟨{ db with
    blockServicesToFiles := index
    spans := (db.spans.put ⟨e.fileId1, e.byteOffset1⟩ s₂).put ⟨e.fileId2, e.byteOffset2⟩ s₁ },
    rfl, ?_⟩
  simp only [applySwapSpans, readsClean, hspan₁, hspan₂, orFail, ok_bind, check_of hblocks,
    check_of hsize, check_of hcrc, hindex, bind_assoc, pure_bind, bothMatch_eq hblocks]
  refine bind_congr fun state1 => bind_congr fun state2 => ?_
  by_cases hclean : state1 = .clean ∧ state2 = .clean
  swap
  · rw [check_of_not hclean, decide_eq_false hclean]
    rfl
  rw [check_of hclean, ok_bind, decide_eq_true hclean, if_neg (ne_false_of_eq_true rfl)]
  by_cases hthere : s₁.OverrunsOf e.blocks2 s₂ e.blocks1
  · have hover : e.Overruns s₁ s₂ := .inl hthere
    rw [if_pos hthere, error_bind, if_pos hover]
  rw [if_neg hthere, ok_bind]
  by_cases hswapped : e.Names s₂ s₁
  · have hover : ¬ e.Overruns s₁ s₂ := fun h => h.elim hthere fun h => h.1 hswapped
    rw [decide_eq_true hswapped.symm, if_neg hover, if_pos hswapped]
    rfl
  rw [decide_eq_false (mt And.symm hswapped), if_neg Bool.false_ne_true]
  by_cases hhere : s₁.OverrunsOf e.blocks1 s₂ e.blocks2
  · have hover : e.Overruns s₁ s₂ := .inr ⟨hswapped, hhere⟩
    rw [if_pos hhere, error_bind, if_pos hover]
  have hover : ¬ e.Overruns s₁ s₂ := fun h => h.elim hthere fun h => hhere h.2
  rw [if_neg hhere, ok_bind, if_neg hover, if_neg hswapped]
  by_cases hnames : s₁.blockIds = e.blocks1 ∧ s₂.blockIds = e.blocks2
  · rw [decide_eq_true hnames, if_pos (c := e.Names s₁ s₂) hnames]
    rfl
  · rw [decide_eq_false hnames, if_neg (c := e.Names s₁ s₂) hnames]
    rfl

/-- `SwapSpans` exchanges exactly the spans that are named, if and only if spans that are alike have
their states read as they are and no list overruns a location. -/
theorem exact_iff_readOk : e.Exact db s₁ s₂ ↔ (s₁.Alike s₂ → e.ReadOk db s₁ s₂) := by
  by_cases halike : s₁.Alike s₂
  swap
  · simpa [Exact, halike] using apply_of_not_alike hspan₁ hspan₂ halike
  obtain ⟨db', hspans, happly⟩ := apply_of_alike hspan₁ hspan₂ halike
  rw [imp_iff_right halike]
  cases hread : e.readsClean db s₁ s₂ with
  | error f =>
    obtain rfl : f = .crash := readsClean_failsOnly f hread
    rw [hread, error_bind] at happly
    exact iff_of_false (not_exact_of_crash happly) (by simp [ReadOk, hread])
  | ok clean =>
    rw [hread, ok_bind] at happly
    simp only [Exact, ReadOk, hread, happly, halike, true_and, Except.ok.injEq, exists_eq_left']
    -- what is left is a matter of which of the conditions hold
    cases clean with
    | false =>
      by_cases hclean : e.Clean db <;> by_cases hswapped : e.Names s₂ s₁ <;>
        by_cases hnames : e.Names s₁ s₂ <;> simp [hclean, hswapped, hnames]
    | true =>
      by_cases hover : e.Overruns s₁ s₂ <;> by_cases hclean : e.Clean db <;>
        by_cases hswapped : e.Names s₂ s₁ <;> by_cases hnames : e.Names s₁ s₂ <;>
        simp [hover, hclean, hswapped, hnames, hspans]

end

end SwapSpansReq

/-- A location with one block. -/
def sampleLocation (location blockId : ℕ) : SpanBlocksBody :=
  ⟨location, 2, ⟨1⟩, 1, 4096, [⟨1, blockId, 0⟩], [1], rfl, rfl, by decide⟩

/-- A span with a block at the first location, and maybe one at the second. -/
def sampleMirrored (blockId : ℕ) (mirror : List ℕ) : SpanBody :=
  ⟨4096, 0, .blocks (sampleLocation 0 blockId) (mirror.map (sampleLocation 1))⟩

/-- Two linked files with such spans. -/
def sampleMirrors (mirror₁ mirror₂ : List ℕ) : ShardDB :=
  { initDb sampleConfig 0 with
    files := (SortedStore.empty.put (sampleFile 1) ⟨4096, 0, 0⟩).put (sampleFile 2) ⟨4096, 0, 0⟩
    spans := (SortedStore.empty.put ⟨sampleFile 1, 0⟩ (sampleMirrored 256 mirror₁)).put
      ⟨sampleFile 2, 0⟩ (sampleMirrored 512 mirror₂) }

/-- Swap the spans, by the ids of their blocks. -/
def sampleExchange (mirror₁ mirror₂ : List ℕ) : SwapSpansReq :=
  ⟨sampleFile 1, 0, 256 :: mirror₁, sampleFile 2, 0, 512 :: mirror₂⟩

/-- Spans of one location are exchanged. -/
theorem swapSpans_exact_of_one_location :
    (sampleExchange [] []).Names (sampleMirrored 256 []) (sampleMirrored 512 []) ∧
      (sampleExchange [] []).Exact (sampleMirrors [] []) (sampleMirrored 256 [])
        (sampleMirrored 512 []) :=
  ⟨by decide +kernel, (SwapSpansReq.exact_iff_readOk rfl rfl).2 fun _ =>
    ⟨true, by decide +kernel, fun _ => by decide +kernel, fun _ => by decide +kernel⟩⟩

/-- Spans of two locations are not: the exact lists stop the shard. -/
theorem not_swapSpans_exact_of_two_locations :
    let db := sampleMirrors [768] [1024]
    let e := sampleExchange [768] [1024]
    let s₁ := sampleMirrored 256 [768]
    let s₂ := sampleMirrored 512 [1024]
    s₁.Alike s₂ ∧ e.Clean db ∧ e.Names s₁ s₂ ∧ applySwapSpans db e = .error .crash ∧
      ¬ e.Exact db s₁ s₂ := by
  intro db e s₁ s₂
  have hcrash : applySwapSpans db e = .error .crash := by decide +kernel
  exact ⟨by decide +kernel, by decide +kernel, by decide +kernel, hcrash,
    SwapSpansReq.not_exact_of_crash hcrash⟩

end TernFS
