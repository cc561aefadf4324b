/-
# Retries of swaps, and of all requests that build files

Swaps recognise their retries by the ids of the blocks having changed sides.  With them, the
condition for every kind of request that builds files is complete: the retry of a request that has
succeeded is recognised unless the span is empty, an id occurs twice, or the first application did
not look at what the second one looks at.
-/
import TernFS.Shard.Retries

namespace TernFS

open Lib SortedStore List Option

variable {blockId : ℕ} {s : SpanBody} {found : FoundBlock} {pick pick' : PickBlockServices}
  {req : ShardReq}

variable {cfg : ShardConfig} {cache : BlockServicesCache} {db db' batch : ShardDB}
  {time time' logIndex : ℕ} {resp : ShardResp}

/-! ## Swapping spans -/

lemma bothMatch_eq_true {span1 span2 : SpanBody} {ids1 ids2 : List ℕ} :
    bothMatch span1 ids1 span2 ids2 = .ok true ↔
      blocksMatch span1 ids1 = .ok true ∧ blocksMatch span2 ids2 = .ok true := by
  rw [bothMatch]
  cases hmatch : blocksMatch span1 ids1 with
  | error => simp [error_bind]
  | ok b => cases b <;> simp [ok_bind, pure_eq_ok]

/-- The spans are swapped already, or they still count as clean at each other's place. -/
def SwapSpansReq.CleanBothWays (db : ShardDB) (e : SwapSpansReq) : Prop :=
  ∀ span1 span2, db.spans.get ⟨e.fileId1, e.byteOffset1⟩ = some span1 →
    db.spans.get ⟨e.fileId2, e.byteOffset2⟩ = some span2 →
    bothMatch span1 e.blocks2 span2 e.blocks1 = .ok true ∨
      fetchSpanState db e.fileId1 (addU64 e.byteOffset1 span2.size) = .ok .clean ∧
        fetchSpanState db e.fileId2 (addU64 e.byteOffset2 span1.size) = .ok .clean

/-- `SwapSpans` takes the end of a span from the length of its record, and that of the other span
can be the end of the file. -/
lemma answersAgain_swapSpans {e : SwapSpansReq} (hids : e.fileId1 ≠ e.fileId2)
    (h : applySwapSpans db e = .ok (batch, resp)) :
    AnswersAgain cfg cache (batch.advance logIndex time) time' (.swapSpans e) resp ↔
      e.CleanBothWays db := by
  simp only [applySwapSpans, bind_eq_ok, orFail_eq_ok, check_eq_ok, exists_const] at h
  obtain ⟨span1, hspan1, span2, hspan2, ⟨hblocks1, hblocks2⟩, hsize, hcrc, state1, hstate1, state2,
    hstate2, ⟨rfl, rfl⟩, swapped, hswapped, h⟩ := h
  have hiff : e.CleanBothWays db ↔ bothMatch span1 e.blocks2 span2 e.blocks1 = .ok true ∨
      fetchSpanState db e.fileId1 (addU64 e.byteOffset1 span2.size) = .ok .clean ∧
        fetchSpanState db e.fileId2 (addU64 e.byteOffset2 span1.size) = .ok .clean := by
    grind [SwapSpansReq.CleanBothWays]
  rw [hiff]
  cases swapped with
  | true =>
    -- nothing was changed, so the second application is the first one
    simp only [if_true, pure_eq_ok, Prod.mk.injEq] at h
    obtain ⟨rfl, rfl⟩ := h
    refine iff_of_true ⟨db.advance logIndex time, ?_, .refl _⟩ (.inl hswapped)
    change applySwapSpans _ _ = _
    simp only [applySwapSpans, bind_eq_ok, orFail_eq_ok, check_eq_ok, exists_const]
    exact ⟨span1, hspan1, span2, hspan2, ⟨hblocks1, hblocks2⟩, hsize, hcrc, .clean, hstate1, .clean,
      hstate2, ⟨rfl, rfl⟩, true, hswapped, if_pos rfl⟩
  | false =>
    simp only [Bool.false_eq_true, if_false, bind_eq_ok, check_eq_ok, exists_const] at h
    obtain ⟨_, hexpected, rfl, ⟨⟩⟩ := h
    obtain ⟨hmatch1, hmatch2⟩ := bothMatch_eq_true.mp hexpected
    have hnot : bothMatch span1 e.blocks2 span2 e.blocks1 ≠ .ok true := by
      rw [hswapped]
      simp
    have hkeys : (⟨e.fileId1, e.byteOffset1⟩ : SpanKey) ≠ ⟨e.fileId2, e.byteOffset2⟩ := by
      simp [hids]
    obtain ⟨index, hindex, -⟩ :=
      (moveBlocksToFile_posted db span1.blocks e.fileId2 e.fileId1).trans
        (moveBlocksToFile_posted _ span2.blocks e.fileId1 e.fileId2)
    rw [or_iff_right hnot, hindex]
    -- each span is found at the place of the other
    have hget1 : ((db.spans.put ⟨e.fileId1, e.byteOffset1⟩ span2).put ⟨e.fileId2, e.byteOffset2⟩
        span1).get ⟨e.fileId1, e.byteOffset1⟩ = some span2 :=
      (get_put_of_ne hkeys.symm).trans (get_put_self _ _ _)
    have hget2 : ((db.spans.put ⟨e.fileId1, e.byteOffset1⟩ span2).put ⟨e.fileId2, e.byteOffset2⟩
        span1).get ⟨e.fileId2, e.byteOffset2⟩ = some span1 := get_put_self _ _ _
    constructor
    · rintro ⟨batch₂, happly, -⟩
      change applySwapSpans _ _ = _ at happly
      simp only [applySwapSpans, bind_eq_ok, orFail_eq_ok, check_eq_ok, exists_const] at happly
      obtain ⟨span1', hspan1', span2', hspan2', -, -, -, _, hstate1', _, hstate2', ⟨rfl, rfl⟩, -⟩ :=
        happly
      obtain rfl := mem_unique hget1 hspan1'
      obtain rfl := mem_unique hget2 hspan2'
      exact ⟨hstate1', hstate2'⟩
    · rintro ⟨hstate1', hstate2'⟩
      refine ⟨_, ?_, .refl _⟩
      change applySwapSpans _ _ = _
      simp only [applySwapSpans, bind_eq_ok, orFail_eq_ok, check_eq_ok, exists_const]
      exact ⟨span2, hget1, span1, hget2, ⟨hblocks2, hblocks1⟩, hsize.symm, hcrc.symm, .clean,
        hstate1', .clean, hstate2', ⟨rfl, rfl⟩, true, bothMatch_eq_true.mpr ⟨hmatch2, hmatch1⟩,
        if_pos rfl⟩

/-! ## Swapping blocks -/

lemma findBlockIn_eq_none_iff {locs : List SpanBlocksBody} : findBlockIn blockId locs = none ↔
      blockId ∉ (locs.flatMap SpanBlocksBody.blocks).map BlockBody.blockId := by
  induction locs with
  | nil => simp [findBlockIn]
  | cons loc locs ih =>
    rw [flatMap_cons, map_append, mem_append, not_or, ← ih, findBlockIn]
    cases hidx : loc.blocks.findIdx? fun block => block.blockId = blockId with
    | none =>
      rw [findIdx?_eq_none_iff] at hidx
      simpa using fun _ block hblock => of_decide_eq_false (hidx block hblock)
    | some =>
      obtain ⟨hlt, hid, -⟩ := findIdx?_eq_some_iff_getElem.1 hidx
      have hmem : blockId ∈ loc.blocks.map BlockBody.blockId :=
        mem_map.mpr ⟨_, getElem_mem hlt, of_decide_eq_true hid⟩
      simp only [getElem?_eq_getElem hlt, map_some, reduceCtorEq, false_iff]
      exact fun hnot => hnot.1 hmem

/-- A block is found where it was written, if it has the id that was looked for. -/
lemma findBlockIn_setBlock {locs : List SpanBlocksBody}
    (h : findBlockIn blockId locs = some found) {block : BlockBody}
    (hid : block.blockId = blockId) :
    ∃ loc, findBlockIn blockId (locs.modify found.locIdx (·.setBlock found.blockIdx block)) =
      some ⟨found.locIdx, loc, found.blockIdx, block⟩ := by
  induction locs generalizing found with
  | nil => cases h
  | cons loc locs ih =>
    rw [findBlockIn] at h
    split at h
    · next i hi =>
      obtain ⟨hlt, -, hbefore⟩ := findIdx?_eq_some_iff_getElem.1 hi
      rw [getElem?_eq_getElem hlt, map_some, some.injEq] at h
      subst h
      have hlt' : i < (loc.blocks.set i block).length := by rwa [length_set]
      have hi' : (loc.blocks.set i block).findIdx? (fun block => block.blockId = blockId) =
          some i := by
        refine findIdx?_eq_some_iff_getElem.2 ⟨hlt', ?_, fun j hj => ?_⟩
        · rw [getElem_set_self]
          exact decide_eq_true hid
        · rw [getElem_set_ne (Nat.ne_of_gt hj)]
          exact hbefore j hj
      refine ⟨loc.setBlock i block, ?_⟩
      simp only [modify_zero_cons, findBlockIn, SpanBlocksBody.setBlock, hi']
      rw [getElem?_eq_getElem hlt', getElem_set_self]
      rfl
    · next hnone =>
      obtain ⟨found', hfound, rfl⟩ := map_eq_some_iff.1 h
      obtain ⟨loc', hloc'⟩ := ih hfound
      refine ⟨loc', ?_⟩
      simp only [modify_succ_cons, findBlockIn, hnone, hloc', map_some]

namespace SpanBody

lemma size_setBlock (s : SpanBody) (locIdx blockIdx : ℕ) (block : BlockBody) :
    (s.setBlock locIdx blockIdx block).size = s.size := by
  obtain ⟨spanSize, crc, storage⟩ := s
  cases storage with
  | inline => rfl
  | blocks first rest =>
    cases locIdx with
    | zero => rfl
    | succ l =>
      have hsizes : (rest.modify l (·.setBlock blockIdx block)).map SpanBlocksBody.size =
          rest.map SpanBlocksBody.size := by
        refine ext_getElem? fun i => ?_
        rw [getElem?_map, getElem?_map, getElem?_modify]
        split_ifs
        · exact map_map _ _ _
        · simp
      simp only [setBlock, size, map_cons, hsizes]

lemma isInlineStorage_setBlock (s : SpanBody) (locIdx blockIdx : ℕ) (block : BlockBody) :
    (s.setBlock locIdx blockIdx block).IsInlineStorage ↔ s.IsInlineStorage := by
  obtain ⟨spanSize, crc, storage⟩ := s
  cases storage with
  | inline => rfl
  | blocks => cases locIdx <;> rfl

lemma setBlock_self (h : findBlockIn blockId s.locations = some found) :
    s.setBlock found.locIdx found.blockIdx found.block = s := by
  obtain ⟨hloc, hblock, -⟩ := findBlockIn_eq_some h
  obtain ⟨hlt, hget⟩ := List.getElem?_eq_some_iff.mp hblock
  have hsame : found.loc.setBlock found.blockIdx found.block = found.loc := by
    simp only [SpanBlocksBody.setBlock, ← hget, set_getElem_self]
  obtain ⟨spanSize, crc, storage⟩ := s
  cases storage with
  | inline => rfl
  | blocks first rest =>
    obtain ⟨locIdx, loc, blockIdx, block⟩ := found
    cases locIdx with
    | zero =>
      obtain rfl : first = loc := some_inj.mp hloc
      simp only [setBlock, hsame]
    | succ l =>
      have hrest : rest.modify l (·.setBlock blockIdx block) = rest := by
        refine ext_getElem? fun i => ?_
        rw [getElem?_modify]
        split_ifs with hi
        · subst hi
          have hl : rest[l]? = some loc := hloc
          rw [hl]
          exact congrArg some hsame
        · simp
      simp only [setBlock, hrest]

/-- The ids of the blocks. -/
def blockIds (s : SpanBody) : List ℕ := s.blocks.map BlockBody.blockId

/-- Which blocks with the id are left when the one that is found is overwritten. -/
lemma mem_blockIds_setBlock (h : findBlockIn blockId s.locations = some found) (block : BlockBody) :
    blockId ∈ (s.setBlock found.locIdx found.blockIdx block).blockIds ↔
      block.blockId = blockId ∨ s.blockIds.count blockId ≠ 1 := by
  obtain ⟨-, -, hid⟩ := findBlockIn_eq_some h
  obtain ⟨rest, hperm, hset⟩ := perm_setBlock h
  rw [blockIds, blockIds, ((hset block).map _).mem_iff, (hperm.map _).count_eq, map_cons,
    map_cons, hid, count_cons_self, mem_cons, ← count_pos_iff]
  omega

lemma mem_blockIds_setBlock_self (h : findBlockIn blockId s.locations = some found)
    (block : BlockBody) :
    block.blockId ∈ (s.setBlock found.locIdx found.blockIdx block).blockIds := by
  obtain ⟨rest, -, hset⟩ := perm_setBlock h
  rw [blockIds, ((hset block).map _).mem_iff]
  exact mem_cons_self

end SpanBody

/-- Overwriting a block changes the span, unless the block is there already. -/
lemma SpanBody.eq_of_setBlock_eq_self {block : BlockBody}
    (h : findBlockIn blockId s.locations = some found)
    (heq : s.setBlock found.locIdx found.blockIdx block = s) : found.block = block := by
  obtain ⟨rest, hperm, hset⟩ := SpanBody.perm_setBlock h
  have hrest : (found.block :: rest).Perm (block :: rest) := by
    refine hperm.symm.trans ?_
    have hblock := hset block
    rwa [heq] at hblock
  exact (Multiset.cons_inj_left (rest : Multiset BlockBody)).mp (Multiset.coe_eq_coe.mpr hrest)

lemma findBlockIn_eq_none : findBlockIn blockId s.locations = none ↔ blockId ∉ s.blockIds :=
  findBlockIn_eq_none_iff

lemma isSome_findBlockIn : (findBlockIn blockId s.locations).isSome ↔ blockId ∈ s.blockIds := by
  rw [← not_iff_not, not_isSome_iff_eq_none, findBlockIn_eq_none]

lemma addBlockServicesToFiles_add (batch : ShardDB) (service : ℕ) (f : InodeId) (c d : ℤ) :
    addBlockServicesToFiles (addBlockServicesToFiles batch service f c) service f d =
      addBlockServicesToFiles batch service f (c + d) := by
  simp only [addBlockServicesToFiles, get_put_self, getD_some, put_put]
  congr 2
  unfold wrapI64
  omega

lemma addBlockServicesToFiles_zero {service : ℕ} {f : InodeId}
    (h : ∃ n, db.blockServicesToFiles.get ⟨service, f⟩ = some (wrapI64 n)) :
    addBlockServicesToFiles db service f 0 = db := by
  obtain ⟨n, h⟩ := h
  have hwrap : wrapI64 (wrapI64 n + 0) = wrapI64 n := by
    unfold wrapI64
    omega
  simp only [addBlockServicesToFiles, h, getD_some, hwrap, put_of_get_eq_some h]

/-- Swapping two blocks on one service a second time does not change the counters. -/
lemma addBlockServicesToFiles_swap_again (db : ShardDB) (service : ℕ) {f1 f2 : InodeId} (hne : f1 ≠ f2)
    (h : db'.blockServicesToFiles = (addBlockServicesToFiles (addBlockServicesToFiles
      (addBlockServicesToFiles (addBlockServicesToFiles db service f1 (-1)) service f1 1)
      service f2 1) service f2 (-1)).blockServicesToFiles) :
    (addBlockServicesToFiles (addBlockServicesToFiles (addBlockServicesToFiles
      (addBlockServicesToFiles db' service f1 (-1)) service f1 1) service f2 1) service f2
      (-1)).blockServicesToFiles = db'.blockServicesToFiles := by
  rw [addBlockServicesToFiles_add, addBlockServicesToFiles_add, neg_add_cancel,
    add_neg_cancel] at h ⊢
  have hkeys : (⟨service, f2⟩ : BlockServiceToFileKey) ≠ ⟨service, f1⟩ := by simp [hne.symm]
  have hzero1 : addBlockServicesToFiles db' service f1 0 = db' := by
    refine addBlockServicesToFiles_zero ?_
    rw [h]
    exact ⟨_, (get_put_of_ne hkeys).trans (get_put_self _ _ _)⟩
  have hzero2 : addBlockServicesToFiles db' service f2 0 = db' := by
    refine addBlockServicesToFiles_zero ?_
    rw [h]
    exact ⟨_, get_put_self _ _ _⟩
  rw [hzero1, hzero2]

/-- What `SwapBlocks` does to the spans it has found. -/
inductive SwappedBlocks (cache : BlockServicesCache) (db : ShardDB) (e : SwapBlocksReq)
    (span1 span2 : SpanBody) : ShardDB → Prop
  | swapped {found1 found2 : FoundBlock}
      (hfound1 : findBlockIn e.blockId1 span1.locations = some found1)
      (hfound2 : findBlockIn e.blockId2 span2.locations = some found2)
      (hsize : found1.loc.blockSize = found2.loc.blockSize)
      (hcrc : found1.block.crc = found2.block.crc)
      (hlocation : found1.loc.location = found2.loc.location)
      (hnew1 : checkNoDuplicates cache found1.loc.blocks found1.blockIdx found2.block = .ok ⟨⟩)
      (hnew2 : checkNoDuplicates cache found2.loc.blocks found2.blockIdx found1.block = .ok ⟨⟩) :
      SwappedBlocks cache db e span1 span2 { db with
          blockServicesToFiles := (addBlockServicesToFiles (addBlockServicesToFiles
            (addBlockServicesToFiles (addBlockServicesToFiles db found1.block.blockService e.fileId1
              (-1)) found2.block.blockService e.fileId1 1) found1.block.blockService e.fileId2 1)
            found2.block.blockService e.fileId2 (-1)).blockServicesToFiles
          spans := (db.spans.put ⟨e.fileId1, e.byteOffset1⟩
            (span1.setBlock found1.locIdx found1.blockIdx found2.block)).put
              ⟨e.fileId2, e.byteOffset2⟩
              (span2.setBlock found2.locIdx found2.blockIdx found1.block) }
  | again (hnone1 : e.blockId1 ∉ span1.blockIds) (hnone2 : e.blockId2 ∉ span2.blockIds)
      (hfound2 : e.blockId2 ∈ span1.blockIds) (hfound1 : e.blockId1 ∈ span2.blockIds) :
      SwappedBlocks cache db e span1 span2 db

lemma applySwapBlocks_eq_ok_iff {e : SwapBlocksReq} :
    applySwapBlocks cache db e = .ok (batch, resp) ↔
      resp = .done ∧ ∃ span1 span2, db.spans.get ⟨e.fileId1, e.byteOffset1⟩ = some span1 ∧
        db.spans.get ⟨e.fileId2, e.byteOffset2⟩ = some span2 ∧
        (¬ span1.IsInlineStorage ∧ ¬ span2.IsInlineStorage) ∧
        (∃ state, fetchSpanState db e.fileId1 (addU64 e.byteOffset1 span1.size) = .ok state ∧
          fetchSpanState db e.fileId2 (addU64 e.byteOffset2 span2.size) = .ok state) ∧
        SwappedBlocks cache db e span1 span2 batch := by
  simp only [applySwapBlocks, bind_eq_ok, orFail_eq_ok, check_eq_ok, exists_const]
  constructor
  · rintro ⟨span1, hspan1, span2, hspan2, hblocks, state, hstate1, _, hstate2, rfl, h⟩
    split at h
    · next found1 found2 hfound1 hfound2 =>
      simp only [bind_eq_ok, check_eq_ok, exists_const] at h
      obtain ⟨hsize, hcrc, hlocation, _, hnew1, _, hnew2, ⟨⟩⟩ := h
      exact ⟨rfl, span1, span2, hspan1, hspan2, hblocks, ⟨state, hstate1, hstate2⟩,
        .swapped hfound1 hfound2 hsize hcrc hlocation hnew1 hnew2⟩
    · next hnone1 hnone2 =>
      simp only [bind_eq_ok, check_eq_ok, exists_const, isSome_findBlockIn] at h
      obtain ⟨⟨hfound2, hfound1⟩, ⟨⟩⟩ := h
      exact ⟨rfl, span1, span2, hspan1, hspan2, hblocks, ⟨state, hstate1, hstate2⟩,
        .again (findBlockIn_eq_none.mp hnone1) (findBlockIn_eq_none.mp hnone2) hfound2 hfound1⟩
    · cases h
  · rintro ⟨rfl, span1, span2, hspan1, hspan2, hblocks, ⟨state, hstate1, hstate2⟩, hswapped⟩
    refine ⟨span1, hspan1, span2, hspan2, hblocks, state, hstate1, state, hstate2, rfl, ?_⟩
    cases hswapped with
    | swapped hfound1 hfound2 hsize hcrc hlocation hnew1 hnew2 =>
      simp only [hfound1, hfound2, bind_eq_ok, check_eq_ok, exists_const]
      exact ⟨hsize, hcrc, hlocation, _, hnew1, _, hnew2, rfl⟩
    | again hnone1 hnone2 hfound2 hfound1 =>
      simp only [findBlockIn_eq_none.mpr hnone1, findBlockIn_eq_none.mpr hnone2, bind_eq_ok,
        check_eq_ok, exists_const, isSome_findBlockIn]
      exact ⟨⟨hfound2, hfound1⟩, rfl⟩

/-- The blocks to be swapped are the only ones of their id, or they are the same. -/
def SwapBlocksReq.IdsOnce (db : ShardDB) (e : SwapBlocksReq) : Prop :=
  ∀ span1 span2 found1 found2, db.spans.get ⟨e.fileId1, e.byteOffset1⟩ = some span1 →
    db.spans.get ⟨e.fileId2, e.byteOffset2⟩ = some span2 →
    findBlockIn e.blockId1 span1.locations = some found1 →
    findBlockIn e.blockId2 span2.locations = some found2 →
    found1.block = found2.block ∨ e.blockId1 ≠ e.blockId2 ∧
      span1.blockIds.count e.blockId1 = 1 ∧ span2.blockIds.count e.blockId2 = 1

/-- `SwapBlocks` recognises its retries by the ids having changed sides. -/
lemma answersAgain_swapBlocks {e : SwapBlocksReq} (hids : e.fileId1 ≠ e.fileId2)
    (h : applySwapBlocks cache db e = .ok (batch, resp)) :
    AnswersAgain cfg cache (batch.advance logIndex time) time' (.swapBlocks e) resp ↔
      e.IdsOnce db := by
  obtain ⟨rfl, span1, span2, hspan1, hspan2, ⟨hblocks1, hblocks2⟩, ⟨state, hstate1, hstate2⟩,
    hswapped⟩ := applySwapBlocks_eq_ok_iff.mp h
  have hkeys : (⟨e.fileId1, e.byteOffset1⟩ : SpanKey) ≠ ⟨e.fileId2, e.byteOffset2⟩ := by
    simp [hids]
  cases hswapped with
  | again hnone1 hnone2 hfound2 hfound1 =>
    refine iff_of_true ⟨_, applySwapBlocks_eq_ok_iff.mpr ⟨rfl, span1, span2, hspan1, hspan2,
      ⟨hblocks1, hblocks2⟩, ⟨state, hstate1, hstate2⟩, .again hnone1 hnone2 hfound2 hfound1⟩,
      .refl _⟩ ?_
    intro span1' span2' found1 found2 hspan1' hspan2' hfound1'
    obtain rfl := mem_unique hspan1 hspan1'
    rw [findBlockIn_eq_none.mpr hnone1] at hfound1'
    cases hfound1'
  | swapped hfound1 hfound2 hsize hcrc hlocation hnew1 hnew2 =>
    rename_i found1 found2
    have hiff : e.IdsOnce db ↔ found1.block = found2.block ∨ e.blockId1 ≠ e.blockId2 ∧
        span1.blockIds.count e.blockId1 = 1 ∧ span2.blockIds.count e.blockId2 = 1 := by
      grind [SwapBlocksReq.IdsOnce]
    have hid1 := (findBlockIn_eq_some hfound1).2.2
    have hid2 := (findBlockIn_eq_some hfound2).2.2
    have hget1 : ((db.spans.put ⟨e.fileId1, e.byteOffset1⟩
        (span1.setBlock found1.locIdx found1.blockIdx found2.block)).put ⟨e.fileId2, e.byteOffset2⟩
          (span2.setBlock found2.locIdx found2.blockIdx found1.block)).get
            ⟨e.fileId1, e.byteOffset1⟩ =
        some (span1.setBlock found1.locIdx found1.blockIdx found2.block) :=
      (get_put_of_ne hkeys.symm).trans (get_put_self _ _ _)
    rw [hiff]
    constructor
    · rintro ⟨batch₂, happly, hsame⟩
      obtain ⟨-, span1', span2', hspan1', hspan2', -, -, hswapped'⟩ :=
        applySwapBlocks_eq_ok_iff.mp happly
      obtain rfl := mem_unique hget1 hspan1'
      obtain rfl := some_inj.mp ((get_put_self _ _ _).symm.trans hspan2')
      cases hswapped' with
      | swapped hfound1' hfound2' =>
        -- swapped back, which is the same only if the blocks are
        rename_i found1' found2'
        left
        have hspans := congrArg (fun spans => spans.get ⟨e.fileId1, e.byteOffset1⟩) hsame.spans
        rw [get_put_of_ne hkeys.symm, get_put_self, hspan1', some_inj] at hspans
        have hblock := SpanBody.eq_of_setBlock_eq_self hfound1' hspans
        have hid : e.blockId1 = e.blockId2 := by
          rw [← (findBlockIn_eq_some hfound1').2.2, hblock, (findBlockIn_eq_some hfound2').2.2]
        obtain ⟨loc1, hloc1⟩ := findBlockIn_setBlock hfound1 (hid2.trans hid.symm)
        obtain ⟨loc2, hloc2⟩ := findBlockIn_setBlock hfound2 (hid1.trans hid)
        rw [SpanBody.locations_setBlock, hloc1, some_inj] at hfound1'
        rw [SpanBody.locations_setBlock, hloc2, some_inj] at hfound2'
        subst hfound1' hfound2'
        exact hblock.symm
      | again hnone1 hnone2 =>
        right
        rw [SpanBody.mem_blockIds_setBlock hfound1, not_or, not_not] at hnone1
        rw [SpanBody.mem_blockIds_setBlock hfound2, not_or, not_not] at hnone2
        exact ⟨fun hid => hnone2.1 (hid1.trans hid), hnone1.2, hnone2.2⟩
    · rintro (hblock | ⟨hne, hone1, hone2⟩)
      · -- the first application has not changed the spans, and it is done a second time
        have hset1 : span1.setBlock found1.locIdx found1.blockIdx found2.block = span1 := by
          rw [← hblock]
          exact SpanBody.setBlock_self hfound1
        have hset2 : span2.setBlock found2.locIdx found2.blockIdx found1.block = span2 := by
          rw [hblock]
          exact SpanBody.setBlock_self hfound2
        have hput : (db.spans.put ⟨e.fileId1, e.byteOffset1⟩ span1).put ⟨e.fileId2, e.byteOffset2⟩
            span2 = db.spans := by
          rw [put_of_get_eq_some hspan1, put_of_get_eq_some hspan2]
        rw [hset1, hset2, hput]
        generalize hindex : (addBlockServicesToFiles (addBlockServicesToFiles _ _ _ _) _ _
          (-1)).blockServicesToFiles = index
        rw [hblock] at hindex
        refine ⟨_, applySwapBlocks_eq_ok_iff.mpr ⟨rfl, span1, span2, hspan1, hspan2,
          ⟨hblocks1, hblocks2⟩, ⟨state, hstate1, hstate2⟩,
          .swapped hfound1 hfound2 hsize hcrc hlocation hnew1 hnew2⟩, ?_⟩
        refine ⟨rfl, fun _ => rfl, ?_, rfl, rfl, rfl, ?_, rfl, rfl, rfl⟩
        · rw [hset1, hset2]
          exact hput
        · rw [hblock]
          exact addBlockServicesToFiles_swap_again db found2.block.blockService hids hindex.symm
      · refine ⟨_, applySwapBlocks_eq_ok_iff.mpr ⟨rfl, _, _, hget1, get_put_self _ _ _,
          ?_, ⟨state, ?_, ?_⟩, .again ?_ ?_ ?_ ?_⟩, .refl _⟩
        · rw [SpanBody.isInlineStorage_setBlock, SpanBody.isInlineStorage_setBlock]
          exact ⟨hblocks1, hblocks2⟩
        · rw [SpanBody.size_setBlock]
          exact hstate1
        · rw [SpanBody.size_setBlock]
          exact hstate2
        · rw [SpanBody.mem_blockIds_setBlock hfound1, hid2]
          exact fun hor => hor.elim hne.symm (· hone1)
        · rw [SpanBody.mem_blockIds_setBlock hfound2, hid1]
          exact fun hor => hor.elim hne (· hone2)
        · exact hid2 ▸ SpanBody.mem_blockIds_setBlock_self hfound1 found2.block
        · exact hid1 ▸ SpanBody.mem_blockIds_setBlock_self hfound2 found1.block

/-! ## Requests that build files -/

namespace ShardReq

/-- The requests with which clients construct files and move spans between them. -/
def BuildsFiles : ShardReq → Prop
  | addInlineSpan _ | addSpanInitiate _ | addSpanInitiateWithReference _ _
  | addSpanAtLocationInitiate _ _ _ | addSpanCertify _ | linkFile _ | moveSpan _ | swapBlocks _
  | swapSpans _ | addSpanLocation _ => True
  | _ => False

/-- Offsets and sizes fit their words. -/
def OffsetsFit : ShardReq → Prop
  | addInlineSpan req => req.byteOffset < 2 ^ 64 ∧ req.size < 2 ^ 64
  | addSpanInitiate req | addSpanInitiateWithReference req _ | addSpanAtLocationInitiate _ req _ =>
    req.byteOffset < 2 ^ 64 ∧ req.size < 2 ^ 64
  | moveSpan req => req.byteOffset1 < 2 ^ 64 ∧ req.spanSize < 2 ^ 64
  | _ => True

end ShardReq

/-- Enough block services can be picked for the span. -/
def AddSpanInitiateReq.CanPick (req : AddSpanInitiateReq) (pick : PickBlockServices)
    (locationId : ℕ) : Prop :=
  ∃ picked, pick locationId req.storageClass req.parity.blocks req.blacklist
    (req.cellSize * req.stripes) = .ok picked ∧ req.parity.blocks ≤ picked.length

/-- The retry comes before the deadline that the first application has set, services can be picked
again, and the span is not empty. -/
def AddSpanInitiateReq.RetryOk (req : AddSpanInitiateReq) (cfg : ShardConfig) (time time' : ℕ)
    (pick : PickBlockServices) (locationId : ℕ) : Prop :=
  time' ≤ addU64 time cfg.transientDeadlineInterval ∧ req.size ≠ 0 ∧ req.CanPick pick locationId

/-- When a request that is applied to `db` at `time` can be repeated at `time'`. -/
def ShardReq.RetryOk (cfg : ShardConfig) (db : ShardDB) (time time' : ℕ)
    (pick : PickBlockServices) : ShardReq → Prop
  | addSpanInitiate req | addSpanInitiateWithReference req _ =>
    req.RetryOk cfg time time' pick defaultLocation
  | addSpanAtLocationInitiate locationId req _ => req.RetryOk cfg time time' pick locationId
  | addInlineSpan _ | addSpanCertify _ => time' ≤ addU64 time cfg.transientDeadlineInterval
  | linkFile req => req.fileId.u64 < 2 ^ 63
  | swapBlocks req => req.IdsOnce db
  | swapSpans req => req.CleanBothWays db
  | addSpanLocation req => time' ≤ addU64 time cfg.transientDeadlineInterval ∧ req.IdsOk db
  | _ => True

/-- The request, prepared and applied to this state, gets this answer and changes only times. -/
def Retried (cfg : ShardConfig) (cache : BlockServicesCache) (db : ShardDB) (time : ℕ)
    (pick : PickBlockServices) (req : ShardReq) (resp : ShardResp) : Prop :=
  ∃ entry db', prepareLogEntry cfg time pick req = .ok entry ∧
    applyLogEntry cfg cache db (addU64 db.lastAppliedLogEntry 1) entry = some (db', .ok resp) ∧
    SameButTimes db db'

lemma retried_iff {body : ShardLogEntryBody}
    (hprepare : prepareLogEntry cfg time pick req = .ok ⟨time, body⟩) :
    Retried cfg cache db time pick req resp ↔ AnswersAgain cfg cache db time body resp := by
  simp only [Retried, hprepare, Except.ok.injEq, applyLogEntry_eq_ok_iff]
  constructor
  · rintro ⟨_, _, rfl, ⟨-, batch, hbody, rfl⟩, hsame⟩
    exact ⟨batch, hbody, { hsame with }⟩
  · rintro ⟨batch, hbody, hsame⟩
    exact ⟨_, _, rfl, ⟨trivial, batch, hbody, rfl⟩, { hsame with }⟩

/-- A request of which no entry can be prepared is not answered. -/
lemma not_retried (hprepare : ∀ entry, prepareLogEntry cfg time pick req ≠ .ok entry) :
    ¬ Retried cfg cache db time pick req resp := by
  rintro ⟨entry, -, h, -⟩
  exact hprepare entry h

/-- The entry for a new span, and what a second preparation makes of it. -/
lemma prepareAddSpanInitiate_again {locationId : ℕ} {req : AddSpanInitiateReq}
    {e : AddSpanAtLocationInitiateEntry}
    (h : prepareAddSpanInitiate cfg pick locationId req = .ok e) :
    e.byteOffset = req.byteOffset ∧ e.size = req.size ∧
      (req.CanPick pick' locationId → ∃ bodyBlocks,
        prepareAddSpanInitiate cfg pick' locationId req = .ok { e with bodyBlocks := bodyBlocks }) ∧
      (¬ req.CanPick pick' locationId →
        ∀ e', prepareAddSpanInitiate cfg pick' locationId req ≠ .ok e') := by
  simp only [prepareAddSpanInitiate, bind_eq_ok, check_eq_ok, assert_eq_ok, pure_eq_ok,
    exists_const] at h ⊢
  obtain ⟨_, hrequest, hclass, hpages, hbody, picked, -, -, rfl⟩ := h
  refine ⟨rfl, rfl, ?_, ?_⟩
  · rintro ⟨picked', hpick', hlen'⟩
    exact ⟨_, _, hrequest, hclass, hpages, hbody, picked', hpick', hlen', rfl⟩
  intro hnot e' he'
  simp only [bind_eq_ok, check_eq_ok, assert_eq_ok, pure_eq_ok, exists_const] at he'
  obtain ⟨_, -, -, -, -, picked', hpick', hlen', -⟩ := he'
  exact hnot ⟨picked', hpick', hlen'⟩

/-- The three kinds of request that start a span. -/
lemma retried_addSpanInitiate {locationId : ℕ} {req : AddSpanInitiateReq} {req' : ShardReq}
    (hkind : ∀ time pick, prepareLogEntry cfg time pick req' =
      (ShardLogEntryBody.addSpanAtLocationInitiate <$>
        prepareAddSpanInitiate cfg pick locationId req) >>= fun body => pure ⟨time, body⟩)
    {entry : ShardLogEntry} (hfit : req.byteOffset < 2 ^ 64 ∧ req.size < 2 ^ 64)
    (htime : time < time') (hprepare : prepareLogEntry cfg time pick req' = .ok entry)
    (hbody : applyEntryBody cfg cache db entry.time entry.body = .ok (batch, resp)) :
    Retried cfg cache (batch.advance logIndex entry.time) time' pick' req' resp ↔
      req.RetryOk cfg time time' pick' locationId := by
  simp only [hkind, bind_eq_ok, map_eq_ok] at hprepare
  obtain ⟨_, ⟨e, he, rfl⟩, ⟨⟩⟩ := hprepare
  obtain ⟨hoffset, hsize, hcan, hcannot⟩ := prepareAddSpanInitiate_again he
  by_cases hpick : req.CanPick pick' locationId
  · obtain ⟨bodyBlocks, he'⟩ := hcan hpick
    have hprepare' : prepareLogEntry cfg time' pick' req' =
        .ok ⟨time', .addSpanAtLocationInitiate { e with bodyBlocks := bodyBlocks }⟩ := by
      rw [hkind, he']
      rfl
    rw [retried_iff hprepare', answersAgain_addSpanInitiate (by rwa [hoffset, hsize]) htime hbody,
      hsize, AddSpanInitiateReq.RetryOk, and_iff_left hpick]
  · refine iff_of_false (not_retried fun entry hentry => ?_) fun hok => hpick hok.2.2
    simp only [hkind, bind_eq_ok, map_eq_ok] at hentry
    obtain ⟨_, ⟨e', he', -⟩, -⟩ := hentry
    exact hcannot hpick e' he'

/-- The other kinds, whose entries depend neither on the time nor on the block services. -/
lemma retried_of_prepare {prepare : Checked ShardLogEntryBody} {entry : ShardLogEntry}
    (hkind : ∀ time pick, prepareLogEntry cfg time pick req =
      prepare >>= fun body => pure ⟨time, body⟩)
    (hprepare : prepareLogEntry cfg time pick req = .ok entry) :
    ∃ body, Prepared cfg time pick req body ∧ entry = ⟨time, body⟩ ∧ ∀ db,
      Retried cfg cache db time' pick' req resp ↔ AnswersAgain cfg cache db time' body resp := by
  obtain ⟨body, hprepared, rfl⟩ := prepareLogEntry_eq_ok hprepare
  simp only [hkind, bind_eq_ok, pure_eq_ok] at hprepare
  obtain ⟨_, hbody, ⟨⟩⟩ := hprepare
  have hagain : prepareLogEntry cfg time' pick' req = .ok ⟨time', body⟩ := by
    rw [hkind, hbody]
    rfl
  exact ⟨body, hprepared, rfl, fun db => retried_iff hagain⟩

/-- A request that has succeeded is answered the same way when it is repeated, and only times
change, exactly if the condition for its kind holds. -/
theorem retried_iff_retryOk {pick pick' : PickBlockServices} {req : ShardReq}
    {entry : ShardLogEntry} (hreq : req.BuildsFiles) (hfit : req.OffsetsFit)
    (hprepare : prepareLogEntry cfg time pick req = .ok entry)
    (happly : applyLogEntry cfg cache db logIndex entry = some (db', .ok resp))
    (htime : time < time') :
    Retried cfg cache db' time' pick' req resp ↔ req.RetryOk cfg db time time' pick' := by
  obtain ⟨-, batch, hbody, rfl⟩ := applyLogEntry_eq_ok_iff.mp happly
  cases req with
  | addSpanInitiate | addSpanInitiateWithReference | addSpanAtLocationInitiate =>
    exact retried_addSpanInitiate (fun _ _ => rfl) hfit htime hprepare hbody
  | addInlineSpan =>
    obtain ⟨_, hprepared, rfl, hretried⟩ := retried_of_prepare (fun _ _ => rfl) hprepare
    cases hprepared with | addInlineSpan _ e he =>
    simp only [prepareAddInlineSpan, bind_eq_ok, check_eq_ok, exists_const] at he
    obtain ⟨_, -, -, -, -, ⟨⟩⟩ := he
    exact (hretried _).trans (answersAgain_addInlineSpan hfit htime hbody)
  | addSpanCertify =>
    obtain ⟨_, ⟨⟩, rfl, hretried⟩ := retried_of_prepare (fun _ _ => rfl) hprepare
    exact (hretried _).trans (answersAgain_addSpanCertify htime hbody)
  | linkFile =>
    obtain ⟨_, ⟨⟩, rfl, hretried⟩ := retried_of_prepare (fun _ _ => rfl) hprepare
    exact (hretried _).trans (answersAgain_linkFile htime hbody)
  | moveSpan =>
    obtain ⟨_, ⟨⟩, rfl, hretried⟩ := retried_of_prepare (fun _ _ => rfl) hprepare
    exact iff_of_true ((hretried _).mpr (answersAgain_moveSpan htime hfit hbody)) trivial
  | swapBlocks =>
    obtain ⟨_, ⟨⟩, rfl, hretried⟩ := retried_of_prepare (fun _ _ => rfl) hprepare
    exact (hretried _).trans (answersAgain_swapBlocks ‹_› hbody)
  | swapSpans =>
    obtain ⟨_, ⟨⟩, rfl, hretried⟩ := retried_of_prepare (fun _ _ => rfl) hprepare
    exact (hretried _).trans (answersAgain_swapSpans ‹_› hbody)
  | addSpanLocation =>
    obtain ⟨_, ⟨⟩, rfl, hretried⟩ := retried_of_prepare (fun _ _ => rfl) hprepare
    exact (hretried _).trans (answersAgain_addSpanLocation ‹_› htime hbody)
  | _ => exact hreq.elim

/-! ## An empty span -/

theorem retried_one_page : ∃ db db' entry resp, run (shardStep sampleConfig) (initDb sampleConfig 0)
        [sampleStep 1 sampleConstruct] = some db ∧
      prepareLogEntry sampleConfig 2 samplePick (sampleAddSpan (sampleFile 1) 0 4096) = .ok entry ∧
      applyLogEntry sampleConfig sampleCache db (addU64 db.lastAppliedLogEntry 1) entry =
        some (db', .ok resp) ∧
      Retried sampleConfig sampleCache db' 3 samplePick (sampleAddSpan (sampleFile 1) 0 4096)
        resp := by
  simp only [exists_and_left]
  refine exists_eq_some_imp (fun db _ (h : ∃ entry, prepareLogEntry sampleConfig 2 samplePick
    (sampleAddSpan (sampleFile 1) 0 4096) = .ok entry ∧ ∃ db' resp, applyLogEntry sampleConfig
      sampleCache db (addU64 db.lastAppliedLogEntry 1) entry = some (db', .ok resp) ∧ True) => ?_)
    (by decide +kernel)
  obtain ⟨entry, hprepare, db', resp, happly, -⟩ := h
  have hreq : (sampleAddSpan (sampleFile 1) 0 4096).BuildsFiles := trivial
  have hfit : (sampleAddSpan (sampleFile 1) 0 4096).OffsetsFit := ⟨by decide, by decide⟩
  refine ⟨db', entry, hprepare, resp, happly,
    (retried_iff_retryOk hreq hfit hprepare happly (by decide)).mpr ?_⟩
  exact ⟨by decide, by decide, _, rfl, by decide⟩

/-- The start of an empty span succeeds, and its repetition fails: the span that was added is the
last one and dirty, and the end of the file has not moved. -/
theorem not_retried_empty_span :
    ∃ db db' entry resp, run (shardStep sampleConfig) (initDb sampleConfig 0)
        [sampleStep 1 sampleConstruct] = some db ∧
      prepareLogEntry sampleConfig 2 samplePick (sampleAddSpan (sampleFile 1) 0 0) = .ok entry ∧
      applyLogEntry sampleConfig sampleCache db (addU64 db.lastAppliedLogEntry 1) entry =
        some (db', .ok resp) ∧
      ¬ Retried sampleConfig sampleCache db' 3 samplePick (sampleAddSpan (sampleFile 1) 0 0)
        resp := by
  simp only [exists_and_left]
  refine exists_eq_some_imp (fun db _ (h : ∃ entry, prepareLogEntry sampleConfig 2 samplePick
    (sampleAddSpan (sampleFile 1) 0 0) = .ok entry ∧ ∃ db' resp, applyLogEntry sampleConfig
      sampleCache db (addU64 db.lastAppliedLogEntry 1) entry = some (db', .ok resp) ∧
    ∃ second, prepareLogEntry sampleConfig 3 samplePick (sampleAddSpan (sampleFile 1) 0 0) =
      .ok second ∧ ∃ db'', applyLogEntry sampleConfig sampleCache db'
        (addU64 db'.lastAppliedLogEntry 1) second = some (db'', .error .lastSpanStateNotClean)) => ?_)
    (by decide +kernel)
  obtain ⟨entry, hprepare, db', resp, happly, second, hsecond, db'', happly'⟩ := h
  refine ⟨db', entry, hprepare, resp, happly, ?_⟩
  rintro ⟨entry', db₂, hprepare', hagain, -⟩
  obtain rfl := Except.ok.inj (hsecond.symm.trans hprepare')
  rw [happly'] at hagain
  cases hagain

end TernFS
