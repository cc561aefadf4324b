/-
# The index of block services is exact

In every state that a shard reaches, the counter of a block service and a file is the number of
blocks of the file on the service, if no request overwrites a span that has blocks.  The code
does not check that: a span of size 0 leaves the size of its file as it is, and the next span
that is added takes its place.
-/
import TernFS.FileModel.Blocks
import TernFS.Shard.Tiling

namespace TernFS

open Lib List

/-- `BlockServiceFilesReq`. -/
structure BlockServiceFilesReq where
  blockServiceId : ℕ
  startFrom : InodeId

/-- The loop of `_blockServiceFiles`: it stops at the first file with blocks. -/
def firstFileWithBlocks : List (BlockServiceToFileKey × ℤ) → Checked (List InodeId)
  | [] => return []
  | (key, blocks) :: entries => do
    assert (0 ≤ blocks)
    if blocks = 0 then firstFileWithBlocks entries else return [key.fileId]

/-- `_blockServiceFiles`: the first file from `startFrom` on that has blocks on the service. -/
def blockServiceFiles (db : ShardDB) (req : BlockServiceFilesReq) : Checked (List InodeId) :=
  let endKey : BlockServiceToFileKey := ⟨addU64 req.blockServiceId 1, .null⟩
  let seen := db.blockServicesToFiles.seek ⟨req.blockServiceId, req.startFrom⟩
  firstFileWithBlocks (seen.takeWhile fun e => e.1 < endKey)

namespace ShardDB

variable (db : ShardDB)

/-- The counter of a block service and a file. -/
def counter (b : ℕ) (f : InodeId) : ℤ := (db.blockServicesToFiles.get ⟨b, f⟩).getD 0

/-- The number of blocks of a file on a block service, over all spans and locations. -/
def blocksOn (b : ℕ) (f : InodeId) : ℕ :=
  ((db.fileSpans f).map fun e => e.2.blockCount b).sum

/-- The number of blocks in the shard. -/
def totalBlocks : ℕ := (db.spans.entries.map fun e => e.2.blocks.length).sum

/-- The index is exact, and the code that reads it and clears it relies on nothing else. -/
structure IndexExact : Prop where
  /-- Every counter is the number of blocks it stands for. -/
  exact : ∀ b f, db.counter b f = db.blocksOn b f
  /-- No counter is negative, so the assertion on reading does not fail. -/
  reads : ∀ req, ∃ files, blockServiceFiles db req = .ok files
  /-- Clearing the index leaves every counter as it is. -/
  clears : ∀ entry db' resp, applyRemoveZeroBlockServiceFiles db entry = .ok (db', resp) →
    ∀ b f, db'.counter b f = db.counter b f

variable {db}

lemma recordCounts_map_sum (l : List (SpanKey × SpanBody)) (b : ℕ) (f : InodeId) :
    recordCounts (l.map fun e => recordsOf e.1 e.2.blocks).sum b f =
      ((((l.filter fun e => e.1.fileId = f).map fun e => (e.1.offset, e.2)).map
        fun e => e.2.blockCount b).sum : ℕ) := by
  induction l with
  | nil => simp
  | cons e l ih =>
    rw [map_cons, sum_cons, recordCounts_add, Pi.add_apply, Pi.add_apply, ih,
      recordCounts_recordsOf]
    by_cases hf : e.1.fileId = f
    · simp [blockCounts, hf, SpanBody.blockCount]
    · rw [filter_cons_of_neg (by simpa using hf)]
      simp [blockCounts, Ne.symm hf]

lemma recordCounts_blockRecords (b : ℕ) (f : InodeId) :
    recordCounts (blockRecords db.spans) b f = db.blocksOn b f :=
  recordCounts_map_sum db.spans.entries b f

lemma card_blockRecords : (blockRecords db.spans).card = db.totalBlocks := by
  have hlist : ∀ l : List (SpanKey × SpanBody), (l.map fun e => recordsOf e.1 e.2.blocks).sum.card =
        (l.map fun e => e.2.blocks.length).sum := by
    intro l
    induction l with
    | nil => rfl
    | cons e l ih => simp [ih]
  exact hlist db.spans.entries

lemma firstFileWithBlocks_ok {entries : List (BlockServiceToFileKey × ℤ)}
    (h : ∀ e ∈ entries, 0 ≤ e.2) : ∃ files, firstFileWithBlocks entries = .ok files := by
  induction entries with
  | nil => exact ⟨[], rfl⟩
  | cons e entries ih =>
    obtain ⟨files, hfiles⟩ := ih fun e' he' => h e' (by simp [he'])
    have hpos : 0 ≤ e.2 := h e (by simp)
    simp only [firstFileWithBlocks, bind_eq_ok, assert_eq_ok, hpos, true_and, exists_const]
    by_cases hzero : e.2 = 0
    · exact ⟨files, by rw [if_pos hzero, hfiles]⟩
    · exact ⟨[e.1.fileId], by rw [if_neg hzero]; rfl⟩

/-- The abstract invariant, read in the database. -/
lemma indexExact_of_indexAgrees (h : db.fileView.IndexAgrees) : db.IndexExact := by
  have hexact : ∀ b f, db.counter b f = db.blocksOn b f := fun b f => by
    rw [← recordCounts_blockRecords]
    exact h.index_eq b f
  refine ⟨hexact, fun req => firstFileWithBlocks_ok fun e he => ?_, fun entry db' resp h b f => ?_⟩
  · obtain ⟨-, hget⟩ := SortedStore.mem_seek.1 ((takeWhile_sublist _).subset he)
    have hcounter := hexact e.1.blockService e.1.fileId
    simp only [counter, hget, Option.getD_some] at hcounter
    omega
  · have hview := congrArg FileView.index
      (ShardDB.fileView_eq_of_fileSide (applyRemoveZeroBlockServiceFiles_fileSide h).1)
    exact congrFun (congrFun hview b) f

end ShardDB

/-- A span added to the file at this offset would not overwrite one that has blocks. -/
def NoBlocksAt (db : ShardDB) (f : InodeId) (byteOffset : ℕ) : Prop :=
  ∀ file ∈ db.transientFiles.get f, file.fileSize = byteOffset → file.lastSpanState = .clean →
    ∀ span ∈ db.spans.get ⟨f, byteOffset⟩, span.blocks = []

instance (db : ShardDB) (f : InodeId) (byteOffset : ℕ) : Decidable (NoBlocksAt db f byteOffset) := by
  unfold NoBlocksAt
  infer_instance

/-- The condition under which a request keeps the index exact: a span that is added or moved does
not overwrite one that has blocks, and the blocks of the shard can be counted. -/
def ShardReq.IndexOk (db : ShardDB) : ShardReq → Prop
  | .addInlineSpan req => req.body ≠ [] → NoBlocksAt db req.fileId req.byteOffset
  | .addSpanInitiate req => NoBlocksAt db req.fileId req.byteOffset ∧
    db.totalBlocks + req.parity.blocks < 2 ^ 63
  | .addSpanInitiateWithReference req _ => NoBlocksAt db req.fileId req.byteOffset ∧
    db.totalBlocks + req.parity.blocks < 2 ^ 63
  | .addSpanAtLocationInitiate _ req _ => NoBlocksAt db req.fileId req.byteOffset ∧
    db.totalBlocks + req.parity.blocks < 2 ^ 63
  | .moveSpan req => NoBlocksAt db req.fileId2 req.byteOffset2
  | _ => True

instance (db : ShardDB) (req : ShardReq) : Decidable (req.IndexOk db) := by
  induction req using ShardReq.casesOn <;> dsimp only [ShardReq.IndexOk] <;> infer_instance

section

variable {cfg : ShardConfig} {db : ShardDB}

lemma NoBlocksAt.blocks_eq_nil {f : InodeId} {byteOffset : ℕ} (h : NoBlocksAt db f byteOffset)
    (hf : db.fileView.transient f = some (byteOffset, .clean)) :
    ∀ span ∈ db.fileView.spans.get ⟨f, byteOffset⟩, span.blocks = [] := by
  obtain ⟨file, hfile, hsize, hstate⟩ := exists_of_transientView hf
  exact h file hfile hsize hstate

lemma ShardReq.IndexOk.event {req : ShardReq} {ev : FileEvent} {v' : FileView}
    (hok : req.IndexOk db) (h : db.fileView.IndexAgrees) (hcauses : req.Causes ev)
    (hstep : FileStep db.fileView ev v') :
    db.fileView.NoOverwrite ev ∧
      (blockRecords db.fileView.spans).card + FileView.newBlockCount ev < 2 ^ 63 := by
  cases hstep with
  | append hf =>
    rcases hcauses with ⟨r, rfl, hbody, rfl, rfl, rfl⟩ | ⟨r, hreq, rfl, rfl, -, hblocks⟩
    · exact ⟨(hok hbody).blocks_eq_nil hf, h.few⟩
    have hok' : NoBlocksAt db r.fileId r.byteOffset ∧ db.totalBlocks + r.parity.blocks < 2 ^ 63 := by
      cases req <;> cases hreq <;> exact hok
    refine ⟨hok'.1.blocks_eq_nil hf, ?_⟩
    rw [FileView.newBlockCount, hblocks]
    exact ShardDB.card_blockRecords ▸ hok'.2
  | move hk₁ hn hf₁ hf₂ =>
    obtain ⟨r, rfl, rfl, rfl⟩ := hcauses
    have hnone : NoBlocksAt db r.fileId2 r.byteOffset2 := hok
    exact ⟨hnone.blocks_eq_nil hf₂, h.few⟩
  | _ => exact ⟨trivial, h.few⟩

lemma initDb_indexAgrees (now : ℕ) : (initDb cfg now).fileView.IndexAgrees where
  modEq _ _ := rfl
  fits _ _ := by
    change FitsI64 0
    unfold FitsI64
    omega
  few := by
    change Multiset.card 0 < _
    simp

lemma shardStep_indexAgrees {db' : ShardDB} {step : ShardStep} (h : db.fileView.IndexAgrees)
    (hok : step.req.IndexOk db) (hstep : shardStep cfg db step = some db') :
    db'.fileView.IndexAgrees := by
  obtain ⟨ev, hev, hcauses⟩ := shardStep_requestStep hstep
  obtain ⟨hover, hfew⟩ := hok.event h hcauses hev
  exact h.step hover hfew hev

/-- **Exactness of the index.** In every state that a shard reaches from initialisation by
requests that meet the condition, the counters are the numbers of blocks. -/
theorem indexExact_of_run {now : ℕ} {steps : List ShardStep}
    (hok : RunMeets (shardStep cfg) (fun db step => step.req.IndexOk db) (initDb cfg now) steps)
    (hrun : run (shardStep cfg) (initDb cfg now) steps = some db) : db.IndexExact :=
  ShardDB.indexExact_of_indexAgrees
    (run_invariant (fun _ _ _ => shardStep_indexAgrees) (initDb_indexAgrees now) hok hrun)

end

/-- A span of size 0 is certified and then overwritten by another one: the file has one block on
the service, and the counter is 2. -/
theorem not_indexExact_of_overwrite : ∃ db, run (shardStep sampleConfig) (initDb sampleConfig 0)
      [sampleStep 1 sampleConstruct, sampleStep 2 (sampleAddSpan (sampleFile 1) 0 0),
        sampleStep 3 (sampleCertify (sampleFile 1) 0 256),
        sampleStep 4 (sampleAddSpan (sampleFile 1) 0 4096)] = some db ∧ ¬ db.IndexExact := by
  refine exists_eq_some_imp (fun db _ (h : db.counter 1 (sampleFile 1) = 2 ∧
    db.blocksOn 1 (sampleFile 1) = 1) hexact => ?_) (by decide +kernel)
  have heq := hexact.exact 1 (sampleFile 1)
  rw [h.1, h.2] at heq
  cases heq

/-- Two spans are added to a file, the first of them twice since the client tries again. -/
theorem indexExact_of_run_two_spans : ∃ db, run (shardStep sampleConfig) (initDb sampleConfig 0)
      [sampleStep 1 sampleConstruct, sampleStep 2 (sampleAddSpan (sampleFile 1) 0 4096),
        sampleStep 3 (sampleAddSpan (sampleFile 1) 0 4096),
        sampleStep 4 (sampleCertify (sampleFile 1) 0 256),
        sampleStep 5 (sampleAddSpan (sampleFile 1) 4096 1000)] = some db ∧ db.IndexExact ∧
      db.counter 1 (sampleFile 1) = 2 := by
  exact exists_eq_some_imp (fun db hrun hcounter =>
    ⟨indexExact_of_run (by decide +kernel) hrun, hcounter⟩) (by decide +kernel)

end TernFS
