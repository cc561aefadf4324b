/-
# Block ids

The id of a new block is the last one given out plus 256, or the time of the entry with the shard
in place of its low byte, whichever is larger.  So ids grow with every block, whatever the times of
the entries are, and the shard can be read off them.  Spans and blocks are moved around, but a block
is never copied: an id is in one place at most.
-/
import TernFS.FileModel.Blocks
import TernFS.Shard.Failures
import TernFS.Shard.SpanChanges
import TernFS.Shard.Tiling

namespace TernFS

open Lib SortedStore List Option

/-! ## Ids of new blocks -/

section

variable {cfg : ShardConfig} {time n : ℕ} {entryBlocks : List EntryNewBlockInfo}

/-- The ids that a span of new blocks is given. -/
def newIds (cfg : ShardConfig) (time n : ℕ) (entryBlocks : List EntryNewBlockInfo) : List ℕ :=
  (newBlocks cfg time n entryBlocks).1.map BlockBody.blockId

/-- So many ids can be given out after `n` without an overflow. -/
def IdsFit (cfg : ShardConfig) (time n count : ℕ) : Prop :=
  max (n + 0x100) (cfg.shid + time / 256 * 256) + 0x100 * (count - 1) < 2 ^ 64

lemma updateNextBlockId_of_fit {count : ℕ} (h : IdsFit cfg time n count) :
    updateNextBlockId cfg time n = max (n + 0x100) (cfg.shid + time / 256 * 256) := by
  unfold IdsFit at h
  rw [updateNextBlockId, addU64_of_lt (by omega)]

lemma IdsFit.next {count : ℕ} (h : IdsFit cfg time n (count + 2)) :
    IdsFit cfg time (updateNextBlockId cfg time n) (count + 1) := by
  rw [updateNextBlockId_of_fit h]
  unfold IdsFit at h ⊢
  omega

/-- The ids of a span increase, from above the last one given out, and the last one of them is
remembered. -/
lemma newIds_increasing (h : entryBlocks ≠ [] → IdsFit cfg time n entryBlocks.length) :
    (newIds cfg time n entryBlocks).Pairwise (· < ·) ∧
      (∀ id ∈ newIds cfg time n entryBlocks, n < id ∧ id ≤ (newBlocks cfg time n entryBlocks).2) ∧
      n ≤ (newBlocks cfg time n entryBlocks).2 := by
  induction entryBlocks generalizing n with
  | nil => exact ⟨.nil, by simp [newIds, newBlocks], le_rfl⟩
  | cons entryBlock entryBlocks ih =>
    have hfit := h (by simp)
    have hnext := updateNextBlockId_of_fit hfit
    have hlt : n < updateNextBlockId cfg time n := by omega
    have hrest : entryBlocks ≠ [] →
        IdsFit cfg time (updateNextBlockId cfg time n) entryBlocks.length := by
      intro hne
      obtain ⟨b, bs, rfl⟩ := exists_cons_of_ne_nil hne
      exact hfit.next
    obtain ⟨hsorted, hrange, hle⟩ := ih hrest
    refine ⟨pairwise_cons.2 ⟨fun id hid => (hrange id hid).1, hsorted⟩, ?_, ?_⟩
    · intro id hid
      rcases mem_cons.1 hid with rfl | hid
      · exact ⟨hlt, hle⟩
      · exact ⟨hlt.trans (hrange id hid).1, (hrange id hid).2⟩
    · exact hlt.le.trans hle

/-- The low byte of an id is the shard. -/
lemma updateNextBlockId_mod (h : n % 256 = cfg.shid) :
    updateNextBlockId cfg time n % 256 = cfg.shid := by
  unfold updateNextBlockId addU64
  rcases max_choice ((n + 0x100) % 2 ^ 64) (cfg.shid + time / 256 * 256) with hmax | hmax <;>
    rw [hmax] <;> omega

lemma newBlocks_mod (h : n % 256 = cfg.shid) :
    (∀ id ∈ newIds cfg time n entryBlocks, id % 256 = cfg.shid) ∧
      (newBlocks cfg time n entryBlocks).2 % 256 = cfg.shid := by
  induction entryBlocks generalizing n with
  | nil => exact ⟨by simp [newIds, newBlocks], h⟩
  | cons entryBlock entryBlocks ih =>
    have hnext : updateNextBlockId cfg time n % 256 = cfg.shid := updateNextBlockId_mod h
    obtain ⟨hids, hlast⟩ := ih hnext
    refine ⟨fun id hid => ?_, hlast⟩
    rcases mem_cons.1 hid with rfl | hid
    · exact hnext
    · exact hids id hid

end

/-! ## The ids in a store of spans -/

/-- The ids of all blocks of all spans, at all locations, as often as they occur. -/
def blockIds (spans : SortedStore SpanKey SpanBody) : Multiset ℕ :=
  (blockRecords spans).map fun record => record.2.blockId

section

variable {spans : SortedStore SpanKey SpanBody} {k k₁ k₂ : SpanKey} {span s₁ s₂ s₁' s₂' : SpanBody}

/-- The ids of a list of blocks. -/
def idsOf (blocks : List BlockBody) : Multiset ℕ := (blocks.map BlockBody.blockId : List ℕ)

lemma map_recordsOf (k : SpanKey) (blocks : List BlockBody) :
    (recordsOf k blocks).map (fun record => record.2.blockId) = idsOf blocks := by
  simp [recordsOf, idsOf, Function.comp_def]

lemma idsOf_cons (block : BlockBody) (blocks : List BlockBody) :
    idsOf (block :: blocks) = {block.blockId} + idsOf blocks := rfl

lemma idsOf_append (blocks blocks' : List BlockBody) :
    idsOf (blocks ++ blocks') = idsOf blocks + idsOf blocks' := by
  simp [idsOf]

lemma idsOf_perm {blocks blocks' : List BlockBody} (h : blocks.Perm blocks') :
    idsOf blocks = idsOf blocks' :=
  Multiset.coe_eq_coe.2 (h.map _)

lemma blockIds_put (spans : SortedStore SpanKey SpanBody) (k : SpanKey) (span : SpanBody) :
    blockIds (spans.put k span) = idsOf span.blocks + blockIds (spans.delete k) := by
  rw [blockIds, blockRecords, sum_put, Multiset.map_add, map_recordsOf]
  rfl

lemma blockIds_of_get (h : spans.get k = some span) :
    blockIds spans = idsOf span.blocks + blockIds (spans.delete k) := by
  rw [blockIds, blockRecords_of_get h, Multiset.map_add, map_recordsOf]
  rfl

lemma blockIds_delete_le (spans : SortedStore SpanKey SpanBody) (k : SpanKey) :
    blockIds (spans.delete k) ≤ blockIds spans := by
  cases hget : spans.get k with
  | none => rw [delete_of_get_eq_none hget]
  | some =>
    rw [blockIds_of_get hget]
    exact Multiset.le_add_left _ _

lemma blockIds_put_le (spans : SortedStore SpanKey SpanBody) (k : SpanKey) (span : SpanBody) :
    blockIds (spans.put k span) ≤ idsOf span.blocks + blockIds spans := by
  rw [blockIds_put]
  exact add_le_add_right (blockIds_delete_le spans k) _

lemma blockIds_put_put (hne : k₁ ≠ k₂) (h₁ : spans.get k₁ = some s₁) (h₂ : spans.get k₂ = some s₂)
    (hids : idsOf s₁'.blocks + idsOf s₂'.blocks = idsOf s₁.blocks + idsOf s₂.blocks) :
    blockIds ((spans.put k₁ s₁').put k₂ s₂') = blockIds spans := by
  have hput := congrArg (Multiset.map fun record => record.2.blockId)
    (blockRecords_put_put hne h₁ h₂ s₁' s₂')
  simp only [Multiset.map_add, map_recordsOf, hids] at hput
  exact add_right_cancel hput

end

/-! ## What entries give out -/

/-- The ids that applying the entry gives out, provided it goes through. -/
def ShardLogEntryBody.allocatedIds (cfg : ShardConfig) (db : ShardDB) (time : ℕ) :
    ShardLogEntryBody → List ℕ
  | .addSpanAtLocationInitiate e =>
    if (db.transientFiles.get e.fileId).any fun file => file.fileSize = e.byteOffset then
      newIds cfg time db.nextBlockId (e.bodyBlocks.take e.parity.blocks)
    else []
  | _ => []

/-- The ids that the entry gives out, if any, fit 64 bits. -/
def ShardLogEntryBody.IdsFit (cfg : ShardConfig) (db : ShardDB) (time : ℕ) :
    ShardLogEntryBody → Prop
  | .addSpanAtLocationInitiate e => ∀ file ∈ db.transientFiles.get e.fileId,
    file.fileSize = e.byteOffset → TernFS.IdsFit cfg time db.nextBlockId e.parity.blocks
  | _ => True

/-- Entries about two files are not about the same file twice. -/
def ShardLogEntryBody.TwoFiles : ShardLogEntryBody → Prop
  | .swapBlocks r => r.fileId1 ≠ r.fileId2
  | .swapSpans r => r.fileId1 ≠ r.fileId2
  | .addSpanLocation r => r.fileId1 ≠ r.fileId2
  | _ => True

section

variable {cfg : ShardConfig} {cache : BlockServicesCache} {db : ShardDB} {time next' : ℕ}
  {body : ShardLogEntryBody} {spans' : SortedStore SpanKey SpanBody}

lemma prepareLogEntry_twoFiles {req : ShardReq} {pick : PickBlockServices} {entry : ShardLogEntry}
    (h : prepareLogEntry cfg time pick req = .ok entry) : entry.body.TwoFiles := by
  obtain ⟨body, hprepared, rfl⟩ := prepareLogEntry_eq_ok h
  cases hprepared with
  | swapBlocks r hne | swapSpans r hne | addSpanLocation r hne => exact hne
  | _ => trivial

section

variable (h : SpanChange cfg cache db time body spans' next')
include h

/-- What an entry gives out, and what is remembered of it. -/
lemma SpanChange.allocated : body.allocatedIds cfg db time = [] ∧ next' = db.nextBlockId ∨
      ∃ e file, body = .addSpanAtLocationInitiate e ∧
        db.transientFiles.get e.fileId = some file ∧ file.fileSize = e.byteOffset ∧
        (e.bodyBlocks.take e.parity.blocks).length = e.parity.blocks ∧
        body.allocatedIds cfg db time =
          newIds cfg time db.nextBlockId (e.bodyBlocks.take e.parity.blocks) ∧
        next' = (newBlocks cfg time db.nextBlockId (e.bodyBlocks.take e.parity.blocks)).2 := by
  have hother : (∀ e, body ≠ .addSpanAtLocationInitiate e) →
      body.allocatedIds cfg db time = [] := by
    intro hbody
    cases body with
    | addSpanAtLocationInitiate e => exact absurd rfl (hbody e)
    | _ => rfl
  cases h with
  | keep hagain =>
    refine .inl ⟨?_, rfl⟩
    cases body with
    | addSpanAtLocationInitiate e =>
      refine if_neg fun hany => ?_
      obtain ⟨file, hfile, hsize⟩ := (any_eq_true _ _).1 hany
      exact hagain e rfl file hfile (of_decide_eq_true hsize)
    | _ => rfl
  | @allocate e file loc hfile hsize hloc =>
    have hlength : (e.bodyBlocks.take e.parity.blocks).length = e.parity.blocks := by
      obtain ⟨hblocks, hparity⟩ := SpanBlocksBody.alloc_eq_some hloc
      have hcount := loc.blocks_length
      rwa [hblocks, hparity, length_newBlocks] at hcount
    refine .inr ⟨e, file, rfl, hfile, hsize, hlength, if_pos ?_, rfl⟩
    exact (any_eq_true _ _).2 ⟨file, hfile, decide_eq_true hsize⟩
  | drop hbody => exact .inl ⟨hother hbody, rfl⟩
  | _ => exact .inl ⟨rfl, rfl⟩

/-- Blocks are given new ids or keep theirs, and are not copied. -/
lemma SpanChange.blockIds_le (htwo : body.TwoFiles) :
    blockIds spans' ≤ (body.allocatedIds cfg db time : List ℕ) + blockIds db.spans := by
  have hle : ∀ ids : Multiset ℕ, ids ≤ blockIds db.spans →
      ids ≤ (body.allocatedIds cfg db time : List ℕ) + blockIds db.spans :=
    fun ids hids => hids.trans (Multiset.le_add_left _ _)
  cases h with
  | keep => exact hle _ le_rfl
  | @addInline => exact hle _ ((blockIds_put_le ..).trans (by simp [idsOf]))
  | @allocate e file loc hfile hsize hloc =>
    have hany : (db.transientFiles.get e.fileId).any
        (fun file => file.fileSize = e.byteOffset) = true :=
      (any_eq_true _ _).2 ⟨file, hfile, decide_eq_true hsize⟩
    have hids : idsOf (⟨e.size, e.crc, .blocks loc []⟩ : SpanBody).blocks =
        (newIds cfg time db.nextBlockId (e.bodyBlocks.take e.parity.blocks) : List ℕ) := by
      rw [SpanBody.blocks_single, (SpanBlocksBody.alloc_eq_some hloc).1]
      rfl
    rw [ShardLogEntryBody.allocatedIds, if_pos hany, ← hids]
    exact blockIds_put_le ..
  | drop => exact hle _ (blockIds_delete_le _ _)
  | @swapBlocks r s₁ s₂ found₁ found₂ hk₁ hk₂ hfound₁ hfound₂ =>
    obtain ⟨rest₁, hperm₁, hset₁⟩ := SpanBody.perm_setBlock hfound₁
    obtain ⟨rest₂, hperm₂, hset₂⟩ := SpanBody.perm_setBlock hfound₂
    have hkeys : (⟨r.fileId1, r.byteOffset1⟩ : SpanKey) ≠ ⟨r.fileId2, r.byteOffset2⟩ :=
      fun hk => htwo (congrArg SpanKey.fileId hk)
    refine hle _ (blockIds_put_put hkeys hk₁ hk₂ ?_).le
    rw [idsOf_perm hperm₁, idsOf_perm hperm₂, idsOf_perm (hset₁ _), idsOf_perm (hset₂ _)]
    simp only [idsOf_cons]
    abel
  | @swapSpans r s₁ s₂ hk₁ hk₂ =>
    have hkeys : (⟨r.fileId1, r.byteOffset1⟩ : SpanKey) ≠ ⟨r.fileId2, r.byteOffset2⟩ :=
      fun hk => htwo (congrArg SpanKey.fileId hk)
    exact hle _ (blockIds_put_put hkeys hk₁ hk₂ (add_comm _ _)).le
  | @move r span hk₁ =>
    refine hle _ ((blockIds_put_le ..).trans ?_)
    rw [← blockIds_of_get hk₁]
  | @addLocation r source destination destination' loc hk₁ hk₂ hloc hnew hadd =>
    have hkeys : (⟨r.fileId2, r.byteOffset2⟩ : SpanKey) ≠ ⟨r.fileId1, r.byteOffset1⟩ :=
      fun hk => htwo (congrArg SpanKey.fileId hk).symm
    have hsource : (db.spans.put ⟨r.fileId2, r.byteOffset2⟩ destination').get
        ⟨r.fileId1, r.byteOffset1⟩ = some source := (get_put_of_ne hkeys).trans hk₁
    have hblocks : source.blocks = loc.blocks := by simp [SpanBody.blocks, hloc]
    have hput := blockIds_of_get hsource
    rw [blockIds_put, (SpanBody.addLocation_eq_some hadd).2, idsOf_append, hblocks] at hput
    refine hle _ (le_of_eq (add_left_cancel (a := idsOf loc.blocks) ?_))
    rw [← hput, blockIds_of_get hk₂]
    abel

/-- The ids of an entry that fit 64 bits increase, from above the last one given out. -/
lemma SpanChange.allocatedIds_increasing (hfit : body.IdsFit cfg db time) :
    (body.allocatedIds cfg db time).Pairwise (· < ·) ∧
      (∀ id ∈ body.allocatedIds cfg db time, db.nextBlockId < id ∧ id ≤ next') ∧
      db.nextBlockId ≤ next' := by
  obtain ⟨hnone, rfl⟩ | ⟨e, file, rfl, hfile, hsize, hlength, hids, rfl⟩ := h.allocated
  · simp [hnone]
  rw [hids]
  refine newIds_increasing fun _ => ?_
  rw [hlength]
  exact hfit file hfile hsize

/-- The shard can be read off the ids of an entry. -/
lemma SpanChange.allocatedIds_mod (hmod : db.nextBlockId % 256 = cfg.shid) :
    (∀ id ∈ body.allocatedIds cfg db time, id % 256 = cfg.shid) ∧ next' % 256 = cfg.shid := by
  obtain ⟨hnone, rfl⟩ | ⟨e, file, rfl, -, -, -, hids, rfl⟩ := h.allocated
  · simp [hnone, hmod]
  · rw [hids]
    exact newBlocks_mod hmod

end

end

/-! ## Runs -/

/-- The ids that a step of the shard gives out: none if its entry fails. -/
def ShardStep.allocatedIds (cfg : ShardConfig) (db : ShardDB) (step : ShardStep) : List ℕ :=
  match prepareLogEntry cfg step.time step.pick step.req with
  | .ok entry =>
    match applyEntryBody cfg step.cache db entry.time entry.body with
    | .ok _ => entry.body.allocatedIds cfg db entry.time
    | .error _ => []
  | .error _ => []

/-- The ids that the step gives out, if any, fit 64 bits. -/
def ShardStep.IdsFit (cfg : ShardConfig) (db : ShardDB) (step : ShardStep) : Prop :=
  ∀ entry ∈ (prepareLogEntry cfg step.time step.pick step.req).toOption,
    entry.body.IdsFit cfg db entry.time

/-- The ids given out in a run, in the order in which they are given out. -/
def allocatedIds (cfg : ShardConfig) : ShardDB → List ShardStep → List ℕ
  | _, [] => []
  | db, step :: steps =>
    step.allocatedIds cfg db ++ match shardStep cfg db step with
      | some db' => allocatedIds cfg db' steps
      | none => []

instance {cfg : ShardConfig} {time n count : ℕ} : Decidable (IdsFit cfg time n count) :=
  inferInstanceAs (Decidable (_ < _))

instance {cfg : ShardConfig} {db : ShardDB} {time : ℕ} {body : ShardLogEntryBody} :
    Decidable (body.IdsFit cfg db time) := by
  induction body using ShardLogEntryBody.casesOn <;> dsimp only [ShardLogEntryBody.IdsFit] <;> infer_instance

instance {cfg : ShardConfig} {db : ShardDB} {step : ShardStep} : Decidable (step.IdsFit cfg db) :=
  inferInstanceAs (Decidable (∀ entry ∈ _, _))

/-- Of the ids given out so far: they increase up to the counter, their low byte is the shard, and
the ids of the blocks in the spans are among them, each once. -/
structure IdsTracked (cfg : ShardConfig) (given : List ℕ) (db : ShardDB) : Prop where
  increasing : given.Pairwise (· < ·)
  le_next : ∀ id ∈ given, id ≤ db.nextBlockId
  low_byte : ∀ id ∈ given, id % 256 = cfg.shid
  next_low_byte : db.nextBlockId % 256 = cfg.shid
  nodup : (blockIds db.spans).Nodup
  given_of_mem : ∀ id ∈ blockIds db.spans, id ∈ given

section

variable {cfg : ShardConfig} {db db' : ShardDB} {given : List ℕ}

lemma initDb_idsTracked (now : ℕ) : IdsTracked cfg [] (initDb cfg now) where
  increasing := .nil
  le_next := by simp
  low_byte := by simp
  next_low_byte := Nat.mod_eq_of_lt cfg.shid_lt
  nodup := Multiset.nodup_zero
  given_of_mem := by
    intro id hid
    exact absurd hid (Multiset.notMem_zero id)

lemma IdsTracked.entry {cache : BlockServicesCache} {time next' : ℕ} {body : ShardLogEntryBody}
    {spans' : SortedStore SpanKey SpanBody} (h : IdsTracked cfg given db)
    (hchange : SpanChange cfg cache db time body spans' next') (htwo : body.TwoFiles)
    (hfit : body.IdsFit cfg db time) (hspans : db'.spans = spans')
    (hnext : db'.nextBlockId = next') :
    IdsTracked cfg (given ++ body.allocatedIds cfg db time) db' := by
  subst hspans hnext
  obtain ⟨hsorted, hrange, hle⟩ := hchange.allocatedIds_increasing hfit
  obtain ⟨hmod, hnextmod⟩ := hchange.allocatedIds_mod h.next_low_byte
  have hids := hchange.blockIds_le htwo
  have hnew : Disjoint ((body.allocatedIds cfg db time : List ℕ) : Multiset ℕ)
      (blockIds db.spans) := by
    refine Multiset.disjoint_left.2 fun {id} hid hstored => ?_
    have hbefore := h.le_next id (h.given_of_mem id hstored)
    have hafter := (hrange id (by simpa using hid)).1
    omega
  refine ⟨?_, ?_, ?_, hnextmod, ?_, ?_⟩
  · refine pairwise_append.2 ⟨h.increasing, hsorted, fun id hid id' hid' => ?_⟩
    exact (h.le_next id hid).trans_lt (hrange id' hid').1
  · intro id hid
    rcases mem_append.1 hid with hid | hid
    · exact (h.le_next id hid).trans hle
    · exact (hrange id hid).2
  · intro id hid
    rcases mem_append.1 hid with hid | hid
    · exact h.low_byte id hid
    · exact hmod id hid
  · refine Multiset.nodup_of_le hids (Multiset.nodup_add.2 ⟨?_, h.nodup, hnew⟩)
    exact Multiset.coe_nodup.2 (hsorted.imp ne_of_lt)
  · intro id hid
    rcases Multiset.mem_add.1 (Multiset.mem_of_le hids hid) with hid | hid
    · exact mem_append_right _ (by simpa using hid)
    · exact mem_append_left _ (h.given_of_mem id hid)

lemma IdsTracked.advance (h : IdsTracked cfg given db) (index time : ℕ) :
    IdsTracked cfg given (db.advance index time) :=
  ⟨h.increasing, h.le_next, h.low_byte, h.next_low_byte, h.nodup, h.given_of_mem⟩

lemma IdsTracked.step {step : ShardStep} (h : IdsTracked cfg given db) (hfit : step.IdsFit cfg db)
    (hstep : shardStep cfg db step = some db') :
    IdsTracked cfg (given ++ step.allocatedIds cfg db) db' := by
  unfold shardStep at hstep
  unfold ShardStep.allocatedIds
  cases hprepare : prepareLogEntry cfg step.time step.pick step.req with
  | error e =>
    rw [hprepare] at hstep
    cases e with
    | err =>
      obtain rfl : db = db' := by simpa using hstep
      simpa using h
    | crash => cases hstep
  | ok entry =>
    simp only [hprepare, applyLogEntry, if_true, map_eq_some_iff, Prod.exists,
      exists_and_right, exists_eq_right] at hstep
    obtain ⟨resp, hstep⟩ := hstep
    have hentry : entry.body.IdsFit cfg db entry.time := hfit entry (by rw [hprepare]; rfl)
    cases happly : applyEntryBody cfg step.cache db entry.time entry.body with
    | ok out =>
      rw [happly] at hstep
      cases hstep
      simp only [happly]
      exact (h.entry (applyEntryBody_spanChange happly) (prepareLogEntry_twoFiles hprepare) hentry
        rfl rfl).advance _ _
    | error e =>
      cases e with
      | err =>
        rw [happly] at hstep
        cases hstep
        simp only [happly, append_nil]
        exact h.advance _ _
      | crash => simp [happly] at hstep

lemma IdsTracked.of_run {steps : List ShardStep} (h : IdsTracked cfg given db)
    (hfit : RunMeets (shardStep cfg) (ShardStep.IdsFit cfg) db steps)
    (hrun : run (shardStep cfg) db steps = some db') :
    IdsTracked cfg (given ++ allocatedIds cfg db steps) db' := by
  induction steps generalizing given db with
  | nil =>
    obtain rfl : db = db' := by simpa using hrun
    simpa [allocatedIds] using h
  | cons step steps ih =>
    obtain ⟨db₁, hstep, hrest⟩ := run_cons.1 hrun
    obtain ⟨hfirst, hfits⟩ := hfit
    rw [hstep] at hfits
    rw [allocatedIds, hstep, ← append_assoc]
    exact ih (h.step hfirst hstep) hfits hrest

/-- **Block ids are not reused.** In a run whose ids fit 64 bits, ids are given out in increasing
order and end in the shard, and no two blocks of the spans in the state it reaches share one. -/
theorem blockIds_of_run {now : ℕ} {steps : List ShardStep}
    (hfit : RunMeets (shardStep cfg) (ShardStep.IdsFit cfg) (initDb cfg now) steps)
    (hrun : run (shardStep cfg) (initDb cfg now) steps = some db) :
    (allocatedIds cfg (initDb cfg now) steps).Pairwise (· < ·) ∧
      (∀ id ∈ allocatedIds cfg (initDb cfg now) steps, id % 256 = cfg.shid) ∧
      (blockIds db.spans).Nodup ∧
      ∀ id ∈ blockIds db.spans, id ∈ allocatedIds cfg (initDb cfg now) steps := by
  have h := (initDb_idsTracked now).of_run hfit hrun
  exact ⟨h.increasing, h.low_byte, h.nodup, h.given_of_mem⟩

end

/-- Spans are added to two files, the second one with an earlier time than the first, and their
blocks are swapped. -/
def sampleIdSteps : List ShardStep :=
  [sampleStep 1 sampleConstruct, sampleStep 2 sampleConstruct,
    sampleStep 1000 (sampleAddSpan (sampleFile 1) 0 4096),
    sampleStep 3 (sampleAddSpan (sampleFile 2) 0 4096),
    sampleStep 4 (.swapBlocks ⟨sampleFile 1, 0, 768, sampleFile 2, 0, 1024⟩)]

theorem blockIds_of_run_two_files :
    ∃ db, run (shardStep sampleConfig) (initDb sampleConfig 0) sampleIdSteps = some db ∧
      allocatedIds sampleConfig (initDb sampleConfig 0) sampleIdSteps = [768, 1024] ∧
      (db.spans.get ⟨sampleFile 1, 0⟩).map (fun span => span.blocks.map BlockBody.blockId) =
        some [1024] ∧
      (blockIds db.spans).Nodup := by
  have hfit : RunMeets (shardStep sampleConfig) (ShardStep.IdsFit sampleConfig)
      (initDb sampleConfig 0) sampleIdSteps := by
    decide +kernel
  exact exists_eq_some_imp (fun db hrun => And.imp_right fun hspan =>
    ⟨hspan, (blockIds_of_run hfit hrun).2.2.1⟩) (by decide +kernel)

end TernFS
