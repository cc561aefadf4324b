/-
# The blocks of a shard

All blocks with the spans they are in, as a multiset of records.  Each event takes records away
and adds others, and posts the difference to the index; so the counters of the index agree with
the number of records, as long as no span of blocks is overwritten.
-/
import TernFS.FileModel.Events
import Mathlib.Algebra.Group.Pi.Basic
import Mathlib.Algebra.Order.Group.Multiset
import Mathlib.Tactic.Abel

namespace TernFS

open Lib Function SortedStore

/-- The records of blocks that are in one span. -/
def recordsOf (k : SpanKey) (blocks : List BlockBody) : Multiset (SpanKey × BlockBody) :=
  blocks.map (Prod.mk k)

/-- Every block of every span, with the key of the span. -/
def blockRecords (spans : SortedStore SpanKey SpanBody) : Multiset (SpanKey × BlockBody) :=
  spans.sum fun k span => recordsOf k span.blocks

/-- The number of records by block service and file. -/
def recordCounts (records : Multiset (SpanKey × BlockBody)) : ℕ → InodeId → ℤ := fun b f =>
  records.countP fun r => r.2.blockService = b ∧ r.1.fileId = f

section

variable {k k₁ k₂ : SpanKey} {blocks blocks' : List BlockBody}
  {spans : SortedStore SpanKey SpanBody} {span s₁ s₂ : SpanBody}

@[simp] lemma recordsOf_nil (k : SpanKey) : recordsOf k [] = 0 := rfl

lemma recordsOf_cons (k : SpanKey) (block : BlockBody) (blocks : List BlockBody) :
    recordsOf k (block :: blocks) = recordsOf k [block] + recordsOf k blocks := rfl

lemma recordsOf_append (k : SpanKey) (blocks blocks' : List BlockBody) :
    recordsOf k (blocks ++ blocks') = recordsOf k blocks + recordsOf k blocks' := by
  simp [recordsOf]

lemma recordsOf_perm (h : blocks.Perm blocks') : recordsOf k blocks = recordsOf k blocks' :=
  Multiset.coe_eq_coe.2 (h.map _)

@[simp] lemma card_recordsOf (k : SpanKey) (blocks : List BlockBody) :
    (recordsOf k blocks).card = blocks.length := by
  simp [recordsOf]

lemma recordCounts_add (r r' : Multiset (SpanKey × BlockBody)) :
    recordCounts (r + r') = recordCounts r + recordCounts r' := by
  funext b f
  simp [recordCounts]

@[simp] lemma recordCounts_zero : recordCounts 0 = 0 := rfl

lemma recordCounts_recordsOf (k : SpanKey) (blocks : List BlockBody) :
    recordCounts (recordsOf k blocks) = blockCounts blocks k.fileId := by
  funext b f
  simp only [recordCounts, recordsOf, blockCounts, Multiset.coe_countP, List.countP_map]
  by_cases hf : f = k.fileId
  · subst hf
    simp [comp_def]
  · simp [comp_def, hf, Ne.symm hf]

lemma recordCounts_le_card (r : Multiset (SpanKey × BlockBody)) (b : ℕ) (f : InodeId) :
    0 ≤ recordCounts r b f ∧ recordCounts r b f ≤ r.card :=
  ⟨Int.natCast_nonneg _, Int.ofNat_le.2 (Multiset.countP_le_card ..)⟩

/-! ## Writing and deleting spans -/

lemma blockRecords_of_get (h : spans.get k = some span) :
    blockRecords spans = recordsOf k span.blocks + blockRecords (spans.delete k) :=
  sum_of_get_eq_some h _

lemma blockRecords_put_of_get (h : spans.get k = some span) (span' : SpanBody) :
    blockRecords (spans.put k span') + recordsOf k span.blocks =
      blockRecords spans + recordsOf k span'.blocks := by
  rw [blockRecords_of_get h, blockRecords, sum_put]
  change _ + blockRecords _ + _ = _
  abel

/-- A span is written where there was none, or one without blocks. -/
lemma blockRecords_put (h : ∀ span ∈ spans.get k, span.blocks = []) (span' : SpanBody) :
    blockRecords (spans.put k span') = blockRecords spans + recordsOf k span'.blocks := by
  cases hget : spans.get k with
  | none =>
    rw [blockRecords, sum_put_of_get_eq_none hget, add_comm]
    rfl
  | some span =>
    have hput := blockRecords_put_of_get hget span'
    rwa [h span hget, recordsOf_nil, add_zero] at hput

lemma blockRecords_put_put (hne : k₁ ≠ k₂) (h₁ : spans.get k₁ = some s₁)
    (h₂ : spans.get k₂ = some s₂) (s₁' s₂' : SpanBody) :
    blockRecords ((spans.put k₁ s₁').put k₂ s₂') +
        (recordsOf k₁ s₁.blocks + recordsOf k₂ s₂.blocks) =
      blockRecords spans + (recordsOf k₁ s₁'.blocks + recordsOf k₂ s₂'.blocks) := by
  have hput₁ := blockRecords_put_of_get h₁ s₁'
  have h₂' : (spans.put k₁ s₁').get k₂ = some s₂ := (get_put_of_ne hne).trans h₂
  have hput₂ := blockRecords_put_of_get h₂' s₂'
  calc blockRecords ((spans.put k₁ s₁').put k₂ s₂') +
        (recordsOf k₁ s₁.blocks + recordsOf k₂ s₂.blocks)
      = blockRecords ((spans.put k₁ s₁').put k₂ s₂') + recordsOf k₂ s₂.blocks +
          recordsOf k₁ s₁.blocks := by abel
    _ = blockRecords (spans.put k₁ s₁') + recordsOf k₁ s₁.blocks + recordsOf k₂ s₂'.blocks := by
        rw [hput₂]
        abel
    _ = blockRecords spans + (recordsOf k₁ s₁'.blocks + recordsOf k₂ s₂'.blocks) := by
        rw [hput₁]
        abel

end

/-! ## What events do to blocks -/

namespace FileView

variable (v : FileView)

/-- No span with blocks is overwritten. -/
def NoOverwrite : FileEvent → Prop
  | .append f offset _ => ∀ span ∈ v.spans.get ⟨f, offset⟩, span.blocks = []
  | .move _ k₂ => ∀ span ∈ v.spans.get k₂, span.blocks = []
  | _ => True

/-- The number of blocks that an event adds. -/
def newBlockCount : FileEvent → ℕ
  | .append _ _ span => span.blocks.length
  | _ => 0

/-- The records that are lost and gained between two states, and the change of the index. -/
structure BlockChange (v v' : FileView) (lost gained : Multiset (SpanKey × BlockBody)) : Prop where
  records : blockRecords v'.spans + lost = blockRecords v.spans + gained
  posted : Posted v.index v'.index (recordCounts gained - recordCounts lost)

variable {v} {v' : FileView}

lemma BlockChange.refl (h : blockRecords v'.spans = blockRecords v.spans)
    (hindex : v'.index = v.index) : BlockChange v v' 0 0 :=
  ⟨by rw [h], by
    rw [hindex, sub_self]
    exact Posted.refl _⟩

/-- Every event changes the index as it changes the blocks. -/
lemma exists_blockChange {ev : FileEvent} (hok : v.NoOverwrite ev) (hstep : FileStep v ev v') :
    ∃ lost gained, BlockChange v v' lost gained ∧ gained.card ≤ lost.card + newBlockCount ev := by
  cases hstep with
  | @append f offset span index' hf hindex =>
    refine ⟨0, recordsOf ⟨f, offset⟩ span.blocks, ⟨?_, ?_⟩, by simp [newBlockCount]⟩
    · rw [add_zero]
      exact blockRecords_put hok span
    · refine hindex.congr ?_
      rw [recordCounts_recordsOf, recordCounts_zero, sub_zero]
  | @dropInline f n offset state span hf hn hlast hinline =>
    have hget := (seekForPrev_spec hlast).1
    refine ⟨0, 0, .refl ?_ rfl, by simp⟩
    rw [blockRecords_of_get hget, span.blocks_of_isInlineStorage hinline, recordsOf_nil, zero_add]
  | @dropBlocks f n offset span index' hf hspan hblocks hindex =>
    refine ⟨recordsOf ⟨f, offset⟩ span.blocks, 0, ⟨?_, ?_⟩, by simp⟩
    · rw [add_zero, blockRecords_of_get hspan, add_comm]
    · refine hindex.congr ?_
      rw [recordCounts_recordsOf, recordCounts_zero, zero_sub]
  | @swapBlocks k₁ k₂ s₁ s₂ s₁' s₂' b₁ b₂ r₁ r₂ index' hne hk₁ hk₂ hsize₁ hsize₂ hblocks₁ hblocks₂
      hblocks₁' hblocks₂' hstate hindex =>
    have hkeys : k₁ ≠ k₂ := fun hk => hne (by rw [hk])
    refine ⟨recordsOf k₁ [b₁] + recordsOf k₂ [b₂], recordsOf k₁ [b₂] + recordsOf k₂ [b₁],
      ⟨?_, ?_⟩, by simp⟩
    · have hput := blockRecords_put_put hkeys hk₁ hk₂ s₁' s₂'
      rw [recordsOf_perm hblocks₁, recordsOf_perm hblocks₂, recordsOf_perm hblocks₁',
        recordsOf_perm hblocks₂', recordsOf_cons k₁ b₁, recordsOf_cons k₂ b₂,
        recordsOf_cons k₁ b₂, recordsOf_cons k₂ b₁] at hput
      -- the other blocks of the two spans stay
      refine add_right_cancel (b := recordsOf k₁ r₁ + recordsOf k₂ r₂) ?_
      calc _ = blockRecords ((v.spans.put k₁ s₁').put k₂ s₂') +
            (recordsOf k₁ [b₁] + recordsOf k₁ r₁ + (recordsOf k₂ [b₂] + recordsOf k₂ r₂)) := by abel
        _ = _ := by rw [hput]
        _ = _ := by abel
    · refine hindex.congr ?_
      simp only [recordCounts_add, recordCounts_recordsOf]
      abel
  | @swapSpans k₁ k₂ s₁ s₂ index' hne hk₁ hk₂ hsize hstate₁ hstate₂ hindex =>
    have hkeys : k₁ ≠ k₂ := fun hk => hne (by rw [hk])
    refine ⟨recordsOf k₁ s₁.blocks + recordsOf k₂ s₂.blocks,
      recordsOf k₁ s₂.blocks + recordsOf k₂ s₁.blocks, ⟨?_, ?_⟩, ?_⟩
    · exact blockRecords_put_put hkeys hk₁ hk₂ s₂ s₁
    · refine hindex.congr ?_
      simp only [recordCounts_add, recordCounts_recordsOf]
      abel
    · simp only [Multiset.card_add, card_recordsOf]
      omega
  | @move k₁ k₂ n span index' hk₁ hn hf₁ hf₂ hindex =>
    have hkeys : k₁ ≠ k₂ := fun hk => by simp [hk, hf₂] at hf₁
    refine ⟨recordsOf k₁ span.blocks, recordsOf k₂ span.blocks, ⟨?_, ?_⟩, by simp⟩
    · have hfree : ∀ span ∈ (v.spans.delete k₁).get k₂, span.blocks = [] := by
        rw [get_delete_of_ne hkeys]
        exact hok
      calc _ = blockRecords (v.spans.delete k₁) + recordsOf k₂ span.blocks +
            recordsOf k₁ span.blocks := by rw [blockRecords_put hfree span]
        _ = _ := by
          rw [blockRecords_of_get hk₁]
          abel
    · refine hindex.congr ?_
      simp only [recordCounts_recordsOf]
  | @addLocation k₁ k₂ n m source destination destination' index' hne hk₁ hk₂ hf₁ hf₂ hsize hblocks
      hindex =>
    have hkeys : k₂ ≠ k₁ := fun hk => hne (by rw [hk])
    refine ⟨recordsOf k₁ source.blocks, recordsOf k₂ source.blocks, ⟨?_, ?_⟩, by simp⟩
    · have hget : (v.spans.put k₂ destination').get k₁ = some source :=
        (get_put_of_ne hkeys).trans hk₁
      have hput := blockRecords_put_of_get hk₂ destination'
      rw [hblocks, recordsOf_append, blockRecords_of_get hget] at hput
      refine add_right_cancel (b := recordsOf k₂ destination.blocks) ?_
      calc _ = recordsOf k₁ source.blocks + blockRecords ((v.spans.put k₂ destination').delete k₁) +
            recordsOf k₂ destination.blocks := by abel
        _ = _ := by rw [hput]
        _ = _ := by abel
    · refine hindex.congr ?_
      simp only [recordCounts_recordsOf]
  | _ => exact ⟨0, 0, .refl rfl rfl, by simp⟩

/-- The counters are the numbers of blocks: modulo `2 ^ 64` and in range, with few enough blocks
for the two to be the same. -/
structure IndexAgrees (v : FileView) : Prop where
  modEq : ∀ b f, v.index b f ≡ recordCounts (blockRecords v.spans) b f [ZMOD 2 ^ 64]
  fits : ∀ b f, FitsI64 (v.index b f)
  few : (blockRecords v.spans).card < 2 ^ 63

namespace IndexAgrees

lemma index_eq (h : v.IndexAgrees) (b : ℕ) (f : InodeId) :
    v.index b f = recordCounts (blockRecords v.spans) b f := by
  obtain ⟨hnonneg, hle⟩ := recordCounts_le_card (blockRecords v.spans) b f
  have hmod := h.modEq b f
  have hfits := h.fits b f
  have hfew := h.few
  unfold FitsI64 at hfits
  unfold Int.ModEq at hmod
  omega

/-- **Step lemma.** The counters stay exact as long as no span of blocks is overwritten and the
blocks can be counted. -/
theorem step {ev : FileEvent} (h : v.IndexAgrees) (hok : v.NoOverwrite ev)
    (hfew : (blockRecords v.spans).card + newBlockCount ev < 2 ^ 63) (hstep : FileStep v ev v') :
    v'.IndexAgrees := by
  obtain ⟨lost, gained, ⟨hrecords, hposted⟩, hcard⟩ := exists_blockChange hok hstep
  refine ⟨fun b f => ?_, fun b f => (hposted b f).2 (h.fits b f), ?_⟩
  · have hcounts := congrArg (fun r => recordCounts r b f) hrecords
    simp only [recordCounts_add, Pi.add_apply] at hcounts
    calc v'.index b f ≡ v.index b f + (recordCounts gained b f - recordCounts lost b f)
          [ZMOD 2 ^ 64] := (hposted b f).1
      _ ≡ recordCounts (blockRecords v.spans) b f +
          (recordCounts gained b f - recordCounts lost b f) [ZMOD 2 ^ 64] :=
        (h.modEq b f).add_right _
      _ = recordCounts (blockRecords v'.spans) b f := by omega
  · have hcards := congrArg Multiset.card hrecords
    simp only [Multiset.card_add] at hcards
    omega

end IndexAgrees

end FileView

end TernFS
