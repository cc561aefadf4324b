/-
# The states of spans

The state of a span is not stored with it.  It is the state of its file if the file is transient
and the span is the last one, and clean otherwise.  A block in a span that is not clean has not
been written, or is about to be erased; no event moves such a block to a clean span, provided
that the states which a swap compares are the states of the two spans.
-/
import TernFS.FileModel.Files

namespace TernFS

open Lib Function SortedStore

namespace FileView

variable (v : FileView)

/-- The state of a span. -/
def spanState (k : SpanKey) : SpanState :=
  match v.spans.get k, v.transient k.fileId with
  | some span, some (n, state) => if addU64 k.offset span.spanSize = n then state else .clean
  | _, _ => .clean

/-- The blocks of a span, none if there is no such span. -/
def blocksAt (k : SpanKey) : List BlockBody := ((v.spans.get k).map SpanBody.blocks).getD []

/-- A block leaves one span and enters another. -/
def Moves (v v' : FileView) (block : BlockBody) (k k' : SpanKey) : Prop :=
  k ≠ k' ∧ (v'.blocksAt k).count block < (v.blocksAt k).count block ∧
    (v.blocksAt k').count block < (v'.blocksAt k').count block

/-- The state that the code finds for a span, from the length of its record, is its state. -/
def StateFound (k : SpanKey) : Prop :=
  ∀ span ∈ v.spans.get k, v.spanStateAt k.fileId (addU64 k.offset span.size) = v.spanState k

/-- The states that a swap compares are those of the spans. -/
def StatesFound : FileEvent → Prop
  | .swapBlocks k₁ k₂ => v.StateFound k₁ ∧ v.StateFound k₂
  | .swapSpans k₁ k₂ => v.StateFound k₁ ∧ v.StateFound k₂
  | _ => True

variable {v} {v' : FileView} {block : BlockBody} {k k' : SpanKey}

lemma Moves.left_changes (h : Moves v v' block k k') : v'.spans.get k ≠ v.spans.get k := by
  intro heq
  have hlt := h.2.1
  rw [blocksAt, heq, ← blocksAt] at hlt
  exact lt_irrefl _ hlt

lemma Moves.right_changes (h : Moves v v' block k k') : v'.spans.get k' ≠ v.spans.get k' := by
  intro heq
  have hlt := h.2.2
  rw [blocksAt, blocksAt, heq] at hlt
  exact lt_irrefl _ hlt

lemma Moves.right_ne_none (h : Moves v v' block k k') : v'.spans.get k' ≠ none := by
  intro hnone
  have hlt := h.2.2
  simp [blocksAt, hnone] at hlt

lemma not_moves_of_delete {k₀ : SpanKey} (hspans : v'.spans = v.spans.delete k₀) :
    ¬ Moves v v' block k k' := by
  intro h
  by_cases hk' : k' = k₀
  · subst hk'
    exact h.right_ne_none (by rw [hspans, get_delete_self])
  · exact h.right_changes (by rw [hspans, get_delete_of_ne (Ne.symm hk')])

variable {s₁ s₂ span : SpanBody}

lemma get_put_put_of_ne {spans : SortedStore SpanKey SpanBody} {k₁ k₂ : SpanKey}
    (h₁ : k ≠ k₁) (h₂ : k ≠ k₂) : ((spans.put k₁ s₁).put k₂ s₂).get k = spans.get k := by
  rw [get_put_of_ne h₂.symm, get_put_of_ne h₁.symm]

/-- If two spans are rewritten, a block can only move from one of them to the other. -/
lemma Moves.of_put_put {k₁ k₂ : SpanKey} (h : Moves v v' block k k')
    (hspans : v'.spans = (v.spans.put k₁ s₁).put k₂ s₂) :
    (k = k₁ ∧ k' = k₂) ∨ (k = k₂ ∧ k' = k₁) := by
  have htouched : ∀ {k}, v'.spans.get k ≠ v.spans.get k → k = k₁ ∨ k = k₂ := by
    intro k hk
    by_contra hne
    rw [not_or] at hne
    exact hk (by rw [hspans, get_put_put_of_ne hne.1 hne.2])
  have hne := h.1
  rcases htouched h.left_changes with rfl | rfl <;> rcases htouched h.right_changes with rfl | rfl
  · exact absurd rfl hne
  · exact .inl ⟨rfl, rfl⟩
  · exact .inr ⟨rfl, rfl⟩
  · exact absurd rfl hne

lemma spanState_of_clean {n : ℕ} (h : v.transient k.fileId = some (n, .clean)) :
    v.spanState k = .clean := by
  unfold spanState
  split
  · split <;> simp_all
  · rfl

lemma spanState_eq {n : ℕ} {state : SpanState} (hk : v.spans.get k = some span)
    (hf : v.transient k.fileId = some (n, state)) :
    v.spanState k = if addU64 k.offset span.spanSize = n then state else .clean := by
  simp [spanState, hk, hf]

/-- The state of a span only depends on its size and on the record of its file. -/
lemma spanState_congr {span' : SpanBody} (hk : v.spans.get k = some span)
    (hk' : v'.spans.get k = some span') (hsize : span'.spanSize = span.spanSize)
    (hf : v'.transient k.fileId = v.transient k.fileId) : v'.spanState k = v.spanState k := by
  rw [spanState, spanState, hk, hk', hf]
  cases v.transient k.fileId with
  | none => rfl
  | some => simp only [hsize]

/-- **Step lemma.** A block that moves out of a span that is not clean moves into a span that is
not clean. -/
theorem spanState_ne_clean_of_moves {ev : FileEvent} (hok : v.StatesFound ev)
    (hstep : FileStep v ev v') (hmoves : Moves v v' block k k') (hk : v.spanState k ≠ .clean) :
    v'.spanState k' ≠ .clean := by
  cases hstep with
  | @append f offset span =>
    -- one span is written, so none gains what another loses
    have htouched : ∀ {k}, (v.spans.put ⟨f, offset⟩ span).get k ≠ v.spans.get k →
        k = ⟨f, offset⟩ := fun {k} hne => by
      by_contra hk
      exact hne (get_put_of_ne (Ne.symm hk))
    have heq := (htouched hmoves.left_changes).trans (htouched hmoves.right_changes).symm
    exact absurd heq hmoves.1
  | dropInline | dropBlocks => exact absurd hmoves (not_moves_of_delete rfl)
  | @swapBlocks k₁ k₂ s₁ s₂ s₁' s₂' b₁ b₂ r₁ r₂ index' hne hk₁ hk₂ hsize₁ hsize₂ hblocks₁ hblocks₂
    hblocks₁' hblocks₂' hstate =>
    have hkeys : k₁ ≠ k₂ := fun hk => hne (by rw [hk])
    have hstates : v.spanState k₁ = v.spanState k₂ := by
      rw [← hok.1 s₁ hk₁, ← hok.2 s₂ hk₂, hstate]
    have hget₁ : ((v.spans.put k₁ s₁').put k₂ s₂').get k₁ = some s₁' := by
      rw [get_put_of_ne hkeys.symm, get_put_self]
    have hsame₁ : ({ v with spans := (v.spans.put k₁ s₁').put k₂ s₂', index := index' } :
        FileView).spanState k₁ = v.spanState k₁ := spanState_congr hk₁ hget₁ hsize₁ rfl
    have hsame₂ : ({ v with spans := (v.spans.put k₁ s₁').put k₂ s₂', index := index' } :
        FileView).spanState k₂ = v.spanState k₂ :=
      spanState_congr hk₂ (get_put_self ..) hsize₂ rfl
    rcases hmoves.of_put_put rfl with ⟨rfl, rfl⟩ | ⟨rfl, rfl⟩
    · rw [hsame₂, ← hstates]
      exact hk
    · rw [hsame₁, hstates]
      exact hk
  | @swapSpans k₁ k₂ s₁ s₂ index' hne hk₁ hk₂ hsize hstate₁ hstate₂ =>
    rcases hmoves.of_put_put rfl with ⟨rfl, rfl⟩ | ⟨rfl, rfl⟩
    · exact absurd ((hok.1 s₁ hk₁).symm.trans hstate₁) hk
    · exact absurd ((hok.2 s₂ hk₂).symm.trans hstate₂) hk
  | @move k₁ k₂ n span =>
    -- the span is the last one of its new file, which is dirty now
    have hright : k' = k₂ := by
      by_contra hne
      have hget : ((v.spans.delete k₁).put k₂ span).get k' = (v.spans.delete k₁).get k' :=
        get_put_of_ne (Ne.symm hne)
      by_cases hk₁' : k' = k₁
      · subst hk₁'
        exact hmoves.right_ne_none (hget.trans (get_delete_self ..))
      · exact hmoves.right_changes (hget.trans (get_delete_of_ne (Ne.symm hk₁')))
    subst hright
    rw [spanState_eq (get_put_self ..) (update_self ..), if_pos rfl]
    decide
  | @addLocation k₁ k₂ n m source destination destination' index' hne hk₁ hk₂ hf₁ =>
    -- the span that loses its blocks is the source, and its file is clean
    have hleft : k = k₁ := by
      by_contra hleft
      have hright : k' ≠ k₁ := by
        rintro rfl
        exact hmoves.right_ne_none (get_delete_self ..)
      have htouched : ∀ {k}, k ≠ k₁ → ((v.spans.put k₂ destination').delete k₁).get k ≠
          v.spans.get k → k = k₂ := fun {k} hk hne => by
        by_contra hk'
        refine hne ?_
        rw [get_delete_of_ne (Ne.symm hk), get_put_of_ne (Ne.symm hk')]
      have heq := (htouched hleft hmoves.left_changes).trans
        (htouched hright hmoves.right_changes).symm
      exact hmoves.1 heq
    subst hleft
    exact absurd (spanState_of_clean hf₁) hk
  | _ => exact absurd rfl hmoves.left_changes

end FileView

end TernFS
