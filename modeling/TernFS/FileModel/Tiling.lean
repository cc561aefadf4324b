/-
# The spans of a file tile it

The spans of every file, laid out by offset, cover it from 0 to its size without gap, overlap or
empty span, provided that the events meet a condition: spans that are added have a size, sizes do
not wrap around, and only the last span of a file is taken away.
-/
import TernFS.FileModel.Files
import TernFS.Lib.Tiling

namespace TernFS

open Lib Function SortedStore

variable {span : SpanBody} {state' : SpanState}

/-- The spans of a file, by offset. -/
def spansOf (spans : SortedStore SpanKey SpanBody) (f : InodeId) : ℕ → Option SpanBody := fun o =>
  spans.get ⟨f, o⟩

section spansOf

variable (spans : SortedStore SpanKey SpanBody) {k : SpanKey} {f : InodeId}

lemma spansOf_put_self (k : SpanKey) (span : SpanBody) :
    spansOf (spans.put k span) k.fileId = update (spansOf spans k.fileId) k.offset (some span) := by
  funext o
  by_cases ho : o = k.offset
  · subst ho
    simp [spansOf]
  · rw [update_of_ne ho]
    exact get_put_of_ne fun hk => ho (by rw [hk])

lemma spansOf_put_of_ne (span : SpanBody) (h : f ≠ k.fileId) :
    spansOf (spans.put k span) f = spansOf spans f :=
  funext fun o => get_put_of_ne fun hk => h (by rw [hk])

lemma spansOf_delete_self (k : SpanKey) :
    spansOf (spans.delete k) k.fileId = update (spansOf spans k.fileId) k.offset none := by
  funext o
  by_cases ho : o = k.offset
  · subst ho
    simp [spansOf]
  · rw [update_of_ne ho]
    exact get_delete_of_ne fun hk => ho (by rw [hk])

lemma spansOf_delete_of_ne (h : f ≠ k.fileId) : spansOf (spans.delete k) f = spansOf spans f :=
  funext fun o => get_delete_of_ne fun hk => h (by rw [hk])

end spansOf

namespace FileView

variable (v : FileView)

/-- The size of a file, 0 if there is none. -/
def size (f : InodeId) : ℕ :=
  match v.linked f, v.transient f with
  | some n, _ => n
  | none, some (n, _) => n
  | none, none => 0

/-- The spans of the file tile it, and its size is a word. -/
def FileTiled (f : InodeId) : Prop :=
  Tiled SpanBody.spanSize (spansOf v.spans f) (v.size f) ∧ v.size f < 2 ^ 64

/-- The spans of every file tile it; a file that does not exist has none. -/
structure WellTiled : Prop extends v.Distinct where
  tiled : ∀ f, v.FileTiled f

/-- The condition on events: added spans are not empty, sizes do not wrap around, and the spans
that are taken away are last ones. -/
def TilingOk : FileEvent → Prop
  | .append _ offset span => 0 < span.spanSize ∧ offset + span.spanSize < 2 ^ 64
  | .dropBlocks f offset =>
    ∀ span ∈ v.spans.get ⟨f, offset⟩, offset + span.spanSize = v.size f
  | .move k₁ k₂ => ∀ span ∈ v.spans.get k₁, k₂.offset + span.spanSize < 2 ^ 64
  | .addLocation k₁ _ => ∀ span ∈ v.spans.get k₁, k₁.offset + span.spanSize = v.size k₁.fileId
  | _ => True

variable {v} {v' : FileView} {f : InodeId}

lemma size_of_linked {n : ℕ} (h : v.linked f = some n) : v.size f = n := by
  simp [size, h]

lemma size_of_transient {n : ℕ} {state : SpanState} (hlinked : v.linked f = none)
    (h : v.transient f = some (n, state)) : v.size f = n := by
  simp [size, hlinked, h]

lemma size_of_absent (hlinked : v.linked f = none) (h : v.transient f = none) : v.size f = 0 := by
  simp [size, hlinked, h]

lemma FileTiled.congr (h : v.FileTiled f) (hlinked : v'.linked f = v.linked f)
    (htransient : v'.transient f = v.transient f)
    (hspans : spansOf v'.spans f = spansOf v.spans f) : v'.FileTiled f := by
  simpa only [FileTiled, size, hlinked, htransient, hspans] using h

namespace WellTiled

variable {n : ℕ} {state : SpanState}

section

variable (h : v.WellTiled)
include h

lemma size_eq (hf : v.transient f = some (n, state)) : v.size f = n :=
  size_of_transient (h.linked_eq_none hf) hf

lemma tiled_of_transient (hf : v.transient f = some (n, state)) :
    Tiled SpanBody.spanSize (spansOf v.spans f) n :=
  h.size_eq hf ▸ (h.tiled f).1

lemma lt_of_transient (hf : v.transient f = some (n, state)) : n < 2 ^ 64 :=
  h.size_eq hf ▸ (h.tiled f).2

/-- The span with the greatest offset, where the code looks for it. -/
lemma ends_of_seekForPrev {key : SpanKey} (hf : v.transient f = some (n, state))
    (hkey : key.fileId = f) (hlast : v.spans.seekForPrev ⟨f, n⟩ = some (key, span)) :
    key.offset + span.spanSize = n := by
  obtain ⟨f', offset⟩ := key
  obtain rfl : f' = f := hkey
  obtain ⟨hget, -, hmax⟩ := seekForPrev_spec hlast
  refine (h.tiled_of_transient hf).last_ends (o := offset) hget fun o w ho => ?_
  have hle : (⟨f', o⟩ : SpanKey) ≤ ⟨f', n⟩ :=
    SpanKey.le_def.2 (.inr ⟨rfl, ((h.tiled_of_transient hf).lt ho).le⟩)
  have hw : v.spans.get ⟨f', o⟩ = some w := ho
  simpa using SpanKey.le_def.1 (hmax _ hle (by simp [hw]))

/-- The files that an event does not name keep their spans, so one file has to be looked at. -/
lemma change (hdistinct : v'.Distinct)
    (hframe : ∀ f', f' ≠ f → v'.linked f' = v.linked f' ∧ v'.transient f' = v.transient f' ∧
      spansOf v'.spans f' = spansOf v.spans f') (hf : v'.FileTiled f) : v'.WellTiled := by
  refine ⟨hdistinct, fun f' => ?_⟩
  by_cases hf' : f' = f
  · exact hf' ▸ hf
  · obtain ⟨hlinked, htransient, hspans⟩ := hframe f' hf'
    exact (h.tiled f').congr hlinked htransient hspans

lemma put {k : SpanKey} {span' : SpanBody} (hk : v.spans.get k = some span)
    (hsize : span'.spanSize = span.spanSize) (hlinked : v'.linked = v.linked)
    (htransient : v'.transient = v.transient) (hspans : v'.spans = v.spans.put k span')
    (hdistinct : v'.Distinct) : v'.WellTiled := by
  refine h.change hdistinct (f := k.fileId) (fun f' hf' => ?_) ?_
  · rw [hlinked, htransient, hspans]
    exact ⟨rfl, rfl, spansOf_put_of_ne _ _ hf'⟩
  · have htiled := h.tiled k.fileId
    simp only [FileTiled, size, hlinked, htransient, hspans, spansOf_put_self]
    exact ⟨htiled.1.replace hk hsize, htiled.2⟩

lemma put_put {k₁ k₂ : SpanKey} {s₁ s₂ s₁' s₂' : SpanBody} (hne : k₁.fileId ≠ k₂.fileId)
    (hk₁ : v.spans.get k₁ = some s₁) (hk₂ : v.spans.get k₂ = some s₂)
    (hsize₁ : s₁'.spanSize = s₁.spanSize) (hsize₂ : s₂'.spanSize = s₂.spanSize)
    (hlinked : v'.linked = v.linked) (htransient : v'.transient = v.transient)
    (hspans : v'.spans = (v.spans.put k₁ s₁').put k₂ s₂') (hdistinct : v'.Distinct) :
    v'.WellTiled := by
  have hne' : k₁ ≠ k₂ := fun hk => hne (by rw [hk])
  have h₁ : ({ v with spans := v.spans.put k₁ s₁' } : FileView).WellTiled :=
    h.put hk₁ hsize₁ rfl rfl rfl ⟨h.disjoint, h.fileIds, h.symlinkIds, h.givenOut⟩
  exact h₁.put ((get_put_of_ne hne').trans hk₂) hsize₂ hlinked htransient hspans hdistinct

section

variable (hdistinct : v'.Distinct) (hlinked : v'.linked = v.linked)
include hdistinct hlinked

/-- Only the record and the spans of one transient file change. -/
lemma setRecord {t : Option (ℕ × SpanState)} (htransient : v'.transient = update v.transient f t)
    (hspans : ∀ f', f' ≠ f → spansOf v'.spans f' = spansOf v.spans f') (hf : v'.FileTiled f) :
    v'.WellTiled := by
  refine h.change hdistinct (fun f' hf' => ⟨by rw [hlinked], ?_, hspans f' hf'⟩) hf
  rw [htransient, update_of_ne hf']

lemma construct (hnew : ¬ v.Present f) (hspans : v'.spans = v.spans)
    (htransient : v'.transient = update v.transient f (some (0, .clean))) : v'.WellTiled := by
  obtain ⟨hl, ht⟩ : v.linked f = none ∧ v.transient f = none := by
    simpa only [Present, not_or, not_not] using hnew
  refine h.setRecord hdistinct hlinked htransient (fun f' _ => by rw [hspans]) ?_
  have hsize : v'.size f = 0 :=
    size_of_transient (by rw [hlinked, hl]) (by rw [htransient, update_self])
  have htiled := h.tiled f
  rw [FileTiled, size_of_absent hl ht] at htiled
  rwa [FileTiled, hsize, hspans]

lemma remove (hnone : ∀ o, v.spans.get ⟨f, o⟩ = none) (hspans : v'.spans = v.spans)
    (htransient : v'.transient = update v.transient f none) : v'.WellTiled := by
  refine h.setRecord hdistinct hlinked htransient (fun f' _ => by rw [hspans]) ?_
  cases hf : v.linked f with
  | some =>
    have htiled := h.tiled f
    rw [FileTiled, size_of_linked hf] at htiled
    rwa [FileTiled, size_of_linked (by rw [hlinked, hf]), hspans]
  | none =>
    rw [FileTiled, hspans, size_of_absent (by rw [hlinked, hf]) (by rw [htransient, update_self])]
    exact ⟨Tiled.of_forall_none hnone, by omega⟩

/-- A transient file gets another size, up to which its spans go. -/
lemma resize {t : ℕ × SpanState} (hf : v.transient f = some t)
    (htransient : v'.transient = update v.transient f (some (n, state)))
    (hspans : ∀ f', f' ≠ f → spansOf v'.spans f' = spansOf v.spans f')
    (htiled : Tiled SpanBody.spanSize (spansOf v'.spans f) n) (hn : n < 2 ^ 64) :
    v'.WellTiled := by
  refine h.setRecord hdistinct hlinked htransient hspans ?_
  have hnone : v'.linked f = none := by rw [hlinked, h.linked_eq_none hf]
  rw [FileTiled, size_of_transient hnone (by rw [htransient, update_self])]
  exact ⟨htiled, hn⟩

lemma setState (hf : v.transient f = some (n, state)) (hspans : v'.spans = v.spans)
    (htransient : v'.transient = update v.transient f (some (n, state'))) : v'.WellTiled := by
  refine h.resize hdistinct hlinked hf htransient (fun f' _ => by rw [hspans]) ?_
    (h.lt_of_transient hf)
  rw [hspans]
  exact h.tiled_of_transient hf

lemma drop {offset : ℕ} (hf : v.transient f = some (n, state))
    (hspan : v.spans.get ⟨f, offset⟩ = some span) (hends : offset + span.spanSize = n)
    (hspans : v'.spans = v.spans.delete ⟨f, offset⟩)
    (htransient : v'.transient = update v.transient f (some (offset, state'))) : v'.WellTiled := by
  have hlt := h.lt_of_transient hf
  refine h.resize hdistinct hlinked hf htransient (fun f' hf' => ?_) ?_ (by omega)
  · rw [hspans, spansOf_delete_of_ne _ hf']
  · rw [hspans, spansOf_delete_self v.spans ⟨f, offset⟩]
    exact (h.tiled_of_transient hf).drop_last hspan hends

lemma append {offset : ℕ} (hf : v.transient f = some (offset, state)) (hpos : 0 < span.spanSize)
    (hlt : offset + span.spanSize < 2 ^ 64) (hspans : v'.spans = v.spans.put ⟨f, offset⟩ span)
    (htransient : v'.transient =
      update v.transient f (some (addU64 offset span.spanSize, state'))) : v'.WellTiled := by
  rw [addU64_of_lt hlt] at htransient
  refine h.resize hdistinct hlinked hf htransient (fun f' hf' => ?_) ?_ hlt
  · rw [hspans, spansOf_put_of_ne _ _ hf']
  · rw [hspans, spansOf_put_self v.spans ⟨f, offset⟩]
    exact (h.tiled_of_transient hf).concat hpos

end

end

/-- **Step lemma.** An event that meets the condition keeps every file tiled. -/
theorem step {ev : FileEvent} (h : v.WellTiled) (hok : v.TilingOk ev) (hstep : FileStep v ev v') :
    v'.WellTiled := by
  have hdistinct := h.toDistinct.step hstep
  cases hstep with
  | quiet => exact h
  | @constructFile f hf hvalid =>
    have hnew := (h.toDistinct.construct (.constructFile hf hvalid)).1
    exact h.construct hdistinct rfl hnew rfl rfl
  | @constructSymlink f hf hvalid =>
    have hnew := (h.toDistinct.construct (.constructSymlink hf hvalid)).1
    exact h.construct hdistinct rfl hnew rfl rfl
  | @link f n hf =>
    refine h.change hdistinct (f := f) (fun f' hf' => ?_) ?_
    · exact ⟨update_of_ne hf' .., update_of_ne hf' .., rfl⟩
    · rw [FileTiled, size_of_linked (update_self ..)]
      exact ⟨h.tiled_of_transient hf, h.lt_of_transient hf⟩
  | @unlink f n hf =>
    refine h.change hdistinct (f := f) (fun f' hf' => ?_) ?_
    · exact ⟨update_of_ne hf' .., update_of_ne hf' .., rfl⟩
    · rw [FileTiled, size_of_transient (update_self ..) (update_self ..), ← size_of_linked hf]
      exact h.tiled f
  | remove hspans => exact h.remove hdistinct rfl hspans rfl rfl
  | append hf => exact h.append hdistinct rfl hf hok.1 hok.2 rfl rfl
  | certify hf | condemn hf => exact h.setState hdistinct rfl hf rfl rfl
  | @dropInline f n offset state span hf hn hlast =>
    have hget := (seekForPrev_spec hlast).1
    have hends := h.ends_of_seekForPrev hf rfl hlast
    exact h.drop hdistinct rfl hf hget hends rfl rfl
  | @dropBlocks f n offset span index' hf hspan =>
    have hends : offset + span.spanSize = n := by
      rw [hok span hspan, h.size_eq hf]
    exact h.drop hdistinct rfl hf hspan hends rfl rfl
  | swapBlocks hne hk₁ hk₂ hsize₁ hsize₂ =>
    exact h.put_put hne hk₁ hk₂ hsize₁ hsize₂ rfl rfl rfl hdistinct
  | swapSpans hne hk₁ hk₂ hsize =>
    exact h.put_put hne hk₁ hk₂ hsize.symm hsize rfl rfl rfl hdistinct
  | @move k₁ k₂ n span index' hk₁ hn hf₁ hf₂ =>
    have hne : k₂.fileId ≠ k₁.fileId := fun heq => by simp [heq, hf₁] at hf₂
    -- the span ends within the file, so its end does not wrap around
    have hle := (h.tiled_of_transient hf₁).add_le hk₁
    have hlt := h.lt_of_transient hf₁
    rw [addU64_of_lt (by omega)] at hn
    have hsub : subU64 n span.spanSize = k₁.offset := by
      rw [hn, subU64_of_le (by omega) (by omega), Nat.add_sub_cancel]
    have h₁ : ({ v with
        transient := update v.transient k₁.fileId (some (subU64 n span.spanSize, .clean))
        spans := v.spans.delete k₁ } : FileView).WellTiled :=
      h.drop (h.toDistinct.setTransient hf₁ rfl rfl rfl rfl) rfl hf₁ hk₁ hn.symm rfl (by rw [hsub])
    exact h₁.append hdistinct rfl ((update_of_ne hne ..).trans hf₂)
      ((h.tiled_of_transient hf₁).pos hk₁) (hok span hk₁) rfl rfl
  | @addLocation k₁ k₂ n m source destination destination' index' hne hk₁ hk₂ hf₁ hf₂ hsize =>
    have hends : k₁.offset + source.spanSize = n := by
      rw [hok source hk₁, h.size_eq hf₁]
    have hlt := h.lt_of_transient hf₁
    have hsub : subU64 n source.spanSize = k₁.offset := by
      rw [← hends, subU64_of_le (by omega) (by omega), Nat.add_sub_cancel]
    have h₁ : ({ v with spans := v.spans.put k₂ destination' } : FileView).WellTiled :=
      h.put hk₂ hsize rfl rfl rfl ⟨h.disjoint, h.fileIds, h.symlinkIds, h.givenOut⟩
    have hne' : k₂ ≠ k₁ := fun hk => hne (by rw [hk])
    exact h₁.drop hdistinct rfl hf₁ ((get_put_of_ne hne').trans hk₁) hends rfl (by rw [hsub])

end WellTiled

end FileView

end TernFS
