/-
# Which files there are

No file is linked and transient at once, and the id of a new file is new: the two counters only
grow, and every file has an id that one of them gave out.
-/
import TernFS.FileModel.Events

namespace TernFS

open Lib Function

/-- The id is of the given type and can be counted up without running into the next type. -/
def InodeId.InRange (bits : ℕ) (x : InodeId) : Prop := x.u64 / 2 ^ 61 = bits ∧ x.id < 2 ^ 53 - 1

/-- The id was given out by the counter of its type. -/
def InodeId.GivenOut (bits : ℕ) (x last : InodeId) : Prop := x.u64 / 2 ^ 61 = bits ∧ x ≤ last

lemma InodeId.InRange.next {bits : ℕ} {last f : InodeId} (h : last.InRange bits)
    (hbits : 1 < bits ∧ bits < 4) (hf : f.u64 = addU64 last.u64 0x100) (hvalid : f.Valid) :
    f.InRange bits ∧ last < f := by
  obtain ⟨hlast, hid⟩ := h
  have hu64 : f.u64 = last.u64 + 0x100 := by
    rw [hf]
    exact addU64_of_lt (by unfold InodeId.id at hid; omega)
  have hnull : f ≠ .null := fun hf => by
    have : f.u64 = 0 := by rw [hf]; rfl
    omega
  obtain ⟨hfid, -⟩ := hvalid.resolve_left hnull
  unfold InodeId.InRange
  unfold InodeId.id at hid hfid ⊢
  exact ⟨by omega, InodeId.lt_def.2 (by omega)⟩

namespace FileView

/-- The file exists. -/
def Present (v : FileView) (f : InodeId) : Prop := v.linked f ≠ none ∨ v.transient f ≠ none

/-- Files are told apart by their ids, and new ids are new. -/
structure Distinct (v : FileView) : Prop where
  disjoint : ∀ f, v.linked f = none ∨ v.transient f = none
  fileIds : v.nextFileId.InRange 2
  symlinkIds : v.nextSymlinkId.InRange 3
  givenOut : ∀ f, v.Present f → f.GivenOut 2 v.nextFileId ∨ f.GivenOut 3 v.nextSymlinkId

namespace Distinct

variable {v v' : FileView} {f : InodeId}

lemma linked_eq_none (h : v.Distinct) {t : ℕ × SpanState} (hf : v.transient f = some t) :
    v.linked f = none :=
  (h.disjoint f).resolve_right (by simp [hf])

lemma transient_eq_none (h : v.Distinct) {n : ℕ} (hf : v.linked f = some n) :
    v.transient f = none :=
  (h.disjoint f).resolve_left (by simp [hf])

/-- A change to the record of one file that does not create it. -/
lemma change (h : v.Distinct)
    (hframe : ∀ f', f' ≠ f → v'.linked f' = v.linked f' ∧ v'.transient f' = v.transient f')
    (hdisjoint : v'.linked f = none ∨ v'.transient f = none) (hpresent : v'.Present f → v.Present f)
    (hfile : v'.nextFileId = v.nextFileId) (hsymlink : v'.nextSymlinkId = v.nextSymlinkId) :
    v'.Distinct where
  disjoint f' := by
    by_cases hf : f' = f
    · exact hf ▸ hdisjoint
    · rw [(hframe f' hf).1, (hframe f' hf).2]
      exact h.disjoint f'
  fileIds := hfile ▸ h.fileIds
  symlinkIds := hsymlink ▸ h.symlinkIds
  givenOut f' hf' := by
    rw [hfile, hsymlink]
    refine h.givenOut f' ?_
    by_cases hf : f' = f
    · subst hf
      exact hpresent hf'
    · rwa [FileView.Present, (hframe f' hf).1, (hframe f' hf).2] at hf'

lemma setTransient (h : v.Distinct) {t t' : ℕ × SpanState} (hf : v.transient f = some t)
    (hlinked : v'.linked = v.linked) (htransient : v'.transient = update v.transient f (some t'))
    (hfile : v'.nextFileId = v.nextFileId) (hsymlink : v'.nextSymlinkId = v.nextSymlinkId) :
    v'.Distinct := by
  refine h.change (f := f) (fun f' hf' => ?_) (.inl ?_) (fun _ => .inr (by simp [hf])) hfile hsymlink
  · rw [hlinked, htransient, update_of_ne hf']
    exact ⟨rfl, rfl⟩
  · rw [hlinked]
    exact h.linked_eq_none hf

/-- A file with a new id of its type. -/
lemma not_present_of_lt (h : v.Distinct) (hf : f.u64 / 2 ^ 61 = 2 ∧ v.nextFileId < f ∨
    f.u64 / 2 ^ 61 = 3 ∧ v.nextSymlinkId < f) : ¬ v.Present f := by
  intro hpresent
  rcases h.givenOut f hpresent with ⟨hbits, hle⟩ | ⟨hbits, hle⟩ <;>
    rcases hf with ⟨hbits', hlt⟩ | ⟨hbits', hlt⟩
  · exact absurd (hle.trans_lt hlt) (lt_irrefl _)
  · omega
  · omega
  · exact absurd (hle.trans_lt hlt) (lt_irrefl _)

lemma construct (h : v.Distinct) (hstep : FileStep v (.construct f) v') :
    ¬ v.Present f ∧ v'.Distinct := by
  -- both counters give out an id above all of their type
  have hadd : ∀ {v' : FileView}, ¬ v.Present f → v'.linked = v.linked →
      v'.transient = update v.transient f (some (0, .clean)) →
      v'.nextFileId.InRange 2 → v'.nextSymlinkId.InRange 3 →
      v.nextFileId ≤ v'.nextFileId → v.nextSymlinkId ≤ v'.nextSymlinkId →
      (f.GivenOut 2 v'.nextFileId ∨ f.GivenOut 3 v'.nextSymlinkId) → v'.Distinct := by
    intro v' hnew hlinked htransient hfileIds hsymlinkIds hfile hsymlink hgiven
    refine ⟨fun f' => ?_, hfileIds, hsymlinkIds, fun f' hf' => ?_⟩
    · by_cases hf' : f' = f
      · subst hf'
        left
        rw [hlinked]
        by_contra hne
        exact hnew (.inl hne)
      · rw [hlinked, htransient, update_of_ne hf']
        exact h.disjoint f'
    · by_cases hf'' : f' = f
      · exact hf'' ▸ hgiven
      · rw [FileView.Present, hlinked, htransient, update_of_ne hf''] at hf'
        exact (h.givenOut f' hf').imp (fun hg => ⟨hg.1, hg.2.trans hfile⟩)
          (fun hg => ⟨hg.1, hg.2.trans hsymlink⟩)
  cases hstep with
  | constructFile hf hvalid =>
    obtain ⟨hrange, hlt⟩ := h.fileIds.next (by omega) hf hvalid
    have hnew := h.not_present_of_lt (.inl ⟨hrange.1, hlt⟩)
    exact ⟨hnew, hadd hnew rfl rfl hrange h.symlinkIds hlt.le le_rfl (.inl ⟨hrange.1, le_rfl⟩)⟩
  | constructSymlink hf hvalid =>
    obtain ⟨hrange, hlt⟩ := h.symlinkIds.next (by omega) hf hvalid
    have hnew := h.not_present_of_lt (.inr ⟨hrange.1, hlt⟩)
    exact ⟨hnew, hadd hnew rfl rfl h.fileIds hrange le_rfl hlt.le (.inr ⟨hrange.1, le_rfl⟩)⟩

lemma step {ev : FileEvent} (h : v.Distinct) (hstep : FileStep v ev v') : v'.Distinct := by
  cases hstep with
  | quiet => exact h
  | constructFile hf hvalid => exact (h.construct (.constructFile hf hvalid)).2
  | constructSymlink hf hvalid => exact (h.construct (.constructSymlink hf hvalid)).2
  | link hf =>
    refine h.change (fun f' hf' => ?_) (.inr (update_self ..)) (fun _ => .inr (by simp [hf])) rfl rfl
    exact ⟨update_of_ne hf' .., update_of_ne hf' ..⟩
  | unlink hf =>
    refine h.change (fun f' hf' => ?_) (.inl (update_self ..)) (fun _ => .inl (by simp [hf])) rfl rfl
    exact ⟨update_of_ne hf' .., update_of_ne hf' ..⟩
  | remove =>
    refine h.change (fun f' hf' => ?_) (.inr (update_self ..)) (fun hf => .inl ?_) rfl rfl
    · exact ⟨rfl, update_of_ne hf' ..⟩
    · simpa [Present] using hf
  | append hf | certify hf | condemn hf | dropInline hf | dropBlocks hf =>
    exact h.setTransient hf rfl rfl rfl rfl
  | swapBlocks | swapSpans => exact ⟨h.disjoint, h.fileIds, h.symlinkIds, h.givenOut⟩
  | @move k₁ k₂ n span index' hk₁ hn hf₁ hf₂ =>
    have hne : k₂.fileId ≠ k₁.fileId := fun heq => by simp [heq, hf₁] at hf₂
    have h₁ : ({ v with
        transient := update v.transient k₁.fileId (some (subU64 n span.spanSize, .clean)) } :
        FileView).Distinct := h.setTransient hf₁ rfl rfl rfl rfl
    exact h₁.setTransient (by simpa only [update_of_ne hne] using hf₂) rfl rfl rfl rfl
  | addLocation hne hk₁ hk₂ hf₁ => exact h.setTransient hf₁ rfl rfl rfl rfl

end Distinct

end FileView

end TernFS
