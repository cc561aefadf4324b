/-
# Tilings of an initial segment

Pieces with a length are laid out by offset.  They tile `[0, n)` when there is no gap, no
overlap and no empty piece, and the last one ends at `n`.  There are two forms: `Tiled` speaks of
the map from offsets to pieces and follows how a layout is built, one piece at the end at a
time; `Tiles` speaks of the list of pieces in order.
-/
import TernFS.Lib.SortedStore
import Mathlib.Logic.Function.Basic

namespace TernFS.Lib

open Function List

variable {V : Type*} {len : V → ℕ}

/-- The pieces of the list, in order, run from `lo` to `hi`. -/
def Tiles (len : V → ℕ) : ℕ → List (ℕ × V) → ℕ → Prop
  | lo, [], hi => lo = hi
  | lo, (o, v) :: l, hi => o = lo ∧ 0 < len v ∧ Tiles len (lo + len v) l hi

instance Tiles.decidable (len : V → ℕ) : ∀ lo l hi, Decidable (Tiles len lo l hi)
  | lo, [], hi => inferInstanceAs (Decidable (lo = hi))
  | lo, (o, v) :: l, hi =>
    have := Tiles.decidable len (lo + len v) l hi
    inferInstanceAs (Decidable (o = lo ∧ 0 < len v ∧ Tiles len (lo + len v) l hi))

namespace Tiles

variable {lo mid hi : ℕ} {l : List (ℕ × V)} {v : V}

lemma le (h : Tiles len lo l hi) : lo ≤ hi := by
  induction l generalizing lo with
  | nil => exact h.le
  | cons e l ih =>
    obtain ⟨-, hpos, hrest⟩ := h
    have := ih hrest
    omega

lemma concat (h : Tiles len lo l mid) (hpos : 0 < len v) :
    Tiles len lo (l ++ [(mid, v)]) (mid + len v) := by
  induction l generalizing lo with
  | nil =>
    obtain rfl : lo = mid := h
    exact ⟨rfl, hpos, rfl⟩
  | cons e l ih => exact ⟨h.1, h.2.1, ih h.2.2⟩

/-- There are no pieces exactly when there is nothing to cover. -/
lemma eq_nil_iff (h : Tiles len lo l hi) : l = [] ↔ lo = hi := by
  cases l with
  | nil => exact iff_of_true rfl h
  | cons =>
    obtain ⟨-, hpos, hrest⟩ := h
    have := hrest.le
    simp only [reduceCtorEq, false_iff]
    omega

/-- The pieces from one of them on. -/
lemma of_append {l' : List (ℕ × V)} (h : Tiles len lo (l ++ l') hi) :
    ∃ mid, Tiles len lo l mid ∧ Tiles len mid l' hi := by
  induction l generalizing lo with
  | nil => exact ⟨lo, rfl, h⟩
  | cons e l ih =>
    obtain ⟨hlo, hpos, hrest⟩ := h
    obtain ⟨mid, hleft, hright⟩ := ih hrest
    exact ⟨mid, ⟨hlo, hpos, hleft⟩, hright⟩

lemma within (h : Tiles len lo l hi) {e : ℕ × V} (he : e ∈ l) :
    lo ≤ e.1 ∧ e.1 + len e.2 ≤ hi ∧ 0 < len e.2 := by
  induction l generalizing lo with
  | nil => cases he
  | cons e' l ih =>
    obtain ⟨hlo, hpos, hrest⟩ := h
    rcases mem_cons.mp he with rfl | he
    · have := hrest.le
      omega
    · have := ih hrest he
      omega

/-- The last piece that starts at a position or before it. -/
lemma exists_last (h : Tiles len lo l hi) {off : ℕ} (hoff : lo ≤ off) (hne : l ≠ []) :
    ∃ l₁ e l₂, l = l₁ ++ e :: l₂ ∧ e.1 ≤ off ∧ ∀ e' ∈ l₂, off < e'.1 := by
  induction l generalizing lo with
  | nil => exact absurd rfl hne
  | cons e l ih =>
    obtain ⟨hlo, hpos, hrest⟩ := h
    by_cases hnext : l ≠ [] ∧ lo + len e.2 ≤ off
    · obtain ⟨l₁, e', l₂, rfl, hle, hlater⟩ := ih hrest hnext.2 hnext.1
      exact ⟨e :: l₁, e', l₂, rfl, hle, hlater⟩
    refine ⟨[], e, l, rfl, by omega, fun e' he' => ?_⟩
    have hwithin := hrest.within he'
    have hne' : l ≠ [] := ne_nil_of_mem he'
    have hlt : ¬ lo + len e.2 ≤ off := fun hle => hnext ⟨hne', hle⟩
    omega

/-- The pieces that reach beyond a position, or up to it at the end, are those from the last one on
that starts there or before. -/
lemma filter_reaching {l' : List (ℕ × V)} {e : ℕ × V} (h : Tiles len lo (l ++ e :: l') hi)
    {off : ℕ} (hle : e.1 ≤ off) (hlater : ∀ e' ∈ l', off < e'.1) (hoff : off ≤ hi) :
    (l ++ e :: l').filter (fun e => off < e.1 + len e.2 ∨ off = hi ∧ e.1 + len e.2 = hi) =
      e :: l' := by
  obtain ⟨mid, hleft, hmid, hpos, hright⟩ := h.of_append
  have hend := hright.le
  rw [filter_append, filter_eq_nil_iff.mpr, filter_eq_self.mpr, nil_append]
  · intro e' he'
    rcases mem_cons.mp he' with rfl | he'
    · cases l' with
      | nil =>
        obtain rfl : mid + len e'.2 = hi := hright
        simp only [decide_eq_true_eq]
        omega
      | cons e₁ =>
        have hlt := hlater e₁ (by simp)
        have hstart : e₁.1 = mid + len e'.2 := hright.1
        simp only [decide_eq_true_eq]
        omega
    · have hlt := hlater e' he'
      simp only [decide_eq_true_eq]
      omega
  · intro e' he'
    have hwithin := hleft.within he'
    simp only [decide_eq_true_eq]
    omega

end Tiles

/-- The map is a layout of `[0, n)`: nothing at all, or one more piece at the end. -/
inductive Tiled (len : V → ℕ) : (ℕ → Option V) → ℕ → Prop
  | empty : Tiled len (fun _ => none) 0
  | concat {g : ℕ → Option V} {n : ℕ} {v : V} (h : Tiled len g n) (hpos : 0 < len v) :
    Tiled len (update g n (some v)) (n + len v)

namespace Tiled

variable {g : ℕ → Option V} {n o : ℕ} {v v' : V}

lemma of_forall_none (h : ∀ o, g o = none) : Tiled len g 0 := by
  obtain rfl : g = fun _ => none := funext h
  exact empty

lemma eq_none_of_zero (h : Tiled len g 0) : ∀ o, g o = none := by
  generalize hn : 0 = n at h
  cases h with
  | empty => exact fun _ => rfl
  | concat => omega

section

variable (h : Tiled len g n)
include h

lemma exists_of_ne_zero (hn : n ≠ 0) : ∃ o v, g o = some v := by
  cases h with
  | empty => exact absurd rfl hn
  | @concat g n v => exact ⟨n, v, update_self ..⟩

/-- No piece is empty, and none goes beyond the end. -/
lemma pos_and_add_le (hv : g o = some v) : 0 < len v ∧ o + len v ≤ n := by
  induction h with
  | empty => cases hv
  | @concat g n w h hpos ih =>
    by_cases ho : o = n
    · subst ho
      obtain rfl : w = v := by simpa using hv
      exact ⟨hpos, le_rfl⟩
    · rw [update_of_ne ho] at hv
      have := ih hv
      omega

lemma add_le (hv : g o = some v) : o + len v ≤ n := (h.pos_and_add_le hv).2

lemma pos (hv : g o = some v) : 0 < len v := (h.pos_and_add_le hv).1

lemma lt (hv : g o = some v) : o < n := by
  have := h.pos_and_add_le hv
  omega

lemma get_end : g n = none := by
  by_contra hne
  obtain ⟨v, hv⟩ := Option.ne_none_iff_exists'.1 hne
  exact lt_irrefl n (h.lt hv)

/-- One piece only ends where the layout does. -/
lemma eq_of_ends {o' : ℕ} (hv : g o = some v) (hv' : g o' = some v') (hends : o + len v = n)
    (hends' : o' + len v' = n) : o = o' := by
  cases h with
  | empty => cases hv
  | @concat g n w h =>
    have hlast : ∀ {o v}, update g n (some w) o = some v → o + len v = n + len w → o = n := by
      intro o v hv hends
      by_contra hne
      rw [update_of_ne hne] at hv
      have := h.add_le hv
      omega
    rw [hlast hv hends, hlast hv' hends']

/-- Taking away the piece at the end. -/
lemma drop_last (hv : g o = some v) (hlast : o + len v = n) : Tiled len (update g o none) o := by
  cases h with
  | empty => cases hv
  | @concat g n w h =>
    obtain rfl : o = n := by
      by_contra ho
      rw [update_of_ne ho] at hv
      have := h.add_le hv
      omega
    rw [update_idem, ← h.get_end, update_eq_self]
    exact h

lemma replace (hv : g o = some v) (hlen : len v' = len v) : Tiled len (update g o (some v')) n := by
  induction h with
  | empty => cases hv
  | @concat g n w h hpos ih =>
    by_cases ho : o = n
    · subst ho
      obtain rfl : w = v := by simpa using hv
      rw [update_idem, ← hlen]
      exact concat h (hlen ▸ hpos)
    · rw [update_of_ne ho] at hv
      rw [update_comm (Ne.symm ho)]
      exact concat (ih hv) hpos

/-- The piece with the greatest offset ends where the layout ends. -/
lemma last_ends (hv : g o = some v) (hlast : ∀ o' w, g o' = some w → o' ≤ o) : o + len v = n := by
  cases h with
  | empty => cases hv
  | @concat g n w h =>
    obtain rfl : o = n := by
      by_contra ho
      have hle : n ≤ o := hlast n w (by simp)
      rw [update_of_ne ho] at hv
      have := h.lt hv
      omega
    obtain rfl : w = v := by simpa using hv
    rfl

/-- The two forms agree: the entries of a layout, in order, tile it. -/
lemma exists_list : ∃ l, SortedEntries l ∧ (∀ o, lookupEntry o l = g o) ∧ Tiles len 0 l n := by
  induction h with
  | empty => exact ⟨[], List.Pairwise.nil, fun _ => rfl, rfl⟩
  | @concat g n w h hpos ih =>
    obtain ⟨l, hsorted, hlookup, htiles⟩ := ih
    have hlt : ∀ e ∈ l, e.1 < n := fun e he =>
      h.lt ((hlookup e.1).symm.trans (hsorted.lookup_eq_some_iff.2 he))
    refine ⟨insertEntry n w l, hsorted.insert n w, fun o => ?_, ?_⟩
    · rw [lookupEntry_insertEntry, hlookup, update_apply]
      by_cases ho : n = o
      · simp [ho]
      · simp [ho, Ne.symm ho]
    · rw [insertEntry_of_forall_lt hlt]
      exact htiles.concat hpos

end

lemma tiles {l : List (ℕ × V)} (hsorted : SortedEntries l) (h : Tiled len g n)
    (hlookup : ∀ o, lookupEntry o l = g o) : Tiles len 0 l n := by
  obtain ⟨l', hsorted', hlookup', htiles⟩ := h.exists_list
  obtain rfl : l = l' := hsorted.ext hsorted' fun o => by rw [hlookup, hlookup']
  exact htiles

end Tiled

end TernFS.Lib
