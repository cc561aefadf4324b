/-
# Sets of byte ranges

`byterange.Set` (`nfsd/internal/byterange/set.go`) is a list of half-open ranges.  The bounds are
compared and never computed with, so that they are natural numbers here; those of the ranges that
the operations leave are bounds that they were given.
-/
import Mathlib.Data.List.Sort
import Mathlib.Order.Lattice.Nat
import Mathlib.Order.Interval.Set.LinearOrder

namespace TernFS.ByteRange

open List Set

/-- `Range`, with `Start` and `End`. -/
@[ext] structure Range where
  start : ℕ
  stop : ℕ
deriving DecidableEq

/-- The loop of `Add`, from the first range that does not end before the new one. -/
def absorb : ℕ → ℕ → List Range → List Range
  | start, stop, [] => [⟨start, stop⟩]
  | start, stop, r :: rs =>
    if r.start ≤ stop then absorb (min start r.start) (max stop r.stop) rs
    else ⟨start, stop⟩ :: r :: rs

/-- The ends are sorted, so that the ranges before the index that `sort.Search` finds are those that
end before the new one. -/
def addFrom (start stop : ℕ) : List Range → List Range
  | [] => absorb start stop []
  | r :: rs => if r.stop < start then r :: addFrom start stop rs else absorb start stop (r :: rs)

/-- `Add`. -/
def add (rs : List Range) (start stop : ℕ) : List Range :=
  if stop ≤ start then rs else addFrom start stop rs

/-- `appendRange`, in `Union`. -/
def appendRange : List Range → Range → List Range
  | [], r => [r]
  | [last], r =>
    if r.start ≤ last.stop then [⟨last.start, max last.stop r.stop⟩] else [last, r]
  | r' :: rs, r => r' :: appendRange rs r

/-- `Union`. Its three loops append the ranges in the order of a merge. -/
def union (rs other : List Range) : List Range :=
  (rs.merge other (·.start ≤ ·.start)).foldl appendRange []

/-- The part of a range that the second loop of `Remove` keeps. -/
def cut (start stop : ℕ) (r : Range) : List Range :=
  if r.stop ≤ start ∨ stop ≤ r.start then [r]
  else
    (if r.start < start then [⟨r.start, start⟩] else []) ++
      if stop < r.stop then [⟨stop, r.stop⟩] else []

/-- `Remove`. Only a range that is split leaves two; the first loop looks for it, so that the second
one never writes over a range that it has not read. -/
def remove (rs : List Range) (start stop : ℕ) : List Range :=
  if stop ≤ start then rs
  else
    match rs.find? fun r => r.start < start ∧ stop < r.stop with
    | some r =>
      rs.flatMap fun split => if split ≠ r then [split] else [⟨r.start, start⟩, ⟨stop, r.stop⟩]
    | none => rs.flatMap (cut start stop)

/-- The loop of `Gaps`. -/
def gapsFrom (pos stop : ℕ) : List Range → List Range
  | [] => if pos < stop then [⟨pos, stop⟩] else []
  | r :: rs =>
    if r.stop ≤ pos then gapsFrom pos stop rs
    else if stop ≤ r.start then if pos < stop then [⟨pos, stop⟩] else []
    else
      (if pos < r.start then [⟨pos, min r.start stop⟩] else []) ++
        let pos := if pos < r.stop then r.stop else pos
        if stop ≤ pos then [] else gapsFrom pos stop rs

/-- `Gaps`. -/
def gaps (rs : List Range) (start stop : ℕ) : List Range :=
  if stop ≤ start then [] else gapsFrom start stop rs

/-! ## Offsets -/

/-- The offsets of a list of ranges. -/
def offsets (rs : List Range) : Set ℕ := {x | ∃ r ∈ rs, r.start ≤ x ∧ x < r.stop}

/-- From `lo` on there are ranges that are not empty, and one ends before the next one starts. -/
def Normal : ℕ → List Range → Prop
  | _, [] => True
  | lo, r :: rs => lo ≤ r.start ∧ r.start < r.stop ∧ Normal (r.stop + 1) rs

/-- The ranges are those of a set, from `lo` on. -/
def Represents (lo : ℕ) (rs : List Range) (S : Set ℕ) : Prop :=
  Normal lo rs ∧ ∀ x, x ∈ offsets rs ↔ x ∈ S

variable {rs rs' : List Range} {r r' : Range} {start stop pos lo x : ℕ}

@[simp] lemma mem_offsets_nil : x ∉ offsets [] := by
  simp [offsets]

@[simp] lemma mem_offsets_cons :
    x ∈ offsets (r :: rs) ↔ r.start ≤ x ∧ x < r.stop ∨ x ∈ offsets rs := by
  simp [offsets]

lemma Normal.mono {lo' : ℕ} (h : Normal lo rs) (hle : lo' ≤ lo) : Normal lo' rs := by
  cases rs with
  | nil => trivial
  | cons r rs => exact ⟨hle.trans h.1, h.2⟩

lemma Normal.bounds (h : Normal lo rs) : ∀ r ∈ rs, lo ≤ r.start ∧ r.start < r.stop := by
  induction rs generalizing lo with
  | nil => simp
  | cons r rs ih =>
    refine forall_mem_cons.2 ⟨⟨h.1, h.2.1⟩, fun r' hr' => ?_⟩
    have hbounds := ih h.2.2 r' hr'
    have hr := h.2.1
    have hlo := h.1
    omega

lemma Normal.pairwise (h : Normal lo rs) : rs.Pairwise (·.stop < ·.start) := by
  induction rs generalizing lo with
  | nil => exact .nil
  | cons r rs ih => exact .cons (fun r' hr' => (h.2.2.bounds r' hr').1) (ih h.2.2)

lemma Normal.le (h : Normal lo rs) (hx : x ∈ offsets rs) : lo ≤ x := by
  obtain ⟨r, hr, hle, -⟩ := hx
  exact (h.bounds r hr).1.trans hle

lemma Normal.apart (h : Normal lo rs) (hr : r ∈ rs) (hr' : r' ∈ rs) (hne : r ≠ r') :
    r.stop < r'.start ∨ r'.stop < r.start := by
  have : Std.Symm fun a b : Range => a.stop < b.start ∨ b.stop < a.start := ⟨fun _ _ => Or.symm⟩
  have hboth : rs.Pairwise fun a b => a.stop < b.start ∨ b.stop < a.start := h.pairwise.imp .inl
  exact hboth.forall hr hr' hne

/-! ## Add and Union -/

lemma Normal.absorb (h : Normal lo rs) (hlt : start < stop) (hlo : lo ≤ start)
    (hstart : ∀ r ∈ rs, start ≤ r.stop) :
    Represents lo (absorb start stop rs) (Ico start stop ∪ offsets rs) := by
  induction rs generalizing start stop lo with
  | nil => simp [ByteRange.absorb, Represents, Normal, hlt, hlo]
  | cons r rs ih =>
    obtain ⟨hle, hr, hrs⟩ := h
    rw [forall_mem_cons] at hstart
    rw [ByteRange.absorb]
    split
    · next hmeet =>
      obtain ⟨hnormal, hoffsets⟩ := ih (hrs.mono (by omega : lo ≤ r.stop + 1))
        (by omega : min start r.start < max stop r.stop) (by omega) fun r' hr' =>
        min_le_of_left_le (hstart.2 r' hr')
      refine ⟨hnormal, fun x => ?_⟩
      rw [hoffsets, mem_union, mem_union, mem_Ico, mem_Ico, mem_offsets_cons]
      grind
    · exact ⟨⟨hlo, hlt, by simp; omega, hr, hrs⟩, by simp⟩

lemma Normal.addFrom (h : Normal lo rs) (hlt : start < stop) (hlo : lo ≤ start) :
    Represents lo (addFrom start stop rs) (Ico start stop ∪ offsets rs) := by
  induction rs generalizing lo with
  | nil => exact h.absorb hlt hlo (by simp)
  | cons r rs ih =>
    rw [ByteRange.addFrom]
    split
    · next hend =>
      obtain ⟨hnormal, hoffsets⟩ := ih h.2.2 hend
      refine ⟨⟨h.1, h.2.1, hnormal⟩, fun x => ?_⟩
      rw [mem_offsets_cons, hoffsets, mem_union, mem_union, mem_offsets_cons]
      tauto
    · next hend =>
      refine h.absorb hlt hlo (forall_mem_cons.2 ⟨not_lt.1 hend, fun r' hr' => ?_⟩)
      have hbounds := h.2.2.bounds r' hr'
      omega

lemma appendRange_eq (h : Normal lo rs) (hr : r.start < r.stop)
    (hle : ∀ r' ∈ rs, r'.start ≤ r.start) :
    appendRange rs r = addFrom r.start r.stop rs ∧ ∀ r' ∈ appendRange rs r, r'.start ≤ r.start := by
  obtain ⟨start, stop⟩ := r
  dsimp only at hr hle ⊢
  induction rs generalizing lo with
  | nil => simp [appendRange, addFrom, absorb]
  | cons a rs ih =>
    cases rs with
    | nil =>
      have hlt := h.2.1
      simp only [appendRange, addFrom, absorb]
      grind
    | cons b rs =>
      rw [forall_mem_cons] at hle
      have hend : a.stop < start := h.2.2.1.trans (hle.2 b mem_cons_self)
      obtain ⟨heq, hstart⟩ := ih h.2.2 hle.2
      refine ⟨?_, forall_mem_cons.2 ⟨hle.1, hstart⟩⟩
      rw [addFrom, if_pos hend, ← heq]
      rfl

lemma Normal.foldl_appendRange (h : Normal 0 rs) (hne : ∀ r ∈ rs', r.start < r.stop)
    (hsorted : rs'.Pairwise (·.start ≤ ·.start)) (hle : ∀ r ∈ rs, ∀ r' ∈ rs', r.start ≤ r'.start) :
    Represents 0 (rs'.foldl appendRange rs) (offsets rs ∪ offsets rs') := by
  induction rs' generalizing rs with
  | nil => simpa [Represents] using h
  | cons r rs' ih =>
    rw [forall_mem_cons] at hne
    rw [pairwise_cons] at hsorted
    obtain ⟨heq, hstart⟩ := appendRange_eq h hne.1 fun r' hr' => hle r' hr' r mem_cons_self
    obtain ⟨hnormal, hoffsets⟩ := h.addFrom hne.1 (Nat.zero_le _)
    rw [← heq] at hnormal hoffsets
    obtain ⟨hrest, hoffsets'⟩ := ih hnormal hne.2 hsorted.2 fun r' hr' r'' hr'' =>
      (hstart r' hr').trans (hsorted.1 r'' hr'')
    refine ⟨hrest, fun x => ?_⟩
    rw [foldl_cons, hoffsets', mem_union, mem_union, hoffsets, mem_union, mem_Ico, mem_offsets_cons]
    tauto

lemma Normal.union (h : Normal 0 rs) (h' : Normal 0 rs') :
    Represents 0 (union rs rs') (offsets rs ∪ offsets rs') := by
  have hstarts : ∀ {rs}, Normal 0 rs → rs.Pairwise fun a b => decide (a.start ≤ b.start) := by
    intro rs h
    refine h.pairwise.imp_of_mem fun {a b} ha _ hab => ?_
    exact decide_eq_true ((h.bounds a ha).2.trans hab).le
  have hsorted := pairwise_merge (by simp; omega) (by simp; omega) rs rs' (hstarts h) (hstarts h')
  have hne : ∀ r ∈ rs.merge rs' (·.start ≤ ·.start), r.start < r.stop := by
    intro r hr
    rcases mem_merge.1 hr with hr | hr
    · exact (h.bounds r hr).2
    · exact (h'.bounds r hr).2
  obtain ⟨hnormal, hoffsets⟩ := Normal.foldl_appendRange (show Normal 0 [] from trivial) hne
    (hsorted.imp fun h => of_decide_eq_true h) (by simp)
  refine ⟨hnormal, fun x => (hoffsets x).trans ?_⟩
  simp [offsets, mem_merge, or_and_right, exists_or]

/-! ## Remove -/

lemma Normal.flatMap_cut (h : Normal lo rs) (hlt : start < stop) :
    Represents lo (rs.flatMap (cut start stop)) (offsets rs \ Ico start stop) := by
  induction rs generalizing lo with
  | nil => simp [Represents, Normal]
  | cons r rs ih =>
    obtain ⟨hnormal, hoffsets⟩ := ih h.2.2
    obtain ⟨hle, hr, -⟩ := h
    rw [flatMap_cons, cut]
    have hmono : ∀ lo' ≤ r.stop + 1, Normal lo' (rs.flatMap (cut start stop)) :=
      fun _ hle => hnormal.mono hle
    split_ifs <;> simp only [Represents, Normal, cons_append, nil_append, mem_offsets_cons,
      hoffsets, mem_sdiff, mem_Ico] <;> grind

lemma Normal.remove (h : Normal 0 rs) (start stop : ℕ) :
    Represents 0 (remove rs start stop) (offsets rs \ Ico start stop) := by
  rw [ByteRange.remove]
  split
  · next hle => exact ⟨h, fun x => by simp; omega⟩
  next hlt =>
  have hcut := h.flatMap_cut (not_le.1 hlt)
  split
  · next r hfind =>
    -- The range that is split is cut like the others, which are apart from it.
    have hr := find?_some hfind
    simp only [decide_eq_true_eq] at hr
    rwa [flatMap_congr (g := cut start stop)]
    intro split hsplit
    by_cases heq : split = r
    · rw [heq, if_neg (by simp), cut, if_neg (by omega), if_pos hr.1, if_pos hr.2]
      rfl
    · rw [if_pos heq, cut, if_pos]
      rcases h.apart hsplit (mem_of_find?_eq_some hfind) heq with hapart | hapart <;> omega
  · exact hcut

/-! ## Gaps -/

lemma Normal.gapsFrom (h : Normal lo rs) (hlt : pos < stop) :
    Represents pos (gapsFrom pos stop rs) (Ico pos stop \ offsets rs) := by
  induction rs generalizing pos lo with
  | nil => simp [ByteRange.gapsFrom, Represents, Normal, hlt]
  | cons r rs ih =>
    have hafter : ∀ x, x ∈ offsets rs → r.stop < x := fun x hx => h.2.2.le hx
    obtain ⟨-, hr, hrs⟩ := h
    simp only [ByteRange.gapsFrom, Represents, mem_sdiff, mem_Ico, mem_offsets_cons]
    split
    · obtain ⟨hnormal, hoffsets⟩ := ih hrs hlt
      exact ⟨hnormal, fun x => by grind⟩
    split
    · exact ⟨by simp [Normal, hlt], fun x => by grind [mem_offsets_cons, mem_offsets_nil]⟩
    rw [if_pos (by omega : pos < r.stop)]
    by_cases hend : stop ≤ r.stop
    · rw [if_pos hend, append_nil]
      split <;> simp [Normal] <;> grind
    · obtain ⟨hnormal, hoffsets⟩ := ih hrs (not_le.1 hend)
      have hmono : ∀ lo' ≤ r.stop, Normal lo' (gapsFrom r.stop stop rs) :=
        fun _ hle => hnormal.mono hle
      rw [if_neg hend]
      split <;> simp only [Normal, singleton_append, nil_append, mem_offsets_cons, hoffsets] <;>
        grind

/-- A range in a set of offsets that cannot be extended on either side. -/
def IsMaximal (S : Set ℕ) (r : Range) : Prop :=
  r.start < r.stop ∧ Set.Ico r.start r.stop ⊆ S ∧ r.stop ∉ S ∧ ∀ x, x + 1 = r.start → x ∉ S

lemma Normal.mem_iff_isMaximal (h : Normal lo rs) : r ∈ rs ↔ IsMaximal (offsets rs) r := by
  have hend : ∀ r ∈ rs, ∀ x, x = r.stop ∨ x + 1 = r.start → x ∉ offsets rs := by
    rintro r hr x hx ⟨r', hr', hmem⟩
    have hlt := (h.bounds r hr).2
    by_cases hne : r = r'
    · grind
    · have hapart := h.apart hr hr' hne
      omega
  constructor
  · intro hr
    exact ⟨(h.bounds r hr).2, fun x hx => ⟨r, hr, hx⟩, hend r hr _ (.inl rfl),
      fun x hx => hend r hr x (.inr hx)⟩
  · rintro ⟨hlt, hin, hstop, hstart⟩
    -- The range that has the first offset has no end within the other one, and the other way round.
    obtain ⟨r', hr', hle, hlt'⟩ := hin ⟨le_rfl, hlt⟩
    have hstart' : ¬ r'.start < r.start := fun h =>
      hstart (r.start - 1) (by omega) ⟨r', hr', by omega, by omega⟩
    have hstop' : ¬ r.stop < r'.stop := fun h => hstop ⟨r', hr', by omega, h⟩
    have hstop'' : ¬ r'.stop < r.stop := fun h => hend r' hr' _ (.inl rfl) (hin ⟨by omega, h⟩)
    rwa [Range.ext (x := r) (y := r') (by omega) (by omega)]

/-! ## Sequences of operations -/

/-- A set as it is built by the operations. -/
inductive Built
  | empty
  | add (s : Built) (start stop : ℕ)
  | union (s other : Built)
  | remove (s : Built) (start stop : ℕ)

/-- The stored ranges. -/
def Built.ranges : Built → List Range
  | .empty => []
  | .add s start stop => ByteRange.add s.ranges start stop
  | .union s other => ByteRange.union s.ranges other.ranges
  | .remove s start stop => ByteRange.remove s.ranges start stop

/-- The set that is meant. -/
def Built.denotes : Built → Set ℕ
  | .empty => ∅
  | .add s start stop => Ico start stop ∪ s.denotes
  | .union s other => s.denotes ∪ other.denotes
  | .remove s start stop => s.denotes \ Ico start stop

lemma Built.represents (s : Built) : Represents 0 s.ranges s.denotes := by
  induction s with
  | empty => exact ⟨trivial, fun _ => iff_of_false mem_offsets_nil id⟩
  | add s start stop ih =>
    rw [Built.ranges, Built.denotes, ← Set.ext ih.2, ByteRange.add]
    split
    · next hle => exact ⟨ih.1, by simp [Ico_eq_empty (not_lt.2 hle)]⟩
    · next hlt => exact ih.1.addFrom (not_le.1 hlt) (Nat.zero_le _)
  | union s other ih ih' =>
    rw [Built.ranges, Built.denotes, ← Set.ext ih.2, ← Set.ext ih'.2]
    exact ih.1.union ih'.1
  | remove s start stop ih =>
    rw [Built.ranges, Built.denotes, ← Set.ext ih.2]
    exact ih.1.remove start stop

/-- The operations give the ranges of the set that is meant, sorted, not empty and apart from each
other, and `Gaps` lists the longest ranges of a window that the set leaves out, in order. -/
theorem built_ranges (s : Built) :
    offsets s.ranges = s.denotes ∧ (∀ r ∈ s.ranges, r.start < r.stop) ∧
    s.ranges.Pairwise (·.stop < ·.start) ∧
    ∀ start stop, (gaps s.ranges start stop).Pairwise (·.stop < ·.start) ∧
      ∀ r, r ∈ gaps s.ranges start stop ↔ IsMaximal (Ico start stop \ s.denotes) r := by
  obtain ⟨hnormal, hoffsets⟩ := s.represents
  refine ⟨Set.ext hoffsets, fun r hr => (hnormal.bounds r hr).2, hnormal.pairwise, ?_⟩
  intro start stop
  have hgaps : Represents start (gaps s.ranges start stop) (Ico start stop \ s.denotes) := by
    rw [gaps, ← Set.ext hoffsets]
    split
    · next hle => exact ⟨trivial, fun x => by simp; omega⟩
    · next hlt => exact hnormal.gapsFrom (not_le.1 hlt)
  rw [← Set.ext hgaps.2]
  exact ⟨hgaps.1.pairwise, fun r => hgaps.1.mem_iff_isMaximal⟩

end TernFS.ByteRange
