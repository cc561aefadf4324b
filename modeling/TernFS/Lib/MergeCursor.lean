/-
# Cursors over two sorted runs

Two runs of entries in key order are read as one by a cursor that stands at the smaller of the two
heads, the one of the first run on a tie, and moves by dropping it.  This file says what a walk to
the end meets: the entries of both runs, in key order, each with the run that it comes from.
-/
import TernFS.Lib.SortedStore

namespace TernFS.Lib

open List

/-- One of the two runs. -/
inductive Side
  | first
  | second
deriving DecidableEq

/-- The other run. -/
def Side.other : Side → Side
  | .first => .second
  | .second => .first

@[simp] lemma Side.other_other (s : Side) : s.other.other = s := by cases s <;> rfl

lemma Side.eq_or_eq_other (s t : Side) : t = s ∨ t = s.other := by
  cases s <;> cases t <;> simp [Side.other]

@[simp] lemma Side.other_ne (s : Side) : s.other ≠ s := by cases s <;> simp [Side.other]

/-- What is left to read of the two runs. -/
structure MergeCursor (K V : Type*) where
  first : List (K × V)
  second : List (K × V)

namespace MergeCursor

variable {K V : Type*} [LinearOrder K] {c : MergeCursor K V} {s : Side} {e x : K × V}

/-- The rest of a run. -/
def run (c : MergeCursor K V) : Side → List (K × V)
  | .first => c.first
  | .second => c.second

/-- The entry that the cursor stands at, with its run. -/
def current? : MergeCursor K V → Option (Side × K × V)
  | ⟨[], []⟩ => none
  | ⟨a :: _, []⟩ => some (.first, a)
  | ⟨[], b :: _⟩ => some (.second, b)
  | ⟨a :: _, b :: _⟩ => if b.1 < a.1 then some (.second, b) else some (.first, a)

/-- Move past the current entry. -/
def next (c : MergeCursor K V) : MergeCursor K V :=
  match c.current? with
  | none => c
  | some (.first, _) => { c with first := c.first.tail }
  | some (.second, _) => { c with second := c.second.tail }

/-- The number of entries left. -/
def length (c : MergeCursor K V) : ℕ := c.first.length + c.second.length

/-- At most `n` entries, in the order in which the cursor meets them. -/
def walkN : ℕ → MergeCursor K V → List (Side × K × V)
  | 0, _ => []
  | n + 1, c =>
    match c.current? with
    | none => []
    | some e => e :: walkN n c.next

/-- All entries that are left, in the order in which the cursor meets them. -/
def walk (c : MergeCursor K V) : List (Side × K × V) := walkN c.length c

/-- The cursor is at the end, or stands at the head of one of the runs. -/
lemma current?_cases (c : MergeCursor K V) : (c.current? = none ∧ c.next = c ∧ ∀ s, c.run s = []) ∨
    ∃ s e rest, c.current? = some (s, e) ∧ c.run s = e :: rest ∧ c.next.run s = rest ∧
      c.next.run s.other = c.run s.other ∧ c.length = c.next.length + 1 ∧
      ∀ x ∈ (c.run s.other).head?, e.1 ≤ x.1 := by
  obtain ⟨_ | ⟨a, l⟩, _ | ⟨b, r⟩⟩ := c
  · exact .inl ⟨rfl, rfl, by rintro (_ | _) <;> rfl⟩
  · exact .inr ⟨.second, b, r, rfl, rfl, rfl, rfl, by simp [length, next, current?],
      by simp [run, Side.other]⟩
  · exact .inr ⟨.first, a, l, rfl, rfl, rfl, rfl, by simp [length, next, current?],
      by simp [run, Side.other]⟩
  right
  by_cases h : b.1 < a.1
  · refine ⟨.second, b, r, by simp [current?, h], rfl, by simp [next, current?, h, run],
      by simp [next, current?, h, run, Side.other], ?_, ?_⟩
    · simp only [length, next, current?, if_pos h, length_cons, tail_cons]
      omega
    · simpa [run, Side.other] using h.le
  · refine ⟨.first, a, l, by simp [current?, h], rfl, by simp [next, current?, h, run],
      by simp [next, current?, h, run, Side.other], ?_, ?_⟩
    · simp only [length, next, current?, if_neg h, length_cons, tail_cons]
      omega
    · simpa [run, Side.other] using not_lt.1 h

/-- A walk is empty at the end, and otherwise goes on from the next entry. -/
lemma walk_eq (c : MergeCursor K V) : c.walk = match c.current? with
      | none => []
      | some e => e :: c.next.walk := by
  rcases c.current?_cases with ⟨hnone, -, hrun⟩ | ⟨s, e, rest, hcur, -, -, -, hlength, -⟩
  · have hlength : c.length = 0 := by
      have hfirst : c.first = [] := hrun .first
      have hsecond : c.second = [] := hrun .second
      simp [length, hfirst, hsecond]
    simp [walk, hlength, walkN, hnone]
  · simp only [walk, hlength, walkN, hcur]

lemma walk_induction {P : MergeCursor K V → Prop} (hend : ∀ c, (∀ s, c.run s = []) → P c)
    (hnext : ∀ c s e rest, c.current? = some (s, e) → c.run s = e :: rest → c.next.run s = rest →
      c.next.run s.other = c.run s.other → (∀ x ∈ (c.run s.other).head?, e.1 ≤ x.1) →
      P c.next → P c) (c : MergeCursor K V) : P c := by
  induction h : c.length generalizing c with
  | zero =>
    rcases c.current?_cases with ⟨-, -, hrun⟩ | ⟨s, e, rest, -, -, -, -, hlength, -⟩
    · exact hend c hrun
    · omega
  | succ n ih =>
    rcases c.current?_cases with ⟨-, -, hrun⟩ | ⟨s, e, rest, hcur, hs, hnext', hother, hlength, hle⟩
    · exact hend c hrun
    · exact hnext c s e rest hcur hs hnext' hother hle (ih c.next (by omega))

lemma mem_walk : (s, e) ∈ c.walk ↔ e ∈ c.run s := by
  induction c using walk_induction with
  | hend c hrun =>
    have hnone : c.current? = none := by
      rcases c.current?_cases with ⟨hnone, -⟩ | ⟨t, x, rest, -, ht, -⟩
      · exact hnone
      · rw [hrun t] at ht
        cases ht
    simp [walk_eq c, hnone, hrun s]
  | hnext c t x rest hcur ht hnext hother _ ih =>
    rw [walk_eq c, hcur]
    simp only [mem_cons, ih]
    rcases Side.eq_or_eq_other t s with rfl | rfl
    · rw [hnext, ht]
      simp
    · rw [hother]
      simp

/-- The runs are in key order. -/
def Sorted (c : MergeCursor K V) : Prop := ∀ s, SortedEntries (c.run s)

lemma Sorted.next (h : c.Sorted) : c.next.Sorted := by
  rcases c.current?_cases with ⟨-, hnext, -⟩ | ⟨s, e, rest, -, hs, hnext, hother, -⟩
  · rwa [hnext]
  intro t
  rcases Side.eq_or_eq_other s t with rfl | rfl
  · rw [hnext]
    exact (hs ▸ h t).tail
  · rw [hother]
    exact h _

/-- The run whose head is the current entry, and what moving on makes of the runs. -/
lemma run_of_current? (hcur : c.current? = some (s, e)) : ∃ rest, c.run s = e :: rest ∧
    c.next.run s = rest ∧ c.next.run s.other = c.run s.other ∧
      ∀ x ∈ (c.run s.other).head?, e.1 ≤ x.1 := by
  rcases c.current?_cases with ⟨hnone, -⟩ | ⟨s', e', rest, hcur', hs, hnext, hother, -, hle⟩
  · rw [hnone] at hcur
    cases hcur
  rw [hcur'] at hcur
  cases hcur
  exact ⟨rest, hs, hnext, hother, hle⟩

/-- In sorted runs the current entry has the least key. -/
lemma Sorted.current?_le (h : c.Sorted) (hcur : c.current? = some (s, e)) :
    ∀ t, ∀ x ∈ c.run t, e.1 ≤ x.1 := by
  obtain ⟨rest, hs, -, -, hle⟩ := run_of_current? hcur
  intro t x hx
  rcases Side.eq_or_eq_other s t with rfl | rfl
  · rw [hs] at hx
    rcases mem_cons.1 hx with rfl | hx
    · exact le_rfl
    · exact ((hs ▸ h t).lt_of_mem hx).le
  · cases hother : c.run s.other with
    | nil =>
      rw [hother] at hx
      cases hx
    | cons y =>
      have hy : e.1 ≤ y.1 := hle y (by rw [hother]; rfl)
      rw [hother] at hx
      rcases mem_cons.1 hx with rfl | hx
      · exact hy
      · exact hy.trans ((hother ▸ h s.other).lt_of_mem hx).le

/-- No key is in both runs. -/
def Disjoint (c : MergeCursor K V) : Prop :=
  ∀ x ∈ c.first, ∀ y ∈ c.second, x.1 ≠ y.1

omit [LinearOrder K] in
lemma Disjoint.ne (h : c.Disjoint) {y : K × V} (hx : x ∈ c.run s) (hy : y ∈ c.run s.other) :
    x.1 ≠ y.1 := by
  cases s with
  | first => exact h x hx y hy
  | second => exact (h y hy x hx).symm

lemma mem_of_mem_next (hx : x ∈ c.next.run s) : x ∈ c.run s := by
  rcases c.current?_cases with ⟨-, hnext, -⟩ | ⟨t, e, rest, -, ht, hnext, hother, -⟩
  · rwa [hnext] at hx
  rcases Side.eq_or_eq_other t s with rfl | rfl
  · rw [hnext] at hx
    rw [ht]
    exact mem_cons_of_mem _ hx
  · rwa [hother] at hx

lemma Disjoint.next (h : c.Disjoint) : c.next.Disjoint :=
  fun x hx y hy => h x (mem_of_mem_next (s := .first) hx) y (mem_of_mem_next (s := .second) hy)

/-- The current entry is the only one with its key. -/
lemma Sorted.current?_lt (h : c.Sorted) (hdisj : c.Disjoint) (hcur : c.current? = some (s, e)) :
    ∀ t, ∀ x ∈ c.next.run t, e.1 < x.1 := by
  intro t x hx
  refine lt_of_le_of_ne (h.current?_le hcur t x (mem_of_mem_next hx)) ?_
  obtain ⟨rest, hs, hnext, hother, -⟩ := run_of_current? hcur
  have he : e ∈ c.run s := by
    rw [hs]
    exact mem_cons_self ..
  rcases Side.eq_or_eq_other s t with rfl | rfl
  · rw [hnext] at hx
    exact ((hs ▸ h t).lt_of_mem hx).ne
  · rw [hother] at hx
    exact hdisj.ne he hx

/-- A walk along sorted runs without common keys meets each key once, in increasing order. -/
lemma Sorted.pairwise_walk (h : c.Sorted) (hdisj : c.Disjoint) :
    c.walk.Pairwise fun a b => a.2.1 < b.2.1 := by
  induction c using walk_induction with
  | hend c hrun =>
    have hnil : c.walk = [] := by
      refine eq_nil_iff_forall_not_mem.2 fun ⟨s, e⟩ he => ?_
      rw [mem_walk, hrun s] at he
      cases he
    rw [hnil]
    exact .nil
  | hnext c s e rest hcur _ _ _ _ ih =>
    rw [walk_eq c, hcur]
    refine pairwise_cons.2 ⟨?_, ih h.next hdisj.next⟩
    rintro ⟨t, x⟩ hx
    exact h.current?_lt hdisj hcur t x (mem_walk.1 hx)

/-- The entries that a walk still meets after its first step. -/
lemma Sorted.mem_next_iff (h : c.Sorted) (hdisj : c.Disjoint) {t : Side}
    (hcur : c.current? = some (s, e)) : x ∈ c.next.run t ↔ x ∈ c.run t ∧ e.1 < x.1 := by
  constructor
  · intro hx
    exact ⟨mem_of_mem_next hx, h.current?_lt hdisj hcur t x hx⟩
  · rintro ⟨hx, hlt⟩
    obtain ⟨rest, hs, hnext, hother, -⟩ := run_of_current? hcur
    rcases Side.eq_or_eq_other s t with rfl | rfl
    · rw [hs] at hx
      rcases mem_cons.1 hx with rfl | hx
      · exact absurd hlt (lt_irrefl _)
      · rwa [hnext]
    · rwa [hother]

end MergeCursor

end TernFS.Lib
