/-
# Ordered key-value stores

A finite key-value store over a linearly ordered key type, presented as the list of its
entries in increasing key order.  This is the view an ordered storage engine gives of one
column family: point reads and writes, and iterators that are placed by `Seek` and
`SeekForPrev` and then walk the keys in order.

The sortedness of the entry list is a field of the structure, so that a store has at most
one value for each key and two stores with the same point reads are equal.
-/
import Mathlib.Order.Lattice
import Mathlib.Data.List.Lattice
import Mathlib.Algebra.BigOperators.Group.List.Basic

namespace TernFS.Lib

open List

/-! ## Sorted entry lists -/

section Entries

variable {K V : Type*} [LinearOrder K] {k : K} {v : V} {e : K × V} {l : List (K × V)}

/-- The entries are in strictly increasing key order. -/
def SortedEntries (l : List (K × V)) : Prop :=
  l.Pairwise fun a b => a.1 < b.1

instance (l : List (K × V)) : Decidable (SortedEntries l) :=
  inferInstanceAs (Decidable (l.Pairwise fun a b => a.1 < b.1))

/-- The value stored at a key. -/
def lookupEntry (k : K) : List (K × V) → Option V
  | [] => none
  | e :: l => if e.1 = k then some e.2 else lookupEntry k l

/-- Store a value at a key, in key order, replacing the value already there. -/
def insertEntry (k : K) (v : V) : List (K × V) → List (K × V)
  | [] => [(k, v)]
  | e :: l =>
    if k < e.1 then (k, v) :: e :: l
    else if e.1 = k then (k, v) :: l
    else e :: insertEntry k v l

/-- Drop the entry stored at a key. -/
def eraseEntry (k : K) (l : List (K × V)) : List (K × V) :=
  l.filter fun e => e.1 ≠ k

lemma SortedEntries.tail (h : SortedEntries (e :: l)) : SortedEntries l :=
  (pairwise_cons.1 h).2

lemma SortedEntries.lt_of_mem {x : K × V} (h : SortedEntries (e :: l)) (hx : x ∈ l) : e.1 < x.1 :=
  (pairwise_cons.1 h).1 x hx

lemma mem_insertEntry {x : K × V} (hx : x ∈ insertEntry k v l) : x = (k, v) ∨ x ∈ l := by
  induction l with
  | nil => simpa [insertEntry] using hx
  | cons e l ih =>
    simp only [insertEntry] at hx
    split_ifs at hx with h1 h2
    · simpa using hx
    · rcases mem_cons.1 hx with rfl | hx
      · exact .inl rfl
      · exact .inr (mem_cons_of_mem _ hx)
    · rcases mem_cons.1 hx with rfl | hx
      · exact .inr (mem_cons_self ..)
      · exact (ih hx).imp_right (mem_cons_of_mem _)

lemma SortedEntries.insert (h : SortedEntries l) (k : K) (v : V) :
    SortedEntries (insertEntry k v l) := by
  induction l with
  | nil => exact pairwise_singleton _ _
  | cons e l ih =>
    simp only [insertEntry]
    split_ifs with h1 h2
    · refine pairwise_cons.2 ⟨fun x hx => ?_, h⟩
      rcases mem_cons.1 hx with rfl | hx
      · exact h1
      · exact h1.trans (h.lt_of_mem hx)
    · subst h2
      exact pairwise_cons.2 ⟨fun x hx => h.lt_of_mem hx, h.tail⟩
    · refine pairwise_cons.2 ⟨fun x hx => ?_, ih h.tail⟩
      rcases mem_insertEntry hx with rfl | hx
      · exact lt_of_le_of_ne (not_lt.1 h1) h2
      · exact h.lt_of_mem hx

lemma SortedEntries.filter (h : SortedEntries l) (p : K × V → Bool) : SortedEntries (l.filter p) :=
  List.Pairwise.filter p h

lemma SortedEntries.lookup_eq_some_iff (h : SortedEntries l) :
    lookupEntry k l = some v ↔ (k, v) ∈ l := by
  induction l with
  | nil => simp [lookupEntry]
  | cons e l ih =>
    obtain ⟨k', v'⟩ := e
    by_cases hk : k' = k
    · subst hk
      simp only [lookupEntry, if_true, Option.some.injEq, mem_cons, Prod.mk.injEq, true_and]
      refine ⟨fun hv => .inl hv.symm, ?_⟩
      rintro (rfl | hmem)
      · rfl
      · exact absurd (h.lt_of_mem hmem) (lt_irrefl _)
    · simp only [lookupEntry, if_neg hk, ih h.tail, mem_cons, Prod.mk.injEq]
      exact ⟨.inr, fun h' => h'.resolve_left fun h'' => hk h''.1.symm⟩

lemma lookupEntry_insertEntry (k k' : K) (v : V) (l : List (K × V)) :
    lookupEntry k' (insertEntry k v l) = if k = k' then some v else lookupEntry k' l := by
  induction l with
  | nil => simp [insertEntry, lookupEntry]
  | cons =>
    simp only [insertEntry]
    split_ifs with h1 h2 h3 h3 h3
    all_goals simp_all [lookupEntry]

lemma lookupEntry_eraseEntry (k k' : K) (l : List (K × V)) :
    lookupEntry k' (eraseEntry k l) = if k = k' then none else lookupEntry k' l := by
  induction l with
  | nil => simp [eraseEntry, lookupEntry]
  | cons e l ih =>
    simp only [eraseEntry, ne_eq, decide_not] at ih ⊢
    by_cases he : e.1 = k
    · by_cases hk : e.1 = k' <;> simp_all [lookupEntry]
    · by_cases hk : e.1 = k' <;> simp_all [lookupEntry]
      exact fun h => absurd h.symm he

/-- A sorted entry list holds at most one entry for each key: it is, up to order, the entry
at `k` and the rest. -/
lemma SortedEntries.perm_eraseEntry (h : SortedEntries l) (hk : lookupEntry k l = some v) :
    l.Perm ((k, v) :: eraseEntry k l) := by
  induction l with
  | nil => simp [lookupEntry] at hk
  | cons e l ih =>
    obtain ⟨k', v'⟩ := e
    by_cases he : k' = k
    · subst he
      have hv : v' = v := by simpa [lookupEntry] using hk
      have hrest : eraseEntry k' ((k', v') :: l) = l := by
        simp only [eraseEntry, ne_eq, decide_not, filter_cons, decide_true, Bool.not_true,
          Bool.false_eq_true, if_false]
        refine filter_eq_self.2 fun x hx => ?_
        simpa using (h.lt_of_mem hx).ne'
      rw [hrest, hv]
    · have hk' : lookupEntry k l = some v := by simpa [lookupEntry, he] using hk
      have herase : eraseEntry k ((k', v') :: l) = (k', v') :: eraseEntry k l := by
        simp [eraseEntry, he]
      rw [herase]
      exact ((ih h.tail hk').cons _).trans (List.Perm.swap ..)

lemma insertEntry_of_forall_lt (h : ∀ e ∈ l, e.1 < k) : insertEntry k v l = l ++ [(k, v)] := by
  induction l with
  | nil => rfl
  | cons e l ih =>
    have he : e.1 < k := h e (mem_cons_self ..)
    simp only [insertEntry, if_neg he.asymm, if_neg he.ne, cons_append]
    rw [ih fun x hx => h x (mem_cons_of_mem _ hx)]

/-- Two sorted entry lists that store the same values are equal. -/
lemma SortedEntries.ext {l₁ l₂ : List (K × V)} (h₁ : SortedEntries l₁) (h₂ : SortedEntries l₂)
    (h : ∀ k, lookupEntry k l₁ = lookupEntry k l₂) : l₁ = l₂ := by
  have hmem : ∀ e, e ∈ l₁ ↔ e ∈ l₂ := fun e => by
    rw [← h₁.lookup_eq_some_iff, ← h₂.lookup_eq_some_iff, h]
  have hnd : ∀ {l : List (K × V)}, SortedEntries l → l.Nodup := fun hl =>
    List.Pairwise.imp (fun {a b} hab (hEq : a = b) => absurd hab (hEq ▸ lt_irrefl _)) hl
  have hperm : l₁.Perm l₂ := (perm_ext_iff_of_nodup (hnd h₁) (hnd h₂)).2 hmem
  exact hperm.eq_of_pairwise (fun a b _ _ hab hba => absurd hab hba.asymm) h₁ h₂

end Entries

/-! ## Stores -/

/-- An ordered key-value store: entries in strictly increasing key order. -/
structure SortedStore (K V : Type*) [LinearOrder K] where
  /-- The entries, in key order. -/
  entries : List (K × V)
  /-- The keys strictly increase along the entries. -/
  sorted : SortedEntries entries

namespace SortedStore

variable {K V : Type*} [LinearOrder K] {k : K} {v : V}

instance [DecidableEq V] : DecidableEq (SortedStore K V) := fun m₁ m₂ =>
  decidable_of_iff (m₁.entries = m₂.entries) <| by cases m₁; cases m₂; simp

/-- The store with no entries. -/
def empty : SortedStore K V := ⟨[], List.Pairwise.nil⟩

/-- Point read. -/
def get (m : SortedStore K V) (k : K) : Option V := lookupEntry k m.entries

/-- Write a value at a key. -/
def put (m : SortedStore K V) (k : K) (v : V) : SortedStore K V :=
  ⟨insertEntry k v m.entries, m.sorted.insert k v⟩

/-- Remove a key; removing a key that is not there does nothing. -/
def delete (m : SortedStore K V) (k : K) : SortedStore K V :=
  ⟨eraseEntry k m.entries, m.sorted.filter _⟩

/-- The entries an iterator placed by `Seek k` meets: those at `k` and above, in key order. -/
def seek (m : SortedStore K V) (k : K) : List (K × V) := m.entries.filter fun e => k ≤ e.1

/-- The entries at `k` and below, in key order. -/
def upTo (m : SortedStore K V) (k : K) : List (K × V) := m.entries.filter fun e => e.1 ≤ k

/-- The entry an iterator placed by `SeekForPrev k` is at: the last one at `k` or below. -/
def seekForPrev (m : SortedStore K V) (k : K) : Option (K × V) := (m.upTo k).getLast?

@[simp] lemma get_empty (k : K) : (empty : SortedStore K V).get k = none := rfl

lemma get_put (m : SortedStore K V) (k k' : K) (v : V) :
    (m.put k v).get k' = if k = k' then some v else m.get k' :=
  lookupEntry_insertEntry k k' v m.entries

lemma get_delete (m : SortedStore K V) (k k' : K) :
    (m.delete k).get k' = if k = k' then none else m.get k' :=
  lookupEntry_eraseEntry k k' m.entries

@[simp] lemma get_put_self (m : SortedStore K V) (k : K) (v : V) :
    (m.put k v).get k = some v := by
  simp [get_put]

@[simp] lemma get_delete_self (m : SortedStore K V) (k : K) : (m.delete k).get k = none := by
  simp [get_delete]

variable {m : SortedStore K V}

lemma get_put_of_ne {k' : K} (h : k ≠ k') :
    (m.put k v).get k' = m.get k' := by
  simp [get_put, h]

lemma get_delete_of_ne {k' : K} (h : k ≠ k') :
    (m.delete k).get k' = m.get k' := by
  simp [get_delete, h]

/-- What the stored values show, after a write: a view of a store is updated at the key. -/
lemma map_get_put [DecidableEq K] {W : Type*} (g : V → W) (m : SortedStore K V) (k : K) (v : V) :
    (fun k' => ((m.put k v).get k').map g) =
      Function.update (fun k' => (m.get k').map g) k (some (g v)) := by
  funext k'
  by_cases h : k = k'
  · subst h
    simp
  · simp [get_put_of_ne h, Function.update_of_ne (Ne.symm h)]

lemma map_get_delete [DecidableEq K] {W : Type*} (g : V → W) (m : SortedStore K V) (k : K) :
    (fun k' => ((m.delete k).get k').map g) =
      Function.update (fun k' => (m.get k').map g) k none := by
  funext k'
  by_cases h : k = k'
  · subst h
    simp
  · simp [get_delete_of_ne h, Function.update_of_ne (Ne.symm h)]

lemma mem_entries_iff : e ∈ m.entries ↔ m.get e.1 = some e.2 :=
  m.sorted.lookup_eq_some_iff.symm

@[ext] lemma ext {m₁ m₂ : SortedStore K V} (h : ∀ k, m₁.get k = m₂.get k) : m₁ = m₂ := by
  have hentries : m₁.entries = m₂.entries := m₁.sorted.ext m₂.sorted h
  cases m₁
  cases m₂
  simpa using hentries

lemma delete_of_get_eq_none (h : m.get k = none) : m.delete k = m := by
  ext k'
  by_cases hk : k = k'
  · subst hk
    simp [h]
  · simp [get_delete, hk]

lemma put_of_get_eq_some (h : m.get k = some v) : m.put k v = m := by
  ext k'
  by_cases hk : k = k'
  · subst hk
    simp [h]
  · simp [get_put, hk]

/-! ### Iterators -/

lemma mem_seek : e ∈ m.seek k ↔ k ≤ e.1 ∧ m.get e.1 = some e.2 := by
  simp [seek, mem_entries_iff, and_comm]

lemma mem_upTo : e ∈ m.upTo k ↔ e.1 ≤ k ∧ m.get e.1 = some e.2 := by
  simp [upTo, mem_entries_iff, and_comm]

lemma seekForPrev_eq_none_iff :
    m.seekForPrev k = none ↔ ∀ k', k' ≤ k → m.get k' = none := by
  simp only [seekForPrev, getLast?_eq_none_iff]
  constructor
  · intro h k' hk'
    by_contra hne
    obtain ⟨v, hv⟩ := Option.ne_none_iff_exists'.1 hne
    have hmem : (k', v) ∈ m.upTo k := mem_upTo.2 ⟨hk', hv⟩
    simp [h] at hmem
  · intro h
    refine eq_nil_iff_forall_not_mem.2 fun e he => ?_
    obtain ⟨hle, hget⟩ := mem_upTo.1 he
    simp [h _ hle] at hget

/-- The entry found by `SeekForPrev` is a stored entry with the largest key up to `k`. -/
lemma seekForPrev_spec (h : m.seekForPrev k = some e) :
    m.get e.1 = some e.2 ∧ e.1 ≤ k ∧ ∀ k', k' ≤ k → m.get k' ≠ none → k' ≤ e.1 := by
  have hne : m.upTo k ≠ [] := fun hnil => by simp [seekForPrev, hnil] at h
  have hlast : (m.upTo k).getLast hne = e := by
    simpa [seekForPrev, getLast?_eq_getLast_of_ne_nil hne] using h
  have hmem : e ∈ m.upTo k := hlast ▸ getLast_mem hne
  obtain ⟨hle, hget⟩ := mem_upTo.1 hmem
  refine ⟨hget, hle, fun k' hk' hsome => ?_⟩
  obtain ⟨v', hv'⟩ := Option.ne_none_iff_exists'.1 hsome
  have hmem' : (k', v') ∈ m.upTo k := mem_upTo.2 ⟨hk', hv'⟩
  have hsorted : SortedEntries (m.upTo k) := m.sorted.filter _
  rw [← dropLast_append_getLast hne, hlast] at hmem' hsorted
  rcases mem_append.1 hmem' with hin | hin
  · exact ((pairwise_append.1 hsorted).2.2 _ hin e (by simp)).le
  · exact (congrArg Prod.fst (mem_singleton.1 hin)).le

lemma seek_head?_eq_none_iff :
    (m.seek k).head? = none ↔ ∀ k', k ≤ k' → m.get k' = none := by
  rw [head?_eq_none_iff, eq_nil_iff_forall_not_mem]
  constructor
  · intro h k' hk'
    by_contra hne
    obtain ⟨v, hv⟩ := Option.ne_none_iff_exists'.1 hne
    exact h (k', v) (mem_seek.2 ⟨hk', hv⟩)
  · intro h e he
    obtain ⟨hle, hget⟩ := mem_seek.1 he
    rw [h _ hle] at hget
    cases hget

/-- The entry found by `Seek` is a stored entry with the least key from `k` on. -/
lemma seek_head?_spec (h : (m.seek k).head? = some e) :
    m.get e.1 = some e.2 ∧ k ≤ e.1 ∧ ∀ k', k ≤ k' → m.get k' ≠ none → e.1 ≤ k' := by
  obtain ⟨l, hl⟩ : ∃ l, m.seek k = e :: l := head?_eq_some_iff.1 h
  have hmem : e ∈ m.seek k := hl ▸ mem_cons_self
  obtain ⟨hle, hget⟩ := mem_seek.1 hmem
  refine ⟨hget, hle, fun k' hk' hsome => ?_⟩
  obtain ⟨v', hv'⟩ := Option.ne_none_iff_exists'.1 hsome
  have hmem' : (k', v') ∈ m.seek k := mem_seek.2 ⟨hk', hv'⟩
  have hsorted : SortedEntries (m.seek k) := m.sorted.filter _
  rw [hl] at hmem' hsorted
  rcases mem_cons.1 hmem' with heq | hin
  · exact (congrArg Prod.fst heq).ge
  · exact (hsorted.lt_of_mem hin).le

/-! ### Totals over all entries -/

section Sum

variable {M : Type*} [AddCommMonoid M]

/-- The total of a weight over all entries. -/
def sum (m : SortedStore K V) (f : K → V → M) : M := (m.entries.map fun e => f e.1 e.2).sum

/-- A stored entry contributes its weight to the total, on top of the other entries. -/
lemma sum_of_get_eq_some (h : m.get k = some v) (f : K → V → M) :
    m.sum f = f k v + (m.delete k).sum f := by
  have hperm := (m.sorted.perm_eraseEntry h).map fun e => f e.1 e.2
  simpa [sum, delete] using hperm.sum_eq

lemma put_put (m : SortedStore K V) (k : K) (v w : V) : (m.put k v).put k w = m.put k w := by
  ext1 k'
  simp only [get_put]
  split_ifs <;> rfl

lemma delete_put (m : SortedStore K V) (k : K) (v : V) : (m.put k v).delete k = m.delete k := by
  ext k'
  by_cases hk : k = k' <;> simp [get_delete, get_put, hk]

lemma sum_put (m : SortedStore K V) (k : K) (v : V) (f : K → V → M) :
    (m.put k v).sum f = f k v + (m.delete k).sum f := by
  rw [sum_of_get_eq_some (get_put_self m k v), delete_put]

lemma sum_put_of_get_eq_none (h : m.get k = none) (v : V) (f : K → V → M) :
    (m.put k v).sum f = f k v + m.sum f := by
  rw [sum_put, delete_of_get_eq_none h]

end Sum

/-! ### Entries of a set of keys -/

end SortedStore

end TernFS.Lib
