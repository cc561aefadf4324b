/-
# Reading a sequence in pages

A sequence is read through a function that answers a cursor with a page: some items, and the cursor
of the next page unless this is the last one.  If each page is the beginning of what is left at its
cursor, and is not empty unless it is the last, following the cursors ends, and the items of the
pages in order are the sequence.
-/
import Mathlib.Data.List.Chain

namespace TernFS.Lib

open List

/-- A page: its items, and where to go on. -/
structure Page (C E : Type*) where
  items : List E
  next : Option C

variable {C E : Type*}

/-- The pages from a cursor on, if there are at most as many as the number given and none of them
is missing. -/
def followPages (page : C → Option (Page C E)) : ℕ → C → Option (List (Page C E))
  | 0, _ => none
  | n + 1, c =>
    match page c with
    | none => none
    | some p =>
      match p.next with
      | none => some [p]
      | some c' => (followPages page n c').map (p :: ·)

/-- What the pages from a cursor on have to be: together the items that are left there, up to a rest
that only a page of a given kind leaves, with cursors that advance. -/
structure PagesCover (rest : List E) (Ends : Page C E → Prop) (Advances : C → C → Prop) (c : C)
    (pages : List (Page C E)) : Prop where
  items : ∃ left, rest = pages.flatMap Page.items ++ left ∧
    (left = [] ∨ ∃ p ∈ pages.getLast?, Ends p)
  advances : (c :: pages.filterMap Page.next).IsChain Advances
  last : ∀ p ∈ pages.getLast?, p.next = none

/-- Following the cursors covers what is left, if each page does its part. -/
theorem followPages_cover {page : C → Option (Page C E)} {rest : C → List E} {Good : C → Prop}
    {Ends : Page C E → Prop} {Advances : C → C → Prop}
    (hpage : ∀ c, Good c → ∃ p left, page c = some p ∧ rest c = p.items ++ left ∧
      (p.next = none → left = [] ∨ Ends p) ∧
      ∀ c', p.next = some c' → Good c' ∧ rest c' = left ∧ p.items ≠ [] ∧ Advances c c') :
    ∀ n c, Good c → (rest c).length < n → ∃ pages, followPages page n c = some pages ∧
      PagesCover (rest c) Ends Advances c pages := by
  intro n
  induction n with
  | zero =>
    intro c _ hlt
    omega
  | succ n ih =>
    intro c hgood hlt
    obtain ⟨p, left, hp, hrest, hend, hnext⟩ := hpage c hgood
    rw [followPages, hp]
    cases hc : p.next with
    | none =>
      refine ⟨[p], by simp [hc], ⟨left, by simpa using hrest, ?_⟩, by simp [hc], by simpa using hc⟩
      exact (hend hc).imp id fun h => ⟨p, rfl, h⟩
    | some c' =>
      obtain ⟨hgood', hleft, hne, hadv⟩ := hnext c' hc
      have hlen : (rest c').length < n := by
        have hpos := length_pos_of_ne_nil hne
        rw [hrest, length_append] at hlt
        rw [hleft]
        omega
      obtain ⟨pages, hpages, hcover⟩ := ih c' hgood' hlen
      have hne' : pages ≠ [] := by
        rintro rfl
        cases n with
        | zero => cases hpages
        | succ =>
          rw [followPages] at hpages
          split at hpages
          · cases hpages
          · split at hpages
            · cases hpages
            · simp at hpages
      obtain ⟨left', hitems, hleft'⟩ := hcover.items
      have hlast : (p :: pages).getLast? = pages.getLast? := by
        rw [getLast?_cons, getLast?_eq_some_getLast hne']
        rfl
      refine ⟨p :: pages, by simp [hc, hpages], ⟨left', ?_, by rwa [hlast]⟩, ?_, by
        rw [hlast]; exact hcover.last⟩
      · rw [hrest, ← hleft, hitems, flatMap_cons, append_assoc]
      · rw [filterMap_cons_some hc]
        exact isChain_cons_cons.mpr ⟨hadv, hcover.advances⟩

/-- Following the cursors ends, and the items of the pages are those of a list. -/
def ReadsAll (page : C → Option (Page C E)) (c : C) (l : List E) : Prop :=
  ∃ n pages, followPages page n c = some pages ∧ pages.flatMap Page.items = l

section

variable {page : C → Option (Page C E)} {c : C} {l : List E}

/-- A last page that is too short. -/
lemma not_readsAll_of_last {n : ℕ}
    (h : (page c).map (fun p => (p.next, p.items.length)) = some (none, n)) (hlength : n < l.length) :
    ¬ ReadsAll page c l := by
  obtain ⟨p, hp, heq⟩ := Option.map_eq_some_iff.mp h
  obtain ⟨hnext, hitems⟩ := Prod.mk.inj heq
  rintro ⟨m, pages, hpages, hall⟩
  cases m with
  | zero => cases hpages
  | succ =>
    simp only [followPages, hp, hnext, Option.some.injEq] at hpages
    rw [← hall, ← hpages, ← hitems] at hlength
    simp at hlength

/-- A cursor whose page leads back to it has no end. -/
lemma followPages_eq_none (h : (page c).map Page.next = some (some c)) (n : ℕ) :
    followPages page n c = none := by
  obtain ⟨p, hp, hnext⟩ := Option.map_eq_some_iff.mp h
  induction n with
  | zero => rfl
  | succ n ih => simp [followPages, hp, hnext, ih]

/-- What is on none of the pages that can be reached is not read. -/
lemma not_mem_of_followPages (Good : C → Prop) {x : E}
    (hpage : ∀ c p, Good c → page c = some p →
      x ∉ p.items ∧ ∀ c', p.next = some c' → Good c') (n : ℕ) {pages : List (Page C E)}
    (hgood : Good c) (hpages : followPages page n c = some pages) :
    x ∉ pages.flatMap Page.items := by
  induction n generalizing c pages with
  | zero => cases hpages
  | succ n ih =>
    rw [followPages] at hpages
    cases hp : page c with
    | none => simp [hp] at hpages
    | some p =>
      obtain ⟨hx, hnext⟩ := hpage c p hgood hp
      cases hc : p.next with
      | none =>
        simp only [hp, hc, Option.some.injEq] at hpages
        simpa [← hpages] using hx
      | some c' =>
        simp only [hp, hc, Option.map_eq_some_iff] at hpages
        obtain ⟨pages', hpages', rfl⟩ := hpages
        rw [flatMap_cons, mem_append, not_or]
        exact ⟨hx, ih (hnext c' hc) hpages'⟩

lemma not_readsAll_of_stuck (c' : C) (h : (page c).map Page.next = some (some c'))
    (h' : (page c').map Page.next = some (some c')) : ¬ ReadsAll page c l := by
  obtain ⟨p, hp, hnext⟩ := Option.map_eq_some_iff.mp h
  rintro ⟨m, pages, hpages, -⟩
  cases m with
  | zero => cases hpages
  | succ => simp [followPages, hp, hnext, followPages_eq_none h'] at hpages

end

/-- What a stricter filter leaves, if a list splits into elements that do not pass it and elements
that do. -/
lemma filter_eq_of_split {p q : E → Bool} {l before after : List E}
    (hsplit : l.filter p = before ++ after) (hpq : ∀ e ∈ l, q e → p e)
    (hbefore : ∀ e ∈ before, ¬ q e) (hafter : ∀ e ∈ after, q e) : l.filter q = after := by
  have hfilter : l.filter q = (l.filter p).filter q := by
    rw [filter_filter]
    refine filter_congr fun e he => ?_
    cases hq : q e with
    | false => rfl
    | true => simp [hpq e he hq]
  rw [hfilter, hsplit, filter_append, filter_eq_nil_iff.mpr hbefore,
    filter_eq_self.mpr hafter, nil_append]

end TernFS.Lib
