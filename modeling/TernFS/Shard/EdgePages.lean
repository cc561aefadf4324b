/-
# Pages of edges

What `_fullReadDirAdd` leaves of a run of edges, in closed form.  A page has a base: the bytes
there are for edges and the name in the cursor.  Adding edges keeps the base, so that the budget
left is the base without the edges added; when an edge does not fit, edges are taken off the end
until the rest and the name of the first one taken off fit into the base.
-/
import TernFS.Shard.Listings
import Mathlib.Data.List.DropRight
import Mathlib.Algebra.Order.BigOperators.Group.List
import Mathlib.Tactic.Linarith

namespace TernFS

open Lib List

variable {base budget : ℤ} {limit : ℕ} {e : Edge}

/-- The bytes of some edges. -/
def edgesSize (edges : List Edge) : ℕ := (edges.map Edge.packedSize).sum

@[simp] lemma edgesSize_nil : edgesSize [] = 0 := rfl

@[simp] lemma edgesSize_cons (e : Edge) (l : List Edge) :
    edgesSize (e :: l) = e.packedSize + edgesSize l := rfl

@[simp] lemma edgesSize_append (l l' : List Edge) :
    edgesSize (l ++ l') = edgesSize l + edgesSize l' := by
  simp [edgesSize]

lemma Edge.packedSize_eq (e : Edge) : e.packedSize = 26 + e.name.length := by
  unfold Edge.packedSize
  omega

lemma FullReadDirCursor.packedSize_eq (c : FullReadDirCursor) :
    c.packedSize = 10 + c.startName.length := by
  unfold FullReadDirCursor.packedSize
  omega

lemma FullReadDirResp.packedSize_eq (resp : FullReadDirResp) :
    resp.packedSize = 12 + (resp.next.startName.length + edgesSize resp.results) := by
  unfold FullReadDirResp.packedSize edgesSize
  rw [resp.next.packedSize_eq]
  omega

/-! ## Current edges -/

/-- The bytes of some current edges. -/
def currentEdgesSize (l : List CurrentEdge) : ℕ := (l.map CurrentEdge.packedSize).sum

@[simp] lemma currentEdgesSize_cons (e : CurrentEdge) (l : List CurrentEdge) :
    currentEdgesSize (e :: l) = e.packedSize + currentEdgesSize l := rfl

lemma currentEdgesSize_le_of_sublist {l l' : List CurrentEdge} (h : l.Sublist l') :
    currentEdgesSize l ≤ currentEdgesSize l' :=
  (h.map CurrentEdge.packedSize).sum_le_sum fun _ _ => Nat.zero_le _

/-- The loop of `_readDir` adds all edges, or stops at the first one that does not fit and takes off
those before it that have its hash. -/
lemma readDirLoop_cases (l results : List CurrentEdge) (h : 0 ≤ budget) :
    (currentEdgesSize l ≤ budget ∧ readDirLoop l budget results = ⟨0, results ++ l⟩) ∨
    ∃ last e rest, l = last ++ e :: rest ∧ currentEdgesSize last ≤ budget ∧
      budget < currentEdgesSize (last ++ [e]) ∧ readDirLoop l budget results =
        ⟨e.nameHash, (results ++ last).rdropWhile fun x => x.nameHash = e.nameHash⟩ := by
  induction l generalizing budget results with
  | nil => exact .inl ⟨h, by rw [readDirLoop, append_nil]⟩
  | cons e rest ih =>
    rw [readDirLoop]
    split_ifs with hneg
    · refine .inr ⟨[], e, rest, rfl, h, ?_, by rw [append_nil, rdropWhile]⟩
      show budget < ((e.packedSize + 0 : ℕ) : ℤ)
      omega
    rcases ih (results ++ [e]) (not_lt.mp hneg) with
      ⟨hfit, hall⟩ | ⟨last, x, rest', rfl, hfit, hfull, hstop⟩
    · refine .inl ⟨?_, by rw [hall, append_assoc, singleton_append]⟩
      rw [currentEdgesSize_cons]
      omega
    refine .inr ⟨e :: last, x, rest', rfl, ?_, ?_, by
      rw [hstop, append_assoc, singleton_append]⟩
    · rw [currentEdgesSize_cons]
      omega
    · rw [cons_append, currentEdgesSize_cons]
      omega

/-! ## Taking edges off the end -/

/-- The name of an edge takes no more than the edges of a list it is in. -/
lemma name_length_le_edgesSize {l : List Edge} (h : e ∈ l) :
    26 + e.name.length ≤ edgesSize l := by
  obtain ⟨l₁, l₂, rfl⟩ := append_of_mem h
  rw [edgesSize_append, edgesSize_cons, e.packedSize_eq]
  omega

/-- Nothing is left when the name of the first edge does not fit into the base.  Otherwise the edges
up to some edge are left, with the cursor there, and none of the edges taken off could have been
left. -/
lemma removeLast_spec {l : List Edge} {prevCursorSize : ℕ} {first : Edge}
    (hbase : base = budget + edgesSize l + prevCursorSize - FullReadDirCursor.staticSize)
    (hfirst : l.head? = some first) :
    (base < first.name.length ∧ removeLast l.reverse budget prevCursorSize = .error .emptyVector) ∨
    (first.name.length : ℤ) ≤ base ∧ ∃ keep x dropped, l = keep ++ x :: dropped ∧
      removeLast l.reverse budget prevCursorSize =
        .ok ⟨.atEdge x, keep, base - edgesSize keep - x.name.length⟩ ∧
      0 ≤ base - edgesSize keep - x.name.length ∧
      ∀ y ∈ dropped.head?, base < edgesSize keep + x.packedSize + y.name.length := by
  induction l using reverseRecOn generalizing budget prevCursorSize with
  | nil => cases hfirst
  | append_singleton l last ih =>
    have hcursor : (FullReadDirCursor.atEdge last).packedSize = 10 + last.name.length :=
      FullReadDirCursor.packedSize_eq _
    have hstatic : FullReadDirCursor.staticSize = 10 := rfl
    rw [edgesSize_append, edgesSize_cons, edgesSize_nil] at hbase
    have hbudget : budget + last.packedSize + prevCursorSize -
        (FullReadDirCursor.atEdge last).packedSize =
        base - edgesSize l - last.name.length := by omega
    rw [reverse_append, reverse_singleton, singleton_append, removeLast, hbudget]
    by_cases hneg : base - edgesSize l - last.name.length < 0
    · rw [if_pos hneg]
      cases l with
      | nil =>
        obtain rfl : last = first := by simpa using hfirst
        rw [edgesSize_nil] at hneg
        exact .inl ⟨by omega, rfl⟩
      | cons e l =>
        have hbase' : base = base - edgesSize (e :: l) - last.name.length + edgesSize (e :: l) +
            (FullReadDirCursor.atEdge last).packedSize - FullReadDirCursor.staticSize := by omega
        rcases ih hbase' hfirst with hnone | ⟨hle, keep, x, dropped, hsplit, hremove, hpos, hmax⟩
        · exact .inl hnone
        refine .inr ⟨hle, keep, x, dropped ++ [last], by simp [hsplit], hremove, hpos, ?_⟩
        intro y hy
        cases dropped with
        | nil =>
          obtain rfl : last = y := by simpa using hy
          rw [hsplit, edgesSize_append, edgesSize_cons, edgesSize_nil] at hneg
          omega
        | cons => exact hmax y (by simpa using hy)
    · rw [if_neg hneg]
      refine .inr ⟨?_, l, last, [], rfl, by rw [reverse_reverse], not_lt.mp hneg, by simp⟩
      rcases mem_append.mp (mem_of_head? hfirst) with hmem | hmem
      · have hname := name_length_le_edgesSize hmem
        omega
      · rw [mem_singleton.mp hmem]
        omega

/-! ## Adding edges -/

/-- How a run of edges is added to a page: all of them, or up to the limit, or up to the first one
that does not fit. -/
inductive AddsEdges (limit : ℕ) (base : ℤ) (page : EdgePage) (edges : List Edge) :
    Read (Bool × EdgePage) → Prop
  | all (hfit : edgesSize (page.results ++ edges) ≤ base)
      (hlimit : 0 < limit → (page.results ++ edges).length < limit) :
    AddsEdges limit base page edges
      (.ok (false, ⟨page.next, page.results ++ edges, base - edgesSize (page.results ++ edges)⟩))
  | limit (last : List Edge) (e : Edge) (rest : List Edge) (budget : ℤ)
      (hedges : edges = last ++ e :: rest) (hpos : 0 < limit)
      (hlength : (page.results ++ last).length + 1 = limit)
      (hfit : edgesSize (page.results ++ last) ≤ base) :
    AddsEdges limit base page edges (.ok (true, ⟨.empty, page.results ++ last ++ [e], budget⟩))
  | full (last : List Edge) (e : Edge) (rest : List Edge) (hedges : edges = last ++ e :: rest)
      (hlimit : 0 < limit → (page.results ++ last).length + 1 < limit)
      (hfit : edgesSize (page.results ++ last) ≤ base)
      (hfull : base < edgesSize (page.results ++ last ++ [e])) :
    AddsEdges limit base page edges (removeLast (page.results ++ last ++ [e]).reverse
        (base - edgesSize (page.results ++ last ++ [e])) FullReadDirCursor.staticSize >>= fun page =>
          .ok (true, page))

variable {page : EdgePage}

/-- The first edge of a run can be counted as one that is there already. -/
lemma AddsEdges.cons {rest : List Edge} {result : Read (Bool × EdgePage)}
    (h : AddsEdges limit base ⟨page.next, page.results ++ [e], budget⟩ rest result) :
    AddsEdges limit base page (e :: rest) result := by
  have happend : ∀ l : List Edge, page.results ++ [e] ++ l = page.results ++ e :: l := by simp
  cases h with
  | all hfit hlen =>
    simp only [happend] at hfit hlen ⊢
    exact .all hfit hlen
  | limit last x tail budget' hedges hpos hlen hfit =>
    simp only [happend] at hlen hfit ⊢
    exact .limit (e :: last) x tail budget' (by rw [hedges]; rfl) hpos hlen hfit
  | full last x tail hedges hlen hfit hfull =>
    simp only [happend] at hlen hfit hfull ⊢
    exact .full (e :: last) x tail (by rw [hedges]; rfl) hlen hfit hfull

lemma fullReadDirAdd_of_limit (h : 0 < limit ∧ limit ≤ (page.results ++ [e]).length) :
    fullReadDirAdd limit page e = .ok (true, ⟨.empty, page.results ++ [e], page.budget⟩) :=
  if_pos h

lemma fullReadDirAdd_of_fits (h : ¬ (0 < limit ∧ limit ≤ (page.results ++ [e]).length))
    (hfits : ¬ page.budget - e.packedSize < 0) :
    fullReadDirAdd limit page e =
      .ok (false, ⟨page.next, page.results ++ [e], page.budget - e.packedSize⟩) :=
  (if_neg h).trans (if_neg hfits)

lemma fullReadDirAdd_of_full (h : ¬ (0 < limit ∧ limit ≤ (page.results ++ [e]).length))
    (hfull : page.budget - e.packedSize < 0) :
    fullReadDirAdd limit page e =
      removeLast (page.results ++ [e]).reverse (page.budget - e.packedSize)
        FullReadDirCursor.staticSize >>= fun page => .ok (true, page) :=
  (if_neg h).trans (if_pos hfull)

/-- The three ways in which a run of edges is added. -/
lemma fullReadDirAddAll_cases (limit : ℕ) (edges : List Edge)
    (hbase : base = page.budget + edgesSize page.results) (hbudget : 0 ≤ page.budget)
    (hlimit : 0 < limit → page.results.length < limit) :
    AddsEdges limit base page edges (fullReadDirAddAll limit edges page) := by
  induction edges generalizing page with
  | nil =>
    obtain ⟨next, results, budget⟩ := page
    simp only at hbase hbudget hlimit
    have h : AddsEdges limit base ⟨next, results, budget⟩ [] _ :=
      .all (by simp only [append_nil]; omega) (by simpa using hlimit)
    have hleft : base - edgesSize results = budget := by omega
    simp only [append_nil, hleft] at h
    exact h
  | cons e rest ih =>
    have hsize : edgesSize (page.results ++ [e]) = edgesSize page.results + e.packedSize := by
      simp
    rw [fullReadDirAddAll]
    by_cases hdone : 0 < limit ∧ limit ≤ (page.results ++ [e]).length
    · rw [fullReadDirAdd_of_limit hdone]
      have hlen : page.results.length + 1 = limit := by
        have hle := hdone.2
        simp only [length_append, length_singleton] at hle
        omega
      have h : AddsEdges limit base page (e :: rest) _ :=
        .limit [] e rest page.budget rfl hdone.1 (by simpa using hlen) (by rw [append_nil]; omega)
      simp only [append_nil] at h
      exact h
    · have hlen : 0 < limit → page.results.length + 1 < limit := by
        intro hpos
        simpa using not_and.mp hdone hpos
      by_cases hneg : page.budget - e.packedSize < 0
      · rw [fullReadDirAdd_of_full hdone hneg]
        have hleft : base - edgesSize (page.results ++ [e]) = page.budget - e.packedSize := by
          omega
        have h : AddsEdges limit base page (e :: rest) _ :=
          .full [] e rest rfl (by simpa using hlen) (by rw [append_nil]; omega)
            (by rw [append_nil]; omega)
        simp only [append_nil, hleft] at h
        convert h using 1
        cases removeLast (page.results ++ [e]).reverse (page.budget - e.packedSize)
          FullReadDirCursor.staticSize <;> rfl
      · rw [fullReadDirAdd_of_fits hdone hneg]
        have hnext : AddsEdges limit base
            ⟨page.next, page.results ++ [e], page.budget - e.packedSize⟩ rest
            (fullReadDirAddAll limit rest
              ⟨page.next, page.results ++ [e], page.budget - e.packedSize⟩) :=
          ih (by simp only [hsize]; push_cast; omega) (not_lt.mp hneg) (by simpa using hlen)
        exact hnext.cons

end TernFS
