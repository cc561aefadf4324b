/-
# Parent maps

A tree that is given by a partial map from each node to its parent.  Only the root has no parent and
is still a node, and the way up from every other node ends at the root.

The map changes in two ways: a node gets a (new) parent, or a node without children is removed.  A
node may be put below another one if the way up from the latter does not pass through it
(`IsTree.put`); that condition is itself kept by the changes that others make in between
(`LeadsTo.put`, `LeadsTo.delete`).
-/
import Mathlib.Logic.Relation
import Mathlib.Data.Set.Insert

namespace TernFS.Lib

open Relation

variable {α : Type*} {parent parent' : α → Option α} {avoid : Set α} {root c d p : α}

/-- One step up, from a node that is not in the set. -/
def StepUp (parent : α → Option α) (avoid : Set α) (c p : α) : Prop :=
  parent c = some p ∧ c ∉ avoid

/-- The way up from `c` ends at the root and passes through no node of the set before. -/
def LeadsTo (parent : α → Option α) (avoid : Set α) (root c : α) : Prop :=
  ReflTransGen (StepUp parent avoid) c root

/-- The map is a tree. -/
structure IsTree (parent : α → Option α) (root : α) : Prop where
  top : parent root = none
  leads : ∀ c p, parent c = some p → LeadsTo parent ∅ root c

/-- Steps of one map are steps of another one. -/
lemma LeadsTo.imp {avoid' : Set α} (h : LeadsTo parent avoid root d)
    (hstep : ∀ e p, StepUp parent avoid e p → StepUp parent' avoid' e p) :
    LeadsTo parent' avoid' root d :=
  ReflTransGen.mono hstep _ _ h

/-- In a tree no node is its own ancestor. -/
lemma IsTree.acyclic (h : IsTree parent root) (c : α) :
    ¬ TransGen (fun c p => parent c = some p) c c := by
  -- the whole way up from a node on a cycle is on the cycle, but the root has no parent
  have hroot : ∀ d, ¬ TransGen (fun c p => parent c = some p) root d := by
    intro d hd
    obtain ⟨p, hp, -⟩ := TransGen.head'_iff.1 hd
    rw [h.top] at hp
    cases hp
  have hclimb : ∀ {c}, LeadsTo parent ∅ root c → ¬ TransGen (fun c p => parent c = some p) c c := by
    intro c hc
    induction hc using ReflTransGen.head_induction_on with
    | refl => exact hroot root
    | head hstep _ ih =>
      intro hcycle
      obtain ⟨p, hp, hback⟩ := TransGen.head'_iff.1 hcycle
      obtain rfl := Option.mem_unique hstep.1 hp
      exact ih (TransGen.tail' hback hstep.1)
  intro hcycle
  obtain ⟨p, hp, -⟩ := TransGen.head'_iff.1 hcycle
  exact hclimb (h.leads c p hp) hcycle

/-- A way up does not pass through a node that has no parent. -/
lemma LeadsTo.avoid_of_eq_none (h : LeadsTo parent avoid root d) (hc : parent c = none) :
    LeadsTo parent (insert c avoid) root d := by
  refine h.imp fun e p hstep => ⟨hstep.1, ?_⟩
  rintro (rfl | hmem)
  · cases hc.symm.trans hstep.1
  · exact hstep.2 hmem

/-- A way up does not pass through a node without children, unless it starts there. -/
lemma LeadsTo.avoid_of_leaf (h : LeadsTo parent avoid root d) (hleaf : ∀ e, parent e ≠ some c)
    (hne : d ≠ c) : LeadsTo parent (insert c avoid) root d := by
  induction h using ReflTransGen.head_induction_on with
  | refl => exact .refl
  | @head d p hstep _ ih =>
    have hp : p ≠ c := fun heq => hleaf d (heq ▸ hstep.1)
    refine .head ⟨hstep.1, ?_⟩ (ih hp)
    rintro (rfl | hmem)
    · exact hne rfl
    · exact hstep.2 hmem

/-- The way up passes through fewer nodes. -/
lemma LeadsTo.mono {avoid' : Set α} (h : LeadsTo parent avoid root d) (hsub : avoid' ⊆ avoid) :
    LeadsTo parent avoid' root d :=
  h.imp fun _ _ hstep => ⟨hstep.1, fun hmem => hstep.2 (hsub hmem)⟩

section

variable (hother : ∀ e, e ≠ c → parent' e = parent e)
include hother

/-- A way up that does not pass through a node is still there when the parent of that node
changes. -/
lemma LeadsTo.congr (h : LeadsTo parent (insert c avoid) root d) :
    LeadsTo parent' (insert c avoid) root d := by
  refine h.imp fun e p hstep => ⟨?_, hstep.2⟩
  have hne : e ≠ c := fun heq => hstep.2 (.inl heq)
  exact (hother e hne).trans hstep.1

/-- A new node leaves the ways up as they are. -/
lemma LeadsTo.put (h : LeadsTo parent avoid root d) (hnew : parent c = none) :
    LeadsTo parent' avoid root d :=
  ((h.avoid_of_eq_none hnew).congr hother).mono (Set.subset_insert c avoid)

/-- Removing a node without children leaves the other ways up as they are. -/
lemma LeadsTo.delete (h : LeadsTo parent avoid root d) (hleaf : ∀ e, parent e ≠ some c)
    (hne : d ≠ c) : LeadsTo parent' avoid root d :=
  ((h.avoid_of_leaf hleaf hne).congr hother).mono (Set.subset_insert c avoid)

lemma IsTree.put (h : IsTree parent root) (hc : c ≠ root) (hself : parent' c = some p)
    (hp : LeadsTo parent {c} root p) : IsTree parent' root := by
  have hp' : LeadsTo parent' ∅ root p := by
    rw [← insert_empty_eq] at hp
    exact (hp.congr hother).mono (Set.empty_subset _)
  have hclimb : ∀ {d}, LeadsTo parent ∅ root d → LeadsTo parent' ∅ root d := by
    intro d hd
    induction hd using ReflTransGen.head_induction_on with
    | refl => exact .refl
    | @head d q hstep _ ih =>
      -- below `c` the way is the old one, and from `c` it goes on along the way of its new parent
      by_cases hdc : d = c
      · exact .head ⟨hdc ▸ hself, Set.notMem_empty d⟩ hp'
      · exact .head ⟨(hother d hdc).trans hstep.1, Set.notMem_empty d⟩ ih
  refine ⟨(hother root (Ne.symm hc)).trans h.top, fun d q hd => ?_⟩
  by_cases hdc : d = c
  · exact .head ⟨hdc ▸ hself, Set.notMem_empty d⟩ hp'
  · exact hclimb (h.leads d q ((hother d hdc).symm.trans hd))

lemma IsTree.delete (h : IsTree parent root) (hself : parent' c = none)
    (hleaf : ∀ e, parent e ≠ some c) : IsTree parent' root := by
  have hne : ∀ {d q}, parent' d = some q → d ≠ c := by
    rintro d q hd rfl
    rw [hself] at hd
    cases hd
  refine ⟨?_, fun d q hd => ?_⟩
  · by_cases hroot : root = c
    · exact hroot ▸ hself
    · exact (hother root hroot).trans h.top
  · exact (h.leads d q ((hother d (hne hd)).symm.trans hd)).delete hother hleaf (hne hd)

end

end TernFS.Lib
