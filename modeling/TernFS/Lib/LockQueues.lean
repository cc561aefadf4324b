/-
# Lock queues

Tickets wait in the queues of the resources that they need, and tickets are served in increasing
order.  A ticket is granted when it is the first one in all its queues.  Two granted tickets have no
resource in common; a ticket that joins the queues at their ends changes nothing for the others; and
when a granted ticket leaves, the only tickets that can be granted now are those that have become
first in one of its queues, so these are the ones to wake up.
-/
import Mathlib.Order.Bounds.Basic

namespace TernFS.Lib

variable {δ τ : Type*} {queue : δ → Set τ} {needs needs' : List δ} {t u : τ}

/-- The queues after a ticket has joined those of the resources that it needs. -/
def joinQueues (queue : δ → Set τ) (needs : List δ) (t : τ) (d : δ) : Set τ :=
  {u | u ∈ queue d ∨ u = t ∧ d ∈ needs}

/-- The queues after a ticket has left. -/
def leaveQueues (queue : δ → Set τ) (t : τ) (d : δ) : Set τ := queue d \ {t}

lemma mem_joinQueues {d : δ} :
    u ∈ joinQueues queue needs t d ↔ u ∈ queue d ∨ u = t ∧ d ∈ needs := Iff.rfl

lemma mem_leaveQueues {d : δ} : u ∈ leaveQueues queue t d ↔ u ∈ queue d ∧ u ≠ t := Iff.rfl

variable [LinearOrder τ]

/-- The ticket is the first one in the queues of all the resources that it needs. -/
def Granted (queue : δ → Set τ) (needs : List δ) (t : τ) : Prop := ∀ d ∈ needs, IsLeast (queue d) t

/-- **Mutual exclusion.** Granted tickets with a common resource are the same. -/
lemma Granted.eq (ht : Granted queue needs t) (hu : Granted queue needs' u) {d : δ}
    (hd : d ∈ needs) (hd' : d ∈ needs') : t = u :=
  (ht d hd).unique (hu d hd')

/-- A ticket that joins at the end does not become first in a queue that was not empty, and takes
nobody's place. -/
lemma isLeast_joinQueues {d : δ} (hlast : ∀ v ∈ queue d, v < t) :
    IsLeast (joinQueues queue needs t d) u ↔
      IsLeast (queue d) u ∨ queue d = ∅ ∧ u = t ∧ d ∈ needs := by
  constructor
  · rintro ⟨hmem | ⟨rfl, hd⟩, hlower⟩
    · exact .inl ⟨hmem, fun v hv => hlower (.inl hv)⟩
    · refine .inr ⟨Set.eq_empty_of_forall_notMem fun v hv => ?_, rfl, hd⟩
      exact absurd (hlower (.inl hv)) (hlast v hv).not_ge
  · rintro (⟨hmem, hlower⟩ | ⟨hempty, rfl, hd⟩)
    · refine ⟨.inl hmem, ?_⟩
      rintro v (hv | ⟨rfl, -⟩)
      · exact hlower hv
      · exact (hlast u hmem).le
    · refine ⟨.inr ⟨rfl, hd⟩, ?_⟩
      rintro v (hv | ⟨rfl, -⟩)
      · rw [hempty] at hv
        cases hv
      · exact le_refl _

/-- A ticket that joins at the end neither helps nor delays a ticket that is in its queues. -/
lemma granted_joinQueues (hlast : ∀ d, ∀ v ∈ queue d, v < t) (hne : u ≠ t) :
    Granted (joinQueues queue needs t) needs' u ↔ Granted queue needs' u := by
  refine forall₂_congr fun d _ => ?_
  rw [isLeast_joinQueues (hlast d)]
  exact or_iff_left fun h => hne h.2.1

lemma Granted.leave (hu : Granted queue needs u) (hne : u ≠ t) :
    Granted (leaveQueues queue t) needs u := by
  intro d hd
  obtain ⟨hmem, hlower⟩ := hu d hd
  exact ⟨⟨hmem, hne⟩, fun v hv => hlower hv.1⟩

/-- **No lost wake-ups.** When a ticket leaves, a ticket that is granted then was granted before, or
it has become first in one of the queues of the ticket that has left. -/
lemma Granted.of_leave (ht : ∀ d, t ∈ queue d → d ∈ needs)
    (hu : Granted (leaveQueues queue t) needs' u) :
    Granted queue needs' u ∨ ∃ d ∈ needs, IsLeast (leaveQueues queue t d) u := by
  by_cases hcommon : ∃ d ∈ needs', d ∈ needs
  · obtain ⟨d, hd', hd⟩ := hcommon
    exact .inr ⟨d, hd, hu d hd'⟩
  refine .inl fun d hd' => ?_
  have hleave : leaveQueues queue t d = queue d :=
    Set.sdiff_singleton_eq_self fun hmem => hcommon ⟨d, hd', ht d hmem⟩
  exact hleave ▸ hu d hd'

/-- After the first ticket of a queue has left, the rest of the queue comes after it. -/
lemma leaveQueues_of_isLeast {d : δ} (ht : IsLeast (queue d) t) :
    leaveQueues queue t d = {u | u ∈ queue d ∧ t < u} := by
  ext u
  constructor
  · rintro ⟨hmem, hne⟩
    exact ⟨hmem, lt_of_le_of_ne (ht.2 hmem) (Ne.symm hne)⟩
  · rintro ⟨hmem, hlt⟩
    exact ⟨hmem, hlt.ne'⟩

end TernFS.Lib
