/-
# Values that survive a crash only once they are synced

A cell on a disk (the entry of a directory, for example) has a value that running programs
see, and a crash may leave it at any value it had since it was last synced.
-/
import Mathlib.Data.List.Basic

namespace TernFS.Lib

/-- A cell of a disk: its value, and the values a crash may leave it at. -/
structure Durable (α : Type*) where
  /-- The value programs see. -/
  now : α
  /-- The values since the last sync, the newest first. -/
  unsynced : List α
  now_mem : now ∈ unsynced

namespace Durable

variable {α : Type*} {c : Durable α} {v : α} {p : α → Prop}

/-- A cell that was just synced. -/
def synced (v : α) : Durable α := ⟨v, [v], List.mem_singleton_self v⟩

/-- A change that programs see at once. -/
def set (c : Durable α) (v : α) : Durable α := ⟨v, v :: c.unsynced, List.mem_cons_self⟩

/-- A sync that succeeds makes the value the only one a crash may leave. -/
def sync (c : Durable α) : Durable α := synced c.now

/-- A crash, after which the cell is found as it was `age` changes ago, or now if that is before
the last sync. -/
def crash (c : Durable α) (age : ℕ) : Durable α := synced (c.unsynced.getD age c.now)

/-- What is so now and after a crash. -/
def All (c : Durable α) (p : α → Prop) : Prop :=
  ∀ v ∈ c.unsynced, p v

/-- The value is `v`, now and after a crash. -/
def Settled (c : Durable α) (v : α) : Prop :=
  c.All (· = v)

instance [DecidableEq α] : Decidable (c.Settled v) :=
  inferInstanceAs (Decidable (∀ w ∈ c.unsynced, w = v))

@[simp] lemma now_set : (c.set v).now = v := rfl

@[simp] lemma all_synced : (synced v).All p ↔ p v := by
  simp [All, synced]

@[simp] lemma settled_sync : c.sync.Settled v ↔ c.now = v :=
  all_synced

lemma All.now (h : c.All p) : p c.now :=
  h _ c.now_mem

lemma All.set (h : c.All p) (hv : p v) : (c.set v).All p :=
  List.forall_mem_cons.2 ⟨hv, h⟩

lemma All.sync (h : c.All p) : c.sync.All p :=
  all_synced.2 h.now

/-- What was so since the last sync survives every crash. -/
lemma All.crash (h : c.All p) (age : ℕ) : (c.crash age).All p := by
  refine all_synced.2 ?_
  rw [List.getD_eq_getElem?_getD]
  cases hv : c.unsynced[age]? with
  | none => exact h.now
  | some v => exact h v (List.mem_of_getElem? hv)

end Durable

end TernFS.Lib
