/-
# Computations that check and fail

Code that guards each step with a check and leaves at the first one that does not hold is
written in `Except ε`.  The lemmas below read a successful computation backwards: from
`x = .ok a` to the checks that held and the values that were found, so that one `simp only`
turns a successful call into the list of its guards.  Then some lemmas run a computation forwards,
and the last ones say which errors a computation can fail with.
-/
import Mathlib.Data.Option.Basic

namespace TernFS.Lib

open List

universe u

variable {ε α β : Type u}

/-- Go on if the condition holds, fail with `e` otherwise. -/
def ensure (c : Prop) [Decidable c] (e : ε) : Except ε PUnit.{u + 1} :=
  if c then .ok ⟨⟩ else .error e

/-- The value, or the failure `e` when there is none. -/
def orFail (e : ε) : Option α → Except ε α
  | some a => .ok a
  | none => .error e

variable {e : ε} {a : α} {b : β}

variable {c : Prop}

@[simp] lemma ensure_eq_ok [Decidable c] {u : PUnit} : ensure c e = .ok u ↔ c := by
  by_cases h : c <;> simp [ensure, h]

@[simp] lemma orFail_eq_ok {o : Option α} : orFail e o = .ok a ↔ o = some a := by
  cases o <;> simp [orFail]

@[simp] lemma bind_eq_ok {x : Except ε α} {f : α → Except ε β} :
    (x >>= f) = .ok b ↔ ∃ a, x = .ok a ∧ f a = .ok b := by
  cases x <;> simp [bind, Except.bind]

@[simp] lemma pure_eq_ok {a' : α} : (pure a : Except ε α) = .ok a' ↔ a = a' := by
  simp [pure, Except.pure]

lemma pure_ne_error : (pure a : Except ε α) ≠ .error e := by
  intro h
  cases h

@[simp] lemma map_eq_ok {f : α → β} {x : Except ε α} : f <$> x = .ok b ↔ ∃ a, x = .ok a ∧ f a = b := by
  cases x <;> simp [Functor.map, Except.map]

/-- A sequence fails as its first part does, or as the second does after it. -/
lemma bind_eq_error {x : Except ε α} {f : α → Except ε β} :
    (x >>= f) = .error e ↔ x = .error e ∨ ∃ a, x = .ok a ∧ f a = .error e := by
  cases x <;> simp [bind, Except.bind]

lemma ensure_eq_error [Decidable c] {e' : ε} : ensure c e = .error e' ↔ ¬ c ∧ e = e' := by
  by_cases h : c <;> simp [ensure, h]

lemma orFail_eq_error {o : Option α} {e' : ε} : orFail e o = .error e' ↔ o = none ∧ e = e' := by
  cases o <;> simp [orFail]

lemma ok_bind {f : α → Except ε β} : (Except.ok a >>= f) = f a := rfl

lemma error_bind {f : α → Except ε β} : (Except.error e >>= f) = .error e := rfl

lemma exists_of_isOk {x : Except ε α} (h : x.isOk) : ∃ a, x = .ok a := by
  cases x with
  | ok a => exact ⟨a, rfl⟩
  | error => cases h

lemma ensure_of [Decidable c] (h : c) : ensure c e = .ok ⟨⟩ := if_pos h

lemma ensure_of_not [Decidable c] (h : ¬ c) : ensure c e = .error e := if_neg h

/-! ## Which errors there can be -/

/-- If the computation fails, then with an error that `P` allows. -/
def FailsOnly (P : ε → Prop) (x : Except ε α) : Prop := ∀ e, x = .error e → P e

variable {P : ε → Prop}

@[simp] lemma failsOnly_ok : FailsOnly P (.ok a) := fun _ h => by cases h

@[simp] lemma failsOnly_pure : FailsOnly P (pure a) := failsOnly_ok

@[simp] lemma failsOnly_error : FailsOnly P (.error e : Except ε α) ↔ P e := by
  refine ⟨fun h => h e rfl, fun h e' he => ?_⟩
  cases he
  exact h

@[simp] lemma failsOnly_ensure [Decidable c] : FailsOnly P (ensure c e) ↔ (¬ c → P e) := by
  by_cases h : c <;> simp [ensure, h]

@[simp] lemma failsOnly_orFail {o : Option α} : FailsOnly P (orFail e o) ↔ (o = none → P e) := by
  cases o <;> simp [orFail]

/-- A sequence fails as one of its parts does. -/
@[simp] lemma failsOnly_bind {x : Except ε α} {f : α → Except ε β} :
    FailsOnly P (x >>= f) ↔ FailsOnly P x ∧ ∀ a, x = .ok a → FailsOnly P (f a) := by
  cases x with
  | ok => simp [ok_bind]
  | error => simp [error_bind]

/-- What a sequence fails with, when it starts with another computation, a check or a lookup. -/
lemma FailsOnly.bind {x : Except ε α} {f : α → Except ε β} (hx : FailsOnly P x)
    (hf : ∀ a, x = .ok a → FailsOnly P (f a)) : FailsOnly P (x >>= f) := failsOnly_bind.2 ⟨hx, hf⟩

lemma FailsOnly.ensure [Decidable c] {f : PUnit → Except ε β} (he : ¬ c → P e)
    (hf : c → FailsOnly P (f ⟨⟩)) : FailsOnly P (ensure c e >>= f) :=
  .bind (failsOnly_ensure.2 he) fun _ h => hf (ensure_eq_ok.1 h)

lemma FailsOnly.orFail {o : Option α} {f : α → Except ε β} (he : o = none → P e)
    (hf : ∀ a, o = some a → FailsOnly P (f a)) : FailsOnly P (orFail e o >>= f) :=
  .bind (failsOnly_orFail.2 he) fun a h => hf a (orFail_eq_ok.1 h)

@[simp] lemma failsOnly_map {f : α → β} {x : Except ε α} : FailsOnly P (f <$> x) ↔ FailsOnly P x := by
  cases x with
  | ok => exact iff_of_true failsOnly_ok failsOnly_ok
  | error => exact failsOnly_error.trans failsOnly_error.symm

lemma failsOnly_mapM {f : α → Except ε β} {l : List α} (h : ∀ a ∈ l, FailsOnly P (f a)) :
    FailsOnly P (l.mapM f) := by
  induction l with
  | nil => simp
  | cons a l ih =>
    rw [mapM_cons, failsOnly_bind]
    refine ⟨h a mem_cons_self, fun b _ => ?_⟩
    rw [failsOnly_bind]
    exact ⟨ih fun a' ha' => h a' (mem_cons_of_mem a ha'), fun _ _ => failsOnly_pure⟩

lemma failsOnly_forM {f : α → Except ε PUnit} {l : List α} (h : ∀ a ∈ l, FailsOnly P (f a)) :
    FailsOnly P (l.forM f) := by
  induction l with
  | nil => exact failsOnly_pure
  | cons a l ih =>
    have hcons : (a :: l).forM f = f a >>= fun _ => l.forM f := rfl
    rw [hcons, failsOnly_bind]
    exact ⟨h a mem_cons_self, fun _ _ => ih fun a' ha' => h a' (mem_cons_of_mem a ha')⟩

/-! ## Loops -/

lemma forM_eq_ok {f : α → Except ε PUnit} {l : List α} {u : PUnit} (h : l.forM f = .ok u) :
    ∀ a ∈ l, f a = .ok () := by
  induction l with
  | nil => simp
  | cons a l ih =>
    change (f a >>= fun _ => l.forM f) = .ok u at h
    cases ha : f a with
    | error =>
      rw [ha] at h
      cases h
    | ok =>
      rw [ha] at h
      exact forall_mem_cons.2 ⟨ha, ih h⟩

lemma forM_congr {f g : α → Except ε PUnit} {l : List α} (h : ∀ a ∈ l, f a = g a) :
    l.forM f = l.forM g := by
  induction l with
  | nil => rfl
  | cons a l ih =>
    change (f a >>= fun _ => l.forM f) = (g a >>= fun _ => l.forM g)
    rw [h a mem_cons_self, ih fun a' ha' => h a' (mem_cons_of_mem a ha')]

end TernFS.Lib
