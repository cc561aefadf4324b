/-
# Runs of a partial transition function

A machine is given by a partial step function `step : σ → α → Option σ`: from a state and
an input it either moves to a new state or stops (`none`).  This file folds such a step
over a list of inputs and states the induction principle for safety properties once: what
every admissible step preserves holds in every state an admissible run reaches.
-/
import Mathlib.Data.Option.Basic

namespace TernFS.Lib

variable {σ α : Type*}

universe u in
lemma bind_eq_some {α β : Type u} {o : Option α} {f : α → Option β} {b : β} :
    o >>= f = some b ↔ ∃ a, o = some a ∧ f a = some b := Option.bind_eq_some_iff

/-- The state reached by taking the inputs one after the other. -/
def run (step : σ → α → Option σ) : σ → List α → Option σ
  | s, [] => some s
  | s, a :: as => (step s a).bind fun s' => run step s' as

/-- Every step the run takes meets a condition on its input and the state before it. -/
def RunMeets (step : σ → α → Option σ) (ok : σ → α → Prop) : σ → List α → Prop
  | _, [] => True
  | s, a :: as =>
    ok s a ∧ match step s a with
      | some s' => RunMeets step ok s' as
      | none => True

instance RunMeets.decidable (step : σ → α → Option σ) (ok : σ → α → Prop)
    [∀ s a, Decidable (ok s a)] : ∀ s as, Decidable (RunMeets step ok s as)
  | _, [] => isTrue trivial
  | s, a :: as =>
    have : Decidable (match step s a with
          | some s' => RunMeets step ok s' as
          | none => True) :=
      match step s a with
      | some s' => RunMeets.decidable step ok s' as
      | none => isTrue trivial
    inferInstanceAs (Decidable (_ ∧ _))

/-! ## Deciding what a fixed run reaches

What a partial function returns is the only candidate for an existence statement about it. -/

section Existence

variable {β : Type*} {p : α → Prop} [DecidablePred p]

instance decidableExistsEqSome {o : Option α} : Decidable (∃ a, o = some a ∧ p a) :=
  match o with
  | none => isFalse (by simp)
  | some a => decidable_of_iff (p a) (by simp)

instance decidableExistsEqSomePair [DecidableEq β] {o : Option (α × β)} {b : β} :
    Decidable (∃ a, o = some (a, b) ∧ p a) :=
  match o with
  | none => isFalse (by simp)
  | some (a, b') => decidable_of_iff (b' = b ∧ p a) (by simp [and_assoc])

instance decidableExistsEqSomeFst [DecidableEq β] {o : Option (α × β)} {b : β} :
    Decidable (∃ a, o = some (a, b)) :=
  decidable_of_iff (∃ a, o = some (a, b) ∧ True) (by simp)

instance decidableExistsEqSomeProd {o : Option (α × β)} {p : α → β → Prop}
    [∀ a b, Decidable (p a b)] : Decidable (∃ a b, o = some (a, b) ∧ p a b) :=
  match o with
  | none => isFalse (by simp)
  | some (a, b) => decidable_of_iff (p a b) (by simp [and_assoc])

instance decidableExistsEqOk {ε : Type*} {x : Except ε α} : Decidable (∃ a, x = .ok a ∧ p a) :=
  match x with
  | .error _ => isFalse (by simp)
  | .ok a => decidable_of_iff (p a) (by simp)

instance decidableEqError {ε : Type*} [DecidableEq ε] {x : Except ε α} {e : ε} :
    Decidable (x = .error e) :=
  match x with
  | .error e' => decidable_of_iff (e' = e) (by simp)
  | .ok _ => isFalse (by simp)

instance decidableExistsEqSomeOk {ε : Type*} {o : Option (α × Except ε β)} {p : α → β → Prop}
    [∀ a b, Decidable (p a b)] : Decidable (∃ a b, o = some (a, .ok b) ∧ p a b) :=
  match o with
  | some (a, .ok b) => decidable_of_iff (p a b) (by simp [and_assoc])
  | some (a, .error e) => isFalse (by simp)
  | none => isFalse (by simp)

/-- An existence statement follows from one about the same function, whose facts are decidable
for example. -/
lemma exists_eq_some_imp {o : Option α} {p q : α → Prop} (h : ∀ a, o = some a → p a → q a)
    (hp : ∃ a, o = some a ∧ p a) : ∃ a, o = some a ∧ q a := by
  obtain ⟨a, ha, hpa⟩ := hp
  exact ⟨a, ha, h a ha hpa⟩

end Existence

variable {step : σ → α → Option σ} {ok : σ → α → Prop} {Inv : σ → Prop}

universe u in
lemma foldlM_invariant {σ : Type u} {f : σ → α → Option σ} {motive : σ → Prop} {as : List α}
    {s s' : σ} (hstep : ∀ s, ∀ a ∈ as, ∀ s', motive s → f s a = some s' → motive s')
    (h0 : motive s) (h : as.foldlM f s = some s') : motive s' := by
  induction as generalizing s with
  | nil =>
    cases h
    exact h0
  | cons a as ih =>
    simp only [List.foldlM_cons, bind_eq_some] at h
    obtain ⟨s₁, hs₁, h⟩ := h
    exact ih (fun s b hb => hstep s b (List.mem_cons_of_mem a hb))
      (hstep s a List.mem_cons_self s₁ h0 hs₁) h

/-- A condition on inputs alone that all inputs meet. -/
lemma RunMeets.of_forall {good : α → Prop} {as : List α} (h : ∀ a ∈ as, good a) (s : σ) :
    RunMeets step (fun _ a => good a) s as := by
  induction as generalizing s with
  | nil => trivial
  | cons a as ih =>
    obtain ⟨ha, has⟩ := List.forall_mem_cons.1 h
    refine ⟨ha, ?_⟩
    split
    · exact ih has _
    · trivial

@[simp] lemma run_nil (s : σ) : run step s [] = some s := rfl

lemma run_cons {s s'' : σ} {a : α} {as : List α} :
    run step s (a :: as) = some s'' ↔ ∃ s', step s a = some s' ∧ run step s' as = some s'' := by
  simp [run, Option.bind_eq_some_iff]

/-- **Invariant rule.** What holds at the start and is preserved by every step that meets
the condition holds in every state reached by a run whose steps all meet it. -/
theorem run_invariant (hstep : ∀ s a s', Inv s → ok s a → step s a = some s' → Inv s')
    {s s' : σ} {as : List α} (h0 : Inv s) (hok : RunMeets step ok s as)
    (hrun : run step s as = some s') : Inv s' := by
  induction as generalizing s with
  | nil =>
    obtain rfl : s = s' := by simpa using hrun
    exact h0
  | cons a as ih =>
    obtain ⟨s₁, hs₁, hrest⟩ := run_cons.1 hrun
    obtain ⟨hoka, hoks⟩ := hok
    rw [hs₁] at hoks
    exact ih (hstep s a s₁ h0 hoka hs₁) hoks hrest

/-- **Variant rule.** If the rank of the state drops by one with every input that counts, and never
rises, then a run has at most as many of these inputs as the rank has dropped. -/
theorem run_variant {rank : σ → Nat} {counts : α → Bool}
    (hstep : ∀ s a s', Inv s → ok s a → step s a = some s' →
      Inv s' ∧ rank s' + [a].countP counts ≤ rank s)
    {s s' : σ} {as : List α} (h0 : Inv s) (hok : RunMeets step ok s as)
    (hrun : run step s as = some s') : rank s' + as.countP counts ≤ rank s := by
  induction as generalizing s with
  | nil =>
    cases hrun
    exact Nat.le_refl _
  | cons a as ih =>
    obtain ⟨s₁, hs₁, hrest⟩ := run_cons.1 hrun
    obtain ⟨hoka, hoks⟩ := hok
    rw [hs₁] at hoks
    obtain ⟨hinv, hle⟩ := hstep s a s₁ h0 hoka hs₁
    have hrest := ih hinv hoks hrest
    rw [← List.singleton_append, List.countP_append]
    omega

/-- The invariant rule for steps without a condition. -/
theorem run_preserves (hstep : ∀ s a s', Inv s → step s a = some s' → Inv s') {s s' : σ}
    {as : List α} (h0 : Inv s) (hrun : run step s as = some s') : Inv s' := by
  have hall : RunMeets step (fun _ _ => True) s as := .of_forall (fun _ _ => trivial) s
  exact run_invariant (fun s a s' hs _ => hstep s a s' hs) h0 hall hrun

end TernFS.Lib
