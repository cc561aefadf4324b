/-
# Linear feedback shift registers

A register of `w + 1` bits holds a polynomial over the field with two elements, modulo a fixed
one of degree `w + 1`, with the bit of weight `2 ^ w` as its constant term.  A step of the
register multiplies by the variable: it shifts to the right and adds the modulus when a bit
falls out.  This file has the step, the product of two registers that a sequence of steps
computes, and the ring laws for both.
-/
import Mathlib.Data.Nat.Bitwise
import Mathlib.Dynamics.PeriodicPts.Defs
import Mathlib.Algebra.Group.End
import Mathlib.Data.Fintype.EquivFin
import Mathlib.Tactic.Ring

namespace TernFS.Lib

open Nat

/-! ## Linear maps -/

/-- A map that commutes with the exclusive or. -/
def XorLinear (f : ℕ → ℕ) : Prop := ∀ a b, f (a ^^^ b) = f a ^^^ f b

namespace XorLinear

variable {f g : ℕ → ℕ}

lemma map_zero (hf : XorLinear f) : f 0 = 0 := by
  have h := hf 0 0
  rwa [Nat.xor_self, Nat.xor_self] at h

lemma iterate (hf : XorLinear f) (n : ℕ) : XorLinear f^[n] := by
  intro a b
  induction n generalizing a b with
  | zero => rfl
  | succ n ih => rw [Function.iterate_succ_apply, hf, ih]; rfl

end XorLinear

/-! ## The step -/

section Step

variable (poly : ℕ)

/-- One step of the register. -/
def shiftStep (c : ℕ) : ℕ := if c % 2 = 1 then c / 2 ^^^ poly else c / 2

lemma xorLinear_shiftStep : XorLinear (shiftStep poly) := by
  intro a b
  have hparity : (a ^^^ b) % 2 = 1 ↔ ¬ (a % 2 = 1 ↔ b % 2 = 1) := xor_mod_two_eq_one
  simp only [shiftStep, xor_div_two]
  by_cases ha : a % 2 = 1
  · by_cases hb : b % 2 = 1
    · rw [if_neg (by rw [hparity]; simp [ha, hb]), if_pos ha, if_pos hb]
      -- the two copies of the modulus cancel
      rw [Nat.xor_assoc, Nat.xor_comm poly, Nat.xor_assoc, Nat.xor_self, Nat.xor_zero]
    · rw [if_pos (by rw [hparity]; simp [ha, hb]), if_pos ha, if_neg hb, xor_right_comm]
  · by_cases hb : b % 2 = 1
    · rw [if_pos (by rw [hparity]; simp [ha, hb]), if_neg ha, if_pos hb, Nat.xor_assoc]
    · rw [if_neg (by rw [hparity]; simp [ha, hb]), if_neg ha, if_neg hb]

/-- While only zeros fall out, a step is a shift. -/
lemma shiftStep_two_mul (c : ℕ) : shiftStep poly (2 * c) = c := by
  rw [shiftStep, if_neg (by omega)]
  omega

lemma iterate_shiftStep_mul (n c : ℕ) : (shiftStep poly)^[n] (c * 2 ^ n) = c := by
  induction n with
  | zero => simp
  | succ n ih =>
    rw [Function.iterate_succ_apply, show c * 2 ^ (n + 1) = 2 * (c * 2 ^ n) by ring,
      shiftStep_two_mul, ih]

lemma shiftStep_lt {poly w c : ℕ} (hpoly : poly < 2 ^ w) (hc : c < 2 ^ w) :
    shiftStep poly c < 2 ^ w := by
  have hhalf : c / 2 < 2 ^ w := (div_le_self c 2).trans_lt hc
  rw [shiftStep]
  split
  · exact xor_lt_two_pow hhalf hpoly
  · exact hhalf

/-- `n` steps of a register of any length: the low `n` bits go through the steps, the others
are shifted. -/
lemma iterate_shiftStep_split (n c : ℕ) :
    (shiftStep poly)^[n] c = (shiftStep poly)^[n] (c % 2 ^ n) ^^^ c / 2 ^ n := by
  have hsplit : c = c % 2 ^ n ^^^ c / 2 ^ n * 2 ^ n := by
    apply eq_of_testBit_eq
    intro i
    rw [testBit_xor, testBit_mod_two_pow, mul_comm, testBit_two_pow_mul, testBit_div_two_pow]
    by_cases hi : i < n
    · simp [hi, not_le.mpr hi]
    · simp [hi, not_lt.mp hi]
  conv_lhs => rw [hsplit]
  rw [(xorLinear_shiftStep poly).iterate n, iterate_shiftStep_mul]

end Step

/-! ## Products -/

/-- The sum of the shifts of `b` that the low `n` bits of `a` select, the most significant of
these bits first. -/
def shiftMul (poly a : ℕ) : ℕ → ℕ → ℕ
  | 0, _ => 0
  | n + 1, b => (if a.testBit n then b else 0) ^^^ shiftMul poly a n (shiftStep poly b)

section Mul

variable {poly : ℕ}

lemma shiftMul_lt {w : ℕ} (hpoly : poly < 2 ^ w) (a : ℕ) :
    ∀ n {b : ℕ}, b < 2 ^ w → shiftMul poly a n b < 2 ^ w
  | 0, _, _ => Nat.two_pow_pos w
  | n + 1, b, hb => by
    refine xor_lt_two_pow ?_ (shiftMul_lt hpoly a n (shiftStep_lt hpoly hb))
    split
    · exact hb
    · exact Nat.two_pow_pos w

/-- A linear map that commutes with the step commutes with products. -/
lemma map_shiftMul {f : ℕ → ℕ} (hf : XorLinear f) (hstep : Function.Commute f (shiftStep poly))
    (a n b : ℕ) : f (shiftMul poly a n b) = shiftMul poly a n (f b) := by
  induction n generalizing b with
  | zero => exact hf.map_zero
  | succ n ih =>
    rw [shiftMul, shiftMul, hf, ih, hstep b]
    congr 1
    split
    · rfl
    · exact hf.map_zero

lemma xorLinear_shiftMul (a n : ℕ) : XorLinear (shiftMul poly a n) := by
  induction n with
  | zero => exact fun b c => (Nat.xor_self 0).symm
  | succ n ih =>
    intro b c
    rw [shiftMul, shiftMul, shiftMul, xorLinear_shiftStep, ih]
    split
    · rw [Nat.xor_assoc, Nat.xor_assoc, Nat.xor_left_comm c]
    · rw [zero_xor, zero_xor, zero_xor]

lemma shiftMul_commute_shiftStep (a n : ℕ) :
    Function.Commute (shiftMul poly a n) (shiftStep poly) := by
  intro b
  exact (map_shiftMul (xorLinear_shiftStep poly) (Function.Commute.refl _) a n b).symm

lemma shiftMul_iterate (a n k b : ℕ) :
    shiftMul poly a n ((shiftStep poly)^[k] b) = (shiftStep poly)^[k] (shiftMul poly a n b) :=
  (shiftMul_commute_shiftStep a n).iterate_right k b

lemma shiftMul_left_comm (a b n c : ℕ) :
    shiftMul poly a n (shiftMul poly b n c) = shiftMul poly b n (shiftMul poly a n c) :=
  map_shiftMul (xorLinear_shiftMul a n) (shiftMul_commute_shiftStep a n) b n c

/-- The bit of weight `2 ^ w` alone is the polynomial one. -/
lemma shiftMul_one (a w : ℕ) : shiftMul poly a (w + 1) (2 ^ w) = a % 2 ^ (w + 1) := by
  induction w with
  | zero =>
    rw [shiftMul, shiftMul, xor_zero, testBit_zero, zero_add, pow_zero, pow_one]
    split
    · next h => exact (of_decide_eq_true h).symm
    · next h => exact (by simpa using h : a % 2 = 0).symm
  | succ w ih =>
    rw [shiftMul, pow_succ', shiftStep_two_mul, ih, ← pow_succ']
    apply eq_of_testBit_eq
    intro i
    rw [testBit_xor, testBit_mod_two_pow, testBit_mod_two_pow, apply_ite testBit,
      ite_apply, zero_testBit, testBit_two_pow]
    obtain hi | rfl | hi := lt_trichotomy i (w + 1)
    · simp [hi, hi.ne', lt_succ_of_lt hi]
    · simp
    · simp [not_lt.mpr hi.le, hi.ne, not_lt.mpr (succ_le_of_lt hi)]

variable {w a b c : ℕ}

lemma shiftMul_one_of_lt (ha : a < 2 ^ (w + 1)) : shiftMul poly a (w + 1) (2 ^ w) = a := by
  rw [shiftMul_one, mod_eq_of_lt ha]

lemma shiftMul_comm (ha : a < 2 ^ (w + 1)) (hb : b < 2 ^ (w + 1)) :
    shiftMul poly a (w + 1) b = shiftMul poly b (w + 1) a := by
  calc shiftMul poly a (w + 1) b
      = shiftMul poly a (w + 1) (shiftMul poly b (w + 1) (2 ^ w)) := by rw [shiftMul_one_of_lt hb]
    _ = shiftMul poly b (w + 1) (shiftMul poly a (w + 1) (2 ^ w)) := shiftMul_left_comm a b _ _
    _ = shiftMul poly b (w + 1) a := by rw [shiftMul_one_of_lt ha]

lemma shiftMul_assoc (hpoly : poly < 2 ^ (w + 1)) (hb : b < 2 ^ (w + 1)) (hc : c < 2 ^ (w + 1)) :
    shiftMul poly (shiftMul poly a (w + 1) b) (w + 1) c =
      shiftMul poly a (w + 1) (shiftMul poly b (w + 1) c) := by
  rw [shiftMul_comm (shiftMul_lt hpoly a _ hb) hc, shiftMul_left_comm, shiftMul_comm hc hb]

/-- Multiplication by a power of the variable takes that many steps. -/
lemma shiftMul_iterate_one (hpoly : poly < 2 ^ (w + 1)) (n : ℕ) (hc : c < 2 ^ (w + 1)) :
    shiftMul poly ((shiftStep poly)^[n] (2 ^ w)) (w + 1) c = (shiftStep poly)^[n] c := by
  have hone : 2 ^ w < 2 ^ (w + 1) := Nat.pow_lt_pow_right one_lt_two (Nat.lt_succ_self w)
  have hlt : (shiftStep poly)^[n] (2 ^ w) < 2 ^ (w + 1) := by
    induction n with
    | zero => exact hone
    | succ n ih =>
      rw [Function.iterate_succ_apply']
      exact shiftStep_lt hpoly ih
  rw [shiftMul_comm hlt hc, shiftMul_iterate, shiftMul_one_of_lt hc]

end Mul

/-! ## The step as a permutation -/

/-- With a modulus that has a constant term, only the zero register steps to zero. -/
lemma eq_zero_of_shiftStep_eq_zero {poly w c : ℕ} (htop : 2 ^ w ≤ poly) (hc : c < 2 ^ (w + 1))
    (h : shiftStep poly c = 0) : c = 0 := by
  rw [shiftStep] at h
  split at h
  · -- the modulus has a bit that the shifted register lacks
    have heq : c / 2 = poly := Nat.xor_eq_zero_iff.mp h
    omega
  · omega

/-- A modulus with a constant term makes the step a permutation of the registers. -/
noncomputable def shiftPerm (poly w : ℕ) (hlt : poly < 2 ^ (w + 1)) (htop : 2 ^ w ≤ poly) :
    Equiv.Perm (Fin (2 ^ (w + 1))) :=
  Equiv.ofBijective (fun c => ⟨shiftStep poly c, shiftStep_lt hlt c.isLt⟩) <| by
    rw [← Finite.injective_iff_bijective]
    intro a b hab
    have hstep : shiftStep poly a = shiftStep poly b := congrArg Fin.val hab
    have hzero : shiftStep poly (a ^^^ b : ℕ) = 0 := by
      rw [xorLinear_shiftStep, hstep, Nat.xor_self]
    have heq := eq_zero_of_shiftStep_eq_zero htop (xor_lt_two_pow a.isLt b.isLt) hzero
    exact Fin.ext (Nat.xor_eq_zero_iff.mp heq)

section Perm

variable {poly w : ℕ} {hlt : poly < 2 ^ (w + 1)} {htop : 2 ^ w ≤ poly}

@[simp] lemma shiftPerm_apply (c : Fin (2 ^ (w + 1))) :
    (shiftPerm poly w hlt htop c : ℕ) = shiftStep poly c := rfl

lemma shiftPerm_pow_apply (n : ℕ) (c : Fin (2 ^ (w + 1))) :
    ((shiftPerm poly w hlt htop ^ n) c : ℕ) = (shiftStep poly)^[n] c := by
  induction n with
  | zero => rfl
  | succ n ih =>
    have hsucc : shiftPerm poly w hlt htop ^ (n + 1) =
        shiftPerm poly w hlt htop * shiftPerm poly w hlt htop ^ n := pow_succ' _ _
    rw [hsucc, Equiv.Perm.mul_apply, shiftPerm_apply, ih, Function.iterate_succ_apply']

/-- If a number of steps leaves the polynomial one as it is, it leaves every register. -/
lemma shiftPerm_pow_eq_one {n : ℕ} (h : (shiftStep poly)^[n] (2 ^ w) = 2 ^ w) :
    shiftPerm poly w hlt htop ^ n = 1 := by
  ext c
  rw [shiftPerm_pow_apply, Equiv.Perm.one_apply, ← shiftMul_iterate_one hlt n c.isLt, h,
    shiftMul_comm (Nat.pow_lt_pow_right one_lt_two (Nat.lt_succ_self w)) c.isLt,
    shiftMul_one_of_lt c.isLt]

end Perm

/-- A point that two coprime powers of a permutation fix is fixed by the permutation. -/
lemma perm_fixed_of_coprime {α : Type*} {σ : Equiv.Perm α} {x : α} {m n : ℕ}
    (hcop : m.Coprime n) (hm : (σ ^ m) x = x) (hn : (σ ^ n) x = x) : σ x = x := by
  have hperiod : ∀ k, (σ ^ k) x = x → Function.IsPeriodicPt σ k x := by
    intro k hk
    rwa [Function.IsPeriodicPt, Function.IsFixedPt, Equiv.Perm.iterate_eq_pow]
  have hone := (hperiod m hm).gcd (hperiod n hn)
  rw [hcop] at hone
  exact hone

end TernFS.Lib
