/-
# The algebra of CRC-32C

The state of the checksum is a shift register (`Lib/ShiftRegister`), and the functions of
`core/crc32c` are products in its ring: the tables hold the powers of eight steps and their
inverses, so a zero-extension by any number of bytes, of either sign, is a power of one
permutation of the 32-bit words.
-/
import TernFS.Core.Crc32c
import TernFS.Lib.ShiftRegister
import Mathlib.Tactic.NormNum

namespace TernFS

open Lib List

variable {n : ℕ} {buf : Bytes}

/-! ## Steps and products -/

lemma castagnoliPoly_lt : castagnoliPoly < 2 ^ (31 + 1) := by decide

/-- One bit of the checksum, on the 32-bit words. -/
noncomputable def crcPerm : Equiv.Perm (Fin (2 ^ (31 + 1))) :=
  shiftPerm castagnoliPoly 31 castagnoliPoly_lt (by decide)

lemma crcBits_eq_iterate (n c : ℕ) : crcBits n c = (shiftStep castagnoliPoly)^[n] c := by
  induction n generalizing c with
  | zero => rfl
  | succ n ih => exact ih _

lemma crc32cModP_eq_iterate (a : ℕ) : crc32cModP a = (shiftStep castagnoliPoly)^[32] a := by
  rw [iterate_shiftStep_split, ← crcBits_eq_iterate]
  rfl

/-- The shifts of the long product are steps once it is reduced. -/
lemma iterate_crc32cMulLoop (a : ℕ) : ∀ n {v : ℕ}, 2 ^ n ∣ v →
    (shiftStep castagnoliPoly)^[32] (crc32cMulLoop a n v) =
      shiftMul castagnoliPoly a n ((shiftStep castagnoliPoly)^[32] v)
  | 0, _, _ => by
    rw [crc32cMulLoop, shiftMul]
    exact ((xorLinear_shiftStep castagnoliPoly).iterate 32).map_zero
  | n + 1, v, hv => by
    obtain ⟨u, rfl⟩ := hv
    have hhalf : 2 ^ (n + 1) * u / 2 = 2 ^ n * u := by
      rw [pow_succ', Nat.mul_assoc, Nat.mul_div_cancel_left _ two_pos]
    have hstep : shiftStep castagnoliPoly (2 ^ (n + 1) * u) = 2 ^ n * u := by
      rw [pow_succ', Nat.mul_assoc, shiftStep_two_mul]
    have hshift : shiftStep castagnoliPoly ((shiftStep castagnoliPoly)^[32] (2 ^ (n + 1) * u)) =
        (shiftStep castagnoliPoly)^[32] (2 ^ n * u) := by
      rw [← hstep]
      exact (Function.Commute.refl (shiftStep castagnoliPoly)).iterate_right 32 _
    have hlinear := (xorLinear_shiftStep castagnoliPoly).iterate 32
    change (shiftStep castagnoliPoly)^[32] ((if a.testBit n then _ else 0) ^^^ _) = _
    have hbit : (shiftStep castagnoliPoly)^[32] (if a.testBit n then 2 ^ (n + 1) * u else 0) =
        if a.testBit n then (shiftStep castagnoliPoly)^[32] (2 ^ (n + 1) * u) else 0 := by
      split
      · rfl
      · exact hlinear.map_zero
    rw [hlinear, hhalf, iterate_crc32cMulLoop a n (Dvd.intro u rfl), shiftMul, hshift, hbit]

lemma crc32cMulModP_eq (a b : ℕ) : crc32cMulModP a b = shiftMul castagnoliPoly a (31 + 1) b := by
  rw [crc32cMulModP, crc32cModP_eq_iterate, crc32cMul,
    iterate_crc32cMulLoop a 32 (Dvd.intro_left b rfl), iterate_shiftStep_mul]

/-! ## The tables -/

/-- Each entry of a table is the square of the one before. -/
def SquareTable (ps : List ℕ) : Prop :=
  ps.IsChain (fun p q => q = crc32cMulModP p p) ∧ ∀ p ∈ ps, p < 2 ^ (31 + 1)

/-- The loop over the bits of the exponent computes a power of the first entry. -/
lemma crc32cPowLoop_eq (p : ℕ) (ps : List ℕ) (htable : SquareTable (p :: ps)) {acc : ℕ}
    (hn : n < 2 ^ (p :: ps).length) (hacc : acc < 2 ^ (31 + 1)) :
    crc32cPowLoop (p :: ps) n acc = (shiftMul castagnoliPoly p (31 + 1))^[n] acc := by
  induction ps generalizing p n acc with
  | nil =>
    have hp : p < 2 ^ (31 + 1) := htable.2 p mem_cons_self
    obtain rfl | rfl : n = 0 ∨ n = 1 := by simp only [length_singleton] at hn; omega
    · rfl
    · change crc32cMulModP acc p = _
      rw [crc32cMulModP_eq, shiftMul_comm hacc hp]
      rfl
  | cons q qs ih =>
    obtain ⟨hchain, hlt⟩ := htable
    have hp : p < 2 ^ (31 + 1) := hlt p mem_cons_self
    have hq : q = shiftMul castagnoliPoly p (31 + 1) p := by
      rw [← crc32cMulModP_eq]
      exact (isChain_cons_cons.mp hchain).1
    have htail : SquareTable (q :: qs) :=
      ⟨(isChain_cons_cons.mp hchain).2, fun r hr => hlt r (mem_cons_of_mem p hr)⟩
    -- two multiplications by `p` are one by its square
    have hsquare : ∀ k {c : ℕ}, c < 2 ^ (31 + 1) → (shiftMul castagnoliPoly q (31 + 1))^[k] c =
          (shiftMul castagnoliPoly p (31 + 1))^[2 * k] c := by
      intro k
      induction k with
      | zero => intro c _; rfl
      | succ k ihk =>
        intro c hc
        have hc' := shiftMul_lt castagnoliPoly_lt p (31 + 1) hc
        rw [Function.iterate_succ_apply, Nat.mul_succ, Function.iterate_add_apply, hq,
          shiftMul_assoc castagnoliPoly_lt hp hc, ← hq,
          ihk (shiftMul_lt castagnoliPoly_lt p (31 + 1) hc')]
        rfl
    have hhalf : n / 2 < 2 ^ (q :: qs).length := by
      rw [length_cons, pow_succ] at hn
      omega
    by_cases hzero : n = 0
    · subst hzero; rfl
    rw [crc32cPowLoop, if_neg hzero]
    by_cases hodd : n % 2 = 1
    · have hstep : crc32cMulModP acc p = shiftMul castagnoliPoly p (31 + 1) acc := by
        rw [crc32cMulModP_eq, shiftMul_comm hacc hp]
      have hlt' := shiftMul_lt castagnoliPoly_lt p (31 + 1) hacc
      rw [if_pos hodd, hstep, ih q htail hhalf hlt', hsquare _ hlt', ← Function.iterate_succ_apply,
        show (2 * (n / 2)).succ = n by omega]
    · rw [if_neg hodd, ih q htail hhalf hacc, hsquare _ hacc, show 2 * (n / 2) = n by omega]

lemma squareTable_crcPowerTable : SquareTable crcPowerTable := by
  constructor <;> decide +kernel

lemma squareTable_crcInversePowerTable : SquareTable crcInversePowerTable := by
  constructor <;> decide +kernel

/-- Multiplication by a computed power is the power of the permutation that the first entry of
the table stands for. -/
lemma crc32cMulModP_powLoop {p : ℕ} {ps : List ℕ} (htable : SquareTable (p :: ps))
    {τ : Equiv.Perm (Fin (2 ^ (31 + 1)))}
    (hp : ∀ c : Fin (2 ^ (31 + 1)), shiftMul castagnoliPoly p (31 + 1) c = τ c)
    (hn : n < 2 ^ (p :: ps).length) (c : Fin (2 ^ (31 + 1))) :
    crc32cMulModP c (crc32cPowLoop (p :: ps) n (2 ^ 31)) = (τ ^ n) c := by
  have hcomm : Function.Commute (shiftMul castagnoliPoly c (31 + 1))
      (shiftMul castagnoliPoly p (31 + 1)) := fun b => shiftMul_left_comm _ _ _ b
  have hiter : ∀ k, (shiftMul castagnoliPoly p (31 + 1))^[k] c = (τ ^ k) c := by
    intro k
    induction k with
    | zero => rfl
    | succ k ih =>
      have hsucc : τ ^ (k + 1) = τ * τ ^ k := pow_succ' τ k
      rw [Function.iterate_succ_apply', ih, hp, hsucc, Equiv.Perm.mul_apply]
  rw [crc32cMulModP_eq, crc32cPowLoop_eq p ps htable hn (by decide), hcomm.iterate_right,
    shiftMul_one_of_lt c.isLt, hiter]

lemma crc32cMulModP_xPowN (hn : n < 2 ^ 64) (c : Fin (2 ^ (31 + 1))) :
    crc32cMulModP c (crc32cXPowN n) = ((crcPerm ^ 8) ^ n) c := by
  refine crc32cMulModP_powLoop squareTable_crcPowerTable ?_ hn c
  intro b
  rw [crcPerm, shiftPerm_pow_apply]
  exact shiftMul_iterate_one (w := 31) castagnoliPoly_lt 8 b.isLt

lemma crc32cMulModP_xPowNegN (hn : n < 2 ^ 64) (c : Fin (2 ^ (31 + 1))) :
    crc32cMulModP c (crc32cXPowNegN n) = ((crcPerm ^ 8)⁻¹ ^ n) c := by
  refine crc32cMulModP_powLoop squareTable_crcInversePowerTable ?_ hn c
  intro b
  -- the first entry times eight steps is one
  have hinv : shiftMul castagnoliPoly 0x00800000 (31 + 1) 0xfde39562 = 2 ^ 31 := by decide +kernel
  have hlt : shiftMul castagnoliPoly 0xfde39562 (31 + 1) b < 2 ^ (31 + 1) :=
    shiftMul_lt castagnoliPoly_lt _ _ b.isLt
  have hback : (crcPerm ^ 8) ⟨_, hlt⟩ = b := by
    apply Fin.ext
    rw [crcPerm, shiftPerm_pow_apply, ← shiftMul_iterate_one (w := 31) castagnoliPoly_lt 8 hlt]
    change shiftMul castagnoliPoly 0x00800000 (31 + 1) _ = _
    rw [← shiftMul_assoc castagnoliPoly_lt (by decide) b.isLt, hinv,
      shiftMul_comm (by decide) b.isLt, shiftMul_one_of_lt b.isLt]
  rw [← Equiv.Perm.eq_inv_iff_eq.mpr hback]

/-! ## Zero-extension -/

lemma notU32_lt {c : ℕ} (hc : c < 2 ^ 32) : notU32 c < 2 ^ (31 + 1) :=
  Nat.xor_lt_two_pow hc (by decide)

@[simp] lemma notU32_notU32 (c : ℕ) : notU32 (notU32 c) = c := by
  change c ^^^ _ ^^^ _ = c
  rw [Nat.xor_assoc, Nat.xor_self, Nat.xor_zero]

lemma notU32_injective : Function.Injective notU32 :=
  Function.LeftInverse.injective notU32_notU32

/-- The register of a checksum. -/
def crcRegister (crc : Fin (2 ^ 32)) : Fin (2 ^ (31 + 1)) := ⟨notU32 crc, notU32_lt crc.isLt⟩

/-- Zero-extension, on lengths of either sign, is a power of eight steps of the register. -/
theorem crc32cZeroExtend_eq (crc : Fin (2 ^ 32)) {zeros : ℤ} (hlt : zeros.natAbs < 2 ^ 64) :
    crc32cZeroExtend crc zeros = notU32 (((crcPerm ^ 8) ^ zeros) (crcRegister crc)) := by
  obtain ⟨n, rfl | rfl⟩ := zeros.eq_nat_or_neg
  · rw [Int.natAbs_natCast] at hlt
    rw [zpow_natCast, ← crc32cMulModP_xPowN hlt, crc32cZeroExtend, Int.toNat_natCast]
    split
    · rfl
    next h =>
    obtain rfl : n = 0 := by omega
    have hone : crc32cXPowN 0 = crc32cXPowNegN 0 := by decide
    rw [hone]
    rfl
  · rw [Int.natAbs_neg, Int.natAbs_natCast] at hlt
    rw [zpow_neg, zpow_natCast, ← inv_pow, ← crc32cMulModP_xPowNegN hlt, crc32cZeroExtend,
      if_neg (by omega), neg_neg, Int.toNat_natCast]
    rfl

/-- The register after a buffer. -/
def crcFold (reg : ℕ) (buf : Bytes) : ℕ := buf.foldl (fun crc b => crcBits 8 (Nat.xor crc b)) reg

lemma crcFold_lt (hbuf : ∀ b ∈ buf, b < 2 ^ 8) {reg : ℕ} (hreg : reg < 2 ^ (31 + 1)) :
    crcFold reg buf < 2 ^ (31 + 1) := by
  induction buf generalizing reg with
  | nil => exact hreg
  | cons b buf ih =>
    rw [forall_mem_cons] at hbuf
    have hxor : Nat.xor reg b < 2 ^ (31 + 1) :=
      Nat.xor_lt_two_pow hreg (hbuf.1.trans (by decide))
    refine ih hbuf.2 ?_
    change crcBits 8 (Nat.xor reg b) < _
    rw [crcBits_eq_iterate, ← shiftMul_iterate_one (w := 31) castagnoliPoly_lt 8 hxor]
    exact shiftMul_lt castagnoliPoly_lt _ _ hxor

/-- What `n` zero bytes do to the register. -/
def zeroBytes (n : ℕ) : ℕ → ℕ := (shiftStep castagnoliPoly)^[8 * n]

lemma xorLinear_zeroBytes (n : ℕ) : XorLinear (zeroBytes n) :=
  (xorLinear_shiftStep castagnoliPoly).iterate _

lemma zeroBytes_succ (n reg : ℕ) : zeroBytes (n + 1) reg = zeroBytes n (crcBits 8 reg) := by
  rw [crcBits_eq_iterate, zeroBytes, Nat.mul_succ, Function.iterate_add_apply]
  rfl

lemma crcFold_zeros (reg n : ℕ) : crcFold reg (replicate n 0) = zeroBytes n reg := by
  induction n generalizing reg with
  | zero => rfl
  | succ n ih =>
    rw [zeroBytes_succ, ← ih]
    exact congrArg (fun reg => crcFold (crcBits 8 reg) (replicate n 0)) (Nat.xor_zero reg)

lemma crcPerm_pow_zeroBytes (n : ℕ) (reg : Fin (2 ^ (31 + 1))) :
    (((crcPerm ^ 8) ^ n) reg : ℕ) = zeroBytes n reg := by
  rw [← pow_mul, crcPerm, shiftPerm_pow_apply]
  rfl

/-- The checksum of a buffer with zero bytes after it. -/
theorem crc32c_append_zeros (hbuf : ∀ b ∈ buf, b < 2 ^ 8) (hn : n < 2 ^ 64) :
    crc32c 0 (buf ++ replicate n 0) = crc32cZeroExtend (crc32c 0 buf) n := by
  have hlt : crcFold (notU32 0) buf < 2 ^ (31 + 1) := crcFold_lt hbuf (by decide)
  have hcrc : crc32c 0 buf < 2 ^ 32 := notU32_lt hlt
  have hregister : crcRegister ⟨crc32c 0 buf, hcrc⟩ = ⟨crcFold (notU32 0) buf, hlt⟩ :=
    Fin.ext (notU32_notU32 _)
  have hextend : crc32cZeroExtend (crc32c 0 buf) (n : ℤ) = _ :=
    crc32cZeroExtend_eq ⟨crc32c 0 buf, hcrc⟩ (by simpa using hn)
  rw [hextend, hregister, zpow_natCast, crcPerm_pow_zeroBytes, ← crcFold_zeros, crc32c,
    foldl_append]
  rfl

/-- Cutting off the zero bytes gives the checksum of the buffer back. -/
lemma crc32cZeroExtend_neg (hbuf : ∀ b ∈ buf, b < 2 ^ 8) (hn : n < 2 ^ 64) :
    crc32cZeroExtend (crc32c 0 (buf ++ replicate n 0)) (-n) = crc32c 0 buf := by
  have hcrc : crc32c 0 buf < 2 ^ 32 := notU32_lt (crcFold_lt hbuf (by decide))
  set σ := crcPerm ^ 8
  set reg := crcRegister ⟨crc32c 0 buf, hcrc⟩ with hreg
  -- the register of the longer buffer is that of the buffer, moved on
  have hextend : crc32c 0 (buf ++ replicate n 0) = notU32 ((σ ^ (n : ℤ)) reg) := by
    rw [crc32c_append_zeros hbuf hn]
    exact crc32cZeroExtend_eq ⟨crc32c 0 buf, hcrc⟩ (by simpa using hn)
  have hlong : crc32c 0 (buf ++ replicate n 0) < 2 ^ 32 := hextend ▸ notU32_lt (Fin.isLt _)
  have hregister : crcRegister ⟨_, hlong⟩ = (σ ^ (n : ℤ)) reg := by
    apply Fin.ext
    exact (congrArg notU32 hextend).trans (notU32_notU32 _)
  have hback : crc32cZeroExtend (crc32c 0 (buf ++ replicate n 0)) (-n : ℤ) = _ :=
    crc32cZeroExtend_eq ⟨_, hlong⟩ (by simpa using hn)
  rw [hback, hregister, ← Equiv.Perm.mul_apply, ← zpow_add, neg_add_cancel, zpow_zero, hreg]
  exact notU32_notU32 _

/-! ## Concatenation and exclusive or -/

lemma crc32cMulModP_zeroBytes {c : ℕ} (hn : n < 2 ^ 64) (hc : c < 2 ^ (31 + 1)) :
    crc32cMulModP c (crc32cXPowN n) = zeroBytes n c := by
  have hmul : crc32cMulModP c (crc32cXPowN n) = (((crcPerm ^ 8) ^ n) ⟨c, hc⟩ : ℕ) :=
    crc32cMulModP_xPowN hn ⟨c, hc⟩
  rw [hmul, crcPerm_pow_zeroBytes]

/-- The register is linear in its start and the buffer together. -/
lemma crcFold_xor {a b : Bytes} (h : a.length = b.length) (reg reg' : ℕ) :
    crcFold (reg ^^^ reg') (zipWith Nat.xor a b) = crcFold reg a ^^^ crcFold reg' b := by
  induction a generalizing b reg reg' with
  | nil =>
    obtain rfl : b = [] := length_eq_zero_iff.mp h.symm
    rfl
  | cons x a ih =>
    obtain ⟨y, b, rfl⟩ := exists_cons_of_length_eq_add_one h.symm
    have hbyte : crcBits 8 (reg ^^^ reg' ^^^ (x ^^^ y)) =
        crcBits 8 (reg ^^^ x) ^^^ crcBits 8 (reg' ^^^ y) := by
      rw [Nat.xor_assoc, Nat.xor_left_comm reg', ← Nat.xor_assoc, crcBits_eq_iterate,
        crcBits_eq_iterate, crcBits_eq_iterate]
      exact (xorLinear_shiftStep castagnoliPoly).iterate 8 _ _
    exact (congrArg (fun reg => crcFold reg _) hbyte).trans (ih (by simpa using h) _ _)

/-- The register after a buffer, split into the part of its start and that of the buffer. -/
lemma crcFold_eq (reg : ℕ) (buf : Bytes) :
    crcFold reg buf = zeroBytes buf.length reg ^^^ crcFold 0 buf := by
  have hzeros : zipWith Nat.xor (replicate buf.length 0) buf = buf := by
    induction buf with
    | nil => rfl
    | cons x buf ih => exact congrArg₂ cons (Nat.zero_xor x) ih
  have hsplit := crcFold_xor (length_replicate (n := buf.length) (a := 0)) reg 0
  rwa [hzeros, Nat.xor_zero, crcFold_zeros] at hsplit

lemma xor_cancel (a b c : ℕ) : (a ^^^ b) ^^^ (b ^^^ c) = a ^^^ c := by
  rw [Nat.xor_assoc, ← Nat.xor_assoc b, Nat.xor_self, Nat.zero_xor]

lemma crc32c_eq (buf : Bytes) : crc32c 0 buf = crcFold (notU32 0) buf ^^^ (2 ^ 32 - 1) := rfl

lemma crc32c_append {a b : Bytes} (ha : ∀ x ∈ a, x < 2 ^ 8) (hlen : b.length < 2 ^ 64) :
    crc32cAppend (crc32c 0 a) (crc32c 0 b) b.length = crc32c 0 (a ++ b) := by
  have hlt : crc32c 0 a < 2 ^ (31 + 1) := notU32_lt (crcFold_lt ha (by decide))
  have happend : crcFold (notU32 0) (a ++ b) = crcFold (crcFold (notU32 0) a) b :=
    foldl_append
  have hones : notU32 0 = 2 ^ 32 - 1 := rfl
  change crc32cMulModP (crc32c 0 a) (crc32cXPowN b.length) ^^^ crc32c 0 b = _
  rw [crc32cMulModP_zeroBytes hlen hlt, crc32c_eq a, crc32c_eq b, crc32c_eq (a ++ b), happend,
    xorLinear_zeroBytes, crcFold_eq _ b, crcFold_eq (crcFold (notU32 0) a) b, hones,
    Nat.xor_assoc (zeroBytes _ (2 ^ 32 - 1)), xor_cancel, Nat.xor_assoc]

/-- **The algebra of checksums.** The checksum of a concatenation, of an exclusive or and of a
buffer with zero bytes after it, or with its last zero bytes cut off, are computed from the
checksums of the parts and their lengths. -/
theorem crc32c_laws {a b : Bytes} (ha : ∀ x ∈ a, x < 2 ^ 8) {n : ℕ} (hlen : b.length < 2 ^ 63)
    (hn : n < 2 ^ 63) :
    crc32cAppend (crc32c 0 a) (crc32c 0 b) b.length = crc32c 0 (a ++ b) ∧
    (a.length = b.length →
      crc32cXor (crc32c 0 a) (crc32c 0 b) a.length = crc32c 0 (zipWith Nat.xor a b)) ∧
    crc32cZeroExtend (crc32c 0 a) n = crc32c 0 (a ++ replicate n 0) ∧
    crc32cZeroExtend (crc32c 0 (a ++ replicate n 0)) (-n) = crc32c 0 a := by
  have hones : notU32 0 = 2 ^ 32 - 1 := rfl
  refine ⟨crc32c_append ha (by omega), fun h => ?_, (crc32c_append_zeros ha (by omega)).symm,
    crc32cZeroExtend_neg ha (by omega)⟩
  · have hxor := crcFold_xor h (notU32 0) 0
    rw [Nat.xor_zero] at hxor
    change crc32c 0 a ^^^ crc32c 0 b ^^^
      (crc32cMulModP (2 ^ 32 - 1) (crc32cXPowN a.length) ^^^ (2 ^ 32 - 1)) = _
    rw [crc32cMulModP_zeroBytes (by omega) (by decide), crc32c_eq a, crc32c_eq b,
      crc32c_eq (zipWith _ a b), hxor, crcFold_eq _ b, ← h, hones, Nat.xor_assoc (crcFold _ a ^^^ _),
      Nat.xor_comm (zeroBytes _ _) (2 ^ 32 - 1), xor_cancel, Nat.xor_comm (zeroBytes _ _),
      Nat.xor_assoc (crcFold 0 b), Nat.xor_self, Nat.xor_zero, Nat.xor_assoc, Nat.xor_assoc,
      Nat.xor_comm (2 ^ 32 - 1)]

theorem crc32c_laws_bytes : crc32cAppend (crc32c 0 [1]) (crc32c 0 [2]) 1 = crc32c 0 [1, 2] ∧
    crc32cXor (crc32c 0 [1]) (crc32c 0 [2]) 1 = crc32c 0 [3] ∧
    crc32cZeroExtend (crc32c 0 [1]) 1 = crc32c 0 [1, 0] ∧
    crc32cZeroExtend (crc32c 0 [1, 0]) (-1) = crc32c 0 [1] := by
  obtain ⟨happend, hxor, hextend, hcut⟩ :=
    crc32c_laws (a := [1]) (b := [2]) (n := 1) (by decide) (by decide) (by decide)
  exact ⟨happend, hxor rfl, hextend, hcut⟩

/-! ## Fixed points -/

/-- The step has the period `2 ^ 31 - 1`: the modulus is the product of `x + 1` and a primitive
polynomial of degree 31. -/
lemma crcPerm_pow_period : crcPerm ^ (2 ^ 31 - 1) = 1 := by
  have htable : crc32cXPowN (2 ^ 28) = shiftStep castagnoliPoly (2 ^ 31) := by decide +kernel
  have hone : ((crcPerm ^ 8) ^ 2 ^ 28) ⟨2 ^ 31, by decide⟩ = crcPerm ⟨2 ^ 31, by decide⟩ := by
    apply Fin.ext
    rw [← crc32cMulModP_xPowN (by decide), htable]
    decide +kernel
  have hpow : crcPerm ((crcPerm ^ (2 ^ 31 - 1)) ⟨2 ^ 31, by decide⟩) =
      crcPerm ⟨2 ^ 31, by decide⟩ := by
    rw [← hone, ← Equiv.Perm.mul_apply, ← pow_succ', ← pow_mul]
    norm_num
  have hfixed := congrArg Fin.val (crcPerm.injective hpow)
  rw [crcPerm, shiftPerm_pow_apply] at hfixed
  exact shiftPerm_pow_eq_one hfixed

/-- The two checksums that zero bytes do not change. -/
def ZeroInvariant (crc : ℕ) : Prop := crc = 0xFFFFFFFF ∨ crc = 0x035BD250

/-- A step changes every register but two. -/
lemma shiftStep_eq_self_iff (c : ℕ) : shiftStep castagnoliPoly c = c ↔ c = 0 ∨ c = 0xFCA42DAF := by
  constructor
  · intro h
    have heven : ∀ {b : ℕ}, b % 2 ≠ 1 → shiftStep castagnoliPoly b = b → b = 0 := by
      intro b hb hfix
      rw [shiftStep, if_neg hb] at hfix
      omega
    by_cases hodd : c % 2 = 1
    · -- the sum of two odd registers that do not change is even and does not change
      have hsum : shiftStep castagnoliPoly (c ^^^ 0xFCA42DAF) = c ^^^ 0xFCA42DAF := by
        rw [xorLinear_shiftStep, h]
        rfl
      have hparity : (c ^^^ 0xFCA42DAF) % 2 ≠ 1 := by
        rw [Ne, Nat.xor_mod_two_eq_one]
        simp [hodd]
      exact .inr (Nat.xor_eq_zero_iff.mp (heven hparity hsum))
    · exact .inl (heven hodd h)
  · rintro (rfl | rfl) <;> decide

lemma crcPerm_eq_self_iff (crc : Fin (2 ^ 32)) :
    crcPerm (crcRegister crc) = crcRegister crc ↔ ZeroInvariant crc := by
  have hnot : ∀ b : ℕ, notU32 crc = b ↔ (crc : ℕ) = notU32 b := by
    intro b
    rw [← notU32_injective.eq_iff, notU32_notU32]
  rw [← Fin.val_inj, crcPerm, shiftPerm_apply, shiftStep_eq_self_iff]
  exact or_congr (hnot 0) (hnot 0xFCA42DAF)

/-- Two extensions of a checksum, whose lengths differ by a number coprime to the period, are
the same for the two invariant checksums only. -/
theorem crc32cZeroExtend_add_eq_iff (crc : Fin (2 ^ 32)) {zeros : ℤ} {m : ℕ}
    (hm : m.Coprime (2 ^ 31 - 1)) (hlt : zeros.natAbs < 2 ^ 64) (hlt' : (zeros + m).natAbs < 2 ^ 64) :
    crc32cZeroExtend crc (zeros + m) = crc32cZeroExtend crc zeros ↔ ZeroInvariant crc := by
  rw [crc32cZeroExtend_eq crc hlt, crc32cZeroExtend_eq crc hlt', notU32_injective.eq_iff,
    Fin.val_inj, zpow_add, Equiv.Perm.mul_apply, EmbeddingLike.apply_eq_iff_eq, zpow_natCast,
    ← pow_mul, ← crcPerm_eq_self_iff]
  constructor
  · intro h
    refine perm_fixed_of_coprime (Nat.Coprime.mul_left (by decide) hm) h ?_
    rw [crcPerm_pow_period]
    rfl
  · intro h
    exact Function.IsFixedPt.perm_pow h (8 * m)

end TernFS
