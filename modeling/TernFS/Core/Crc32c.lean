/-
# CRC-32C

The checksum arithmetic of `core/crc32c`: the checksum of a buffer, and how the checksum of
a concatenation, an exclusive or and a zero-extension is computed from the checksums of the
parts.  The processor's `crc32` instruction is written as its bit-serial definition.
-/
import TernFS.Core.Msgs

namespace TernFS

/-- `CASTAGNOLI_POLY`. -/
def castagnoliPoly : ℕ := 0x82F63B78

/-- One bit of the `crc32` instruction. -/
def crcBitStep (crc : ℕ) : ℕ :=
  if crc % 2 = 1 then Nat.xor (crc / 2) castagnoliPoly else crc / 2

/-- `n` bits of the `crc32` instruction. -/
def crcBits : ℕ → ℕ → ℕ
  | 0, crc => crc
  | n + 1, crc => crcBits n (crcBitStep crc)

/-- Bitwise complement of a 32-bit word. -/
def notU32 (x : ℕ) : ℕ := Nat.xor x (2 ^ 32 - 1)

/-- `crc32c`, byte after byte (`_mm_crc32_u8`; the wider instructions are several bytes at
once). -/
def crc32c (crc : ℕ) (buf : Bytes) : ℕ :=
  notU32 (buf.foldl (fun crc b => crcBits 8 (Nat.xor crc b)) (notU32 crc))

/-- The loop of `crc32c_mul`: add `b` shifted by the position of each bit of `a`, from the
most significant one. -/
def crc32cMulLoop (a : ℕ) : ℕ → ℕ → ℕ
  | 0, _ => 0
  | n + 1, b =>
    Nat.xor (if a.testBit n then b else 0) (crc32cMulLoop a n (b / 2))

/-- `crc32c_mul`: the product of two polynomials, without reduction. -/
def crc32cMul (a b : ℕ) : ℕ := crc32cMulLoop a 32 (b * 2 ^ 32)

/-- `crc32c_mod_p`. -/
def crc32cModP (a : ℕ) : ℕ := Nat.xor (crcBits 32 (a % 2 ^ 32)) (a / 2 ^ 32)

/-- `crc32c_mul_mod_p`. -/
def crc32cMulModP (a b : ℕ) : ℕ := crc32cModP (crc32cMul a b)

/-- `CRC_POWER_TABLE`: `x ^ 2 ^ 3, x ^ 2 ^ 4, ...`. -/
def crcPowerTable : List ℕ :=
  [ 0x00800000, 0x00008000, 0x82f63b78, 0x6ea2d55c, 0x18b8ea18, 0x510ac59a, 0xb82be955,
    0xb8fdb1e7, 0x88e56f72, 0x74c360a4, 0xe4172b16, 0x0d65762a, 0x35d73a62, 0x28461564,
    0xbf455269, 0xe2ea32dc, 0xfe7740e6, 0xf946610b, 0x3c204f8f, 0x538586e3, 0x59726915,
    0x734d5309, 0xbc1ac763, 0x7d0722cc, 0xd289cabe, 0xe94ca9bc, 0x05b74f3f, 0xa51e1f42,
    0x40000000, 0x20000000, 0x08000000, 0x00800000, 0x00008000, 0x82f63b78, 0x6ea2d55c,
    0x18b8ea18, 0x510ac59a, 0xb82be955, 0xb8fdb1e7, 0x88e56f72, 0x74c360a4, 0xe4172b16,
    0x0d65762a, 0x35d73a62, 0x28461564, 0xbf455269, 0xe2ea32dc, 0xfe7740e6, 0xf946610b,
    0x3c204f8f, 0x538586e3, 0x59726915, 0x734d5309, 0xbc1ac763, 0x7d0722cc, 0xd289cabe,
    0xe94ca9bc, 0x05b74f3f, 0xa51e1f42, 0x40000000, 0x20000000, 0x08000000, 0x00800000,
    0x00008000]

/-- `CRC_INVERSE_POWER_TABLE`: the inverses of the entries of `crcPowerTable`. -/
def crcInversePowerTable : List ℕ :=
  [ 0xfde39562, 0xbef0965e, 0xd610d67e, 0xe67cce65, 0xa268b79e, 0x134fb088, 0x32998d96,
    0xcedac2cc, 0x70118575, 0x0e004a40, 0xa7864c8b, 0xbc7be916, 0x10ba2894, 0x6077197b,
    0x98448e4e, 0x8baf845d, 0xe93e07fc, 0xf58027d7, 0x5e2b422d, 0x9db2851c, 0x9270ed25,
    0x5984e7b3, 0x7af026f1, 0xe0f4116b, 0xace8a6b0, 0x9e09f006, 0x6a60ea71, 0x4fd04875,
    0x05ec76f1, 0x0bd8ede2, 0x2f63b788, 0xfde39562, 0xbef0965e, 0xd610d67e, 0xe67cce65,
    0xa268b79e, 0x134fb088, 0x32998d96, 0xcedac2cc, 0x70118575, 0x0e004a40, 0xa7864c8b,
    0xbc7be916, 0x10ba2894, 0x6077197b, 0x98448e4e, 0x8baf845d, 0xe93e07fc, 0xf58027d7,
    0x5e2b422d, 0x9db2851c, 0x9270ed25, 0x5984e7b3, 0x7af026f1, 0xe0f4116b, 0xace8a6b0,
    0x9e09f006, 0x6a60ea71, 0x4fd04875, 0x05ec76f1, 0x0bd8ede2, 0x2f63b788, 0xfde39562,
    0xbef0965e]

/-- The loop of `crc32c_x_pow_n` and `crc32c_x_pow_neg_n`: multiply the table entries at the
one-bits of `n`. -/
def crc32cPowLoop : List ℕ → ℕ → ℕ → ℕ
  | [], _, acc => acc
  | p :: ps, n, acc =>
    if n = 0 then acc
    else crc32cPowLoop ps (n / 2) (if n % 2 = 1 then crc32cMulModP acc p else acc)

/-- `crc32c_x_pow_n`. -/
def crc32cXPowN (n : ℕ) : ℕ := crc32cPowLoop crcPowerTable n (2 ^ 31)

/-- `crc32c_x_pow_neg_n`. -/
def crc32cXPowNegN (n : ℕ) : ℕ := crc32cPowLoop crcInversePowerTable n (2 ^ 31)

/-- `crc32c_zero_extend`: append (or, for a negative count, cut off) zero bytes. -/
def crc32cZeroExtend (crc : ℕ) (zeros : ℤ) : ℕ :=
  if 0 < zeros then notU32 (crc32cMulModP (notU32 crc) (crc32cXPowN zeros.toNat))
  else notU32 (crc32cMulModP (notU32 crc) (crc32cXPowNegN (-zeros).toNat))

/-- `crc32c_append`. -/
def crc32cAppend (crcA crcB lenB : ℕ) : ℕ :=
  Nat.xor (crc32cMulModP crcA (crc32cXPowN lenB)) crcB

/-- `crc32c_xor`. -/
def crc32cXor (crcA crcB len : ℕ) : ℕ :=
  Nat.xor (Nat.xor crcA crcB) (notU32 (crc32cMulModP (2 ^ 32 - 1) (crc32cXPowN len)))

end TernFS
