/-
# Message authentication codes

The AES-128 CBC-MAC of `core/Crypto.cpp`.  The code is written with the AES instructions of
the processor; the functions below are what those instructions compute on the sixteen bytes
of a block, in memory order (byte `4 * c + r` is row `r` of column `c`).  A cookie and every
block certificate is such a MAC.
-/
import TernFS.Core.Msgs

namespace TernFS

/-- The substitution table of AES: rows by the high half of the byte, columns by the low half. -/
def sBox : List (List ℕ) :=
  [[0x63, 0x7c, 0x77, 0x7b, 0xf2, 0x6b, 0x6f, 0xc5, 0x30, 0x01, 0x67, 0x2b, 0xfe, 0xd7, 0xab, 0x76],
   [0xca, 0x82, 0xc9, 0x7d, 0xfa, 0x59, 0x47, 0xf0, 0xad, 0xd4, 0xa2, 0xaf, 0x9c, 0xa4, 0x72, 0xc0],
   [0xb7, 0xfd, 0x93, 0x26, 0x36, 0x3f, 0xf7, 0xcc, 0x34, 0xa5, 0xe5, 0xf1, 0x71, 0xd8, 0x31, 0x15],
   [0x04, 0xc7, 0x23, 0xc3, 0x18, 0x96, 0x05, 0x9a, 0x07, 0x12, 0x80, 0xe2, 0xeb, 0x27, 0xb2, 0x75],
   [0x09, 0x83, 0x2c, 0x1a, 0x1b, 0x6e, 0x5a, 0xa0, 0x52, 0x3b, 0xd6, 0xb3, 0x29, 0xe3, 0x2f, 0x84],
   [0x53, 0xd1, 0x00, 0xed, 0x20, 0xfc, 0xb1, 0x5b, 0x6a, 0xcb, 0xbe, 0x39, 0x4a, 0x4c, 0x58, 0xcf],
   [0xd0, 0xef, 0xaa, 0xfb, 0x43, 0x4d, 0x33, 0x85, 0x45, 0xf9, 0x02, 0x7f, 0x50, 0x3c, 0x9f, 0xa8],
   [0x51, 0xa3, 0x40, 0x8f, 0x92, 0x9d, 0x38, 0xf5, 0xbc, 0xb6, 0xda, 0x21, 0x10, 0xff, 0xf3, 0xd2],
   [0xcd, 0x0c, 0x13, 0xec, 0x5f, 0x97, 0x44, 0x17, 0xc4, 0xa7, 0x7e, 0x3d, 0x64, 0x5d, 0x19, 0x73],
   [0x60, 0x81, 0x4f, 0xdc, 0x22, 0x2a, 0x90, 0x88, 0x46, 0xee, 0xb8, 0x14, 0xde, 0x5e, 0x0b, 0xdb],
   [0xe0, 0x32, 0x3a, 0x0a, 0x49, 0x06, 0x24, 0x5c, 0xc2, 0xd3, 0xac, 0x62, 0x91, 0x95, 0xe4, 0x79],
   [0xe7, 0xc8, 0x37, 0x6d, 0x8d, 0xd5, 0x4e, 0xa9, 0x6c, 0x56, 0xf4, 0xea, 0x65, 0x7a, 0xae, 0x08],
   [0xba, 0x78, 0x25, 0x2e, 0x1c, 0xa6, 0xb4, 0xc6, 0xe8, 0xdd, 0x74, 0x1f, 0x4b, 0xbd, 0x8b, 0x8a],
   [0x70, 0x3e, 0xb5, 0x66, 0x48, 0x03, 0xf6, 0x0e, 0x61, 0x35, 0x57, 0xb9, 0x86, 0xc1, 0x1d, 0x9e],
   [0xe1, 0xf8, 0x98, 0x11, 0x69, 0xd9, 0x8e, 0x94, 0x9b, 0x1e, 0x87, 0xe9, 0xce, 0x55, 0x28, 0xdf],
   [0x8c, 0xa1, 0x89, 0x0d, 0xbf, 0xe6, 0x42, 0x68, 0x41, 0x99, 0x2d, 0x0f, 0xb0, 0x54, 0xbb, 0x16]]

/-- `SubBytes` on one byte. -/
def subByte (b : ℕ) : ℕ := (sBox.getD (b / 16) []).getD (b % 16) 0

/-- Multiplication by `x` in the field of AES. -/
def xtime (b : ℕ) : ℕ := if b < 128 then 2 * b else Nat.xor (2 * b % 256) 0x1b

/-- Bytewise exclusive or of two blocks (`_mm_xor_si128`). -/
def xorBlock (a b : Bytes) : Bytes := List.zipWith Nat.xor a b

/-- `ShiftRows`: row `r` moves `r` columns to the left. -/
def shiftRows : Bytes → Bytes
  | [a0, a1, a2, a3, b0, b1, b2, b3, c0, c1, c2, c3, d0, d1, d2, d3] =>
    [a0, b1, c2, d3, b0, c1, d2, a3, c0, d1, a2, b3, d0, a1, b2, c3]
  | s => s

/-- One byte of a column after `MixColumns`, from the column read from that byte on. -/
def mixByte (a b c d : ℕ) : ℕ :=
  Nat.xor (Nat.xor (xtime a) (Nat.xor (xtime b) b)) (Nat.xor c d)

/-- `MixColumns`. -/
def mixColumns : Bytes → Bytes
  | a :: b :: c :: d :: s =>
    mixByte a b c d :: mixByte b c d a :: mixByte c d a b :: mixByte d a b c :: mixColumns s
  | s => s

/-- `_mm_aesenc_si128`: one round. -/
def aesEnc (s key : Bytes) : Bytes := xorBlock (mixColumns ((shiftRows s).map subByte)) key

/-- `_mm_aesenclast_si128`: the last round, without `MixColumns`. -/
def aesEncLast (s key : Bytes) : Bytes := xorBlock ((shiftRows s).map subByte) key

/-- An expanded key: the eleven round keys. -/
structure AES128Key where
  /-- The round keys, in order. -/
  roundKeys : List Bytes
deriving DecidableEq

/-- `_mm_aeskeygenassist_si128` followed by the broadcast of its last word: the last word of
the round key, rotated and substituted, with the round constant added. -/
def keyGenAssist (key : Bytes) (rcon : ℕ) : Bytes :=
  match key.drop 12 with
  | [d0, d1, d2, d3] =>
    let w := [Nat.xor (subByte d1) rcon, subByte d2, subByte d3, subByte d0]
    w ++ w ++ w ++ w
  | _ => []

/-- `_mm_slli_si128` by one word. -/
def shiftWord (s : Bytes) : Bytes := ([0, 0, 0, 0] ++ s).take 16

/-- `aes128_assist`: each word of the new round key is the running sum of the old ones. -/
def aes128Assist (key assist : Bytes) : Bytes :=
  let shifted := shiftWord key
  let sum := xorBlock key shifted
  let shifted := shiftWord shifted
  let sum := xorBlock sum shifted
  let shifted := shiftWord shifted
  let sum := xorBlock sum shifted
  xorBlock sum assist

/-- The round keys that follow `key`, for the given round constants. -/
def roundKeysFrom (key : Bytes) : List ℕ → List Bytes
  | [] => [key]
  | rcon :: rcons => key :: roundKeysFrom (aes128Assist key (keyGenAssist key rcon)) rcons

/-- `expandKey`. -/
def expandKey (userKey : Bytes) : AES128Key :=
  ⟨roundKeysFrom userKey [0x1, 0x2, 0x4, 0x8, 0x10, 0x20, 0x40, 0x80, 0x1b, 0x36]⟩

/-- Encryption of one block: whitening, nine rounds and the last round. -/
def aes128Encrypt (key : AES128Key) (block : Bytes) : Bytes :=
  let whitened := xorBlock block (key.roundKeys.getD 0 [])
  let rounds := ((key.roundKeys.drop 1).take 9).foldl aesEnc whitened
  aesEncLast rounds (key.roundKeys.getD 10 [])

-- the example vector of the standard
example : aes128Encrypt
    (expandKey [0x2b, 0x7e, 0x15, 0x16, 0x28, 0xae, 0xd2, 0xa6, 0xab, 0xf7, 0x15, 0x88, 0x09, 0xcf,
      0x4f, 0x3c])
    [0x32, 0x43, 0xf6, 0xa8, 0x88, 0x5a, 0x30, 0x8d, 0x31, 0x31, 0x98, 0xa2, 0xe0, 0x37, 0x07,
      0x34] =
    [0x39, 0x25, 0x84, 0x1d, 0x02, 0xdc, 0x09, 0xfb, 0xdc, 0x11, 0x85, 0x97, 0x19, 0x6a, 0x0b,
      0x32] := by
  decide +kernel

/-- The chaining of `cbcmac` over the data, sixteen bytes at a time; the last block is padded
with zeros. -/
def cbcmacBlocks (key : AES128Key) (block : Bytes) : ℕ → Bytes → Bytes
  | 0, _ => block
  | n + 1, data =>
    let dataBlock := (data.take 16 ++ List.replicate 16 0).take 16
    cbcmacBlocks key (aes128Encrypt key (xorBlock block dataBlock)) n (data.drop 16)

/-- `cbcmac`: the first eight bytes of the CBC-MAC. -/
def cbcmac (key : AES128Key) (data : Bytes) : Bytes :=
  (cbcmacBlocks key (List.replicate 16 0) ((data.length + 15) / 16) data).take 8

/-- The bytes of a word, least significant first. -/
def leBytes : ℕ → ℕ → Bytes
  | 0, _ => []
  | n + 1, x => x % 256 :: leBytes n (x / 256)

/-- The bytes of a word, most significant first. -/
def beBytes (n x : ℕ) : Bytes := (leBytes n x).reverse

/-- The word with these bytes. -/
def beNat (b : Bytes) : ℕ := b.foldl (fun x d => x * 256 + d) 0

lemma beBytes_succ (n x : ℕ) : beBytes (n + 1) x = beBytes n (x / 256) ++ [x % 256] := by
  simp [beBytes, leBytes]

@[simp] lemma length_beBytes (n x : ℕ) : (beBytes n x).length = n := by
  induction n generalizing x with
  | zero => rfl
  | succ n ih => simp [beBytes_succ, ih]

lemma beNat_beBytes {n x : ℕ} (h : x < 256 ^ n) : beNat (beBytes n x) = x := by
  induction n generalizing x with
  | zero => exact (Nat.lt_one_iff.1 h).symm
  | succ n ih =>
    have hdiv := ih (Nat.div_lt_of_lt_mul (by rwa [Nat.pow_succ'] at h))
    rw [beNat] at hdiv
    rw [beBytes_succ, beNat, List.foldl_append, hdiv]
    exact Nat.div_add_mod' x 256

end TernFS
