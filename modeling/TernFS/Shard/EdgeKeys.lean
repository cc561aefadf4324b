/-
# Edge keys as bytes

The key of an edge in the database (`EdgeKey` in `shard/ShardDBData.hpp`) is a byte string, and
keys are compared byte by byte.  Words are stored with the most significant byte first, so the
directory, the flag and the hash come in their order.  The length of the name stands before the
name: a shorter name comes first, whatever its bytes are.

`InodeId::unpack` accepts ids with bit 63, which is not part of an id.  In a key it is shifted out
to make room for the flag, and in an `InodeIdExtra` it is the extra bit.
-/
import TernFS.Shard.DirectoryPages

namespace TernFS

open Lib List

/-! ## Byte order -/

/-- Strings whose first parts have the same length. -/
lemma append_lt_append_iff {a a' b b' : Bytes} (h : a.length = a'.length) :
    a ++ b < a' ++ b' ↔ a < a' ∨ a = a' ∧ b < b' := by
  induction a generalizing a' with
  | nil => simp [length_eq_zero_iff.1 h.symm]
  | cons x a ih =>
    cases a' with
    | nil => cases h
    | cons x' a' =>
      simp only [cons_append, cons_lt_cons_iff, ih (Nat.succ.inj h), cons.injEq]
      tauto

lemma beBytes_inj {n x y : ℕ} (hx : x < 256 ^ n) (hy : y < 256 ^ n) :
    beBytes n x = beBytes n y ↔ x = y :=
  ⟨fun h => by rw [← beNat_beBytes hx, h, beNat_beBytes hy], fun h => by rw [h]⟩

lemma beBytes_lt_iff {n x y : ℕ} (hx : x < 256 ^ n) (hy : y < 256 ^ n) :
    beBytes n x < beBytes n y ↔ x < y := by
  induction n generalizing x y with
  | zero => simp_all [beBytes, leBytes]
  | succ n ih =>
    have hx' : x / 256 < 256 ^ n := Nat.div_lt_of_lt_mul (by rwa [Nat.pow_succ'] at hx)
    have hy' : y / 256 < 256 ^ n := Nat.div_lt_of_lt_mul (by rwa [Nat.pow_succ'] at hy)
    rw [beBytes_succ, beBytes_succ, append_lt_append_iff (by simp), ih hx' hy', beBytes_inj hx' hy']
    simp only [cons_lt_cons_iff, not_lt_nil, and_false, or_false]
    omega

lemma InodeId.eq_iff {a b : InodeId} : a = b ↔ a.u64 = b.u64 := by
  cases a
  cases b
  simp

/-! ## Keys -/

namespace EdgeKey

/-- The fields fit the key, and a current edge has no time. -/
structure InRange (k : EdgeKey) : Prop where
  nameHash_lt : k.nameHash < 2 ^ 64
  length_lt : k.name.length < 2 ^ 8
  creationTime_lt : k.creationTime < 2 ^ 64
  creationTime_eq : k.current = true → k.creationTime = 0

/-- `setDirIdWithCurrent`: the word `(id.u64 << 1) | current`. -/
def dirIdWithCurrent (dirId : InodeId) (current : Bool) : ℕ :=
  dirId.u64 * 2 % 2 ^ 64 + current.toNat

/-- The bytes that the setters write. -/
def pack (dirId : InodeId) (k : EdgeKey) : Bytes :=
  beBytes 8 (dirIdWithCurrent dirId k.current) ++ (beBytes 8 k.nameHash ++ k.name.length ::
    (k.name ++ if k.current then [] else beBytes 8 k.creationTime))

/-- What the getters read.  `FromU64` asserts that the directory is valid. -/
def unpack (key : Bytes) : Checked (InodeId × EdgeKey) := do
  let word := beNat (key.take 8)
  assert (InodeId.Valid ⟨word / 2⟩)
  let current := word % 2 == 1
  let nameHash := beNat ((key.drop 8).take 8)
  let named := (key.drop 8).drop 8
  let size := named.headD 0
  let creationTime := if current then 0 else beNat ((named.tail.drop size).take 8)
  return (⟨word / 2⟩, ⟨current, nameHash, named.tail.take size, creationTime⟩)

/-- The order of directory, currentness, hash, name and time. -/
def fields (dirId : InodeId) (k : EdgeKey) : InodeId ×ₗ Bool ×ₗ ℕ ×ₗ Bytes ×ₗ ℕ :=
  toLex (dirId, toLex (k.current, toLex (k.nameHash, toLex (k.name, k.creationTime))))

variable {a b : InodeId} {k l : EdgeKey}

lemma dirIdWithCurrent_of_lt (ha : a.u64 < 2 ^ 63) (current : Bool) :
    dirIdWithCurrent a current = a.u64 * 2 + current.toNat := by
  rw [dirIdWithCurrent, Nat.mod_eq_of_lt (by omega)]

lemma dirIdWithCurrent_lt (a : InodeId) (current : Bool) :
    dirIdWithCurrent a current < 256 ^ 8 := by
  have hcurrent := current.toNat_lt
  simp only [dirIdWithCurrent]
  omega

lemma unpack_pack (ha : a.Valid) (hlt : a.u64 < 2 ^ 63) (hk : k.InRange) :
    unpack (pack a k) = .ok (a, k) := by
  have hword := dirIdWithCurrent_of_lt hlt k.current
  have hdiv : dirIdWithCurrent a k.current / 2 = a.u64 := by
    have hcurrent := k.current.toNat_lt
    omega
  have hcurrent : (dirIdWithCurrent a k.current % 2 == 1) = k.current := by
    rw [hword]
    cases k.current <;> simp [Nat.add_mod]
  have htime : (if k.current then 0 else beNat (take 8 (if k.current then [] else
      beBytes 8 k.creationTime))) = k.creationTime := by
    split
    · next h => exact (hk.creationTime_eq h).symm
    · rw [take_of_length_le (length_beBytes ..).le, beNat_beBytes hk.creationTime_lt]
  simpa [unpack, pack, take_left', drop_left', beNat_beBytes (dirIdWithCurrent_lt ..), hdiv,
    hcurrent, htime, beNat_beBytes (n := 8) hk.nameHash_lt] using ha

/-- Keys are in the order of directory, currentness, hash, length of the name, name and time. -/
lemma pack_lt_pack_iff (ha : a.u64 < 2 ^ 63) (hb : b.u64 < 2 ^ 63) (hk : k.InRange)
    (hl : l.InRange) : pack a k < pack b l ↔ a < b ∨ a = b ∧ k < l := by
  have hdir : dirIdWithCurrent a k.current < dirIdWithCurrent b l.current ↔
      a < b ∨ a = b ∧ k.current < l.current := by
    rw [dirIdWithCurrent_of_lt ha, dirIdWithCurrent_of_lt hb, InodeId.lt_def, InodeId.eq_iff]
    cases k.current <;> cases l.current <;> simp [Bool.lt_iff] <;> omega
  have hdir' : dirIdWithCurrent a k.current = dirIdWithCurrent b l.current ↔
      a = b ∧ k.current = l.current := by
    rw [dirIdWithCurrent_of_lt ha, dirIdWithCurrent_of_lt hb, InodeId.eq_iff]
    cases k.current <;> cases l.current <;> simp <;> omega
  have htime : k.current = l.current →
      ((if k.current then [] else beBytes 8 k.creationTime) <
        (if l.current then [] else beBytes 8 l.creationTime) ↔
      k.creationTime < l.creationTime) := by
    intro h
    rw [h]
    split
    · next hcurrent => simp [hk.creationTime_eq (h.trans hcurrent), hl.creationTime_eq hcurrent]
    · exact beBytes_lt_iff hk.creationTime_lt hl.creationTime_lt
  rw [pack, pack, append_lt_append_iff (by simp), append_lt_append_iff (by simp),
    cons_lt_cons_iff, beBytes_lt_iff (dirIdWithCurrent_lt ..) (dirIdWithCurrent_lt ..),
    beBytes_inj (dirIdWithCurrent_lt ..) (dirIdWithCurrent_lt ..),
    beBytes_lt_iff hk.nameHash_lt hl.nameHash_lt, beBytes_inj hk.nameHash_lt hl.nameHash_lt,
    EdgeKey.lt_iff, hdir, hdir', or_assoc, and_assoc, ← and_or_left]
  refine or_congr_right (and_congr_right fun _ => or_congr_right (and_congr_right fun hc => ?_))
  refine or_congr_right (and_congr_right fun _ => or_congr_right (and_congr_right fun hlen => ?_))
  rw [append_lt_append_iff hlen, htime hc]

/-- An id, with either extra bit and in a key, is read back. -/
def ReadBack (a : InodeId) (k : EdgeKey) : Prop :=
  (∀ x, (InodeIdExtra.of a x).id = a ∧ (InodeIdExtra.of a x).extra = x) ∧
  unpack (pack a k) = .ok (a, k)

/-- The encodings of two ids, with an extra bit and in keys, are read back and different, and in
the order of what they encode. -/
def Faithful (a b : InodeId) (k l : EdgeKey) : Prop :=
  ReadBack a k ∧ ReadBack b l ∧
  (∀ x y, InodeIdExtra.of a x = InodeIdExtra.of b y → a = b ∧ x = y) ∧
  (pack a k = pack b l → a = b ∧ k = l) ∧ (pack a k < pack b l ↔ fields a k < fields b l)

/-- A shorter name is also the smaller one. -/
def NamesAgree (m n : Bytes) : Prop :=
  (m.length < n.length → m < n) ∧ (n.length < m.length → n < m)

lemma readBack_iff (ha : a.Valid) (hk : k.InRange) : ReadBack a k ↔ a.u64 < 2 ^ 63 := by
  refine ⟨fun h => ?_, fun hlt => ⟨fun x => ?_, unpack_pack ha hlt hk⟩⟩
  · have hid := (InodeIdExtra.of a true).id_lt
    rwa [(h.1 true).1] at hid
  · exact ⟨InodeIdExtra.of_id_of_lt hlt x, InodeIdExtra.of_extra_of_lt hlt x⟩

/-- Of two names, the one with the smaller length byte comes first, as it should. -/
lemma namesAgree_iff {m n : Bytes} {p : Prop} :
    (m.length < n.length ∨ m.length = n.length ∧ (m < n ∨ m = n ∧ p) ↔ m < n ∨ m = n ∧ p) ↔
      NamesAgree m n := by
  have hne : m.length ≠ n.length → m ≠ n := fun h heq => h (congrArg length heq)
  constructor
  · refine fun h => ⟨fun hlt => ?_, fun hlt => ?_⟩
    · exact (h.1 (.inl hlt)).resolve_right fun heq => hne hlt.ne heq.1
    · refine ((lt_or_gt_of_ne (hne hlt.ne')).resolve_left fun hlt' => ?_)
      rcases h.2 (.inl hlt') with h' | h' <;> omega
  · intro ⟨hshort, hlong⟩
    rcases lt_trichotomy m.length n.length with hlt | heq | hlt
    · simp [hlt, hshort hlt]
    · simp [heq]
    · simp [hlt.not_gt, hlt.ne', hne hlt.ne', (hlong hlt).not_gt]

/-- The order of keys is that of the fields if the names of one hash agree with it. -/
lemma pack_lt_pack_iff_fields (ha : a.u64 < 2 ^ 63) (hb : b.u64 < 2 ^ 63) (hk : k.InRange)
    (hl : l.InRange) : (pack a k < pack b l ↔ fields a k < fields b l) ↔
      (a = b → k.current = l.current → k.nameHash = l.nameHash → NamesAgree k.name l.name) := by
  rw [pack_lt_pack_iff ha hb hk hl, EdgeKey.lt_iff]
  simp only [fields, Prod.Lex.toLex_lt_toLex]
  by_cases hsame : a = b ∧ k.current = l.current ∧ k.nameHash = l.nameHash
  · obtain ⟨hdir, hc, hhash⟩ := hsame
    simp [hdir, hc, hhash, namesAgree_iff]
  · -- the keys differ before the names
    refine iff_of_true (or_congr_right (and_congr_right fun hdir => or_congr_right
      (and_congr_right fun hc => or_congr_right (and_congr_right fun hhash => ?_))))
      fun hdir hc hhash => ?_
    · exact absurd ⟨hdir, hc, hhash⟩ hsame
    · exact absurd ⟨hdir, hc, hhash⟩ hsame

/-- **Encodings of ids.**  They are faithful if and only if the ids have no bit 63, and of two names
with the same hash in one directory a shorter one is also the smaller one. -/
theorem faithful_iff (ha : a.Valid) (hb : b.Valid) (hk : k.InRange) (hl : l.InRange) :
    Faithful a b k l ↔ a.u64 < 2 ^ 63 ∧ b.u64 < 2 ^ 63 ∧
      (a = b → k.current = l.current → k.nameHash = l.nameHash → NamesAgree k.name l.name) := by
  rw [Faithful, readBack_iff ha hk, readBack_iff hb hl]
  refine and_congr_right fun halt => and_congr_right fun hblt => ?_
  obtain ⟨hread, hpack⟩ := (readBack_iff ha hk).2 halt
  obtain ⟨hread', hpack'⟩ := (readBack_iff hb hl).2 hblt
  rw [pack_lt_pack_iff_fields halt hblt hk hl, ← and_assoc]
  refine and_iff_right ⟨fun x y h => ?_, fun h => ?_⟩
  · have hx := hread x
    rw [h] at hx
    exact ⟨hx.1.symm.trans (hread' y).1, hx.2.symm.trans (hread' y).2⟩
  · rw [h, hpack'] at hpack
    cases hpack
    exact ⟨rfl, rfl⟩

/-- The names `a` and `bb` with the same hash. -/
theorem faithful_iff_sample :
    Faithful .rootDir .rootDir ⟨true, 7, [97], 0⟩ ⟨true, 7, [98, 98], 0⟩ :=
  (faithful_iff (by decide) (by decide) ⟨by decide, by decide, by decide, by decide⟩
    ⟨by decide, by decide, by decide, by decide⟩).2
      ⟨by decide, by decide, fun _ _ _ => ⟨by decide, by decide⟩⟩

/-- The root directory with bit 63 is accepted, and has the key of the root directory.  And the name
`b` comes before `aa`. -/
theorem not_faithful : InodeId.Valid ⟨2 ^ 63 + 2 ^ 61⟩ ∧
    (∀ k, ¬ Faithful ⟨2 ^ 63 + 2 ^ 61⟩ .rootDir k k) ∧
    ¬ Faithful .rootDir .rootDir ⟨true, 7, [98], 0⟩ ⟨true, 7, [97, 97], 0⟩ :=
  ⟨by decide, fun _ h => absurd (h.2.2.2.1 rfl).1 (by decide),
    fun h => absurd (h.2.2.2.2.1 (by decide)) (by decide)⟩

end EdgeKey

end TernFS
