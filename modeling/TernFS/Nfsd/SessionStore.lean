/-
# Session files

The file of an NFSv4.1 session (`sessionstore/store.go`) has two record areas for each slot, which
are overwritten in turn.  A write may fail, or be cut short by the death of the process, with any
of its bytes on disk; what `Load` finds afterwards is compared with the history of the writes.
-/
import TernFS.Core.Crc32c
import TernFS.Core.Crypto
import TernFS.Lib.Run
import Mathlib.Data.List.GetD

namespace TernFS.SessionStore

open Lib

def headerAreaSize : ℕ := 4096

def recordFixedSize : ℕ := 4 + 4 + 1 + 1 + 2 + 32 + 4

def RecordOverhead : ℕ := recordFixedSize + 4

def recordMagic : Bytes := [78, 70, 83, 82]

def KindSlot : ℕ := 1

def KindIntent : ℕ := 2

/-- The layout that `Create` accepts, of a file whose offsets fit in 63 bits. -/
structure Header where
  SlotCount : ℕ
  AreaSize : ℕ
  SlotCount_pos : 0 < SlotCount
  AreaSize_ge : RecordOverhead ≤ AreaSize
  AreaSize_lt : AreaSize < 2 ^ 32
  size_lt : headerAreaSize + SlotCount * 2 * AreaSize < 2 ^ 63

structure Record where
  Seq : BitVec 32
  Kind : ℕ
  CacheThis : Bool
  Digest : Vector ℕ 32
  User : Bytes
  Payload : Bytes
deriving DecidableEq

/-- `SeqAfter`: the difference is a positive `int32`. -/
def SeqAfter (a b : BitVec 32) : Prop := 0 < (a - b).toInt

def newer (a b : Record) : Prop :=
  SeqAfter a.Seq b.Seq ∨ a.Seq = b.Seq ∧ a.Kind = KindSlot ∧ b.Kind = KindIntent

instance (a b : Record) : Decidable (newer a b) :=
  inferInstanceAs (Decidable ((0 : ℤ) < _ ∨ _ ∧ _ ∧ _))

lemma newer.asymm {a b : Record} (h : newer a b) : ¬newer b a := by
  simp only [newer, SeqAfter, KindSlot, KindIntent, BitVec.toInt_eq_toNat_cond,
    BitVec.toNat_sub, ← BitVec.toNat_inj] at h ⊢
  omega

/-! ## Records as bytes -/

open List

/-- `crc32.Checksum`, a word of 32 bits. -/
def checksum (b : Bytes) : ℕ := crc32c 0 b % 2 ^ 32

/-- The fields before the user. -/
def Record.fixed (r : Record) : Bytes :=
  recordMagic ++ beBytes 4 r.Seq.toNat ++ [r.Kind, if r.CacheThis then 1 else 0] ++
    beBytes 2 r.User.length ++ r.Digest.toList ++ beBytes 4 r.Payload.length

/-- The buffer that `Write` fills. -/
def Record.encode (r : Record) : Bytes :=
  let body := r.fixed ++ r.User ++ r.Payload
  body ++ beBytes 4 (checksum body)

/-- `ReadAt`, within the size that `Create` gives the file. -/
def readAt (data : ℕ → ℕ) (off n : ℕ) : Bytes := (range n).map fun i => data (off + i)

/-- The bytes of a buffer that `WriteAt` has brought to the file. -/
def writeAt (data : ℕ → ℕ) (off : ℕ) (buf : Bytes) (landed : ℕ → Bool) : ℕ → ℕ := fun i =>
  if off ≤ i ∧ landed (i - off) then buf.getD (i - off) (data i) else data i

/-- The end of `readArea`: the checksum, and the fields of the record. -/
def decode (userLen : ℕ) (buf : Bytes) : Option Record :=
  let body := buf.take (buf.length - 4)
  if checksum body ≠ beNat (buf.drop (buf.length - 4)) then none
  else
    some {
      Seq := .ofNat 32 (beNat ((buf.drop 4).take 4))
      Kind := buf.getD 8 0
      CacheThis := buf.getD 9 0 % 2 ≠ 0
      Digest := .ofFn fun i => buf.getD (12 + i) 0
      User := (buf.drop recordFixedSize).take userLen
      Payload := body.drop (recordFixedSize + userLen) }

namespace Header

variable (h : Header)

def areaOffset (slot : ℕ) (area : Bool) : ℕ :=
  headerAreaSize + (slot * 2 + area.toNat) * h.AreaSize

def readArea (data : ℕ → ℕ) (slot : ℕ) (area : Bool) : Option Record :=
  let off := h.areaOffset slot area
  let fixed := readAt data off recordFixedSize
  if fixed.take 4 ≠ recordMagic then none
  else
    let userLen := beNat ((fixed.drop 10).take 2)
    let payloadLen := beNat ((fixed.drop 44).take 4)
    let total := RecordOverhead + userLen + payloadLen
    if total > h.AreaSize then none else decode userLen (readAt data off total)

/-- The checks of `Write`: `ErrBadSlot`, `ErrTooLarge`. -/
def accepts (slot : ℕ) (rec : Record) : Prop :=
  slot < h.SlotCount ∧ RecordOverhead + rec.User.length + rec.Payload.length ≤ h.AreaSize ∧
    rec.User.length ≤ 0xffff

instance (slot : ℕ) (rec : Record) : Decidable (h.accepts slot rec) :=
  inferInstanceAs (Decidable (_ ∧ _ ∧ _))

end Header

/-! ## Files -/

structure SlotState where
  record : Record
  area : Bool

structure File where
  header : Header
  /-- The bytes on disk. -/
  data : ℕ → ℕ
  slots : ℕ → Option SlotState

/-- The loop of `open` for a slot. -/
def openSlot (h : Header) (data : ℕ → ℕ) (slot : ℕ) : Option SlotState :=
  [false, true].foldl (fun st area =>
    match h.readArea data slot area with
    | some rec => if st.all fun st => newer rec st.record then some ⟨rec, area⟩ else st
    | none => st) none

/-- The file that `Load` returns. -/
def File.load (h : Header) (data : ℕ → ℕ) : File := ⟨h, data, openSlot h data⟩

/-- The file that `Create` makes, with the bytes of the header. -/
def File.create (h : Header) (header : ℕ → ℕ) : File :=
  ⟨h, fun i => if i < headerAreaSize then header i else 0, fun _ => none⟩

/-- How `Write` ends, or that the process dies in it and another one calls `Load`. -/
inductive Outcome
  | ok | error | killed
deriving DecidableEq

/-- A call of `Write`, and which bytes of the record it has brought to the file. -/
structure Attempt where
  slot : ℕ
  record : Record
  landed : ℕ → Bool
  outcome : Outcome

/-- All bytes are in the file. -/
def Attempt.Complete (w : Attempt) : Prop := ∀ i < w.record.encode.length, w.landed i

instance (w : Attempt) : Decidable w.Complete := Nat.decidableBallLT _ _

namespace File

variable (f : File)

/-- The area that does not hold the newest record of the slot. -/
def target (slot : ℕ) : Bool :=
  match f.slots slot with
  | some newest => !newest.area
  | none => false

/-- The bytes on disk after a call. -/
def written (w : Attempt) : ℕ → ℕ :=
  writeAt f.data (f.header.areaOffset w.slot (f.target w.slot)) w.record.encode w.landed

/-- `Write`. -/
def write (w : Attempt) : File :=
  if f.header.accepts w.slot w.record then
    match w.outcome with
    | .ok =>
      { f with
        data := f.written w
        slots := Function.update f.slots w.slot (some ⟨w.record, f.target w.slot⟩) }
    | .error => { f with data := f.written w }
    | .killed => load f.header (f.written w)
  else f

end File

/-! ## Reading back -/

lemma Record.length_fixed (r : Record) : r.fixed.length = recordFixedSize := by
  simp [Record.fixed, beBytes, leBytes, recordMagic, recordFixedSize]

lemma Record.length_encode (r : Record) :
    r.encode.length = RecordOverhead + r.User.length + r.Payload.length := by
  simp only [Record.encode, length_append, r.length_fixed, RecordOverhead, beBytes, leBytes,
    length_reverse, length_cons, length_nil]
  omega

lemma Record.decode_encode (r : Record) : decode r.User.length r.encode = some r := by
  set body := r.fixed ++ r.User ++ r.Payload with hbody
  have hencode : r.encode = body ++ beBytes 4 (checksum body) := rfl
  have hlen : (body ++ beBytes 4 (checksum body)).length - 4 = body.length := by
    simp [beBytes, leBytes]
  have hcrc : beNat (beBytes 4 (checksum body)) = checksum body :=
    beNat_beBytes (Nat.mod_lt _ (by decide))
  have hseq : beNat (beBytes 4 r.Seq.toNat) = r.Seq.toNat := beNat_beBytes r.Seq.isLt
  have huser : r.encode.drop recordFixedSize = r.User ++ (r.Payload ++ beBytes 4 (checksum body)) := by
    simp only [hencode, hbody, append_assoc]
    exact drop_left' r.length_fixed
  have hpayload : body.drop (recordFixedSize + r.User.length) = r.Payload :=
    drop_left' (by rw [length_append, r.length_fixed])
  simp only [decode, huser, take_left]
  simp only [hencode, hlen, take_left, drop_left, hcrc, ne_eq, not_true_eq_false, if_false,
    Option.some.injEq, hpayload]
  -- the fields at fixed places
  obtain ⟨seq, kind, cacheThis, digest, user, payload⟩ := r
  simp only [hbody, Record.fixed, Record.mk.injEq, and_true]
  refine ⟨?_, ?_, ?_, ?_⟩
  · simpa [beBytes, leBytes, recordMagic] using congrArg (BitVec.ofNat 32) hseq
  · simp [beBytes, leBytes, recordMagic]
  · cases cacheThis <;> simp [beBytes, leBytes, recordMagic]
  · ext i hi
    have h12 : 12 + i = i + 12 := Nat.add_comm 12 i
    simp [beBytes, leBytes, recordMagic, h12, getElem?_append_left, hi]

section

variable {h : Header} {data data' : ℕ → ℕ} {off n slot slot' : ℕ} {area area' : Bool}
  {rec : Record} {landed : ℕ → Bool}

lemma readAt_congr (h : ∀ i < n, data (off + i) = data' (off + i)) :
    readAt data off n = readAt data' off n :=
  map_congr_left fun i hi => h i (mem_range.1 hi)

lemma readAt_eq_take {buf : Bytes} (hn : n ≤ buf.length)
    (h : ∀ i < buf.length, data (off + i) = buf.getD i 0) : readAt data off n = buf.take n := by
  refine ext_getElem (by simp [readAt, hn]) fun i hi hi' => ?_
  have hlt : i < buf.length := by
    simp only [length_take] at hi'
    omega
  simp [readAt, h i hlt, hlt]

/-- Nothing outside the area is read. -/
lemma readArea_congr
    (heq : ∀ i < h.AreaSize, data (h.areaOffset slot area + i) = data' (h.areaOffset slot area + i)) :
    h.readArea data slot area = h.readArea data' slot area := by
  have hread : ∀ n ≤ h.AreaSize, readAt data (h.areaOffset slot area) n =
      readAt data' (h.areaOffset slot area) n :=
    fun n hn => readAt_congr fun i hi => heq i (by omega)
  have hfixed := hread recordFixedSize (Nat.le_trans (Nat.le_add_right _ 4) h.AreaSize_ge)
  simp only [Header.readArea, hfixed]
  split
  · rfl
  split
  · rfl
  · rename_i htotal
    rw [hread _ (Nat.le_of_not_lt htotal)]

/-- A record that was written completely is read back. -/
lemma readArea_encode (hacc : h.accepts slot rec)
    (hdata : ∀ i < rec.encode.length, data (h.areaOffset slot area + i) = rec.encode.getD i 0) :
    h.readArea data slot area = some rec := by
  obtain ⟨-, hsize, huser⟩ := hacc
  have hread : ∀ n ≤ rec.encode.length, readAt data (h.areaOffset slot area) n =
      rec.encode.take n := fun n hn => readAt_eq_take hn hdata
  have hpayload : rec.Payload.length < 2 ^ 32 := by
    have := h.AreaSize_lt
    omega
  have hfixed : rec.encode.take recordFixedSize = rec.fixed := by
    simp only [Record.encode, append_assoc]
    exact take_left' rec.length_fixed
  have hlen := rec.length_encode
  have huserLen : beNat ((rec.fixed.drop 10).take 2) = rec.User.length := by
    simpa [Record.fixed, beBytes, leBytes, recordMagic] using
      beNat_beBytes (n := 2) (Nat.lt_succ_of_le huser)
  have hpayloadLen : beNat ((rec.fixed.drop 44).take 4) = rec.Payload.length := by
    simpa [Record.fixed, beBytes, leBytes, recordMagic] using beNat_beBytes (n := 4) hpayload
  have hmagic : rec.fixed.take 4 = recordMagic := by
    simp [Record.fixed, beBytes, leBytes, recordMagic]
  simp only [Header.readArea, hread recordFixedSize (by rw [hlen, RecordOverhead]; omega), hfixed,
    hmagic, huserLen, hpayloadLen, ne_eq, not_true_eq_false, if_false,
    ← hlen, hread _ le_rfl, take_length, rec.decode_encode]
  exact if_neg (by omega)

/-! ## Writing -/

lemma writeAt_eq_self {buf : Bytes} {i : ℕ}
    (hi : off ≤ i → i - off < buf.length → ¬landed (i - off)) :
    writeAt data off buf landed i = data i := by
  unfold writeAt
  split_ifs with hin
  · exact getD_eq_default _ _ (Nat.le_of_not_lt fun hlt => hi hin.1 hlt hin.2)
  · rfl

lemma areaOffset_disjoint {i : ℕ} (hne : (slot', area') ≠ (slot, area)) (hi : i < h.AreaSize) :
    h.areaOffset slot' area' + i < h.areaOffset slot area ∨
      h.areaOffset slot area + h.AreaSize ≤ h.areaOffset slot' area' + i := by
  simp only [Header.areaOffset]
  have hindex : slot' * 2 + area'.toNat ≠ slot * 2 + area.toNat := by
    intro heq
    refine hne ?_
    cases area <;> cases area' <;> simp at heq ⊢ <;> omega
  rcases Nat.lt_or_gt_of_ne hindex with hlt | hlt
  all_goals
    have := Nat.mul_le_mul_right h.AreaSize hlt
    rw [Nat.succ_mul] at this
    omega

/-! ## What the two areas hold -/

/-- An area holds the newest record of a slot, and the other one nothing that is newer. -/
structure Stored (h : Header) (data : ℕ → ℕ) (slot : ℕ) (newest : Option SlotState) : Prop where
  held : ∀ st, newest = some st → h.readArea data slot st.area = some st.record
  older : ∀ area rec, h.readArea data slot area = some rec →
    ∃ st, newest = some st ∧ (area = st.area ∨ newer st.record rec)

lemma Stored.openSlot_eq {newest : Option SlotState} (hs : Stored h data slot newest) :
    openSlot h data slot = newest := by
  cases newest with
  | none =>
    have hnone : ∀ area, h.readArea data slot area = none := by
      intro area
      by_contra hsome
      obtain ⟨rec, hrec⟩ := Option.ne_none_iff_exists'.1 hsome
      obtain ⟨st, hst, -⟩ := hs.older area rec hrec
      cases hst
    simp [openSlot, hnone]
  | some st =>
    obtain ⟨rec, area⟩ := st
    have hheld : h.readArea data slot area = some rec := hs.held _ rfl
    cases hother : h.readArea data slot !area with
    | none => cases area <;> simp_all [openSlot]
    | some old =>
      obtain ⟨_, ⟨⟩, harea | hnewer⟩ := hs.older _ old hother
      · simp at harea
      have hnot := hnewer.asymm
      cases area <;> simp_all [openSlot]

/-! ## Histories -/

variable {f : File} {w : Attempt}

/-- The record is later in serial order than the slot's newest, or completes it. -/
def Attempt.InOrder (f : File) (w : Attempt) : Prop :=
  ∀ st ∈ f.slots w.slot, newer w.record st.record

/-- No mixture of two records verifies: an area of which only some bytes were written reads as
before or not at all. -/
def Attempt.TornFails (f : File) (w : Attempt) : Prop :=
  w.Complete ∨
    f.header.readArea (f.written w) w.slot (f.target w.slot) =
      f.header.readArea f.data w.slot (f.target w.slot) ∨
    f.header.readArea (f.written w) w.slot (f.target w.slot) = none

/-- The contract of `os.File.WriteAt`, which goes on until everything is written or a write fails:
without an error everything was written, and with an error it was not. -/
def Attempt.WriteAtOk (w : Attempt) : Prop :=
  (w.outcome = .ok → w.Complete) ∧ (w.outcome = .error → ¬w.Complete)

/-- What is assumed of a call: the order of the records of a slot, that a torn record does not
verify, and both directions of the contract of `WriteAt`.  A call that is cut short by the death of
the process may have written any bytes, or all of them. -/
structure Attempt.Ok (f : File) (w : Attempt) : Prop where
  inOrder : w.InOrder f
  tornFails : w.TornFails f
  writeAtOk : w.WriteAtOk

instance (f : File) (w : Attempt) : Decidable (w.Ok f) :=
  decidable_of_iff ((∀ st ∈ f.slots w.slot, newer w.record st.record) ∧
    (w.Complete ∨ f.header.readArea (f.written w) w.slot (f.target w.slot) =
        f.header.readArea f.data w.slot (f.target w.slot) ∨
      f.header.readArea (f.written w) w.slot (f.target w.slot) = none) ∧
    (w.outcome = .ok → w.Complete) ∧ (w.outcome = .error → ¬w.Complete))
    ⟨fun h => ⟨h.1, h.2.1, h.2.2⟩, fun h => ⟨h.1, h.2, h.3⟩⟩

/-- The record that a call writes completely to a slot. -/
def Attempt.completed (h : Header) (slot : ℕ) (w : Attempt) : Option Record :=
  if w.slot = slot ∧ h.accepts slot w.record ∧ w.Complete then some w.record else none

/-- The newest record that was written completely to a slot. -/
def newest (h : Header) (slot : ℕ) (calls : List Attempt) : Option Record :=
  calls.foldl (fun rec w => (w.completed h slot).or rec) none

/-- A write changes nothing outside its area. -/
lemma readArea_written (hacc : f.header.accepts w.slot w.record)
    (hne : (slot, area) ≠ (w.slot, f.target w.slot)) :
    f.header.readArea (f.written w) slot area = f.header.readArea f.data slot area := by
  refine readArea_congr fun i hi => writeAt_eq_self fun _ hlt => ?_
  have hlen := w.record.length_encode.trans_le hacc.2.1
  have := areaOffset_disjoint hne hi
  omega

/-- A record that is written completely is the newest. -/
lemma Stored.written (hs : Stored f.header f.data w.slot (f.slots w.slot))
    (hacc : f.header.accepts w.slot w.record) (horder : w.InOrder f) (hall : w.Complete) :
    Stored f.header (f.written w) w.slot (some ⟨w.record, f.target w.slot⟩) where
  held := by
    rintro st ⟨⟩
    exact readArea_encode hacc fun i hi => by simp [File.written, writeAt, hall i hi, hi]
  older := by
    intro area rec hread
    refine ⟨_, rfl, or_iff_not_imp_left.2 fun harea => ?_⟩
    rw [readArea_written hacc (by simpa using harea)] at hread
    obtain ⟨st, hst, -⟩ := hs.older area rec hread
    have hheld : area = st.area := by simpa [File.target, hst] using harea
    rw [hheld, hs.held st hst, Option.some.injEq] at hread
    exact hread ▸ horder st hst

/-- Every other write leaves the newest record. -/
lemma Stored.torn (hs : Stored f.header f.data slot (f.slots slot))
    (hacc : f.header.accepts w.slot w.record) (htorn : w.TornFails f)
    (hother : slot ≠ w.slot ∨ ¬w.Complete) :
    Stored f.header (f.written w) slot (f.slots slot) := by
  -- an area reads as before, unless it is the one that is written and no longer verifies
  have hread : ∀ area, f.header.readArea (f.written w) slot area =
      f.header.readArea f.data slot area ∨
      (slot = w.slot ∧ area = f.target w.slot) ∧
        f.header.readArea (f.written w) slot area = none := by
    intro area
    by_cases hne : slot = w.slot ∧ area = f.target w.slot
    · obtain ⟨rfl, rfl⟩ := hne
      rcases htorn with hall | hsame | hnone
      · exact absurd hall (by simpa using hother)
      · exact .inl hsame
      · exact .inr ⟨⟨rfl, rfl⟩, hnone⟩
    · exact .inl (readArea_written hacc (by simpa using hne))
  constructor
  · intro st hst
    rcases hread st.area with heq | ⟨⟨rfl, harea⟩, -⟩
    · exact heq.trans (hs.held st hst)
    · simp [File.target, hst] at harea
  · intro area rec hrec
    rcases hread area with heq | ⟨-, hnone⟩
    · exact hs.older area rec (heq.symm.trans hrec)
    · exact nomatch hnone.symm.trans hrec

lemma Stored.load {newest : Option SlotState} (hs : Stored h data slot newest) :
    Stored h data slot ((File.load h data).slots slot) ∧ (File.load h data).slots slot = newest := by
  have heq : (File.load h data).slots slot = newest := hs.openSlot_eq
  exact ⟨heq ▸ hs, heq⟩

/-- A call leaves the newest record, or the one that it writes completely. -/
lemma Stored.write (hs : Stored f.header f.data slot (f.slots slot)) (hok : w.Ok f)
    (hacc : f.header.accepts w.slot w.record) :
    Stored f.header (f.write w).data slot ((f.write w).slots slot) ∧
      ((f.write w).slots slot).map SlotState.record =
        (w.completed f.header slot).or ((f.slots slot).map SlotState.record) := by
  simp only [File.write, if_pos hacc, Attempt.completed]
  by_cases hdone : w.slot = slot ∧ w.Complete
  · obtain ⟨rfl, hall⟩ := hdone
    have hnew := hs.written hacc hok.inOrder hall
    rw [if_pos ⟨rfl, hacc, hall⟩]
    split
    · simpa using hnew
    · exact absurd hall (hok.writeAtOk.2 ‹_›)
    · exact ⟨hnew.load.1, congrArg _ hnew.load.2⟩
  · have hold := hs.torn hacc hok.tornFails (by tauto)
    rw [if_neg (by tauto), Option.none_or]
    split
    · have hslot : slot ≠ w.slot := fun heq => hdone ⟨heq.symm, hok.writeAtOk.1 ‹_›⟩
      simpa [hslot] using hold
    · exact ⟨hold, rfl⟩
    · exact ⟨hold.load.1, congrArg _ hold.load.2⟩

/-- The newest records are known, in memory and on disk, and the header is as it was written. -/
structure File.Holds (f : File) (h : Header) (header : ℕ → ℕ) (newest : ℕ → Option Record) : Prop where
  header_eq : f.header = h
  header_data : ∀ i < headerAreaSize, f.data i = header i
  stored : ∀ slot, Stored h f.data slot (f.slots slot)
  record : ∀ slot, (f.slots slot).map SlotState.record = newest slot

lemma holds_create (header : ℕ → ℕ) : (File.create h header).Holds h header fun _ => none where
  header_eq := rfl
  header_data := fun i hi => if_pos hi
  record := fun _ => rfl
  stored := by
    intro slot
    refine ⟨nofun, fun area rec hrec => ?_⟩
    have hzero : readAt (File.create h header).data (h.areaOffset slot area) recordFixedSize =
        replicate recordFixedSize 0 := by
      refine ext_getElem (by simp [readAt]) fun i _ _ => ?_
      simp only [readAt, File.create, Header.areaOffset, getElem_map, getElem_range,
        getElem_replicate]
      exact if_neg (by omega)
    simp only [Header.readArea, hzero] at hrec
    cases hrec

lemma File.Holds.write {header : ℕ → ℕ} {newest : ℕ → Option Record}
    (hh : f.Holds h header newest) (hok : w.Ok f) :
    (f.write w).Holds h header fun slot => (w.completed h slot).or (newest slot) := by
  obtain ⟨rfl, hdata, hs, hrecord⟩ := hh
  by_cases hacc : f.header.accepts w.slot w.record
  · have hwrite := fun slot => (hs slot).write hok hacc
    have hwritten : ∀ i < headerAreaSize, f.written w i = f.data i :=
      fun i hi => writeAt_eq_self fun hle _ => (by rw [Header.areaOffset] at hle; omega)
    refine ⟨?_, fun i hi => ?_, fun slot => (hwrite slot).1,
      fun slot => hrecord slot ▸ (hwrite slot).2⟩ <;> simp only [File.write, if_pos hacc]
    · split <;> rfl
    · rw [← hdata i hi, ← hwritten i hi]
      split <;> rfl
  · have hnone : ∀ slot, w.completed f.header slot = none := by
      intro slot
      refine if_neg ?_
      rintro ⟨rfl, hacc', -⟩
      exact hacc hacc'
    simp only [File.write, if_neg hacc, hnone, Option.none_or]
    exact ⟨rfl, hdata, hs, hrecord⟩

lemma File.Holds.foldl {header : ℕ → ℕ} {calls : List Attempt} {newest : ℕ → Option Record}
    (hh : f.Holds h header newest)
    (hok : RunMeets (fun f w => some (File.write f w)) Attempt.Ok f calls) :
    (calls.foldl File.write f).Holds h header fun slot =>
      calls.foldl (fun rec w => (w.completed h slot).or rec) (newest slot) := by
  induction calls generalizing f newest with
  | nil => exact hh
  | cons w calls ih => exact ih (hh.write hok.1) hok.2

end

/-- **Session files.**  After any calls, each of which may have failed or have been cut short at any
byte by the death of the process, `Load` returns for each slot the newest record that was written
completely. -/
theorem load_eq_newest (h : Header) (header : ℕ → ℕ) (calls : List Attempt) (f : File)
    (hok : RunMeets (fun f w => some (File.write f w)) Attempt.Ok (.create h header) calls)
    (hf : calls.foldl File.write (.create h header) = f) :
    (∀ slot, ((File.load h f.data).slots slot).map SlotState.record = newest h slot calls) ∧
      (∀ w : Attempt, h.accepts w.slot w.record → ∀ slot ≠ w.slot,
        (File.load h (f.written w)).slots slot = (File.load h f.data).slots slot) ∧
      ∀ i < headerAreaSize, f.data i = header i := by
  subst hf
  have hh := (holds_create header).foldl hok
  refine ⟨fun slot => ?_, fun w hacc slot hslot => ?_, hh.header_data⟩
  · exact (congrArg _ (hh.stored slot).load.2).trans (hh.record slot)
  have hread := fun area => readArea_written (f := calls.foldl File.write (.create h header))
    (by rwa [hh.header_eq]) (show (slot, area) ≠ _ by simp [hslot])
  rw [hh.header_eq] at hread
  simp only [File.load, openSlot, hread]

def sampleHeader : Header := ⟨1, 60, by decide, by decide, by decide, by decide⟩

def sampleRecord (seq : BitVec 32) (kind : ℕ) : Record := ⟨seq, kind, true, .replicate 32 0, [], [7]⟩

/-- An intent with the greatest sequence id, its completion, and the next intent: first only its magic
is written, then some more bytes. -/
def sampleCalls : List Attempt :=
  [⟨0, sampleRecord (-1) KindIntent, fun _ => true, .ok⟩,
    ⟨0, sampleRecord (-1) KindSlot, fun _ => true, .ok⟩,
    ⟨0, sampleRecord 0 KindIntent, fun i => i < 4, .error⟩,
    ⟨0, sampleRecord 0 KindIntent, fun i => i < 6, .killed⟩]

theorem load_eq_completion :
    ∃ f, sampleCalls.foldl File.write (.create sampleHeader fun _ => 0) = f ∧
      ((File.load sampleHeader f.data).slots 0).map SlotState.record =
        some (sampleRecord (-1) KindSlot) := by
  refine ⟨_, rfl, ((load_eq_newest sampleHeader _ sampleCalls _ ?_ rfl).1 0).trans ?_⟩
  · decide +kernel
  · decide +kernel

end TernFS.SessionStore
