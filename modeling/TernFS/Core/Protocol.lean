/-
# Unpacking whole messages

A message is a protocol version, a request id and a body, and for signed messages a MAC of these
(`core/Protocol.hpp`).  The MAC is looked at after the body has been unpacked, so whatever unpacking
the body can do, anyone can make it do who can send a datagram.
-/
import TernFS.Core.Messages

namespace TernFS

open Lib

/-- `ProtocolMessage`, and `SignedProtocolMessage`. -/
structure Message where
  version : ℕ
  body : Layout
  signed : Bool

namespace Message

open Layout

def shardRespMsg : Message := ⟨0x1414853, shardRespContainer, false⟩

def cdcToShardRespMsg : Message := ⟨0x4414853, shardCheckPointedResp, true⟩

def cdcReqMsg : Message := ⟨0x434443, cdcReqContainer, false⟩

def cdcRespMsg : Message := ⟨0x1434443, cdcRespContainer, false⟩

def logReqMsg : Message := ⟨0x474f4c, logReqContainer, true⟩

def logRespMsg : Message := ⟨0x1474f4c, logRespContainer, true⟩

def proxyShardRespMsg : Message := ⟨0x6414853, shardCheckPointedResp, true⟩

section

variable (key : AES128Key) (mem : Memory) (fin cursor : ℕ)

/-- The version and the request id. -/
def unpackHeader (m : Message) : Except UnpackError (ℕ × ℕ) := do
  let (version, cursor) ← unpackScalar mem fin 4 cursor
  ensure (version = m.version) .exception
  unpackScalar mem fin 8 cursor

/-- The MAC of the bytes from `start` on, if there has to be one. -/
def unpackMac (m : Message) (start : ℕ) : Except UnpackError ℕ :=
  if m.signed then do
    ensureSize fin cursor 8
    ensure (cbcmac key (mem.bytes start (cursor - start)) = mem.bytes cursor 8) .exception
    return cursor + 8
  else return cursor

/-- `ProtocolMessage::unpack` and `SignedProtocolMessage::unpack`: the request id and the body. -/
def unpack (m : Message) : Except UnpackError ((ℕ × Value) × ℕ) := do
  let (id, c) ← m.unpackHeader mem fin cursor
  let (body, c) ← m.body.unpack mem fin judgeWord c
  let c ← m.unpackMac key mem fin c cursor
  ensure (fin - c = 0) .exception
  return ((id, body), c)

/-- The words that are checked while the message is unpacked. -/
def words (m : Message) : List (WordKind × ℕ) :=
  afterOk (m.unpackHeader mem fin cursor) fun _ c => m.body.words mem fin judgeWord c

end

/-- Unpacking succeeds, having read inside the buffer only, or throws the expected exception. -/
structure UnpacksAsExpected (m : Message) (key : AES128Key) (mem : Memory) (fin cursor : ℕ) :
    Prop where
  fails : m.unpack key mem fin cursor ≠ .error .assertion
  inside : ∀ x cursor', m.unpack key mem fin cursor = .ok (x, cursor') → cursor' ≤ fin
  reads : ∀ mem' : Memory, mem.AgreeOn mem' cursor fin →
    m.unpack key mem' fin cursor = m.unpack key mem fin cursor

variable {m : Message} {key : AES128Key} {mem mem' : Memory} {fin cursor cursor' : ℕ}

lemma unpackHeader_eq_ok {id : ℕ} (h : m.unpackHeader mem fin cursor = .ok (id, cursor')) :
    cursor' = cursor + 12 ∧ (cursor ≤ fin → cursor' ≤ fin) := by
  simp only [unpackHeader, bind_eq_ok, unpackScalar_eq_ok, ensure_eq_ok, exists_const,
    Prod.exists] at h
  omega

lemma unpackHeader_ne_assertion : m.unpackHeader mem fin cursor ≠ .error .assertion := by
  simp [unpackHeader, bind_eq_error, unpackScalar_ne_assertion, ensure_eq_error]

lemma unpackHeader_congr (hcursor : cursor ≤ fin) (hagree : mem.AgreeOn mem' cursor fin) :
    m.unpackHeader mem fin cursor = m.unpackHeader mem' fin cursor := by
  refine bind_congr_ok (unpackScalar_congr hcursor hagree) fun ⟨version, c⟩ hversion => ?_
  obtain ⟨hle, -, rfl⟩ := unpackScalar_eq_ok.mp hversion
  exact bind_congr_ok rfl fun _ _ =>
    unpackScalar_congr (by omega) (hagree.mono (Nat.le_add_right _ _))

variable {start : ℕ}

lemma unpackMac_le (hcursor : cursor ≤ fin)
    (h : m.unpackMac key mem fin cursor start = .ok cursor') : cursor' ≤ fin := by
  rw [unpackMac] at h
  split_ifs at h
  · simp only [ensureSize, bind_eq_ok, ensure_eq_ok, exists_const] at h
    obtain ⟨hle, -, ⟨⟩⟩ := h
    omega
  · simp only [pure_eq_ok] at h
    exact h ▸ hcursor

lemma unpackMac_ne_assertion : m.unpackMac key mem fin cursor start ≠ .error .assertion := by
  rw [unpackMac]
  split_ifs
  · simp only [ensureSize, ne_eq, bind_eq_error, ensure_eq_error, pure_ne_error, reduceCtorEq,
      and_false, exists_const, or_self, not_false_eq_true]
  · exact pure_ne_error

lemma unpackMac_congr (hstart : start ≤ cursor) (hcursor : cursor ≤ fin)
    (hagree : mem.AgreeOn mem' start fin) :
    m.unpackMac key mem fin cursor start = m.unpackMac key mem' fin cursor start := by
  rw [unpackMac, unpackMac]
  split_ifs
  · refine bind_congr_ok rfl fun u hu => ?_
    have hle : 8 ≤ fin - cursor := ensure_eq_ok.mp hu
    rw [hagree.bytes le_rfl (by omega), hagree.bytes hstart (by omega)]
  · rfl

/-- Only words that are checked can fail an assertion, and of these only ids with an extra bit. -/
lemma unpack_eq_assertion : m.unpack key mem fin cursor = .error .assertion ↔
    ∃ u64, (.inodeIdExtra, u64) ∈ m.words mem fin cursor ∧ ¬ (InodeId.masked ⟨u64⟩).Valid := by
  have hbody : m.unpack key mem fin cursor = .error .assertion ↔
      Fails judgeWord (m.words mem fin cursor) := by
    simp only [unpack, words, bind_eq_error, unpackHeader_ne_assertion, unpackMac_ne_assertion,
      Format.unpack_eq_assertion, fails_afterOk, ensure_eq_error, pure_ne_error, reduceCtorEq,
      and_false, exists_const, exists_false, or_false, false_or, Prod.exists]
  rw [hbody]
  constructor
  · rintro ⟨⟨kind, u64⟩, hmem, hfails⟩
    cases kind with
    | inodeId =>
      rw [judgeWord, ensure_eq_error] at hfails
      cases hfails.2
    | inodeIdExtra =>
      rw [judgeWord, ensure_eq_error] at hfails
      exact ⟨u64, hmem, hfails.1⟩
  · rintro ⟨u64, hmem, hvalid⟩
    exact ⟨_, hmem, ensure_of_not hvalid⟩

lemma unpack_le (hcursor : cursor ≤ fin) {x : ℕ × Value}
    (h : m.unpack key mem fin cursor = .ok (x, cursor')) : cursor' ≤ fin := by
  simp only [unpack, bind_eq_ok, ensure_eq_ok, exists_const, pure_eq_ok, Prod.exists,
    Prod.mk.injEq] at h
  obtain ⟨id, c₁, hheader, body, c₂, hbody, c₃, hmac, -, -, rfl⟩ := h
  have hle := (unpackHeader_eq_ok hheader).2 hcursor
  exact unpackMac_le (Format.unpack_eq_ok _ hle hbody).2 hmac

lemma unpack_congr (hcursor : cursor ≤ fin) (hagree : mem.AgreeOn mem' cursor fin) :
    m.unpack key mem fin cursor = m.unpack key mem' fin cursor := by
  refine bind_congr_ok (unpackHeader_congr hcursor hagree) fun ⟨id, c₁⟩ hheader => ?_
  obtain ⟨rfl, hle⟩ := unpackHeader_eq_ok hheader
  refine bind_congr_ok (Format.unpack_congr _ (hle hcursor)
    (hagree.mono (Nat.le_add_right _ _))) fun ⟨body, c₂⟩ hbody => ?_
  obtain ⟨rfl, hle'⟩ := Format.unpack_eq_ok _ (hle hcursor) hbody
  exact bind_congr_ok (unpackMac_congr (by omega) hle' hagree) fun _ _ => rfl

lemma unpacksAsExpected_of_words (hcursor : cursor ≤ fin)
    (h : ∀ u64, (.inodeIdExtra, u64) ∈ m.words mem fin cursor → (InodeId.masked ⟨u64⟩).Valid) :
    m.UnpacksAsExpected key mem fin cursor := by
  refine ⟨fun hfails => ?_, fun x cursor' => unpack_le hcursor, fun mem' hagree => ?_⟩
  · obtain ⟨u64, hmem, hvalid⟩ := unpack_eq_assertion.mp hfails
    exact hvalid (h u64 hmem)
  · exact (unpack_congr hcursor hagree).symm

/-- The bytes of a buffer, with zeros behind it. -/
def buffer (bytes : Bytes) : Memory := fun i => bytes.getD i 0

/-- A request to make the directory "a" in the root directory. -/
def sampleMakeDirectory : Bytes :=
  leBytes 4 cdcReqMsg.version ++ leBytes 8 7 ++ [1] ++ leBytes 8 (2 ^ 61) ++ [1, 97]

/-- A response to a listing of a directory, from the checkpoint on: one edge, with the target given
by the word. -/
def sampleListing (targetId : ℕ) : Bytes :=
  leBytes 4 cdcToShardRespMsg.version ++ leBytes 8 7 ++ leBytes 8 0 ++ [115] ++
    ([0, 0] ++ leBytes 8 0) ++ leBytes 2 1 ++
    (0 :: leBytes 8 targetId ++ leBytes 8 0 ++ [0] ++ leBytes 8 0)

end Message

end TernFS
