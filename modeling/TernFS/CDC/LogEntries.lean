/-
# The log entries of the coordinator

Requests and responses that have arrived are put into log entries of a bounded size, responses first,
each into the current entry if it still fits and into a new one otherwise.  The size of an entry is
tracked while it grows.  A message that does not even fit into an empty entry fails an assertion.
-/
import TernFS.Lib.Run
import TernFS.Core.Protocol
import Mathlib.Algebra.Order.BigOperators.Group.List

namespace TernFS.CDCLog

open Lib List Option

/-! ## The entries -/

/-- `CDCReqContainer` and `ShardRespContainer`: a kind and what belongs to it. -/
structure Container where
  kind : ℕ
  body : Value

/-- `packedSize` of a container. -/
def Container.packedSize (c : Container) : ℕ := 1 + c.body.packedSize

/-- `CDCShardResp`. -/
structure ShardResp where
  txnId : ℕ
  checkPoint : ℕ
  resp : Container

/-- `CDCShardResp::packedSize`. -/
def ShardResp.packedSize (r : ShardResp) : ℕ := 8 + 8 + r.resp.packedSize

/-- `CDCLogEntry`, without its index. -/
structure Entry where
  bootstrapEntry : Bool
  cdcReqs : List Container
  shardResps : List ShardResp

namespace Entry

/-- A new entry. -/
def empty : Entry := ⟨false, [], []⟩

/-- `CDCLogEntry::packedSize`. -/
def packedSize (e : Entry) : ℕ :=
  1 + 2 * 4 + (e.cdcReqs.map Container.packedSize).sum + (e.shardResps.map ShardResp.packedSize).sum

/-- `_cdcReqs.emplace_back`. -/
def addReq (e : Entry) (req : Container) : Entry :=
  { e with cdcReqs := e.cdcReqs ++ [req] }

/-- `_shardResps.emplace_back`. -/
def addResp (e : Entry) (resp : ShardResp) : Entry :=
  { e with shardResps := e.shardResps ++ [resp] }

lemma packedSize_addReq (e : Entry) (req : Container) :
    (e.addReq req).packedSize = e.packedSize + req.packedSize := by
  simp only [packedSize, addReq, map_append, sum_append, map_cons, map_nil, sum_singleton]
  omega

lemma packedSize_addResp (e : Entry) (resp : ShardResp) :
    (e.addResp resp).packedSize = e.packedSize + resp.packedSize := by
  simp only [packedSize, addResp, map_append, sum_append, map_cons, map_nil, sum_singleton]
  omega

/-- Each request is in the entry with its bytes, besides those of the header. -/
lemma le_packedSize_of_mem_cdcReqs {e : Entry} {req : Container} (h : req ∈ e.cdcReqs) :
    req.packedSize + 9 ≤ e.packedSize := by
  have hle := single_le_sum (fun _ _ => Nat.zero_le _) _
    (mem_map_of_mem (f := Container.packedSize) h)
  unfold packedSize
  omega

lemma le_packedSize_of_mem_shardResps {e : Entry} {resp : ShardResp}
    (h : resp ∈ e.shardResps) : resp.packedSize + 9 ≤ e.packedSize := by
  have hle := single_le_sum (fun _ _ => Nat.zero_le _) _
    (mem_map_of_mem (f := ShardResp.packedSize) h)
  unfold packedSize
  omega

end Entry

/-! ## Packing -/

/-- The variables of `prepareLogEntries`: the entries before the current one, the current one, and
the size that is tracked for it. -/
structure Packing where
  full : List Entry
  cur : Option Entry
  usedSize : ℕ

namespace Packing

/-- Before the first element. -/
def start : Packing := ⟨[], none, 2 ^ 64 - 1⟩

/-- `entriesOut`. -/
def entries (p : Packing) : List Entry := p.full ++ p.cur.toList

/-- The body of both loops: an element of the given size, and how it is put into an entry. -/
def add (maxPackedSize size : ℕ) (put : Entry → Entry) (p : Packing) :
    Checked Packing := do
  assert (size < maxPackedSize)
  let p := if maxPackedSize - size < p.usedSize then
    ⟨p.entries, some .empty, Entry.empty.packedSize⟩ else p
  -- without a current entry, a null pointer is followed
  let cur ← orFail .crash p.cur
  let usedSize := addU64 p.usedSize size
  assert (usedSize ≤ maxPackedSize)
  return ⟨p.full, some (put cur), usedSize⟩

end Packing

/-- `CDCLogEntry::prepareLogEntries`. -/
def prepareLogEntries (cdcReqs : List Container) (shardResps : List ShardResp)
    (maxPackedSize : ℕ) : Checked (List Entry) := do
  let p ← shardResps.foldlM (fun p resp =>
    p.add maxPackedSize resp.packedSize (·.addResp resp)) Packing.start
  let p ← cdcReqs.foldlM (fun p req => p.add maxPackedSize req.packedSize (·.addReq req)) p
  return p.entries

namespace Packing

/-- The entries hold these elements in this order, they are not too large, and the size of the
current one is known. -/
structure Holds (p : Packing) (maxPackedSize : ℕ) (cdcReqs : List Container)
    (shardResps : List ShardResp) : Prop where
  cdcReqs : p.entries.flatMap Entry.cdcReqs = cdcReqs
  shardResps : p.entries.flatMap Entry.shardResps = shardResps
  size : ∀ e ∈ p.entries, e.packedSize ≤ maxPackedSize
  used : p.usedSize = p.cur.elim (2 ^ 64 - 1) Entry.packedSize

variable {maxPackedSize size : ℕ} {put : Entry → Entry} {p : Packing}
  {cdcReqs newReqs : List Container} {shardResps newResps : List ShardResp}

lemma holds_start : start.Holds maxPackedSize [] [] :=
  ⟨rfl, rfl, fun _ he => (not_mem_nil he).elim, rfl⟩

/-- The current entry has been chosen, and the element is put into it. -/
lemma Holds.put_cur {full : List Entry} {cur : Entry}
    (h : Holds ⟨full, some cur, cur.packedSize⟩ maxPackedSize cdcReqs shardResps)
    (hfits : cur.packedSize + size ≤ maxPackedSize)
    (hput : (put cur).packedSize = cur.packedSize + size)
    (hreqs : (put cur).cdcReqs = cur.cdcReqs ++ newReqs)
    (hresps : (put cur).shardResps = cur.shardResps ++ newResps) :
    Holds ⟨full, some (put cur), cur.packedSize + size⟩ maxPackedSize (cdcReqs ++ newReqs)
      (shardResps ++ newResps) := by
  obtain ⟨rfl, rfl, hsize, -⟩ := h
  refine ⟨?_, ?_, fun e he => ?_, hput.symm⟩
  · simp [entries, hreqs]
  · simp [entries, hresps]
  obtain he | he := mem_append.mp he
  · exact hsize e (mem_append_left _ he)
  · obtain rfl := mem_singleton.mp he
    exact hput.trans_le hfits

/-- An element that fits into an empty entry is put into some entry. -/
lemma Holds.add (h : p.Holds maxPackedSize cdcReqs shardResps) (hpos : 0 < size)
    (hfits : size + 9 ≤ maxPackedSize) (hmax : maxPackedSize < 2 ^ 64)
    (hput : ∀ e, (put e).packedSize = e.packedSize + size)
    (hreqs : ∀ e, (put e).cdcReqs = e.cdcReqs ++ newReqs)
    (hresps : ∀ e, (put e).shardResps = e.shardResps ++ newResps) :
    ∃ p', p.add maxPackedSize size put = .ok p' ∧
      p'.Holds maxPackedSize (cdcReqs ++ newReqs) (shardResps ++ newResps) := by
  -- which entry is the current one, and that the element fits into it
  obtain ⟨full, cur, hchosen, hcur, hle⟩ : ∃ full cur,
      (if maxPackedSize - size < p.usedSize then ⟨p.entries, some .empty, Entry.empty.packedSize⟩
        else p) = (⟨full, some cur, cur.packedSize⟩ : Packing) ∧
      Holds ⟨full, some cur, cur.packedSize⟩ maxPackedSize cdcReqs shardResps ∧
      cur.packedSize + size ≤ maxPackedSize := by
    by_cases hfull : maxPackedSize - size < p.usedSize
    · rw [if_pos hfull]
      have hempty : Entry.empty.packedSize = 9 := rfl
      refine ⟨p.entries, .empty, rfl, ⟨?_, ?_, fun e he => ?_, rfl⟩, by omega⟩
      · rw [← h.cdcReqs]
        simp [entries, Entry.empty]
      · rw [← h.shardResps]
        simp [entries, Entry.empty]
      obtain he | he := mem_append.mp he
      · exact h.size e he
      · obtain rfl := mem_singleton.mp he
        omega
    · rw [if_neg hfull]
      obtain ⟨full, cur, used⟩ := p
      have hused : used = cur.elim (2 ^ 64 - 1) Entry.packedSize := h.used
      cases cur with
      | none =>
        rw [elim_none] at hused
        exact absurd hfull (by simp only; omega)
      | some cur =>
        rw [elim_some] at hused
        subst hused
        exact ⟨full, cur, rfl, h, by simp only at hfull; omega⟩
  refine ⟨_, ?_, hcur.put_cur hle (hput cur) (hreqs cur) (hresps cur)⟩
  have hadd : addU64 cur.packedSize size = cur.packedSize + size := addU64_of_lt (by omega)
  simp only [Packing.add, hchosen, bind_eq_ok, assert_eq_ok, orFail_eq_ok, pure_eq_ok,
    exists_const, some.injEq, exists_eq_left', hadd, and_true]
  omega

lemma Holds.foldlM {α : Type} {xs : List α} {size : α → ℕ} {put : α → Entry → Entry}
    {newReqs : α → List Container} {newResps : α → List ShardResp}
    (h : p.Holds maxPackedSize cdcReqs shardResps) (hmax : maxPackedSize < 2 ^ 64)
    (hpos : ∀ x, 0 < size x) (hfits : ∀ x ∈ xs, size x + 9 ≤ maxPackedSize)
    (hput : ∀ x e, (put x e).packedSize = e.packedSize + size x)
    (hreqs : ∀ x e, (put x e).cdcReqs = e.cdcReqs ++ newReqs x)
    (hresps : ∀ x e, (put x e).shardResps = e.shardResps ++ newResps x) :
    ∃ p', xs.foldlM (fun p x => p.add maxPackedSize (size x) (put x)) p = .ok p' ∧
      p'.Holds maxPackedSize (cdcReqs ++ xs.flatMap newReqs)
        (shardResps ++ xs.flatMap newResps) := by
  induction xs generalizing p cdcReqs shardResps with
  | nil => exact ⟨p, rfl, by rwa [flatMap_nil, flatMap_nil, append_nil,
      append_nil]⟩
  | cons x xs ih =>
    obtain ⟨p₁, hadd, hholds⟩ := h.add (hpos x) (hfits x mem_cons_self) hmax (hput x)
      (hreqs x) (hresps x)
    obtain ⟨p₂, hfold, hholds'⟩ := ih hholds fun y hy => hfits y (mem_cons_of_mem x hy)
    refine ⟨p₂, ?_, ?_⟩
    · rw [foldlM_cons, hadd]
      exact hfold
    · rwa [flatMap_cons, flatMap_cons, ← append_assoc, ← append_assoc]

end Packing

/-! ## The result -/

/-- Every element is in exactly one entry, in the order of arrival, and no entry is too large. -/
structure Partitions (entries : List Entry) (cdcReqs : List Container)
    (shardResps : List ShardResp) (maxPackedSize : ℕ) : Prop where
  cdcReqs : entries.flatMap Entry.cdcReqs = cdcReqs
  shardResps : entries.flatMap Entry.shardResps = shardResps
  size : ∀ e ∈ entries, e.packedSize ≤ maxPackedSize

/-- The elements fit into entries of their own. -/
def Fit (cdcReqs : List Container) (shardResps : List ShardResp) (maxPackedSize : ℕ) : Prop :=
  (∀ req ∈ cdcReqs, req.packedSize + 9 ≤ maxPackedSize) ∧
    ∀ resp ∈ shardResps, resp.packedSize + 9 ≤ maxPackedSize

variable {maxPackedSize : ℕ} {cdcReqs : List Container} {shardResps : List ShardResp}

lemma fit_of_partitions {entries : List Entry}
    (h : Partitions entries cdcReqs shardResps maxPackedSize) :
    Fit cdcReqs shardResps maxPackedSize := by
  obtain ⟨rfl, rfl, hsize⟩ := h
  constructor
  · intro req hreq
    obtain ⟨e, he, hreq⟩ := mem_flatMap.mp hreq
    exact (Entry.le_packedSize_of_mem_cdcReqs hreq).trans (hsize e he)
  · intro resp hresp
    obtain ⟨e, he, hresp⟩ := mem_flatMap.mp hresp
    exact (Entry.le_packedSize_of_mem_shardResps hresp).trans (hsize e he)

lemma partitions_of_fit (hmax : maxPackedSize < 2 ^ 64) (h : Fit cdcReqs shardResps maxPackedSize) :
    ∃ entries, prepareLogEntries cdcReqs shardResps maxPackedSize = .ok entries ∧
      Partitions entries cdcReqs shardResps maxPackedSize := by
  have hresps : ∃ p, shardResps.foldlM (fun p resp =>
        p.add maxPackedSize resp.packedSize (·.addResp resp)) Packing.start = .ok p ∧
      p.Holds maxPackedSize ([] ++ shardResps.flatMap fun _ => [])
        ([] ++ shardResps.flatMap fun resp => [resp]) :=
    Packing.holds_start.foldlM hmax (fun resp => by unfold ShardResp.packedSize; omega) h.2
      (fun resp e => e.packedSize_addResp resp) (fun _ _ => (append_nil _).symm) fun _ _ => rfl
  obtain ⟨p₁, hresps, hholds₁⟩ := hresps
  have hreqs : ∃ p, cdcReqs.foldlM (fun p req =>
        p.add maxPackedSize req.packedSize (·.addReq req)) p₁ = .ok p ∧
      p.Holds maxPackedSize (([] ++ shardResps.flatMap fun _ => []) ++
        cdcReqs.flatMap fun req => [req])
        (([] ++ shardResps.flatMap fun resp => [resp]) ++ cdcReqs.flatMap fun _ => []) :=
    hholds₁.foldlM hmax (fun req => by unfold Container.packedSize; omega) h.1
      (fun req e => e.packedSize_addReq req) (fun _ _ => rfl) fun _ _ => (append_nil _).symm
  obtain ⟨p₂, hreqs, hholds₂⟩ := hreqs
  refine ⟨p₂.entries, ?_, ⟨?_, ?_, hholds₂.size⟩⟩
  · rw [prepareLogEntries, hresps, ok_bind, hreqs, ok_bind]
    rfl
  · rw [hholds₂.cdcReqs]
    simp
  · rw [hholds₂.shardResps]
    simp

/-- Packing succeeds, with entries that partition the elements, exactly if every element fits into
an entry of its own. -/
theorem prepareLogEntries_partitions_iff (cdcReqs : List Container) (shardResps : List ShardResp)
    (hmax : maxPackedSize < 2 ^ 64) :
    (∃ entries, prepareLogEntries cdcReqs shardResps maxPackedSize = .ok entries ∧
        Partitions entries cdcReqs shardResps maxPackedSize) ↔
      Fit cdcReqs shardResps maxPackedSize :=
  ⟨fun ⟨_, _, h⟩ => fit_of_partitions h, partitions_of_fit hmax⟩

/-! ## A large response -/

/-- `LogReqMsg::STATIC_SIZE` and `LogRespMsg::STATIC_SIZE`: the largest body without its bytes, the
header and the MAC. -/
def staticSize (bodies : List Layout) : ℕ := 8 + 4 + 8 + 1 + (bodies.map Format.minSize).foldr max 0

/-- `LogsDB::DEFAULT_UDP_ENTRY_SIZE`, the maximum the coordinator uses. -/
def defaultUdpEntrySize : ℕ :=
  1472 - max
    (staticSize [Layout.logWriteReq, Layout.releaseReq, Layout.logReadReq, Layout.newLeaderReq,
      Layout.newLeaderConfirmReq, Layout.logRecoveryReadReq, Layout.logRecoveryWriteReq])
    (staticSize [Layout.u16, Layout.logWriteResp, Layout.releaseResp, Layout.logReadResp,
      Layout.newLeaderResp, Layout.newLeaderConfirmResp, Layout.logRecoveryReadResp,
      Layout.logRecoveryWriteResp])

/-- The container that has been unpacked. -/
def Container.ofValue : Value → Option Container
  | .record [.word _ kind, body] => some ⟨kind, body⟩
  | _ => none

/-- A datagram with a `StatDirectoryResp`, from its container on: the directory has the given number
of policies of 250 bytes. -/
def sampleStat (n : ℕ) : Memory := fun i =>
  if i = 0 then 4 else if i = 17 then n else if 19 ≤ i ∧ (i - 19) % 252 = 1 then 250 else 0

/-- The response in it. -/
def sampleStatResp (n : ℕ) : Option Container := do
  let (v, _) ← (Layout.shardRespContainer.unpack (sampleStat n) (19 + 252 * n) judgeWord 0).toOption
  Container.ofValue v

theorem prepareLogEntries_partitions_stat : ∃ resp entries, sampleStatResp 5 = some resp ∧
      prepareLogEntries [] [⟨1, 0, resp⟩] defaultUdpEntrySize = .ok entries ∧
      Partitions entries [] [⟨1, 0, resp⟩] defaultUdpEntrySize := by
  simp only [exists_and_left]
  refine exists_eq_some_imp (fun resp _ (hsize : resp.packedSize = 1279) => ?_) (by decide +kernel)
  have hfit : Fit [] [⟨1, 0, resp⟩] defaultUdpEntrySize := by
    refine ⟨fun _ h => (not_mem_nil h).elim, fun r hr => ?_⟩
    obtain rfl := mem_singleton.mp hr
    rw [ShardResp.packedSize, hsize]
    decide
  exact (prepareLogEntries_partitions_iff _ _ (by decide)).mpr hfit

/-- A response of 1531 bytes fits into a datagram, and stops the coordinator. -/
theorem not_prepareLogEntries_partitions :
    ∃ resp, sampleStatResp 6 = some resp ∧ 4 + 8 + 8 + resp.packedSize + 8 ≤ 8972 ∧
      prepareLogEntries [] [⟨1, 0, resp⟩] defaultUdpEntrySize = .error .crash := by
  refine exists_eq_some_imp (fun resp _ (hsize : resp.packedSize = 1531) => ?_) (by decide +kernel)
  have hlarge : ¬ ShardResp.packedSize ⟨1, 0, resp⟩ < defaultUdpEntrySize := by
    rw [ShardResp.packedSize, hsize]
    decide
  refine ⟨by omega, ?_⟩
  rw [prepareLogEntries, foldlM_cons, Packing.add, assert, ensure_of_not hlarge]
  rfl

end TernFS.CDCLog
