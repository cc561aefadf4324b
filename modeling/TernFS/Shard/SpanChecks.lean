/-
# Admission of span bodies

`_checkSpanBody` compares the checksum of a new span with the checksums of its cells.  Here it
is written with the loops of the source, and compared with what it is for: the cells are
consistent, and the checksum is that of the data cells, cut or extended to the size of the
span.  The length of the data cells is a 32-bit product, so the two differ where it wraps
around.
-/
import TernFS.Core.CrcLaws
import TernFS.Shard.Prepare
import Mathlib.Data.List.GetD

namespace TernFS

open Lib List Nat

namespace AddSpanInitiateReq

variable (req : AddSpanInitiateReq)

/-! ## The check, loop by loop -/

/-- The checksum of cell `i` of stripe `s`. -/
def cellCrc (s i : ℕ) : ℕ := req.crcs.getD (s * req.parity.blocks + i) 0

/-- A stripe of mirrored cells: the body of the first loop.  `none` is an early return. -/
def mirroredStripe (spanCrc s : ℕ) : Option ℕ :=
  let stripeCrc := req.cellCrc s 0
  let spanCrc := crc32cAppend spanCrc stripeCrc req.cellSize
  (range req.parity.parityBlocks).foldlM
    (fun spanCrc p => if req.cellCrc s (1 + p) ≠ stripeCrc then none else some spanCrc) spanCrc

/-- A stripe with parity cells: the body of the second loop. -/
def codedStripe (spanCrc s : ℕ) : Option ℕ :=
  let (spanCrc, parity0Crc) := (range req.parity.dataBlocks).foldl (fun (spanCrc, parity0Crc) d =>
      let cellCrc := req.cellCrc s d
      (crc32cAppend spanCrc cellCrc req.cellSize,
        if d = 0 then cellCrc else crc32cXor parity0Crc cellCrc req.cellSize))
    (spanCrc, 0)
  if parity0Crc ≠ req.cellCrc s req.parity.dataBlocks then none else some spanCrc

/-- `_checkSpanBody`, with the loops of the source. -/
def checkSpanBody : Bool :=
  if ¬ req.parity.Valid then false
  else if req.stripes = 0 ∨ maxStripes ≤ req.stripes then false
  else if maximumSpanSize < req.size then false
  else if req.crcs.length ≠ req.stripes * req.parity.blocks then false
  else
    let stripe := if req.parity.dataBlocks = 1 then req.mirroredStripe else req.codedStripe
    match (range req.stripes).foldlM stripe 0 with
    | none => false
    | some spanCrc =>
      let cellBytes : ℕ := req.cellSize * req.stripes * req.parity.dataBlocks % 2 ^ 32
      crc32cZeroExtend spanCrc ((req.size : ℤ) - cellBytes) = req.crc

/-! ## The loops -/

variable {req}

lemma stripeCrcs_eq (hlen : req.crcs.length = req.stripes * req.parity.blocks) {s : ℕ}
    (hs : s < req.stripes) :
    req.stripeCrcs s = (range req.parity.blocks).map (req.cellCrc s) := by
  have hbound : s * req.parity.blocks + req.parity.blocks ≤ req.crcs.length := by
    rw [hlen, ← succ_mul]
    exact mul_le_mul_right _ hs
  apply ext_getElem
  · simp only [stripeCrcs, length_take, length_drop, length_map, length_range]
    omega
  · intro i hi hi'
    simp only [stripeCrcs, getElem_take, getElem_drop, getElem_map, getElem_range, cellCrc]
    rw [getD_eq_getElem]

/-- A loop whose body returns early unless a condition holds. -/
lemma foldlM_guarded {α β : Type*} {p : α → Prop} [DecidablePred p] {f : β → α → Option β}
    {g : β → α → β} {l : List α} (hf : ∀ a ∈ l, ∀ b, f b a = if p a then some (g b a) else none)
    (b : β) : l.foldlM f b = if ∀ a ∈ l, p a then some (l.foldl g b) else none := by
  induction l generalizing b with
  | nil => simp
  | cons a l ih =>
    have ih' := ih fun c hc => hf c (mem_cons_of_mem a hc)
    rw [foldlM_cons, hf a mem_cons_self b]
    by_cases ha : p a
    · rw [if_pos ha, Option.bind_eq_bind, Option.bind_some, ih']
      simp only [foldl_cons, forall_mem_cons, ha, true_and]
    · simp [ha]

/-- The inner loop over the data cells keeps the checksum of the cells put together, and that of
their exclusive or. -/
lemma codedCells_eq (req : AddSpanInitiateReq) (s spanCrc n : ℕ) : (range n).foldl
      (fun (x : ℕ × ℕ) d =>
        (crc32cAppend x.1 (req.cellCrc s d) req.cellSize,
          if d = 0 then req.cellCrc s d else crc32cXor x.2 (req.cellCrc s d) req.cellSize))
      (spanCrc, 0) =
      (appendCells req.cellSize spanCrc ((range n).map (req.cellCrc s)),
        xorCells req.cellSize ((range n).map (req.cellCrc s))) := by
  induction n with
  | zero => rfl
  | succ n ih =>
    rw [range_succ, foldl_append, ih, map_append]
    refine Prod.ext ?_ ?_
    · simp only [appendCells, foldl_append, map_cons, map_nil, foldl_cons, foldl_nil]
    cases n with
    | zero => rfl
    | succ n =>
      simp only [range_succ_eq_map, map_cons, foldl_cons, foldl_nil,
        if_neg (succ_ne_zero n), cons_append, xorCells, foldl_append,
        map_nil]

section Row

variable {s : ℕ} (hrow : req.stripeCrcs s = (range req.parity.blocks).map (req.cellCrc s))

include hrow

lemma getD_stripeCrcs {i : ℕ} (hi : i < req.parity.blocks) :
    (req.stripeCrcs s).getD i 0 = req.cellCrc s i := by
  rw [hrow, getD_eq_getElem _ _ (by simpa using hi)]
  simp only [getElem_map, getElem_range]

lemma take_stripeCrcs : (req.stripeCrcs s).take req.parity.dataBlocks =
      (range req.parity.dataBlocks).map (req.cellCrc s) := by
  rw [hrow, ← map_take, take_range]
  exact congrArg (fun n => (range n).map _) (min_eq_left (le_add_right _ _))

lemma mirroredStripe_eq (hdata : req.parity.dataBlocks = 1) (spanCrc : ℕ) :
    req.mirroredStripe spanCrc s = if StripeConsistent req s then
        some (appendCells req.cellSize spanCrc ((req.stripeCrcs s).take req.parity.dataBlocks))
      else none := by
  have hblocks : req.parity.blocks = req.parity.parityBlocks + 1 := by
    rw [Parity.blocks, hdata, add_comm]
  have hloop := foldlM_guarded (p := fun p => req.cellCrc s (1 + p) = req.cellCrc s 0)
    (g := fun b _ => b) (l := range req.parity.parityBlocks)
    (f := fun (spanCrc : ℕ) p =>
      if req.cellCrc s (1 + p) ≠ req.cellCrc s 0 then none else some spanCrc)
    (fun p _ b => ite_not _ _ _) (crc32cAppend spanCrc (req.cellCrc s 0) req.cellSize)
  have hconsistent : (∀ p ∈ range req.parity.parityBlocks,
      req.cellCrc s (1 + p) = req.cellCrc s 0) ↔ StripeConsistent req s := by
    have hzero := getD_stripeCrcs hrow (i := 0) (by omega)
    simp only [StripeConsistent, if_pos hdata, hzero]
    simp only [hrow, forall_mem_map, hblocks, mem_range]
    constructor
    · rintro h (_ | p) hp
      · rfl
      · rw [add_comm]
        exact h p (by omega)
    · intro h p hp
      exact h (1 + p) (by omega)
  have hfold : ∀ (l : List ℕ) (b : ℕ), l.foldl (fun b _ => b) b = b := by
    intro l b
    induction l with
    | nil => rfl
    | cons p l ih => exact ih
  rw [mirroredStripe, hloop, hfold, take_stripeCrcs hrow, hdata]
  simp only [hconsistent]
  rfl

lemma codedStripe_eq (hvalid : req.parity.Valid) (hdata : req.parity.dataBlocks ≠ 1) (spanCrc : ℕ) :
    req.codedStripe spanCrc s = if StripeConsistent req s then
        some (appendCells req.cellSize spanCrc ((req.stripeCrcs s).take req.parity.dataBlocks))
      else none := by
  have hparity : req.parity.dataBlocks < req.parity.blocks :=
    Nat.lt_add_of_pos_right (Nat.pos_of_ne_zero (hvalid.2.2.2.resolve_left hdata))
  have hcells := codedCells_eq req s spanCrc req.parity.dataBlocks
  rw [codedStripe, hcells]
  simp only [StripeConsistent, if_neg hdata, take_stripeCrcs hrow, getD_stripeCrcs hrow hparity,
    ite_not]

end Row

/-- The loops compute what the closed form says. -/
theorem checkSpanBody_iff : req.checkSpanBody = true ↔ CheckSpanBody req := by
  rw [checkSpanBody, CheckSpanBody]
  by_cases hvalid : req.parity.Valid
  swap
  · simp [hvalid]
  by_cases hstripes : req.stripes = 0 ∨ maxStripes ≤ req.stripes
  · have hbad : ¬ (req.stripes ≠ 0 ∧ req.stripes < maxStripes) := by omega
    simp only [hvalid, hstripes, hbad, not_true_eq_false, if_false, if_true, false_and, and_false,
      Bool.false_eq_true]
  by_cases hsize : maximumSpanSize < req.size
  · simp only [hvalid, hstripes, hsize, not_le.mpr hsize, not_true_eq_false, if_false, if_true,
      false_and, and_false, Bool.false_eq_true]
  by_cases hlen : req.crcs.length = req.stripes * req.parity.blocks
  swap
  · simp only [hvalid, hstripes, hsize, hlen, not_true_eq_false, if_false, if_true, ne_eq,
      not_false_eq_true, false_and, and_false, Bool.false_eq_true]
  have hstripe : ∀ s ∈ range req.stripes, ∀ spanCrc,
      (if req.parity.dataBlocks = 1 then req.mirroredStripe else req.codedStripe) spanCrc s =
        if StripeConsistent req s then
          some (appendCells req.cellSize spanCrc ((req.stripeCrcs s).take req.parity.dataBlocks))
        else none := by
    intro s hs spanCrc
    have hrow := stripeCrcs_eq hlen (mem_range.mp hs)
    by_cases hdata : req.parity.dataBlocks = 1
    · rw [if_pos hdata, mirroredStripe_eq hrow hdata]
    · rw [if_neg hdata, codedStripe_eq hrow hvalid hdata]
  have hloop := foldlM_guarded hstripe 0
  have hok : req.stripes ≠ 0 ∧ req.stripes < maxStripes := by omega
  rw [if_neg (not_not.mpr hvalid), if_neg hstripes, if_neg hsize, if_neg (not_not.mpr hlen),
    and_iff_right hvalid, and_iff_right hok, and_iff_right (not_lt.mp hsize),
    and_iff_right hlen]
  simp only [hloop]
  by_cases hconsistent : ∀ s ∈ range req.stripes, StripeConsistent req s
  · rw [if_pos hconsistent, and_iff_right hconsistent]
    refine decide_eq_true_iff.trans ?_
    simp only [spanCrc, appendCells, foldl_flatMap]
  · rw [if_neg hconsistent, iff_false_right fun h => hconsistent h.1]
    exact Bool.false_ne_true

/-! ## What the check is for -/

variable (req)

/-- The fields of the request fit their 32-bit words. -/
def WordsOk : Prop := req.cellSize < 2 ^ 32 ∧ ∀ crc ∈ req.crcs, crc < 2 ^ 32

instance : Decidable req.WordsOk := inferInstanceAs (Decidable (_ ∧ _))

/-- The number of bytes in the data cells, over unbounded integers. -/
def dataBytes : ℕ := req.cellSize * req.stripes * req.parity.dataBlocks

/-- The checksum of the data cells, put together in the order of the stripes. -/
def dataCrc : ℕ :=
  appendCells req.cellSize 0 <| (range req.stripes).flatMap fun s =>
    (req.stripeCrcs s).take req.parity.dataBlocks

/-- The cells are well formed and consistent with each other. -/
def CellsOk : Prop :=
  req.parity.Valid ∧ (0 < req.stripes ∧ req.stripes < maxStripes) ∧ req.size ≤ maximumSpanSize ∧
    req.crcs.length = req.stripes * req.parity.blocks ∧
    ∀ s < req.stripes, StripeConsistent req s

/-- What the check is for: the checksum of the span is that of its data cells, extended by
exactly the bytes that they lack, or shortened by those that they have too many. -/
def SpanBodyExact : Prop :=
  req.CellsOk ∧ crc32cZeroExtend req.dataCrc ((req.size : ℤ) - req.dataBytes) = req.crc

instance : Decidable req.SpanBodyExact :=
  inferInstanceAs (Decidable ((_ ∧ _ ∧ _ ∧ _ ∧ ∀ s < req.stripes, StripeConsistent req s) ∧ _))

/-- Where the check is exact: the length of the data cells does not wrap around, or that makes
no difference: the request is refused anyway, or the checksum is one that zero bytes do not
change. -/
def SpanCheckOk : Prop :=
  req.dataBytes < 2 ^ 32 ∨ ¬ req.CellsOk ∨ ZeroInvariant req.dataCrc ∨
    ∀ bytes : ℕ, bytes = req.dataBytes ∨ bytes = req.dataBytes % 2 ^ 32 →
      crc32cZeroExtend req.dataCrc ((req.size : ℤ) - bytes) ≠ req.crc

variable {req}

lemma checkSpanBody_iff_cellsOk : CheckSpanBody req ↔ req.CellsOk ∧
      crc32cZeroExtend req.dataCrc ((req.size : ℤ) - (req.dataBytes % 2 ^ 32 : ℕ)) = req.crc := by
  simp only [CheckSpanBody, CellsOk, pos_iff_ne_zero, mem_range, spanCrc, dataCrc,
    dataBytes, and_assoc]

end AddSpanInitiateReq

lemma crc32cAppend_lt {crcA crcB lenB : ℕ} (hA : crcA < 2 ^ 32) (hB : crcB < 2 ^ 32)
    (hlen : lenB < 2 ^ 64) : crc32cAppend crcA crcB lenB < 2 ^ 32 := by
  refine xor_lt_two_pow ?_ hB
  have hmul := crc32cMulModP_xPowN hlen ⟨crcA, hA⟩
  rw [hmul]
  exact Fin.isLt _

lemma appendCells_lt {cellSize : ℕ} (hsize : cellSize < 2 ^ 64) {cells : List ℕ}
    (hcells : ∀ cell ∈ cells, cell < 2 ^ 32) {crc : ℕ} (hcrc : crc < 2 ^ 32) :
    appendCells cellSize crc cells < 2 ^ 32 := by
  induction cells generalizing crc with
  | nil => exact hcrc
  | cons cell cells ih =>
    rw [forall_mem_cons] at hcells
    exact ih hcells.2 (crc32cAppend_lt hcrc hcells.1 hsize)

namespace AddSpanInitiateReq

variable {req : AddSpanInitiateReq}

lemma WordsOk.dataCrc_lt (hwords : req.WordsOk) : req.dataCrc < 2 ^ 32 := by
  refine appendCells_lt (hwords.1.trans (by decide)) ?_ (by decide)
  intro crc hcrc
  obtain ⟨s, -, hs⟩ := mem_flatMap.mp hcrc
  exact hwords.2 crc (mem_of_mem_drop (mem_of_mem_take (mem_of_mem_take hs)))

/-- With valid cells, less than 150 times the word size is lost. -/
lemma CellsOk.dataBytes_lt (hcells : req.CellsOk) (hwords : req.WordsOk) :
    req.dataBytes < 2 ^ 32 * 150 := by
  obtain ⟨hvalid, ⟨-, hstripes⟩, -⟩ := hcells
  have hdata : req.parity.dataBlocks ≤ 10 := hvalid.2.1
  have hcell : req.cellSize ≤ 2 ^ 32 - 1 := le_sub_one_of_lt hwords.1
  have hcount : req.stripes ≤ 15 := le_of_lt_succ hstripes
  have hprod : req.dataBytes ≤ (2 ^ 32 - 1) * 15 * 10 := by
    unfold dataBytes
    gcongr
  omega

/-- Losing multiples of the word size changes the extension of every checksum but two. -/
lemma zeroExtend_wrapped_iff (hcells : req.CellsOk) (hwords : req.WordsOk)
    (hwrap : 2 ^ 32 ≤ req.dataBytes) :
    crc32cZeroExtend req.dataCrc ((req.size : ℤ) - (req.dataBytes % 2 ^ 32 : ℕ)) =
      crc32cZeroExtend req.dataCrc ((req.size : ℤ) - req.dataBytes) ↔
        ZeroInvariant req.dataCrc := by
  have hlt := hcells.dataBytes_lt hwords
  have hsize : req.size ≤ 100 * 2 ^ 20 := hcells.2.2.1
  have hlost : (req.size : ℤ) - (req.dataBytes % 2 ^ 32 : ℕ) =
      (req.size : ℤ) - req.dataBytes + (2 ^ 32 * (req.dataBytes / 2 ^ 32) : ℕ) := by omega
  have hcop : ∀ k < 150, 0 < k → Nat.Coprime k (2 ^ 31 - 1) := by decide +kernel
  rw [hlost]
  refine crc32cZeroExtend_add_eq_iff ⟨req.dataCrc, hwords.dataCrc_lt⟩ ?_ (by omega) (by omega)
  exact Nat.Coprime.mul_left (by decide +kernel) (hcop _ (by omega) (by omega))

/-- The check accepts exactly the requests that it is for, where the length of the data cells
does not wrap around or that makes no difference, and only there. -/
theorem checkSpanBody_exact_iff (req : AddSpanInitiateReq) (hwords : req.WordsOk) :
    (req.checkSpanBody = true ↔ req.SpanBodyExact) ↔ req.SpanCheckOk := by
  rw [checkSpanBody_iff, checkSpanBody_iff_cellsOk, SpanBodyExact, SpanCheckOk]
  by_cases hlt : req.dataBytes < 2 ^ 32
  · simp only [mod_eq_of_lt hlt, hlt, true_or]
  by_cases hcells : req.CellsOk
  swap
  · simp only [hcells, false_and, not_false_eq_true, true_or, or_true]
  have hiff := zeroExtend_wrapped_iff hcells hwords (not_lt.mp hlt)
  simp only [hcells, hlt, true_and, not_true_eq_false, false_or, forall_eq_or_imp, forall_eq]
  rw [← hiff]
  constructor
  · intro h
    by_cases hcrc : crc32cZeroExtend req.dataCrc ((req.size : ℤ) - req.dataBytes) = req.crc
    · exact .inl ((h.mpr hcrc).trans hcrc.symm)
    · exact .inr ⟨hcrc, fun hwrapped => hcrc (h.mp hwrapped)⟩
  · rintro (h | ⟨hexact, hwrapped⟩)
    · rw [h]
    · exact ⟨fun h => absurd h hwrapped, fun h => absurd h hexact⟩

/-- A span of one page, the checksum of which is that of zeros, with two mirrored stripes of
`2 ^ 31` bytes, all of which have the checksum 0. -/
def wrappedSpan : AddSpanInitiateReq where
  fileId := .of .file 0 1
  cookie := []
  byteOffset := 0
  size := 4096
  crc := 0x98F94189
  storageClass := 2
  blacklist := []
  parity := ⟨0x11⟩
  stripes := 2
  cellSize := 2 ^ 31
  crcs := [0, 0, 0, 0]

theorem checkSpanBody_exact_wrappedSpan : wrappedSpan.WordsOk ∧
      ((wrappedSpan.checkSpanBody = true ↔ wrappedSpan.SpanBodyExact) ↔ wrappedSpan.SpanCheckOk) :=
  ⟨by decide, checkSpanBody_exact_iff wrappedSpan (by decide)⟩

/-- The data cells of the span have `2 ^ 32` bytes, which the check takes for none. -/
theorem not_checkSpanBody_exact :
    ¬ ∀ req : AddSpanInitiateReq, req.WordsOk → (req.checkSpanBody = true ↔ req.SpanBodyExact) := by
  intro h
  have hexact : ¬ wrappedSpan.SpanBodyExact := by decide +kernel
  exact hexact ((h wrappedSpan (by decide)).mp (by decide +kernel))

end AddSpanInitiateReq

end TernFS
