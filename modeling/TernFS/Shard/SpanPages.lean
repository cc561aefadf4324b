/-
# Reading the spans of a file page by page

The spans of a file are read from an offset on by asking for the `nextOffset` of each page, until
that is 0.  The blocks of a page name their services by their place in the list of that page;
`decode` looks them up, as a client does.  What a client gets is then what is stored: the span that
holds the offset and all those behind it, in order, each once.

A limit ends the reading by design: the page that reaches it has the offset 0.  A span that does not
fit into a page together with its services is never returned.
-/
import TernFS.Lib.Paging
import TernFS.Shard.ReadBudgets
import Mathlib.Data.List.TakeWhile

namespace TernFS

open Lib SortedStore List

/-! ## What a client makes of a page -/

/-- What a span holds, with the block services looked up. -/
inductive ReadStorage
  | inline (body : Bytes)
  | blocks (locations : List SpanBlocksBody)
deriving DecidableEq

/-- A span of a page, with the block services looked up. -/
structure ReadSpan where
  byteOffset : ℕ
  size : ℕ
  crc : ℕ
  storage : ReadStorage
deriving DecidableEq

/-- Look up the service of a block. -/
def FetchedBlock.decode (services : List BlockService) (f : FetchedBlock) : Option BlockBody :=
  services[f.blockServiceIx]?.map fun service => ⟨service.id, f.blockId, f.crc⟩

def FetchedBlocks.decode (services : List BlockService) (f : FetchedBlocks) :
    Option SpanBlocksBody := do
  let blocks ← f.blocks.mapM (FetchedBlock.decode services)
  SpanBlocksBody.alloc f.location f.storageClass f.parity f.stripes f.cellSize blocks f.stripesCrc

def FetchedSpan.decode (services : List BlockService) (f : FetchedSpan) : Option ReadSpan :=
  match f.storage with
  | .inline body => some ⟨f.byteOffset, f.size, f.crc, .inline body⟩
  | .blocks locations => (locations.mapM (FetchedBlocks.decode services)).map fun locations =>
    ⟨f.byteOffset, f.size, f.crc, .blocks locations⟩

/-- The spans of a response, with the block services looked up. -/
def FileSpansResp.decode (resp : FileSpansResp) : Option (List ReadSpan) :=
  resp.spans.mapM (FetchedSpan.decode resp.blockServices)

/-- What a reader is to show of a stored span. -/
def SpanReader.view (r : SpanReader) (e : ℕ × SpanBody) : ReadSpan :=
  ⟨e.1, e.2.spanSize, e.2.crc, match e.2.storage with
    | .inline body => .inline body
    | .blocks _ _ => .blocks (r.locations e.2)⟩

lemma mapM_of_forall₂ {α β γ : Type} {g : β → Option γ} {h : α → γ} {l : List α} {l' : List β}
    (hall : List.Forall₂ (fun a b => g b = some (h a)) l l') : l'.mapM g = some (l.map h) := by
  induction hall with
  | nil => rfl
  | cons hab _ ih => rw [mapM_cons, hab, ih]; rfl

section

variable {r : SpanReader} {services listed : List BlockService}

lemma FetchedBlock.decode_of_shows (hindex : ∀ i < 2 ^ 8, r.index i = .ok i)
    (hlength : listed.length ≤ 2 ^ 8) (hpre : listed <+: services) {block : BlockBody}
    {f : FetchedBlock} (h : f.Shows r listed block) : f.decode services = some block := by
  obtain ⟨hid, hcrc, i, hi, hix⟩ := h
  obtain ⟨service, hservice, hblock⟩ := Option.map_eq_some_iff.mp hi
  obtain ⟨hlt, -⟩ := List.getElem?_eq_some_iff.mp hservice
  obtain rfl : i = f.blockServiceIx := by
    rw [hindex i (by omega)] at hix
    exact Except.ok.inj hix
  have hall := getElem?_of_isPrefix hpre hi
  obtain ⟨service', hservice', hblock'⟩ := Option.map_eq_some_iff.mp hall
  rw [decode, hservice', Option.map_some, hid, hcrc, hblock']

lemma SpanBlocksBody.alloc_self (loc : SpanBlocksBody) :
    SpanBlocksBody.alloc loc.location loc.storageClass loc.parity loc.stripes loc.cellSize
      loc.blocks loc.stripesCrc = some loc :=
  dif_pos ⟨loc.blocks_length, loc.stripesCrc_length, loc.allocated⟩

lemma FetchedBlocks.decode_of_shows (hindex : ∀ i < 2 ^ 8, r.index i = .ok i)
    (hlength : listed.length ≤ 2 ^ 8) (hpre : listed <+: services) {loc : SpanBlocksBody}
    {f : FetchedBlocks} (h : f.Shows r listed loc) : f.decode services = some loc := by
  have hblocks : f.blocks.mapM (FetchedBlock.decode services) = some (loc.blocks.map id) :=
    mapM_of_forall₂ (h.blocks.imp fun _ _ hshow =>
      FetchedBlock.decode_of_shows hindex hlength hpre hshow)
  rw [decode, hblocks, h.location, h.storageClass, h.parity, h.stripes, h.cellSize, h.stripesCrc,
    map_id]
  exact loc.alloc_self

lemma FetchedSpan.decode_of_shows (hindex : ∀ i < 2 ^ 8, r.index i = .ok i)
    (hlength : listed.length ≤ 2 ^ 8) (hpre : listed <+: services) {e : SpanKey × SpanBody}
    {f : FetchedSpan} (h : f.Shows r listed e) :
    f.decode services = some (r.view (e.1.offset, e.2)) := by
  obtain ⟨hoffset, hsize, hcrc, hstorage⟩ := h
  obtain ⟨key, size, crc, storage⟩ := e
  obtain ⟨offset, fsize, fcrc, fstorage⟩ := f
  simp only at hoffset hsize hcrc
  subst hoffset hsize hcrc
  cases storage <;> cases fstorage <;> simp only at hstorage
  · subst hstorage
    rfl
  have hlocations := mapM_of_forall₂ (h := id) (hstorage.imp fun _ _ hshow =>
    FetchedBlocks.decode_of_shows hindex hlength hpre hshow)
  simp only [FetchedSpan.decode, hlocations, map_id]
  rfl

end

/-! ## The services of a page

A page has no room for more than 256 services: each block takes 13 bytes besides those of its
service, and there are at most 16 blocks to share the bytes of a location. -/

/-- The stored parities are valid, as `_checkSpanBody` has it. -/
def SpanBody.ValidParity (span : SpanBody) : Prop := ∀ loc ∈ span.locations, loc.parity.Valid

instance (span : SpanBody) : Decidable span.ValidParity :=
  inferInstanceAs (Decidable (∀ loc ∈ span.locations, loc.parity.Valid))

/-- What the readers have in common. -/
structure SpanReader.Regular (r : SpanReader) : Prop where
  asserts : r.Asserts
  index : ∀ i < 2 ^ 8, r.index i = .ok i
  stored : ∀ span, ∀ loc ∈ r.locations span, loc ∈ span.locations
  dense : ∀ span, span.ValidParity → 14 * (r.services span).length ≤ r.spanSize span
  /-- An index that does not fit into a byte is taken, or there is one location at most. -/
  reach : (∀ i, (r.index i).isOk) ∨ ∀ span, span.ValidParity →
    (r.services span).length ≤ 16 ∧ 239 * (r.services span).length ≤ 16 * r.spanSize span

lemma blocks_le {loc : SpanBlocksBody} (h : loc.parity.Valid) : loc.blocks.length ≤ 16 := by
  rw [loc.blocks_length, Parity.blocks]
  obtain ⟨-, hdata, hparity, -⟩ := h
  omega

lemma stripesCrc_pos (loc : SpanBlocksBody) : 1 ≤ loc.stripesCrc.length := by
  rw [loc.stripesCrc_length]
  exact loc.allocated.1.1

lemma regular_full : SpanReader.full.Regular where
  asserts := asserts_full
  index i hi := by
    show Except.ok (i % 2 ^ 8) = _
    rw [Nat.mod_eq_of_lt hi]
  stored _ _ h := h
  reach := .inl fun _ => rfl
  dense span hvalid := by
    obtain ⟨size, crc, storage⟩ := span
    cases storage with
    | inline => simp [SpanReader.services]
    | blocks first rest =>
      have hsum : ∀ locs : List SpanBlocksBody, (∀ loc ∈ locs, loc.parity.Valid) →
          14 * (locs.flatMap fun loc => loc.blocks.map BlockBody.blockService).length ≤
            (locs.map fun loc => SpanReader.full.locationSize + (1 + 8 + 4) * loc.blocks.length +
              4 * loc.stripesCrc.length).sum := by
        intro locs hlocs
        induction locs with
        | nil => simp
        | cons loc locs ih =>
          have hloc := blocks_le (hlocs loc (by simp))
          have hstripes := stripesCrc_pos loc
          have hrest := ih fun loc' hloc' => hlocs loc' (by simp [hloc'])
          have hsize : SpanReader.full.locationSize = 12 := rfl
          simp only [flatMap_cons, length_append, length_map, map_cons, sum_cons]
          omega
      have hall := hsum (first :: rest) hvalid
      simp only [SpanReader.services, SpanReader.spanSize]
      have hlocs : SpanReader.full.locations ⟨size, crc, .blocks first rest⟩ = first :: rest := rfl
      rw [hlocs]
      omega

lemma localTo_locations (locationId : ℕ) (span : SpanBody) :
    (SpanReader.localTo locationId).locations span = [] ∨
      ∃ loc ∈ span.locations, (SpanReader.localTo locationId).locations span = [loc] := by
  simp only [SpanReader.localTo]
  cases hfind : span.locations.find? fun loc => loc.location = locationId with
  | some loc => exact .inr ⟨loc, mem_of_find?_eq_some hfind, rfl⟩
  | none =>
    cases hhead : span.locations.head? with
    | none => exact .inl rfl
    | some loc => exact .inr ⟨loc, mem_of_head? hhead, rfl⟩

lemma regular_localTo (locationId : ℕ) : (SpanReader.localTo locationId).Regular := by
  have hspan : ∀ span : SpanBody, span.ValidParity →
      ((SpanReader.localTo locationId).services span).length ≤ 16 ∧
        239 * ((SpanReader.localTo locationId).services span).length ≤
          16 * (SpanReader.localTo locationId).spanSize span := by
    intro span hvalid
    have hlocs := localTo_locations locationId span
    have hsize : (SpanReader.localTo locationId).locationSize = 10 := rfl
    obtain ⟨size, crc, storage⟩ := span
    cases storage with
    | inline => simp [SpanReader.services]
    | blocks =>
      simp only [SpanReader.services, SpanReader.spanSize]
      rcases hlocs with hnil | ⟨loc, hmem, hone⟩
      · rw [hnil]
        simp
      have hloc := blocks_le (hvalid loc hmem)
      have hstripes := stripesCrc_pos loc
      rw [hone]
      simp only [flatMap_cons, flatMap_nil, append_nil, length_map,
        map_cons, map_nil, sum_cons, sum_nil]
      omega
  refine ⟨asserts_localTo locationId, fun i hi => if_pos hi, fun span loc hloc => ?_,
    fun span hvalid => ?_, .inr hspan⟩
  · rcases localTo_locations locationId span with hnil | ⟨loc', hmem, hone⟩
    · rw [hnil] at hloc
      cases hloc
    · rw [hone] at hloc
      obtain rfl : loc = loc' := by simpa using hloc
      exact hmem
  · have := hspan span hvalid
    omega

variable {spans : List SpanBody}

section

variable {r : SpanReader} {cache : BlockServicesCache}

/-- The spans take up room for each service. -/
lemma spanSizes_ge {a b : ℕ}
    (h : ∀ span ∈ spans, a * (r.services span).length ≤ b * r.spanSize span) :
    a * (spans.flatMap r.services).length ≤ b * (spans.map r.spanSize).sum := by
  induction spans with
  | nil => simp
  | cons span spans ih =>
    have hone := h span (by simp)
    have hrest := ih fun span' hspan' => h span' (by simp [hspan'])
    simp only [flatMap_cons, length_append, map_cons, sum_cons, mul_add]
    omega

/-- The services of the spans on a page have indices of one byte. -/
lemma length_listed_le (hr : r.Regular)
    (hvalid : ∀ span ∈ spans, span.ValidParity) (hcost : r.spansCost [] spans ≤ 8947) :
    (listServices [] (spans.flatMap r.services)).length ≤ 2 ^ 8 := by
  have hsizes : 14 * (spans.flatMap r.services).length ≤ 1 * (spans.map r.spanSize).sum :=
    spanSizes_ge fun span hspan => by
      have := hr.dense span (hvalid span hspan)
      omega
  have hle := length_listServices_le [] (spans.flatMap r.services)
  have hstatic : BlockService.staticSize = 21 := rfl
  simp only [SpanReader.spansCost, servicesCost, length_nil, hstatic] at hcost hle
  omega

/-- No block is met that cannot be read. -/
lemma not_meetsBadSpan (hr : r.Regular) {budget : ℤ} (hvalid : ∀ span ∈ spans, span.ValidParity)
    (hcached : ∀ span ∈ spans, ∀ x ∈ r.services span, cache x ≠ none) (hbudget : budget ≤ 8947) :
    ¬ MeetsBadSpan r cache [] budget spans := by
  rintro ⟨before, span, after, rfl, before', x, after', hservices, hbad, hcost⟩
  have hx : x ∈ r.services span := by rw [hservices]; simp
  rcases hbad with hnone | hindex
  · exact hcached span (by simp) x hx hnone
  rcases hr.reach with hok | hfew
  · exact hindex (hok _)
  obtain ⟨hspan, -⟩ := hfew span (hvalid span (by simp))
  have hsizes : 239 * (before.flatMap r.services).length ≤ 16 * (before.map r.spanSize).sum :=
    spanSizes_ge fun span' hspan' => (hfew span' (hvalid span' (by simp [hspan']))).2
  have hlisted := length_listServices_le [] (before.flatMap r.services)
  have hlast := length_listServices_le (listServices [] (before.flatMap r.services))
    (before' ++ [x])
  have hlength : (before' ++ [x]).length ≤ 16 := by
    rw [hservices] at hspan
    simp only [length_append, length_cons, length_nil] at hspan ⊢
    omega
  -- the index is refused: there are 257 services
  have hmany : 257 ≤ (listServices (listServices [] (before.flatMap r.services))
      (before' ++ [x])).length := by
    by_contra hlt
    refine hindex ?_
    rw [hr.index _ (by omega)]
    rfl
  have hstatic : BlockService.staticSize = 21 := rfl
  simp only [SpanReader.spansCost, servicesCost, length_nil, hstatic] at hcost hlisted
  omega

end

/-! ## Where a page starts -/

/-- The entry of a span of a file. -/
def spanEntry (f : InodeId) (e : ℕ × SpanBody) : SpanKey × SpanBody := (⟨f, e.1⟩, e.2)

/-- The spans of a file of size `n` to be read from an offset on: those that reach beyond it, and at
the end of the file the last one. -/
def ShardDB.spansAt (db : ShardDB) (f : InodeId) (n off : ℕ) : List (ℕ × SpanBody) :=
  (db.fileSpans f).filter fun e => off < e.1 + e.2.spanSize ∨ off = n ∧ e.1 + e.2.spanSize = n

lemma takeWhile_eq_filter {α : Type} {p : α → Bool} {l : List α}
    (h : l.Pairwise fun a b => p b → p a) : l.takeWhile p = l.filter p := by
  induction l with
  | nil => rfl
  | cons a l ih =>
    obtain ⟨ha, hl⟩ := pairwise_cons.mp h
    cases hp : p a with
    | true => rw [takeWhile_cons_of_pos hp, filter_cons_of_pos hp, ih hl]
    | false =>
      have hnone : l.filter p = [] := by
        refine filter_eq_nil_iff.mpr fun b hb hpb => ?_
        rw [ha b hb hpb] at hp
        cases hp
      rw [takeWhile_cons_of_neg (by simp [hp]), filter_cons_of_neg (by simp [hp]), hnone]

section

variable {db : ShardDB} {f : InodeId} {n off : ℕ}

lemma ShardDB.filter_entries_eq (db : ShardDB) (f : InodeId) :
    (db.spans.entries.filter fun e => e.1.fileId = f) = (db.fileSpans f).map (spanEntry f) := by
  rw [ShardDB.fileSpans, map_map]
  refine ((map_congr_left fun e he => ?_).trans (map_id _)).symm
  obtain ⟨⟨f', o⟩, span⟩ := e
  obtain rfl : f' = f := by simpa using (mem_filter.mp he).2
  rfl

/-- The iterator starts at the last span that starts at the offset or before it. -/
lemma ShardDB.spansFrom_of_split {l l' : List (ℕ × SpanBody)} {e : ℕ × SpanBody}
    (hspans : db.fileSpans f = l ++ e :: l') (hle : e.1 ≤ off) (hlater : ∀ e' ∈ l', off < e'.1) :
    db.spansFrom f off = (e :: l').map (spanEntry f) := by
  have hsorted : SortedEntries (db.fileSpans f) := sorted_fileSpans f
  have hget : db.spans.get ⟨f, e.1⟩ = some e.2 :=
    mem_fileSpans.mp (by rw [hspans]; simp)
  have hkey : (⟨f, e.1⟩ : SpanKey) ≤ ⟨f, off⟩ := SpanKey.le_def.mpr (.inr ⟨rfl, hle⟩)
  -- what is found starts there
  have hseek : db.spans.seekForPrev ⟨f, off⟩ = some (⟨f, e.1⟩, e.2) := by
    cases hfound : db.spans.seekForPrev ⟨f, off⟩ with
    | none =>
      have hnone := seekForPrev_eq_none_iff.mp hfound _ hkey
      rw [hget] at hnone
      cases hnone
    | some found =>
      obtain ⟨⟨f', o⟩, span⟩ := found
      obtain ⟨hgot, hupto, hmax⟩ := seekForPrev_spec hfound
      have hfrom := hmax _ hkey (by simp [hget])
      rw [SpanKey.le_def] at hupto hfrom
      obtain rfl : f' = f := by
        rcases hupto with hlt | ⟨heq, -⟩
        · rcases hfrom with hlt' | ⟨heq, -⟩
          · exact absurd (hlt.trans hlt') (lt_irrefl _)
          · exact heq.symm
        · exact heq
      simp only [lt_irrefl, true_and, false_or] at hupto hfrom
      have hmem : (o, span) ∈ l ++ e :: l' := by
        rw [← hspans]
        exact mem_fileSpans.mpr hgot
      rw [hspans] at hsorted
      obtain ⟨-, -, hbefore⟩ := pairwise_append.mp hsorted
      rcases mem_append.mp hmem with hin | hin
      · have hlt : o < e.1 := hbefore _ hin e (by simp)
        omega
      rcases mem_cons.mp hin with rfl | hin
      · rfl
      · have hlt := hlater _ hin
        omega
  rw [ShardDB.spansFrom, hseek]
  -- the iterator goes on to the end of the file
  have hwhile : (db.spans.seek ⟨f, e.1⟩).takeWhile (fun e' => e'.1.fileId = f) =
      (db.spans.seek ⟨f, e.1⟩).filter fun e' => e'.1.fileId = f := by
    refine takeWhile_eq_filter ?_
    have hseek' : SortedEntries (db.spans.seek ⟨f, e.1⟩) := db.spans.sorted.filter _
    refine hseek'.imp_of_mem fun {a b} ha _ hlt hb => ?_
    obtain ⟨hfrom, -⟩ := mem_seek.mp ha
    simp only [decide_eq_true_eq] at hb ⊢
    rcases SpanKey.le_def.mp hfrom with hfa | ⟨heq, -⟩
    · rcases SpanKey.lt_def.mp hlt with hab | ⟨heq, -⟩
      · rw [hb] at hab
        exact absurd (hfa.trans hab) (lt_irrefl _)
      · exact heq.trans hb
    · exact heq.symm
  simp only [hwhile]
  rw [SortedStore.seek, filter_filter]
  have hcomm : (db.spans.entries.filter fun e' => decide (e'.1.fileId = f) &&
      decide ((⟨f, e.1⟩ : SpanKey) ≤ e'.1)) =
      (db.spans.entries.filter fun e' => e'.1.fileId = f).filter
        fun e' => (⟨f, e.1⟩ : SpanKey) ≤ e'.1 := by
    rw [filter_filter]
    exact filter_congr fun _ _ => Bool.and_comm _ _
  rw [hcomm, db.filter_entries_eq, hspans, map_append, filter_append]
  rw [hspans] at hsorted
  obtain ⟨-, hright, hbefore⟩ := pairwise_append.mp hsorted
  rw [filter_eq_nil_iff.mpr, filter_eq_self.mpr, nil_append]
  · intro x hx
    obtain ⟨e', he', rfl⟩ := mem_map.mp hx
    simp only [decide_eq_true_eq, spanEntry, SpanKey.le_def, lt_irrefl, true_and, false_or]
    rcases mem_cons.mp he' with rfl | he'
    · exact le_refl _
    · exact ((pairwise_cons.mp hright).1 e' he').le
  · intro x hx
    obtain ⟨e', he', rfl⟩ := mem_map.mp hx
    have hlt : e'.1 < e.1 := hbefore e' he' e (by simp)
    simp only [decide_eq_true_eq, spanEntry, SpanKey.le_def, lt_irrefl, true_and, false_or]
    omega

lemma ShardDB.spansFrom_of_nil (hspans : db.fileSpans f = []) : db.spansFrom f off = [] := by
  rw [ShardDB.spansFrom]
  cases db.spans.seekForPrev ⟨f, off⟩ with
  | none => rfl
  | some =>
    refine eq_nil_iff_forall_not_mem.mpr fun e he => ?_
    have hfile := mem_takeWhile_imp he
    have hmem := (takeWhile_sublist _).mem he
    obtain ⟨-, hget⟩ := mem_seek.mp hmem
    obtain ⟨⟨f', o⟩, span⟩ := e
    obtain rfl : f' = f := by simpa using hfile
    have hin : (o, span) ∈ db.fileSpans f' := mem_fileSpans.mpr hget
    rw [hspans] at hin
    cases hin

/-- The spans that a request at an offset gets with no limit and any room, and where they start. -/
lemma ShardDB.spansAt_cases (htiles : Tiles SpanBody.spanSize 0 (db.fileSpans f) n)
    (hn : n < 2 ^ 64) (off : ℕ) :
    (db.spansFrom f off).takeWhile (fun e => ¬ addU64 e.1.offset e.2.spanSize < off) =
        (db.spansAt f n off).map (spanEntry f) ∧
      ∀ l e l', db.spansAt f n off = l ++ e :: l' → db.spansAt f n e.1 = e :: l' ∧
        (l ≠ [] → off < e.1) := by
  have hend : ∀ e ∈ db.fileSpans f, addU64 e.1 e.2.spanSize = e.1 + e.2.spanSize := by
    intro e he
    have hwithin := htiles.within he
    exact Nat.mod_eq_of_lt (by omega)
  cases hnil : db.fileSpans f with
  | nil =>
    have hat : ∀ off, db.spansAt f n off = [] := fun off => by simp [ShardDB.spansAt, hnil]
    rw [ShardDB.spansFrom_of_nil hnil, hat]
    exact ⟨rfl, fun l e l' h => by simp at h⟩
  | cons =>
    have hne : db.fileSpans f ≠ [] := by simp [hnil]
    obtain ⟨l₁, e, l₂, hsplit, hle, hlater⟩ := htiles.exists_last (Nat.zero_le off) hne
    rw [ShardDB.spansFrom_of_split hsplit hle hlater]
    have htiles' := htiles
    rw [hsplit] at htiles'
    by_cases hoff : off ≤ n
    · have hat : db.spansAt f n off = e :: l₂ := by
        rw [ShardDB.spansAt, hsplit]
        exact htiles'.filter_reaching hle hlater hoff
      refine ⟨?_, fun l x l' hx => ?_⟩
      · rw [hat]
        refine takeWhile_eq_self_iff.mpr fun x hx => ?_
        obtain ⟨y, hy, rfl⟩ := mem_map.mp hx
        have hreach : y ∈ db.spansAt f n off := by rw [hat]; exact hy
        obtain ⟨hmem, hreach⟩ := mem_filter.mp hreach
        simp only [spanEntry, hend y hmem, decide_eq_true_eq] at hreach ⊢
        omega
      · rw [hat] at hx
        -- the spans from one of them on
        have hsplit' : db.fileSpans f = (l₁ ++ l) ++ x :: l' := by
          rw [hsplit, hx, append_assoc]
        have htiles'' := htiles
        rw [hsplit'] at htiles''
        have hsorted : SortedEntries (db.fileSpans f) := sorted_fileSpans f
        rw [hsplit', SortedEntries, pairwise_append] at hsorted
        obtain ⟨-, hright, -⟩ := hsorted
        have hwithin := htiles.within (show x ∈ db.fileSpans f by rw [hsplit']; simp)
        refine ⟨?_, fun hl => ?_⟩
        · rw [ShardDB.spansAt, hsplit']
          exact htiles''.filter_reaching (le_refl _) (pairwise_cons.mp hright).1 (by omega)
        · obtain ⟨y, l, rfl⟩ := exists_cons_of_ne_nil hl
          obtain ⟨-, hl₂⟩ := cons.inj hx
          exact hlater x (by rw [hl₂]; simp)
    · -- behind the end of the file
      have hat : db.spansAt f n off = [] := by
        refine filter_eq_nil_iff.mpr fun y hy => ?_
        have hwithin := htiles.within hy
        simp only [decide_eq_true_eq]
        omega
      refine ⟨?_, fun l x l' hx => by simp [hat] at hx⟩
      have hwithin := htiles.within (show e ∈ db.fileSpans f by rw [hsplit]; simp)
      rw [hat, map_cons, takeWhile_cons_of_neg]
      · rfl
      · simp only [spanEntry, hend e (by rw [hsplit]; simp), decide_eq_true_eq]
        omega

end

/-! ## Following the offsets -/

/-- The request for the spans from another offset on. -/
def FileSpansReq.follow (req : FileSpansReq) (off : ℕ) : FileSpansReq :=
  { req with byteOffset := off }

/-- The page that a client gets from a handler at an offset.  The next offset 0 ends the reading. -/
def FileSpansReq.page (read : FileSpansReq → Read FileSpansResp) (req : FileSpansReq) (off : ℕ) :
    Option (Page ℕ ReadSpan) :=
  match read (req.follow off) with
  | .ok resp => resp.decode.map fun spans =>
    ⟨spans, if resp.nextOffset = 0 then none else some resp.nextOffset⟩
  | .error _ => none

/-- A page that reaches the limit. -/
def FileSpansReq.ReachesLimit (req : FileSpansReq) (p : Page ℕ ReadSpan) : Prop :=
  0 < req.limit ∧ p.items.length = req.limit

/-- A file that spans tile, with valid parities and with blocks on known services. -/
structure ReadableFile (cache : BlockServicesCache) (db : ShardDB) (f : InodeId) (n : ℕ) : Prop where
  isFile : f.IsFile
  size : db.HasSize f n
  tiles : Tiles SpanBody.spanSize 0 (db.fileSpans f) n
  /-- Sizes are 64-bit words. -/
  bound : n < 2 ^ 64
  parity : ∀ e ∈ db.fileSpans f, e.2.ValidParity
  cached : ∀ e ∈ db.fileSpans f, ∀ block ∈ e.2.blocks, cache block.blockService ≠ none

/-- Following the next offsets from a request on gives the spans of the file from its offset on. -/
def FileSpansReq.PagesRead (r : SpanReader) (read : FileSpansReq → Read FileSpansResp) (db : ShardDB)
    (n : ℕ) (req : FileSpansReq) : Prop :=
  ∃ pages, followPages (req.page read) ((db.spansAt req.fileId n req.byteOffset).length + 1)
      req.byteOffset = some pages ∧
    PagesCover ((db.spansAt req.fileId n req.byteOffset).map r.view) req.ReachesLimit (· < ·)
      req.byteOffset pages

section

variable {r : SpanReader} {cache : BlockServicesCache} {db : ShardDB} {req : FileSpansReq} {n : ℕ}

lemma ReadableFile.hasFile {f : InodeId} (h : ReadableFile cache db f n) : db.HasFile f := by
  rcases h.size with ⟨file, hget, -⟩ | ⟨file, hget, -⟩
  · exact .inl (by simp [hget])
  · exact .inr (by simp [hget])

/-- The services of a span that are listed are those of its blocks. -/
lemma ReadableFile.known {f : InodeId} (hr : r.Regular) (h : ReadableFile cache db f n)
    {e : ℕ × SpanBody} (he : e ∈ db.fileSpans f) : ∀ x ∈ r.services e.2, cache x ≠ none := by
  intro x hx
  have hstored := hr.stored e.2
  have hcached := h.cached e he
  unfold SpanReader.services at hx
  split at hx
  · cases hx
  · obtain ⟨loc, hloc, hx⟩ := mem_flatMap.mp hx
    obtain ⟨block, hblock, rfl⟩ := mem_map.mp hx
    exact hcached block (mem_flatMap.mpr ⟨loc, hstored loc hloc, hblock⟩)

lemma readSpans_of_loop (wrongType : TernError) {resp : FileSpansResp} (hfile : req.fileId.IsFile)
    (hhas : db.HasFile req.fileId)
    (hloop : fileSpansLoop r cache req (db.spansFrom req.fileId req.byteOffset) req.start [] =
      .ok resp) :
    readSpans r cache db wrongType req = .ok resp := by
  rw [readSpans, ensure_of hfile, ok_bind, hloop, ok_bind]
  split_ifs
  · rw [(checkFileExists_eq db hfile).1 hhas]
    rfl
  · rfl

lemma readable_eq (h : ReadableFile cache db req.fileId n) :
    ∃ got tail, db.spansAt req.fileId n req.byteOffset = got ++ tail ∧
      req.readable 0 (db.spansFrom req.fileId req.byteOffset) = got.map (spanEntry req.fileId) ∧
      (tail = [] ∨ 0 < req.limit ∧ got.length = req.limit) := by
  obtain ⟨hwhile, -⟩ := ShardDB.spansAt_cases h.tiles h.bound req.byteOffset
  set spans := db.spansAt req.fileId n req.byteOffset
  by_cases hlimit : req.limit = 0
  · refine ⟨spans, [], (append_nil _).symm, ?_, .inl rfl⟩
    rw [FileSpansReq.readable, if_pos hlimit, hwhile]
  refine ⟨spans.take req.limit, spans.drop req.limit, (take_append_drop _ _).symm, ?_, ?_⟩
  · rw [FileSpansReq.readable, if_neg hlimit, Nat.sub_zero, ← take_takeWhile, hwhile,
      map_take]
  · by_cases hlong : req.limit ≤ spans.length
    · exact .inr ⟨Nat.pos_of_ne_zero hlimit, by rw [length_take, min_eq_left hlong]⟩
    · exact .inl (drop_eq_nil_of_le (by omega))

lemma decode_of_shows (hr : r.Regular) {nextOffset : ℕ} {services listed : List BlockService}
    {kept : List (ℕ × SpanBody)} {out : List FetchedSpan}
    (hparity : ∀ e ∈ kept, e.2.ValidParity)
    (hcost : (r.spansCost [] ((kept.map (spanEntry req.fileId)).map Prod.snd) : ℤ) ≤ 8947)
    (hids : listed.map BlockService.id = listServices []
      (((kept.map (spanEntry req.fileId)).map Prod.snd).flatMap r.services))
    (hlisted : listed <+: services)
    (hshows : List.Forall₂ (FetchedSpan.Shows r listed) (kept.map (spanEntry req.fileId)) out) :
    (FileSpansResp.mk nextOffset services out).decode = some (kept.map r.view) := by
  have hsnd : (kept.map (spanEntry req.fileId)).map Prod.snd = kept.map Prod.snd := by
    rw [map_map]
    rfl
  rw [hsnd] at hcost hids
  have hlength : listed.length ≤ 2 ^ 8 := by
    rw [← length_map (f := BlockService.id), hids]
    refine length_listed_le hr (fun span hspan => ?_) (by omega)
    obtain ⟨e, he, rfl⟩ := mem_map.mp hspan
    exact hparity e he
  have hdecode : out.mapM (FetchedSpan.decode services) =
      some ((kept.map (spanEntry req.fileId)).map fun e => r.view (e.1.offset, e.2)) :=
    mapM_of_forall₂ (hshows.imp fun _ _ hshow =>
      FetchedSpan.decode_of_shows hr.index hlength hlisted hshow)
  rw [map_map] at hdecode
  exact hdecode

variable (req) in
/-- A page is the beginning of what is to be read, and ends at the limit, at the end of the file, or
at the next offset. -/
lemma readSpans_page_spec (hr : r.Regular) (wrongType : TernError)
    (h : ReadableFile cache db req.fileId n) (hmtu : minUdpMtu ≤ req.mtu)
    (hfits : ∀ e ∈ db.fileSpans req.fileId, (r.spansCost [] [e.2] : ℤ) ≤ req.start.budget) :
    ∃ resp kept left, readSpans r cache db wrongType req = .ok resp ∧
      resp.decode = some (kept.map r.view) ∧
      db.spansAt req.fileId n req.byteOffset = kept ++ left ∧
      (resp.nextOffset = 0 ∧ (left = [] ∨ 0 < req.limit ∧ kept.length = req.limit) ∨
        ∃ e l, left = e :: l ∧ resp.nextOffset = e.1 ∧ kept ≠ []) := by
  obtain ⟨got, tail, hat, hreadable, htail⟩ := readable_eq h
  have hbudget : 0 ≤ req.start.budget ∧ req.start.budget ≤ 8947 := by
    have hpick : minUdpMtu ≤ pickMtu req.mtu ∧ pickMtu req.mtu ≤ maxUdpMtu := by
      unfold pickMtu minUdpMtu maxUdpMtu defaultUdpMtu at *
      split_ifs <;> omega
    have hstart : req.start.budget =
        (pickMtu req.mtu : ℤ) - shardRespMsgSize - FileSpansResp.staticSize := rfl
    have h1 : shardRespMsgSize = 37 := rfl
    have h2 : FileSpansResp.staticSize = 12 := rfl
    have h3 : minUdpMtu = 548 := rfl
    have h4 : maxUdpMtu = 8972 := rfl
    omega
  have hmem : ∀ e ∈ got, e ∈ db.fileSpans req.fileId := by
    intro e he
    have hin : e ∈ db.spansAt req.fileId n req.byteOffset := by
      rw [hat]
      exact mem_append_left _ he
    exact mem_of_mem_filter hin
  have hreads : ReadsSpans r cache req.start (got.map (spanEntry req.fileId)) []
      (fileSpansLoop r cache req (db.spansFrom req.fileId req.byteOffset) req.start []) := by
    rw [← hreadable]
    exact fileSpansLoop_reads hr.asserts req _ [] good_nil hbudget.1
  have hids₀ : req.start.ids = [] := rfl
  cases hloop : fileSpansLoop r cache req (db.spansFrom req.fileId req.byteOffset) req.start [] with
  | error e =>
    rw [hloop] at hreads
    cases hreads with
    | fault e he hbad =>
      refine absurd hbad (not_meetsBadSpan hr (fun span hspan => ?_) (fun span hspan => ?_) hbudget.2)
      all_goals
        obtain ⟨x, hx, rfl⟩ := mem_map.mp hspan
        obtain ⟨e', he', rfl⟩ := mem_map.mp hx
      · exact h.parity e' (hmem e' he')
      · exact h.known hr (hmem e' he')
  | ok resp =>
    have hrun := readSpans_of_loop wrongType h.isFile h.hasFile hloop
    rw [hloop] at hreads
    generalize hresp : (Except.ok resp : Read FileSpansResp) = result at hreads
    cases hreads with
    | fault => cases hresp
    | all services out hbad hcost hids hpre hshows =>
      obtain rfl : resp = ⟨0, services, [] ++ out⟩ := Except.ok.inj hresp
      refine ⟨_, got, tail, hrun, ?_, hat, .inl ⟨rfl, htail⟩⟩
      exact decode_of_shows hr (fun e he => h.parity e (hmem e he)) (hcost.trans hbudget.2) hids
        (prefix_refl _) hshows
    | cut services listed out kept next rest hspans hbad hcost hfull hpaid hids hpre hlisted hshows =>
      obtain rfl : resp = ⟨next.1.offset, services, [] ++ out⟩ := Except.ok.inj hresp
      obtain ⟨kept, later, rfl, rfl, hlater⟩ := map_eq_append_iff.mp hspans
      obtain ⟨e, l, rfl, rfl, -⟩ := map_eq_cons_iff.mp hlater
      refine ⟨_, kept, e :: l ++ tail, hrun, ?_, by rw [hat, append_assoc],
        .inr ⟨e, l ++ tail, rfl, rfl, ?_⟩⟩
      · exact decode_of_shows hr (fun e' he' => h.parity e' (hmem e' (by simp [he'])))
          (hcost.trans hbudget.2) hids hlisted hshows
      -- the first span fits
      rintro rfl
      have hfit := hfits e (hmem e (by simp))
      exact absurd hfit (not_le.mpr hfull)

/-- Reading the spans of a file, with either handler. -/
lemma readSpans_pagesRead (hr : r.Regular) (wrongType : TernError)
    (h : ReadableFile cache db req.fileId n) (hmtu : minUdpMtu ≤ req.mtu)
    (hfits : ∀ e ∈ db.fileSpans req.fileId, (r.spansCost [] [e.2] : ℤ) ≤ req.start.budget) :
    req.PagesRead r (readSpans r cache db wrongType) db n := by
  let rest (off : ℕ) : List ReadSpan := (db.spansAt req.fileId n off).map r.view
  suffices hpage : ∀ off, True → ∃ p left, req.page (readSpans r cache db wrongType) off = some p ∧
      rest off = p.items ++ left ∧ (p.next = none → left = [] ∨ req.ReachesLimit p) ∧
      ∀ off', p.next = some off' → True ∧ rest off' = left ∧ p.items ≠ [] ∧ off < off' by
    have hcover := followPages_cover hpage ((db.spansAt req.fileId n req.byteOffset).length + 1)
      req.byteOffset trivial (by simp [rest])
    exact hcover
  intro off _
  obtain ⟨resp, kept, left, hread, hdecode, hat, hend⟩ :=
    readSpans_page_spec (req.follow off) hr wrongType h hmtu hfits
  refine ⟨⟨kept.map r.view, if resp.nextOffset = 0 then none else some resp.nextOffset⟩,
    left.map r.view, ?_, ?_, ?_, ?_⟩
  · rw [FileSpansReq.page, hread]
    simp [hdecode]
  · rw [← map_append, ← hat]
    rfl
  · intro hnone
    rcases hend with ⟨-, hleft | ⟨hpos, hlength⟩⟩ | ⟨e, l, hleft, hnext, hne⟩
    · exact .inl (by rw [hleft, map_nil])
    · exact .inr ⟨hpos, by rw [length_map]; exact hlength⟩
    rw [hleft] at hat
    obtain ⟨-, hlt⟩ := (ShardDB.spansAt_cases h.tiles h.bound off).2 kept e l hat
    have hpos := hlt hne
    rw [if_neg (by omega)] at hnone
    cases hnone
  · intro off' hsome
    split_ifs at hsome with hzero
    obtain rfl : resp.nextOffset = off' := by simpa using hsome
    rcases hend with ⟨hnext, -⟩ | ⟨e, l, hleft, hnext, hne⟩
    · exact absurd hnext hzero
    rw [hleft] at hat
    obtain ⟨hfrom, hlt⟩ := (ShardDB.spansAt_cases h.tiles h.bound off).2 kept e l hat
    refine ⟨trivial, ?_, by simpa using hne, by rw [hnext]; exact hlt hne⟩
    show (db.spansAt req.fileId n resp.nextOffset).map r.view = _
    rw [hnext, hfrom, hleft]

end

/-- Following the next offsets of `_fileSpans` or of `_localFileSpans` gives the spans of a file from
an offset on in order, each once, with its services, all of them unless a page reaches the limit; the
offsets grow, and the last one is 0. -/
theorem fileSpans_pagesRead (cache : BlockServicesCache) (db : ShardDB) (locationId n : ℕ)
    (req : FileSpansReq) (h : ReadableFile cache db req.fileId n) (hmtu : minUdpMtu ≤ req.mtu) :
    ((∀ e ∈ db.fileSpans req.fileId, (SpanReader.full.spansCost [] [e.2] : ℤ) ≤ req.start.budget) →
      req.PagesRead .full (fileSpans cache db) db n) ∧
    ((∀ e ∈ db.fileSpans req.fileId,
        ((SpanReader.localTo locationId).spansCost [] [e.2] : ℤ) ≤ req.start.budget) →
      req.PagesRead (.localTo locationId) (localFileSpans cache locationId db) db n) :=
  ⟨readSpans_pagesRead regular_full .typeIsDirectory h hmtu,
    readSpans_pagesRead (regular_localTo locationId) .blockIoErrorFile h hmtu⟩

/-! ## Sample files -/

/-- A span with one stripe of blocks on the services from 0 on. -/
def sampleSpan (parity : Parity) (h : 0 < parity.dataBlocks) : SpanBody :=
  ⟨4096, 0, .blocks ⟨0, 2, parity, 1, 4096, (List.range parity.blocks).map fun i => ⟨i, i + 1, 0⟩,
    [0], by simp, rfl, ⟨by decide, h, by decide, by decide⟩⟩ []⟩

/-- A file with two spans, of two blocks or of sixteen. -/
def sampleSpans (parity : Parity) (h : 0 < parity.dataBlocks) : ShardDB :=
  { initDb sampleConfig 0 with
    files := SortedStore.empty.put (sampleFile 1) ⟨8192, 0, 0⟩
    spans := (SortedStore.empty.put ⟨sampleFile 1, 0⟩ (sampleSpan parity h)).put
      ⟨sampleFile 1, 4096⟩ (sampleSpan parity h) }

/-- The request for the spans of the sample file. -/
def sampleFileSpans (limit mtu : ℕ) : FileSpansReq := ⟨sampleFile 1, 0, limit, mtu⟩

lemma sampleSpans_readable :
    ReadableFile sampleCache (sampleSpans ⟨0x11⟩ (by decide)) (sampleFile 1) 8192 :=
  ⟨by decide +kernel, .inl ⟨_, rfl, rfl⟩, by decide +kernel, by decide, by decide +kernel,
    by decide +kernel⟩

theorem fileSpans_pagesRead_sample : (sampleFileSpans 0 minUdpMtu).PagesRead .full
      (fileSpans sampleCache (sampleSpans ⟨0x11⟩ (by decide)))
      (sampleSpans ⟨0x11⟩ (by decide)) 8192 ∧
    (sampleFileSpans 0 minUdpMtu).PagesRead (.localTo 0)
      (localFileSpans sampleCache 0 (sampleSpans ⟨0x11⟩ (by decide)))
      (sampleSpans ⟨0x11⟩ (by decide)) 8192 := by
  have hpages := fileSpans_pagesRead sampleCache (sampleSpans ⟨0x11⟩ (by decide)) 0 8192
    (sampleFileSpans 0 minUdpMtu) sampleSpans_readable (by decide)
  exact ⟨hpages.1 (by decide +kernel), hpages.2 (by decide +kernel)⟩

/-- A limit ends the reading after one page.  With the smallest message size, a span of ten data and
six parity blocks on different services does not fit into a page, and at offset 0 the page for it
looks like the last one. -/
theorem not_readsAll_fileSpans_sample : ¬ ReadsAll ((sampleFileSpans 1 1472).page
        (fileSpans sampleCache (sampleSpans ⟨0x11⟩ (by decide)))) 0
      (((sampleSpans ⟨0x11⟩ (by decide)).spansAt (sampleFile 1) 8192 0).map SpanReader.full.view) ∧
    ¬ ReadsAll ((sampleFileSpans 1 1472).page
        (localFileSpans sampleCache 0 (sampleSpans ⟨0x11⟩ (by decide)))) 0
      (((sampleSpans ⟨0x11⟩ (by decide)).spansAt (sampleFile 1) 8192 0).map
        (SpanReader.localTo 0).view) ∧
    ¬ ReadsAll ((sampleFileSpans 0 minUdpMtu).page
        (fileSpans sampleCache (sampleSpans ⟨0x6a⟩ (by decide)))) 0
      (((sampleSpans ⟨0x6a⟩ (by decide)).spansAt (sampleFile 1) 8192 0).map SpanReader.full.view) ∧
    ¬ ReadsAll ((sampleFileSpans 0 minUdpMtu).page
        (localFileSpans sampleCache 0 (sampleSpans ⟨0x6a⟩ (by decide)))) 0
      (((sampleSpans ⟨0x6a⟩ (by decide)).spansAt (sampleFile 1) 8192 0).map
        (SpanReader.localTo 0).view) := by
  refine ⟨?_, ?_, ?_, ?_⟩
  · exact not_readsAll_of_last (n := 1) (by decide +kernel) (by decide +kernel)
  · exact not_readsAll_of_last (n := 1) (by decide +kernel) (by decide +kernel)
  · exact not_readsAll_of_last (n := 0) (by decide +kernel) (by decide +kernel)
  · exact not_readsAll_of_last (n := 0) (by decide +kernel) (by decide +kernel)

end TernFS
