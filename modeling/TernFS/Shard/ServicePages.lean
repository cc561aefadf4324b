/-
# Block services of a page

What the loops of `_fileSpans` and `_localFileSpans` do to the block services and the budget of a
page, in closed form.  The services of the blocks read are listed in order, each once
(`listServices`); the budget left is what there was without the new ones.  A lookup that throws or
an assertion that fails is met exactly if the services up to that block can be paid for.
-/
import TernFS.Shard.SpanReads
import Mathlib.Tactic.Linarith

namespace TernFS

open Lib List

variable {x : ℕ} {listed l l' : List ℕ} {budget : ℤ} {services' : List BlockService}
  {span : SpanKey × SpanBody}

/-! ## Listing services -/

/-- List services behind the ones that are listed already, each once. -/
def listServices (listed services : List ℕ) : List ℕ :=
  services.foldl (fun l x => if x ∈ l then l else l ++ [x]) listed

@[simp] lemma listServices_nil (listed : List ℕ) : listServices listed [] = listed := rfl

lemma listServices_cons (listed : List ℕ) (x : ℕ) (l : List ℕ) :
    listServices listed (x :: l) = listServices (listServices listed [x]) l := rfl

lemma listServices_append (listed l l' : List ℕ) :
    listServices listed (l ++ l') = listServices (listServices listed l) l' :=
  foldl_append

lemma listServices_of_mem (h : x ∈ listed) : listServices listed [x] = listed :=
  if_pos h

lemma listServices_of_not_mem (h : x ∉ listed) : listServices listed [x] = listed ++ [x] :=
  if_neg h

/-- What is listed stays listed, at its place. -/
lemma prefix_listServices (listed l : List ℕ) : listed <+: listServices listed l := by
  induction l generalizing listed with
  | nil => exact prefix_refl _
  | cons x l ih =>
    rw [listServices_cons]
    refine List.IsPrefix.trans ?_ (ih _)
    by_cases h : x ∈ listed
    · rw [listServices_of_mem h]
    · rw [listServices_of_not_mem h]
      exact prefix_append _ _

lemma length_le_listServices (listed l : List ℕ) : listed.length ≤ (listServices listed l).length :=
  (prefix_listServices listed l).length_le

/-- At most one service is listed for each block. -/
lemma length_listServices_le (listed l : List ℕ) :
    (listServices listed l).length ≤ listed.length + l.length := by
  induction l generalizing listed with
  | nil => simp
  | cons x l ih =>
    rw [listServices_cons]
    have h := ih (listServices listed [x])
    have hone : (listServices listed [x]).length ≤ listed.length + 1 := by
      by_cases hx : x ∈ listed
      · rw [listServices_of_mem hx]
        omega
      · rw [listServices_of_not_mem hx]
        simp
    simp only [length_cons]
    omega

/-- The bytes for the services that are new. -/
def servicesCost (listed services : List ℕ) : ℕ :=
  BlockService.staticSize * ((listServices listed services).length - listed.length)

lemma servicesCost_of_not_mem (h : x ∉ listed) :
    servicesCost listed [x] = BlockService.staticSize := by
  simp [servicesCost, listServices_of_not_mem h]

lemma servicesCost_append (listed l l' : List ℕ) : servicesCost listed (l ++ l') =
      servicesCost listed l + servicesCost (listServices listed l) l' := by
  have h := length_le_listServices listed l
  have h' := length_le_listServices (listServices listed l) l'
  simp only [servicesCost, listServices_append, BlockService.staticSize]
  omega

lemma cast_servicesCost (listed l : List ℕ) : (servicesCost listed l : ℤ) =
    BlockService.staticSize * ((listServices listed l).length - listed.length) := by
  rw [servicesCost]
  push_cast [length_le_listServices listed l]
  rfl

/-! ## Blocks that cannot be read -/

variable (r : SpanReader) (cache : BlockServicesCache)

/-- Reading a block fails at a service that is listed last: it is not in the cache, or its index
is refused. -/
def BadService (listed : List ℕ) (x : ℕ) : Prop :=
  cache x = none ∨ ¬ (r.index (listed.length - 1)).isOk

/-- Among the services there is a bad one that is met: the services up to it can be paid for. -/
def MeetsBad (listed : List ℕ) (budget : ℤ) (services : List ℕ) : Prop :=
  ∃ before x after, services = before ++ x :: after ∧
    BadService r cache (listServices listed (before ++ [x])) x ∧
    servicesCost listed (before ++ [x]) ≤ budget

variable {r cache}

lemma not_meetsBad_nil : ¬ MeetsBad r cache listed budget [] := by
  rintro ⟨before, x, after, h, -⟩
  simp at h

lemma meetsBad_append : MeetsBad r cache listed budget (l ++ l') ↔
      MeetsBad r cache listed budget l ∨
        MeetsBad r cache (listServices listed l) (budget - servicesCost listed l) l' := by
  constructor
  · rintro ⟨before, x, after, hsplit, hbad, hcost⟩
    have hright : ∀ a, before = l ++ a → l' = a ++ x :: after →
        MeetsBad r cache (listServices listed l) (budget - servicesCost listed l) l' := by
      rintro a rfl hl'
      rw [append_assoc, listServices_append] at hbad
      rw [append_assoc, servicesCost_append] at hcost
      exact ⟨a, x, after, hl', hbad, by omega⟩
    rcases append_eq_append_iff.mp hsplit with ⟨a, ha, hl'⟩ | ⟨c, hl, hc⟩
    · exact .inr (hright a ha hl')
    cases c with
    | nil => exact .inr (hright [] (by simpa using hl.symm) (by simpa using hc.symm))
    | cons y c =>
      obtain ⟨rfl, rfl⟩ : x = y ∧ after = c ++ l' := by simpa using hc
      exact .inl ⟨before, x, c, hl, hbad, hcost⟩
  · rintro (⟨before, x, after, rfl, hbad, hcost⟩ | ⟨before, x, after, rfl, hbad, hcost⟩)
    · exact ⟨before, x, after ++ l', by simp, hbad, hcost⟩
    refine ⟨l ++ before, x, after, by simp, ?_, ?_⟩
    · rwa [append_assoc, listServices_append]
    · rw [append_assoc, servicesCost_append]
      omega

lemma meetsBad_singleton : MeetsBad r cache listed budget [x] ↔
      BadService r cache (listServices listed [x]) x ∧ servicesCost listed [x] ≤ budget := by
  constructor
  · rintro ⟨before, y, after, hsplit, hbad, hcost⟩
    obtain ⟨rfl, rfl, rfl⟩ : before = [] ∧ x = y ∧ after = [] := by
      cases before with
      | nil => simpa using hsplit
      | cons => simp at hsplit
    exact ⟨hbad, hcost⟩
  · rintro ⟨hbad, hcost⟩
    exact ⟨[], x, [], rfl, hbad, hcost⟩

/-- Nothing is met beyond what can be paid for. -/
lemma not_meetsBad_of_neg (h : budget < 0) : ¬ MeetsBad r cache listed budget l := by
  rintro ⟨before, x, after, -, -, hcost⟩
  omega

/-! ## Pages -/

/-- The ids of the services listed on a page. -/
def ServicePage.ids (page : ServicePage) : List ℕ := page.blockServices.map BlockService.id

@[simp] lemma ServicePage.length_ids (page : ServicePage) :
    page.ids.length = page.blockServices.length := length_map _

variable (r cache) in
/-- The services listed are in the cache, and their indices can be put into a block. -/
structure ServicePage.Good (page : ServicePage) : Prop where
  known : ∀ x ∈ page.ids, cache x ≠ none
  index : ∀ i < page.ids.length, (r.index i).isOk

variable {page page' : ServicePage}

/-- On a good page no service that is listed already is bad. -/
lemma ServicePage.Good.not_bad (h : page.Good r cache) (hx : x ∈ page.ids) :
    ¬ BadService r cache page.ids x := by
  have hpos : 0 < page.ids.length := length_pos_of_mem hx
  rintro (hnone | hindex)
  · exact h.known x hx hnone
  · exact hindex (h.index _ (by omega))

variable (cache) in
/-- What adding a service to a page does. -/
inductive AddsService (page : ServicePage) (x : ℕ) : Read (Option ℕ × ServicePage) → Prop
  | listed (i : ℕ) (hi : page.ids[i]? = some x) : AddsService page x (.ok (some i, page))
  | short (hx : x ∉ page.ids) (hshort : page.budget < BlockService.staticSize) :
    AddsService page x (.ok (none, ⟨page.blockServices, page.budget - BlockService.staticSize⟩))
  | unknown (hx : x ∉ page.ids) (hpaid : BlockService.staticSize ≤ page.budget)
      (hcache : cache x = none) : AddsService page x (.error .outOfRange)
  | known (service : BlockServiceInfo) (hx : x ∉ page.ids)
      (hpaid : BlockService.staticSize ≤ page.budget) (hcache : cache x = some service) :
    AddsService page x (.ok (some page.blockServices.length,
      ⟨page.blockServices ++ [⟨x, service.addrs, service.flags⟩],
        page.budget - BlockService.staticSize⟩))

lemma addBlockService_adds (cache : BlockServicesCache) (page : ServicePage) (x : ℕ) :
    AddsService cache page x (addBlockService cache page x) := by
  rw [addBlockService]
  cases hfind : page.blockServices.findIdx? (fun service => service.id = x) with
  | some i =>
    obtain ⟨hlt, hid, -⟩ := findIdx?_eq_some_iff_getElem.mp hfind
    exact .listed i (by simpa [ServicePage.ids, hlt] using hid)
  | none =>
    have hx : x ∉ page.ids := by
      simpa [ServicePage.ids] using findIdx?_eq_none_iff.mp hfind
    dsimp only
    split_ifs with hshort
    · exact .short hx (by omega)
    · cases hcache : cache x with
      | none => exact .unknown hx (by omega) hcache
      | some service => exact .known service hx (by omega) hcache

/-! ## What is read

The values of a page, when the budget holds out. -/

variable (r) in
/-- A block of a response is the one stored: its index is that of its service in the list. -/
structure FetchedBlock.Shows (services : List BlockService) (block : BlockBody)
    (f : FetchedBlock) : Prop where
  blockId : f.blockId = block.blockId
  crc : f.crc = block.crc
  service : ∃ i, services[i]?.map BlockService.id = some block.blockService ∧
    r.index i = .ok f.blockServiceIx

variable (r) in
/-- The blocks of a response at one location are the ones stored. -/
structure FetchedBlocks.Shows (services : List BlockService) (loc : SpanBlocksBody)
    (f : FetchedBlocks) : Prop where
  location : f.location = loc.location
  storageClass : f.storageClass = loc.storageClass
  parity : f.parity = loc.parity
  stripes : f.stripes = loc.stripes
  cellSize : f.cellSize = loc.cellSize
  blocks : List.Forall₂ (FetchedBlock.Shows r services) loc.blocks f.blocks
  stripesCrc : f.stripesCrc = loc.stripesCrc

variable (r) in
/-- A span of a response shows the one stored. -/
structure FetchedSpan.Shows (services : List BlockService) (span : SpanKey × SpanBody)
    (f : FetchedSpan) : Prop where
  byteOffset : f.byteOffset = span.1.offset
  size : f.size = span.2.spanSize
  crc : f.crc = span.2.crc
  storage : match span.2.storage, f.storage with
    | .inline body, .inline body' => body' = body
    | .blocks _ _, .blocks locations =>
      List.Forall₂ (FetchedBlocks.Shows r services) (r.locations span.2) locations
    | _, _ => False

lemma getElem?_of_isPrefix {α β : Type} {f : α → β} {l l' : List α} {i : ℕ} {b : β} (h : l <+: l')
    (hi : l[i]?.map f = some b) : l'[i]?.map f = some b := by
  obtain ⟨t, rfl⟩ := h
  obtain ⟨a, ha, rfl⟩ := Option.map_eq_some_iff.mp hi
  obtain ⟨hlt, -⟩ := List.getElem?_eq_some_iff.mp ha
  rw [getElem?_append_left hlt, ha]
  rfl

lemma FetchedBlock.Shows.mono {services : List BlockService} {block : BlockBody}
    {f : FetchedBlock} (h : f.Shows r services block) (hpre : services <+: services') :
    f.Shows r services' block := by
  obtain ⟨hid, hcrc, i, hi, hindex⟩ := h
  exact ⟨hid, hcrc, i, getElem?_of_isPrefix hpre hi, hindex⟩

lemma FetchedBlocks.Shows.mono {services : List BlockService} {loc : SpanBlocksBody}
    {f : FetchedBlocks} (h : f.Shows r services loc) (hpre : services <+: services') :
    f.Shows r services' loc :=
  { h with blocks := h.blocks.imp fun _ _ hshow => hshow.mono hpre }

lemma FetchedSpan.Shows.mono {services : List BlockService} {f : FetchedSpan}
    (h : f.Shows r services span) (hpre : services <+: services') : f.Shows r services' span := by
  refine { h with storage := ?_ }
  have hstorage := h.storage
  obtain ⟨key, size, crc, storage⟩ := span
  obtain ⟨offset, fsize, fcrc, fstorage⟩ := f
  cases storage <;> cases fstorage <;> simp only at hstorage ⊢
  · exact hstorage
  · exact hstorage.imp fun _ _ hshow => hshow.mono hpre

lemma addBlockService_eq_ok {ix : Option ℕ} (h : addBlockService cache page x = .ok (ix, page')) :
    page.blockServices <+: page'.blockServices ∧ page'.budget ≤ page.budget ∧
      (ix = none → page'.budget < 0) ∧
      ∀ i, ix = some i → page'.blockServices[i]?.map BlockService.id = some x := by
  have hadds := addBlockService_adds cache page x
  rw [h] at hadds
  cases hadds with
  | listed i hi =>
    refine ⟨prefix_refl _, le_refl _, nofun, ?_⟩
    rintro _ ⟨⟩
    simpa [ServicePage.ids] using hi
  | short =>
    exact ⟨prefix_refl _, by simp only; omega, fun _ => by simp only; omega, nofun⟩
  | known =>
    refine ⟨prefix_append _ _, by simp only; omega, nofun, ?_⟩
    rintro _ ⟨⟩
    simp

lemma fetchBlocks_eq_ok {blocks : List BlockBody} {out : List FetchedBlock}
    (h : fetchBlocks r cache blocks page = .ok (out, page')) :
    page.blockServices <+: page'.blockServices ∧ page'.budget ≤ page.budget ∧
      out.length = blocks.length ∧
      (0 ≤ page'.budget → List.Forall₂ (FetchedBlock.Shows r page'.blockServices) blocks out) := by
  induction blocks generalizing page out with
  | nil =>
    obtain ⟨rfl, rfl⟩ : [] = out ∧ page = page' := by simpa [fetchBlocks] using h
    exact ⟨prefix_refl _, le_refl _, rfl, fun _ => .nil⟩
  | cons block rest ih =>
    rw [fetchBlocks, bind_eq_ok] at h
    obtain ⟨⟨ix, page₁⟩, hadd, h⟩ := h
    obtain ⟨hpre, hbudget, hnone, hsome⟩ := addBlockService_eq_ok hadd
    cases ix with
    | none =>
      obtain ⟨rfl, rfl⟩ : _ = out ∧ page₁ = page' := by simpa using h
      have hneg := hnone rfl
      exact ⟨hpre, hbudget, by simp, fun hpos => by omega⟩
    | some i =>
      simp only [bind_eq_ok, pure_eq_ok, Prod.exists] at h
      obtain ⟨j, hindex, blocks, page₂, hrest, heq⟩ := h
      obtain ⟨rfl, rfl⟩ : _ = out ∧ page₂ = page' := by simpa using heq
      obtain ⟨hpre', hbudget', hlength, hshows⟩ := ih hrest
      refine ⟨hpre.trans hpre', hbudget'.trans hbudget, by simp [hlength], fun hpos => ?_⟩
      have hservice := getElem?_of_isPrefix hpre' (hsome i rfl)
      exact .cons ⟨rfl, rfl, i, hservice, hindex⟩ (hshows hpos)

lemma fetchLocations_eq_ok {locs : List SpanBlocksBody} {out : List FetchedBlocks}
    (h : fetchLocations r cache locs page = .ok (out, page')) :
    page.blockServices <+: page'.blockServices ∧ page'.budget ≤ page.budget ∧
      out.map (FetchedBlocks.packedSize r) = locs.map (fun loc =>
        r.locationSize + (1 + 8 + 4) * loc.blocks.length + 4 * loc.stripesCrc.length) ∧
      (0 ≤ page'.budget → List.Forall₂ (FetchedBlocks.Shows r page'.blockServices) locs out) := by
  induction locs generalizing page out with
  | nil =>
    obtain ⟨rfl, rfl⟩ : [] = out ∧ page = page' := by simpa [fetchLocations] using h
    exact ⟨prefix_refl _, le_refl _, rfl, fun _ => .nil⟩
  | cons loc rest ih =>
    simp only [fetchLocations, bind_eq_ok, pure_eq_ok, Prod.exists] at h
    obtain ⟨blocks, page₁, hblocks, locations, page₂, hrest, heq⟩ := h
    obtain ⟨rfl, rfl⟩ : _ = out ∧ page₂ = page' := by simpa using heq
    obtain ⟨hpre, hbudget, hlength, hshows⟩ := fetchBlocks_eq_ok hblocks
    obtain ⟨hpre', hbudget', hsizes, hshows'⟩ := ih hrest
    refine ⟨hpre.trans hpre', hbudget'.trans hbudget, ?_, fun hpos => ?_⟩
    · simp [hsizes, FetchedBlocks.packedSize, hlength]
    · refine .cons ⟨rfl, rfl, rfl, rfl, rfl, ?_, rfl⟩ (hshows' hpos)
      exact (hshows (hpos.trans hbudget')).imp fun _ _ hshow => hshow.mono hpre'

/-- The packed size of a stored span in a response. -/
def SpanReader.spanSize (r : SpanReader) (span : SpanBody) : ℕ :=
  (8 + 4 + 4 + 1) + match span.storage with
    | .inline body => 1 + body.length
    | .blocks _ _ => r.locationsSize + ((r.locations span).map fun loc =>
      r.locationSize + (1 + 8 + 4) * loc.blocks.length + 4 * loc.stripesCrc.length).sum

lemma fetchSpan_eq_ok {key : SpanKey} {span : SpanBody} {out : FetchedSpan}
    (h : fetchSpan r cache key.offset span page = .ok (out, page')) :
    page.blockServices <+: page'.blockServices ∧ page'.budget ≤ page.budget ∧
      out.packedSize r = r.spanSize span ∧
      (0 ≤ page'.budget → out.Shows r page'.blockServices (key, span)) := by
  obtain ⟨size, crc, storage⟩ := span
  cases storage with
  | inline =>
    obtain ⟨rfl, rfl⟩ : _ = out ∧ page = page' := by simpa [fetchSpan] using h
    exact ⟨prefix_refl _, le_refl _, rfl, fun _ => ⟨rfl, rfl, rfl, rfl⟩⟩
  | blocks =>
    simp only [fetchSpan, bind_eq_ok, pure_eq_ok, Prod.exists] at h
    obtain ⟨locations, page₁, hlocations, heq⟩ := h
    obtain ⟨rfl, rfl⟩ : _ = out ∧ page₁ = page' := by simpa using heq
    obtain ⟨hpre, hbudget, hsizes, hshows⟩ := fetchLocations_eq_ok hlocations
    refine ⟨hpre, hbudget, ?_, fun hpos => ⟨rfl, rfl, rfl, hshows hpos⟩⟩
    simp only [FetchedSpan.packedSize, SpanReader.spanSize, hsizes]

/-! ## When reading fails and when the budget is used up -/

variable (r cache) in
/-- What becomes of a page when the blocks on some services are read: a failure, if a bad service is
met; otherwise all services are listed and paid for, or the budget ends below zero with what was
listed paid for. -/
inductive ReadsServices (page : ServicePage) (services : List ℕ) : Read ServicePage → Prop
  | fault (e : ReadFault) (he : ∀ t, e ≠ .refused t)
      (hbad : MeetsBad r cache page.ids page.budget services) :
    ReadsServices page services (.error e)
  | paid (page' : ServicePage) (hbad : ¬ MeetsBad r cache page.ids page.budget services)
      (hcost : servicesCost page.ids services ≤ page.budget)
      (hids : page'.ids = listServices page.ids services)
      (hbudget : page'.budget = page.budget - servicesCost page.ids services)
      (hgood : page'.Good r cache) :
    ReadsServices page services (.ok page')
  | short (page' : ServicePage) (hbad : ¬ MeetsBad r cache page.ids page.budget services)
      (hcost : page.budget < servicesCost page.ids services) (hbudget : page'.budget < 0)
      (hpaid : BlockService.staticSize * page'.ids.length ≤
        BlockService.staticSize * page.ids.length + page.budget)
      (hgood : page'.Good r cache) :
    ReadsServices page services (.ok page')

variable {result : Read ServicePage}

/-- Services that are paid for can be counted as listed before. -/
lemma ReadsServices.after {page page₁ : ServicePage}
    (h : ReadsServices r cache page₁ l' result) (hids : page₁.ids = listServices page.ids l)
    (hbudget : page₁.budget = page.budget - servicesCost page.ids l)
    (hbad : ¬ MeetsBad r cache page.ids page.budget l) :
    ReadsServices r cache page (l ++ l') result := by
  have hmeets : MeetsBad r cache page.ids page.budget (l ++ l') ↔
      MeetsBad r cache page₁.ids page₁.budget l' := by
    rw [meetsBad_append, hids, hbudget]
    exact or_iff_right hbad
  have hcost' := servicesCost_append page.ids l l'
  rw [← hids] at hcost'
  cases h with
  | fault e he hbad' => exact .fault e he (hmeets.mpr hbad')
  | paid page' hbad' hcost hids' hbudget' hgood =>
    refine .paid page' (mt hmeets.mp hbad') ?_ ?_ ?_ hgood
    · omega
    · rw [hids', hids, listServices_append]
    · omega
  | short page' hbad' hcost hneg hpaid hgood =>
    refine .short page' (mt hmeets.mp hbad') ?_ hneg ?_ hgood
    · omega
    · rw [hbudget, cast_servicesCost, ← hids] at hpaid
      linarith

/-- Nothing more is met after a failure, or with the budget used up. -/
lemma ReadsServices.append {page : ServicePage} (h : ReadsServices r cache page l result)
    (hend : ∀ page', result = .ok page' → page'.budget < 0) (l' : List ℕ) :
    ReadsServices r cache page (l ++ l') result := by
  cases h with
  | fault e he hbad => exact .fault e he (meetsBad_append.mpr (.inl hbad))
  | paid page' =>
    have hneg := hend page' rfl
    omega
  | short page' hbad hcost hneg hpaid hgood =>
    refine .short page' ?_ ?_ hneg hpaid hgood
    · rw [meetsBad_append]
      exact not_or.mpr ⟨hbad, not_meetsBad_of_neg (by omega)⟩
    · rw [servicesCost_append]
      omega

variable (r cache) in
/-- A step reads the blocks on some services: it does what is said above, and on a page whose budget
is below zero it lists nothing. -/
structure Serves (services : List ℕ) (f : ServicePage → Read ServicePage) : Prop where
  reads : ∀ page, page.Good r cache → 0 ≤ page.budget → ReadsServices r cache page services (f page)
  spent : ∀ page, page.Good r cache → page.budget < 0 →
    ∃ page', f page = .ok page' ∧ page'.blockServices = page.blockServices ∧ page'.budget < 0

lemma ServicePage.Good.congr (h : page.Good r cache)
    (heq : page'.blockServices = page.blockServices) : page'.Good r cache := by
  have hids : page'.ids = page.ids := congrArg (map BlockService.id) heq
  exact ⟨hids ▸ h.known, hids ▸ h.index⟩

lemma serves_nil : Serves r cache [] .ok := by
  refine ⟨fun page hgood hpos => ?_, fun page hgood hneg => ⟨page, rfl, rfl, hneg⟩⟩
  have hcost : servicesCost page.ids [] = 0 := by simp [servicesCost]
  exact .paid page not_meetsBad_nil (by omega) rfl (by omega) hgood

lemma Serves.bind {f g : ServicePage → Read ServicePage} (hf : Serves r cache l f)
    (hg : Serves r cache l' g) : Serves r cache (l ++ l') fun page => f page >>= g := by
  constructor
  · intro page hgood hpos
    have hread := hf.reads page hgood hpos
    generalize f page = result at hread
    cases hread with
    | fault e he hbad => exact (ReadsServices.fault e he hbad).append nofun l'
    | paid page₁ hbad hcost hids hbudget hgood₁ =>
      exact (hg.reads page₁ hgood₁ (by omega)).after hids hbudget hbad
    | short page₁ hbad hcost hneg hpaid hgood₁ =>
      obtain ⟨page₂, hrun, hsame, hneg₂⟩ := hg.spent page₁ hgood₁ hneg
      have hids : page₂.ids = page₁.ids := congrArg (map BlockService.id) hsame
      rw [ok_bind, hrun]
      refine ReadsServices.append
        (.short page₂ hbad hcost hneg₂ (by rw [hids]; exact hpaid) (hgood₁.congr hsame)) ?_ l'
      rintro _ ⟨⟩
      exact hneg₂
  · intro page hgood hneg
    obtain ⟨page₁, hrun, hsame, hneg₁⟩ := hf.spent page hgood hneg
    obtain ⟨page₂, hrun', hsame', hneg₂⟩ := hg.spent page₁ (hgood.congr hsame) hneg₁
    exact ⟨page₂, by show f page >>= g = _; rw [hrun, ok_bind, hrun'], hsame'.trans hsame, hneg₂⟩

variable (r) in
/-- The indices that a reader refuses are failed assertions, not errors. -/
def SpanReader.Asserts : Prop := ∀ i t, r.index i ≠ .error (.refused t)

/-- The page after the first block, and the others if the budget holds out. -/
lemma snd_fetchBlocks_cons (block : BlockBody) (rest : List BlockBody) (page : ServicePage) :
    Prod.snd <$> fetchBlocks r cache (block :: rest) page =
      addBlockService cache page block.blockService >>= fun
        | (none, page₁) => .ok page₁
        | (some i, page₁) => r.index i >>= fun _ => Prod.snd <$> fetchBlocks r cache rest page₁ := by
  rw [fetchBlocks]
  cases addBlockService cache page block.blockService with
  | error => rfl
  | ok result =>
    obtain ⟨_ | i, page₁⟩ := result
    · rfl
    simp only [ok_bind]
    cases r.index i with
    | error => rfl
    | ok =>
      cases fetchBlocks r cache rest page₁ <;> rfl

lemma serves_fetchBlocks (hr : r.Asserts) (blocks : List BlockBody) :
    Serves r cache (blocks.map BlockBody.blockService)
      fun page => Prod.snd <$> fetchBlocks r cache blocks page := by
  induction blocks with
  | nil => exact serves_nil
  | cons block rest ih =>
    constructor
    · intro page hgood hpos
      rw [snd_fetchBlocks_cons]
      show ReadsServices r cache page ([block.blockService] ++ rest.map BlockBody.blockService) _
      have hadds := addBlockService_adds cache page block.blockService
      generalize block.blockService = x at hadds
      generalize addBlockService cache page x = result at hadds
      cases hadds with
      | listed i hi =>
        -- only the rest counts
        have hx := mem_of_getElem? hi
        have hlist := listServices_of_mem hx
        obtain ⟨hlt, -⟩ := List.getElem?_eq_some_iff.mp hi
        obtain ⟨j, hj⟩ := exists_of_isOk (hgood.index i hlt)
        simp only [ok_bind, hj]
        refine (ih.reads page hgood hpos).after hlist.symm (by simp [servicesCost, hlist]) ?_
        rw [meetsBad_singleton, hlist]
        exact fun h => hgood.not_bad hx h.1
      | short hx =>
        have hcost := servicesCost_of_not_mem hx
        refine ReadsServices.append ?_ ?_ _
        · refine .short _ ?_ (by omega) (by simp only; omega) ?_ (hgood.congr rfl)
          · rw [meetsBad_singleton, hcost]
            omega
          · simp only [ServicePage.ids]
            omega
        · rintro _ ⟨⟩
          simp only
          omega
      | unknown hx hpaid hcache =>
        refine ReadsServices.append ?_ (by nofun) _
        refine .fault _ nofun (meetsBad_singleton.mpr ⟨.inl hcache, ?_⟩)
        rwa [servicesCost_of_not_mem hx]
      | known service hx hpaid hcache =>
        have hlist := listServices_of_not_mem hx
        have hcost := servicesCost_of_not_mem hx
        simp only [ok_bind]
        cases hindex : r.index page.blockServices.length with
        | error e =>
          refine ReadsServices.append ?_ (by nofun) _
          refine .fault e (fun t ht => hr _ t (ht ▸ hindex))
            (meetsBad_singleton.mpr ⟨.inr ?_, by rwa [hcost]⟩)
          simp [hlist, hindex, Except.isOk, Except.toBool]
        | ok =>
          generalize hpage : ServicePage.mk (page.blockServices ++ [⟨x, service.addrs, service.flags⟩])
            (page.budget - BlockService.staticSize) = page₁
          have hids : page₁.ids = page.ids ++ [x] := by simp [← hpage, ServicePage.ids]
          have hbudget : page₁.budget = page.budget - BlockService.staticSize := by rw [← hpage]
          have hgood₁ : page₁.Good r cache := by
            constructor
            · rw [hids]
              intro y hy
              rcases mem_append.mp hy with hy | hy
              · exact hgood.known y hy
              · simp [mem_singleton.mp hy, hcache]
            · rw [hids]
              intro i hi
              rcases Nat.lt_succ_iff_lt_or_eq.mp (by simpa using hi) with hi | rfl
              · exact hgood.index i (by simpa using hi)
              · simp [hindex, Except.isOk, Except.toBool]
          refine (ih.reads page₁ hgood₁ (by omega)).after (hids.trans hlist.symm) (by omega) ?_
          rw [meetsBad_singleton, hlist, ← hids]
          exact fun h => hgood₁.not_bad (by simp [hids]) h.1
    · intro page hgood hneg
      have hadds := addBlockService_adds cache page block.blockService
      simp only [snd_fetchBlocks_cons]
      generalize addBlockService cache page block.blockService = result at hadds
      cases hadds with
      | listed i hi =>
        obtain ⟨hlt, -⟩ := List.getElem?_eq_some_iff.mp hi
        obtain ⟨j, hj⟩ := exists_of_isOk (hgood.index i hlt)
        simp only [ok_bind, hj]
        exact ih.spent page hgood hneg
      | short => exact ⟨_, rfl, rfl, by simp only; omega⟩
      | unknown | known => omega

lemma serves_fetchLocations (hr : r.Asserts) (locs : List SpanBlocksBody) :
    Serves r cache (locs.flatMap fun loc => loc.blocks.map BlockBody.blockService)
      fun page => Prod.snd <$> fetchLocations r cache locs page := by
  induction locs with
  | nil => exact serves_nil
  | cons loc rest ih =>
    have hloc : Serves r cache (loc.blocks.map BlockBody.blockService)
        fun page => Prod.snd <$> fetchBlocks r cache loc.blocks page := serves_fetchBlocks hr _
    have hboth := hloc.bind ih
    rw [flatMap_cons]
    convert hboth using 2 with page
    rw [fetchLocations]
    cases fetchBlocks r cache loc.blocks page with
    | error => rfl
    | ok result =>
      obtain ⟨blocks, page₁⟩ := result
      show _ = Prod.snd <$> fetchLocations r cache rest page₁
      simp only [ok_bind]
      cases fetchLocations r cache rest page₁ <;> rfl

/-- The services of the blocks that are listed of a span. -/
def SpanReader.services (r : SpanReader) (span : SpanBody) : List ℕ :=
  match span.storage with
  | .inline _ => []
  | .blocks _ _ => (r.locations span).flatMap fun loc => loc.blocks.map BlockBody.blockService

lemma serves_fetchSpan (hr : r.Asserts) (offset : ℕ) (span : SpanBody) :
    Serves r cache (r.services span) fun page => Prod.snd <$> fetchSpan r cache offset span page := by
  obtain ⟨size, crc, storage⟩ := span
  cases storage with
  | inline => exact serves_nil
  | blocks first rest =>
    have heq : (fun page => Prod.snd <$> fetchSpan r cache offset
        ⟨size, crc, .blocks first rest⟩ page) = fun page => Prod.snd <$>
          fetchLocations r cache (r.locations ⟨size, crc, .blocks first rest⟩) page := by
      funext page
      simp only [fetchSpan]
      cases fetchLocations r cache (r.locations ⟨size, crc, .blocks first rest⟩) page <;> rfl
    rw [heq]
    exact serves_fetchLocations hr _

/-! ## The loop over the spans -/

/-- The bytes for some spans and for the services that are new in them. -/
def SpanReader.spansCost (r : SpanReader) (listed : List ℕ) (spans : List SpanBody) : ℕ :=
  servicesCost listed (spans.flatMap r.services) + (spans.map r.spanSize).sum

lemma SpanReader.spansCost_cons (listed : List ℕ) (span : SpanBody) (spans : List SpanBody) :
    r.spansCost listed (span :: spans) = r.spansCost listed [span] +
      r.spansCost (listServices listed (r.services span)) spans := by
  simp only [SpanReader.spansCost, flatMap_cons, flatMap_nil, append_nil,
    servicesCost_append, map_cons, map_nil, sum_cons, sum_nil]
  omega

variable (r cache) in
/-- A bad service is met in one of the spans, all those before it being on the page. -/
def MeetsBadSpan (listed : List ℕ) (budget : ℤ) (spans : List SpanBody) : Prop :=
  ∃ before span after, spans = before ++ span :: after ∧
    MeetsBad r cache (listServices listed (before.flatMap r.services))
      (budget - r.spansCost listed before) (r.services span)

lemma not_meetsBadSpan_nil : ¬ MeetsBadSpan r cache listed budget [] := by
  rintro ⟨before, span, after, h, -⟩
  simp at h

lemma meetsBadSpan_cons {span : SpanBody} {spans : List SpanBody} :
    MeetsBadSpan r cache listed budget (span :: spans) ↔
      MeetsBad r cache listed budget (r.services span) ∨
        MeetsBadSpan r cache (listServices listed (r.services span))
          (budget - r.spansCost listed [span]) spans := by
  have hcost : ∀ before, budget - r.spansCost listed [span] -
      r.spansCost (listServices listed (r.services span)) before =
      budget - r.spansCost listed (span :: before) := by
    intro before
    rw [SpanReader.spansCost_cons listed span before]
    omega
  constructor
  · rintro ⟨before, x, after, hsplit, hmeets⟩
    cases before with
    | nil =>
      obtain ⟨rfl, rfl⟩ : span = x ∧ spans = after := by simpa using hsplit
      left
      simpa [SpanReader.spansCost, servicesCost] using hmeets
    | cons y before =>
      obtain ⟨rfl, rfl⟩ : span = y ∧ spans = before ++ x :: after := by simpa using hsplit
      right
      refine ⟨before, x, after, rfl, ?_⟩
      rw [hcost, ← listServices_append, ← flatMap_cons]
      exact hmeets
  · rintro (hmeets | ⟨before, x, after, rfl, hmeets⟩)
    · refine ⟨[], span, spans, rfl, ?_⟩
      simpa [SpanReader.spansCost, servicesCost] using hmeets
    · refine ⟨span :: before, x, after, rfl, ?_⟩
      rwa [hcost, ← listServices_append, ← flatMap_cons] at hmeets

lemma not_meetsBadSpan_of_neg {spans : List SpanBody} (h : budget < 0) :
    ¬ MeetsBadSpan r cache listed budget spans := by
  rintro ⟨before, x, after, -, hmeets⟩
  exact not_meetsBad_of_neg (by omega) hmeets

variable (r cache) in
/-- What the loop makes of a page: a failure, if a bad service is met; all spans, if they and their
services can be paid for; otherwise the spans before the first one that cannot, with the offset of
that one.  In the last case the services listed for these spans come first, and those that the other
one has added behind them. -/
inductive ReadsSpans (page : ServicePage) (spans : List (SpanKey × SpanBody))
    (before : List FetchedSpan) : Read FileSpansResp → Prop
  | fault (e : ReadFault) (he : ∀ t, e ≠ .refused t)
      (hbad : MeetsBadSpan r cache page.ids page.budget (spans.map Prod.snd)) :
    ReadsSpans page spans before (.error e)
  | all (services : List BlockService) (out : List FetchedSpan)
      (hbad : ¬ MeetsBadSpan r cache page.ids page.budget (spans.map Prod.snd))
      (hcost : r.spansCost page.ids (spans.map Prod.snd) ≤ page.budget)
      (hids : services.map BlockService.id =
        listServices page.ids ((spans.map Prod.snd).flatMap r.services))
      (hpre : page.blockServices <+: services)
      (hshows : List.Forall₂ (FetchedSpan.Shows r services) spans out)
      (hsizes : out.map (FetchedSpan.packedSize r) = spans.map fun e => r.spanSize e.2) :
    ReadsSpans page spans before (.ok ⟨0, services, before ++ out⟩)
  | cut (services listed : List BlockService) (out : List FetchedSpan)
      (kept : List (SpanKey × SpanBody)) (next : SpanKey × SpanBody)
      (rest : List (SpanKey × SpanBody)) (hspans : spans = kept ++ next :: rest)
      (hbad : ¬ MeetsBadSpan r cache page.ids page.budget (spans.map Prod.snd))
      (hcost : r.spansCost page.ids (kept.map Prod.snd) ≤ page.budget)
      (hfull : page.budget < r.spansCost page.ids ((kept ++ [next]).map Prod.snd))
      (hpaid : BlockService.staticSize * services.length + (kept.map fun e => r.spanSize e.2).sum ≤
          BlockService.staticSize * page.ids.length + page.budget)
      (hids : listed.map BlockService.id =
        listServices page.ids ((kept.map Prod.snd).flatMap r.services))
      (hpre : page.blockServices <+: listed) (hlisted : listed <+: services)
      (hshows : List.Forall₂ (FetchedSpan.Shows r listed) kept out)
      (hsizes : out.map (FetchedSpan.packedSize r) = kept.map fun e => r.spanSize e.2) :
    ReadsSpans page spans before (.ok ⟨next.1.offset, services, before ++ out⟩)

variable {before : List FetchedSpan}

lemma ReadsSpans.nil {page : ServicePage} (hpos : 0 ≤ page.budget) :
    ReadsSpans r cache page [] before (.ok ⟨0, page.blockServices, before⟩) := by
  have h : ReadsSpans r cache page [] before (.ok ⟨0, page.blockServices, before ++ []⟩) :=
    .all page.blockServices [] not_meetsBadSpan_nil
      (by simpa [SpanReader.spansCost, servicesCost] using hpos) rfl (prefix_refl _) .nil rfl
  rwa [append_nil] at h

variable {spans : List (SpanKey × SpanBody)}

/-- A span that is put on the page can be counted as one that is there already. -/
lemma ReadsSpans.cons {page page₁ : ServicePage} {f : FetchedSpan} {result : Read FileSpansResp}
    (h : ReadsSpans r cache page₁ spans (before ++ [f]) result)
    (hids : page₁.ids = listServices page.ids (r.services span.2))
    (hbudget : page₁.budget = page.budget - r.spansCost page.ids [span.2])
    (hbad : ¬ MeetsBad r cache page.ids page.budget (r.services span.2))
    (hpre : page.blockServices <+: page₁.blockServices)
    (hshow : f.Shows r page₁.blockServices span) (hsize : f.packedSize r = r.spanSize span.2) :
    ReadsSpans r cache page (span :: spans) before result := by
  have hmeets : MeetsBadSpan r cache page.ids page.budget ((span :: spans).map Prod.snd) ↔
      MeetsBadSpan r cache page₁.ids page₁.budget (spans.map Prod.snd) := by
    rw [map_cons, meetsBadSpan_cons, hids, hbudget]
    exact or_iff_right hbad
  have hcosts : ∀ l : List (SpanKey × SpanBody), r.spansCost page.ids ((span :: l).map Prod.snd) =
      r.spansCost page.ids [span.2] + r.spansCost page₁.ids (l.map Prod.snd) := by
    intro l
    rw [map_cons, SpanReader.spansCost_cons, hids]
  have hout : ∀ l : List FetchedSpan, before ++ [f] ++ l = before ++ f :: l := by simp
  cases h with
  | fault e he hbad' => exact .fault e he (hmeets.mpr hbad')
  | all services out hbad' hcost hids' hpre' hshows hsizes =>
    rw [hout]
    refine .all services (f :: out) (mt hmeets.mp hbad') ?_ ?_ (hpre.trans hpre')
      (.cons (hshow.mono hpre') hshows) (by rw [map_cons, hsize, hsizes]; rfl)
    · rw [hcosts]
      omega
    · rw [hids', hids, map_cons, flatMap_cons, listServices_append]
  | cut services listed out kept next rest hspans hbad' hcost hfull hpaid hids' hpre' hlisted
      hshows hsizes =>
    rw [hout]
    refine .cut services listed (f :: out) (span :: kept) next rest (by rw [hspans]; rfl)
      (mt hmeets.mp hbad') ?_ ?_ ?_ ?_ (hpre.trans hpre') hlisted
      (.cons (hshow.mono hpre') hshows) (by rw [map_cons, hsize, hsizes]; rfl)
    · rw [hcosts]
      omega
    · rw [cons_append, hcosts]
      omega
    · have hone : r.spansCost page.ids [span.2] =
          servicesCost page.ids (r.services span.2) + r.spanSize span.2 := by
        simp [SpanReader.spansCost]
      rw [hbudget, hone, Nat.cast_add, cast_servicesCost, ← hids] at hpaid
      simp only [map_cons, sum_cons]
      rw [Nat.cast_add]
      linarith
    · rw [hids', hids, map_cons, flatMap_cons, listServices_append]

/-- The spans that a request can get: at most as many as the limit says, and none after one that
ends before the offset. -/
def FileSpansReq.readable (req : FileSpansReq) (got : ℕ) (spans : List (SpanKey × SpanBody)) :
    List (SpanKey × SpanBody) :=
  (if req.limit = 0 then spans else spans.take (req.limit - got)).takeWhile fun e =>
    ¬ addU64 e.1.offset e.2.spanSize < req.byteOffset

lemma FileSpansReq.readable_of_limit {req : FileSpansReq} {got : ℕ}
    (h : req.limit ≠ 0 ∧ req.limit ≤ got) : req.readable got spans = [] := by
  rw [readable, if_neg h.1, Nat.sub_eq_zero_of_le h.2]
  rfl

lemma FileSpansReq.readable_cons {req : FileSpansReq} {got : ℕ}
    (h : ¬ (req.limit ≠ 0 ∧ req.limit ≤ got)) :
    req.readable got (span :: spans) =
      if addU64 span.1.offset span.2.spanSize < req.byteOffset then []
      else span :: req.readable (got + 1) spans := by
  have hsplit : (if req.limit = 0 then span :: spans else (span :: spans).take (req.limit - got)) =
      span :: if req.limit = 0 then spans else spans.take (req.limit - (got + 1)) := by
    by_cases hzero : req.limit = 0
    · simp [hzero]
    obtain ⟨n, hn⟩ : ∃ n, req.limit - got = n + 1 := ⟨req.limit - got - 1, by omega⟩
    rw [if_neg hzero, if_neg hzero, hn, take_succ_cons]
    congr 2
    omega
  rw [readable, hsplit, takeWhile_cons]
  by_cases hends : addU64 span.1.offset span.2.spanSize < req.byteOffset <;> simp [hends, readable]

lemma fileSpansLoop_reads (hr : r.Asserts) (req : FileSpansReq) (spans : List (SpanKey × SpanBody))
    {page : ServicePage} (before : List FetchedSpan) (hgood : page.Good r cache)
    (hpos : 0 ≤ page.budget) :
    ReadsSpans r cache page (req.readable before.length spans) before
      (fileSpansLoop r cache req spans page before) := by
  induction spans generalizing page before with
  | nil =>
    have hempty : req.readable before.length [] = [] := by simp [FileSpansReq.readable]
    rw [hempty]
    exact .nil hpos
  | cons e rest ih =>
    obtain ⟨key, span⟩ := e
    rw [fileSpansLoop]
    by_cases hlimit : req.limit ≠ 0 ∧ req.limit ≤ before.length
    · rw [if_pos hlimit, FileSpansReq.readable_of_limit hlimit]
      exact .nil hpos
    rw [if_neg hlimit, FileSpansReq.readable_cons hlimit]
    by_cases hends : addU64 key.offset span.spanSize < req.byteOffset
    · rw [if_pos hends, if_pos hends]
      exact .nil hpos
    rw [if_neg hends, if_neg hends]
    have hserves : Serves r cache (r.services span)
        fun page => Prod.snd <$> fetchSpan r cache key.offset span page :=
      serves_fetchSpan hr key.offset span
    have hread := hserves.reads page hgood hpos
    have hcost₁ : r.spansCost page.ids [span] =
        servicesCost page.ids (r.services span) + r.spanSize span := by
      simp [SpanReader.spansCost]
    cases hfetch : fetchSpan r cache key.offset span page with
    | error err =>
      simp only [hfetch] at hread
      cases hread with
      | fault e he hbad =>
        exact .fault err he (meetsBadSpan_cons.mpr (.inl hbad))
    | ok result =>
      obtain ⟨f, page₁⟩ := result
      simp only [hfetch] at hread
      change ReadsServices r cache page (r.services span) (.ok page₁) at hread
      obtain ⟨hpre, -, hsize, hshow⟩ := fetchSpan_eq_ok hfetch
      simp only [ok_bind]
      -- the span does not fit: the page ends before it
      have hcut : page₁.budget - f.packedSize r < 0 →
          ¬ MeetsBad r cache page.ids page.budget (r.services span) →
          page.budget < r.spansCost page.ids [span] →
          (BlockService.staticSize * page₁.ids.length : ℤ) ≤
            BlockService.staticSize * page.ids.length + page.budget →
          ReadsSpans r cache page ((key, span) :: req.readable (before.length + 1) rest) before
            (.ok ⟨key.offset, page₁.blockServices, before⟩) := by
        intro hneg hbad hfull hpaid
        have h : ReadsSpans r cache page
            ((key, span) :: req.readable (before.length + 1) rest) before
            (.ok ⟨key.offset, page₁.blockServices, before ++ []⟩) := by
          refine .cut page₁.blockServices page.blockServices [] [] (key, span) _ rfl ?_ ?_ hfull
            ?_ rfl (prefix_refl _) hpre .nil rfl
          · rw [map_cons, meetsBadSpan_cons]
            rintro (h | h)
            · exact hbad h
            · have hspent : page.budget - r.spansCost page.ids [span] < 0 := by omega
              exact not_meetsBadSpan_of_neg hspent h
          · simpa [SpanReader.spansCost, servicesCost] using hpos
          · simpa using hpaid
        rwa [append_nil] at h
      cases hread with
      | paid page' hbad hcost hids hbudget hgood₁ =>
        by_cases hneg : page₁.budget - f.packedSize r < 0
        · rw [if_pos hneg]
          refine hcut hneg hbad (by rw [hcost₁]; push_cast; omega) ?_
          rw [cast_servicesCost, ← hids] at hcost
          linarith
        · rw [if_neg hneg]
          have hgood₂ : (ServicePage.mk page₁.blockServices
              (page₁.budget - f.packedSize r)).Good r cache := hgood₁.congr rfl
          have hrest := ih (before ++ [f]) hgood₂ (not_lt.mp hneg)
          rw [length_append, length_singleton] at hrest
          refine hrest.cons hids ?_ hbad hpre (hshow (by omega)) hsize
          push_cast
          omega
      | short page' hbad hcost hneg hpaid =>
        have hneg' : page₁.budget - f.packedSize r < 0 := by omega
        rw [if_pos hneg']
        exact hcut hneg' hbad (by rw [hcost₁]; push_cast; omega) hpaid

end TernFS
