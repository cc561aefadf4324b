/-
# Failure domains

The blocks of a span at one location are there to survive the loss of some of them, so they have to
be on different block services, and these in different failure domains.  The leader picks services
like that for a new span, and a swap of two blocks checks the other blocks of both locations.
-/
import TernFS.Shard.SpanChanges
import TernFS.Shard.Tiling

namespace TernFS

open Lib SortedStore List

variable {newBlock : BlockBody} {loc : SpanBlocksBody}

/-- The services are different ones, in different failure domains. -/
def SpreadOver (domain : ℕ → Bytes) (services : List ℕ) : Prop :=
  services.Nodup ∧ (services.map domain).Nodup

/-- The blocks of every location are spread, and there is one entry for each location. -/
structure SpanBody.Spread (domain : ℕ → Bytes) (span : SpanBody) : Prop where
  services : ∀ loc ∈ span.locations, SpreadOver domain (loc.blocks.map BlockBody.blockService)
  locations : (span.locations.map SpanBlocksBody.location).Nodup

/-- All spans are spread. -/
def ShardDB.Spread (domain : ℕ → Bytes) (db : ShardDB) : Prop :=
  ∀ k span, db.spans.get k = some span → span.Spread domain

/-- The replica that applies the entry knows the failure domains, and the leader picks services that
are spread. -/
structure ShardStep.SpreadOk (domain : ℕ → Bytes) (step : ShardStep) : Prop where
  cache : ∀ i service, step.cache i = some service → service.failureDomain = domain i
  pick : ∀ location storageClass n blacklist size services,
    step.pick location storageClass n blacklist size = .ok services → SpreadOver domain services

variable {pick : PickBlockServices} {spans : SortedStore SpanKey SpanBody}

section

variable {domain : ℕ → Bytes} {cfg : ShardConfig} {cache : BlockServicesCache}

/-! ## Replacing a block -/

lemma spreadOver_cons {service : ℕ} {services : List ℕ} : SpreadOver domain (service :: services) ↔
      SpreadOver domain services ∧ ∀ s ∈ services, s ≠ service ∧ domain s ≠ domain service := by
  simp only [SpreadOver, map_cons, nodup_cons, mem_map, not_exists, not_and]
  constructor
  · rintro ⟨⟨hnew, hnodup⟩, hdomain, hdomains⟩
    exact ⟨⟨hnodup, hdomains⟩, fun s hs => ⟨fun heq => hnew (heq ▸ hs), hdomain s hs⟩⟩
  · rintro ⟨⟨hnodup, hdomains⟩, hne⟩
    exact ⟨⟨fun hmem => (hne _ hmem).1 rfl, hnodup⟩, fun s hs => (hne s hs).2, hdomains⟩

lemma SpreadOver.sublist {services services' : List ℕ} (h : SpreadOver domain services)
    (hsub : services'.Sublist services) : SpreadOver domain services' :=
  ⟨h.1.sublist hsub, h.2.sublist (hsub.map domain)⟩

lemma SpreadOver.perm {services services' : List ℕ} (h : SpreadOver domain services)
    (hperm : services.Perm services') : SpreadOver domain services' :=
  ⟨hperm.nodup_iff.1 h.1, (hperm.map domain).nodup_iff.1 h.2⟩

lemma checkNoDuplicates_eq_ok {blocks : List BlockBody} {i : ℕ} {u : PUnit}
    (hcache : ∀ i service, cache i = some service → service.failureDomain = domain i)
    (h : checkNoDuplicates cache blocks i newBlock = .ok u) :
    ∀ block ∈ blocks.eraseIdx i, block.blockService ≠ newBlock.blockService ∧
      domain block.blockService ≠ domain newBlock.blockService := by
  simp only [checkNoDuplicates, bind_eq_ok, orFail_eq_ok] at h
  obtain ⟨newService, hnew, hothers⟩ := h
  intro block hblock
  have hother := forM_eq_ok hothers block hblock
  simp only [bind_eq_ok, check_eq_ok, orFail_eq_ok, exists_const] at hother
  obtain ⟨hservice, service, hknown, hdomain⟩ := hother
  rw [hcache _ _ hnew, hcache _ _ hknown] at hdomain
  exact ⟨hservice, hdomain.symm⟩

/-- A block that passes the check can take the place of the one that was left out. -/
lemma SpreadOver.setBlock {i : ℕ} (h : SpreadOver domain (loc.blocks.map BlockBody.blockService))
    (hi : i < loc.blocks.length)
    (hnew : ∀ block ∈ loc.blocks.eraseIdx i, block.blockService ≠ newBlock.blockService ∧
      domain block.blockService ≠ domain newBlock.blockService) :
    SpreadOver domain ((loc.setBlock i newBlock).blocks.map BlockBody.blockService) := by
  have hrest : SpreadOver domain ((loc.blocks.eraseIdx i).map BlockBody.blockService) :=
    h.sublist ((eraseIdx_sublist _ _).map _)
  have hcons : SpreadOver domain
      (newBlock.blockService :: (loc.blocks.eraseIdx i).map BlockBody.blockService) := by
    refine spreadOver_cons.2 ⟨hrest, fun s hs => ?_⟩
    obtain ⟨block, hblock, rfl⟩ := mem_map.1 hs
    exact hnew block hblock
  exact hcons.perm ((set_perm_cons_eraseIdx hi newBlock).map BlockBody.blockService).symm

lemma SpanBody.Spread.setBlock {span : SpanBody} {blockId : ℕ} {found : FoundBlock}
    (h : span.Spread domain) (hfound : findBlockIn blockId span.locations = some found)
    (hnew : ∀ block ∈ found.loc.blocks.eraseIdx found.blockIdx,
      block.blockService ≠ newBlock.blockService ∧
        domain block.blockService ≠ domain newBlock.blockService) :
    (span.setBlock found.locIdx found.blockIdx newBlock).Spread domain := by
  obtain ⟨hloc, hblock, -⟩ := findBlockIn_eq_some hfound
  obtain ⟨hidx, -⟩ := List.getElem?_eq_some_iff.1 hblock
  constructor
  · rw [SpanBody.locations_setBlock]
    intro loc hmem
    obtain ⟨j, hj⟩ := mem_iff_getElem?.1 hmem
    rw [getElem?_modify] at hj
    obtain ⟨old, hold, rfl⟩ := Option.map_eq_some_iff.1 hj
    have hspread := h.services old (mem_of_getElem? hold)
    split_ifs with hij
    · subst hij
      obtain rfl := Option.mem_unique hloc hold
      exact hspread.setBlock hidx hnew
    · exact hspread
  · have hsame : (span.setBlock found.locIdx found.blockIdx newBlock).locations.map
        SpanBlocksBody.location = span.locations.map SpanBlocksBody.location := by
      rw [SpanBody.locations_setBlock]
      refine ext_getElem? fun j => ?_
      rw [getElem?_map, getElem?_map, getElem?_modify]
      cases span.locations[j]? with
      | none => rfl
      | some => by_cases hij : found.locIdx = j <;> simp [hij, SpanBlocksBody.setBlock]
    rw [hsame]
    exact h.locations

/-! ## Entries -/

/-- The services of a new span are spread, if the entry adds one. -/
def ShardLogEntryBody.SpreadOver (domain : ℕ → Bytes) : ShardLogEntryBody → Prop
  | .addSpanAtLocationInitiate e =>
    TernFS.SpreadOver domain ((e.bodyBlocks.take e.parity.blocks).map
      EntryNewBlockInfo.blockServiceId)
  | _ => True

section

variable (hpick : ∀ location storageClass n blacklist size services,
  pick location storageClass n blacklist size = .ok services → SpreadOver domain services)
include hpick

lemma prepareAddSpanInitiate_spreadOver {location : ℕ}
    {r : AddSpanInitiateReq} {e : AddSpanAtLocationInitiateEntry}
    (h : prepareAddSpanInitiate cfg pick location r = .ok e) :
    (ShardLogEntryBody.addSpanAtLocationInitiate e).SpreadOver domain := by
  simp only [prepareAddSpanInitiate, bind_eq_ok, check_eq_ok, assert_eq_ok, exists_const] at h
  obtain ⟨-, -, -, -, -, picked, hpicked, hlength, ⟨⟩⟩ := h
  have hservices : (((range r.parity.blocks).map fun i =>
      (⟨picked.getD i 0, appendCells r.cellSize 0 ((range r.stripes).map fun s =>
        (r.stripeCrcs s).getD i 0)⟩ : EntryNewBlockInfo)).take r.parity.blocks).map
      EntryNewBlockInfo.blockServiceId = picked.take r.parity.blocks := by
    refine ext_getElem (by simp [hlength]) fun i hi hi' => ?_
    have hlt : i < picked.length := by
      rw [length_take] at hi'
      omega
    simp [getElem?_eq_getElem hlt]
  change SpreadOver domain _
  rw [hservices]
  exact (hpick _ _ _ _ _ _ hpicked).sublist (take_sublist _ _)

lemma prepareLogEntry_spreadOver {time : ℕ} {req : ShardReq} {entry : ShardLogEntry}
    (h : prepareLogEntry cfg time pick req = .ok entry) : entry.body.SpreadOver domain := by
  obtain ⟨body, hprepared, rfl⟩ := prepareLogEntry_eq_ok h
  cases hprepared with
  | addSpanInitiate r e he | addSpanInitiateWithReference r ref e he
  | addSpanAtLocationInitiate location r ref e he =>
    exact prepareAddSpanInitiate_spreadOver hpick he
  | _ => trivial

end

lemma newBlocks_services (time n : ℕ) (entryBlocks : List EntryNewBlockInfo) :
    (newBlocks cfg time n entryBlocks).1.map BlockBody.blockService =
      entryBlocks.map EntryNewBlockInfo.blockServiceId := by
  induction entryBlocks generalizing n with
  | nil => rfl
  | cons entryBlock entryBlocks ih => exact congrArg (_ :: ·) (ih _)

lemma SpanBody.locations_addLocation {s s' : SpanBody} (h : s.addLocation loc = some s') :
    s'.locations = s.locations ++ [loc] := by
  obtain ⟨size, crc, storage⟩ := s
  cases storage with
  | inline => cases h
  | blocks =>
    simp only [SpanBody.addLocation, Option.ite_none_right_eq_some, Option.some.injEq] at h
    obtain ⟨-, rfl⟩ := h
    rfl

/-- A location moves to a span that does not have it yet. -/
lemma SpanBody.Spread.addLocation {source destination destination' : SpanBody}
    (hsource : source.Spread domain) (h : destination.Spread domain)
    (hloc : source.locations = [loc])
    (hnew : ∀ d ∈ destination.locations, d.location ≠ loc.location)
    (hadd : destination.addLocation loc = some destination') : destination'.Spread domain := by
  constructor
  · intro l hl
    rw [SpanBody.locations_addLocation hadd, mem_append, mem_singleton] at hl
    rcases hl with hl | rfl
    · exact h.services l hl
    · exact hsource.services l (by rw [hloc, mem_singleton])
  · rw [SpanBody.locations_addLocation hadd, map_append, nodup_append']
    refine ⟨h.locations, nodup_singleton _, ?_⟩
    rw [map_singleton, disjoint_singleton]
    rintro hmem
    obtain ⟨d, hd, heq⟩ := mem_map.1 hmem
    exact hnew d hd heq

lemma forall_get_put {P : SpanBody → Prop} {k : SpanKey}
    {span : SpanBody} (h : ∀ k s, spans.get k = some s → P s) (hspan : P span) :
    ∀ k' s, (spans.put k span).get k' = some s → P s := by
  intro k' s hs
  by_cases hk : k = k'
  · subst hk
    rw [get_put_self] at hs
    obtain rfl := Option.some_inj.1 hs
    exact hspan
  · rw [get_put_of_ne hk] at hs
    exact h k' s hs

lemma forall_get_delete {P : SpanBody → Prop} {k : SpanKey}
    (h : ∀ k s, spans.get k = some s → P s) :
    ∀ k' s, (spans.delete k).get k' = some s → P s := by
  intro k' s hs
  by_cases hk : k = k'
  · subst hk
    rw [get_delete_self] at hs
    cases hs
  · rw [get_delete_of_ne hk] at hs
    exact h k' s hs

variable {db db' : ShardDB}

lemma SpanChange.spread {time next' : ℕ} {body : ShardLogEntryBody}
    {spans' : SortedStore SpanKey SpanBody}
    (hcache : ∀ i service, cache i = some service → service.failureDomain = domain i)
    (h : db.Spread domain) (hbody : body.SpreadOver domain)
    (hchange : SpanChange cfg cache db time body spans' next') :
    ∀ k span, spans'.get k = some span → span.Spread domain := by
  cases hchange with
  | keep => exact h
  | addInline =>
    refine forall_get_put h ⟨?_, nodup_nil⟩
    intro loc hloc
    cases hloc
  | @allocate e file loc hfile hsize hloc =>
    refine forall_get_put h ⟨?_, nodup_singleton _⟩
    intro l hl
    obtain rfl : l = loc := mem_singleton.1 hl
    rw [(SpanBlocksBody.alloc_eq_some hloc).1, newBlocks_services]
    exact hbody
  | drop => exact forall_get_delete h
  | swapBlocks hk₁ hk₂ hfound₁ hfound₂ hcheck₁ hcheck₂ =>
    refine forall_get_put (forall_get_put h ?_) ?_
    · exact (h _ _ hk₁).setBlock hfound₁ (checkNoDuplicates_eq_ok hcache hcheck₁)
    · exact (h _ _ hk₂).setBlock hfound₂ (checkNoDuplicates_eq_ok hcache hcheck₂)
  | swapSpans hk₁ hk₂ => exact forall_get_put (forall_get_put h (h _ _ hk₂)) (h _ _ hk₁)
  | move hk₁ => exact forall_get_put (forall_get_delete h) (h _ _ hk₁)
  | addLocation hk₁ hk₂ hloc hnew hadd =>
    refine forall_get_delete (forall_get_put h ?_)
    exact (h _ _ hk₁).addLocation (h _ _ hk₂) hloc hnew hadd

lemma shardStep_spread {step : ShardStep} (h : db.Spread domain) (hok : step.SpreadOk domain)
    (hstep : shardStep cfg db step = some db') : db'.Spread domain := by
  rcases shardStep_eq_some hstep with ⟨entry, resp, index, hprepare, batch, happly, rfl⟩ | rfl |
    ⟨index, time, rfl⟩
  · have hspread := (applyEntryBody_spanChange happly).spread hok.cache h
      (prepareLogEntry_spreadOver hok.pick hprepare)
    exact hspread
  · exact h
  · exact h

/-- **Spread is kept.** If services stay in their failure domains and new spans are put on services
that are spread, the blocks of every span at every location are always spread, and no span has a
location twice. -/
theorem spread_of_run {now : ℕ} {steps : List ShardStep} (hok : ∀ step ∈ steps, step.SpreadOk domain)
    (hrun : run (shardStep cfg) (initDb cfg now) steps = some db) : db.Spread domain := by
  have hmeets : RunMeets (shardStep cfg) (fun _ step => step.SpreadOk domain) (initDb cfg now)
      steps := .of_forall hok _
  refine run_invariant (fun _ _ _ h hok hstep => shardStep_spread h hok hstep) ?_ hmeets hrun
  intro k span hspan
  cases hspan

end

/-- Service `i` of the sample is in the failure domain `[i]`. -/
lemma sampleStep_spreadOk (time : ℕ) (req : ShardReq) :
    (sampleStep time req).SpreadOk fun i => [i] := by
  constructor
  · intro i service h
    simp only [sampleStep, sampleCache, Option.ite_none_right_eq_some, Option.some.injEq] at h
    rw [← h.2]
  · intro location storageClass n blacklist size services h
    obtain rfl : (range n).map (· + 1) = services := Except.ok.inj h
    have hinj : Function.Injective fun i : ℕ => [i] := fun i j hij => head_eq_of_cons_eq hij
    have hnodup : ((range n).map (· + 1)).Nodup :=
      nodup_range.map (add_left_injective 1)
    exact ⟨hnodup, hnodup.map hinj⟩

/-- A span is mirrored on two services. -/
def sampleMirror (f : InodeId) : ShardReq :=
  .addSpanInitiate
    { fileId := f, cookie := sampleConfig.calcCookie f, byteOffset := 0, size := 4096
      crc := crc32cZeroExtend 0 4096, storageClass := 2
      blacklist := [], parity := ⟨17⟩, stripes := 1, cellSize := 4096
      crcs := [crc32cZeroExtend 0 4096, crc32cZeroExtend 0 4096] }

theorem spread_of_run_swap : ∃ db, run (shardStep sampleConfig) (initDb sampleConfig 0)
        [sampleStep 1 sampleConstruct, sampleStep 2 sampleConstruct,
          sampleStep 3 (sampleMirror (sampleFile 1)), sampleStep 4 (sampleMirror (sampleFile 2)),
          sampleStep 5 (.swapBlocks ⟨sampleFile 1, 0, 256, sampleFile 2, 0, 768⟩)] = some db ∧
      (db.spans.get ⟨sampleFile 1, 0⟩).map (fun span => span.blocks.map fun b =>
        (b.blockId, b.blockService)) = some [(768, 1), (512, 2)] ∧
      db.Spread fun i => [i] := by
  refine exists_eq_some_imp (fun db hrun hblocks =>
    ⟨hblocks, spread_of_run (fun step hstep => ?_) hrun⟩) (by decide +kernel)
  simp only [mem_cons, not_mem_nil, or_false] at hstep
  rcases hstep with rfl | rfl | rfl | rfl | rfl <;> exact sampleStep_spreadOk _ _

end TernFS
