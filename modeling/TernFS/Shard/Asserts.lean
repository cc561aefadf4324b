/-
# Applying log entries does not fail an assertion

An assertion that fails while a log entry is applied takes down every replica, since they all apply
the same entry.  Most of them cannot fail: spans tile the files they belong to, a file of some size
has a last span, and a span that is dirty is at one location.  What is left are assertions on data
that come from the client, and those are the conditions on requests here.
-/
import TernFS.Shard.Failures
import TernFS.Shard.SpanChanges
import TernFS.Shard.SpanStates

namespace TernFS

open Lib Function SortedStore List Option

variable {f : InodeId} {span : SpanBody} {offset : ℕ}

/-! ## Dirty spans -/

lemma FileStep.of_append {v v' : FileView} (h : FileStep v (.append f offset span) v') :
    v.transient f = some (offset, .clean) ∧ v'.spans = v.spans.put ⟨f, offset⟩ span := by
  cases h with
  | append hf => exact ⟨hf, rfl⟩

namespace FileView

/-- A dirty span is at one location. -/
def DirtySingle (v : FileView) : Prop :=
  ∀ k span, v.spans.get k = some span → v.spanState k = .dirty → span.locations.length = 1

variable {v v' : FileView} {k : SpanKey}

/-- Only the file of the span matters. -/
lemma spanState_eq_of_frame (hspans : v'.spans.get k = v.spans.get k)
    (htransient : v'.transient k.fileId = v.transient k.fileId) :
    v'.spanState k = v.spanState k := by
  rw [spanState, spanState, hspans, htransient]

/-- A dirty span is the last one of a transient file that is dirty. -/
lemma exists_of_spanState_dirty (h : v.spanState k = .dirty) :
    ∃ span n, v.spans.get k = some span ∧ v.transient k.fileId = some (n, .dirty) ∧
      addU64 k.offset span.spanSize = n := by
  unfold spanState at h
  split at h
  · rename_i span n state hspan hf
    split_ifs at h with hends
    exact ⟨span, n, hspan, by rw [hf, h], hends⟩
  · cases h

/-- Events that leave a file not dirty, and everything else alone. -/
lemma DirtySingle.of_not_dirty (h : v.DirtySingle)
    (hspans : ∀ k, k.fileId ≠ f → v'.spans.get k = v.spans.get k)
    (htransient : ∀ f', f' ≠ f → v'.transient f' = v.transient f')
    (hf : ∀ n, v'.transient f ≠ some (n, .dirty)) : v'.DirtySingle := by
  intro k span hk hdirty
  obtain ⟨-, n, -, hfile, -⟩ := exists_of_spanState_dirty hdirty
  have hne : k.fileId ≠ f := fun heq => hf n (heq ▸ hfile)
  rw [spanState_eq_of_frame (hspans k hne) (htransient _ hne)] at hdirty
  exact h k span ((hspans k hne).symm.trans hk) hdirty

/-- The end of a span does not wrap around. -/
lemma WellTiled.addU64_eq (h : v.WellTiled) {n : ℕ} {state : SpanState}
    (hf : v.transient f = some (n, state)) (hspan : v.spans.get ⟨f, offset⟩ = some span) :
    addU64 offset span.spanSize = offset + span.spanSize := by
  have hle := (h.tiled_of_transient hf).add_le (o := offset) hspan
  have hlt := h.lt_of_transient hf
  exact addU64_of_lt (by omega)

/-- A span of blocks at one location becomes the last one of a file. -/
lemma DirtySingle.of_last (h : v.DirtySingle) (htiled : v'.WellTiled) {state : SpanState}
    (hspan : v'.spans.get ⟨f, offset⟩ = some span)
    (hf : v'.transient f = some (addU64 offset span.spanSize, state))
    (hsingle : span.locations.length = 1)
    (hspans : ∀ k, k.fileId ≠ f → v'.spans.get k = v.spans.get k)
    (htransient : ∀ f', f' ≠ f → v'.transient f' = v.transient f') : v'.DirtySingle := by
  rintro ⟨f', o⟩ span' hk hdirty
  by_cases hfile : f' = f
  · subst hfile
    obtain ⟨span'', n, hget, hf', hn⟩ := exists_of_spanState_dirty hdirty
    obtain rfl := mem_unique hk hget
    -- both spans end where the file does, so they are the same
    have htile := htiled.tiled_of_transient hf
    rw [htiled.addU64_eq hf hspan] at htile hf
    obtain rfl : offset + span.spanSize = n := congrArg Prod.fst (mem_unique hf hf')
    rw [htiled.addU64_eq hf hk] at hn
    obtain rfl : o = offset := htile.eq_of_ends (o := o) hk hspan hn rfl
    obtain rfl := mem_unique hk hspan
    exact hsingle
  · rw [spanState_eq_of_frame (hspans _ hfile) (htransient _ hfile)] at hdirty
    exact h _ span' ((hspans _ hfile).symm.trans hk) hdirty

/-- **Step lemma.** Dirty spans stay at one location, if new spans of blocks are, and swaps of
blocks leave the numbers of locations alone. -/
theorem DirtySingle.step {ev : FileEvent} (h : v.DirtySingle) (htiled : v.WellTiled)
    (htiled' : v'.WellTiled) (hfound : v.StatesFound ev)
    (hnew : ∀ f offset span, ev = .append f offset span → ¬ span.IsInlineStorage →
      span.locations.length = 1)
    (hswap : ∀ k₁ k₂, ev = .swapBlocks k₁ k₂ → ∀ k span', v'.spans.get k = some span' →
      ∃ span, v.spans.get k = some span ∧ span'.spanSize = span.spanSize ∧
        span'.locations.length = span.locations.length)
    (hstep : FileStep v ev v') : v'.DirtySingle := by
  cases hstep with
  | quiet => exact h
  | @constructFile f | @constructSymlink f | @link f | @unlink f | @remove f | @certify f
  | @condemn f =>
    exact h.of_not_dirty (f := f) (fun _ _ => rfl) (fun _ hne => update_of_ne hne ..) (by simp)
  | @append f offset span =>
    by_cases hinline : span.IsInlineStorage
    · refine h.of_not_dirty (f := f) (fun k hne => get_put_of_ne fun hk => hne ?_)
        (fun _ hne => update_of_ne hne ..) (by simp [hinline])
      rw [← hk]
    refine h.of_last htiled' (get_put_self ..) (update_self ..)
      (hnew f offset span rfl hinline) (fun k hne => get_put_of_ne fun hk => hne ?_)
      (fun _ hne => update_of_ne hne ..)
    rw [← hk]
  | @dropInline f n offset state span hf hn hlast hinline =>
    have hspan := (seekForPrev_spec hlast).1
    have hstate : state ≠ .dirty := by
      rintro rfl
      have hends := htiled.ends_of_seekForPrev hf rfl hlast
      have hdirty : v.spanState ⟨f, offset⟩ = .dirty := by
        rw [spanState_eq hspan hf, htiled.addU64_eq hf hspan, if_pos hends]
      have hsingle := h _ span hspan hdirty
      rw [SpanBody.locations_of_isInlineStorage hinline] at hsingle
      cases hsingle
    refine h.of_not_dirty (f := f) (fun k hne => get_delete_of_ne fun hk => hne ?_)
      (fun _ hne => update_of_ne hne ..) (by simpa using hstate)
    rw [← hk]
  | @dropBlocks f =>
    refine h.of_not_dirty (f := f) (fun k hne => get_delete_of_ne fun hk => hne ?_)
      (fun _ hne => update_of_ne hne ..) (by simp)
    rw [← hk]
  | @swapBlocks k₁ k₂ =>
    intro k span' hk hdirty
    obtain ⟨span, hspan, hsize, hlength⟩ := hswap k₁ k₂ rfl k span' hk
    rw [spanState_congr hspan hk hsize rfl] at hdirty
    rw [hlength]
    exact h k span hspan hdirty
  | @swapSpans k₁ k₂ s₁ s₂ index' hne hk₁ hk₂ hsize hstate₁ hstate₂ =>
    have hkeys : k₂ ≠ k₁ := fun hk => hne (by rw [hk])
    have hget₁ : ((v.spans.put k₁ s₂).put k₂ s₁).get k₁ = some s₂ := by
      rw [get_put_of_ne hkeys, get_put_self]
    have hclean₁ := (hfound.1 s₁ hk₁).symm.trans hstate₁
    have hclean₂ := (hfound.2 s₂ hk₂).symm.trans hstate₂
    intro k span hk hdirty
    by_cases h₁ : k = k₁
    · subst h₁
      obtain rfl : s₂ = span := mem_unique hget₁ hk
      rw [spanState_congr hk₁ hk hsize.symm rfl, hclean₁] at hdirty
      cases hdirty
    by_cases h₂ : k = k₂
    · subst h₂
      obtain rfl : s₁ = span := some_inj.1 ((get_put_self ..).symm.trans hk)
      rw [spanState_congr hk₂ hk hsize rfl, hclean₂] at hdirty
      cases hdirty
    have hk' : v.spans.get k = some span := by rwa [get_put_put_of_ne h₁ h₂] at hk
    rw [spanState_eq_of_frame (hk.trans hk'.symm) rfl] at hdirty
    exact h k span hk' hdirty
  | @move k₁ k₂ n span index' hk₁ hn hf₁ =>
    have hsingle : span.locations.length = 1 :=
      h k₁ span hk₁ (by rw [spanState_eq hk₁ hf₁, if_pos hn.symm])
    -- first the span leaves its file, which is clean then
    have h₁ : ({ v with
        transient := update v.transient k₁.fileId (some (subU64 n span.spanSize, .clean))
        spans := v.spans.delete k₁ } : FileView).DirtySingle := by
      refine h.of_not_dirty (f := k₁.fileId) (fun k hne => get_delete_of_ne fun hk => hne ?_)
        (fun _ hne => update_of_ne hne ..) (by simp)
      rw [← hk]
    refine h₁.of_last htiled' (get_put_self ..) (update_self ..) hsingle
      (fun k hne => get_put_of_ne fun hk => hne ?_) (fun _ hne => update_of_ne hne ..)
    rw [← hk]
  | @addLocation k₁ k₂ n m source destination destination' index' hne hk₁ hk₂ hf₁ hf₂ =>
    have hnone := htiled.toDistinct.transient_eq_none hf₂
    have h₁ : ({ v with spans := v.spans.put k₂ destination' } : FileView).DirtySingle := by
      refine h.of_not_dirty (f := k₂.fileId)
        (fun k hne => get_put_of_ne fun hk => hne ?_) (fun _ _ => rfl) (by simp [hnone])
      rw [← hk]
    refine h₁.of_not_dirty (f := k₁.fileId) (fun k hne => get_delete_of_ne fun hk => hne ?_)
      (fun _ hne => update_of_ne hne ..) (by simp)
    rw [← hk]

end FileView

/-! ## What requests keep -/

variable {spans' : SortedStore SpanKey SpanBody} {file : TransientFileBody}

section

variable {cfg : ShardConfig} {cache : BlockServicesCache} {db db' : ShardDB} {time : ℕ}
  {entry : ShardLogEntry} {resp : ShardResp} {pick : PickBlockServices} {req : ShardReq}

/-- A swap of blocks leaves the numbers of locations alone. -/
lemma SpanChange.locations_of_swapBlocks {next' : ℕ} {r : SwapBlocksReq}
    {k : SpanKey} {span' : SpanBody} (h : SpanChange cfg cache db time (.swapBlocks r) spans' next')
    (hk : spans'.get k = some span') :
    ∃ span, db.spans.get k = some span ∧ span'.spanSize = span.spanSize ∧
      span'.locations.length = span.locations.length := by
  cases h with
  | keep => exact ⟨span', hk, rfl, rfl⟩
  | @drop _ k' =>
    by_cases hkey : k' = k
    · subst hkey
      rw [get_delete_self] at hk
      cases hk
    · rw [get_delete_of_ne hkey] at hk
      exact ⟨span', hk, rfl, rfl⟩
  | @swapBlocks _ s₁ s₂ found₁ found₂ hk₁ hk₂ =>
    have hlength : ∀ (s : SpanBody) (i j : ℕ) (block : BlockBody),
        (s.setBlock i j block).locations.length = s.locations.length := by
      intro s i j block
      rw [SpanBody.locations_setBlock, length_modify]
    by_cases h₂ : k = ⟨r.fileId2, r.byteOffset2⟩
    · subst h₂
      rw [get_put_self] at hk
      obtain rfl := some_inj.1 hk
      exact ⟨s₂, hk₂, rfl, hlength ..⟩
    by_cases h₁ : k = ⟨r.fileId1, r.byteOffset1⟩
    · subst h₁
      rw [get_put_of_ne (Ne.symm h₂), get_put_self] at hk
      obtain rfl := some_inj.1 hk
      exact ⟨s₁, hk₁, rfl, hlength ..⟩
    · rw [FileView.get_put_put_of_ne h₁ h₂] at hk
      exact ⟨span', hk, rfl, rfl⟩

/-- A span is at one location at most where there was none before, if it was not moved there. -/
lemma SpanChange.locations_of_new {next' : ℕ} {body : ShardLogEntryBody} {k : SpanKey}
    (h : SpanChange cfg cache db time body spans' next') (hmove : ∀ r, body ≠ .moveSpan r)
    (hnone : db.spans.get k = none) (hk : spans'.get k = some span) :
    span.locations.length ≤ 1 := by
  have hput : ∀ {spans : SortedStore SpanKey SpanBody} {k' s}, spans.get k = none →
      (spans.put k' s).get k = some span → s = span := by
    intro spans k' s hspans hs
    by_cases hkey : k' = k
    · subst hkey
      rw [get_put_self] at hs
      exact some_inj.1 hs
    · rw [get_put_of_ne hkey, hspans] at hs
      cases hs
  -- writing over a span that is there, or deleting one, leaves the key without a span
  have hover : ∀ {spans : SortedStore SpanKey SpanBody} {k' s s'}, db.spans.get k' = some s' →
      spans.get k = none → (spans.put k' s).get k = none := by
    intro spans k' s s' hk' hspans
    rwa [get_put_of_ne]
    rintro rfl
    rw [hnone] at hk'
    cases hk'
  have hdelete : ∀ {spans : SortedStore SpanKey SpanBody} {k'}, spans.get k = none →
      (spans.delete k').get k = none := by
    intro spans k' hspans
    by_cases hkey : k' = k
    · rw [hkey, get_delete_self]
    · rwa [get_delete_of_ne hkey]
  cases h with
  | keep => cases hnone.symm.trans hk
  | addInline =>
    obtain rfl := hput hnone hk
    exact Nat.zero_le 1
  | allocate =>
    obtain rfl := hput hnone hk
    exact le_rfl
  | drop => cases (hdelete hnone).symm.trans hk
  | swapBlocks hk₁ hk₂ | swapSpans hk₁ hk₂ => cases (hover hk₂ (hover hk₁ hnone)).symm.trans hk
  | move => exact absurd rfl (hmove _)
  | addLocation hk₁ hk₂ => cases (hdelete (hover hk₂ hnone)).symm.trans hk

lemma body_ne_moveSpan (hprepare : prepareLogEntry cfg time pick req = .ok entry)
    (hreq : ∀ r, req ≠ .moveSpan r) : ∀ r, entry.body ≠ .moveSpan r := by
  intro r
  obtain ⟨body, hprepared, rfl⟩ := prepareLogEntry_eq_ok hprepare
  cases hprepared with
  | moveSpan r' => exact absurd rfl (hreq r')
  | _ => simp

/-- What the assertions rest on, from one state to the next. -/
structure AssertInv (db : ShardDB) : Prop where
  wellTiled : db.fileView.WellTiled
  dirtySingle : db.fileView.DirtySingle

lemma initDb_assertInv (now : ℕ) : AssertInv (initDb cfg now) where
  wellTiled := initDb_wellTiled now
  dirtySingle := by
    intro k span hk
    cases hk

lemma AssertInv.of_prepared (h : AssertInv db) (htiling : req.TilingOk db) (hswap : req.SwapOk db)
    (hprepare : prepareLogEntry cfg time pick req = .ok entry)
    (happly : applyEntryBody cfg cache db entry.time entry.body = .ok (db', resp)) :
    AssertInv db' := by
  obtain ⟨ev, hev, hcauses⟩ := prepared_requestStep hprepare happly
  have hchange := applyEntryBody_spanChange happly
  have htiled' := h.wellTiled.step (htiling.event h.wellTiled.toDistinct hcauses hev) hev
  refine ⟨htiled', h.dirtySingle.step h.wellTiled htiled'
    (hswap.event h.wellTiled.toDistinct hcauses) ?_ ?_ hev⟩
  · rintro f offset span rfl hblocks
    -- the file ends where the new span starts, so nothing was there
    have hmove : ∀ r, entry.body ≠ .moveSpan r := by
      refine body_ne_moveSpan hprepare fun r hr => ?_
      subst hr
      rcases hcauses with ⟨_, hreq, -⟩ | ⟨_, hreq, -⟩ <;> cases hreq
    obtain ⟨hf, hspans⟩ := hev.of_append
    have hnone : db.spans.get ⟨f, offset⟩ = none := (h.wellTiled.tiled_of_transient hf).get_end
    have hspan : db'.spans.get ⟨f, offset⟩ = some span := by
      change db'.spans = db.spans.put ⟨f, offset⟩ span at hspans
      rw [hspans, get_put_self]
    have hle := hchange.locations_of_new hmove hnone hspan
    have hpos : 0 < span.locations.length := by
      obtain ⟨size, crc, storage⟩ := span
      cases storage with
      | inline => exact absurd trivial hblocks
      | blocks => exact Nat.succ_pos _
    omega
  · rintro k₁ k₂ rfl k span' hk
    obtain ⟨r, rfl, rfl, rfl⟩ := hcauses
    obtain ⟨_, ⟨⟩, rfl⟩ := prepareLogEntry_eq_ok hprepare
    exact hchange.locations_of_swapBlocks hk

lemma shardStep_assertInv {step : ShardStep} (h : AssertInv db)
    (hok : step.req.TilingOk db ∧ step.req.SwapOk db)
    (hstep : shardStep cfg db step = some db') : AssertInv db' := by
  rcases shardStep_eq_some hstep with ⟨entry, resp, index, hprepare, batch, happly, rfl⟩ | rfl |
    ⟨index, time, rfl⟩
  · have hbatch := h.of_prepared hok.1 hok.2 hprepare happly
    exact ⟨hbatch.wellTiled, hbatch.dirtySingle⟩
  · exact h
  · exact ⟨h.wellTiled, h.dirtySingle⟩

/-! ## What requests have to meet -/

/-- The condition on a request under which none of the assertions fails: the ids of the shard are
not used up; an inode to be removed has an id that can be unpacked; the directory from which a
linked file is unlinked is there, and was changed before; the ids given for a swap of spans are no
more than the blocks of each span at its first location; and there is room for a location. -/
def ShardReq.AssertsOk (db : ShardDB) (time : ℕ) : ShardReq → Prop
  | .constructFile _ => db.nextFileId.id < 2 ^ 53 - 2 ∧ db.nextSymlinkId.id < 2 ^ 53 - 2
  | .removeInode r => r.id.Valid
  | .sameShardHardFileUnlink r => db.files.get r.targetId ≠ none →
    ∃ dir ∈ db.directories.get r.ownerId, dir.mtime < time
  | .swapSpans r => ∀ k ∈ [(⟨r.fileId1, r.byteOffset1⟩ : SpanKey), ⟨r.fileId2, r.byteOffset2⟩],
    ∀ span ∈ db.spans.get k, ∀ loc ∈ span.locations.head?,
      r.blocks1.length ≤ loc.blocks.length ∧ r.blocks2.length ≤ loc.blocks.length
  | .addSpanLocation r =>
    ∀ span ∈ db.spans.get ⟨r.fileId2, r.byteOffset2⟩, span.locations.length < 254
  | _ => True

instance (db : ShardDB) (time : ℕ) (req : ShardReq) : Decidable (req.AssertsOk db time) := by
  induction req using ShardReq.casesOn <;> dsimp only [ShardReq.AssertsOk] <;> infer_instance

/-- The block services of all spans are in the cache, and so are the ones that are picked. -/
structure CacheCovers (db : ShardDB) (pick : PickBlockServices) (cache : BlockServicesCache) :
    Prop where
  stored : ∀ k span, db.spans.get k = some span → ∀ block ∈ span.blocks,
    cache block.blockService ≠ none
  picked : ∀ location storageClass n blacklist size services,
    pick location storageClass n blacklist size = .ok services → ∀ s ∈ services, cache s ≠ none

lemma InodeId.isFile_of_givenOut {last : InodeId} (h : f.GivenOut 2 last ∨ f.GivenOut 3 last) :
    f.IsFile := by
  rcases h with ⟨hbits, -⟩ | ⟨hbits, -⟩
  · left
    unfold InodeId.type
    rw [hbits]
    rfl
  · right
    unfold InodeId.type
    rw [hbits]
    rfl

/-- A counter that is not used up has a next id. -/
lemma InodeId.InRange.next_valid {bits : ℕ} {last : InodeId} (h : last.InRange bits)
    (hbits : bits = 2 ∨ bits = 3) (hid : last.id < 2 ^ 53 - 2) :
    (⟨addU64 last.u64 0x100⟩ : InodeId).Valid := by
  obtain ⟨hlast, -⟩ := h
  unfold InodeId.id at hid
  rw [addU64_of_lt (by omega)]
  refine .inr ⟨?_, ?_⟩
  · unfold InodeId.id
    dsimp only
    omega
  have hnext : (last.u64 + 0x100) / 2 ^ 61 = bits := by omega
  unfold InodeId.type
  rw [hnext]
  rcases hbits with rfl | rfl <;> simp

/-- The spans of a state that is reached belong to files. -/
lemma AssertInv.covered (h : AssertInv db) (hcache : CacheCovers db pick cache) :
    db.Covered cache := by
  intro k span hspan
  refine ⟨hcache.stored k span hspan, ?_⟩
  obtain ⟨n, hsize⟩ := (ShardDB.spansTile_of_wellTiled h.wellTiled).owned k span hspan
  have hthere : db.files.get k.fileId ≠ none ∨ db.transientFiles.get k.fileId ≠ none := by
    rcases hsize with ⟨file, hfile, -⟩ | ⟨file, hfile, -⟩
    · exact .inl (by simp [hfile])
    · exact .inr (by simp [hfile])
  refine ⟨?_, hthere⟩
  have hpresent : db.fileView.Present k.fileId := by
    simpa [FileView.Present, ShardDB.fileView, linkedView, transientView] using hthere
  rcases h.wellTiled.givenOut k.fileId hpresent with hgiven | hgiven
  · exact InodeId.isFile_of_givenOut (.inl hgiven)
  · exact InodeId.isFile_of_givenOut (.inr hgiven)

/-- A transient file of some size has a last span. -/
lemma AssertInv.exists_last (h : AssertInv db)
    (hfile : db.transientFiles.get f = some file) (hne : file.fileSize ≠ 0) :
    ∃ e ∈ db.spans.seekForPrev ⟨f, file.fileSize⟩, e.1.fileId = f := by
  have hf : db.fileView.transient f = some (file.fileSize, file.lastSpanState) := by
    simp [ShardDB.fileView, transientView, hfile]
  have htiled := h.wellTiled.tiled_of_transient hf
  obtain ⟨o, span, hspan⟩ := htiled.exists_of_ne_zero hne
  have hget : db.spans.get ⟨f, o⟩ = some span := hspan
  have hle : (⟨f, o⟩ : SpanKey) ≤ ⟨f, file.fileSize⟩ :=
    SpanKey.le_def.2 (.inr ⟨rfl, (htiled.lt hspan).le⟩)
  cases hseek : db.spans.seekForPrev ⟨f, file.fileSize⟩ with
  | none =>
    have hnone := seekForPrev_eq_none_iff.1 hseek _ hle
    rw [hget] at hnone
    cases hnone
  | some e =>
    obtain ⟨-, hupper, hmax⟩ := seekForPrev_spec hseek
    have hlower := hmax _ hle (by simp [hget])
    refine ⟨e, rfl, ?_⟩
    -- between two keys of the file there are keys of the file only
    rcases SpanKey.le_def.1 hupper with hlt | ⟨heq, -⟩
    · rcases SpanKey.le_def.1 hlower with hlt' | ⟨heq', -⟩
      · exact absurd (hlt.trans hlt') (lt_irrefl _)
      · exact heq'.symm
    · exact heq

/-- The last span of a dirty file is at one location. -/
lemma AssertInv.single (h : AssertInv db)
    (hfile : db.transientFiles.get f = some file) (hspan : db.spans.get ⟨f, offset⟩ = some span)
    (hdirty : file.lastSpanState = .dirty) (hends : file.fileSize ≤ addU64 offset span.spanSize) :
    span.locations.length = 1 := by
  have hf : db.fileView.transient f = some (file.fileSize, .dirty) := by
    simp [ShardDB.fileView, transientView, hfile, hdirty]
  have hle := (h.wellTiled.tiled_of_transient hf).add_le (o := offset) hspan
  have hadd : addU64 offset span.spanSize = offset + span.spanSize :=
    h.wellTiled.addU64_eq hf hspan
  have heq : addU64 offset span.spanSize = file.fileSize := by omega
  refine h.dirtySingle ⟨f, offset⟩ span hspan ?_
  rw [FileView.spanState_eq (k := ⟨f, offset⟩) hspan hf, if_pos heq]

lemma prepareAddSpanInitiate_allocates {location : ℕ} {r : AddSpanInitiateReq}
    {e : AddSpanAtLocationInitiateEntry} (hcache : CacheCovers db pick cache)
    (h : prepareAddSpanInitiate cfg pick location r = .ok e) :
    e.Allocates ∧ ∀ entryBlock ∈ e.bodyBlocks, cache entryBlock.blockServiceId ≠ none := by
  simp only [prepareAddSpanInitiate, bind_eq_ok, check_eq_ok, assert_eq_ok, exists_const] at h
  obtain ⟨_, -, hclass, -, ⟨hparity, hstripes, -⟩, picked, hpicked, hlength, ⟨⟩⟩ := h
  refine ⟨⟨?_, ?_, ⟨Nat.pos_of_ne_zero hstripes.1, hstripes.2⟩, Nat.pos_of_ne_zero hparity.1,
    hclass.2, hclass.1⟩, ?_⟩
  · simp
  · simp
  intro entryBlock hmem
  obtain ⟨i, hi, rfl⟩ := mem_map.1 hmem
  have hlt : i < picked.length := by
    rw [mem_range] at hi
    omega
  rw [getD_eq_getElem?_getD, getElem?_eq_getElem hlt, getD_some]
  exact hcache.picked _ _ _ _ _ _ hpicked _ (getElem_mem hlt)

/-- The assertions hold for the entry of a request that meets the condition. -/
lemma AssertInv.safe (h : AssertInv db) (hok : req.AssertsOk db time)
    (hcache : CacheCovers db pick cache)
    (hprepare : prepareLogEntry cfg time pick req = .ok entry) :
    entry.body.Safe cache db entry.time := by
  obtain ⟨body, hprepared, rfl⟩ := prepareLogEntry_eq_ok hprepare
  cases hprepared with
  | constructFile r e he =>
    simp only [prepareConstructFile, bind_eq_ok, check_eq_ok, exists_const] at he
    obtain ⟨htype, ⟨⟩⟩ := he
    exact htype.imp (fun hfile => ⟨hfile, h.wellTiled.fileIds.next_valid (.inl rfl) hok.1⟩)
      (fun hsymlink => ⟨hsymlink, h.wellTiled.symlinkIds.next_valid (.inr rfl) hok.2⟩)
  | removeInode r hnull => exact (hok.resolve_left hnull).2
  | sameShardHardFileUnlink r htype =>
    intro hlinked
    obtain ⟨dir, hdir, hmtime⟩ := hok hlinked
    have hget := getDirectory_eq_ok.2 ⟨htype, hdir, .inl rfl⟩
    exact ⟨_, initiateDirectoryModification_eq_ok.2 ⟨dir, hget, hmtime, rfl, rfl⟩⟩
  | addSpanInitiate r e he | addSpanInitiateWithReference r ref e he
  | addSpanAtLocationInitiate location r ref e he =>
    exact prepareAddSpanInitiate_allocates hcache he
  | addSpanCertify =>
    intro file span hfile hspan hdirty hends
    exact (h.single hfile hspan hdirty hends).le
  | removeSpanInitiate => exact fun file hfile hne => h.exists_last hfile hne
  | swapSpans =>
    rintro span (hspan | hspan)
    · have hlengths := hok _ mem_cons_self span hspan
      exact ⟨fun loc hloc => (hlengths loc hloc).1, fun loc hloc => (hlengths loc hloc).2⟩
    · have hlengths := hok _ (mem_cons_of_mem _ mem_cons_self) span hspan
      exact ⟨fun loc hloc => (hlengths loc hloc).1, fun loc hloc => (hlengths loc hloc).2⟩
  | moveSpan =>
    intro file span hfile hspan hdirty hends
    exact h.single hfile hspan hdirty hends.le
  | addSpanLocation => exact hok
  | _ => trivial

/-- **No assertion fails.** In a state that is reached by requests that keep files tiled and swap
spans of the states they are taken to have, a request that meets the conditions, and is prepared,
is applied: with a response or an error. -/
theorem applyLogEntry_isSome_of_run {now : ℕ} {steps : List ShardStep} (step : ShardStep)
    (hmeets : RunMeets (shardStep cfg)
      (fun db step => step.req.TilingOk db ∧ step.req.SwapOk db) (initDb cfg now) steps)
    (hrun : run (shardStep cfg) (initDb cfg now) steps = some db)
    (hok : step.req.AssertsOk db step.time) (hcache : CacheCovers db step.pick step.cache)
    (hprepare : prepareLogEntry cfg step.time step.pick step.req = .ok entry) :
    (applyLogEntry cfg step.cache db (addU64 db.lastAppliedLogEntry 1) entry).isSome := by
  have h : AssertInv db :=
    run_invariant (fun _ _ _ => shardStep_assertInv) (initDb_assertInv now) hmeets hrun
  have hallows : Allows (· ≠ .crash) cfg db := allows_err
  have hfails := applyEntryBody_failsOnly hallows (fun hn => absurd (h.covered hcache) hn)
    (fun hn => absurd (h.safe hok hcache hprepare) hn)
  rw [applyLogEntry, if_pos rfl]
  cases happly : applyEntryBody cfg step.cache db entry.time entry.body with
  | ok => rfl
  | error e =>
    cases e with
    | err => rfl
    | crash => exact absurd rfl (hfails .crash happly)

end

/-! ## Samples -/

/-- A cache in which every service is. -/
def sampleFullCache : BlockServicesCache := fun i => some ⟨sampleKey, [i], [], 0⟩

lemma sampleFullCache_covers (db : ShardDB) (pick : PickBlockServices) :
    CacheCovers db pick sampleFullCache :=
  ⟨fun _ _ _ _ _ => some_ne_none _, fun _ _ _ _ _ _ _ _ _ => some_ne_none _⟩

/-- Two files with one certified span each, the first of them linked. -/
def sampleCertifiedFiles : List ShardStep :=
  [sampleStep 1 sampleConstruct, sampleStep 2 sampleConstruct,
    sampleStep 3 (sampleAddSpan (sampleFile 1) 0 4096),
    sampleStep 4 (sampleCertify (sampleFile 1) 0 256),
    sampleStep 5 (sampleAddSpan (sampleFile 2) 0 4096),
    sampleStep 6 (sampleCertify (sampleFile 2) 0 512),
    sampleStep 7 (sampleLink (sampleFile 1) [97])]

/-- Swap their spans; `extra` are ids after the ones of the blocks. -/
def sampleSwapSpans (extra : List ℕ) : ShardStep :=
  ⟨8, samplePick, sampleFullCache,
    .swapSpans ⟨sampleFile 1, 0, 256 :: extra, sampleFile 2, 0, 512 :: extra⟩⟩

/-- Unlink the first file from a directory. -/
def sampleUnlinkFrom (dirId : InodeId) : ShardStep :=
  ⟨8, samplePick, sampleFullCache, .sameShardHardFileUnlink ⟨dirId, sampleFile 1, [97], 7⟩⟩

/-- The step gets as far as applying an entry, and fails an assertion there. -/
def ShardStep.FailsAssertion (cfg : ShardConfig) (db : ShardDB) (step : ShardStep) : Prop :=
  ∃ entry, prepareLogEntry cfg step.time step.pick step.req = .ok entry ∧
    CacheCovers db step.pick step.cache ∧
    applyLogEntry cfg step.cache db (addU64 db.lastAppliedLogEntry 1) entry = none

/-- A swap of spans with one id too many fails an assertion, and so does an unlink of a linked file
from a directory that is not there. -/
theorem failsAssertion_of_run :
    ∃ db, run (shardStep sampleConfig) (initDb sampleConfig 0) sampleCertifiedFiles = some db ∧
      (sampleSwapSpans [1]).FailsAssertion sampleConfig db ∧
      (sampleUnlinkFrom (.of .directory 0 5)).FailsAssertion sampleConfig db := by
  have hfails : ∀ (db : ShardDB) (step : ShardStep), step.cache = sampleFullCache →
      (∃ entry, prepareLogEntry sampleConfig step.time step.pick step.req = .ok entry ∧
        applyLogEntry sampleConfig step.cache db (addU64 db.lastAppliedLogEntry 1) entry = none) →
      step.FailsAssertion sampleConfig db := by
    rintro db step hcache ⟨entry, hprepare, hnone⟩
    exact ⟨entry, hprepare, hcache ▸ sampleFullCache_covers db _, hnone⟩
  exact exists_eq_some_imp (fun db _ => And.imp (hfails db _ rfl) (hfails db _ rfl))
    (by decide +kernel)

theorem applyLogEntry_isSome_of_swapSpans :
    ∃ db entry, run (shardStep sampleConfig) (initDb sampleConfig 0) sampleCertifiedFiles =
        some db ∧
      prepareLogEntry sampleConfig 8 samplePick (sampleSwapSpans []).req = .ok entry ∧
      (applyLogEntry sampleConfig sampleFullCache db (addU64 db.lastAppliedLogEntry 1)
        entry).isSome := by
  have hmeets : RunMeets (shardStep sampleConfig)
      (fun db step => step.req.TilingOk db ∧ step.req.SwapOk db) (initDb sampleConfig 0)
      sampleCertifiedFiles := by
    decide +kernel
  simp only [exists_and_left]
  refine exists_eq_some_imp (fun db hrun (h : (sampleSwapSpans []).req.AssertsOk db 8 ∧
    ∃ entry, prepareLogEntry sampleConfig 8 samplePick (sampleSwapSpans []).req = .ok entry ∧
      True) => ?_) (by decide +kernel)
  obtain ⟨hok, entry, hprepare, -⟩ := h
  exact ⟨entry, hprepare, applyLogEntry_isSome_of_run (sampleSwapSpans []) hmeets hrun hok
    (sampleFullCache_covers db samplePick) hprepare⟩

end TernFS
