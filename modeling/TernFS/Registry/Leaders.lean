/-
# Registered leaders

A registration or a move that makes a replica the leader clears the flag of the other replicas of
the shard, or of the CDC, that have it in the database.  The flag that another request of the same
chunk has put into the batch is not seen, so that a chunk may name one replica for each shard and
location only.
-/
import TernFS.Registry.DB

namespace TernFS.Registry

open Lib List Option

/-- The replica is recorded as a leader. -/
def Leader (t : Tables) (k : ReplicaKey) : Prop :=
  ∃ info, t.replicas k = some info ∧ info.isLeader = true

/-- Replicas of one shard at one location, or of the CDC at one location. -/
structure SameGroup (k k' : ReplicaKey) : Prop where
  service : k.service = k'.service
  location : k.location = k'.location
  shard : k.shard = k'.shard

lemma SameGroup.symm {k k' : ReplicaKey} (h : SameGroup k k') : SameGroup k' k :=
  ⟨h.service.symm, h.location.symm, h.shard.symm⟩

/-- At most one replica of a shard or of the CDC is recorded as the leader at a location. -/
structure LeadersUnique (t : Tables) : Prop where
  replica_lt : ∀ k info, t.replicas k = some info → k.replica < replicaCount
  unique : ∀ k k', k.service ≠ .registry → SameGroup k k' → Leader t k → Leader t k' → k = k'

/-- The replica that a request makes the leader of a shard or of the CDC. -/
def Request.leader? : Request → Option ReplicaKey
  | .registerShard location shard replica true _ => some ⟨.shard, location, shard, replica⟩
  | .registerCdc location replica true _ => some ⟨.cdc, location, 0, replica⟩
  | .moveShardLeader location shard replica => some ⟨.shard, location, shard, replica⟩
  | .moveCdcLeader location replica => some ⟨.cdc, location, 0, replica⟩
  | _ => none

/-- The replicas that the requests of a chunk make leaders. -/
def namedLeaders (chunk : List LogEntry) : List ReplicaKey :=
  chunk.flatMap fun e => e.requests.filterMap Request.leader?

/-- A chunk names one leader of a shard, or of the CDC, at a location. -/
def OneLeaderEach (chunk : List LogEntry) : Prop :=
  ∀ k ∈ namedLeaders chunk, ∀ k' ∈ namedLeaders chunk, SameGroup k k' → k = k'

/-! ## What a handler does to the leaders -/

section

variable {t db view view' mid : Tables} {key k : ReplicaKey} {info old : ReplicaInfo}

lemma leader_putReplica : Leader (t.putReplica key info) k ↔
      if k = key then info.isLeader = true else Leader t k := by
  by_cases hk : k = key
  · subst hk
    simp [Leader, Tables.putReplica]
  · simp [Leader, Tables.putReplica, hk]

lemma leader_of_clearOthers (h : Leader (clearOthers db view key) k) :
    Leader view k ∧ (key.isOther k = true → ¬ Leader db k) := by
  obtain ⟨info, hinfo, hlead⟩ := h
  simp only [clearOthers] at hinfo
  split at hinfo
  · next hother =>
    cases hdb : db.replicas k with
    | none =>
      rw [hdb] at hinfo
      refine ⟨⟨info, hinfo, hlead⟩, ?_⟩
      rintro - ⟨info', hinfo', -⟩
      exact absurd (hdb.symm.trans hinfo') (by simp)
    | some =>
      simp only [hdb] at hinfo
      split at hinfo
      · obtain rfl := some.inj hinfo
        exact absurd hlead Bool.false_ne_true
      next hold =>
      refine ⟨⟨info, hinfo, hlead⟩, ?_⟩
      rintro - ⟨info', hinfo', hlead'⟩
      obtain rfl := mem_unique hdb hinfo'
      exact hold hlead'
  · next hother => exact ⟨⟨info, hinfo, hlead⟩, fun h => absurd h hother⟩

/-- What a handler does to the replicas: those it stores were stored or have a number in the range,
and the leaders are those of before, with the one that the request makes. That one has no other
beside it unless it was a leader in the database already. -/
structure Handles (db view view' : Tables) (made : Option ReplicaKey) : Prop where
  stored : ∀ k info, view'.replicas k = some info → k.replica < replicaCount ∨
    (∃ old, db.replicas k = some old) ∨ ∃ old, view.replicas k = some old
  leaders : ∀ k, k.service ≠ .registry → Leader view' k → Leader view k ∨ made = some k
  made_leader : ∀ k, made = some k → Leader view' k
  others : ∀ k, made = some k → ∀ k', SameGroup k k' → k' ≠ k → k'.replica < replicaCount →
    Leader view' k' → Leader db k' → Leader db k

lemma Handles.of_replicas_eq (h : view'.replicas = view.replicas) : Handles db view view' none where
  stored _ info hk := Or.inr (Or.inr ⟨info, h ▸ hk⟩)
  leaders _ _ := fun ⟨info, hk, hlead⟩ => Or.inl ⟨info, h ▸ hk, hlead⟩
  made_leader := nofun
  others := nofun

lemma Handles.putReplica (hdb : db.replicas key = some old)
    (hlead : key.service ≠ .registry → info.isLeader = false)
    (hmid : mid.replicas = view.replicas) :
    Handles db view (mid.putReplica key info) none where
  stored k info' hk := by
    by_cases hkey : k = key
    · exact Or.inr (Or.inl ⟨old, hkey ▸ hdb⟩)
    · exact Or.inr (Or.inr ⟨info', by simpa [Tables.putReplica, hkey, hmid] using hk⟩)
  leaders k hk hl := by
    rw [leader_putReplica] at hl
    split at hl
    · next hkey =>
      rw [hlead (hkey ▸ hk)] at hl
      exact absurd hl Bool.false_ne_true
    · obtain ⟨i, hi, hil⟩ := hl
      exact Or.inl ⟨i, hmid ▸ hi, hil⟩
  made_leader := nofun
  others := nofun

/-- The leader that is set, with the others cleared or with nothing to clear. -/
lemma Handles.setLeader (hdb : db.replicas key = some old) (hlead : info.isLeader = true)
    (hmid : mid.replicas = (clearOthers db view key).replicas ∨
      mid.replicas = view.replicas ∧ old.isLeader = true) :
    Handles db view (mid.putReplica key info) (some key) where
  stored k info' hk := by
    by_cases hkey : k = key
    · exact Or.inr (Or.inl ⟨old, hkey ▸ hdb⟩)
    have hk' : mid.replicas k = some info' := by simpa [Tables.putReplica, hkey] using hk
    rcases hmid with hmid | ⟨hmid, -⟩
    · rw [hmid] at hk'
      simp only [clearOthers] at hk'
      cases hdbk : db.replicas k with
      | none =>
        rw [hdbk] at hk'
        exact Or.inr (Or.inr ⟨info', by simpa using hk'⟩)
      | some o => exact Or.inr (Or.inl ⟨o, rfl⟩)
    · exact Or.inr (Or.inr ⟨info', hmid ▸ hk'⟩)
  leaders k _ hl := by
    rw [leader_putReplica] at hl
    split at hl
    · next hkey => exact Or.inr (congrArg some hkey.symm)
    obtain ⟨i, hi, hil⟩ := hl
    rcases hmid with hmid | ⟨hmid, -⟩
    · exact Or.inl (leader_of_clearOthers ⟨i, hmid ▸ hi, hil⟩).1
    · exact Or.inl ⟨i, hmid ▸ hi, hil⟩
  made_leader k hk := by
    obtain rfl := some.inj hk
    exact leader_putReplica.2 (by simpa using hlead)
  others k hk k' hgroup hne hlt hl hdbl := by
    obtain rfl := some.inj hk
    rw [leader_putReplica, if_neg hne] at hl
    obtain ⟨i, hi, hil⟩ := hl
    rcases hmid with hmid | ⟨-, hold⟩
    · have hother : key.isOther k' = true := by
        have hrep : k'.replica ≠ key.replica := by
          intro hrep
          refine hne ?_
          obtain ⟨hs, hl, hsh⟩ := hgroup
          cases k'
          cases key
          simp_all
        simp [ReplicaKey.isOther, hgroup.service, hgroup.location, hgroup.shard, hlt, hrep]
      exact absurd hdbl ((leader_of_clearOthers ⟨i, hmid ▸ hi, hil⟩).2 hother)
    · exact ⟨old, hdb, hold⟩

end

lemma registerReplica_handles (opts : RegistryOptions) (clears : Bool) (pad : Padding)
    (requestTime : ℕ) (key : ReplicaKey) (isLeader : Bool) (addrs : AddrsInfo) (db view : Tables)
    (hclears : clears = false → key.service = .registry) :
    Handles db view (registerReplica opts clears pad requestTime key isLeader addrs db view).1
      (if (registerReplica opts clears pad requestTime key isLeader addrs db view).2 = none then
        (if (clears && isLeader) = true then some key else none) else none) := by
  rw [registerReplica]
  cases hdb : db.replicas key with
  | none => simpa using Handles.of_replicas_eq rfl
  | some old =>
    dsimp only
    split
    · simpa using Handles.of_replicas_eq rfl
    split
    · simpa using Handles.of_replicas_eq rfl
    generalize hc : (if clears = true ∧ old.isLeader = false ∧ isLeader = true then
      clearOthers db view key else view) = cleared
    rw [if_pos rfl]
    by_cases hmake : clears = true ∧ isLeader = true
    · rw [if_pos (Bool.and_eq_true _ _ ▸ hmake)]
      refine Handles.setLeader hdb hmake.2 ?_
      cases hold : old.isLeader
      · rw [if_pos ⟨hmake.1, hold, hmake.2⟩] at hc
        subst hc
        exact Or.inl rfl
      · rw [if_neg (by simp [hold])] at hc
        subst hc
        exact Or.inr ⟨rfl, rfl⟩
    · rw [if_neg (Bool.and_eq_true _ _ ▸ hmake)]
      rw [if_neg (fun h => hmake ⟨h.1, h.2.2⟩)] at hc
      subst hc
      refine Handles.putReplica hdb (fun hservice => ?_) rfl
      have hclr : clears = true := Bool.eq_true_of_not_eq_false fun h => hservice (hclears h)
      exact Bool.eq_false_iff.2 fun hlead => hmake ⟨hclr, hlead⟩

lemma moveLeader_handles (key : ReplicaKey) (db view : Tables) :
    Handles db view (moveLeader key db view).1
      (if (moveLeader key db view).2 = none then some key else none) := by
  rw [moveLeader]
  cases hdb : db.replicas key with
  | none => simpa using Handles.of_replicas_eq rfl
  | some => exact Handles.setLeader hdb rfl (Or.inl rfl)

lemma clearInfo_handles (key : ReplicaKey) (db view : Tables) :
    Handles db view (clearInfo key db view).1 none := by
  rw [clearInfo]
  cases hdb : db.replicas key with
  | none => exact Handles.of_replicas_eq rfl
  | some => exact Handles.putReplica hdb (fun _ => rfl) rfl

lemma createLocation_handles (id : ℕ) (name : Bytes) (db view : Tables) :
    Handles db view (createLocation id name db view).1 none := by
  rw [createLocation]
  split
  · exact Handles.of_replicas_eq rfl
  refine ⟨fun k info hk => ?_, fun k _ hl => ?_, nofun, nofun⟩
  · simp only [Tables.initializeLocation] at hk
    split at hk
    · next hnew => exact Or.inl hnew.2.1
    · exact Or.inr (Or.inr ⟨info, hk⟩)
  · obtain ⟨info, hk, hlead⟩ := hl
    simp only [Tables.initializeLocation] at hk
    split at hk
    · obtain rfl := some.inj hk
      exact absurd hlead Bool.false_ne_true
    · exact Or.inl ⟨info, hk, hlead⟩

/-! The handlers of block services leave the replicas alone. -/

lemma dropWritable_replicas (view : Tables) (id : ℕ) (info : BlockServiceInfo) :
    (dropWritable view id info).replicas = view.replicas := by
  rw [dropWritable]
  split <;> rfl

lemma register_replicas (opts : RegistryOptions) (requestTime : ℕ) (new : RegisterBlockServiceInfo)
    (view : Tables) (wasWritable : Bool) (info : BlockServiceInfo) :
    (registerBlockService.register opts requestTime new view wasWritable info).replicas =
      view.replicas := by
  simp only [registerBlockService.register, Tables.putBlockService]
  split <;> rfl

lemma registerBlockService_replicas (opts : RegistryOptions) (requestTime : ℕ) (view : Tables)
    (new : RegisterBlockServiceInfo) :
    (registerBlockService opts requestTime view new).replicas = view.replicas := by
  rw [registerBlockService]
  split
  · exact register_replicas ..
  split
  · rfl
  · rw [register_replicas]
    exact dropWritable_replicas ..

lemma registerBlockServices_replicas (opts : RegistryOptions) (requestTime : ℕ)
    (blockServices : List RegisterBlockServiceInfo) (view : Tables) :
    (registerBlockServices opts requestTime blockServices view).1.replicas = view.replicas := by
  rw [registerBlockServices]
  split
  · rfl
  clear * -
  induction blockServices generalizing view with
  | nil => rfl
  | cons new rest ih =>
    rw [foldl_cons, ih]
    exact registerBlockService_replicas ..

lemma setBlockServiceFlags_replicas (requestTime id : ℕ) (flags flagsMask : UInt8) (view : Tables) :
    (setBlockServiceFlags requestTime id flags flagsMask view).1.replicas = view.replicas := by
  rw [setBlockServiceFlags]
  split
  · rfl
  · split
    · rfl
    · split <;> rfl

lemma decommissionBlockService_replicas (requestTime id : ℕ) (view : Tables) :
    (decommissionBlockService requestTime id view).1.replicas = view.replicas := by
  rw [decommissionBlockService]
  split
  · rfl
  · split
    · rfl
    · exact dropWritable_replicas ..

lemma updateBlockService_replicas (id : ℕ) (f : BlockServiceInfo → BlockServiceInfo)
    (view : Tables) : (updateBlockService id f view).1.replicas = view.replicas := by
  rw [updateBlockService]
  split <;> rfl

lemma renameLocation_replicas (id : ℕ) (name : Bytes) (db view : Tables) :
    (renameLocation id name db view).1.replicas = view.replicas := by
  rw [renameLocation]
  split <;> rfl

/-- The replica that the request has made a leader. -/
def madeLeader (req : Request) (err : Option RegistryError) : Option ReplicaKey :=
  if err = none then req.leader? else none

lemma Handles.quiet {db view view' : Tables} {req : Request} {err : Option RegistryError}
    (hreq : req.leader? = none) (h : Handles db view view' none) :
    Handles db view view' (madeLeader req err) := by
  rw [madeLeader, hreq, ite_self]
  exact h

lemma handle_handles (opts : RegistryOptions) (pad : Padding) (requestTime : ℕ) (db view : Tables)
    (req : Request) :
    Handles db view (handle opts pad requestTime db view req).1
      (madeLeader req (handle opts pad requestTime db view req).2) := by
  cases req with
  | createLocation id name => exact .quiet rfl (createLocation_handles id name db view)
  | renameLocation id name =>
    exact .quiet rfl (.of_replicas_eq (renameLocation_replicas id name db view))
  | registerShard location shard replica isLeader addrs =>
    have h := registerReplica_handles opts true pad requestTime ⟨.shard, location, shard, replica⟩
      isLeader addrs db view nofun
    cases isLeader <;> exact h
  | registerCdc location replica isLeader addrs =>
    have h := registerReplica_handles opts true pad requestTime ⟨.cdc, location, 0, replica⟩
      isLeader addrs db view nofun
    cases isLeader <;> exact h
  | setBlockServiceFlags =>
    exact .quiet rfl (.of_replicas_eq (setBlockServiceFlags_replicas ..))
  | registerBlockServices =>
    exact .quiet rfl (.of_replicas_eq (registerBlockServices_replicas ..))
  | registerRegistry location replica isLeader addrs =>
    exact registerReplica_handles opts false pad requestTime ⟨.registry, location, 0, replica⟩
      isLeader addrs db view fun _ => rfl
  | decommissionBlockService =>
    exact .quiet rfl (.of_replicas_eq (decommissionBlockService_replicas ..))
  | moveShardLeader location shard replica =>
    exact moveLeader_handles ⟨.shard, location, shard, replica⟩ db view
  | clearShardInfo => exact .quiet rfl (clearInfo_handles ..)
  | moveCdcLeader location replica => exact moveLeader_handles ⟨.cdc, location, 0, replica⟩ db view
  | clearCdcInfo => exact .quiet rfl (clearInfo_handles ..)
  | updateBlockServicePath | setBlockServiceHasFiles =>
    exact .quiet rfl (.of_replicas_eq (updateBlockService_replicas ..))

/-! ## Chunks -/

/-- What holds inside a chunk: the leaders of the view are unique, and one that is not a leader in
the database is one that the chunk names. -/
structure ChunkInv (named : List ReplicaKey) (db view : Tables) : Prop where
  sound : LeadersUnique view
  from_db : ∀ k, k.service ≠ .registry → Leader view k → Leader db k ∨ k ∈ named

/-- The replica is the only leader of its shard, or of the CDC at its location. -/
def OnlyLeader (t : Tables) (k : ReplicaKey) : Prop :=
  Leader t k ∧ ∀ k', SameGroup k k' → Leader t k' → k' = k

lemma Request.leader_service {req : Request} {k : ReplicaKey} (h : req.leader? = some k) :
    k.service ≠ .registry := by
  unfold Request.leader? at h
  split at h <;> simp at h <;> simp [← h]

section

variable {named : List ReplicaKey} {db view : Tables}
  (hone : ∀ k ∈ named, ∀ k' ∈ named, SameGroup k k' → k = k') (hdb : LeadersUnique db)
  (hinv : ChunkInv named db view) (opts : RegistryOptions)
include hone hdb hinv

lemma ChunkInv.handle (pad : Padding) (requestTime : ℕ) (req : Request)
    (hreq : ∀ k, req.leader? = some k → k ∈ named) :
    ChunkInv named db (handle opts pad requestTime db view req).1 ∧
      ∀ k, madeLeader req (handle opts pad requestTime db view req).2 = some k →
        OnlyLeader (handle opts pad requestTime db view req).1 k := by
  have hspec := handle_handles opts pad requestTime db view req
  revert hspec
  generalize (Registry.handle opts pad requestTime db view req).1 = view'
  generalize hmade : madeLeader req (Registry.handle opts pad requestTime db view req).2 = made
  intro hspec
  have hlead : ∀ k, made = some k → req.leader? = some k := by
    rintro k rfl
    rw [madeLeader] at hmade
    split at hmade
    · exact hmade
    · exact absurd hmade nofun
  have hlt : ∀ k info, view'.replicas k = some info → k.replica < replicaCount := by
    intro k info hk
    rcases hspec.stored k info hk with h | ⟨old, h⟩ | ⟨old, h⟩
    · exact h
    · exact hdb.replica_lt k old h
    · exact hinv.sound.replica_lt k old h
  have honly : ∀ k, made = some k → OnlyLeader view' k := by
    intro k hk
    refine ⟨hspec.made_leader k hk, fun k' hgroup hl => ?_⟩
    by_contra hne
    have hnamed := hreq k (hlead k hk)
    have hservice : k'.service ≠ .registry := hgroup.service ▸ Request.leader_service (hlead k hk)
    -- It was a leader before, and not one that the chunk names.
    rcases hspec.leaders k' hservice hl with hold | hmk
    · rcases hinv.from_db k' hservice hold with hdbl | hn
      · obtain ⟨info, hinfo, -⟩ := id hl
        have hkdb := hspec.others k hk k' hgroup hne (hlt k' info hinfo) hl hdbl
        exact hne (hdb.unique k' k hservice hgroup.symm hdbl hkdb)
      · exact hne (hone k' hn k hnamed hgroup.symm)
    · exact hne (mem_unique hmk hk)
  refine ⟨⟨⟨hlt, fun k k' hservice hgroup hk hk' => ?_⟩, fun k hservice hk => ?_⟩, honly⟩
  · rcases hspec.leaders k hservice hk with hold | hmk
    · rcases hspec.leaders k' (hgroup.service ▸ hservice) hk' with hold' | hmk'
      · exact hinv.sound.unique k k' hservice hgroup hold hold'
      · exact (honly k' hmk').2 k hgroup.symm hk
    · exact ((honly k hmk).2 k' hgroup hk').symm
  · rcases hspec.leaders k hservice hk with hold | hmk
    · exact hinv.from_db k hservice hold
    · exact Or.inr (hreq k (hlead k hmk))

lemma ChunkInv.handleAll {items : List Item}
    (hitems : ∀ it ∈ items, ∀ k, it.request.leader? = some k → k ∈ named) :
    ChunkInv named db (Registry.handleAll opts db view items).1 := by
  induction items generalizing view with
  | nil => exact hinv
  | cons it items ih =>
    obtain ⟨hit, hrest⟩ := forall_mem_cons.1 hitems
    exact ih (hinv.handle hone hdb opts it.pad it.requestTime it.request hit).1 hrest

end

lemma mem_namedLeaders {stack : Stack} {chunk : List LogEntry} {it : Item} {k : ReplicaKey}
    (hit : it ∈ chunk.flatMap (·.items stack)) (hk : it.request.leader? = some k) :
    k ∈ namedLeaders chunk := by
  obtain ⟨e, he, hit⟩ := mem_flatMap.1 hit
  obtain ⟨⟨req, i⟩, hreq, rfl⟩ := mem_map.1 hit
  refine mem_flatMap.2 ⟨e, he, mem_filterMap.2 ⟨req, ?_, hk⟩⟩
  exact fst_mem_of_mem_zipIdx hreq

variable {opts : RegistryOptions}

lemma updateStaleBlockServices_replicas {now : ℕ} {t t' : Tables}
    (h : updateStaleBlockServices opts now t = some t') : t'.replicas = t.replicas := by
  rw [updateStaleBlockServices] at h
  split at h
  · obtain rfl := some.inj h
    rfl
  · exact absurd h nofun

lemma LeadersUnique.of_replicas_eq {t t' : Tables} (h : LeadersUnique t)
    (heq : t'.replicas = t.replicas) : LeadersUnique t' := by
  refine ⟨fun k info hk => h.replica_lt k info (heq ▸ hk), fun k k' hs hg hk hk' => ?_⟩
  have hsame : ∀ k, Leader t' k → Leader t k := fun k ⟨i, hi, hl⟩ => ⟨i, heq ▸ hi, hl⟩
  exact h.unique k k' hs hg (hsame k hk) (hsame k' hk')

/-- One call of `processLogEntries`. -/
def applyChunk (opts : RegistryOptions) (stack : Stack) (db : RegistryDB) (chunk : List LogEntry) :
    Option RegistryDB :=
  (processLogEntries opts stack db chunk).map (·.1)

lemma applyChunk_eq_some {stack : Stack} {db db' : RegistryDB}
    {chunk : List LogEntry} (h : applyChunk opts stack db chunk = some db') :
    updateStaleBlockServices opts ((chunk.map (·.entryTime)).foldl max 0)
      (handleAll opts db.tables db.tables (chunk.flatMap (·.items stack))).1 = some db'.tables := by
  rw [applyChunk, processLogEntries] at h
  split at h
  · obtain ⟨⟨r, results⟩, hr, rfl⟩ := map_eq_some_iff.1 h
    obtain ⟨t, ht, hr⟩ := map_eq_some_iff.1 hr
    obtain ⟨rfl, -⟩ := Prod.mk.inj hr
    exact ht
  · exact absurd h nofun

/-- In every run whose chunks name one leader each, at most one replica of a shard and of the CDC
is the leader at a location, and a request that makes a leader leaves it as the only one. -/
theorem leadersUnique_of_run (opts : RegistryOptions) (stack : Stack) {db db' : RegistryDB}
    {chunks : List (List LogEntry)} (h0 : LeadersUnique db.tables)
    (hok : ∀ chunk ∈ chunks, OneLeaderEach chunk)
    (hrun : run (applyChunk opts stack) db chunks = some db') :
    LeadersUnique db'.tables ∧ ∀ chunk before it after, OneLeaderEach chunk →
        chunk.flatMap (·.items stack) = before ++ it :: after →
        ∀ view view', view = (handleAll opts db'.tables db'.tables before).1 →
          handle opts it.pad it.requestTime db'.tables view it.request = (view', none) →
          LeadersUnique view' ∧ ∀ k, it.request.leader? = some k → OnlyLeader view' k := by
  have hstart : ∀ {t : Tables} (named : List ReplicaKey), LeadersUnique t → ChunkInv named t t :=
    fun _ h => ⟨h, fun _ _ hk => Or.inl hk⟩
  have hchunk : ∀ s chunk s', LeadersUnique s.tables → OneLeaderEach chunk →
      applyChunk opts stack s chunk = some s' → LeadersUnique s'.tables := by
    intro s chunk s' hs hone happly
    have hnamed : ∀ it ∈ chunk.flatMap (·.items stack), ∀ k, it.request.leader? = some k →
        k ∈ namedLeaders chunk := fun it hit k hk => mem_namedLeaders hit hk
    have hinv := (hstart (namedLeaders chunk) hs).handleAll hone hs opts hnamed
    exact hinv.sound.of_replicas_eq (updateStaleBlockServices_replicas (applyChunk_eq_some happly))
  have hend : LeadersUnique db'.tables :=
    run_invariant hchunk h0 (RunMeets.of_forall hok db) hrun
  refine ⟨hend, ?_⟩
  rintro chunk before it after hone hitems view view' rfl hhandle
  have hmem : ∀ x ∈ before ++ it :: after, ∀ k, x.request.leader? = some k →
      k ∈ namedLeaders chunk := fun x hx k hk => mem_namedLeaders (hitems ▸ hx) hk
  have hbefore : ChunkInv (namedLeaders chunk) db'.tables
      (handleAll opts db'.tables db'.tables before).1 :=
    (hstart (namedLeaders chunk) hend).handleAll hone hend opts
      fun x hx => hmem x (mem_append_left _ hx)
  have hstep := hbefore.handle hone hend opts it.pad it.requestTime it.request
    (hmem it (mem_append_right _ mem_cons_self))
  rw [hhandle] at hstep
  exact ⟨hstep.1.sound, fun k hk => hstep.2 k (by rw [madeLeader, if_pos rfl, hk])⟩

lemma leadersUnique_init : LeadersUnique Tables.init := by
  have hinit : ∀ k info, Tables.init.replicas k = some info →
      k.replica < replicaCount ∧ info = ReplicaInfo.empty := by
    intro k info hk
    simp only [Tables.init, Tables.initializeLocation] at hk
    split at hk
    · next h => exact ⟨h.2.1, (some.inj hk).symm⟩
    · split at hk
      · next h => exact ⟨h.2.2.2, (some.inj hk).symm⟩
      · exact absurd hk nofun
  refine ⟨fun k info hk => (hinit k info hk).1, ?_⟩
  rintro k k' - - ⟨info, hk, hlead⟩
  rw [(hinit k info hk).2] at hlead
  exact absurd hlead Bool.false_ne_true

def sampleOptions : RegistryOptions := ⟨false, false, false, 180000000000, 0, 28⟩

def sampleStack : Stack := fun _ _ => ⟨[0, 0, 0, 0, 0], [0, 0, 0, 0, 0]⟩

def sampleShard (replica : ℕ) : ReplicaKey := ⟨.shard, 0, 0, replica⟩

/-- The first two replicas of shard 0 register as leaders. -/
def sampleRegistrations : List LogEntry :=
  [⟨1, 1000, [.registerShard 0 0 0 true AddrsInfo.empty]⟩,
    ⟨2, 1001, [.registerShard 0 0 1 true AddrsInfo.empty]⟩]

theorem leadersUnique_of_run_sample :
    ∃ db', run (applyChunk sampleOptions sampleStack) ⟨Tables.init, 0⟩
        (sampleRegistrations.map ([·])) = some db' ∧ LeadersUnique db'.tables := by
  refine exists_eq_some_imp (fun db' hrun (_ : True) =>
    (leadersUnique_of_run _ _ leadersUnique_init ?_ hrun).1) (by decide +kernel)
  intro chunk hchunk
  obtain ⟨e, he, rfl⟩ := mem_map.1 hchunk
  rcases mem_pair.1 he with rfl | rfl <;> intro k hk k' hk' _ <;>
    exact (mem_singleton.1 hk).trans (mem_singleton.1 hk').symm

/-- In one chunk, both replicas end as leaders. -/
theorem two_leaders_of_chunk :
    ∃ db', applyChunk sampleOptions sampleStack ⟨Tables.init, 0⟩ sampleRegistrations = some db' ∧
      Leader db'.tables (sampleShard 0) ∧ Leader db'.tables (sampleShard 1) ∧
      SameGroup (sampleShard 0) (sampleShard 1) := by
  exact exists_eq_some_imp (fun db' _
    (h : db'.tables.replicas (sampleShard 0) = some ⟨true, 1000, AddrsInfo.empty⟩ ∧
      db'.tables.replicas (sampleShard 1) = some ⟨true, 1001, AddrsInfo.empty⟩) =>
        ⟨⟨_, h.1, rfl⟩, ⟨_, h.2, rfl⟩, rfl, rfl, rfl⟩) (by decide +kernel)

end TernFS.Registry
