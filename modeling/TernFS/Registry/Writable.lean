/-
# The index of writable block services

The keys of `_writableBlockServicesCf` hold the location, the storage class, the failure domain and
the free space of a service, so that a handler that changes one of these, or the flags, has to
delete the key under the old values.  All do, but for `SET_BLOCK_SERVICE_FLAGS`, which leaves the
index as it is.  The shards get their services from this index.
-/
import TernFS.Registry.Leaders

namespace TernFS.Registry

open Lib List Option

variable {t t' view : Tables} {opts : RegistryOptions} {info : BlockServiceInfo} {id : ℕ}

/-- Every key of the index is the key of a stored service that can be written to. -/
def IndexOk (t : Tables) : Prop :=
  ∀ w ∈ t.writableBlockServices, ∃ info, t.blockServices w.id = some info ∧
    info.isWritable = true ∧ w = info.writableKey w.id

/-- The index is right and has no key of the service. -/
def IndexWithout (id : ℕ) (t : Tables) : Prop :=
  ∀ w ∈ t.writableBlockServices, w.id ≠ id ∧ ∃ info, t.blockServices w.id = some info ∧
    info.isWritable = true ∧ w = info.writableKey w.id

/-! ## The handlers -/

lemma IndexOk.without (h : IndexOk t) (hnone : t.blockServices id = none) : IndexWithout id t := by
  intro w hw
  obtain ⟨info, hinfo, hrest⟩ := h w hw
  refine ⟨?_, info, hinfo, hrest⟩
  rintro rfl
  exact absurd (hnone.symm.trans hinfo) nofun

lemma IndexOk.dropWritable (h : IndexOk t) (hinfo : t.blockServices id = some info) :
    IndexWithout id (dropWritable t id info) := by
  rw [Registry.dropWritable]
  split
  · next hwritable =>
    intro w hw
    obtain ⟨hne, hmem⟩ := Finset.mem_erase.1 hw
    obtain ⟨info', hinfo', hok, hkey⟩ := h w hmem
    refine ⟨?_, info', hinfo', hok, hkey⟩
    rintro rfl
    obtain rfl := mem_unique hinfo hinfo'
    exact hne hkey
  · next hnot =>
    intro w hw
    obtain ⟨info', hinfo', hok, hkey⟩ := h w hw
    refine ⟨?_, info', hinfo', hok, hkey⟩
    rintro rfl
    obtain rfl := mem_unique hinfo hinfo'
    exact hnot hok

lemma IndexWithout.put (h : IndexWithout id t) (info : BlockServiceInfo) :
    IndexOk (t.putBlockService id info) := by
  intro w hw
  obtain ⟨hne, info', hinfo', hrest⟩ := h w hw
  exact ⟨info', by simpa [Tables.putBlockService, hne] using hinfo', hrest⟩

lemma IndexWithout.put_insert (h : IndexWithout id t) (hinfo : info.isWritable = true) :
    IndexOk (Tables.putBlockService { t with
      writableBlockServices := insert (info.writableKey id) t.writableBlockServices } id info) := by
  intro w hw
  rcases Finset.mem_insert.1 hw with rfl | hmem
  · exact ⟨info, by simp [Tables.putBlockService, BlockServiceInfo.writableKey], hinfo, rfl⟩
  · exact h.put info w hmem

lemma IndexOk.put (h : IndexOk t) {info' : BlockServiceInfo}
    (hinfo : t.blockServices id = some info) (hkey : info'.writableKey id = info.writableKey id)
    (hok : info.writableKey id ∈ t.writableBlockServices → info.isWritable = true →
      info'.isWritable = true) : IndexOk (t.putBlockService id info') := by
  intro w hw
  obtain ⟨old, hold, hwritable, hwkey⟩ := h w hw
  by_cases hid : w.id = id
  · subst hid
    obtain rfl := mem_unique hinfo hold
    refine ⟨info', by simp [Tables.putBlockService], hok (hwkey ▸ hw) hwritable, ?_⟩
    rw [hkey]
    exact hwkey
  · exact ⟨old, by simpa [Tables.putBlockService, hid] using hold, hwritable, hwkey⟩

lemma IndexWithout.register {new : RegisterBlockServiceInfo} (h : IndexWithout new.id t)
    (opts : RegistryOptions) (requestTime : ℕ) (wasWritable : Bool) (info : BlockServiceInfo) :
    IndexOk (registerBlockService.register opts requestTime new t wasWritable info) := by
  rw [registerBlockService.register]
  dsimp only
  split
  · next hnow => exact h.put_insert (Bool.and_elim_left hnow)
  · exact h.put _

lemma IndexOk.registerBlockService (h : IndexOk t) (opts : RegistryOptions) (requestTime : ℕ)
    (new : RegisterBlockServiceInfo) : IndexOk (registerBlockService opts requestTime t new) := by
  rw [Registry.registerBlockService]
  split
  · next hnone => exact (h.without hnone).register opts requestTime _ _
  next info hinfo =>
  split
  · exact h
  · have hdrop := h.dropWritable hinfo
    refine IndexWithout.register ?_ opts requestTime _ _
    exact hdrop

/-- The condition on a request: a service that is in the index keeps flags that permit writing. -/
def FlagsOk (view : Tables) : Request → Prop
  | .setBlockServiceFlags id flags flagsMask =>
    ∀ info ∈ view.blockServices id, info.writableKey id ∈ view.writableBlockServices →
      blockServiceFlagsWritable (newFlags info.flags flags flagsMask) = true
  | _ => True

/-- The times of the heartbeats that a block service has in the table. -/
def Tables.heartBeats (t : Tables) (id : ℕ) : Set ℕ :=
  {seen | ⟨seen, .blockService id⟩ ∈ t.lastHeartBeat}

/-- The block services, their keys in the index and their heartbeats are the same. -/
structure SameServices (t t' : Tables) : Prop where
  services : t'.blockServices = t.blockServices
  writable : t'.writableBlockServices = t.writableBlockServices
  heartBeats : t'.heartBeats = t.heartBeats

/-- The requests that change block services. -/
def Request.onServices : Request → Bool
  | .setBlockServiceFlags .. | .registerBlockServices .. | .decommissionBlockService ..
  | .updateBlockServicePath .. | .setBlockServiceHasFiles .. => true
  | _ => false

lemma handle_same (opts : RegistryOptions) (pad : Padding) (requestTime : ℕ) (db view : Tables)
    {req : Request} (hreq : req.onServices = false) :
    SameServices view (handle opts pad requestTime db view req).1 := by
  cases req with
  | setBlockServiceFlags | registerBlockServices | decommissionBlockService
  | updateBlockServicePath | setBlockServiceHasFiles => cases hreq
  | registerShard | registerCdc | registerRegistry =>
    rw [handle, registerReplica]
    -- The keys that a registration changes are those of replicas.
    repeat' split
    all_goals
      refine ⟨rfl, rfl, ?_⟩
      ext id seen
      simp [Tables.heartBeats, Tables.putReplica, clearOthers]
  | _ =>
    simp only [handle, createLocation, renameLocation, moveLeader, clearInfo]
    split <;> exact ⟨rfl, rfl, rfl⟩

lemma IndexOk.of_same (h : IndexOk t) (hsame : SameServices t t') : IndexOk t' := by
  intro w hmem
  rw [hsame.services]
  exact h w (hsame.writable ▸ hmem)

lemma IndexOk.handle (h : IndexOk view) (opts : RegistryOptions) (pad : Padding)
    (requestTime : ℕ) (db : Tables) {req : Request} (hreq : FlagsOk view req) :
    IndexOk (handle opts pad requestTime db view req).1 := by
  have hupdate : ∀ id (f : BlockServiceInfo → BlockServiceInfo),
      (∀ info, (f info).writableKey id = info.writableKey id) →
      (∀ info, (f info).isWritable = info.isWritable) →
      IndexOk (updateBlockService id f view).1 := by
    intro id f hkey hwritable
    rw [updateBlockService]
    split
    · exact h
    · next info hinfo => exact h.put hinfo (hkey info) fun _ hw => (hwritable info).trans hw
  cases req with
  | setBlockServiceFlags id flags flagsMask =>
    show IndexOk (setBlockServiceFlags requestTime id flags flagsMask view).1
    rw [setBlockServiceFlags]
    split
    · exact h
    next info hinfo =>
    split
    · exact h
    -- The heartbeat does not matter here.
    have hput : IndexOk (view.putBlockService id { info with
        flags := newFlags info.flags flags flagsMask, lastInfoChange := requestTime }) := by
      refine h.put hinfo rfl fun hmem hw => ?_
      exact Bool.and_intro (hreq info hinfo hmem) (Bool.and_elim_right hw)
    dsimp only
    split <;> exact hput
  | registerBlockServices blockServices =>
    show IndexOk (registerBlockServices opts requestTime blockServices view).1
    rw [registerBlockServices]
    split
    · exact h
    clear * - h
    show IndexOk (blockServices.foldl (Registry.registerBlockService opts requestTime) view)
    induction blockServices generalizing view with
    | nil => exact h
    | cons new rest ih => exact ih (h.registerBlockService opts requestTime new)
  | decommissionBlockService id =>
    show IndexOk (decommissionBlockService requestTime id view).1
    rw [decommissionBlockService]
    split
    · exact h
    next info hinfo =>
    split
    · exact h
    · exact IndexWithout.put (h.dropWritable hinfo) _
  | updateBlockServicePath id | setBlockServiceHasFiles id =>
    exact hupdate id _ (fun _ => rfl) fun _ => rfl
  | _ => exact h.of_same (handle_same opts pad requestTime db view rfl)

/-! ## Chunks -/

/-- The requests of a chunk meet the condition, each in the view in which it is handled. -/
def AllFlagsOk (opts : RegistryOptions) (db : Tables) : Tables → List Item → Prop
  | _, [] => True
  | view, it :: items =>
    FlagsOk view it.request ∧
      AllFlagsOk opts db (handle opts it.pad it.requestTime db view it.request).1 items

lemma IndexOk.handleAll (h : IndexOk view) {db : Tables} {items : List Item}
    (hitems : AllFlagsOk opts db view items) : IndexOk (handleAll opts db view items).1 := by
  induction items generalizing view with
  | nil => exact h
  | cons it items ih => exact ih (h.handle opts it.pad it.requestTime db hitems.1) hitems.2

lemma IndexOk.updateStaleBlockServices (h : IndexOk t) {now : ℕ}
    (hupdate : updateStaleBlockServices opts now t = some t') : IndexOk t' := by
  rw [Registry.updateStaleBlockServices] at hupdate
  split at hupdate
  · obtain rfl := some.inj hupdate
    intro w hw
    obtain ⟨hmem, hkept⟩ := Finset.mem_filter.1 hw
    obtain ⟨info, hinfo, hok, hkey⟩ := h w hmem
    have hdue : w.id ∉ t.due opts now := fun hdue => hkept ⟨hdue, info, hinfo, hok, hkey⟩
    exact ⟨info, by simpa [hdue] using hinfo, hok, hkey⟩
  · cases hupdate

/-- The condition on a call of `processLogEntries`. -/
def ChunkFlagsOk (opts : RegistryOptions) (stack : Stack) (db : RegistryDB)
    (chunk : List LogEntry) : Prop :=
  AllFlagsOk opts db.tables db.tables (chunk.flatMap (·.items stack))

lemma IndexOk.of_run {stack : Stack} {db db' : RegistryDB} {chunks : List (List LogEntry)}
    (h0 : IndexOk db.tables)
    (hok : RunMeets (applyChunk opts stack) (ChunkFlagsOk opts stack) db chunks)
    (hrun : run (applyChunk opts stack) db chunks = some db') : IndexOk db'.tables := by
  have hstep : ∀ s chunk s', IndexOk s.tables → ChunkFlagsOk opts stack s chunk →
      applyChunk opts stack s chunk = some s' → IndexOk s'.tables :=
    fun s chunk s' hs hflags happly =>
      (hs.handleAll hflags).updateStaleBlockServices (applyChunk_eq_some happly)
  exact run_invariant hstep h0 hok hrun

/-! ## The services of the shards -/

/-- `BlockServiceInfoShort`. -/
structure BlockServiceInfoShort where
  id : ℕ
  locationId : ℕ
  failureDomain : Bytes
  storageClass : ℕ

/-- `FdStatus`, with its part of the vector of services: indices and free space. -/
structure FdStatus where
  id : ℕ
  services : List (ℕ × ℕ)
  nextToAssign : ℕ
  assignLoopCount : ℕ

/-- The free space of the service that comes next. -/
def FdStatus.nextAvailable (fd : FdStatus) : ℕ :=
  ((fd.services[fd.nextToAssign]?).map (·.2)).getD 0

/-- `FdStatus::operator<`. -/
def FdStatus.before (a b : FdStatus) : Bool :=
  if a.assignLoopCount = b.assignLoopCount then
    if a.nextAvailable = b.nextAvailable then decide (a.id < b.id)
    else decide (b.nextAvailable < a.nextAvailable)
  else decide (a.assignLoopCount < b.assignLoopCount)

/-- The state of `FdStatus` after `getNextBlockServiceIdx`. -/
def FdStatus.advance (fd : FdStatus) : FdStatus :=
  if fd.nextToAssign + 1 = fd.services.length then
    { fd with nextToAssign := 0, assignLoopCount := fd.assignLoopCount + 1 }
  else { fd with nextToAssign := fd.nextToAssign + 1 }

/-- The first element of a priority queue. -/
def first {α : Type*} (before : α → α → Bool) : List α → Option α
  | [] => none
  | a :: rest =>
    match first before rest with
    | none => some a
    | some b => if before b a then some b else some a

/-- What `calculateBlockServicesForLocation` keeps: the two queues, the pairs of failure domain and
shard that are taken, and the lists of the shards. A queued shard is its number of services and its
id. -/
structure Assignment where
  fds : List FdStatus
  shardCounts : List (ℕ × ℕ)
  used : List (ℕ × ℕ)
  shardBlockServices : ℕ → List BlockServiceInfoShort

/-- `std::priority_queue` gives the greatest count first, and then the greatest id. -/
def countBefore (a b : ℕ × ℕ) : Bool := b.1 < a.1 || (b.1 == a.1 && b.2 < a.2)

/-- The inner loop: the first failure domain that the shard does not have gives its next service.
The result is `none` if there is none. -/
def Assignment.assign (blockServices : List BlockServiceInfoShort) (shard : ℕ) (s : Assignment) :
    Option Assignment :=
  (first FdStatus.before (s.fds.filter fun fd => !s.used.contains (fd.id, shard))).map fun fd =>
    let service := (fd.services[fd.nextToAssign]?).bind fun p => blockServices[p.1]?
    { s with
      fds := s.fds.map fun f => if f.id = fd.id then f.advance else f
      used := (fd.id, shard) :: s.used
      shardBlockServices := Function.update s.shardBlockServices shard
        (s.shardBlockServices shard ++ service.toList) }

/-- The first phase, until the first shard of the queue has the target. -/
def Assignment.phase1 (blockServices : List BlockServiceInfoShort) (target : ℕ) :
    ℕ → Assignment → Assignment
  | 0, s => s
  | fuel + 1, s =>
    match first countBefore s.shardCounts with
    | none => s
    | some (count, shard) =>
      if s.fds = [] ∨ target ≤ count then s
      else
        match s.assign blockServices shard with
        | none => s
        | some s' =>
          phase1 blockServices target fuel
            { s' with shardCounts := (count + 1, shard) :: s.shardCounts.erase (count, shard) }

/-- The second phase, which takes a shard out of the queue when it is done. -/
def Assignment.phase2 (blockServices : List BlockServiceInfoShort) (limit : ℕ) :
    ℕ → Assignment → Assignment
  | 0, s => s
  | fuel + 1, s =>
    match first countBefore s.shardCounts with
    | none => s
    | some (count, shard) =>
      let rest := s.shardCounts.erase (count, shard)
      if s.fds = [] then s
      else if limit ≤ count then
        phase2 blockServices limit fuel { s with shardCounts := rest }
      else
        match s.assign blockServices shard with
        | none => phase2 blockServices limit fuel { s with shardCounts := rest }
        | some s' =>
          phase2 blockServices limit fuel { s' with shardCounts := (count + 1, shard) :: rest }

/-- `calculateBlockServicesForLocation`. A shard gets at most one service of a failure domain and
leaves the queue once, which bounds the loops. -/
def calculateBlockServicesForLocation (opts : RegistryOptions)
    (blockServices : List BlockServiceInfoShort) (fds : List FdStatus)
    (lists : ℕ → List BlockServiceInfoShort) : ℕ → List BlockServiceInfoShort :=
  let fuel := 256 * (fds.length + 1) + 1
  let start : Assignment := ⟨fds, (range 256).map fun shard => (0, shard), [], lists⟩
  let middle := start.phase1 blockServices (min 18 fds.length) fuel
  (middle.phase2 blockServices opts.maxFailureDomainsPerShard fuel).shardBlockServices

/-- Keys are compared bytewise. Ids are compared as numbers here. -/
instance : LinearOrder WritableBlockServiceKey :=
  LinearOrder.lift' (fun w => toLex (w.locationId, toLex (w.storageClass, toLex (w.failureDomain,
      toLex (w.availableBytes, w.id)))))
    fun a b h => by
      cases a
      cases b
      simp_all

/-- What the loop of `_recalculateShardBlockServices` keeps. -/
structure Recalculation where
  lastFd : Bytes
  lastLocation : ℕ
  lastStorageClass : ℕ
  blockServiceInfos : List BlockServiceInfoShort
  fdStatuses : List FdStatus
  shardBlockServices : ℕ → List BlockServiceInfoShort

/-- The services of a location and storage class are complete. -/
def Recalculation.close (opts : RegistryOptions) (s : Recalculation) : Recalculation :=
  if s.lastStorageClass ≠ 0 ∧ s.fdStatuses ≠ [] then
    { s with
      shardBlockServices := calculateBlockServicesForLocation opts s.blockServiceInfos
        s.fdStatuses s.shardBlockServices }
  else s

/-- The beginning of another location or storage class. -/
def Recalculation.enter (opts : RegistryOptions) (w : WritableBlockServiceKey)
    (s : Recalculation) : Recalculation :=
  if s.lastLocation ≠ w.locationId ∨ s.lastStorageClass ≠ w.storageClass then
    ⟨replicate 16 0, w.locationId, w.storageClass, [], [], (s.close opts).shardBlockServices⟩
  else s

/-- The beginning of another failure domain. -/
def Recalculation.enterFd (w : WritableBlockServiceKey) (s : Recalculation) : Recalculation :=
  if s.lastFd ≠ w.failureDomain then
    { s with
      lastFd := w.failureDomain
      fdStatuses := s.fdStatuses ++ [⟨s.fdStatuses.length, [], 0, 0⟩] }
  else s

/-- One key of the index. A service that is not stored fails, and so does a service that comes
before the first failure domain. -/
def Recalculation.add (opts : RegistryOptions) (t : Tables) (s : Recalculation)
    (w : WritableBlockServiceKey) : Option Recalculation :=
  let s := (s.enter opts w).enterFd w
  match t.blockServices w.id, s.fdStatuses.getLast? with
  | some info, some fd =>
    let services := fd.services ++ [(s.blockServiceInfos.length, info.availableBytes)]
    some { s with
      blockServiceInfos := s.blockServiceInfos ++
        [⟨w.id, info.locationId, info.failureDomain, info.storageClass⟩]
      fdStatuses := s.fdStatuses.dropLast ++ [{ fd with services := services }] }
  | _, _ => none

/-- `_recalculateShardBlockServices`, which goes through the index from its end. -/
def recalculateShardBlockServices (opts : RegistryOptions) (t : Tables) :
    Option (ℕ → List BlockServiceInfoShort) :=
  ((t.writableBlockServices.sort (· ≤ ·)).reverse.foldlM (Recalculation.add opts t)
    ⟨replicate 16 0, 0, 0, [], [], fun _ => []⟩).map fun s =>
      (s.close opts).shardBlockServices

/-! ### Only services of the index are assigned -/

variable {P : BlockServiceInfoShort → Prop} {lists : ℕ → List BlockServiceInfoShort}
  {s : Assignment}

section Members

variable {blockServices : List BlockServiceInfoShort} (hall : ∀ b ∈ blockServices, P b)
include hall

lemma Assignment.assign_forall {shard : ℕ} {s' : Assignment}
    (hs : ∀ i, ∀ b ∈ s.shardBlockServices i, P b) (h : s.assign blockServices shard = some s') :
    ∀ i, ∀ b ∈ s'.shardBlockServices i, P b := by
  obtain ⟨fd, -, rfl⟩ := map_eq_some_iff.1 h
  intro i b hb
  by_cases hi : i = shard
  · subst hi
    simp only [Function.update_self, mem_append, mem_toList] at hb
    rcases hb with hb | hb
    · exact hs i b hb
    · obtain ⟨p, -, hp⟩ := bind_eq_some_iff.1 hb
      exact hall b (mem_of_getElem? hp)
  · simp only [Function.update_of_ne hi] at hb
    exact hs i b hb

lemma Assignment.phase1_forall (target fuel : ℕ)
    (hs : ∀ i, ∀ b ∈ s.shardBlockServices i, P b) :
    ∀ i, ∀ b ∈ (s.phase1 blockServices target fuel).shardBlockServices i, P b := by
  induction fuel generalizing s with
  | zero => exact hs
  | succ fuel ih =>
    rw [phase1]
    split
    · exact hs
    split
    · exact hs
    split
    · exact hs
    · next s' hassign =>
      have hs' := Assignment.assign_forall hall hs hassign
      exact ih hs'

lemma Assignment.phase2_forall (limit fuel : ℕ)
    (hs : ∀ i, ∀ b ∈ s.shardBlockServices i, P b) :
    ∀ i, ∀ b ∈ (s.phase2 blockServices limit fuel).shardBlockServices i, P b := by
  induction fuel generalizing s with
  | zero => exact hs
  | succ fuel ih =>
    rw [phase2]
    split
    · exact hs
    split
    · exact hs
    split
    · exact ih hs
    split
    · exact ih hs
    · next s' hassign =>
      have hs' := Assignment.assign_forall hall hs hassign
      exact ih hs'

lemma calculate_forall (opts : RegistryOptions) (fds : List FdStatus)
    (hlists : ∀ i, ∀ b ∈ lists i, P b) :
    ∀ i, ∀ b ∈ calculateBlockServicesForLocation opts blockServices fds lists i, P b := by
  rw [calculateBlockServicesForLocation]
  generalize 256 * (fds.length + 1) + 1 = fuel
  refine Assignment.phase2_forall hall _ fuel (Assignment.phase1_forall hall _ fuel ?_)
  exact hlists

end Members

/-- Everything that the recalculation holds satisfies a property. -/
structure Recalculation.Forall (P : BlockServiceInfoShort → Prop) (s : Recalculation) : Prop where
  infos : ∀ b ∈ s.blockServiceInfos, P b
  lists : ∀ i, ∀ b ∈ s.shardBlockServices i, P b

lemma Recalculation.Forall.close {s : Recalculation} (h : s.Forall P) (opts : RegistryOptions) :
    (s.close opts).Forall P := by
  rw [Recalculation.close]
  split
  · have hlists := calculate_forall h.infos opts s.fdStatuses h.lists
    refine ⟨h.infos, ?_⟩
    dsimp only
    exact hlists
  · exact h

lemma Recalculation.Forall.enter {s : Recalculation} (h : s.Forall P) (opts : RegistryOptions)
    (w : WritableBlockServiceKey) : ((s.enter opts w).enterFd w).Forall P := by
  have henter : (s.enter opts w).Forall P := by
    rw [Recalculation.enter]
    split
    · exact ⟨fun _ hb => absurd hb not_mem_nil, (h.close opts).lists⟩
    · exact h
  rw [Recalculation.enterFd]
  split
  · exact ⟨henter.infos, henter.lists⟩
  · exact henter

lemma Recalculation.Forall.add {s s' : Recalculation} (h : s.Forall P)
    {w : WritableBlockServiceKey} (hw : ∀ info, t.blockServices w.id = some info →
      P ⟨w.id, info.locationId, info.failureDomain, info.storageClass⟩)
    (hadd : s.add opts t w = some s') : s'.Forall P := by
  have henter := h.enter opts w
  rw [Recalculation.add] at hadd
  split at hadd
  · next info fd hinfo hfd =>
    obtain rfl := some.inj hadd
    refine ⟨fun b hb => ?_, henter.lists⟩
    rcases mem_append.1 hb with hb | hb
    · exact henter.infos b hb
    · rw [mem_singleton.1 hb]
      exact hw info hinfo
  · exact absurd hadd nofun

lemma recalculate_forall
    (hP : ∀ w ∈ t.writableBlockServices, ∀ info, t.blockServices w.id = some info →
      P ⟨w.id, info.locationId, info.failureDomain, info.storageClass⟩)
    (h : recalculateShardBlockServices opts t = some lists) : ∀ shard, ∀ b ∈ lists shard, P b := by
  obtain ⟨s, hs, rfl⟩ := map_eq_some_iff.1 h
  have hkeys : ∀ w ∈ (t.writableBlockServices.sort (· ≤ ·)).reverse,
      w ∈ t.writableBlockServices := by
    intro w hw
    rw [mem_reverse, Finset.mem_sort] at hw
    exact hw
  have hempty : Recalculation.Forall P ⟨replicate 16 0, 0, 0, [], [], fun _ => []⟩ :=
    ⟨fun _ hb => absurd hb not_mem_nil, fun _ _ hb => absurd hb not_mem_nil⟩
  have hforall : s.Forall P :=
    foldlM_invariant (fun _ w hw _ ha hadd => ha.add (hP w (hkeys w hw)) hadd) hempty hs
  exact (hforall.close opts).lists

/-- A service that may be offered: neither stale nor closed for writing nor decommissioned, and
with free space. -/
structure Offerable (info : BlockServiceInfo) : Prop where
  not_stale : info.flags &&& STALE = 0
  not_no_write : info.flags &&& NO_WRITE = 0
  not_decommissioned : info.flags &&& DECOMMISSIONED = 0
  not_full : 0 < info.availableBytes

lemma Offerable.of_isWritable (h : info.isWritable = true) : Offerable info := by
  obtain ⟨hflags, havail⟩ := Bool.and_eq_true_iff.1 h
  have hzero : info.flags &&& (STALE ||| NO_WRITE ||| DECOMMISSIONED) = 0 := beq_iff_eq.1 hflags
  have hbit : ∀ f, (STALE ||| NO_WRITE ||| DECOMMISSIONED) &&& f = f → info.flags &&& f = 0 := by
    intro f hf
    rw [← hf, ← UInt8.and_assoc, hzero, UInt8.zero_and]
  exact ⟨hbit _ rfl, hbit _ rfl, hbit _ rfl, of_decide_eq_true havail⟩

/-- In every run in which `SET_BLOCK_SERVICE_FLAGS` keeps the services of the index writable, every
key of the index is the one key of a stored service that may be offered, and the shards are
assigned such services only. -/
theorem index_of_run {opts : RegistryOptions} {stack : Stack} {db db' : RegistryDB}
    {chunks : List (List LogEntry)} (h0 : IndexOk db.tables)
    (hok : RunMeets (applyChunk opts stack) (ChunkFlagsOk opts stack) db chunks)
    (hrun : run (applyChunk opts stack) db chunks = some db') :
    (∀ w ∈ db'.tables.writableBlockServices, ∃ info,
      db'.tables.blockServices w.id = some info ∧ Offerable info ∧ w = info.writableKey w.id ∧
        ∀ w' ∈ db'.tables.writableBlockServices, w'.id = w.id → w' = w) ∧
    ∀ lists, recalculateShardBlockServices opts db'.tables = some lists →
      ∀ shard, ∀ b ∈ lists shard, ∃ info,
        db'.tables.blockServices b.id = some info ∧ Offerable info := by
  have hindex := IndexOk.of_run h0 hok hrun
  refine ⟨fun w hw => ?_, fun lists hlists => ?_⟩
  · obtain ⟨info, hinfo, hwritable, hkey⟩ := hindex w hw
    refine ⟨info, hinfo, .of_isWritable hwritable, hkey, fun w' hw' hid => ?_⟩
    obtain ⟨info', hinfo', -, hkey'⟩ := hindex w' hw'
    rw [hid] at hinfo' hkey'
    obtain rfl := mem_unique hinfo hinfo'
    exact hkey'.trans hkey.symm
  · refine recalculate_forall (fun w hw info hinfo => ?_) hlists
    obtain ⟨info', hinfo', hwritable, -⟩ := hindex w hw
    exact ⟨info', hinfo', .of_isWritable hwritable⟩

/-- A service that registers with free space. -/
def sampleService : RegisterBlockServiceInfo :=
  ⟨7, 0, AddrsInfo.empty, 2, replicate 16 1, [], 100, 50, 0, []⟩

/-- It registers, and then `NO_READ`, the second bit, is set. -/
def sampleNoRead : List (List LogEntry) :=
  [[⟨1, 1000, [.registerBlockServices [sampleService]]⟩,
    ⟨2, 1001, [.setBlockServiceFlags 7 2 2]⟩]]

/-- It registers, and then `NO_WRITE` is set. -/
def sampleNoWrite : List (List LogEntry) :=
  [[⟨1, 1000, [.registerBlockServices [sampleService]]⟩],
    [⟨2, 1001, [.setBlockServiceFlags 7 NO_WRITE NO_WRITE]⟩]]

lemma indexOk_init : IndexOk Tables.init := fun _ hw => absurd hw (Finset.notMem_empty _)

theorem index_of_run_sample :
    ∃ db', run (applyChunk sampleOptions sampleStack) ⟨Tables.init, 0⟩ sampleNoRead = some db' ∧
      ∃ w ∈ db'.tables.writableBlockServices, ∃ info,
        db'.tables.blockServices w.id = some info ∧ Offerable info := by
  have hok : RunMeets (applyChunk sampleOptions sampleStack)
      (ChunkFlagsOk sampleOptions sampleStack) ⟨Tables.init, 0⟩ sampleNoRead := by
    refine ⟨⟨trivial, fun info hinfo _ => ?_, trivial⟩, ?_⟩
    · cases hinfo
      decide
    · split <;> trivial
  refine exists_eq_some_imp (fun db' hrun
    (hw : ⟨0, 2, replicate 16 1, 50, 7⟩ ∈ db'.tables.writableBlockServices) => ?_)
    (by decide +kernel)
  obtain ⟨info, hinfo, hoffer, -⟩ := (index_of_run indexOk_init hok hrun).1 _ hw
  exact ⟨_, hw, info, hinfo, hoffer⟩

/-- After `NO_WRITE` the service is still in the index. -/
theorem index_keeps_no_write :
    ∃ db' info, run (applyChunk sampleOptions sampleStack) ⟨Tables.init, 0⟩ sampleNoWrite =
        some db' ∧
      info.writableKey 7 ∈ db'.tables.writableBlockServices ∧
      db'.tables.blockServices 7 = some info ∧ info.flags &&& NO_WRITE ≠ 0 := by
  simp only [exists_and_left]
  exact exists_eq_some_imp (fun db' _ (h : ∃ info, db'.tables.blockServices 7 = some info ∧
    info.writableKey 7 ∈ db'.tables.writableBlockServices ∧ info.flags &&& NO_WRITE ≠ 0) =>
      h.imp fun info h => ⟨h.2.1, h.1, h.2.2⟩) (by decide +kernel)

end TernFS.Registry
