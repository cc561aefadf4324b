/-
# Replicas that cut the log differently

Every replica applies the log, but in chunks of its own.  Applying a chunk is applying its entries
one at a time as long as no entry reads what an earlier entry of the chunk has written, and the
sweep for stale block services, which runs at the end of a chunk, would find nothing in between.
-/
import TernFS.Registry.Leaders

namespace TernFS.Registry

open List Option

variable {db db' : Tables} {opts : RegistryOptions} {stack : Stack}

/-! ## What a handler reads in the database -/

/-- The replicas that are read: the one that the request names, and for a request that makes it a
leader those beside it. -/
def Request.readsReplica (k : ReplicaKey) : Request → Prop
  | .registerShard location shard replica isLeader _ =>
    k = ⟨.shard, location, shard, replica⟩ ∨
      isLeader = true ∧ ReplicaKey.isOther ⟨.shard, location, shard, replica⟩ k = true
  | .registerCdc location replica isLeader _ =>
    k = ⟨.cdc, location, 0, replica⟩ ∨
      isLeader = true ∧ ReplicaKey.isOther ⟨.cdc, location, 0, replica⟩ k = true
  | .registerRegistry location replica _ _ => k = ⟨.registry, location, 0, replica⟩
  | .moveShardLeader location shard replica =>
    k = ⟨.shard, location, shard, replica⟩ ∨
      ReplicaKey.isOther ⟨.shard, location, shard, replica⟩ k = true
  | .moveCdcLeader location replica =>
    k = ⟨.cdc, location, 0, replica⟩ ∨ ReplicaKey.isOther ⟨.cdc, location, 0, replica⟩ k = true
  | .clearShardInfo location shard replica => k = ⟨.shard, location, shard, replica⟩
  | .clearCdcInfo location replica => k = ⟨.cdc, location, 0, replica⟩
  | _ => False

/-- The location that is read. -/
def Request.readsLocation (id : ℕ) : Request → Prop
  | .createLocation id' _ => id = id'
  | .renameLocation id' _ => id = id'
  | _ => False

/-- The request reads the same in both. -/
structure SameReads (req : Request) (db db' : Tables) : Prop where
  replicas : ∀ k, req.readsReplica k → db.replicas k = db'.replicas k
  locations : ∀ id, req.readsLocation id → db.locations id = db'.locations id

lemma SameReads.refl (req : Request) (db : Tables) : SameReads req db db :=
  ⟨fun _ _ => rfl, fun _ _ => rfl⟩

variable {key : ReplicaKey}

lemma clearOthers_congr
    (h : ∀ k, key.isOther k = true → db.replicas k = db'.replicas k) (view : Tables) :
    clearOthers db view key = clearOthers db' view key := by
  simp only [clearOthers, Tables.mk.injEq, true_and, and_true]
  funext k
  by_cases hk : key.isOther k = true
  · rw [if_pos hk, if_pos hk, h k hk]
  · rw [if_neg hk, if_neg hk]

lemma registerReplica_congr {isLeader : Bool} (hkey : db.replicas key = db'.replicas key)
    (hothers : isLeader = true → ∀ k, key.isOther k = true → db.replicas k = db'.replicas k)
    (opts : RegistryOptions) (pad : Padding) (requestTime : ℕ) (addrs : AddrsInfo) (view : Tables) :
    registerReplica opts true pad requestTime key isLeader addrs db view =
      registerReplica opts true pad requestTime key isLeader addrs db' view := by
  rw [registerReplica, registerReplica, hkey]
  cases isLeader
  · simp
  · rw [clearOthers_congr (hothers rfl)]

lemma moveLeader_congr
    (h : ∀ k, k = key ∨ key.isOther k = true → db.replicas k = db'.replicas k) (view : Tables) :
    moveLeader key db view = moveLeader key db' view := by
  rw [moveLeader, moveLeader, h key (Or.inl rfl), clearOthers_congr fun k hk => h k (Or.inr hk)]

lemma handle_congr {req : Request} (h : SameReads req db db') (opts : RegistryOptions)
    (pad : Padding) (requestTime : ℕ) (view : Tables) :
    handle opts pad requestTime db view req = handle opts pad requestTime db' view req := by
  cases req with
  | createLocation id name =>
    show createLocation id name db view = createLocation id name db' view
    rw [createLocation, createLocation, h.locations id rfl]
  | renameLocation id name =>
    show renameLocation id name db view = renameLocation id name db' view
    rw [renameLocation, renameLocation, h.locations id rfl]
  | registerShard | registerCdc =>
    exact registerReplica_congr (h.replicas _ (Or.inl rfl))
      (fun hl k hk => h.replicas k (Or.inr ⟨hl, hk⟩)) ..
  | registerRegistry =>
    show registerReplica .. = registerReplica ..
    rw [registerReplica, registerReplica, h.replicas _ rfl]
    simp
  | moveShardLeader | moveCdcLeader => exact moveLeader_congr h.replicas view
  | clearShardInfo | clearCdcInfo =>
    show clearInfo .. = clearInfo ..
    rw [clearInfo, clearInfo, h.replicas _ rfl]
  | _ => rfl

lemma handleAll_congr {view : Tables} {items : List Item}
    (h : ∀ it ∈ items, SameReads it.request db db') :
    handleAll opts db view items = handleAll opts db' view items := by
  induction items generalizing view with
  | nil => rfl
  | cons it items ih =>
    obtain ⟨hit, hrest⟩ := forall_mem_cons.1 h
    simp only [handleAll, handle_congr hit, ih hrest]

lemma handleAll_append (opts : RegistryOptions) (db view : Tables) (a b : List Item) :
    handleAll opts db view (a ++ b) = ((handleAll opts db (handleAll opts db view a).1 b).1,
        (handleAll opts db view a).2 ++ (handleAll opts db (handleAll opts db view a).1 b).2) := by
  induction a generalizing view with
  | nil => rfl
  | cons it a ih =>
    simp [handleAll, ih]

/-! ## The sweep -/

/-- The sweep finds nothing. -/
def Quiet (opts : RegistryOptions) (now : ℕ) (t : Tables) : Prop :=
  ∀ k ∈ t.lastHeartBeat, k.due? opts now = none

instance (opts : RegistryOptions) (now : ℕ) (t : Tables) : Decidable (Quiet opts now t) :=
  inferInstanceAs (Decidable (∀ k ∈ t.lastHeartBeat, k.due? opts now = none))

lemma Quiet.update_eq {now : ℕ} {t : Tables} (h : Quiet opts now t) :
    updateStaleBlockServices opts now t = some t := by
  have hdue : t.due opts now = ∅ := by
    refine Finset.eq_empty_of_forall_notMem fun id hid => ?_
    obtain ⟨k, hk, hkid⟩ := Finset.mem_image.1 (Finset.mem_eraseNone.1 hid)
    exact absurd ((h k hk).symm.trans hkid) nofun
  rw [updateStaleBlockServices]
  simp [hdue, Finset.filter_true_of_mem h]

/-! ## Chunks -/

/-- The view after an entry. -/
def afterEntry (opts : RegistryOptions) (stack : Stack) (db view : Tables) (e : LogEntry) :
    Tables :=
  (handleAll opts db view (e.items stack)).1

/-- Every entry of the chunk reads what it would read without the batch, and after every entry but
the last the sweep would find nothing. -/
def Settled (opts : RegistryOptions) (stack : Stack) (db : Tables) : Tables → List LogEntry → Prop
  | _, [] => True
  | view, e :: rest =>
    (∀ req ∈ e.requests, SameReads req db view) ∧
      (rest ≠ [] → Quiet opts e.entryTime (afterEntry opts stack db view e)) ∧
      (∀ e' ∈ rest, e.entryTime ≤ e'.entryTime) ∧
      Settled opts stack db (afterEntry opts stack db view e) rest

/-- The condition on a call of `processLogEntries`. A call without entries sweeps at time 0. -/
def ChunkSettled (opts : RegistryOptions) (stack : Stack) (db : RegistryDB)
    (chunk : List LogEntry) : Prop :=
  (chunk = [] → Quiet opts 0 db.tables) ∧ Settled opts stack db.tables db.tables chunk

/-- Consecutive calls of `processLogEntries`, with all their results. -/
def processChunks (opts : RegistryOptions) (stack : Stack) :
    RegistryDB → List (List LogEntry) → Option (RegistryDB × List WriteResult)
  | db, [] => some (db, [])
  | db, chunk :: chunks =>
    (processLogEntries opts stack db chunk).bind fun r =>
      (processChunks opts stack r.1 chunks).map fun r' => (r'.1, r.2 ++ r'.2)

/-- All calls meet the condition. -/
def AllSettled (opts : RegistryOptions) (stack : Stack) : RegistryDB → List (List LogEntry) → Prop
  | _, [] => True
  | db, chunk :: chunks =>
    ChunkSettled opts stack db chunk ∧
      ∀ r, processLogEntries opts stack db chunk = some r → AllSettled opts stack r.1 chunks

/-- The entries one at a time. -/
def oneByOne (opts : RegistryOptions) (stack : Stack) (db : RegistryDB) (log : List LogEntry) :
    Option (RegistryDB × List WriteResult) :=
  processChunks opts stack db (log.map ([·]))

lemma processChunks_append (opts : RegistryOptions) (stack : Stack) (db : RegistryDB)
    (a b : List (List LogEntry)) :
    processChunks opts stack db (a ++ b) = (processChunks opts stack db a).bind fun r =>
      (processChunks opts stack r.1 b).map fun r' => (r'.1, r.2 ++ r'.2) := by
  induction a generalizing db with
  | nil =>
    show _ = (processChunks opts stack db b).map fun r' => (r'.1, r'.2)
    simp
  | cons chunk a ih =>
    simp only [cons_append, processChunks, ih, bind_assoc, map_bind]
    refine congrArg _ (funext fun r => ?_)
    rw [bind_map]
    refine congrArg _ (funext fun ra => ?_)
    simp [Function.comp_def]

/-- What is left to do of a chunk, after the view has been reached and with the time of the sweep
so far. -/
def finish (opts : RegistryOptions) (stack : Stack) (db view : Tables) (last now : ℕ)
    (entries : List LogEntry) : Option (RegistryDB × List WriteResult) :=
  if entries.map (·.idx) = range' (last + 1) entries.length then
    (updateStaleBlockServices opts ((entries.map (·.entryTime)).foldl max now)
      (handleAll opts db view (entries.flatMap (·.items stack))).1).map fun tables =>
        (⟨tables, last + entries.length⟩,
          (handleAll opts db view (entries.flatMap (·.items stack))).2)
  else none

lemma processLogEntries_eq_finish (opts : RegistryOptions) (stack : Stack) (db : RegistryDB)
    (entries : List LogEntry) :
    processLogEntries opts stack db entries =
      finish opts stack db.tables db.tables db.lastAppliedLogEntry 0 entries := rfl

lemma request_mem_of_mem_items {e : LogEntry} {it : Item} (h : it ∈ e.items stack) :
    it.request ∈ e.requests := by
  obtain ⟨⟨req, i⟩, hreq, rfl⟩ := mem_map.1 h
  exact fst_mem_of_mem_zipIdx hreq

/-- The induction is on the rest of the chunk; the sweeps in between do nothing, and the last one
is at the greatest time. -/
lemma oneByOne_eq_finish {view : Tables} {entries : List LogEntry} {last now : ℕ}
    (hne : entries ≠ []) (hsettled : Settled opts stack db view entries)
    (hnow : ∀ e ∈ entries, now ≤ e.entryTime) :
    oneByOne opts stack ⟨view, last⟩ entries = finish opts stack db view last now entries := by
  induction entries generalizing view last now with
  | nil => exact absurd rfl hne
  | cons e rest ih =>
    obtain ⟨hreads, hquiet, htimes, hrest⟩ := hsettled
    have hsame : handleAll opts view view (e.items stack) =
        handleAll opts db view (e.items stack) :=
      (handleAll_congr fun it hit => hreads _ (request_mem_of_mem_items hit)).symm
    have hmax : max now e.entryTime = e.entryTime :=
      max_eq_right (hnow e mem_cons_self)
    rw [oneByOne, map_cons, processChunks, processLogEntries_eq_finish]
    simp only [finish, map_cons, map_nil, length_cons, length_nil,
      range'_succ, range'_zero, cons.injEq, and_true, foldl_cons,
      foldl_nil, flatMap_cons, flatMap_nil, append_nil, Nat.zero_max,
      zero_add, hsame, hmax, handleAll_append]
    by_cases hidx : e.idx = last + 1
    · cases rest with
      | nil =>
        simp only [hidx, if_true, map_nil, length_nil, range'_zero, and_self,
          foldl_nil, flatMap_nil, handleAll, append_nil, zero_add, processChunks]
        cases updateStaleBlockServices opts e.entryTime
          (handleAll opts db view (e.items stack)).1 with
        | none => rfl
        | some => simp
      | cons e' rest =>
        have hq := (hquiet nofun).update_eq
        rw [afterEntry] at hq
        rw [if_pos hidx, hq]
        show Option.map _ (oneByOne opts stack ⟨afterEntry opts stack db view e, last + 1⟩
          (e' :: rest)) = _
        rw [ih nofun hrest htimes, finish]
        simp only [hidx, true_and]
        by_cases hids : (e' :: rest).map (·.idx) = range' (last + 1 + 1) (e' :: rest).length
        · rw [if_pos hids, if_pos hids, Option.map_map]
          refine congrArg (Option.map · _) (funext fun t => Prod.ext ?_ rfl)
          exact congrArg (RegistryDB.mk t) (by simp only [length_cons]; omega)
        · rw [if_neg hids, if_neg hids]
          rfl
    · rw [if_neg hidx, if_neg fun h => hidx h.1]
      rfl

/-- A chunk that meets the condition is applied like its entries one at a time. -/
lemma processLogEntries_eq_oneByOne {db : RegistryDB} {chunk : List LogEntry}
    (h : ChunkSettled opts stack db chunk) :
    processLogEntries opts stack db chunk = oneByOne opts stack db chunk := by
  by_cases hne : chunk = []
  · subst hne
    have hq := (h.1 rfl).update_eq
    show (updateStaleBlockServices opts 0 db.tables).map _ = _
    rw [hq]
    rfl
  · exact (oneByOne_eq_finish hne h.2 fun _ _ => Nat.zero_le _).symm

lemma processChunks_eq_oneByOne {db : RegistryDB} {chunks : List (List LogEntry)}
    (h : AllSettled opts stack db chunks) :
    processChunks opts stack db chunks = oneByOne opts stack db chunks.flatten := by
  induction chunks generalizing db with
  | nil => rfl
  | cons chunk chunks ih =>
    obtain ⟨hchunk, hrest⟩ := h
    have hone := processLogEntries_eq_oneByOne hchunk
    rw [flatten_cons, oneByOne, map_append, processChunks_append, processChunks]
    change processLogEntries opts stack db chunk =
      processChunks opts stack db (chunk.map ([·])) at hone
    rw [← hone]
    cases hr : processLogEntries opts stack db chunk with
    | none => rfl
    | some r =>
      show (processChunks opts stack r.1 chunks).map _ = Option.map _ _
      rw [ih (hrest r hr)]
      rfl

/-- Two replicas that apply the same log agree on all tables and all results, however they cut it,
if every call meets the condition and the bytes that the code leaves uninitialised are the same. -/
theorem processChunks_agree (opts : RegistryOptions) {stack stack' : Stack} (db : RegistryDB)
    {chunks chunks' : List (List LogEntry)} (hlog : chunks.flatten = chunks'.flatten)
    (hstack : stack = stack') (h : AllSettled opts stack db chunks)
    (h' : AllSettled opts stack' db chunks') :
    processChunks opts stack db chunks = processChunks opts stack' db chunks' := by
  subst hstack
  rw [processChunks_eq_oneByOne h, processChunks_eq_oneByOne h', hlog]

/-- Entries that are applied one at a time meet the condition. -/
lemma allSettled_singletons (opts : RegistryOptions) (stack : Stack) (db : RegistryDB)
    (log : List LogEntry) : AllSettled opts stack db (log.map ([·])) := by
  induction log generalizing db with
  | nil => trivial
  | cons e log ih =>
    exact ⟨⟨nofun, fun req _ => SameReads.refl req _, fun h => absurd rfl h, nofun, trivial⟩,
      fun r _ => ih r.1⟩

/-- A location gets a new name and a replica is cleared. -/
def sampleChanges : List LogEntry :=
  [⟨1, 1000, [.renameLocation 0 [97]]⟩, ⟨2, 1001, [.clearShardInfo 0 0 0]⟩]

theorem processChunks_agree_sample :
    processChunks sampleOptions sampleStack ⟨Tables.init, 0⟩ [sampleChanges] =
      processChunks sampleOptions sampleStack ⟨Tables.init, 0⟩ (sampleChanges.map ([·])) := by
  refine processChunks_agree sampleOptions _ rfl rfl ?_ (allSettled_singletons ..)
  refine ⟨⟨nofun, ?_, fun _ => by decide +kernel, by decide, ?_, fun h => absurd rfl h, nofun,
    trivial⟩, fun _ _ => trivial⟩
  · exact fun req _ => SameReads.refl req _
  · intro req hreq
    obtain rfl := mem_singleton.1 hreq
    exact ⟨fun _ _ => rfl, nofun⟩

/-- Two registrations of leaders leave two leaders if they are applied in one chunk, and one if they
are applied one at a time. -/
theorem processChunks_disagree :
    processChunks sampleOptions sampleStack ⟨Tables.init, 0⟩ [sampleRegistrations] ≠
      processChunks sampleOptions sampleStack ⟨Tables.init, 0⟩ (sampleRegistrations.map ([·])) := by
  intro h
  have hproj := congrArg
    (Option.map fun r => (r.1.tables.replicas (sampleShard 0)).map (·.isLeader)) h
  exact absurd hproj (by decide +kernel)

end TernFS.Registry
