/-
# One transaction and the shards

The shards of a file system together with one transaction of the coordinator.  The transaction
waits for the response to the last request that it has sent.  Messages are lost, delayed and
duplicated: a response may arrive or not, the coordinator may time out and send the request again,
and every copy that it has ever sent may be handled by its shard at any time.  In between, the
shards handle requests of clients.
-/
import TernFS.CDC.Machines
import TernFS.Shard.Inversion

namespace TernFS

open Lib Function Option

/-- The configurations of the shards. -/
structure ClusterConfig where
  shard : Fin 256 → ShardConfig
  shid_eq : ∀ s, (shard s).shid = s

/-- What a shard adds to a request that it handles: the time, and what the leader picks for it. -/
structure Delivery where
  time : ℕ
  pick : PickBlockServices
  cache : BlockServicesCache

/-- The step of a shard that handles a request. -/
def Delivery.step (d : Delivery) (req : ShardReq) : ShardStep := ⟨d.time, d.pick, d.cache, req⟩

/-- A shard handles a request of the coordinator: the new database and the response, or `none` if
the process goes down. -/
def handle (cfg : ShardConfig) (db : ShardDB) (d : Delivery) :
    CDCShardReq → Option (ShardDB × ShardResult)
  | .read req =>
    match read cfg db req with
    | .ok resp => some (db, .ok resp)
    | .error (.err e) => some (db, .error e)
    | .error .crash => none
  | .write req =>
    match prepareLogEntry cfg d.time d.pick req with
    | .ok entry => applyLogEntry cfg d.cache db (addU64 db.lastAppliedLogEntry 1) entry
    | .error (.err e) => some (db, .error e)
    | .error .crash => none

/-- A request of the coordinator that a shard has handled. -/
structure Handled where
  shid : Fin 256
  req : CDCShardReq
  before : ShardDB
  result : ShardResult

/-- Where a transaction stands: it waits for the response to a request, or it is finished. -/
inductive TxnStatus
  | running (state : TxnState) (shid : Fin 256) (req : CDCShardReq)
  | finished (result : Except TernError CDCResp)

instance {t : TxnStatus} {p : TxnState → Fin 256 → CDCShardReq → Prop}
    [∀ state shid r, Decidable (p state shid r)] :
    Decidable (∃ state shid r, t = .running state shid r ∧ p state shid r) :=
  match t with
  | .running state shid r => decidable_of_iff (p state shid r) (by simp)
  | .finished _ => isFalse (by simp)

/-- Where a transaction stands after its machine has run. -/
def Outcome.status : Outcome → TxnStatus
  | needsShard state shid _ req => .running state shid req
  | finish resp _ => .finished (.ok resp)
  | finishWithError err => .finished (.error err)

/-- The request that a machine sends, if any. -/
def Outcome.sent : Outcome → List (Fin 256 × CDCShardReq)
  | needsShard _ shid _ req => [(shid, req)]
  | _ => []

/-- The shards and one transaction. -/
structure TxnSystem where
  shards : Fin 256 → ShardDB
  env : CDCEnv
  txn : TxnStatus
  /-- Every copy of a request that has been sent. -/
  sent : List (Fin 256 × CDCShardReq)
  /-- Every request of the transaction that has been handled, the first one first. -/
  log : List Handled

/-- What can happen. -/
inductive TxnEvent
  /-- A shard handles a request of a client. -/
  | client (s : Fin 256) (step : ShardStep)
  /-- The request that the transaction waits for is handled, and the response arrives. -/
  | respond (d : Delivery)
  /-- No response arrives in time. -/
  | timeout
  /-- A copy of a request is handled, and the response is lost or ignored. -/
  | deliver (i : ℕ) (d : Delivery)
  /-- The coordinator comes up again. -/
  | restart

namespace TxnSystem

variable (cfg : ClusterConfig) (req : CDCReq) (sys : TxnSystem)

/-- The transaction goes on as its machine has left it. -/
def record (env : CDCEnv) (out : Outcome) : TxnSystem :=
  { sys with env := env, txn := out.status, sent := sys.sent ++ out.sent }

/-- The machine is resumed. -/
def advance (resp : Option ShardResult) : Option TxnSystem :=
  match sys.txn with
  | .running state _ _ => (req.resume sys.env state resp).map fun out => sys.record out.1 out.2
  | .finished _ => none

/-- The request of the transaction that an event has handled, and by which shard. -/
def handles : TxnEvent → Option (Fin 256 × CDCShardReq × Delivery)
  | .respond d =>
    match sys.txn with
    | .running _ shid r => some (shid, r, d)
    | .finished _ => none
  | .deliver i d => sys.sent[i]?.map fun copy => (copy.1, copy.2, d)
  | _ => none

/-- A shard has handled a request of the transaction. -/
def handled (shid : Fin 256) (r : CDCShardReq) (db : ShardDB) (result : ShardResult) : TxnSystem :=
  { sys with
    shards := update sys.shards shid db
    log := sys.log ++ [⟨shid, r, sys.shards shid, result⟩] }

/-- A shard handles a request of the transaction. -/
def handleAt (shid : Fin 256) (r : CDCShardReq) (d : Delivery) : Option (TxnSystem × ShardResult) :=
  (handle (cfg.shard shid) (sys.shards shid) d r).map fun out =>
    (sys.handled shid r out.1 out.2, out.2)

/-- One event.  A request of a client that only the coordinator may send is dropped. -/
def step : TxnEvent → Option TxnSystem
  | .client s step =>
    if step.req.Privileged then some sys
    else
      (shardStep (cfg.shard s) (sys.shards s) step).map fun db =>
        { sys with shards := update sys.shards s db }
  | .respond d =>
    match sys.txn with
    | .running _ shid r =>
      (sys.handleAt cfg shid r d).bind fun out => out.1.advance req (some out.2)
    | .finished _ => none
  | .timeout => sys.advance req (some (.error .timeout))
  | .deliver i d =>
    match sys.sent[i]? with
    | some copy => (sys.handleAt cfg copy.1 copy.2 d).map Prod.fst
    | none => none
  | .restart => sys.advance req none

/-- The transaction starts. -/
def start (shards : Fin 256 → ShardDB) (env : CDCEnv) : Option TxnSystem :=
  (req.start env).map fun out => ⟨shards, out.1, out.2.status, out.2.sent, []⟩

end TxnSystem

/-- What one event can do: the shards handle requests, and the machine of the transaction is
resumed. -/
inductive TxnStep (cfg : ClusterConfig) (req : CDCReq) (sys : TxnSystem) :
    TxnEvent → TxnSystem → Prop
  | ignored {s : Fin 256} {step : ShardStep} (hclient : step.req.Privileged) :
    TxnStep cfg req sys (.client s step) sys
  | client {s : Fin 256} {step : ShardStep} {db : ShardDB} (hclient : ¬ step.req.Privileged)
      (hstep : shardStep (cfg.shard s) (sys.shards s) step = some db) :
    TxnStep cfg req sys (.client s step) { sys with shards := update sys.shards s db }
  | respond {d : Delivery} {state : TxnState} {shid : Fin 256} {r : CDCShardReq} {db : ShardDB}
      {result : ShardResult} {env : CDCEnv} {out : Outcome} (htxn : sys.txn = .running state shid r)
      (hhandle : handle (cfg.shard shid) (sys.shards shid) d r = some (db, result))
      (hresume : req.resume sys.env state (some result) = some (env, out)) :
    TxnStep cfg req sys (.respond d) ((sys.handled shid r db result).record env out)
  | deliver {i : ℕ} {d : Delivery} {shid : Fin 256} {r : CDCShardReq} {db : ShardDB}
      {result : ShardResult} (hsent : sys.sent[i]? = some (shid, r))
      (hhandle : handle (cfg.shard shid) (sys.shards shid) d r = some (db, result)) :
    TxnStep cfg req sys (.deliver i d) (sys.handled shid r db result)
  | timeout {state : TxnState} {shid : Fin 256} {r : CDCShardReq} {env : CDCEnv} {out : Outcome}
      (htxn : sys.txn = .running state shid r)
      (hresume : req.resume sys.env state (some (.error .timeout)) = some (env, out)) :
    TxnStep cfg req sys .timeout (sys.record env out)
  | restart {state : TxnState} {shid : Fin 256} {r : CDCShardReq} {env : CDCEnv} {out : Outcome}
      (htxn : sys.txn = .running state shid r)
      (hresume : req.resume sys.env state none = some (env, out)) :
    TxnStep cfg req sys .restart (sys.record env out)

/-- What the machine leaves holds of the copies and of the request that is waited for, with what
held of the copies before. -/
lemma TxnSystem.of_record {S : Fin 256 × CDCShardReq → Prop}
    {R : TxnState → Fin 256 → CDCShardReq → Prop} {sys : TxnSystem} {out : Outcome}
    (hsent : ∀ copy ∈ sys.sent, S copy)
    (hout : ∀ state shid repeated r, out = .needsShard state shid repeated r →
      S (shid, r) ∧ R state shid r) (env : CDCEnv) :
    (∀ copy ∈ (sys.record env out).sent, S copy) ∧
      ∀ state shid r, (sys.record env out).txn = .running state shid r → R state shid r := by
  constructor
  · intro copy hcopy
    rcases List.mem_append.1 hcopy with hcopy | hcopy
    · exact hsent copy hcopy
    · cases out with
      | needsShard => exact List.mem_singleton.1 hcopy ▸ (hout _ _ _ _ rfl).1
      | finish | finishWithError => cases hcopy
  · intro state shid r htxn
    cases out with
    | needsShard =>
      cases htxn
      exact (hout _ _ _ _ rfl).2
    | finish | finishWithError => cases htxn

lemma TxnSystem.advance_eq_some {req : CDCReq} {sys sys' : TxnSystem} {resp : Option ShardResult}
    (h : sys.advance req resp = some sys') :
    ∃ state shid r env out, sys.txn = .running state shid r ∧
      req.resume sys.env state resp = some (env, out) ∧ sys' = sys.record env out := by
  unfold advance at h
  split at h
  · rename_i state shid r htxn
    obtain ⟨⟨env, out⟩, hresume, rfl⟩ := map_eq_some_iff.1 h
    exact ⟨state, shid, r, env, out, htxn, hresume, rfl⟩
  · cases h

lemma TxnSystem.txnStep_of_step {cfg : ClusterConfig} {req : CDCReq} {sys sys' : TxnSystem}
    {ev : TxnEvent} (h : sys.step cfg req ev = some sys') : TxnStep cfg req sys ev sys' := by
  cases ev with
  | client =>
    simp only [TxnSystem.step] at h
    split_ifs at h with hclient
    · cases h
      exact .ignored hclient
    · obtain ⟨db, hstep, rfl⟩ := map_eq_some_iff.1 h
      exact .client hclient hstep
  | respond =>
    simp only [TxnSystem.step] at h
    split at h
    · rename_i state shid r htxn
      obtain ⟨⟨mid, resp⟩, hmid, hadvance⟩ := bind_eq_some_iff.1 h
      obtain ⟨⟨db, result⟩, hhandle, heq⟩ := map_eq_some_iff.1 hmid
      cases heq
      obtain ⟨state', shid', r', env, out, htxn', hresume, rfl⟩ := advance_eq_some hadvance
      obtain ⟨rfl, rfl, rfl⟩ := (TxnStatus.running.injEq ..).mp (htxn.symm.trans htxn')
      exact .respond htxn hhandle hresume
    · cases h
  | timeout =>
    obtain ⟨state, shid, r, env, out, htxn, hresume, rfl⟩ := advance_eq_some h
    exact .timeout htxn hresume
  | deliver =>
    simp only [TxnSystem.step] at h
    split at h
    · rename_i copy hsent
      simp only [handleAt, map_map, map_eq_some_iff] at h
      obtain ⟨⟨db, result⟩, hhandle, rfl⟩ := h
      exact .deliver hsent hhandle
    · cases h
  | restart =>
    obtain ⟨state, shid, r, env, out, htxn, hresume, rfl⟩ := advance_eq_some h
    exact .restart htxn hresume

variable {result : ShardResult}

section

variable {cfg : ShardConfig} {db db' : ShardDB} {d : Delivery}

/-- A write that is handled applies the entry it is turned into, or is answered with an error. -/
lemma handle_write {req : ShardReq} (h : handle cfg db d (.write req) = some (db', result)) :
    (∃ body resp index, Prepared cfg d.time d.pick req body ∧ result = .ok resp ∧
      ∃ batch, applyEntryBody cfg d.cache db d.time body = .ok (batch, resp) ∧
        db' = batch.advance index d.time) ∨
      ∃ e, result = .error e ∧ (db' = db ∨ ∃ index time, db' = db.advance index time) := by
  simp only [handle] at h
  split at h
  · rename_i entry hprepare
    obtain ⟨body, hprepared, rfl⟩ := prepareLogEntry_eq_ok hprepare
    simp only [applyLogEntry, if_true] at h
    split at h
    · rename_i batch resp happly
      cases h
      exact .inl ⟨body, resp, _, hprepared, rfl, batch, happly, rfl⟩
    · rename_i e happly
      cases h
      exact .inr ⟨e, rfl, .inr ⟨_, _, rfl⟩⟩
    · cases h
  · rename_i e hprepare
    cases h
    exact .inr ⟨e, rfl, .inl rfl⟩
  · cases h

/-- A write whose entry can be applied is answered with success. -/
lemma handle_write_of_ok {req : ShardReq} {entry : ShardLogEntry} {batch : ShardDB}
    {resp : ShardResp} (hprepare : prepareLogEntry cfg d.time d.pick req = .ok entry)
    (happly : applyEntryBody cfg d.cache db entry.time entry.body = .ok (batch, resp)) :
    handle cfg db d (.write req) =
      some (batch.advance (addU64 db.lastAppliedLogEntry 1) entry.time, .ok resp) := by
  simp [handle, hprepare, applyLogEntry, happly]

/-- A write of the coordinator is a step of the shard. -/
lemma shardStep_of_handle {req : ShardReq} (h : handle cfg db d (.write req) = some (db', result)) :
    shardStep cfg db (d.step req) = some db' := by
  simp only [handle] at h
  simp only [shardStep, Delivery.step]
  cases hprepare : prepareLogEntry cfg d.time d.pick req with
  | ok entry =>
    simp only [hprepare] at h ⊢
    rw [h, Option.map_some]
  | error f =>
    simp only [hprepare] at h ⊢
    cases f with
    | err e =>
      cases h
      rfl
    | crash => cases h

lemma eq_of_handle_read {req : ShardReadReq}
    (h : handle cfg db d (.read req) = some (db', result)) : db' = db := by
  simp only [handle] at h
  split at h <;> cases h <;> rfl

end

end TernFS
