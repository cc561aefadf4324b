/-
# The queues of the coordinator

Transactions of the coordinator run side by side as long as they need different directories.  Each
directory has a queue of the transactions that need it, in the order of their ids, and a sentinel
that holds the head of the queue; a transaction is started when it is at the head of every queue
that it is in (`cdc/CDCDB.cpp`, from `_addToDirsToTxns` to `bootstrap`).

The queues and the sentinels share a column family in the code, in which a sentinel has the
transaction id 0; here they are two stores.  Transaction ids are natural numbers.  The databases of
earlier versions of the coordinator, which are converted when it comes up, are left out.
-/
import TernFS.CDC.Machines

namespace TernFS

open Lib

/-- How an entry of the log can fail to be applied.  Nothing is written then. -/
inductive CDCFault
  /-- A failed `ALWAYS_ASSERT` of a state machine, or of the directories that a request needs. -/
  | assertion
  /-- A transaction, its state, its place in a queue or a sentinel is looked up and not found. -/
  | bookkeeping
  /-- The bound on the number of turns is too small. -/
  | outOfFuel
deriving DecidableEq

/-! ## The directories that a transaction needs -/

/-- `MOVE_DIRECTORY_LOCK`. -/
def moveDirectoryLock : InodeId := ⟨2 ^ 63⟩

/-- `DirectoriesNeedingLock::add`. -/
def addLock (ids : List InodeId) (id : InodeId) : Option (List InodeId) :=
  if ids.length ≠ 3 ∧ id ≠ .null then some (if id ∈ ids then ids else ids ++ [id]) else none

/-- The directories that are added one after the other. -/
def addLocks : List InodeId → List InodeId → Option (List InodeId)
  | ids, [] => some ids
  | ids, id :: rest => (addLock ids id).bind fun ids => addLocks ids rest

/-- `directoriesNeedingLock`. -/
def CDCReq.directoriesNeedingLock : CDCReq → Option (List InodeId)
  | makeDirectory r => addLocks [] [r.ownerId]
  | renameFile r => addLocks [] [r.oldOwnerId, r.newOwnerId]
  | softUnlinkDirectory r => addLocks [] [r.ownerId, r.targetId]
  | renameDirectory r => addLocks [] [r.oldOwnerId, r.newOwnerId, moveDirectoryLock]
  | hardUnlinkDirectory r => addLocks [] [r.dirId]
  | crossShardHardUnlinkFile r => addLocks [] [r.ownerId]

/-! ## Queues -/

/-- `DirsToTxnsKey`, for a transaction. -/
structure DirsToTxnsKey where
  dirId : InodeId
  txnId : ℕ
deriving DecidableEq

instance : LinearOrder DirsToTxnsKey :=
  LinearOrder.lift' (fun k => toLex (k.dirId, k.txnId)) fun a b h => by
    cases a
    cases b
    simpa using h

lemma DirsToTxnsKey.le_def {a b : DirsToTxnsKey} :
    a ≤ b ↔ a.dirId < b.dirId ∨ a.dirId = b.dirId ∧ a.txnId ≤ b.txnId :=
  Prod.Lex.toLex_le_toLex (x := (a.dirId, a.txnId)) (y := (b.dirId, b.txnId))

/-- The column family `dirsToTxns`. -/
structure DirsToTxns where
  txns : SortedStore DirsToTxnsKey PUnit
  sentinels : SortedStore InodeId ℕ

namespace DirsToTxns

/-- `_addToDirsToTxns`. -/
def add (txnId : ℕ) : DirsToTxns → List InodeId → DirsToTxns
  | q, [] => q
  | q, dirId :: dirs =>
    let sentinels := match q.sentinels.get dirId with
      | none => q.sentinels.put dirId txnId
      | some _ => q.sentinels
    add txnId ⟨q.txns.put ⟨dirId, txnId⟩ ⟨⟩, sentinels⟩ dirs

/-- The transaction that is next in line for a directory, after the given one. -/
def next (q : DirsToTxns) (dirId : InodeId) (txnId : ℕ) : Option ℕ :=
  (q.txns.seek ⟨dirId, txnId + 1⟩).head?.bind fun e =>
    if e.1.dirId = dirId then some e.1.txnId else none

/-- `_removeFromDirsToTxns`, with the transactions that might be ready. -/
def remove (txnId : ℕ) : DirsToTxns → List InodeId → Except CDCFault (DirsToTxns × List ℕ)
  | q, [] => .ok (q, [])
  | q, dirId :: dirs => do
    ensure ((q.txns.get ⟨dirId, txnId⟩).isSome = true) .bookkeeping
    let txns := q.txns.delete ⟨dirId, txnId⟩
    match q.next dirId txnId with
    | some nextId =>
      let (q, mightBeReady) ← remove txnId ⟨txns, q.sentinels.put dirId nextId⟩ dirs
      return (q, nextId :: mightBeReady)
    | none => remove txnId ⟨txns, q.sentinels.delete dirId⟩ dirs

/-- `_isReadyToGo`. -/
def isReadyToGo (q : DirsToTxns) (txnId : ℕ) : List InodeId → Except CDCFault Bool
  | [] => .ok true
  | dirId :: dirs => do
    let otherTxnId ← orFail .bookkeeping (q.sentinels.get dirId)
    if otherTxnId ≠ txnId then return false else q.isReadyToGo txnId dirs

end DirsToTxns

/-! ## The database of the coordinator -/

/-- The database of the coordinator. -/
structure CDCDB where
  lastAppliedLogEntry : ℕ
  lastTxn : ℕ
  env : CDCEnv
  enqueued : SortedStore ℕ CDCReq
  executing : SortedStore ℕ TxnState
  dirsToTxns : DirsToTxns

/-- A new database. -/
def CDCDB.init : CDCDB := ⟨0, 0, .init, .empty, .empty, .empty, .empty⟩

/-- `CDCStep`: what is sent to clients and to shards once an entry has been applied. -/
structure CDCStep where
  finishedTxns : List (ℕ × Except TernError CDCResp) := []
  /-- For each transaction the shard, whether the request is repeated, and the request. -/
  runningTxns : List (ℕ × Fin 256 × Bool × CDCShardReq) := []

namespace CDCDB

variable (db : CDCDB)

/-- `_addToEnqueued`. -/
def addToEnqueued (txnId : ℕ) (req : CDCReq) : Except CDCFault CDCDB := do
  let dirs ← orFail .assertion req.directoriesNeedingLock
  return { db with
    enqueued := db.enqueued.put txnId req
    dirsToTxns := db.dirsToTxns.add txnId dirs }

/-- `_enqueueCDCReqs`, with the ids of the new transactions. -/
def enqueueCDCReqs : CDCDB → List CDCReq → Except CDCFault (CDCDB × List ℕ)
  | db, [] => .ok (db, [])
  | db, req :: reqs => do
    let txnId := db.lastTxn + 1
    let db ← { db with lastTxn := txnId }.addToEnqueued txnId req
    let (db, txnIds) ← enqueueCDCReqs db reqs
    return (db, txnId :: txnIds)

/-- `_finishExecuting`. -/
def finishExecuting (txnId : ℕ) (req : CDCReq) : Except CDCFault (CDCDB × List ℕ) := do
  let dirs ← orFail .assertion req.directoriesNeedingLock
  let (dirsToTxns, mightBeReady) ← db.dirsToTxns.remove txnId dirs
  return ({ db with
    executing := db.executing.delete txnId
    enqueued := db.enqueued.delete txnId
    dirsToTxns := dirsToTxns }, mightBeReady)

/-- `_advance`: the machine of the transaction is resumed, and its state is kept or the transaction
is removed.  Transactions that might be able to start now are added to `txnIds`. -/
def advance (txnId : ℕ) (req : CDCReq) (resp : Option ShardResult) (state : TxnState)
    (step : CDCStep) (txnIds : List ℕ) : Except CDCFault (CDCDB × CDCStep × List ℕ) := do
  let (env, outcome) ← orFail .assertion (req.resume db.env state resp)
  let db := { db with env := env }
  match outcome with
  | .needsShard state shid repeated r =>
    return ({ db with executing := db.executing.put txnId state },
      { step with runningTxns := step.runningTxns ++ [(txnId, shid, repeated, r)] }, txnIds)
  | .finish resp _ =>
    let (db, mightBeReady) ← db.finishExecuting txnId req
    return (db, { step with finishedTxns := step.finishedTxns ++ [(txnId, .ok resp)] },
      txnIds ++ mightBeReady)
  | .finishWithError err =>
    let (db, mightBeReady) ← db.finishExecuting txnId req
    return (db, { step with finishedTxns := step.finishedTxns ++ [(txnId, .error err)] },
      txnIds ++ mightBeReady)

/-- `_advanceWithResp`. -/
def advanceWithResp (txnId : ℕ) (resp : Option ShardResult) (step : CDCStep) (txnIds : List ℕ) :
    Except CDCFault (CDCDB × CDCStep × List ℕ) := do
  let req ← orFail .bookkeeping (db.enqueued.get txnId)
  let state ← orFail .bookkeeping (db.executing.get txnId)
  db.advance txnId req resp state step txnIds

/-- Advance several transactions, each with its response. -/
def advanceAll : CDCDB → List (ℕ × Option ShardResult) → CDCStep → List ℕ →
    Except CDCFault (CDCDB × CDCStep × List ℕ)
  | db, [], step, txnIds => .ok (db, step, txnIds)
  | db, resp :: resps, step, txnIds => do
    let (db, step, txnIds) ← db.advanceWithResp resp.1 resp.2 step txnIds
    advanceAll db resps step txnIds

/-- `_startExecuting`, with a bound on the number of turns.  The list grows while it is gone
through. -/
def startExecuting : ℕ → CDCDB → CDCStep → List ℕ → Except CDCFault (CDCDB × CDCStep)
  | _, db, step, [] => .ok (db, step)
  | 0, _, _, _ :: _ => .error .outOfFuel
  | fuel + 1, db, step, txnId :: txnIds => do
    let req ← orFail .bookkeeping (db.enqueued.get txnId)
    if (db.executing.get txnId).isSome then startExecuting fuel db step txnIds
    else
      let dirs ← orFail .assertion req.directoriesNeedingLock
      if ← db.dirsToTxns.isReadyToGo txnId dirs then
        let db := { db with executing := db.executing.put txnId req.startState }
        let (db, step, txnIds) ← db.advance txnId req none req.startState step txnIds
        startExecuting fuel db step txnIds
      else startExecuting fuel db step txnIds

/-- A bound on the number of turns: a transaction that is removed adds at most three others. -/
def turns (txnIds : List ℕ) : ℕ := txnIds.length + 3 * db.enqueued.entries.length

/-- The part of `update` before `_startExecuting`: the new transactions are enqueued, and the ones
that have a response are advanced. -/
def collect (cdcReqs : List CDCReq) (shardResps : List (ℕ × ShardResult)) :
    Except CDCFault (CDCDB × CDCStep × List ℕ × List ℕ) := do
  let (db, newIds) ← db.enqueueCDCReqs cdcReqs
  let (db, step, txnIds) ← db.advanceAll (shardResps.map fun r => (r.1, some r.2)) {} newIds
  return (db, step, txnIds, newIds)

/-- `update`, with the ids of the new transactions. -/
def update (cdcReqs : List CDCReq) (shardResps : List (ℕ × ShardResult)) :
    Except CDCFault (CDCDB × CDCStep × List ℕ) := do
  let (db, step, txnIds, newIds) ← db.collect cdcReqs shardResps
  let (db, step) ← db.startExecuting (db.turns txnIds) step txnIds
  return (db, step, newIds)

/-- `bootstrap`: every executing transaction sends its request again. -/
def bootstrap : Except CDCFault (CDCDB × CDCStep) := do
  let (db, step, txnIds) ← db.advanceAll (db.executing.entries.map fun e => (e.1, none)) {} []
  db.startExecuting (db.turns txnIds) step txnIds

end CDCDB

/-- `CDCLogEntry`. -/
inductive CDCLogEntry
  | bootstrap
  | update (cdcReqs : List CDCReq) (shardResps : List (ℕ × ShardResult))

/-- `applyLogEntry`, with the ids of the new transactions. -/
def CDCDB.applyLogEntry (db : CDCDB) (logIndex : ℕ) (entry : CDCLogEntry) :
    Except CDCFault (CDCDB × CDCStep × List ℕ) := do
  -- `_advanceLastAppliedLogEntry`
  ensure (db.lastAppliedLogEntry + 1 = logIndex) .assertion
  let db := { db with lastAppliedLogEntry := logIndex }
  match entry with
  | .bootstrap =>
    let (db, step) ← db.bootstrap
    return (db, step, [])
  | .update cdcReqs shardResps => db.update cdcReqs shardResps

/-- One entry of the log, at the next index. -/
def CDCDB.step (db : CDCDB) (entry : CDCLogEntry) : Option CDCDB :=
  match db.applyLogEntry (db.lastAppliedLogEntry + 1) entry with
  | .ok (db, _) => some db
  | .error _ => none

end TernFS
