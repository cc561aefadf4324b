/-
# A replica of the log: writing, appending, catching up

The remaining parts of a replica.  Writes and releases of a leader are collected into batches.  A
leader replicates the entries that are appended to it and releases them in order once a quorum has
them; only then does it write them to its own log.  A replica that lacks released entries reads them
from the others.  One call of `processIncomingMessages` handles the answers that have come in, then
the requests, and then lets every part move on.
-/
import TernFS.LogsDB.Election
import TernFS.Lib.Run

namespace TernFS

open Lib

namespace LogsDB

variable (cfg : LogsDBConfig) (now : ℕ) (l : LogsDB)

/-! ## Batches of writes -/

/-- `writeBatch`.  What has been collected under the token of no one stays. -/
def writeBatch : LogsDB :=
  if l.batchWriter.token = .zero then l
  else
    let batch := l.batchWriter
    let out :=
      match l.writeLogEntries cfg now batch.token batch.lastReleased batch.entries with
      | .ok l => (l, none)
      | .error e => (l, some e)
    { out.1 with
      reqResp := batch.requests.foldl
        (fun rr req => rr.newResponse req.replicaId req.id (.logWrite out.2)) out.1.reqResp
      batchWriter := {} }

/-- A message with a higher token starts a new batch. -/
def startBatch (token : LeaderToken) : LogsDB :=
  if l.batchWriter.token < token then
    let l := l.writeBatch cfg now
    { l with batchWriter.token := token }
  else l

/-- `proccessLogWriteRequest`. -/
def processLogWriteRequest (request : LogsDBRequest) (token : LeaderToken) (lastReleased idx : ℕ)
    (value : Bytes) : LogsDB :=
  if request.replicaId ≠ token.replica then l
  else if token < l.batchWriter.token then
    l.respond request (.logWrite (some .leaderPreempted))
  else
    let l := l.startBatch cfg now token
    { l with
      batchWriter.requests := l.batchWriter.requests ++ [request]
      batchWriter.entries := l.batchWriter.entries ++ [⟨idx, value⟩]
      batchWriter.lastReleased := max l.batchWriter.lastReleased lastReleased }

/-- `proccessReleaseRequest`. -/
def processReleaseRequest (request : LogsDBRequest) (token : LeaderToken) (lastReleased : ℕ) :
    LogsDB :=
  if request.replicaId ≠ token.replica then l
  else if token < l.batchWriter.token then l
  else
    let l := l.startBatch cfg now token
    { l with batchWriter.lastReleased := max l.batchWriter.lastReleased lastReleased }

/-! ## Appending -/

/-- `Appender::_init`. -/
def initAppender : LogsDB :=
  let asked := l.reqResp.ask (.release l.metadata.leaderToken l.metadata.lastReleased) fun r =>
    if r = cfg.replicaId then some .confirmed else none
  { l with
    reqResp := asked.1
    appender.releaseRequests := asked.2
    appender.currentIsLeader := true }

/-- `Appender::_cleanup`. -/
def cleanupAppender : LogsDB :=
  { l with
    reqResp := (l.appender.entries.foldl (fun rr e => rr.cleanupRequests e.requestIds)
      l.reqResp).cleanupRequests l.appender.releaseRequests
    appender := ⟨false, [], l.appender.releaseRequests.cleanup⟩ }

/-- The loop of `maybeMoveRelease`: the entries at the front that a quorum has, with the new release
point.  Their indices have to follow it. -/
def releasable : ℕ → List InFlightEntry → Option (ℕ × List InFlightEntry)
  | newRelease, [] => some (newRelease, [])
  | newRelease, e :: rest =>
    if cfg.noReplication ∨ e.requestIds.IsQuorum then
      if newRelease + 1 = e.entry.idx then do
        let out ← releasable (newRelease + 1) rest
        return (out.1, e :: out.2)
      else none
    else some (newRelease, [])

/-- The release request to a replica, with the new release point. -/
def updateRelease (l : LogsDB) (r : ReplicaId) : Option LogsDB :=
  match l.appender.releaseRequests r with
  | .confirmed => some l
  | .unused => none
  | .waiting id =>
    match l.reqResp.getRequest id with
    | some ⟨_, _, _, .release _ _⟩ =>
      some { l with
        reqResp.requests := l.reqResp.requests.map fun q =>
          if q.id = id then
            { q with body := .release l.metadata.leaderToken l.metadata.lastReleased }
          else q }
    | _ => none

/-- `maybeMoveRelease`. -/
def maybeMoveRelease : Option LogsDB :=
  if l.IsLeader ∧ ¬ l.appender.currentIsLeader then some (l.initAppender cfg)
  else if ¬ l.IsLeader ∧ l.appender.currentIsLeader then some l.cleanupAppender
  else if ¬ l.appender.currentIsLeader then some l
  else do
    let out ← releasable cfg l.metadata.lastReleased l.appender.entries
    if out.2 = [] then return l
    let l := { l with
      reqResp := out.2.foldl (fun rr (e : InFlightEntry) => rr.cleanupRequests e.requestIds)
        l.reqResp
      appender.entries := l.appender.entries.drop out.2.length }
    match l.writeLogEntries cfg now l.metadata.leaderToken out.1 (out.2.map InFlightEntry.entry) with
    | .error _ => none
    | .ok l => (List.finRange 5).foldlM updateRelease l

/-- Append one entry: it gets the next index and is sent to all replicas. -/
def appendEntry (l : LogsDB) (value : Bytes) : Option LogsDB := do
  let l ← l.assignLogIdx cfg
  let asked := l.reqResp.ask
    (.logWrite l.metadata.leaderToken l.metadata.lastReleased l.metadata.lastAssigned value)
    fun r => if r = cfg.replicaId ∨ cfg.noReplication then some .confirmed else none
  return { l with
    reqResp := asked.1
    appender.entries := l.appender.entries ++ [⟨⟨l.metadata.lastAssigned, value⟩, asked.2⟩] }

/-- `appendEntries`: as many entries as there is room for are taken. -/
def appendEntries (values : List Bytes) : Option LogsDB :=
  if ¬ l.IsLeader then some l
  else do
    let l ← (values.take (inFlightAppendWindow - l.appender.entries.length)).foldlM
      (appendEntry cfg) l
    if cfg.noReplication then l.maybeMoveRelease cfg now else return l

/-- `proccessLogWriteResponse`. -/
def processLogWriteResponse (request : LogsDBRequest) (idx : ℕ) (result : Option LogError) :
    Option LogsDB :=
  if ¬ l.IsLeader then some l
  else
    match result with
    | some .leaderPreempted => some (l.resetLeaderElection now)
    | some _ => some l
    | none => do
      guard (l.metadata.lastReleased < idx)
      let offset := idx - l.metadata.lastReleased - 1
      let e ← l.appender.entries[offset]?
      guard (e.entry.idx = idx)
      if e.requestIds request.replicaId ≠ .waiting request.id then return l
      return { l with
        reqResp := l.reqResp.eraseRequest request.id
        appender.entries := l.appender.entries.set offset { e with
          requestIds := Function.update e.requestIds request.replicaId .confirmed } }

/-! ## Catching up -/

/-- The loop of `_findMissingEntries`: at most `room` of the indices from `idx` on that the iterator
does not meet. -/
def missingFrom : ℕ → ℕ → MergeCursor ℕ Bytes → ℕ → List ℕ
  | 0, _, _, _ => []
  | _, _, _, 0 => []
  | n + 1, idx, it, room + 1 =>
    match it.current? with
    | none => idx :: missingFrom n (idx + 1) it room
    | some e =>
      if idx < e.2.1 then idx :: missingFrom n (idx + 1) it room
      else missingFrom n (idx + 1) it.next (room + 1)

/-- Ask all replicas for missing entries. -/
def askReads : List ℕ → ReqResp → List MissingEntry × ReqResp
  | [], rr => ([], rr)
  | idx :: rest, rr =>
    let asked := rr.ask (.logRead idx) fun r =>
      if r = cfg.replicaId then some .confirmed else none
    let out := askReads rest asked.1
    (⟨idx, asked.2⟩ :: out.1, out.2)

/-- `_findMissingEntries`, when there are none left. -/
def findMissingEntries : LogsDB :=
  if l.metadata.lastReleased ≤ l.catchupReader.lastRead then l
  else
    let start := l.catchupReader.lastContinuousIdx + 1
    let missing := missingFrom (l.metadata.lastReleased + 1 - start) start (l.data.seek start)
      catchupWindow
    match missing with
    | [] =>
      { l with
        catchupReader.lastContinuousIdx := l.metadata.lastReleased
        catchupReader.lastMissingIdx := l.metadata.lastReleased }
    | idx :: rest =>
      let out := askReads cfg missing l.reqResp
      { l with
        reqResp := out.2
        catchupReader := {
          lastRead := l.catchupReader.lastRead
          lastContinuousIdx := idx - 1
          lastMissingIdx := rest.getLastD idx
          missing := out.1 } }

/-- `maybeCatchUp`. -/
def maybeCatchUp : LogsDB :=
  if l.catchupReader.missing.any fun m => m.idx ≠ 0 then l
  else
    ({ l with catchupReader := {
        lastRead := l.catchupReader.lastRead
        lastContinuousIdx := l.catchupReader.lastMissingIdx
        lastMissingIdx := l.catchupReader.lastMissingIdx
        missing := [] } }).findMissingEntries cfg

/-- `proccessLogReadRequest`: only released entries are given. -/
def processLogReadRequest (request : LogsDBRequest) (idx : ℕ) : LogsDB :=
  if l.metadata.lastReleased < idx then
    l.respond request (.logRead (some .logEntryUnreleased) [])
  else
    match l.data.readLogEntry idx with
    | .ok value => l.respond request (.logRead none value)
    | .error e => l.respond request (.logRead (some e) [])

/-- `proccessLogReadResponse`. -/
def processLogReadResponse (idx : ℕ) (result : Option LogError) (value : Bytes) : LogsDB :=
  if result ≠ none then l
  else
    match l.catchupReader.missing.findIdx? fun m => m.idx = idx with
    | none => l
    | some i =>
      { l with
        data := l.data.writeLogEntry now ⟨idx, value⟩
        reqResp :=
          match l.catchupReader.missing[i]? with
          | some m => l.reqResp.cleanupRequests m.requestIds
          | none => l.reqResp
        catchupReader.missing := l.catchupReader.missing.modify i fun m =>
          ⟨0, m.requestIds.cleanup⟩ }

/-- The loop of `readEntries`: the entries that are handed out have to follow each other. -/
def readFrom : ℕ → ℕ → List (Side × ℕ × Bytes) → ℕ → Option (List LogsDBLogEntry)
  | _, _, [], _ => some []
  | _, _, _, 0 => some []
  | lastContinuous, idx, e :: rest, room + 1 =>
    if lastContinuous < e.2.1 then some []
    else if idx = e.2.1 then do
      let out ← readFrom lastContinuous (idx + 1) rest room
      return ⟨e.2.1, e.2.2⟩ :: out
    else none

/-- `readEntries`. -/
def readEntries (maxEntries : ℕ) : Option (LogsDB × List LogsDBLogEntry) :=
  if l.catchupReader.lastRead = l.catchupReader.lastContinuousIdx then some (l, [])
  else do
    let start := l.catchupReader.lastRead + 1
    let entries ← readFrom l.catchupReader.lastContinuousIdx start (l.data.seek start).walk maxEntries
    return ({ l with
      catchupReader.lastRead := l.catchupReader.lastRead + entries.length }, entries)

/-! ## The main loop -/

/-- The answer to a request is handled by the part that has sent it. -/
def dispatchResponse (request : LogsDBRequest) (body : LogResp) : Option LogsDB :=
  match request.body, body with
  | .logWrite _ _ idx _, .logWrite result => l.processLogWriteResponse now request idx result
  | .logRead idx, .logRead result value => some (l.processLogReadResponse now idx result value)
  | .newLeader _, .newLeader result lastReleased =>
    l.processNewLeaderResponse cfg now request result lastReleased
  | .newLeaderConfirm _ _, .newLeaderConfirm result =>
    l.processNewLeaderConfirmResponse cfg now request result
  | .logRecoveryRead _ idx, .logRecoveryRead result value =>
    l.processRecoveryReadResponse cfg now request idx result value
  | .logRecoveryWrite _ idx _, .logRecoveryWrite result =>
    l.processRecoveryWriteResponse cfg now request idx result
  | _, _ => some l

/-- An answer is handled if a request waits for it. -/
def processResponse (l : LogsDB) (resp : LogsDBResponse) : Option LogsDB :=
  match l.reqResp.getRequest resp.id with
  | none => some l
  | some request =>
    if request.replicaId = resp.replicaId ∧ request.body.kind = resp.body.kind then
      l.dispatchResponse cfg now request resp.body
    else some l

/-- A request is handled by the part that it is for. -/
def processRequest (l : LogsDB) (request : LogsDBRequest) : Option LogsDB :=
  match request.body with
  | .release token lastReleased => some (l.processReleaseRequest cfg now request token lastReleased)
  | .logWrite token lastReleased idx value =>
    some (l.processLogWriteRequest cfg now request token lastReleased idx value)
  | .logRead idx => some (l.processLogReadRequest request idx)
  | .newLeader nomineeToken => some (l.processNewLeaderRequest now request nomineeToken)
  | .newLeaderConfirm nomineeToken releasedIdx =>
    l.processNewLeaderConfirmRequest cfg now request nomineeToken releasedIdx
  | .logRecoveryRead nomineeToken idx =>
    some (l.processRecoveryReadRequest now request nomineeToken idx)
  | .logRecoveryWrite nomineeToken idx value =>
    some (l.processRecoveryWriteRequest now request nomineeToken idx value)

/-- `getOutgoingMessages`: what is sent is forgotten. -/
def getOutgoingMessages : LogsDB :=
  { l with reqResp.requestsToSend := [], reqResp.responses := [] }

/-- A replica that is started with the log and the metadata of an earlier one.  The nominee is not
kept on disk. -/
def start (data : DataPartitions) (leaderToken : LeaderToken) (lastReleased lastRead : ℕ) : LogsDB :=
  findMissingEntries cfg
    { data := data
      metadata := { leaderToken := leaderToken, lastReleased := lastReleased }
      election := { leaderLastActive := if cfg.noReplication then 0 else now }
      catchupReader := ⟨lastRead, lastRead, lastRead, []⟩ }

/-- The first start of a replica. -/
def init : LogsDB := start cfg now {} .zero 0 0

/-- A restart, with the point up to which entries have been applied. -/
def restart (lastRead : ℕ) : Option LogsDB :=
  if lastRead ≤ l.metadata.lastReleased then
    l.data.reopen.map fun data =>
      start cfg now data l.metadata.leaderToken l.metadata.lastReleased lastRead
  else none

/-- What a replica does at a time: the parts of `processIncomingMessages`, and the other calls. -/
inductive Op
  | response (now : ℕ) (resp : LogsDBResponse)
  | request (now : ℕ) (request : LogsDBRequest)
  | maybeStartLeaderElection (now : ℕ)
  | writeBatch (now : ℕ)
  | maybeMoveRelease (now : ℕ)
  | maybeCatchUp
  | resendTimedOutRequests (now : ℕ)
  | appendEntries (now : ℕ) (values : List Bytes)
  | readEntries (maxEntries : ℕ)
  | getOutgoingMessages
  | restart (now lastRead : ℕ)

/-- One operation.  The replica stops where an assertion fails. -/
def op (l : LogsDB) : Op → Option LogsDB
  | .response now resp => l.processResponse cfg now resp
  | .request now request => l.processRequest cfg now request
  | .maybeStartLeaderElection now => l.maybeStartLeaderElection cfg now
  | .writeBatch now => some (l.writeBatch cfg now)
  | .maybeMoveRelease now => l.maybeMoveRelease cfg now
  | .maybeCatchUp => some (l.maybeCatchUp cfg)
  | .resendTimedOutRequests now => some { l with reqResp := l.reqResp.resendTimedOutRequests now }
  | .appendEntries now values => l.appendEntries cfg now values
  | .readEntries maxEntries => (l.readEntries maxEntries).map Prod.fst
  | .getOutgoingMessages => some l.getOutgoingMessages
  | .restart now lastRead => l.restart cfg now lastRead

/-- The operations of a call of `processIncomingMessages`, in their order. -/
def processOps (requests : List LogsDBRequest) (responses : List LogsDBResponse) : List Op :=
  responses.map (.response now) ++ requests.map (.request now) ++
    [.maybeStartLeaderElection now, .writeBatch now, .maybeMoveRelease now, .maybeCatchUp,
      .resendTimedOutRequests now]

/-- `processIncomingMessages`. -/
def processIncomingMessages (requests : List LogsDBRequest) (responses : List LogsDBResponse) :
    Option LogsDB :=
  run (op cfg) l (processOps now requests responses)

/-- A round of the caller: the messages that have come in are processed and what is to be sent is
taken. -/
def roundOps (requests : List LogsDBRequest) (responses : List LogsDBResponse) : List Op :=
  processOps now requests responses ++ [.getOutgoingMessages]

end LogsDB

end TernFS
