/-
# A replica of the log: metadata and elections

The state of a replica is the log, the tokens of the leader and of the nominee that it has promised
to follow, the point up to which entries are released, and what its parts keep for the messages that
they wait for.  A replica that has not heard from a leader for some time nominates itself.  It
collects promises from a quorum, reads the entries that may have been written beyond the release
point of the quorum, writes them to the quorum, and has its leadership confirmed.
-/
import TernFS.LogsDB.ReqResp

namespace TernFS

open Lib

/-- `IN_FLIGHT_APPEND_WINDOW`. -/
def inFlightAppendWindow : ℕ := 256

/-- `CATCHUP_WINDOW`. -/
def catchupWindow : ℕ := 256

/-- `LEADER_INACTIVE_TIMEOUT`. -/
def leaderInactiveTimeout : ℕ := 10 ^ 9

/-! ## The state of a replica -/

/-- `LeadershipState`. -/
inductive LeadershipState
  | follower
  | becomingNominee
  | digestingEntries
  | confirmingReplication
  | confirmingLeadership
  | leader
deriving DecidableEq

/-- An element of `recoveryEntries` with the element of `recoveryRequests`. -/
structure RecoverySlot where
  entry : LogsDBLogEntry := ⟨0, []⟩
  requestIds : QuorumTrackArray := fun _ => .confirmed

/-- `LeaderElectionState`. -/
structure LeaderElectionState where
  requestIds : QuorumTrackArray
  lastReleased : ℕ
  slots : List RecoverySlot

/-- `LogMetadata`. -/
structure LogMetadata where
  lastAssigned : ℕ := 0
  lastReleased : ℕ := 0
  leaderToken : LeaderToken := .zero
  nomineeToken : LeaderToken := .zero

/-- `LeaderElection`. -/
structure LeaderElection where
  state : LeadershipState := .follower
  electionState : Option LeaderElectionState := none
  leaderLastActive : ℕ

/-- `BatchWriter`: the writes of a batch, and whom to answer. -/
structure BatchWriter where
  token : LeaderToken := .zero
  lastReleased : ℕ := 0
  requests : List LogsDBRequest := []
  entries : List LogsDBLogEntry := []

/-- An entry that has not been released, with the requests that replicate it. -/
structure InFlightEntry where
  entry : LogsDBLogEntry
  requestIds : QuorumTrackArray

/-- `Appender`.  The ring buffer is the list of the entries from `_entriesStart` to `_entriesEnd`. -/
structure Appender where
  currentIsLeader : Bool := false
  entries : List InFlightEntry := []
  releaseRequests : QuorumTrackArray := fun _ => .confirmed

/-- An element of `_missingEntries`, zero once it has been found, with its requests. -/
structure MissingEntry where
  idx : ℕ
  requestIds : QuorumTrackArray

/-- `CatchupReader`. -/
structure CatchupReader where
  lastRead : ℕ := 0
  lastContinuousIdx : ℕ := 0
  lastMissingIdx : ℕ := 0
  missing : List MissingEntry := []

/-- `LogsDBImpl`. -/
structure LogsDB where
  data : DataPartitions := {}
  metadata : LogMetadata := {}
  reqResp : ReqResp := {}
  election : LeaderElection
  batchWriter : BatchWriter := {}
  catchupReader : CatchupReader := {}
  appender : Appender := {}

/-- What a replica is started with. -/
structure LogsDBConfig where
  replicaId : ReplicaId
  noReplication : Bool := false
  skipLeaderElection : Bool := false
  avoidBeingLeader : Bool := false

namespace LogsDB

variable (cfg : LogsDBConfig) (now : ℕ) (l : LogsDB)

/-- `isLeader`. -/
def IsLeader : Prop := l.election.state = .leader

instance : Decidable l.IsLeader := inferInstanceAs (Decidable (_ = _))

/-! ## Metadata -/

/-- `assignLogIdx`: only the leader assigns indices. -/
def assignLogIdx : Option LogsDB :=
  if l.metadata.leaderToken.replica = cfg.replicaId then
    some { l with metadata.lastAssigned := l.metadata.lastAssigned + 1 }
  else none

/-- `updateLeaderToken`.  What an older leader has written beyond the release point is dropped. -/
def updateLeaderToken (token : LeaderToken) : Except LogError LogsDB :=
  if token < l.metadata.leaderToken ∨ token < l.metadata.nomineeToken then .error .leaderPreempted
  else if token = l.metadata.leaderToken then .ok l
  else
    .ok { l with
      data := l.data.dropEntriesAfterIdx l.metadata.lastReleased
      metadata := {
        lastAssigned :=
          if token.replica = cfg.replicaId then l.metadata.lastReleased else l.metadata.lastAssigned
        lastReleased := l.metadata.lastReleased
        leaderToken := token
        nomineeToken := .zero } }

/-- `setNomineeToken`.  If an election has been missed the unreleased entries are dropped. -/
def setNomineeToken (token : LeaderToken) : LogsDB :=
  { l with
    data :=
      if l.metadata.leaderToken.epoch + 1 < token.epoch then
        l.data.dropEntriesAfterIdx l.metadata.lastReleased
      else l.data
    metadata.nomineeToken := token }

/-- `generateNomineeToken`. -/
def generateNomineeToken : LeaderToken := ⟨cfg.replicaId, l.metadata.leaderToken.epoch + 1⟩

/-- `setLastReleased`: the release point never goes backwards. -/
def setLastReleased (lastReleased : ℕ) : Option LogsDB :=
  if l.metadata.lastReleased ≤ lastReleased then
    some { l with metadata.lastReleased := lastReleased }
  else none

/-! ## The end of an election -/

/-- `_clearElectionState`. -/
def clearElectionState : LogsDB :=
  match l.election.electionState with
  | none => { l with election.leaderLastActive := now }
  | some es =>
    { l with
      reqResp := es.slots.foldl (fun rr slot => rr.cleanupRequests slot.requestIds)
        (l.reqResp.cleanupRequests es.requestIds)
      election := { state := l.election.state, electionState := none, leaderLastActive := now } }

/-- `resetLeaderElection`. -/
def resetLeaderElection : LogsDB :=
  clearElectionState now
    (({ l with election.state := .follower, election.leaderLastActive := now }).setNomineeToken .zero)

/-- `writeLogEntries`, of `LeaderElection`: entries and a release point from the leader with the
token. -/
def writeLogEntries (token : LeaderToken) (newLastReleased : ℕ) (entries : List LogsDBLogEntry) :
    Except LogError LogsDB := do
  let l ← l.updateLeaderToken cfg token
  let l := l.clearElectionState now
  return { l with
    data := l.data.writeLogEntries now entries
    metadata.lastReleased := max l.metadata.lastReleased newLastReleased }

/-- `_tryBecomeLeader`. -/
def tryBecomeLeader : Option LogsDB :=
  match l.election.electionState with
  | none => none
  | some es =>
    if ¬ es.requestIds.IsQuorum then some l
    else if l.metadata.nomineeToken.replica = cfg.replicaId then
      match ({ l with election.state := .leader }).updateLeaderToken cfg l.metadata.nomineeToken with
      | .ok l => some (l.clearElectionState now)
      | .error _ => none
    else none

/-! ## The phases of an election -/

/-- The elements of an array for the replicas that take part in an election: a request for each one
that has given its promise. -/
def participants (requestIds : QuorumTrackArray) (r : ReplicaId) : Option Track :=
  if r = cfg.replicaId then some .confirmed
  else if requestIds r = .confirmed then none
  else some .unused

/-- The local entries that are digested: those that an iterator meets which is placed at the release
point and moved once. -/
def localEntries (data : DataPartitions) (lastReleased : ℕ) : List LogsDBLogEntry :=
  (data.seek lastReleased).next.walk.map fun e => ⟨e.2.1, e.2.2⟩

/-- Put an entry in its slot. -/
def fillSlot (lastReleased : ℕ) (slots : List RecoverySlot) (entry : LogsDBLogEntry) :
    Option (List RecoverySlot) :=
  if lastReleased < entry.idx ∧ entry.idx - lastReleased - 1 < slots.length then
    some (slots.modify (entry.idx - lastReleased - 1) fun slot => { slot with entry := entry })
  else none

/-- Put the local entries in their slots. -/
def fillSlots (lastReleased : ℕ) (slots : List RecoverySlot) (entries : List LogsDBLogEntry) :
    Option (List RecoverySlot) :=
  entries.foldlM (fillSlot lastReleased) slots

/-- Ask for the entries of the empty slots, the first of which has the given index. -/
def askMissing (requestIds : QuorumTrackArray) (token : LeaderToken) :
    ℕ → List RecoverySlot → ReqResp → List RecoverySlot × ReqResp
  | _, [], rr => ([], rr)
  | idx, slot :: rest, rr =>
    if slot.entry.value = [] then
      let asked := rr.ask (.logRecoveryRead token idx) (participants cfg requestIds)
      let out := askMissing requestIds token (idx + 1) rest asked.1
      ({ entry := { slot.entry with idx := idx }, requestIds := asked.2 } :: out.1, out.2)
    else
      let out := askMissing requestIds token (idx + 1) rest rr
      (slot :: out.1, out.2)

/-- `_tryProgressToDigest`. -/
def tryProgressToDigest : Option LogsDB := do
  let es ← l.election.electionState
  if ¬ es.requestIds.IsQuorum then return l
  let l ← ({ l with
    reqResp := l.reqResp.cleanupRequests es.requestIds
    election.state := .digestingEntries }).setLastReleased es.lastReleased
  let entries := localEntries l.data es.lastReleased
  guard (entries.length ≤ inFlightAppendWindow)
  let slots ← fillSlots es.lastReleased es.slots entries
  let requestIds := es.requestIds.cleanup
  let out := askMissing cfg requestIds l.metadata.nomineeToken (es.lastReleased + 1) slots l.reqResp
  return { l with
    reqResp := out.2
    election.electionState := some { es with requestIds := requestIds, slots := out.1 } }

/-- The loop of `_tryProgressToLeaderConfirm`: whether all entries up to the first hole are
replicated, and up to which index they are. -/
def confirmReplicated : ℕ → List RecoverySlot → ReqResp → Bool × ℕ × List RecoverySlot × ReqResp
  | lastReleased, [], rr => (true, lastReleased, [], rr)
  | lastReleased, slot :: rest, rr =>
    if slot.entry.value = [] then (true, lastReleased, slot :: rest, rr)
    else if ¬ slot.requestIds.IsQuorum then (false, lastReleased, slot :: rest, rr)
    else
      let out := confirmReplicated slot.entry.idx rest (rr.cleanupRequests slot.requestIds)
      (out.1, out.2.1, { slot with requestIds := slot.requestIds.cleanup } :: out.2.2.1, out.2.2.2)

/-- The elements of the array for the confirmation: a request for each replica that takes part. -/
def confirmers (requestIds : QuorumTrackArray) (r : ReplicaId) : Option Track :=
  if r = cfg.replicaId then some .confirmed
  else if requestIds r = .unused then some .unused
  else none

/-- `_tryProgressToLeaderConfirm`. -/
def tryProgressToLeaderConfirm : Option LogsDB := do
  let es ← l.election.electionState
  let out := confirmReplicated es.lastReleased es.slots l.reqResp
  let l ← ({ l with
    reqResp := out.2.2.2
    election.electionState := some { es with slots := out.2.2.1 } }).setLastReleased out.2.1
  if out.1 then
    let asked := l.reqResp.ask (.newLeaderConfirm l.metadata.nomineeToken l.metadata.lastReleased)
      (confirmers cfg es.requestIds)
    return { l with
      reqResp := asked.1
      election := { l.election with
        state := .confirmingLeadership
        electionState := some { es with requestIds := asked.2, slots := out.2.2.1 } } }
  else return l

/-- The first loop of `_tryProgressToReplication`: once an entry is known to be missing, the later
ones need not be waited for.  Nothing has changed if there is no progress. -/
def clearMissing : Bool → List RecoverySlot → ReqResp → Option (List RecoverySlot × ReqResp)
  | _, [], rr => some ([], rr)
  | canMakeProgress, slot :: rest, rr =>
    if slot.entry.value = [] then
      if canMakeProgress ∨ slot.requestIds.IsQuorum then do
        let out ← clearMissing true rest (rr.cleanupRequests slot.requestIds)
        return ({ slot with requestIds := slot.requestIds.cleanup } :: out.1, out.2)
      else none
    else do
      let out ← clearMissing canMakeProgress rest rr
      return (slot :: out.1, out.2)

/-- The second loop: writes are sent for the entries before the first hole.  An entry is written
locally as often as it is sent. -/
def sendWrites (requestIds : QuorumTrackArray) (token : LeaderToken) :
    List RecoverySlot → ReqResp → List RecoverySlot × ReqResp × List LogsDBLogEntry
  | [], rr => ([], rr, [])
  | slot :: rest, rr =>
    if slot.entry.value = [] then (slot :: rest, rr, [])
    else
      let asked := rr.ask (.logRecoveryWrite token slot.entry.idx slot.entry.value)
        (participants cfg requestIds)
      let out := sendWrites requestIds token rest asked.1
      ({ slot with requestIds := asked.2 } :: out.1, out.2.1, (List.finRange 5).filterMap (fun r =>
          if participants cfg requestIds r = none then some slot.entry else none) ++ out.2.2)

/-- `_tryProgressToReplication`. -/
def tryProgressToReplication : Option LogsDB := do
  let es ← l.election.electionState
  match clearMissing false es.slots l.reqResp with
  | none => return l
  | some (slots, rr) =>
    let out := sendWrites cfg es.requestIds l.metadata.nomineeToken slots rr
    let l := { l with
      reqResp := out.2.1
      election := { l.election with
        state := .confirmingReplication
        electionState := some { es with slots := out.1 } } }
    if out.2.2 = [] then l.tryProgressToLeaderConfirm cfg
    else return { l with data := l.data.writeLogEntries now out.2.2 }

/-- `maybeStartLeaderElection`. -/
def maybeStartLeaderElection : Option LogsDB :=
  if cfg.avoidBeingLeader ∨ l.election.state ≠ .follower ∨
      now < l.election.leaderLastActive + leaderInactiveTimeout then some l
  else
    let token := l.generateNomineeToken cfg
    let l := l.setNomineeToken token
    let es : LeaderElectionState :=
      ⟨fun _ => .confirmed, l.metadata.lastReleased, List.replicate inFlightAppendWindow {}⟩
    if cfg.skipLeaderElection ∨ cfg.noReplication then
      ({ l with election := ⟨.becomingNominee, some es, now⟩ }).tryBecomeLeader cfg now
    else
      let asked := l.reqResp.ask (.newLeader token) fun r =>
        if r = cfg.replicaId then some .confirmed else none
      some { l with
        reqResp := asked.1
        election := ⟨.becomingNominee, some { es with requestIds := asked.2 }, now⟩ }

/-! ## Answers to the requests of a nominee -/

/-- `proccessNewLeaderResponse`. -/
def processNewLeaderResponse (request : LogsDBRequest) (result : Option LogError)
    (lastReleased : ℕ) : Option LogsDB := do
  guard (l.election.state = .becomingNominee)
  let es ← l.election.electionState
  guard (es.requestIds request.replicaId = .waiting request.id)
  match result with
  | none =>
    ({ l with
      reqResp := l.reqResp.eraseRequest request.id
      election.electionState := some { es with
        requestIds := Function.update es.requestIds request.replicaId .confirmed
        lastReleased := max es.lastReleased lastReleased } }).tryProgressToDigest cfg
  | some .leaderPreempted => return l.resetLeaderElection now
  | some _ => return l

/-- `proccessNewLeaderConfirmResponse`. -/
def processNewLeaderConfirmResponse (request : LogsDBRequest) (result : Option LogError) :
    Option LogsDB := do
  guard (l.election.state = .confirmingLeadership)
  let es ← l.election.electionState
  guard (es.requestIds request.replicaId = .waiting request.id)
  match result with
  | none =>
    ({ l with
      reqResp := l.reqResp.eraseRequest request.id
      election.electionState := some { es with
        requestIds := Function.update es.requestIds request.replicaId .confirmed } }).tryBecomeLeader
          cfg now
  | some .leaderPreempted => return l.resetLeaderElection now
  | some _ => return l

/-- The slot of an index, if the request is one of those that it waits for. -/
def waitingSlot (es : LeaderElectionState) (request : LogsDBRequest) (idx : ℕ) :
    Option RecoverySlot := do
  guard (es.lastReleased < idx)
  let slot ← es.slots[idx - es.lastReleased - 1]?
  guard (slot.requestIds request.replicaId = .waiting request.id)
  return slot

/-- What a replica has for an index is noted.  An answer without a value counts as a missing entry. -/
def noteRecoveryRead (es : LeaderElectionState) (request : LogsDBRequest) (idx : ℕ) (value : Bytes) :
    Option LogsDB := do
  let slot ← waitingSlot es request idx
  if value ≠ [] then
    ({ l with
      reqResp := l.reqResp.cleanupRequests slot.requestIds
      election.electionState := some { es with
        slots := es.slots.set (idx - es.lastReleased - 1)
          ⟨{ slot.entry with value := value }, slot.requestIds.cleanup⟩ } }).tryProgressToReplication
      cfg now
  else
    ({ l with
      reqResp := l.reqResp.eraseRequest request.id
      election.electionState := some { es with
        slots := es.slots.set (idx - es.lastReleased - 1) { slot with
          requestIds := Function.update slot.requestIds request.replicaId .confirmed } } }).tryProgressToReplication
      cfg now

/-- `proccessRecoveryReadResponse`. -/
def processRecoveryReadResponse (request : LogsDBRequest) (idx : ℕ) (result : Option LogError)
    (value : Bytes) : Option LogsDB := do
  guard (l.election.state = .digestingEntries)
  let es ← l.election.electionState
  match result with
  | none | some .logEntryMissing => l.noteRecoveryRead cfg now es request idx value
  | some .leaderPreempted => return l.resetLeaderElection now
  | some _ => return l

/-- `proccessRecoveryWriteResponse`. -/
def processRecoveryWriteResponse (request : LogsDBRequest) (idx : ℕ) (result : Option LogError) :
    Option LogsDB := do
  guard (l.election.state = .confirmingReplication)
  let es ← l.election.electionState
  match result with
  | none =>
    let slot ← waitingSlot es request idx
    ({ l with
      reqResp := l.reqResp.eraseRequest request.id
      election.electionState := some { es with
        slots := es.slots.set (idx - es.lastReleased - 1) { slot with
          requestIds := Function.update slot.requestIds request.replicaId .confirmed } } }).tryProgressToLeaderConfirm
        cfg
  | some .leaderPreempted => return l.resetLeaderElection now
  | some _ => return l

/-! ## Requests of a nominee -/

/-- Answer a request. -/
def respond (request : LogsDBRequest) (body : LogResp) : LogsDB :=
  { l with reqResp := l.reqResp.newResponse request.replicaId request.id body }

/-- `proccessNewLeaderRequest`. -/
def processNewLeaderRequest (request : LogsDBRequest) (nomineeToken : LeaderToken) : LogsDB :=
  if request.replicaId ≠ nomineeToken.replica then l
  else if nomineeToken.epoch ≤ l.metadata.leaderToken.epoch ∨
      nomineeToken < l.metadata.nomineeToken then
    l.respond request (.newLeader (some .leaderPreempted) 0)
  else
    let l := l.respond request (.newLeader none l.metadata.lastReleased)
    if l.metadata.nomineeToken = nomineeToken then { l with election.leaderLastActive := now }
    else (l.resetLeaderElection now).setNomineeToken nomineeToken

/-- Accept a nominee as the leader. -/
def acceptLeader (request : LogsDBRequest) (nomineeToken : LeaderToken) : LogsDB :=
  match l.updateLeaderToken cfg nomineeToken with
  | .ok l => (l.respond request (.newLeaderConfirm none)).resetLeaderElection now
  | .error e => l.respond request (.newLeaderConfirm (some e))

/-- `proccessNewLeaderConfirmRequest`. -/
def processNewLeaderConfirmRequest (request : LogsDBRequest) (nomineeToken : LeaderToken)
    (releasedIdx : ℕ) : Option LogsDB :=
  if request.replicaId ≠ nomineeToken.replica then some l
  else if l.metadata.nomineeToken = nomineeToken then
    (l.setLastReleased releasedIdx).map fun l => l.acceptLeader cfg now request nomineeToken
  else some (l.acceptLeader cfg now request nomineeToken)

/-- `proccessRecoveryReadRequest`. -/
def processRecoveryReadRequest (request : LogsDBRequest) (nomineeToken : LeaderToken) (idx : ℕ) :
    LogsDB :=
  if request.replicaId ≠ nomineeToken.replica then l
  else if nomineeToken ≠ l.metadata.nomineeToken then
    l.respond request (.logRecoveryRead (some .leaderPreempted) [])
  else
    let l := { l with election.leaderLastActive := now }
    match l.data.readLogEntry idx with
    | .ok value => l.respond request (.logRecoveryRead none value)
    | .error e => l.respond request (.logRecoveryRead (some e) [])

/-- `proccessRecoveryWriteRequest`. -/
def processRecoveryWriteRequest (request : LogsDBRequest) (nomineeToken : LeaderToken) (idx : ℕ)
    (value : Bytes) : LogsDB :=
  if request.replicaId ≠ nomineeToken.replica then l
  else if nomineeToken ≠ l.metadata.nomineeToken then
    l.respond request (.logRecoveryWrite (some .leaderPreempted))
  else
    ({ l with
      data := l.data.writeLogEntry now ⟨idx, value⟩
      election.leaderLastActive := now }).respond request (.logRecoveryWrite none)

end LogsDB

end TernFS
