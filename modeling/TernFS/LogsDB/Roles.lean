/-
# The role of a replica

Who leads is spread over three parts of a replica: the tokens of the leader and of the nominee are
metadata, the leadership state and the object that collects promises belong to the election, and the
writes of a leader come in through the batches.  This file says once what an operation can do to
these four values.  It follows that the state agrees with the tokens in every run in which a write
with a new token is accepted by followers only.
-/
import TernFS.LogsDB.Replica

namespace TernFS

open Lib Option

variable {token : LeaderToken} {idx lastReleased : ℕ} {q : LogsDBRequest} {value : Bytes} {o : Op}
  {l₁ : LogsDB}

/-- The states in which an election is going on. -/
def LeadershipState.Elects (s : LeadershipState) : Prop := s ≠ .follower ∧ s ≠ .leader

instance : DecidablePred LeadershipState.Elects := fun _ => inferInstanceAs (Decidable (_ ∧ _))

/-- The result of an answer. -/
def LogResp.result : LogResp → Option LogError
  | .release => none
  | .logWrite result => result
  | .logRead result _ => result
  | .newLeader result _ => result
  | .newLeaderConfirm result => result
  | .logRecoveryRead result _ => result
  | .logRecoveryWrite result => result

/-- The token of a leader that writes or releases. -/
def LogReq.writeToken? : LogReq → Option LeaderToken
  | .release token _ => some token
  | .logWrite token _ _ _ => some token
  | _ => none

/-- Whom a replica follows, and what it takes itself for. -/
structure LogsDBRole where
  leaderToken : LeaderToken
  nomineeToken : LeaderToken
  state : LeadershipState
  electing : Bool
deriving DecidableEq

namespace LogsDB

variable {cfg : LogsDBConfig} {now : ℕ} {l l' : LogsDB}

/-- The role of a replica. -/
def role (l : LogsDB) : LogsDBRole :=
  ⟨l.metadata.leaderToken, l.metadata.nomineeToken, l.election.state,
    l.election.electionState.isSome⟩

/-! ## The parts of an operation -/

@[simp] lemma role_respond (request : LogsDBRequest) (body : LogResp) :
    (l.respond request body).role = l.role := rfl

@[simp] lemma role_setNomineeToken (token : LeaderToken) :
    (l.setNomineeToken token).role = { l.role with nomineeToken := token } := rfl

@[simp] lemma role_clearElectionState :
    (l.clearElectionState now).role = { l.role with electing := false } := by
  unfold clearElectionState
  cases h : l.election.electionState <;> simp [role, h]

@[simp] lemma role_resetLeaderElection :
    (l.resetLeaderElection now).role = ⟨l.metadata.leaderToken, .zero, .follower, false⟩ := by
  rw [resetLeaderElection, role_clearElectionState, role_setNomineeToken]
  rfl

lemma role_setLastReleased (h : l.setLastReleased lastReleased = some l') : l'.role = l.role := by
  unfold setLastReleased at h
  split at h
  · cases h
    rfl
  · cases h

/-- A token that is accepted is not below the leader's and the nominee's.  A new one becomes the
leader's. -/
lemma role_updateLeaderToken (h : l.updateLeaderToken cfg token = .ok l') :
    l.metadata.leaderToken ≤ token ∧ l.metadata.nomineeToken ≤ token ∧
      l'.metadata.leaderToken = token ∧ l'.role = if token = l.metadata.leaderToken then l.role else
        { l.role with leaderToken := token, nomineeToken := .zero } := by
  unfold updateLeaderToken at h
  split at h
  · cases h
  rename_i hle
  rw [not_or, not_lt, not_lt] at hle
  refine ⟨hle.1, hle.2, ?_⟩
  split at h <;> rename_i heq <;> cases h
  · exact ⟨heq.symm, (if_pos heq).symm⟩
  · exact ⟨rfl, (if_neg heq).symm⟩

lemma role_writeLogEntries {entries : List LogsDBLogEntry}
    (h : l.writeLogEntries cfg now token lastReleased entries = .ok l') :
    l.metadata.leaderToken ≤ token ∧ l.metadata.nomineeToken ≤ token ∧
      l'.metadata.leaderToken = token ∧ l'.role = if token = l.metadata.leaderToken then
        { l.role with electing := false } else ⟨token, .zero, l.election.state, false⟩ := by
  cases hup : l.updateLeaderToken cfg token with
  | error =>
    rw [writeLogEntries, hup] at h
    cases h
  | ok l₁ =>
    obtain ⟨hL, hN, htoken, hrole⟩ := role_updateLeaderToken hup
    rw [writeLogEntries, hup] at h
    have hl' : l'.role = (l₁.clearElectionState now).role := by
      cases h
      rfl
    rw [role_clearElectionState] at hl'
    refine ⟨hL, hN, (congrArg LogsDBRole.leaderToken hl').trans htoken, ?_⟩
    rw [hl', hrole]
    split <;> rfl

/-- A nominee becomes the leader once it has a quorum. -/
lemma role_tryBecomeLeader (h : l.tryBecomeLeader cfg now = some l') :
    ∃ es, l.election.electionState = some es ∧ (¬ es.requestIds.IsQuorum ∧ l' = l ∨
      es.requestIds.IsQuorum ∧ l.metadata.nomineeToken.replica = cfg.replicaId ∧
      l.metadata.leaderToken ≤ l.metadata.nomineeToken ∧
      l'.role = ⟨l.metadata.nomineeToken,
        if l.metadata.nomineeToken = l.metadata.leaderToken then l.metadata.nomineeToken else .zero,
        .leader, false⟩) := by
  unfold tryBecomeLeader at h
  split at h
  · cases h
  rename_i es hes
  refine ⟨es, hes, ?_⟩
  split at h
  · rename_i hquorum
    cases h
    exact .inl ⟨hquorum, rfl⟩
  rename_i hquorum
  split at h
  · rename_i hself
    split at h
    · rename_i l₁ hup
      obtain ⟨hL, -, -, hrole⟩ := role_updateLeaderToken hup
      cases h
      refine .inr ⟨not_not.1 hquorum, hself, hL, ?_⟩
      rw [role_clearElectionState, hrole]
      by_cases heq : l.metadata.nomineeToken = l.metadata.leaderToken
      · simp [role, heq]
      · rw [if_neg heq, if_neg heq]
        rfl
    · cases h
  · cases h

/-- The election has moved on to another phase, or not. -/
def Moved (l l' : LogsDB) : Prop :=
  ∃ state : LeadershipState, (state = l.election.state ∨ state.Elects) ∧
    l'.role = { l.role with state := state }

lemma Moved.refl (l : LogsDB) : Moved l l := ⟨_, .inl rfl, rfl⟩

lemma moved_tryProgressToDigest (h : l.tryProgressToDigest cfg = some l') : Moved l l' := by
  simp only [tryProgressToDigest, bind_eq_some] at h
  obtain ⟨es, hes, h⟩ := h
  split at h
  · cases h
    exact .refl _
  simp only [bind_eq_some] at h
  obtain ⟨l₁, hl₁, -, -, slots, -, ⟨⟩⟩ := h
  refine ⟨.digestingEntries, .inr (by decide), ?_⟩
  have hrole := role_setLastReleased hl₁
  simp only [role, LogsDBRole.mk.injEq] at hrole ⊢
  exact ⟨hrole.1, hrole.2.1, hrole.2.2.1, by simp [hes]⟩

lemma moved_tryProgressToLeaderConfirm (h : l.tryProgressToLeaderConfirm cfg = some l') :
    Moved l l' := by
  simp only [tryProgressToLeaderConfirm, bind_eq_some] at h
  obtain ⟨es, hes, l₁, hl₁, h⟩ := h
  have hrole := role_setLastReleased hl₁
  simp only [role, LogsDBRole.mk.injEq] at hrole
  split at h <;> cases h
  · refine ⟨.confirmingLeadership, .inr (by decide), ?_⟩
    simp [role, hrole.1, hrole.2.1, hes]
  · refine ⟨l.election.state, .inl rfl, ?_⟩
    simp [role, hrole, hes]

lemma moved_tryProgressToReplication (h : l.tryProgressToReplication cfg now = some l') :
    Moved l l' := by
  simp only [tryProgressToReplication, bind_eq_some] at h
  obtain ⟨es, hes, h⟩ := h
  split at h
  · cases h
    exact .refl _
  split at h
  · obtain ⟨state, hstate, hrole⟩ := moved_tryProgressToLeaderConfirm h
    refine ⟨state, .inr ?_, ?_⟩
    · rcases hstate with rfl | hstate
      · exact ⟨nofun, nofun⟩
      · exact hstate
    · rw [hrole]
      simp [role, hes]
  · cases h
    refine ⟨.confirmingReplication, .inr (by decide), ?_⟩
    simp [role, hes]

/-! ## What an operation can do -/

/-- The replica starts an election of its own. -/
def StartsElection (cfg : LogsDBConfig) (now : ℕ) (l : LogsDB) : Prop :=
  ¬ cfg.avoidBeingLeader ∧ l.election.state = .follower ∧
    l.election.leaderLastActive + leaderInactiveTimeout ≤ now

instance : Decidable (StartsElection cfg now l) := inferInstanceAs (Decidable (_ ∧ _))

/-- An answer to a request of the replica says that another one is ahead of it. -/
def PreemptedBy (l : LogsDB) (resp : LogsDBResponse) : Prop :=
  resp.body.result = some .leaderPreempted ∧ (l.reqResp.getRequest resp.id).isSome ∧
    l.election.state ≠ .follower

instance (resp : LogsDBResponse) : Decidable (l.PreemptedBy resp) :=
  inferInstanceAs (Decidable (_ ∧ _))

/-- The operation writes the batch that has been collected. -/
def WritesBatch (l : LogsDB) : Op → Prop
  | .writeBatch _ => True
  | .request _ q => ∃ token ∈ q.body.writeToken?, l.batchWriter.token < token
  | _ => False

instance : DecidablePred l.WritesBatch := fun o => by
  induction o using Op.casesOn <;> unfold WritesBatch <;> infer_instance

/-- The operation accepts a batch from a leader that the replica has not followed before. -/
def FollowsNewLeader (l : LogsDB) (o : Op) : Prop :=
  l.WritesBatch o ∧ l.metadata.leaderToken < l.batchWriter.token ∧
    l.metadata.nomineeToken ≤ l.batchWriter.token

instance : DecidablePred l.FollowsNewLeader := fun _ => inferInstanceAs (Decidable (_ ∧ _))

/-- What an operation can do to the role of a replica. -/
inductive RoleStep (cfg : LogsDBConfig) (l : LogsDB) : Op → LogsDBRole → Prop
  | same {o : Op} : RoleStep cfg l o l.role
  | nominated {now : ℕ} : StartsElection cfg now l →
    RoleStep cfg l (.maybeStartLeaderElection now)
      ⟨l.metadata.leaderToken, l.generateNomineeToken cfg, .becomingNominee, true⟩
  | skipped {now : ℕ} : StartsElection cfg now l →
    RoleStep cfg l (.maybeStartLeaderElection now)
      ⟨l.generateNomineeToken cfg, .zero, .leader, false⟩
  | moved {now : ℕ} {resp : LogsDBResponse} {state : LeadershipState} :
    l.election.state.Elects → state.Elects →
    RoleStep cfg l (.response now resp) { l.role with state := state }
  | elected {now : ℕ} {resp : LogsDBResponse} : l.election.state.Elects →
    l.metadata.nomineeToken.replica = cfg.replicaId →
    l.metadata.leaderToken ≤ l.metadata.nomineeToken →
    RoleStep cfg l (.response now resp) ⟨l.metadata.nomineeToken,
      if l.metadata.nomineeToken = l.metadata.leaderToken then l.metadata.nomineeToken else .zero,
      .leader, false⟩
  | preempted {now : ℕ} {resp : LogsDBResponse} : l.PreemptedBy resp →
    RoleStep cfg l (.response now resp) ⟨l.metadata.leaderToken, .zero, .follower, false⟩
  | promised {now : ℕ} {q : LogsDBRequest} {token : LeaderToken} : q.body = .newLeader token →
    l.metadata.leaderToken.epoch < token.epoch → l.metadata.nomineeToken ≤ token →
    RoleStep cfg l (.request now q) ⟨l.metadata.leaderToken, token, .follower, false⟩
  | confirmed {now : ℕ} {q : LogsDBRequest} {token : LeaderToken} {releasedIdx : ℕ} :
    q.body = .newLeaderConfirm token releasedIdx → l.metadata.leaderToken ≤ token →
    l.metadata.nomineeToken ≤ token →
    RoleStep cfg l (.request now q) ⟨token, .zero, .follower, false⟩
  | followed {o : Op} : l.FollowsNewLeader o →
    RoleStep cfg l o ⟨l.batchWriter.token, .zero, l.election.state, false⟩
  | heard {o : Op} : l.metadata.nomineeToken ≤ l.metadata.leaderToken →
    RoleStep cfg l o { l.role with electing := false }
  | restarted {now lastRead : ℕ} :
    RoleStep cfg l (.restart now lastRead) ⟨l.metadata.leaderToken, .zero, .follower, false⟩

lemma roleStep_maybeStartLeaderElection (h : l.maybeStartLeaderElection cfg now = some l') :
    RoleStep cfg l (.maybeStartLeaderElection now) l'.role := by
  unfold maybeStartLeaderElection at h
  split at h
  · cases h
    exact .same
  rename_i hstart
  have hstarts : StartsElection cfg now l := by
    simp only [not_or, not_not, not_lt] at hstart
    exact ⟨hstart.1, hstart.2.1, hstart.2.2⟩
  have hne : l.generateNomineeToken cfg ≠ l.metadata.leaderToken := fun heq => by
    have hepoch := congrArg LeaderToken.epoch heq
    simp [generateNomineeToken] at hepoch
  split at h
  · obtain ⟨es, hes, ⟨hquorum, -⟩ | ⟨-, -, -, hrole⟩⟩ := role_tryBecomeLeader h
    · cases hes
      have hall : QuorumTrackArray.IsQuorum fun _ => .confirmed := by decide
      exact absurd hall hquorum
    have hskip : l'.role = ⟨l.generateNomineeToken cfg, .zero, .leader, false⟩ :=
      hrole.trans (congrArg (fun t => (⟨_, t, .leader, false⟩ : LogsDBRole)) (if_neg hne))
    rw [hskip]
    exact .skipped hstarts
  · cases h
    exact .nominated hstarts

lemma RoleStep.of_moved {resp : LogsDBResponse} (helects : l.election.state.Elects)
    (h : Moved l l') : RoleStep cfg l (.response now resp) l'.role := by
  obtain ⟨state, rfl | hstate, hrole⟩ := h
  · rw [hrole]
    exact .same
  · rw [hrole]
    exact .moved helects hstate

lemma RoleStep.of_tryBecomeLeader {resp : LogsDBResponse}
    (h : l₁.tryBecomeLeader cfg now = some l') (helects : l.election.state.Elects)
    (hm : l₁.metadata = l.metadata) (hrole : l₁.role = l.role) :
    RoleStep cfg l (.response now resp) l'.role := by
  obtain ⟨es, -, ⟨-, rfl⟩ | ⟨-, hself, hle, hlead⟩⟩ := role_tryBecomeLeader h
  · rw [hrole]
    exact .same
  · rw [hm] at hself hle hlead
    rw [hlead]
    exact .elected helects hself hle

lemma Moved.of_role_eq (hrole : l₁.role = l.role) (h : Moved l₁ l') : Moved l l' := by
  obtain ⟨state, hstate, h⟩ := h
  have hs : l₁.election.state = l.election.state := congrArg LogsDBRole.state hrole
  exact ⟨state, hs ▸ hstate, by rw [h, hrole]⟩

variable {request : LogsDBRequest} {result : Option LogError}

lemma moved_noteRecoveryRead {es : LeaderElectionState} (hes : l.election.electionState = some es)
    (h : l.noteRecoveryRead cfg now es request idx value = some l') : Moved l l' := by
  simp only [noteRecoveryRead, bind_eq_some] at h
  obtain ⟨slot, -, h⟩ := h
  split at h <;> refine (moved_tryProgressToReplication h).of_role_eq ?_ <;> simp [role, hes]

section

variable {resp : LogsDBResponse} (hreq : l.reqResp.getRequest resp.id = some request)
  (hresult : resp.body.result = result)
include hreq hresult

lemma roleStep_processNewLeaderResponse
    (h : l.processNewLeaderResponse cfg now request result lastReleased = some l') :
    RoleStep cfg l (.response now resp) l'.role := by
  simp only [processNewLeaderResponse, bind_eq_some, guard_eq_some'] at h
  obtain ⟨-, hstate, es, hes, -, -, h⟩ := h
  have helects : l.election.state.Elects := by rw [hstate]; decide
  split at h
  · refine .of_moved helects ((moved_tryProgressToDigest h).of_role_eq ?_)
    simp [role, hes]
  · cases h
    rw [role_resetLeaderElection]
    exact .preempted ⟨hresult, by simp [hreq], helects.1⟩
  · cases h
    exact .same

lemma roleStep_processNewLeaderConfirmResponse
    (h : l.processNewLeaderConfirmResponse cfg now request result = some l') :
    RoleStep cfg l (.response now resp) l'.role := by
  simp only [processNewLeaderConfirmResponse, bind_eq_some, guard_eq_some'] at h
  obtain ⟨-, hstate, es, hes, -, -, h⟩ := h
  have helects : l.election.state.Elects := by rw [hstate]; decide
  split at h
  · refine .of_tryBecomeLeader h helects rfl ?_
    simp [role, hes]
  · cases h
    rw [role_resetLeaderElection]
    exact .preempted ⟨hresult, by simp [hreq], helects.1⟩
  · cases h
    exact .same

lemma roleStep_processRecoveryReadResponse
    (h : l.processRecoveryReadResponse cfg now request idx result value = some l') :
    RoleStep cfg l (.response now resp) l'.role := by
  simp only [processRecoveryReadResponse, bind_eq_some, guard_eq_some'] at h
  obtain ⟨-, hstate, es, hes, h⟩ := h
  have helects : l.election.state.Elects := by rw [hstate]; decide
  split at h
  · exact .of_moved helects (moved_noteRecoveryRead hes h)
  · exact .of_moved helects (moved_noteRecoveryRead hes h)
  · cases h
    rw [role_resetLeaderElection]
    exact .preempted ⟨hresult, by simp [hreq], helects.1⟩
  · cases h
    exact .same

lemma roleStep_processRecoveryWriteResponse
    (h : l.processRecoveryWriteResponse cfg now request idx result = some l') :
    RoleStep cfg l (.response now resp) l'.role := by
  simp only [processRecoveryWriteResponse, bind_eq_some, guard_eq_some'] at h
  obtain ⟨-, hstate, es, hes, h⟩ := h
  have helects : l.election.state.Elects := by rw [hstate]; decide
  split at h
  · simp only [bind_eq_some] at h
    obtain ⟨slot, -, h⟩ := h
    refine .of_moved helects ((moved_tryProgressToLeaderConfirm h).of_role_eq ?_)
    simp [role, hes]
  · cases h
    rw [role_resetLeaderElection]
    exact .preempted ⟨hresult, by simp [hreq], helects.1⟩
  · cases h
    exact .same

lemma roleStep_processLogWriteResponse
    (h : l.processLogWriteResponse now request idx result = some l') :
    RoleStep cfg l (.response now resp) l'.role := by
  unfold processLogWriteResponse at h
  split at h
  · cases h
    exact .same
  rename_i hleader
  have hstate : l.election.state = .leader := not_not.1 hleader
  split at h
  · cases h
    rw [role_resetLeaderElection]
    exact .preempted ⟨hresult, by simp [hreq], by simp [hstate]⟩
  · cases h
    exact .same
  · simp only [bind_eq_some, guard_eq_some'] at h
    obtain ⟨-, -, e, -, -, -, h⟩ := h
    split at h <;> cases h <;> exact .same

end

lemma role_processLogReadResponse :
    (l.processLogReadResponse now idx result value).role = l.role := by
  unfold processLogReadResponse
  split
  · rfl
  · split <;> rfl

lemma roleStep_processResponse {resp : LogsDBResponse} (h : l.processResponse cfg now resp = some l') :
    RoleStep cfg l (.response now resp) l'.role := by
  unfold processResponse at h
  split at h
  · cases h
    exact .same
  rename_i request hreq
  split at h
  · unfold dispatchResponse at h
    split at h
    · exact roleStep_processLogWriteResponse hreq (by simp [*, LogResp.result]) h
    · cases h
      rw [role_processLogReadResponse]
      exact .same
    · exact roleStep_processNewLeaderResponse hreq (by simp [*, LogResp.result]) h
    · exact roleStep_processNewLeaderConfirmResponse hreq (by simp [*, LogResp.result]) h
    · exact roleStep_processRecoveryReadResponse hreq (by simp [*, LogResp.result]) h
    · exact roleStep_processRecoveryWriteResponse hreq (by simp [*, LogResp.result]) h
    · cases h
      exact .same
  · cases h
    exact .same

/-- The batch of a new leader is followed, one of the old leader only ends an election. -/
lemma roleStep_writeBatch (ho : l.WritesBatch o) :
    RoleStep cfg l o (l.writeBatch cfg now).role := by
  unfold writeBatch
  split
  · exact .same
  cases hwrite : l.writeLogEntries cfg now l.batchWriter.token l.batchWriter.lastReleased
      l.batchWriter.entries with
  | error =>
    simp only [hwrite]
    exact .same
  | ok l₁ =>
    obtain ⟨hL, hN, -, hrole⟩ := role_writeLogEntries hwrite
    simp only [hwrite]
    show RoleStep cfg l o l₁.role
    rw [hrole]
    split
    · rename_i heq
      exact .heard (heq ▸ hN)
    · rename_i hne
      exact .followed ⟨ho, lt_of_le_of_ne hL (Ne.symm hne), hN⟩

lemma roleStep_startBatch (htoken : q.body.writeToken? = some token) :
    RoleStep cfg l (.request now q) (l.startBatch cfg now token).role := by
  unfold startBatch
  split
  · rename_i hlt
    exact roleStep_writeBatch ⟨token, htoken, hlt⟩
  · exact .same

lemma roleStep_processNewLeaderRequest (hbody : q.body = .newLeader token) :
    RoleStep cfg l (.request now q) (l.processNewLeaderRequest now q token).role := by
  unfold processNewLeaderRequest
  split
  · exact .same
  split
  · exact .same
  rename_i hle
  rw [not_or, not_le, not_lt] at hle
  dsimp only
  split
  · exact .same
  · rw [role_setNomineeToken, role_resetLeaderElection]
    exact .promised hbody hle.1 hle.2

/-- The token of a confirmed nominee is the leader's afterwards, new or not. -/
lemma roleStep_acceptLeader {releasedIdx : ℕ}
    (hbody : q.body = .newLeaderConfirm token releasedIdx) (hrole : l₁.role = l.role) :
    RoleStep cfg l (.request now q) (l₁.acceptLeader cfg now q token).role := by
  have hL : l₁.metadata.leaderToken = l.metadata.leaderToken := congrArg LogsDBRole.leaderToken hrole
  have hN : l₁.metadata.nomineeToken = l.metadata.nomineeToken :=
    congrArg LogsDBRole.nomineeToken hrole
  unfold acceptLeader
  split
  · rename_i l₂ hup
    obtain ⟨hLle, hNle, htoken, -⟩ := role_updateLeaderToken hup
    rw [role_resetLeaderElection]
    show RoleStep cfg l _ ⟨l₂.metadata.leaderToken, _, _, _⟩
    rw [htoken]
    exact .confirmed hbody (hL ▸ hLle) (hN ▸ hNle)
  · rw [role_respond, hrole]
    exact .same

lemma roleStep_processNewLeaderConfirmRequest {releasedIdx : ℕ}
    (hbody : q.body = .newLeaderConfirm token releasedIdx)
    (h : l.processNewLeaderConfirmRequest cfg now q token releasedIdx = some l') :
    RoleStep cfg l (.request now q) l'.role := by
  unfold processNewLeaderConfirmRequest at h
  split at h
  · cases h
    exact .same
  split at h
  · obtain ⟨l₁, hl₁, rfl⟩ := map_eq_some_iff.1 h
    exact roleStep_acceptLeader hbody (role_setLastReleased hl₁)
  · cases h
    exact roleStep_acceptLeader hbody rfl

lemma role_processRecoveryReadRequest :
    (l.processRecoveryReadRequest now q token idx).role = l.role := by
  unfold processRecoveryReadRequest
  split
  · rfl
  split
  · rfl
  dsimp only
  split <;> rfl

lemma role_processRecoveryWriteRequest :
    (l.processRecoveryWriteRequest now q token idx value).role = l.role := by
  unfold processRecoveryWriteRequest
  split
  · rfl
  split <;> rfl

lemma role_processLogReadRequest : (l.processLogReadRequest q idx).role = l.role := by
  unfold processLogReadRequest
  split
  · rfl
  split <;> rfl

lemma roleStep_processRequest (h : l.processRequest cfg now q = some l') :
    RoleStep cfg l (.request now q) l'.role := by
  unfold processRequest at h
  split at h <;> rename_i hbody
  · cases h
    unfold processReleaseRequest
    split
    · exact .same
    split
    · exact .same
    · exact roleStep_startBatch (by rw [hbody]; rfl)
  · cases h
    unfold processLogWriteRequest
    split
    · exact .same
    split
    · exact .same
    · exact roleStep_startBatch (by rw [hbody]; rfl)
  · cases h
    rw [role_processLogReadRequest]
    exact .same
  · cases h
    exact roleStep_processNewLeaderRequest hbody
  · exact roleStep_processNewLeaderConfirmRequest hbody h
  · cases h
    rw [role_processRecoveryReadRequest]
    exact .same
  · cases h
    rw [role_processRecoveryWriteRequest]
    exact .same

lemma role_updateRelease {r : ReplicaId} (h : updateRelease l r = some l') : l'.role = l.role := by
  unfold updateRelease at h
  split at h
  · cases h
    rfl
  · cases h
  split at h
  · cases h
    rfl
  · cases h

lemma role_appendEntry (h : appendEntry cfg l value = some l') : l'.role = l.role := by
  simp only [appendEntry, bind_eq_some] at h
  obtain ⟨l₁, hl₁, ⟨⟩⟩ := h
  unfold assignLogIdx at hl₁
  split at hl₁
  · cases hl₁
    rfl
  · cases hl₁

lemma role_foldlM {α : Type*} {f : LogsDB → α → Option LogsDB}
    (hf : ∀ l a l', f l a = some l' → l'.role = l.role) {as : List α} {l l' : LogsDB}
    (h : as.foldlM f l = some l') : l'.role = l.role :=
  foldlM_invariant (motive := fun l₁ => l₁.role = l.role)
    (fun l₁ a _ l₂ hl₁ hl₂ => (hf l₁ a l₂ hl₂).trans hl₁) rfl h

/-- A leader that releases entries writes them under its own token. -/
lemma role_maybeMoveRelease (h : l.maybeMoveRelease cfg now = some l') :
    l'.role = l.role ∨ l.metadata.nomineeToken ≤ l.metadata.leaderToken ∧
      l'.role = { l.role with electing := false } := by
  unfold maybeMoveRelease at h
  split at h
  · cases h
    exact .inl rfl
  split at h
  · cases h
    exact .inl rfl
  split at h
  · cases h
    exact .inl rfl
  simp only [bind_eq_some] at h
  obtain ⟨out, -, h⟩ := h
  split at h
  · cases h
    exact .inl rfl
  split at h
  · cases h
  rename_i l₁ hwrite
  obtain ⟨-, hN, -, hrole⟩ := role_writeLogEntries hwrite
  refine .inr ⟨hN, ?_⟩
  rw [role_foldlM (fun _ _ _ => role_updateRelease) h, hrole, if_pos rfl]
  rfl

lemma roleStep_maybeMoveRelease (hrole : l₁.role = l.role)
    (h : l₁.maybeMoveRelease cfg now = some l') : RoleStep cfg l o l'.role := by
  have hL : l₁.metadata.leaderToken = l.metadata.leaderToken := congrArg LogsDBRole.leaderToken hrole
  have hN : l₁.metadata.nomineeToken = l.metadata.nomineeToken :=
    congrArg LogsDBRole.nomineeToken hrole
  obtain hsame | ⟨hle, hheard⟩ := role_maybeMoveRelease h
  · rw [hsame, hrole]
    exact .same
  · rw [hheard, hrole]
    exact .heard (hL ▸ hN ▸ hle)

lemma roleStep_appendEntries {values : List Bytes} (h : l.appendEntries cfg now values = some l') :
    RoleStep cfg l (.appendEntries now values) l'.role := by
  unfold appendEntries at h
  split at h
  · cases h
    exact .same
  simp only [bind_eq_some] at h
  obtain ⟨l₁, hl₁, h⟩ := h
  have hrole : l₁.role = l.role := role_foldlM (fun _ _ _ => role_appendEntry) hl₁
  split at h
  · exact roleStep_maybeMoveRelease hrole h
  · cases h
    rw [hrole]
    exact .same

lemma role_findMissingEntries : (l.findMissingEntries cfg).role = l.role := by
  unfold findMissingEntries
  split
  · rfl
  dsimp only
  split <;> rfl

lemma role_maybeCatchUp : (l.maybeCatchUp cfg).role = l.role := by
  unfold maybeCatchUp
  split
  · rfl
  · rw [role_findMissingEntries]
    rfl

lemma role_start {data : DataPartitions} {leaderToken : LeaderToken} {lastRead : ℕ} :
    (start cfg now data leaderToken lastReleased lastRead).role =
      ⟨leaderToken, .zero, .follower, false⟩ := by
  rw [start, role_findMissingEntries]
  rfl

lemma role_readEntries {maxEntries : ℕ} {entries : List LogsDBLogEntry}
    (h : l.readEntries maxEntries = some (l', entries)) : l'.role = l.role := by
  unfold readEntries at h
  split at h
  · cases h
    rfl
  · simp only [bind_eq_some] at h
    obtain ⟨_, -, ⟨⟩⟩ := h
    rfl

/-- What every operation can do to the role of a replica. -/
theorem roleStep_op (h : op cfg l o = some l') : RoleStep cfg l o l'.role := by
  cases o with
  | response => exact roleStep_processResponse h
  | request => exact roleStep_processRequest h
  | maybeStartLeaderElection => exact roleStep_maybeStartLeaderElection h
  | writeBatch =>
    cases h
    exact roleStep_writeBatch trivial
  | maybeMoveRelease => exact roleStep_maybeMoveRelease rfl h
  | maybeCatchUp =>
    cases h
    rw [role_maybeCatchUp]
    exact .same
  | resendTimedOutRequests =>
    cases h
    exact .same
  | appendEntries => exact roleStep_appendEntries h
  | readEntries =>
    obtain ⟨⟨l₁, entries⟩, hread, rfl⟩ := map_eq_some_iff.1 h
    rw [role_readEntries hread]
    exact .same
  | getOutgoingMessages =>
    cases h
    exact .same
  | restart =>
    simp only [op, restart] at h
    split at h
    · obtain ⟨data, -, rfl⟩ := map_eq_some_iff.1 h
      rw [role_start]
      exact .restarted
    · cases h

/-! ## The state agrees with the tokens -/

/-- A nominee, if there is one, stands for a later epoch than the leader's. -/
def NomineeOk (role : LogsDBRole) : Prop :=
  role.nomineeToken = .zero ∨ role.leaderToken.epoch < role.nomineeToken.epoch

/-- The nominee token stays ahead of the leader token in every run. -/
lemma nomineeOk_of_roleStep {role : LogsDBRole} (h : RoleStep cfg l o role)
    (hl : NomineeOk l.role) : NomineeOk role := by
  cases h with
  | same | moved | heard => exact hl
  | nominated => exact .inr (Nat.lt_succ_self _)
  | promised hbody hlt => exact .inr hlt
  | elected =>
    rcases hl with hzero | hlt
    · left
      split
      · exact hzero
      · rfl
    · have hne : l.metadata.nomineeToken ≠ l.metadata.leaderToken := fun heq => by
        simp [role, heq] at hlt
      exact .inl (if_neg hne)
  | skipped | preempted | confirmed | followed | restarted => exact .inl rfl

/-- The leadership state, the election and the tokens fit together. -/
structure RoleOk (cfg : LogsDBConfig) (role : LogsDBRole) : Prop where
  nominee : NomineeOk role
  leader : role.state = .leader → role.leaderToken.replica = cfg.replicaId
  electing : role.electing = true ↔ role.state.Elects
  nominated : role.state.Elects →
    role.nomineeToken ≠ .zero ∧ role.nomineeToken.replica = cfg.replicaId

lemma RoleOk.of_follower {nominee : LeaderToken}
    (h : NomineeOk ⟨token, nominee, .follower, false⟩) :
    RoleOk cfg ⟨token, nominee, .follower, false⟩ :=
  ⟨h, nofun, ⟨nofun, fun h => absurd rfl h.1⟩, fun h => absurd rfl h.1⟩

lemma RoleOk.of_leader (h : token.replica = cfg.replicaId) :
    RoleOk cfg ⟨token, .zero, .leader, false⟩ :=
  ⟨.inl rfl, fun _ => h, ⟨nofun, fun h => absurd rfl h.2⟩, fun h => absurd rfl h.2⟩

/-- While an election is going on the nominee token is the higher one. -/
lemma RoleOk.lt_of_elects (h : RoleOk cfg l.role) (helects : l.election.state.Elects) :
    l.metadata.leaderToken < l.metadata.nomineeToken := by
  rcases h.nominee with hzero | hlt
  · exact absurd hzero (h.nominated helects).1
  · exact LeaderToken.lt_of_epoch_lt hlt

/-- **Step lemma.** An operation keeps the parts in step, if only followers follow a new leader. -/
lemma RoleOk.step {role : LogsDBRole} (h : RoleStep cfg l o role) (hl : RoleOk cfg l.role)
    (hok : l.FollowsNewLeader o → l.election.state = .follower) : RoleOk cfg role := by
  have hnominee := nomineeOk_of_roleStep h hl.nominee
  cases h with
  | same => exact hl
  | nominated =>
    refine ⟨hnominee, nofun, ⟨fun _ => ⟨nofun, nofun⟩, fun _ => rfl⟩,
      fun _ => ⟨fun hzero => ?_, rfl⟩⟩
    have hepoch := congrArg LeaderToken.epoch hzero
    simp [generateNomineeToken, LeaderToken.zero] at hepoch
  | skipped => exact .of_leader rfl
  | moved helects hstate =>
    exact ⟨hnominee, fun h => absurd h hstate.2,
      ⟨fun _ => hstate, fun _ => hl.electing.2 helects⟩, fun _ => hl.nominated helects⟩
  | elected helects hself =>
    rw [if_neg (hl.lt_of_elects helects).ne']
    exact .of_leader hself
  | preempted | promised | confirmed | restarted => exact .of_follower hnominee
  | followed hfollows =>
    rw [hok hfollows] at hnominee ⊢
    exact .of_follower hnominee
  | heard hle =>
    -- the leader that is heard would be below the nominee if an election were going on
    have hnot : ¬ l.election.state.Elects := fun helects =>
      absurd (hl.lt_of_elects helects) (not_lt.2 hle)
    exact ⟨hnominee, hl.leader, ⟨nofun, fun h => absurd h hnot⟩, hl.nominated⟩

/-- **Run lemma.** -/
lemma RoleOk.of_run {l₀ : LogsDB} {ops : List Op} (h₀ : RoleOk cfg l₀.role)
    (hok : RunMeets (op cfg) (fun l o => l.FollowsNewLeader o → l.election.state = .follower) l₀ ops)
    (hrun : run (op cfg) l₀ ops = some l) : RoleOk cfg l.role := by
  have hstep : ∀ l o l', RoleOk cfg l.role →
      (l.FollowsNewLeader o → l.election.state = .follower) → op cfg l o = some l' →
        RoleOk cfg l'.role :=
    fun _ _ _ hl hok h => hl.step (roleStep_op h) hok
  exact run_invariant hstep h₀ hok hrun

lemma roleOk_init : RoleOk cfg (init cfg now).role := by
  exact .of_follower (.inl rfl)

/-- A leader that the leader token names can append whatever it is given. -/
lemma isSome_foldlM_appendEntry (values : List Bytes) :
    ∀ {l : LogsDB}, l.metadata.leaderToken.replica = cfg.replicaId →
      (values.foldlM (appendEntry cfg) l).isSome := by
  induction values with
  | nil => exact fun _ => rfl
  | cons value values ih =>
    intro l hself
    obtain ⟨l₁, hl₁⟩ : ∃ l₁, appendEntry cfg l value = some l₁ := by
      simp [appendEntry, assignLogIdx, hself]
    have hrole : l₁.metadata.leaderToken = l.metadata.leaderToken :=
      congrArg LogsDBRole.leaderToken (role_appendEntry hl₁)
    rw [List.foldlM_cons, hl₁]
    exact ih (hrole ▸ hself)

/-- In a run in which only followers follow a new leader, a replica that takes itself for the leader
is named by the leader token and assigns indices without failing, and there is an election exactly in
the four states of one, with a nominee token that names the replica. -/
theorem role_agrees_of_run {ops : List Op}
    (hok : RunMeets (op cfg) (fun l o => l.FollowsNewLeader o → l.election.state = .follower)
      (init cfg now) ops)
    (hrun : run (op cfg) (init cfg now) ops = some l) :
    (l.IsLeader → l.metadata.leaderToken.replica = cfg.replicaId ∧ (l.assignLogIdx cfg).isSome ∧
      ∀ values : List Bytes, (values.foldlM (appendEntry cfg) l).isSome) ∧
    (l.election.electionState.isSome ↔ l.election.state ∈ [.becomingNominee, .digestingEntries,
      .confirmingReplication, .confirmingLeadership]) ∧
    (l.election.electionState.isSome → l.metadata.nomineeToken.replica = cfg.replicaId) := by
  have h := RoleOk.of_run roleOk_init hok hrun
  have hstates : l.election.state.Elects ↔ l.election.state ∈ [.becomingNominee, .digestingEntries,
      .confirmingReplication, .confirmingLeadership] := by
    cases l.election.state <;> decide
  refine ⟨fun hleader => ?_, h.electing.trans hstates,
    fun hes => (h.nominated (h.electing.1 hes)).2⟩
  have hself : l.metadata.leaderToken.replica = cfg.replicaId := h.leader hleader
  have hassign : (l.assignLogIdx cfg).isSome := by
    rw [assignLogIdx, if_pos hself]
    rfl
  exact ⟨hself, hassign, fun values => isSome_foldlM_appendEntry values hself⟩

/-- An election of replica 0 in which replicas 1 and 2 take part: promises, a hole at the first
index, and confirmations. -/
def sampleElection : List Op :=
  roundOps (2 * 10 ^ 9) [] [] ++
  roundOps (2 * 10 ^ 9 + 1) [] [⟨1, 1, .newLeader none 0⟩, ⟨2, 2, .newLeader none 0⟩] ++
  roundOps (2 * 10 ^ 9 + 2) [] [⟨1, 5, .logRecoveryRead (some .logEntryMissing) []⟩,
    ⟨2, 6, .logRecoveryRead (some .logEntryMissing) []⟩] ++
  roundOps (2 * 10 ^ 9 + 3) [] [⟨1, 517, .newLeaderConfirm none⟩, ⟨2, 518, .newLeaderConfirm none⟩]

theorem role_agrees_elected :
    ∃ l, run (op ⟨0, false, false, false⟩) (init ⟨0, false, false, false⟩ 0) sampleElection = some l ∧
      l.IsLeader ∧ l.metadata.leaderToken.replica = 0 ∧
      ∀ values : List Bytes, (values.foldlM (appendEntry ⟨0, false, false, false⟩) l).isSome := by
  refine exists_eq_some_imp (fun l hl (hrole : l.role = ⟨⟨0, 1⟩, .zero, .leader, false⟩) => ?_)
    (by decide +kernel)
  have hleader : l.IsLeader := congrArg LogsDBRole.state hrole
  obtain ⟨hself, -, happend⟩ := (role_agrees_of_run (by decide +kernel) hl).1 hleader
  exact ⟨hleader, hself, happend⟩

/-- A release of replica 1 in a later epoch leaves replica 0 in the state of a leader.  The next
entry that is appended fails the assertion.  One in the same epoch leaves it in the state of a
nominee, without an election. -/
theorem not_role_agrees : ((run (op ⟨0, false, false, false⟩) (init ⟨0, false, false, false⟩ 0)
      (sampleElection ++ roundOps (2 * 10 ^ 9 + 4) [⟨1, 0, 1, .release ⟨1, 2⟩ 0⟩] [])).map
        fun l => (l.role, (l.appendEntries ⟨0, false, false, false⟩ (2 * 10 ^ 9 + 4) [[1]]).isSome)) =
      some (⟨⟨1, 2⟩, .zero, .leader, false⟩, false) ∧
    ((run (op ⟨0, false, false, false⟩) (init ⟨0, false, false, false⟩ 0)
      (roundOps (2 * 10 ^ 9) [] [] ++
        roundOps (2 * 10 ^ 9 + 1) [⟨1, 0, 1, .release ⟨1, 1⟩ 0⟩] [])).map role) =
      some ⟨⟨1, 1⟩, .zero, .becomingNominee, false⟩ := by
  decide +kernel

end LogsDB

end TernFS
