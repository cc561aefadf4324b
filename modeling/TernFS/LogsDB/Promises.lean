/-
# Promises

A replica that has accepted a nominee, or has given or taken an entry for one, has promised not to
follow anyone below it.  What it remembers of the promise is the nominee token, and the leader token
once the nominee has become the leader.  A promise is kept as long as these two stay up: when the
replica nominates itself, when its own nomination is turned down, and when it is started again, the
nominee token is overwritten.
-/
import TernFS.LogsDB.Roles

namespace TernFS

open Lib List

variable {token : LeaderToken} {q : LogsDBRequest}

/-- The answer to a leader or a nominee does not refuse it. -/
def LogResp.Accepts (body : LogResp) : Prop :=
  body.kind ≠ .release ∧ body.kind ≠ .logRead ∧ body.result ≠ some .leaderPreempted

instance : DecidablePred LogResp.Accepts := fun _ => inferInstanceAs (Decidable (_ ∧ _))

/-- The token of a nominee. -/
def LogReq.nomineeToken? : LogReq → Option LeaderToken
  | .newLeader token => some token
  | .newLeaderConfirm token _ => some token
  | .logRecoveryRead token _ => some token
  | .logRecoveryWrite token _ _ => some token
  | _ => none

namespace LogsDB

variable {cfg : LogsDBConfig} {now : ℕ} {l l' : LogsDB} {t : LeaderToken}

/-! ## Acknowledgements -/

/-- The tokens of the writes that wait for their batch. -/
def batchTokens (l : LogsDB) : List LeaderToken :=
  l.batchWriter.requests.filterMap (·.body.writeToken?)

/-- The tokens of the requests that an operation answers.  Writes are answered with their batch. -/
def answeredTokens (l : LogsDB) : Op → List LeaderToken
  | .request _ q =>
    match q.body.writeToken? with
    | some _ => l.batchTokens
    | none => q.body.nomineeToken?.toList
  | .writeBatch _ => l.batchTokens
  | _ => []

/-- The operation sends an answer that accepts a request with the token. -/
def Acknowledges (cfg : LogsDBConfig) (l : LogsDB) (o : Op) (token : LeaderToken) : Prop :=
  token ∈ l.answeredTokens o ∧ ∃ l' ∈ op cfg l o,
    ∃ resp ∈ l'.reqResp.responses.drop l.reqResp.responses.length, resp.body.Accepts

instance (o : Op) (token : LeaderToken) : Decidable (l.Acknowledges cfg o token) :=
  inferInstanceAs (Decidable (_ ∧ _))

/-- The replica has answered something new that accepts a request. -/
def AnswersAfter (l l' : LogsDB) : Prop :=
  ∃ resp ∈ l'.reqResp.responses.drop l.reqResp.responses.length, resp.body.Accepts

lemma not_answersAfter_of_eq (h : l'.reqResp.responses = l.reqResp.responses) :
    ¬ l.AnswersAfter l' := by
  rintro ⟨resp, hresp, -⟩
  rw [h, drop_length] at hresp
  cases hresp

lemma not_answersAfter_of_append {new : List LogsDBResponse}
    (h : l'.reqResp.responses = l.reqResp.responses ++ new)
    (hnew : ∀ resp ∈ new, ¬ resp.body.Accepts) : ¬ l.AnswersAfter l' := by
  rintro ⟨resp, hresp, haccepts⟩
  rw [h, drop_left] at hresp
  exact hnew resp hresp haccepts

lemma not_answersAfter_respond {body : LogResp} (h : ¬ body.Accepts) :
    ¬ l.AnswersAfter (l.respond q body) := by
  refine not_answersAfter_of_append rfl fun resp hresp => ?_
  obtain rfl := mem_singleton.1 hresp
  exact h

lemma responses_foldl_newResponse (body : LogResp) (reqs : List LogsDBRequest) (rr : ReqResp) :
    (reqs.foldl (fun rr req => rr.newResponse req.replicaId req.id body) rr).responses =
      rr.responses ++ reqs.map fun req => ⟨req.replicaId, req.id, body⟩ := by
  induction reqs generalizing rr with
  | nil => simp
  | cons req reqs ih =>
    rw [foldl_cons, ih]
    simp [ReqResp.newResponse]

/-- What an accepted token tells: it was not below the two tokens, and it is remembered. -/
structure Accepted (l l' : LogsDB) (token : LeaderToken) : Prop where
  leader_le : l.metadata.leaderToken ≤ token
  nominee_le : l.metadata.nomineeToken ≤ token
  remembered : token ≤ l'.metadata.leaderToken ∨ token ≤ l'.metadata.nomineeToken

lemma error_of_updateLeaderToken {e : LogError} (h : l.updateLeaderToken cfg token = .error e) :
    e = .leaderPreempted := by
  unfold updateLeaderToken at h
  split at h
  · cases h
    rfl
  · split at h <;> cases h

variable {lastReleased idx : ℕ}

lemma error_of_writeLogEntries {entries : List LogsDBLogEntry} {e : LogError}
    (h : l.writeLogEntries cfg now token lastReleased entries = .error e) :
    e = .leaderPreempted := by
  cases hup : l.updateLeaderToken cfg token with
  | error =>
    rw [writeLogEntries, hup] at h
    cases h
    exact error_of_updateLeaderToken hup
  | ok =>
    rw [writeLogEntries, hup] at h
    cases h

lemma accepted_writeBatch (h : l.AnswersAfter (l.writeBatch cfg now)) :
    Accepted l (l.writeBatch cfg now) l.batchWriter.token := by
  unfold writeBatch at h ⊢
  split at h
  · exact absurd h (not_answersAfter_of_eq rfl)
  rename_i hzero
  rw [if_neg hzero]
  cases hwrite : l.writeLogEntries cfg now l.batchWriter.token l.batchWriter.lastReleased
      l.batchWriter.entries with
  | error =>
    simp only [hwrite] at h
    refine absurd h (not_answersAfter_of_append (responses_foldl_newResponse ..) ?_)
    intro resp hresp haccepts
    obtain ⟨req, -, rfl⟩ := mem_map.1 hresp
    exact haccepts.2.2 (by rw [error_of_writeLogEntries hwrite]; rfl)
  | ok =>
    obtain ⟨hL, hN, htoken, -⟩ := role_writeLogEntries hwrite
    simp only [hwrite]
    exact ⟨hL, hN, .inl htoken.ge⟩

lemma accepted_startBatch (h : l.AnswersAfter (l.startBatch cfg now token)) :
    l.batchWriter.token < token ∧
      Accepted l (l.startBatch cfg now token) l.batchWriter.token := by
  unfold startBatch at h ⊢
  split at h
  · rename_i hlt
    rw [if_pos hlt]
    have hwritten := accepted_writeBatch h
    exact ⟨hlt, hwritten.1, hwritten.2, hwritten.3⟩
  · exact absurd h (not_answersAfter_of_eq rfl)

lemma accepted_processNewLeaderRequest
    (h : l.AnswersAfter (l.processNewLeaderRequest now q token)) :
    Accepted l (l.processNewLeaderRequest now q token) token := by
  unfold processNewLeaderRequest at h ⊢
  split at h
  · exact absurd h (not_answersAfter_of_eq rfl)
  rename_i hsender
  rw [if_neg hsender]
  split at h
  · exact absurd h (not_answersAfter_respond (by decide))
  rename_i hle
  rw [if_neg hle]
  rw [not_or, not_le, not_lt] at hle
  refine ⟨(LeaderToken.lt_of_epoch_lt hle.1).le, hle.2, .inr ?_⟩
  dsimp only
  split
  · rename_i heq
    exact heq.ge
  · exact le_rfl

lemma accepted_acceptLeader {l₁ : LogsDB} (hrole : l₁.role = l.role)
    (hresp : l₁.reqResp = l.reqResp) (h : l.AnswersAfter (l₁.acceptLeader cfg now q token)) :
    Accepted l (l₁.acceptLeader cfg now q token) token := by
  unfold acceptLeader at h ⊢
  cases hup : l₁.updateLeaderToken cfg token with
  | error =>
    obtain rfl := error_of_updateLeaderToken hup
    rw [hup] at h
    refine absurd h (not_answersAfter_of_append
      (congrArg (fun rr : ReqResp => rr.responses ++ _) hresp) ?_)
    intro resp hresp haccepts
    obtain rfl := mem_singleton.1 hresp
    exact haccepts.2.2 rfl
  | ok l₂ =>
    obtain ⟨hL, hN, htoken, -⟩ := role_updateLeaderToken hup
    have hL₁ : l₁.metadata.leaderToken = l.metadata.leaderToken :=
      congrArg LogsDBRole.leaderToken hrole
    have hN₁ : l₁.metadata.nomineeToken = l.metadata.nomineeToken :=
      congrArg LogsDBRole.nomineeToken hrole
    have hreset : ((l₂.respond q (.newLeaderConfirm none)).resetLeaderElection
        now).metadata.leaderToken = l₂.metadata.leaderToken :=
      congrArg LogsDBRole.leaderToken role_resetLeaderElection
    exact ⟨hL₁ ▸ hL, hN₁ ▸ hN, .inl (hreset.trans htoken).ge⟩

lemma reqResp_setLastReleased (h : l.setLastReleased lastReleased = some l') :
    l'.reqResp = l.reqResp := by
  unfold setLastReleased at h
  split at h
  · cases h
    rfl
  · cases h

lemma accepted_processNewLeaderConfirmRequest {releasedIdx : ℕ}
    (hop : l.processNewLeaderConfirmRequest cfg now q token releasedIdx = some l')
    (h : l.AnswersAfter l') : Accepted l l' token := by
  unfold processNewLeaderConfirmRequest at hop
  split at hop
  · cases hop
    exact absurd h (not_answersAfter_of_eq rfl)
  split at hop
  · obtain ⟨l₁, hl₁, rfl⟩ := Option.map_eq_some_iff.1 hop
    exact accepted_acceptLeader (role_setLastReleased hl₁) (reqResp_setLastReleased hl₁) h
  · cases hop
    exact accepted_acceptLeader rfl rfl h

/-- Entries are given and taken for the nominee alone.  Without one, the token of no one would pass. -/
lemma accepted_of_nominee (hl : NomineeOk l.role) (hzero : token ≠ .zero)
    (hnominee : token = l.metadata.nomineeToken) (hrole : l'.role = l.role) :
    Accepted l l' token := by
  have hN : l'.metadata.nomineeToken = l.metadata.nomineeToken :=
    congrArg LogsDBRole.nomineeToken hrole
  rcases hl with hnone | hlt
  · exact absurd (hnominee.trans hnone) hzero
  · exact ⟨hnominee ▸ (LeaderToken.lt_of_epoch_lt hlt).le, hnominee.ge, .inr (hN ▸ hnominee.le)⟩

lemma eq_nominee_of_processRecoveryReadRequest
    (h : l.AnswersAfter (l.processRecoveryReadRequest now q token idx)) :
    token = l.metadata.nomineeToken := by
  unfold processRecoveryReadRequest at h
  split at h
  · exact absurd h (not_answersAfter_of_eq rfl)
  split at h
  · exact absurd h (not_answersAfter_respond (by decide))
  · exact not_not.1 ‹_›

lemma eq_nominee_of_processRecoveryWriteRequest {value : Bytes}
    (h : l.AnswersAfter (l.processRecoveryWriteRequest now q token idx value)) :
    token = l.metadata.nomineeToken := by
  unfold processRecoveryWriteRequest at h
  split at h
  · exact absurd h (not_answersAfter_of_eq rfl)
  split at h
  · exact absurd h (not_answersAfter_respond (by decide))
  · exact not_not.1 ‹_›

/-! ## Promises -/

/-- The replica remembers that it has accepted the token. -/
def Remembers (l : LogsDB) (t : LeaderToken) : Prop :=
  t ≤ l.metadata.leaderToken ∨ t ≤ l.metadata.nomineeToken

/-- All writes of the batch carry its token.  This is so unless writes with the token of no one have
been collected, which are left for the next batch. -/
def BatchOk (l : LogsDB) : Prop := ∀ token ∈ l.batchTokens, token = l.batchWriter.token

instance : Decidable l.BatchOk := inferInstanceAs (Decidable (∀ token ∈ _, _))

/-- The operation does not make the replica forget the token: its own nomination is not below it, and
it is not above the leader token when a nomination is turned down or the replica restarts.  No one
reads or writes entries with the token of no one. -/
def KeepsPromise (cfg : LogsDBConfig) (t : LeaderToken) (l : LogsDB) : Op → Prop
  | .maybeStartLeaderElection now => StartsElection cfg now l → t ≤ l.generateNomineeToken cfg
  | .response _ resp => l.PreemptedBy resp → t ≤ l.metadata.leaderToken
  | .restart _ _ => t ≤ l.metadata.leaderToken
  | .request _ q => q.body.nomineeToken? ≠ some .zero ∧
      ∀ token ∈ q.body.writeToken?, l.batchWriter.token < token → l.BatchOk
  | .writeBatch _ => l.BatchOk
  | _ => True

instance (o : Op) : Decidable (KeepsPromise cfg t l o) := by
  induction o using Op.casesOn <;> unfold KeepsPromise <;> infer_instance

/-- **Step lemma.** -/
lemma Remembers.step {o : Op} (h : op cfg l o = some l') (hl : l.Remembers t)
    (hok : KeepsPromise cfg t l o) : l'.Remembers t := by
  have hrole := roleStep_op h
  have hle : ∀ token, l.metadata.leaderToken ≤ token → l.metadata.nomineeToken ≤ token → t ≤ token :=
    fun token hL hN => hl.elim hL.trans' hN.trans'
  show t ≤ l'.role.leaderToken ∨ t ≤ l'.role.nomineeToken
  generalize l'.role = role at hrole
  cases hrole with
  | same | moved | heard => exact hl
  | nominated hstart => exact .inr (hok hstart)
  | skipped hstart => exact .inl (hok hstart)
  | elected helects hself hLN => exact .inl (hle _ hLN le_rfl)
  | preempted hpreempted => exact .inl (hok hpreempted)
  | promised hbody hlt hN => exact hl.imp_right hN.trans'
  | confirmed hbody hL hN => exact .inl (hle _ hL hN)
  | followed hfollows => exact .inl (hle _ hfollows.2.1.le hfollows.2.2)
  | restarted => exact .inl hok

/-- **Run lemma.** -/
lemma Remembers.of_run {ops : List Op} (hl : l.Remembers t)
    (hok : RunMeets (op cfg) (KeepsPromise cfg t) l ops) (hrun : run (op cfg) l ops = some l') :
    l'.Remembers t := by
  have hstep : ∀ l o l', l.Remembers t → KeepsPromise cfg t l o → op cfg l o = some l' →
      l'.Remembers t :=
    fun _ _ _ hl hok h => hl.step h hok
  exact run_invariant hstep hl hok hrun

lemma nomineeOk_of_run {ops : List Op} (hl : NomineeOk l.role)
    (hrun : run (op cfg) l ops = some l') : NomineeOk l'.role := by
  have hstep : ∀ l o l', NomineeOk l.role → op cfg l o = some l' → NomineeOk l'.role :=
    fun _ _ _ hl h => nomineeOk_of_roleStep (roleStep_op h) hl
  exact run_preserves hstep hl hrun

/-- A token that is acknowledged was not below what the replica remembers, which then includes it. -/
lemma Acknowledges.accepted {o : Op} (hl : NomineeOk l.role) (h : l.Acknowledges cfg o token)
    (hop : op cfg l o = some l') (hkeeps : KeepsPromise cfg t l o) : Accepted l l' token := by
  obtain ⟨htoken, l₁, hl₁, hanswers⟩ := h
  obtain rfl : l' = l₁ := Option.mem_unique hop hl₁
  cases o with
  | writeBatch =>
    cases hop
    rw [hkeeps token htoken]
    exact accepted_writeBatch hanswers
  | request now q =>
    obtain ⟨hzero, hbatch⟩ := hkeeps
    simp only [op, processRequest] at hop
    simp only [answeredTokens] at htoken
    split at hop <;> rename_i hbody <;> rw [hbody] at htoken hzero hbatch
    · cases hop
      unfold processReleaseRequest at hanswers ⊢
      split at hanswers
      · exact absurd hanswers (not_answersAfter_of_eq rfl)
      rename_i hsender
      rw [if_neg hsender]
      split at hanswers
      · exact absurd hanswers (not_answersAfter_of_eq rfl)
      rename_i hlt
      rw [if_neg hlt]
      obtain ⟨hlt', hstarted⟩ := accepted_startBatch hanswers
      rw [hbatch _ rfl hlt' token htoken]
      exact ⟨hstarted.1, hstarted.2, hstarted.3⟩
    · cases hop
      unfold processLogWriteRequest at hanswers ⊢
      split at hanswers
      · exact absurd hanswers (not_answersAfter_of_eq rfl)
      rename_i hsender
      rw [if_neg hsender]
      split at hanswers
      · exact absurd hanswers (not_answersAfter_respond (by decide))
      rename_i hlt
      rw [if_neg hlt]
      obtain ⟨hlt', hstarted⟩ := accepted_startBatch hanswers
      rw [hbatch _ rfl hlt' token htoken]
      exact ⟨hstarted.1, hstarted.2, hstarted.3⟩
    · cases htoken
    · cases hop
      obtain rfl := mem_singleton.1 htoken
      exact accepted_processNewLeaderRequest hanswers
    · obtain rfl := mem_singleton.1 htoken
      exact accepted_processNewLeaderConfirmRequest hop hanswers
    · cases hop
      obtain rfl := mem_singleton.1 htoken
      exact accepted_of_nominee hl (fun h => hzero (congrArg some h))
        (eq_nominee_of_processRecoveryReadRequest hanswers) role_processRecoveryReadRequest
    · cases hop
      obtain rfl := mem_singleton.1 htoken
      exact accepted_of_nominee hl (fun h => hzero (congrArg some h))
        (eq_nominee_of_processRecoveryWriteRequest hanswers) role_processRecoveryWriteRequest
  | _ => cases htoken

/-- A replica that has acknowledged a token acknowledges no smaller one later, as long as no operation
in between makes it forget the token. -/
theorem acknowledges_of_promise {ops₁ ops₂ : List Op} {o o' : Op} {l₁ l₂ : LogsDB}
    {t token : LeaderToken} (hrun : run (op cfg) (init cfg now) ops₁ = some l)
    (hpromise : l.Acknowledges cfg o t) (hkeeps : KeepsPromise cfg t l o)
    (hop : op cfg l o = some l₁) (hok : RunMeets (op cfg) (KeepsPromise cfg t) l₁ ops₂)
    (hrun₂ : run (op cfg) l₁ ops₂ = some l₂) (hkeeps' : KeepsPromise cfg t l₂ o')
    (hack : l₂.Acknowledges cfg o' token) : t ≤ token := by
  have hl : NomineeOk l.role := nomineeOk_of_run roleOk_init.nominee hrun
  have hl₂ : NomineeOk l₂.role :=
    nomineeOk_of_run (nomineeOk_of_roleStep (roleStep_op hop) hl) hrun₂
  have hremembers : l₂.Remembers t :=
    Remembers.of_run (hpromise.accepted hl hop hkeeps).remembered hok hrun₂
  obtain ⟨-, l₃, hl₃, -⟩ := id hack
  have haccepted := hack.accepted hl₂ hl₃ hkeeps'
  exact hremembers.elim haccepted.leader_le.trans' haccepted.nominee_le.trans'

/-- A request for leadership. -/
def sampleNomination (now : ℕ) (r : ReplicaId) (epoch : ℕ) : Op :=
  .request now ⟨r, 0, 1, .newLeader ⟨r, epoch⟩⟩

theorem acknowledges_after_nomination :
    ∃ l₁ l₂, op ⟨1, false, false, false⟩ (init ⟨1, false, false, false⟩ 0) (sampleNomination 1 2 1) =
        some l₁ ∧
      run (op ⟨1, false, false, false⟩) l₁ (roundOps 1 [] []) = some l₂ ∧
      l₂.Acknowledges ⟨1, false, false, false⟩ (sampleNomination 2 3 1) ⟨3, 1⟩ ∧
      (⟨2, 1⟩ : LeaderToken) ≤ ⟨3, 1⟩ := by
  have hpromise : (init ⟨1, false, false, false⟩ 0).Acknowledges ⟨1, false, false, false⟩
      (sampleNomination 1 2 1) ⟨2, 1⟩ := by decide +kernel
  have hinit : run (op ⟨1, false, false, false⟩) (init ⟨1, false, false, false⟩ 0) [] = some _ := rfl
  simp only [exists_and_left]
  refine exists_eq_some_imp (fun l₁ hl₁ (h : RunMeets (op ⟨1, false, false, false⟩)
      (KeepsPromise ⟨1, false, false, false⟩ ⟨2, 1⟩) l₁ (roundOps 1 [] []) ∧ _) =>
    exists_eq_some_imp (fun l₂ hl₂ hack => ⟨hack, ?_⟩) h.2) (by decide +kernel)
  have hkeeps' : KeepsPromise ⟨1, false, false, false⟩ ⟨2, 1⟩ l₂ (sampleNomination 2 3 1) := by
    simp [KeepsPromise, sampleNomination, LogReq.nomineeToken?, LogReq.writeToken?,
      LeaderToken.zero]
  exact acknowledges_of_promise hinit hpromise (by decide +kernel) hl₁ h.1 hl₂ hkeeps' hack

/-- Three ways to forget a promise.  Replica 1 has promised to follow nominee 0 in epoch 2, nominates
itself in epoch 1, and accepts nominee 2 in epoch 1.  Replica 3 has promised to follow nominee 2,
nominates itself, is turned down, and accepts nominee 0 in the same epoch.  Replica 1 has promised to
follow nominee 2, restarts, and accepts nominee 0. -/
theorem not_acknowledges_of_promise :
    ((init ⟨1, false, false, false⟩ 0).Acknowledges ⟨1, false, false, false⟩
        (sampleNomination 1 0 2) ⟨0, 2⟩ ∧
      ∃ l ∈ run (op ⟨1, false, false, false⟩) (init ⟨1, false, false, false⟩ 0)
          (sampleNomination 1 0 2 :: roundOps 1 [] [] ++ roundOps (2 * 10 ^ 9) [] []),
        l.Acknowledges ⟨1, false, false, false⟩ (sampleNomination (2 * 10 ^ 9 + 1) 2 1) ⟨2, 1⟩) ∧
    ((init ⟨3, false, false, false⟩ 0).Acknowledges ⟨3, false, false, false⟩
        (sampleNomination 1 2 1) ⟨2, 1⟩ ∧
      ∃ l ∈ run (op ⟨3, false, false, false⟩) (init ⟨3, false, false, false⟩ 0)
          (sampleNomination 1 2 1 :: roundOps 1 [] [] ++ roundOps (2 * 10 ^ 9) [] [] ++
            roundOps (2 * 10 ^ 9 + 1) [] [⟨4, 4, .newLeader (some .leaderPreempted) 0⟩]),
        l.Acknowledges ⟨3, false, false, false⟩ (sampleNomination (2 * 10 ^ 9 + 2) 0 1) ⟨0, 1⟩) ∧
    ((init ⟨1, false, false, false⟩ 0).Acknowledges ⟨1, false, false, false⟩
        (sampleNomination 1 2 1) ⟨2, 1⟩ ∧
      ∃ l ∈ run (op ⟨1, false, false, false⟩) (init ⟨1, false, false, false⟩ 0)
          (sampleNomination 1 2 1 :: roundOps 1 [] [] ++ [.restart 2 0]),
        l.Acknowledges ⟨1, false, false, false⟩ (sampleNomination 3 0 1) ⟨0, 1⟩) := by
  decide +kernel

end LogsDB

end TernFS
