/-
# Messages of the log and the requests that wait for an answer

The replicas of a log send each other requests and answer them.  A request that waits for an answer
is kept under its id and sent again until it is erased, so an answer is matched by the id, the
replica and the kind.  For what a quorum has to agree on there is an array that says for every
replica whether it has agreed, which request waits for it, or that it is not asked.
-/
import TernFS.LogsDB.Partitions
import Mathlib.Algebra.GroupWithZero.Nat
import Mathlib.Order.Basic
import Mathlib.Data.Fintype.Basic
import Mathlib.Data.Fintype.Fin

namespace TernFS

open Lib List Function

/-! ## Tokens -/

/-- `ReplicaId`. -/
abbrev ReplicaId := Fin 5

instance replicas_ne_zero : NeZero 5 := ⟨by decide⟩

/-- `LeaderToken`: an epoch and the replica that leads in it. -/
structure LeaderToken where
  replica : ReplicaId
  epoch : ℕ
deriving DecidableEq

namespace LeaderToken

/-- The number by which tokens are compared. -/
def u64 (t : LeaderToken) : ℕ := t.epoch * 8 + t.replica

/-- The token of no one, below all others. -/
def zero : LeaderToken := ⟨0, 0⟩

lemma u64_injective : Function.Injective u64 := by
  rintro ⟨r, e⟩ ⟨r', e'⟩ h
  simp only [u64] at h
  obtain rfl : e = e' := by omega
  obtain rfl : r = r' := Fin.ext (by omega)
  rfl

instance : LinearOrder LeaderToken := LinearOrder.lift' u64 u64_injective

lemma lt_def {a b : LeaderToken} : a < b ↔ a.u64 < b.u64 := Iff.rfl

lemma lt_of_epoch_lt {a b : LeaderToken} (h : a.epoch < b.epoch) : a < b := by
  simp only [lt_def, u64]
  omega

end LeaderToken

/-! ## Messages -/

/-- The requests of the replicas (`LogReqMsg`). -/
inductive LogReq
  | release (token : LeaderToken) (lastReleased : ℕ)
  | logWrite (token : LeaderToken) (lastReleased idx : ℕ) (value : Bytes)
  | logRead (idx : ℕ)
  | newLeader (nomineeToken : LeaderToken)
  | newLeaderConfirm (nomineeToken : LeaderToken) (releasedIdx : ℕ)
  | logRecoveryRead (nomineeToken : LeaderToken) (idx : ℕ)
  | logRecoveryWrite (nomineeToken : LeaderToken) (idx : ℕ) (value : Bytes)
deriving DecidableEq

/-- The answers to requests (`LogRespMsg`).  A result without an error is `NO_ERROR`. -/
inductive LogResp
  | release
  | logWrite (result : Option LogError)
  | logRead (result : Option LogError) (value : Bytes)
  | newLeader (result : Option LogError) (lastReleased : ℕ)
  | newLeaderConfirm (result : Option LogError)
  | logRecoveryRead (result : Option LogError) (value : Bytes)
  | logRecoveryWrite (result : Option LogError)
deriving DecidableEq

/-- `LogMessageKind`. -/
inductive LogMessageKind
  | release
  | logWrite
  | logRead
  | newLeader
  | newLeaderConfirm
  | logRecoveryRead
  | logRecoveryWrite
deriving DecidableEq

/-- The kind of a request. -/
def LogReq.kind : LogReq → LogMessageKind
  | release .. => .release
  | logWrite .. => .logWrite
  | logRead .. => .logRead
  | newLeader .. => .newLeader
  | newLeaderConfirm .. => .newLeaderConfirm
  | logRecoveryRead .. => .logRecoveryRead
  | logRecoveryWrite .. => .logRecoveryWrite

/-- The kind of an answer. -/
def LogResp.kind : LogResp → LogMessageKind
  | release => .release
  | logWrite .. => .logWrite
  | logRead .. => .logRead
  | newLeader .. => .newLeader
  | newLeaderConfirm .. => .newLeaderConfirm
  | logRecoveryRead .. => .logRecoveryRead
  | logRecoveryWrite .. => .logRecoveryWrite

/-- `LogsDBRequest`.  The replica is the one that it is sent to, and for a request that has been
received the one that it comes from. -/
structure LogsDBRequest where
  replicaId : ReplicaId
  sentTime : ℕ := 0
  id : ℕ
  body : LogReq
deriving DecidableEq

/-- `LogsDBResponse`. -/
structure LogsDBResponse where
  replicaId : ReplicaId
  id : ℕ
  body : LogResp
deriving DecidableEq

/-! ## Quorums -/

/-- An element of a `QuorumTrackArray`: `CONFIRMED_REQ_ID`, `UNUSED_REQ_ID` or a request. -/
inductive Track
  | confirmed
  | unused
  | waiting (id : ℕ)
deriving DecidableEq

/-- `QuorumTrackArray`. -/
abbrev QuorumTrackArray := ReplicaId → Track

namespace QuorumTrackArray

/-- `isQuorum`. -/
def IsQuorum (t : QuorumTrackArray) : Prop :=
  5 / 2 < (List.finRange 5).countP fun r => t r = .confirmed

instance (t : QuorumTrackArray) : Decidable t.IsQuorum := inferInstanceAs (Decidable (_ < _))

/-- The request is one of those that are waited for. -/
def Waits (t : QuorumTrackArray) (id : ℕ) : Prop := ∃ r, t r = .waiting id

instance (t : QuorumTrackArray) (id : ℕ) : Decidable (t.Waits id) :=
  inferInstanceAs (Decidable (∃ _, _))

/-- `cleanupRequests`, for the array: what was waited for is not asked any more. -/
def cleanup (t : QuorumTrackArray) : QuorumTrackArray := fun r =>
  match t r with
  | .waiting _ => .unused
  | track => track

lemma cleanup_eq_confirmed_iff {t : QuorumTrackArray} {r : ReplicaId} :
    t.cleanup r = .confirmed ↔ t r = .confirmed := by
  unfold cleanup
  cases t r <;> simp

lemma not_waits_cleanup (t : QuorumTrackArray) (id : ℕ) : ¬ t.cleanup.Waits id := by
  rintro ⟨r, hr⟩
  unfold cleanup at hr
  cases h : t r <;> rw [h] at hr <;> cases hr

end QuorumTrackArray

/-! ## Requests that wait for an answer -/

/-- `RESPONSE_TIMEOUT`. -/
def responseTimeout : ℕ := 10 * 10 ^ 6

/-- `READ_TIMEOUT`. -/
def readTimeout : ℕ := 10 ^ 9

/-- `SEND_RELEASE_INTERVAL`. -/
def sendReleaseInterval : ℕ := 300 * 10 ^ 6

/-- `ReqResp`.  The requests are listed with the latest first. -/
structure ReqResp where
  lastAssignedRequest : ℕ := 0
  requests : List LogsDBRequest := []
  requestsToSend : List LogsDBRequest := []
  responses : List LogsDBResponse := []

namespace ReqResp

variable (rr : ReqResp)

/-- `newRequest`, with the message that is put in it. -/
def newRequest (target : ReplicaId) (body : LogReq) : ReqResp :=
  { rr with
    lastAssignedRequest := rr.lastAssignedRequest + 1
    requests := { replicaId := target, id := rr.lastAssignedRequest + 1, body := body } ::
      rr.requests }

/-- `getRequest`. -/
def getRequest (id : ℕ) : Option LogsDBRequest := rr.requests.find? fun q => q.id = id

/-- `eraseRequest`. -/
def eraseRequest (id : ℕ) : ReqResp :=
  { rr with requests := rr.requests.filter fun q => q.id ≠ id }

/-- `cleanupRequests`, for the requests. -/
def cleanupRequests (t : QuorumTrackArray) : ReqResp :=
  { rr with requests := rr.requests.filter fun q => ¬ t.Waits q.id }

/-- `newResponse`, with the message that is put in it. -/
def newResponse (target : ReplicaId) (id : ℕ) (body : LogResp) : ReqResp :=
  { rr with responses := rr.responses ++ [⟨target, id, body⟩] }

/-- The time after which a request is sent again. -/
def timeout : LogReq → ℕ
  | .release .. => sendReleaseInterval
  | .logRead .. => readTimeout
  | _ => responseTimeout

/-- `resendTimedOutRequests`. -/
def resendTimedOutRequests (now : ℕ) : ReqResp :=
  let due := fun q : LogsDBRequest => decide (q.sentTime + timeout q.body < now)
  { rr with
    requests := rr.requests.map fun q => if due q then { q with sentTime := now } else q
    requestsToSend := rr.requestsToSend ++
      (rr.requests.filter due).map fun q => { q with sentTime := now } }

/-- Ask the replicas of a list one after the other, apart from those whose element of the array is
given. -/
def askEach (body : LogReq) (given : ReplicaId → Option Track) :
    List ReplicaId → ReqResp → QuorumTrackArray → ReqResp × QuorumTrackArray
  | [], rr, t => (rr, t)
  | r :: rest, rr, t =>
    match given r with
    | some track => askEach body given rest rr (update t r track)
    | none =>
      askEach body given rest (rr.newRequest r body)
        (update t r (.waiting (rr.lastAssignedRequest + 1)))

/-- The loop over all replicas that fills an array: a request to each one whose element is not
given. -/
def ask (body : LogReq) (given : ReplicaId → Option Track) : ReqResp × QuorumTrackArray :=
  askEach body given (List.finRange 5) rr fun _ => .confirmed

variable {rr}

lemma mem_of_getRequest {id : ℕ} {q : LogsDBRequest} (h : rr.getRequest id = some q) :
    q ∈ rr.requests ∧ q.id = id :=
  ⟨mem_of_find?_eq_some h, by simpa using find?_some h⟩

/-- What asking does: requests are added for the replicas whose element is not given. -/
structure Asked (body : LogReq) (given : ReplicaId → Option Track) (replicas : List ReplicaId)
    (rr rr' : ReqResp) (t t' : QuorumTrackArray) : Prop where
  requestsToSend : rr'.requestsToSend = rr.requestsToSend
  responses : rr'.responses = rr.responses
  lastAssignedRequest : rr.lastAssignedRequest ≤ rr'.lastAssignedRequest
  kept : ∀ q ∈ rr.requests, q ∈ rr'.requests
  new : ∀ q ∈ rr'.requests, q ∈ rr.requests ∨ (q.body = body ∧ q.replicaId ∈ replicas ∧
    given q.replicaId = none ∧ rr.lastAssignedRequest < q.id ∧ q.id ≤ rr'.lastAssignedRequest ∧
    t' q.replicaId = .waiting q.id)
  untouched : ∀ r, r ∉ replicas → t' r = t r
  of_given : ∀ r ∈ replicas, ∀ track, given r = some track → t' r = track
  of_none : ∀ r ∈ replicas, given r = none → ∃ q ∈ rr'.requests, q.body = body ∧
    q.replicaId = r ∧ t' r = .waiting q.id

lemma asked_askEach {body : LogReq} {given : ReplicaId → Option Track} {replicas : List ReplicaId}
    (hnodup : replicas.Nodup) (rr : ReqResp) (t : QuorumTrackArray) :
    Asked body given replicas rr (askEach body given replicas rr t).1 t
      (askEach body given replicas rr t).2 := by
  induction replicas generalizing rr t with
  | nil =>
    exact ⟨rfl, rfl, le_rfl, fun _ h => h, fun _ h => .inl h, fun _ _ => rfl, nofun, nofun⟩
  | cons r rest ih =>
    obtain ⟨hr, hrest⟩ := nodup_cons.1 hnodup
    cases hgiven : given r with
    | some track =>
      have h := ih hrest rr (update t r track)
      simp only [askEach, hgiven]
      refine ⟨h.requestsToSend, h.responses, h.lastAssignedRequest, h.kept, fun q hq => ?_,
        fun x hx => ?_, fun x hx tr htr => ?_, fun x hx hnone => ?_⟩
      · refine (h.new q hq).imp_right fun ⟨h₁, h₂, h₃⟩ => ⟨h₁, mem_cons_of_mem _ h₂, h₃⟩
      · obtain ⟨hxr, hx⟩ := not_or.1 (mem_cons.not.1 hx)
        rw [h.untouched x hx, update_of_ne hxr]
      · rcases mem_cons.1 hx with rfl | hx
        · rw [h.untouched x hr, update_self]
          exact Option.mem_unique hgiven htr
        · exact h.of_given x hx tr htr
      · rcases mem_cons.1 hx with rfl | hx
        · rw [hgiven] at hnone
          cases hnone
        · exact h.of_none x hx hnone
    | none =>
      have h := ih hrest (rr.newRequest r body) (update t r (.waiting (rr.lastAssignedRequest + 1)))
      have hlast : rr.lastAssignedRequest + 1 ≤ (askEach body given rest (rr.newRequest r body)
            (update t r (.waiting (rr.lastAssignedRequest + 1)))).1.lastAssignedRequest :=
        h.lastAssignedRequest
      have htrack : (askEach body given rest (rr.newRequest r body)
          (update t r (.waiting (rr.lastAssignedRequest + 1)))).2 r =
            .waiting (rr.lastAssignedRequest + 1) := by
        rw [h.untouched r hr, update_self]
      simp only [askEach, hgiven]
      refine ⟨h.requestsToSend, h.responses, by omega, fun q hq => ?_, fun q hq => ?_,
        fun x hx => ?_, fun x hx tr htr => ?_, fun x hx hnone => ?_⟩
      · exact h.kept q (mem_cons_of_mem _ hq)
      · rcases h.new q hq with hq | ⟨h₁, h₂, h₃, h₄, h₅⟩
        · rcases mem_cons.1 hq with rfl | hq
          · exact .inr ⟨rfl, mem_cons_self .., hgiven, by simp, hlast, htrack⟩
          · exact .inl hq
        · have h₄' : rr.lastAssignedRequest + 1 < q.id := h₄
          exact .inr ⟨h₁, mem_cons_of_mem _ h₂, h₃, by omega, h₅⟩
      · obtain ⟨hxr, hx⟩ := not_or.1 (mem_cons.not.1 hx)
        rw [h.untouched x hx, update_of_ne hxr]
      · rcases mem_cons.1 hx with rfl | hx
        · rw [hgiven] at htr
          cases htr
        · exact h.of_given x hx tr htr
      · rcases mem_cons.1 hx with rfl | hx
        · exact ⟨_, h.kept _ (mem_cons_self ..), rfl, rfl, htrack⟩
        · exact h.of_none x hx hnone

/-- What the loop over all replicas does. -/
lemma asked_ask (rr : ReqResp) (body : LogReq) (given : ReplicaId → Option Track) :
    Asked body given (List.finRange 5) rr (rr.ask body given).1 (fun _ => .confirmed)
      (rr.ask body given).2 :=
  asked_askEach (nodup_finRange 5) rr _

end ReqResp

end TernFS
