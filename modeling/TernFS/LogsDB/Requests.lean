/-
# Requests that wait, and who waits for them

Every part of a replica keeps arrays with the ids of the requests that it waits for, and erases those
requests when it does not need them any more.  The ids are unique, so the parts do not get in each
other's way: what the appender and the catch-up reader do leaves the requests of an election alone.
-/
import TernFS.LogsDB.Roles

namespace TernFS

open Lib List Option

variable {q : LogsDBRequest} {token : LeaderToken} {good : LogReq → Prop} {lastReleased : ℕ}

/-- The requests of a nominee. -/
def LogMessageKind.Elects (k : LogMessageKind) : Prop := k ≠ .release ∧ k ≠ .logWrite ∧ k ≠ .logRead

namespace ReqResp

variable {rr rr' rr'' : ReqResp} {t : QuorumTrackArray} {body : LogReq}
  {given : ReplicaId → Option Track}

/-! ## The ids of requests -/

/-- Every request has an id of its own, one that has been assigned. -/
structure Ok (rr : ReqResp) : Prop where
  ids : rr.requests.Pairwise fun p q => p.id ≠ q.id
  le : ∀ q ∈ rr.requests, q.id ≤ rr.lastAssignedRequest

lemma Ok.eq_of_id_eq (h : rr.Ok) {p : LogsDBRequest} (hp : p ∈ rr.requests) (hq : q ∈ rr.requests)
    (hid : p.id = q.id) : p = q := by
  have hsymm : Std.Symm fun p q : LogsDBRequest => p.id ≠ q.id := ⟨fun _ _ => Ne.symm⟩
  by_contra hne
  exact h.ids.forall hp hq hne hid

/-- What requests can turn into: some are erased, others are added with new ids, and one that stays
may get another content of the same kind. -/
structure Evolves (rr rr' : ReqResp) : Prop where
  last : rr.lastAssignedRequest ≤ rr'.lastAssignedRequest
  old : ∀ q' ∈ rr'.requests, rr.lastAssignedRequest < q'.id ∨
    ∃ q ∈ rr.requests, q.id = q'.id ∧ q.body.kind = q'.body.kind
  ok : rr.Ok → rr'.Ok

lemma Evolves.of_eq (hlast : rr'.lastAssignedRequest = rr.lastAssignedRequest)
    (hrequests : rr'.requests = rr.requests) : Evolves rr rr' where
  last := hlast.ge
  old := fun q hq => .inr ⟨q, hrequests ▸ hq, rfl, rfl⟩
  ok := fun h => ⟨hrequests ▸ h.ids, by rw [hrequests, hlast]; exact h.le⟩

lemma Evolves.refl (rr : ReqResp) : Evolves rr rr := .of_eq rfl rfl

lemma Evolves.trans (h : Evolves rr rr') (h' : Evolves rr' rr'') : Evolves rr rr'' where
  last := h.last.trans h'.last
  old := fun q hq => by
    rcases h'.old q hq with hnew | ⟨q', hq', hid, hkind⟩
    · exact .inl (h.last.trans_lt hnew)
    · rcases h.old q' hq' with hnew | ⟨q'', hq'', hid', hkind'⟩
      · exact .inl (hid ▸ hnew)
      · exact .inr ⟨q'', hq'', hid'.trans hid, hkind'.trans hkind⟩
  ok := fun hok => h'.ok (h.ok hok)

lemma Evolves.filter (p : LogsDBRequest → Bool) :
    Evolves rr { rr with requests := rr.requests.filter p } where
  last := le_rfl
  old := fun q hq => .inr ⟨q, (mem_filter.1 hq).1, rfl, rfl⟩
  ok := fun h => ⟨h.ids.filter p, fun q hq => h.le q (mem_filter.1 hq).1⟩

lemma evolves_eraseRequest (id : ℕ) : Evolves rr (rr.eraseRequest id) := .filter _

lemma evolves_cleanupRequests (t : QuorumTrackArray) : Evolves rr (rr.cleanupRequests t) := .filter _

variable {f : LogsDBRequest → LogsDBRequest}

lemma Evolves.map (hid : ∀ q, (f q).id = q.id)
    (hkind : ∀ q ∈ rr.requests, (f q).body.kind = q.body.kind) (toSend : List LogsDBRequest) :
    Evolves rr { rr with requests := rr.requests.map f, requestsToSend := toSend } where
  last := le_rfl
  old := fun q hq => by
    obtain ⟨p, hp, rfl⟩ := mem_map.1 hq
    exact .inr ⟨p, hp, (hid p).symm, (hkind p hp).symm⟩
  ok := fun h => by
    refine ⟨pairwise_map.2 (h.ids.imp fun {p q} hne => ?_), fun q hq => ?_⟩
    · rwa [hid, hid]
    · obtain ⟨p, hp, rfl⟩ := mem_map.1 hq
      exact (hid p).symm ▸ h.le p hp

lemma evolves_newRequest (r : ReplicaId) (body : LogReq) : Evolves rr (rr.newRequest r body) where
  last := Nat.le_succ _
  old := fun q hq => by
    rcases mem_cons.1 hq with rfl | hq
    · exact .inl (Nat.lt_succ_self _)
    · exact .inr ⟨q, hq, rfl, rfl⟩
  ok := fun h => by
    refine ⟨pairwise_cons.2 ⟨fun q hq => ?_, h.ids⟩, fun q hq => ?_⟩
    · exact (Nat.lt_succ_of_le (h.le q hq)).ne'
    · rcases mem_cons.1 hq with rfl | hq
      · exact le_rfl
      · exact (h.le q hq).trans (Nat.le_succ _)

lemma evolves_askEach (replicas : List ReplicaId) (rr : ReqResp) (t : QuorumTrackArray) :
    Evolves rr (askEach body given replicas rr t).1 := by
  induction replicas generalizing rr t with
  | nil => exact .refl rr
  | cons r rest ih =>
    cases hgiven : given r with
    | some =>
      simp only [askEach, hgiven]
      exact ih rr _
    | none =>
      simp only [askEach, hgiven]
      exact (evolves_newRequest r body).trans (ih _ _)

lemma evolves_ask : Evolves rr (rr.ask body given).1 := evolves_askEach _ _ _

lemma evolves_foldl {α : Type*} (track : α → QuorumTrackArray) (as : List α) (rr : ReqResp) :
    Evolves rr (as.foldl (fun rr a => rr.cleanupRequests (track a)) rr) := by
  induction as generalizing rr with
  | nil => exact .refl rr
  | cons a as ih => exact (evolves_cleanupRequests _).trans (ih _)

/-! ## Arrays -/

/-- The array waits for requests that are not part of an election. -/
def Apart (rr : ReqResp) (t : QuorumTrackArray) : Prop :=
  ∀ id, t.Waits id → id ≤ rr.lastAssignedRequest ∧
    ∀ q ∈ rr.requests, q.id = id → ¬ q.body.kind.Elects

lemma Apart.mono (h : Evolves rr rr') (ht : Apart rr t) : Apart rr' t := by
  intro id hid
  obtain ⟨hle, hkind⟩ := ht id hid
  refine ⟨hle.trans h.last, fun q' hq' hq'id => ?_⟩
  rcases h.old q' hq' with hnew | ⟨q, hq, hqid, hqkind⟩
  · omega
  · exact hqkind ▸ hkind q hq (hqid.trans hq'id)

lemma Apart.of_waits {t' : QuorumTrackArray} (h : ∀ id, t'.Waits id → t.Waits id)
    (ht : Apart rr t) : Apart rr t' :=
  fun id hid => ht id (h id hid)

lemma Apart.of_not_waits (h : ∀ id, ¬ t.Waits id) : Apart rr t := fun id hid => absurd hid (h id)

lemma Apart.confirm (ht : Apart rr t) (r : ReplicaId) :
    Apart rr (Function.update t r .confirmed) := by
  refine ht.of_waits ?_
  rintro id ⟨r', hr'⟩
  by_cases heq : r' = r
  · subst heq
    rw [Function.update_self] at hr'
    cases hr'
  · exact ⟨r', by rwa [Function.update_of_ne heq] at hr'⟩

/-- The array waits for requests with a given content, each one to the replica it stands for. -/
def Tracks (rr : ReqResp) (t : QuorumTrackArray) (good : LogReq → Prop) : Prop :=
  ∀ r id, t r = .waiting id → ∃ q ∈ rr.requests, q.id = id ∧ q.replicaId = r ∧ good q.body

lemma Tracks.of_not_waits (h : ∀ id, ¬ t.Waits id) : Tracks rr t good :=
  fun r id hr => absurd ⟨r, hr⟩ (h id)

/-- What asking leaves in the array. -/
lemma tracks_ask (hgiven : ∀ r id, given r ≠ some (.waiting id)) :
    Tracks (rr.ask body given).1 (rr.ask body given).2 (fun b => b = body) := by
  intro r id hr
  have hasked := asked_ask rr body given
  cases h : given r with
  | some track =>
    rw [hasked.of_given r (mem_finRange r) track h] at hr
    exact absurd (h.trans (congrArg some hr)) (hgiven r id)
  | none =>
    obtain ⟨q, hq, hbody, hrep, hwaiting⟩ := hasked.of_none r (mem_finRange r) h
    exact ⟨q, hq, Track.waiting.inj (hwaiting.symm.trans hr), hrep, hbody⟩

lemma Tracks.apart (hok : rr.Ok) (h : Tracks rr t good) (hgood : ∀ b, good b → ¬ b.kind.Elects) :
    Apart rr t := by
  rintro id ⟨r, hr⟩
  obtain ⟨q, hq, rfl, -, hq'⟩ := h r id hr
  refine ⟨hok.le q hq, fun p hp hid => ?_⟩
  rw [hok.eq_of_id_eq hp hq hid]
  exact hgood _ hq'

lemma apart_ask (hok : rr.Ok) (hgiven : ∀ r id, given r ≠ some (.waiting id))
    (hbody : ¬ body.kind.Elects) : Apart (rr.ask body given).1 (rr.ask body given).2 :=
  (tracks_ask hgiven).apart (evolves_ask.ok hok) fun _ h => h ▸ hbody

/-! ## Requests of an election that stay -/

/-- The requests of an election stay as they are. -/
def KeepsElection (rr rr' : ReqResp) : Prop :=
  ∀ q ∈ rr.requests, q.body.kind.Elects →
    ∃ q' ∈ rr'.requests, q'.id = q.id ∧ q'.replicaId = q.replicaId ∧ q'.body = q.body

lemma KeepsElection.of_subset (h : ∀ q ∈ rr.requests, q.body.kind.Elects → q ∈ rr'.requests) :
    KeepsElection rr rr' :=
  fun q hq helects => ⟨q, h q hq helects, rfl, rfl, rfl⟩

lemma KeepsElection.of_eq (h : rr'.requests = rr.requests) : KeepsElection rr rr' :=
  .of_subset fun _ hq _ => h ▸ hq

lemma KeepsElection.refl (rr : ReqResp) : KeepsElection rr rr := .of_eq rfl

lemma KeepsElection.trans (h : KeepsElection rr rr') (h' : KeepsElection rr' rr'') :
    KeepsElection rr rr'' := by
  intro q hq helects
  obtain ⟨q', hq', hid, hrep, hbody⟩ := h q hq helects
  obtain ⟨q'', hq'', hid', hrep', hbody'⟩ := h' q' hq' (hbody ▸ helects)
  exact ⟨q'', hq'', hid'.trans hid, hrep'.trans hrep, hbody'.trans hbody⟩

lemma Tracks.mono (h : KeepsElection rr rr') (hgood : ∀ b, good b → b.kind.Elects)
    (ht : Tracks rr t good) : Tracks rr' t good := by
  intro r id hr
  obtain ⟨q, hq, hid, hrep, hq'⟩ := ht r id hr
  obtain ⟨q', hq'mem, hid', hrep', hbody'⟩ := h q hq (hgood _ hq')
  exact ⟨q', hq'mem, hid'.trans hid, hrep'.trans hrep, hbody' ▸ hq'⟩

lemma keepsElection_ask : KeepsElection rr (rr.ask body given).1 :=
  .of_subset fun q hq _ => (asked_ask rr body given).kept q hq

lemma keepsElection_cleanupRequests (ht : Apart rr t) : KeepsElection rr (rr.cleanupRequests t) := by
  refine .of_subset fun q hq helects => ?_
  have hnot : ¬ t.Waits q.id := fun hwaits => (ht q.id hwaits).2 q hq rfl helects
  exact mem_filter.2 ⟨hq, decide_eq_true hnot⟩

lemma keepsElection_eraseRequest {id : ℕ}
    (h : ∀ q ∈ rr.requests, q.id = id → ¬ q.body.kind.Elects) :
    KeepsElection rr (rr.eraseRequest id) := by
  refine .of_subset fun q hq helects => ?_
  have hne : q.id ≠ id := fun hid => h q hq hid helects
  exact mem_filter.2 ⟨hq, decide_eq_true hne⟩

lemma keepsElection_map (hf : ∀ q ∈ rr.requests, q.body.kind.Elects →
      (f q).id = q.id ∧ (f q).replicaId = q.replicaId ∧ (f q).body = q.body)
    (toSend : List LogsDBRequest) :
    KeepsElection rr { rr with requests := rr.requests.map f, requestsToSend := toSend } :=
  fun q hq helects => ⟨f q, mem_map_of_mem hq, hf q hq helects⟩

/-- Cleaning up arrays that are not part of an election, one after the other. -/
lemma keepsElection_foldl {α : Type*} {track : α → QuorumTrackArray} {as : List α}
    (has : ∀ a ∈ as, Apart rr (track a)) :
    KeepsElection rr (as.foldl (fun rr a => rr.cleanupRequests (track a)) rr) := by
  induction as generalizing rr with
  | nil => exact .refl rr
  | cons a as ih =>
    obtain ⟨ha, has⟩ := forall_mem_cons.1 has
    refine (keepsElection_cleanupRequests ha).trans (ih fun b hb => ?_)
    exact (has b hb).mono (evolves_cleanupRequests _)

end ReqResp

namespace LogsDB

open ReqResp

variable {cfg : LogsDBConfig} {now : ℕ} {l l' l'' : LogsDB}

/-! ## Operations apart from elections -/

/-- The appender and the catch-up reader do not wait for requests of an election. -/
structure OthersApart (l : LogsDB) : Prop where
  entries : ∀ e ∈ l.appender.entries, Apart l.reqResp e.requestIds
  release : Apart l.reqResp l.appender.releaseRequests
  missing : ∀ m ∈ l.catchupReader.missing, Apart l.reqResp m.requestIds

lemma OthersApart.mono (h : l.OthersApart) (hev : Evolves l.reqResp l'.reqResp)
    (hentries : ∀ e ∈ l'.appender.entries, e ∈ l.appender.entries)
    (hrelease : l'.appender.releaseRequests = l.appender.releaseRequests)
    (hmissing : ∀ m ∈ l'.catchupReader.missing, m ∈ l.catchupReader.missing) : l'.OthersApart where
  entries := fun e he => (h.entries e (hentries e he)).mono hev
  release := hrelease ▸ h.release.mono hev
  missing := fun m hm => (h.missing m (hmissing m hm)).mono hev

/-- The requests of a replica are in order. -/
structure RequestsOk (l : LogsDB) : Prop where
  ok : l.reqResp.Ok
  others : l.OthersApart

/-- The operation leaves the requests in order. -/
structure Orderly (l l' : LogsDB) : Prop where
  evolves : Evolves l.reqResp l'.reqResp
  others : l.RequestsOk → l'.OthersApart

lemma Orderly.requestsOk (h : Orderly l l') (hl : l.RequestsOk) : l'.RequestsOk :=
  ⟨h.evolves.ok hl.ok, h.others hl⟩

lemma Orderly.trans (h : Orderly l l') (h' : Orderly l' l'') : Orderly l l'' :=
  ⟨h.evolves.trans h'.evolves, fun hl => h'.others (h.requestsOk hl)⟩

/-- The other parts stay as they are. -/
lemma Orderly.of_evolves (h : Evolves l.reqResp l'.reqResp) (happender : l'.appender = l.appender)
    (hcatchup : l'.catchupReader = l.catchupReader) : Orderly l l' := by
  refine ⟨h, fun hl => hl.others.mono h (fun e he => ?_) ?_ (fun m hm => ?_)⟩
  · rwa [happender] at he
  · rw [happender]
  · rwa [hcatchup] at hm

/-- The operation leaves the election and its requests alone. -/
structure Quiet (l l' : LogsDB) : Prop extends Orderly l l' where
  keeps : l.RequestsOk → KeepsElection l.reqResp l'.reqResp
  state : l'.election.state = l.election.state
  electionState : l'.election.electionState = l.election.electionState

lemma Quiet.trans (h : Quiet l l') (h' : Quiet l' l'') : Quiet l l'' where
  toOrderly := h.toOrderly.trans h'.toOrderly
  keeps := fun hl => (h.keeps hl).trans (h'.keeps (h.requestsOk hl))
  state := h'.state.trans h.state
  electionState := h'.electionState.trans h.electionState

lemma Quiet.of_eq (hlast : l'.reqResp.lastAssignedRequest = l.reqResp.lastAssignedRequest)
    (hrequests : l'.reqResp.requests = l.reqResp.requests) (happender : l'.appender = l.appender)
    (hcatchup : l'.catchupReader = l.catchupReader) (hstate : l'.election.state = l.election.state)
    (helection : l'.election.electionState = l.election.electionState) : Quiet l l' where
  toOrderly := .of_evolves (.of_eq hlast hrequests) happender hcatchup
  keeps := fun _ => .of_eq hrequests
  state := hstate
  electionState := helection

lemma Quiet.refl (l : LogsDB) : Quiet l l := .of_eq rfl rfl rfl rfl rfl rfl

lemma quiet_respond (q : LogsDBRequest) (body : LogResp) : Quiet l (l.respond q body) :=
  .of_eq rfl rfl rfl rfl rfl rfl

lemma quiet_resendTimedOutRequests :
    Quiet l { l with reqResp := l.reqResp.resendTimedOutRequests now } where
  toOrderly := by
    refine .of_evolves (Evolves.map (fun q => ?_) (fun q _ => ?_) _) rfl rfl <;> split <;> rfl
  keeps := fun _ => by
    refine keepsElection_map (fun q _ _ => ?_) _
    split <;> exact ⟨rfl, rfl, rfl⟩
  state := rfl
  electionState := rfl

/-- Asking again for entries that are not part of an election. -/
lemma quiet_of_ask {body : LogReq} {given : ReplicaId → Option Track}
    (hrr : l'.reqResp = (l.reqResp.ask body given).1)
    (hothers : l.RequestsOk → l'.OthersApart) (hstate : l'.election.state = l.election.state)
    (helection : l'.election.electionState = l.election.electionState) : Quiet l l' where
  evolves := hrr ▸ evolves_ask
  others := hothers
  keeps := fun _ => hrr ▸ keepsElection_ask
  state := hstate
  electionState := helection

lemma given_ne_waiting (p : ReplicaId → Prop) [DecidablePred p] (r : ReplicaId) (id : ℕ) :
    (if p r then some Track.confirmed else none) ≠ some (.waiting id) := by
  split <;> simp

/-! ## Appending -/

lemma quiet_initAppender : Quiet l (l.initAppender cfg) := by
  refine quiet_of_ask rfl (fun hl => ?_) rfl rfl
  refine ⟨fun e he => (hl.others.entries e he).mono evolves_ask, ?_,
    fun m hm => (hl.others.missing m hm).mono evolves_ask⟩
  exact apart_ask hl.ok (given_ne_waiting _) (by simp [LogReq.kind, LogMessageKind.Elects])

lemma evolves_cleanupAppender : Evolves l.reqResp l.cleanupAppender.reqResp :=
  (evolves_foldl InFlightEntry.requestIds _ _).trans (evolves_cleanupRequests _)

lemma quiet_cleanupAppender : Quiet l l.cleanupAppender where
  evolves := evolves_cleanupAppender
  others := fun hl => ⟨nofun, .of_not_waits (QuorumTrackArray.not_waits_cleanup _),
    fun m hm => (hl.others.missing m hm).mono evolves_cleanupAppender⟩
  keeps := fun hl => (keepsElection_foldl hl.others.entries).trans
    (keepsElection_cleanupRequests (hl.others.release.mono
      (evolves_foldl InFlightEntry.requestIds _ _)))
  state := rfl
  electionState := rfl

lemma quiet_updateRelease {r : ReplicaId} (hl : l.reqResp.Ok) (h : updateRelease l r = some l') :
    Quiet l l' := by
  unfold updateRelease at h
  split at h
  · cases h
    exact .refl l
  · cases h
  rename_i id hwaiting
  split at h
  · rename_i hreq
    cases h
    obtain ⟨hmem, hid⟩ := mem_of_getRequest hreq
    -- only the request with the id changes, and it is a release
    have hrelease : ∀ q ∈ l.reqResp.requests, q.id = id → q.body.kind = .release := by
      intro q hq hqid
      rw [hl.eq_of_id_eq hq hmem (hqid.trans hid.symm)]
      rfl
    constructor
    · refine .of_evolves (Evolves.map (fun q => ?_) (fun q hq => ?_) _) rfl rfl
      · split <;> rfl
      split
      · rename_i hqid
        exact (hrelease q hq hqid).symm
      · rfl
    · refine fun _ => keepsElection_map (fun q hq helects => ?_) _
      rw [if_neg fun hqid => ?_]
      · exact ⟨rfl, rfl, rfl⟩
      · exact helects.1 (hrelease q hq hqid)
    · rfl
    · rfl
  · cases h

lemma Quiet.foldlM {α : Type*} {f : LogsDB → α → Option LogsDB} {as : List α}
    (hf : ∀ {l l' a}, l.reqResp.Ok → f l a = some l' → Quiet l l') (hl : l.reqResp.Ok)
    (h : as.foldlM f l = some l') : Quiet l l' := by
  refine foldlM_invariant (fun l₁ a _ l₂ hl₁ hl₂ => ?_) (Quiet.refl l) h
  exact hl₁.trans (hf (hl₁.evolves.ok hl) hl₂)

lemma quiet_appendEntry {value : Bytes} (h : appendEntry cfg l value = some l') : Quiet l l' := by
  simp only [appendEntry, bind_eq_some] at h
  obtain ⟨l₁, hl₁, ⟨⟩⟩ := h
  unfold assignLogIdx at hl₁
  split at hl₁
  · cases hl₁
    refine quiet_of_ask rfl (fun hl => ?_) rfl rfl
    refine ⟨fun e he => ?_, hl.others.release.mono evolves_ask,
      fun m hm => (hl.others.missing m hm).mono evolves_ask⟩
    rcases mem_append.1 he with he | he
    · exact (hl.others.entries e he).mono evolves_ask
    · obtain rfl := mem_singleton.1 he
      exact apart_ask hl.ok (given_ne_waiting _) (by simp [LogReq.kind, LogMessageKind.Elects])
  · cases hl₁

variable {idx lastRead : ℕ} {result : Option LogError}

lemma quiet_processLogWriteResponse {request : LogsDBRequest}
    (hmem : request ∈ l.reqResp.requests) (hkind : request.body.kind = .logWrite)
    (hresult : result ≠ some .leaderPreempted)
    (h : l.processLogWriteResponse now request idx result = some l') : Quiet l l' := by
  unfold processLogWriteResponse at h
  split at h
  · cases h
    exact .refl l
  split at h
  · exact absurd rfl hresult
  · cases h
    exact .refl l
  simp only [bind_eq_some, guard_eq_some'] at h
  obtain ⟨-, -, e, he, -, -, h⟩ := h
  split at h <;> cases h
  · exact .refl l
  refine ⟨⟨evolves_eraseRequest _, fun hl => ?_⟩, fun hl => ?_, rfl, rfl⟩
  · refine ⟨fun e' he' => ?_, hl.others.release.mono (evolves_eraseRequest _),
      fun m hm => (hl.others.missing m hm).mono (evolves_eraseRequest _)⟩
    refine Apart.mono (evolves_eraseRequest _) ?_
    rcases mem_or_eq_of_mem_set he' with he' | rfl
    · exact hl.others.entries e' he'
    · exact (hl.others.entries e (mem_of_getElem? he)).confirm _
  · refine keepsElection_eraseRequest fun q hq hqid helects => ?_
    rw [hl.ok.eq_of_id_eq hq hmem hqid] at helects
    exact helects.2.1 hkind

/-! ## Catching up -/

lemma askReads_spec (cfg : LogsDBConfig) (idxs : List ℕ) (rr : ReqResp) (hok : rr.Ok) :
    Evolves rr (askReads cfg idxs rr).2 ∧ KeepsElection rr (askReads cfg idxs rr).2 ∧
      ∀ m ∈ (askReads cfg idxs rr).1, Apart (askReads cfg idxs rr).2 m.requestIds := by
  induction idxs generalizing rr with
  | nil => exact ⟨.refl rr, .refl rr, nofun⟩
  | cons idx rest ih =>
    obtain ⟨hev, hkeeps, hapart⟩ := ih (rr.ask (.logRead idx) fun r =>
      if r = cfg.replicaId then some .confirmed else none).1 (evolves_ask.ok hok)
    refine ⟨evolves_ask.trans hev, keepsElection_ask.trans hkeeps, fun m hm => ?_⟩
    rcases mem_cons.1 hm with rfl | hm
    · refine Apart.mono hev (apart_ask hok (given_ne_waiting _) ?_)
      simp [LogReq.kind, LogMessageKind.Elects]
    · exact hapart m hm

/-- The catch-up reader waits for nothing new. -/
lemma quiet_catchupReader {data : DataPartitions} {reader : CatchupReader}
    (h : ∀ m ∈ reader.missing, m ∈ l.catchupReader.missing) :
    Quiet l { l with data := data, catchupReader := reader } :=
  ⟨⟨.refl _, fun hl => hl.others.mono (.refl _) (fun _ he => he) rfl h⟩, fun _ => .refl _, rfl, rfl⟩

lemma quiet_findMissingEntries (hl : l.reqResp.Ok) : Quiet l (l.findMissingEntries cfg) := by
  unfold findMissingEntries
  split
  · exact .refl l
  dsimp only
  split
  · exact quiet_catchupReader fun _ hm => hm
  obtain ⟨hev, hkeeps, hapart⟩ := askReads_spec cfg (missingFrom
    (l.metadata.lastReleased + 1 - (l.catchupReader.lastContinuousIdx + 1))
    (l.catchupReader.lastContinuousIdx + 1)
    (l.data.seek (l.catchupReader.lastContinuousIdx + 1)) catchupWindow) l.reqResp hl
  exact ⟨⟨hev, fun hl => ⟨fun e he => (hl.others.entries e he).mono hev,
    hl.others.release.mono hev, hapart⟩⟩, fun _ => hkeeps, rfl, rfl⟩

lemma quiet_maybeCatchUp (hl : l.reqResp.Ok) : Quiet l (l.maybeCatchUp cfg) := by
  unfold maybeCatchUp
  split
  · exact .refl l
  · refine (quiet_catchupReader ?_).trans (quiet_findMissingEntries hl)
    exact nofun

lemma quiet_processLogReadResponse {value : Bytes} :
    Quiet l (l.processLogReadResponse now idx result value) := by
  unfold processLogReadResponse
  split
  · exact .refl l
  split
  · exact .refl l
  rename_i i hi
  cases hm : l.catchupReader.missing[i]? with
  | none =>
    have hlen : l.catchupReader.missing.length ≤ i := getElem?_eq_none_iff.1 hm
    have hsame : (l.catchupReader.missing.modify i fun m => (⟨0, m.requestIds.cleanup⟩ : MissingEntry)) =
        l.catchupReader.missing := modify_eq_self hlen
    refine quiet_catchupReader fun m hm => ?_
    rwa [hsame] at hm
  | some m =>
    refine ⟨⟨evolves_cleanupRequests _, fun hl => ⟨fun e he =>
      (hl.others.entries e he).mono (evolves_cleanupRequests _),
      hl.others.release.mono (evolves_cleanupRequests _), fun m' hm' => ?_⟩⟩,
      fun hl => keepsElection_cleanupRequests (hl.others.missing m (mem_of_getElem? hm)),
      rfl, rfl⟩
    obtain ⟨j, hj⟩ := mem_iff_getElem?.1 hm'
    rw [getElem?_modify] at hj
    obtain ⟨m₁, hm₁, heq⟩ := map_eq_some_iff.1 hj
    split at heq
    · subst heq
      exact .of_not_waits (QuorumTrackArray.not_waits_cleanup _)
    · subst heq
      exact (hl.others.missing _ (mem_of_getElem? hm₁)).mono (evolves_cleanupRequests _)

variable {entries : List LogsDBLogEntry}

lemma quiet_readEntries {maxEntries : ℕ}
    (h : l.readEntries maxEntries = some (l', entries)) : Quiet l l' := by
  unfold readEntries at h
  split at h
  · cases h
    exact .refl l
  · simp only [bind_eq_some] at h
    obtain ⟨_, -, ⟨⟩⟩ := h
    exact quiet_catchupReader fun _ hm => hm

/-- A replica that starts waits for nothing but the entries that it lacks. -/
lemma requestsOk_start {data : DataPartitions} {leaderToken : LeaderToken} :
    (start cfg now data leaderToken lastReleased lastRead).RequestsOk := by
  have hok : (ReqResp.mk 0 [] [] []).Ok := ⟨.nil, nofun⟩
  have hnone : ∀ id, ¬ QuorumTrackArray.Waits (fun _ => .confirmed) id := by
    rintro id ⟨r, hr⟩
    cases hr
  refine (quiet_findMissingEntries ?_).requestsOk ⟨?_, ⟨?_, ?_, ?_⟩⟩
  · exact hok
  · exact hok
  · exact nofun
  · exact .of_not_waits hnone
  · exact nofun

/-! ## The end of an election -/

lemma orderly_clearElectionState (now : ℕ) : Orderly l (l.clearElectionState now) := by
  unfold clearElectionState
  split
  · exact .of_evolves (.refl _) rfl rfl
  · exact .of_evolves ((evolves_cleanupRequests _).trans
      (evolves_foldl RecoverySlot.requestIds _ _)) rfl rfl

lemma orderly_setNomineeToken (token : LeaderToken) : Orderly l (l.setNomineeToken token) :=
  .of_evolves (.refl _) rfl rfl

lemma orderly_resetLeaderElection : Orderly l (l.resetLeaderElection now) := by
  have hfollower : Orderly l (({ l with
      election.state := .follower
      election.leaderLastActive := now }).setNomineeToken .zero) := .of_evolves (.refl _) rfl rfl
  exact hfollower.trans (orderly_clearElectionState now)

lemma orderly_updateLeaderToken (h : l.updateLeaderToken cfg token = .ok l') : Orderly l l' := by
  unfold updateLeaderToken at h
  split at h
  · cases h
  · split at h <;> cases h <;> exact .of_evolves (.refl _) rfl rfl

lemma orderly_writeLogEntries
    (h : l.writeLogEntries cfg now token lastReleased entries = .ok l') : Orderly l l' := by
  cases hup : l.updateLeaderToken cfg token with
  | error =>
    rw [writeLogEntries, hup] at h
    cases h
  | ok =>
    rw [writeLogEntries, hup] at h
    cases h
    refine (orderly_updateLeaderToken hup).trans ((orderly_clearElectionState now).trans ?_)
    exact .of_evolves (.refl _) rfl rfl

/-- The operation leaves the election alone, or there is none afterwards. -/
def Harmless (l l' : LogsDB) : Prop :=
  Quiet l l' ∨ (l.RequestsOk → l'.RequestsOk) ∧ ¬ l'.election.state.Elects

lemma Orderly.harmless (h : Orderly l l') (hstate : ¬ l'.election.state.Elects) : Harmless l l' :=
  .inr ⟨h.requestsOk, hstate⟩

lemma Harmless.trans_quiet (h : Harmless l l') (h' : Quiet l' l'') : Harmless l l'' := by
  rcases h with h | ⟨hok, hstate⟩
  · exact .inl (h.trans h')
  · exact .inr ⟨fun hl => h'.requestsOk (hok hl), h'.state ▸ hstate⟩

lemma not_elects_resetLeaderElection : ¬ (l.resetLeaderElection now).election.state.Elects := by
  have hstate : (l.resetLeaderElection now).election.state = .follower :=
    congrArg LogsDBRole.state role_resetLeaderElection
  rw [hstate]
  decide

lemma harmless_resetLeaderElection : Harmless l (l.resetLeaderElection now) :=
  orderly_resetLeaderElection.harmless not_elects_resetLeaderElection

/-- A batch that is accepted while an election is going on would end it without a reset. -/
lemma harmless_writeBatch {o : Op} (hrole : RoleOk cfg l.role)
    (hok : l.FollowsNewLeader o → l.election.state = .follower) (ho : l.WritesBatch o) :
    Harmless l (l.writeBatch cfg now) := by
  unfold writeBatch
  split
  · exact .inl (.refl l)
  have hresponses : ∀ (body : LogResp) (reqs : List LogsDBRequest) (rr : ReqResp),
      (reqs.foldl (fun rr req => rr.newResponse req.replicaId req.id body) rr).requests =
        rr.requests ∧
      (reqs.foldl (fun rr req => rr.newResponse req.replicaId req.id body) rr).lastAssignedRequest =
        rr.lastAssignedRequest := by
    intro body reqs
    induction reqs with
    | nil => exact fun _ => ⟨rfl, rfl⟩
    | cons req reqs ih => exact fun rr => ih _
  cases hwrite : l.writeLogEntries cfg now l.batchWriter.token l.batchWriter.lastReleased
      l.batchWriter.entries with
  | error =>
    simp only [hwrite]
    exact .inl (.of_eq (hresponses _ _ _).2 (hresponses _ _ _).1 rfl rfl rfl rfl)
  | ok l₁ =>
    obtain ⟨hL, hN, -, hrole₁⟩ := role_writeLogEntries hwrite
    have hstate : l₁.election.state = l.election.state := by
      have h := congrArg LogsDBRole.state hrole₁
      split at h <;> exact h
    have hnot : ¬ l.election.state.Elects := by
      intro helects
      have hlt := hrole.lt_of_elects helects
      exact helects.1 (hok ⟨ho, hlt.trans_le hN, hN⟩)
    simp only [hwrite]
    have hanswer : Quiet l₁ { l₁ with
        reqResp := l.batchWriter.requests.foldl
          (fun rr req => rr.newResponse req.replicaId req.id (.logWrite none)) l₁.reqResp
        batchWriter := {} } :=
      .of_eq (hresponses _ _ _).2 (hresponses _ _ _).1 rfl rfl rfl rfl
    have hwritten : Harmless l l₁ := (orderly_writeLogEntries hwrite).harmless (hstate ▸ hnot)
    exact hwritten.trans_quiet hanswer

lemma harmless_startBatch (hrole : RoleOk cfg l.role)
    (hok : l.FollowsNewLeader (.request now q) → l.election.state = .follower)
    (htoken : q.body.writeToken? = some token) : Harmless l (l.startBatch cfg now token) := by
  unfold startBatch
  split
  · rename_i hlt
    exact (harmless_writeBatch hrole hok ⟨token, htoken, hlt⟩).trans_quiet
      (.of_eq rfl rfl rfl rfl rfl rfl)
  · exact .inl (.refl l)

lemma harmless_processNewLeaderRequest : Harmless l (l.processNewLeaderRequest now q token) := by
  unfold processNewLeaderRequest
  split
  · exact .inl (.refl l)
  split
  · exact .inl (quiet_respond _ _)
  dsimp only
  split
  · exact .inl (.of_eq rfl rfl rfl rfl rfl rfl)
  · exact (((quiet_respond _ _).toOrderly.trans orderly_resetLeaderElection).trans
      (orderly_setNomineeToken token)).harmless not_elects_resetLeaderElection

lemma harmless_acceptLeader : Harmless l (l.acceptLeader cfg now q token) := by
  unfold acceptLeader
  split
  · rename_i l₁ hup
    exact (((orderly_updateLeaderToken hup).trans (quiet_respond _ _).toOrderly).trans
      orderly_resetLeaderElection).harmless not_elects_resetLeaderElection
  · exact .inl (quiet_respond _ _)

lemma quiet_setLastReleased (h : l.setLastReleased lastReleased = some l') : Quiet l l' := by
  unfold setLastReleased at h
  split at h
  · cases h
    exact .of_eq rfl rfl rfl rfl rfl rfl
  · cases h

lemma Quiet.trans_harmless (h : Quiet l l') (h' : Harmless l' l'') : Harmless l l'' := by
  rcases h' with h' | ⟨hok, hstate⟩
  · exact .inl (h.trans h')
  · exact .inr ⟨fun hl => hok (h.requestsOk hl), hstate⟩

/-- No request ends an election without a reset, and none starts one. -/
lemma harmless_processRequest (hrole : RoleOk cfg l.role)
    (hok : l.FollowsNewLeader (.request now q) → l.election.state = .follower)
    (h : l.processRequest cfg now q = some l') : Harmless l l' := by
  unfold processRequest at h
  split at h <;> rename_i hbody
  · cases h
    unfold processReleaseRequest
    split
    · exact .inl (.refl l)
    split
    · exact .inl (.refl l)
    · exact (harmless_startBatch hrole hok (by rw [hbody]; rfl)).trans_quiet
        (.of_eq rfl rfl rfl rfl rfl rfl)
  · cases h
    unfold processLogWriteRequest
    split
    · exact .inl (.refl l)
    split
    · exact .inl (quiet_respond _ _)
    · exact (harmless_startBatch hrole hok (by rw [hbody]; rfl)).trans_quiet
        (.of_eq rfl rfl rfl rfl rfl rfl)
  · cases h
    unfold processLogReadRequest
    split
    · exact .inl (quiet_respond _ _)
    · split <;> exact .inl (quiet_respond _ _)
  · cases h
    exact harmless_processNewLeaderRequest
  · unfold processNewLeaderConfirmRequest at h
    split at h
    · cases h
      exact .inl (.refl _)
    split at h
    · obtain ⟨l₁, hl₁, rfl⟩ := map_eq_some_iff.1 h
      exact (quiet_setLastReleased hl₁).trans_harmless harmless_acceptLeader
    · cases h
      exact harmless_acceptLeader
  · cases h
    unfold processRecoveryReadRequest
    split
    · exact .inl (.refl l)
    split
    · exact .inl (quiet_respond _ _)
    dsimp only
    split <;> exact .inl (.of_eq rfl rfl rfl rfl rfl rfl)
  · cases h
    unfold processRecoveryWriteRequest
    split
    · exact .inl (.refl l)
    split
    · exact .inl (quiet_respond _ _)
    · exact .inl (.of_eq rfl rfl rfl rfl rfl rfl)

lemma harmless_maybeMoveRelease (hl : l.reqResp.Ok) (h : l.maybeMoveRelease cfg now = some l') :
    Harmless l l' := by
  unfold maybeMoveRelease at h
  split at h
  · cases h
    exact .inl quiet_initAppender
  split at h
  · cases h
    exact .inl quiet_cleanupAppender
  rename_i hnotLeader
  split at h
  · cases h
    exact .inl (.refl _)
  rename_i hcurrent
  simp only [bind_eq_some] at h
  obtain ⟨out, -, h⟩ := h
  split at h
  · cases h
    exact .inl (.refl _)
  split at h
  · cases h
  rename_i l₁ hwrite
  have hleader : l.IsLeader := by
    by_contra hnot
    exact hnotLeader ⟨hnot, not_not.1 hcurrent⟩
  have hstate : l₁.election.state = .leader := by
    have hrole := congrArg LogsDBRole.state (role_writeLogEntries hwrite).2.2.2
    rw [if_pos rfl] at hrole
    exact hrole.trans hleader
  have hev : Evolves l.reqResp (out.2.foldl (fun rr (e : InFlightEntry) =>
      rr.cleanupRequests e.requestIds) l.reqResp) := evolves_foldl InFlightEntry.requestIds _ _
  have hdropped : Orderly l { l with
      reqResp := out.2.foldl (fun rr (e : InFlightEntry) => rr.cleanupRequests e.requestIds) l.reqResp
      appender.entries := l.appender.entries.drop out.2.length } :=
    ⟨hev, fun hl => hl.others.mono hev (fun _ he => mem_of_mem_drop he) rfl fun _ hm => hm⟩
  have hwritten := hdropped.trans (orderly_writeLogEntries hwrite)
  have hquiet := Quiet.foldlM quiet_updateRelease (hwritten.evolves.ok hl) h
  refine (hwritten.trans hquiet.toOrderly).harmless ?_
  rw [hquiet.state, hstate]
  decide

lemma harmless_restart (h : l.restart cfg now lastRead = some l') : Harmless l l' := by
  unfold restart at h
  split at h
  · obtain ⟨data, -, rfl⟩ := map_eq_some_iff.1 h
    have hstate : (start cfg now data l.metadata.leaderToken l.metadata.lastReleased
        lastRead).election.state = .follower := congrArg LogsDBRole.state role_start
    refine .inr ⟨fun _ => ?_, by rw [hstate]; decide⟩
    exact requestsOk_start
  · cases h

end LogsDB

end TernFS
