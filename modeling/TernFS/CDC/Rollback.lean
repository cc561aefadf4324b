/-
# Rolling back

`RenameFile`, `RenameDirectory` and `SoftUnlinkDirectory` lock the edge that they are about to move
or remove, and unlock it again when they cannot go on.  While the edge is locked, nobody else
changes it; so if the request names the target of the edge, the roll-back finds the edge as it was
and leaves it as it was, and no new edge has been created.  The roll-back of `RenameFile` unlocks
the edge at the wrong creation time.

* `CDCReq.rollback_restores`: in every run, the roll-back ends the transaction with its error and
  restores the edge, provided that the shard takes the request to unlock it.
* `RenameFile.not_rolled_back`: a run in which the roll-back of `RenameFile` takes the coordinator
  down and leaves the edge locked.
-/
import TernFS.CDC.Phases

namespace TernFS

open Lib Function SortedStore List Option

variable {e : TernError} {d : Delivery} {r : CDCShardReq} {env : CDCEnv} {out : Outcome}

/-! ## The condition -/

/-- What an event has to satisfy: the request that locks the edge names its target; only the request
that the transaction waits for is handled without its answer arriving, apart from reads; and clients
leave the edge alone once the roll-back has unlocked it. -/
def OldEdge.EventOk (cfg : ClusterConfig) (o : OldEdge) (sys : TxnSystem) (ev : TxnEvent) : Prop :=
  match sys.txn with
  | .finished _ => True
  | .running state shid r =>
    match ev with
    | .client s step =>
      match state.phase with
      | .rollingBack _ => s = o.dirId.shardId → step.req.Renames (cfg.shard s) (o.key cfg) →
        ∀ edge ∈ (sys.shards s).currentEdges.get (o.key cfg), edge.locked = true
      | _ => True
    | .respond _ => r = o.lockReq → o.NamesTarget cfg (sys.shards shid)
    | .deliver i _ =>
      match sys.sent[i]? with
      | some (_, .read _) => True
      | some (shid', .write r') => shid' = shid ∧ .write r' = r ∧
        (r = o.lockReq → o.NamesTarget cfg (sys.shards shid))
      | none => True
    | .timeout | .restart => True

instance (cfg : ClusterConfig) (o : OldEdge) (sys : TxnSystem) (ev : TxnEvent) :
    Decidable (o.EventOk cfg sys ev) := by
  unfold OldEdge.EventOk
  cases sys.txn with
  | finished => exact isTrue trivial
  | running state =>
    cases ev with
    | client =>
      dsimp only
      cases state.phase <;> dsimp only <;> infer_instance
    | respond => dsimp only; infer_instance
    | deliver i =>
      dsimp only
      cases sys.sent[i]? with
      | none => exact isTrue trivial
      | some copy =>
        obtain ⟨shid', r'⟩ := copy
        cases r' <;> dsimp only <;> infer_instance
    | timeout | restart => exact isTrue trivial

/-- When the request of the roll-back is taken by the shard: the directory is there, it was modified
before, and the creation time of the request is that of the edge. -/
def OldEdge.RollbackOk (o : OldEdge) (db : ShardDB) (time : ℕ) (state : TxnState) : Prop :=
  DirectoryThere db false o.dirId ∧ NotYoung db time false o.dirId ∧
    state.rollbackTime o = o.creationTime

instance (o : OldEdge) (db : ShardDB) (time : ℕ) (state : TxnState) :
    Decidable (o.RollbackOk db time state) := inferInstanceAs (Decidable (_ ∧ _))

/-- `RenameFile` does not expect its new directory to be missing when it creates the new edge. -/
def CDCReq.NewDirectoryOk (db : ShardDB) : CDCReq → TxnState → Prop
  | renameFile q, .renameFile .createNewLockedEdge _ => DirectoryThere db false q.newOwnerId
  | _, _ => True

/-- The transaction has locked its old edge. -/
def Handled.Locks (o : OldEdge) (h : Handled) : Prop :=
  h.shid = o.dirId.shardId ∧ h.req = o.lockReq ∧ ∃ resp, h.result = .ok resp

/-- The transaction has created an edge. -/
def Handled.Creates (h : Handled) : Prop :=
  ∃ r resp, h.req = .write (.createLockedCurrentEdge r) ∧ h.result = .ok resp

/-- The old edge is as it was before the transaction has locked it, and it is not locked; nothing has
been created. -/
structure Restored (cfg : ClusterConfig) (o : OldEdge) (sys : TxnSystem) : Prop where
  locks : ∃ h ∈ sys.log, h.Locks o
  edge : ∀ h ∈ sys.log, h.Locks o → ∃ original body,
    h.before.currentEdges.get (o.key cfg) = some original ∧
    (sys.shards o.dirId.shardId).currentEdges.get (o.key cfg) = some body ∧
    body.locked = false ∧ body.targetId = original.targetId ∧
    body.creationTime = original.creationTime
  created : ∀ h ∈ sys.log, ¬ h.Creates

/-! ## What the shards do -/

variable {resp : ShardResp}

section

variable {cfg : ShardConfig} {db db' : ShardDB} {d : Delivery} {result : ShardResult}

/-- An error leaves the names of a shard alone. -/
lemma names_of_handle_error {req : ShardReq}
    (h : handle cfg db d (.write req) = some (db', .error e)) : db'.names = db.names := by
  rcases handle_write h with ⟨entry, resp, index, -, hresult, -⟩ | ⟨e', -, rfl | ⟨index, time, rfl⟩⟩
  · cases hresult
  · rfl
  · rfl

lemma namesStep_of_handle {req : ShardReq} (h : handle cfg db d (.write req) = some (db', result)) :
    NamesStep cfg d.time db.names req db'.names :=
  shardStep_namesStep (shardStep_of_handle h)

/-- An edge that is locked with success was there, with the creation time of the request. -/
lemma lock_of_handle {r : LockCurrentEdgeReq}
    (h : handle cfg db d (.write (.lockCurrentEdge r)) = some (db', .ok resp)) :
    ∃ body, db.currentEdges.get (cfg.edgeName r.dirId r.name) = some body ∧
      body.creationTime = r.creationTime ∧
      (body.targetId = r.targetId →
        db'.names.Edge (cfg.edgeName r.dirId r.name) r.targetId r.creationTime true) := by
  rcases handle_write h with ⟨_, resp', index, ⟨⟩, -, batch, happly, rfl⟩ | ⟨e, hresult, -⟩
  swap
  · cases hresult
  simp only [applyEntryBody, applyLockCurrentEdge, bind_eq_ok, orFail_eq_ok, check_eq_ok,
    exists_const, Prod.exists] at happly
  obtain ⟨b, _, hinit, body, hbody, htime, happly⟩ := happly
  obtain ⟨dir, -, -, rfl, rfl⟩ := initiateDirectoryModification_eq_ok.1 hinit
  refine ⟨body, hbody, htime, fun htarget => ?_⟩
  split_ifs at happly with hlocked
  · cases happly
    exact ⟨body, hbody, htarget, htime, hlocked⟩
  cases happly
  refine ⟨_, get_put_self .., ?_, htime, ?_⟩
  · rw [← htarget, CurrentEdgeBody.targetId_of]
  · rw [← htarget, CurrentEdgeBody.locked_of]

/-- The name is locked, and its directory is there. -/
structure LockedName (cfg : ShardConfig) (db : ShardDB) (dirId : InodeId) (name : Bytes) : Prop where
  directory : dirId.type = .directory
  there : ∃ dir, db.names.There dirId dir
  edge : ∃ targetId creationTime, db.names.Edge (cfg.edgeName dirId name) targetId creationTime true

/-- An edge that is created with success is locked. -/
lemma create_of_handle {r : CreateLockedCurrentEdgeReq}
    (h : handle cfg db d (.write (.createLockedCurrentEdge r)) = some (db', .ok resp)) :
    LockedName cfg db' r.dirId r.name := by
  rcases handle_write h with ⟨_, resp', index, ⟨⟩, -, batch, happly, rfl⟩ | ⟨e, hresult, -⟩
  swap
  · cases hresult
  simp only [applyEntryBody, applyCreateLockedCurrentEdge, bind_eq_ok, Prod.exists] at happly
  obtain ⟨b, t, hcreate, ⟨⟩⟩ := happly
  obtain ⟨dir, hdir, -, hcreated⟩ := createCurrentEdge_eq_ok hcreate
  have hthere := there_of_getDirectory hdir
  have hlocked : ∀ t, (⟨.of r.targetId true, t⟩ : CurrentEdgeBody).locked = true := fun _ => rfl
  refine ⟨(getDirectory_eq_ok.1 hdir).1, hthere.touch hthere.1 hcreated.names.1.directories_eq, ?_⟩
  cases hcreated <;> exact ⟨_, _, _, get_put_self .., rfl, rfl, hlocked _⟩

lemma LockedName.getDirectory {dirId : InodeId} {name : Bytes} (h : LockedName cfg db dirId name)
    (allowSnapshot : Bool) : ∃ dir, getDirectory db dirId allowSnapshot = .ok dir := by
  obtain ⟨htype, ⟨dir, hdir⟩, -⟩ := h
  exact ⟨dir, getDirectory_eq_ok.2 ⟨htype, hdir.1, .inr hdir.2⟩⟩

lemma LockedName.fullReadDir {dirId : InodeId} {name : Bytes} (h : LockedName cfg db dirId name)
    (hhandle : handle cfg db d (.read (.fullReadDir dirId name)) = some (db', .error e)) :
    e ≠ .directoryNotFound := by
  rintro rfl
  rcases handle_fullReadDir_cases hhandle with ⟨-, e, hdir⟩ | h' | ⟨time, h'⟩ | h' | h'
  · obtain ⟨dir, hdir'⟩ := h.getDirectory true
    rw [hdir] at hdir'
    cases hdir'
  all_goals cases h'

lemma LockedName.create {r : CreateLockedCurrentEdgeReq} (h : LockedName cfg db r.dirId r.name)
    (hshard : r.dirId.shard = cfg.shid)
    (hhandle : handle cfg db d (.write (.createLockedCurrentEdge r)) = some (db', .error e)) :
    e ≠ .directoryNotFound ∧ e ≠ .cannotOverrideName := by
  rcases handle_createLockedCurrentEdge_cases hshard hhandle with hanswer | hanswer | hanswer
  · cases hanswer with
    | noDirectory hdir =>
      obtain ⟨dir, hdir'⟩ := h.getDirectory false
      rw [hdir] at hdir'
      cases hdir'
    | directory hdir hmtime hedge hlocked =>
      obtain ⟨targetId, creationTime, body, hbody, -, -, hlocked'⟩ := h.edge
      obtain rfl := mem_unique hedge hbody
      rw [hlocked] at hlocked'
      cases hlocked'
    | _ => exact ⟨nofun, nofun⟩
  · cases hanswer
    exact ⟨nofun, nofun⟩
  · cases hanswer
    exact ⟨nofun, nofun⟩

/-- The request of a roll-back is taken if the directory is there and is not too young, and the
creation time is that of the edge. -/
lemma handle_unlock_eq_some {r : UnlockCurrentEdgeReq} {targetId : InodeId} {locked : Bool}
    (hshard : r.dirId.shard = cfg.shid) (hthere : DirectoryThere db false r.dirId)
    (hyoung : NotYoung db d.time false r.dirId) (hmoved : r.wasMoved = false)
    (hedge : db.names.Edge (cfg.edgeName r.dirId r.name) targetId r.creationTime locked) :
    ∃ db', handle cfg db d (.write (.unlockCurrentEdge r)) = some (db', .ok .done) := by
  obtain ⟨dir, hdir⟩ := hthere
  obtain ⟨body, hbody, -, htime, -⟩ := hedge
  have hbody' : db.currentEdges.get (cfg.edgeName r.dirId r.name) = some body := hbody
  have hprepare : prepareLogEntry cfg d.time d.pick (.unlockCurrentEdge r) =
      .ok ⟨d.time, .unlockCurrentEdge r⟩ := by
    simp [prepareLogEntry, prepareUnlockCurrentEdge, checkDirectoryRequest,
      (getDirectory_eq_ok.1 hdir).1, hshard]
  obtain ⟨batch, happly⟩ : ∃ batch, applyEntryBody cfg d.cache db d.time (.unlockCurrentEdge r) =
      .ok (batch, .done) := by
    simp only [applyEntryBody, applyUnlockCurrentEdge, initiateDirectoryModification, hdir,
      check_of (hyoung dir hdir), ok_bind, pure_bind, hbody', orFail, check_of htime, hmoved,
      Bool.false_eq_true, if_false]
    exact ⟨_, rfl⟩
  exact ⟨_, handle_write_of_ok hprepare happly⟩

/-- The request of a roll-back keeps the edge, and unlocks it if it is taken. -/
lemma unlock_of_handle {r : UnlockCurrentEdgeReq} {t : ℕ} {locked : Bool} (hmoved : r.wasMoved = false)
    (hedge : db.names.Edge (cfg.edgeName r.dirId r.name) r.targetId t locked)
    (h : handle cfg db d (.write (.unlockCurrentEdge r)) = some (db', result)) :
    ∃ locked', db'.names.Edge (cfg.edgeName r.dirId r.name) r.targetId t locked' ∧
      ∀ resp, result = .ok resp → locked' = false := by
  rcases handle_write h with ⟨_, resp, index, ⟨⟩, rfl, batch, happly, rfl⟩ | ⟨e, rfl, -⟩
  swap
  · refine ⟨locked, ?_, fun resp hresp => by cases hresp⟩
    rw [names_of_handle_error h]
    exact hedge
  simp only [applyEntryBody, applyUnlockCurrentEdge, hmoved, bind_eq_ok, orFail_eq_ok, check_eq_ok,
    exists_const, Prod.exists, Bool.false_eq_true, if_false] at happly
  obtain ⟨b, _, hinit, body, hbody, -, ⟨⟩⟩ := happly
  obtain ⟨dir, -, -, rfl, rfl⟩ := initiateDirectoryModification_eq_ok.1 hinit
  obtain ⟨body', hbody', htarget, htime, -⟩ := hedge
  obtain rfl := mem_unique hbody hbody'
  refine ⟨false, ?_, fun _ _ => rfl⟩
  by_cases hlocked : body.locked = true
  · rw [if_pos hlocked]
    refine ⟨_, get_put_self .., ?_, htime, ?_⟩
    · rw [← htarget, CurrentEdgeBody.targetId_of]
    · rw [← htarget, CurrentEdgeBody.locked_of]
  · rw [if_neg hlocked]
    exact ⟨body, hbody, htarget, htime, by simpa using hlocked⟩

end

/-! ## The invariant -/

/-- The name that the transaction creates an edge under is locked. -/
def CDCReq.NewNameLocked (cfg : ClusterConfig) (req : CDCReq) (shards : Fin 256 → ShardDB) : Prop :=
  ∃ dirId name, req.newName = some (dirId, name) ∧
    LockedName (cfg.shard dirId.shardId) (shards dirId.shardId) dirId name

/-- What holds of the old edge and of the new one in each phase. -/
def OldEdge.AtPhase (cfg : ClusterConfig) (req : CDCReq) (o : OldEdge)
    (shards : Fin 256 → ShardDB) (log : List Handled) : Phase → Prop
  | .locking => (∀ h ∈ log, h.Locks o → o.Holds cfg shards true) ∧ ∀ h ∈ log, ¬ h.Creates
  | .locked => (∃ h ∈ log, h.Locks o) ∧ o.Holds cfg shards true ∧
    ∀ h ∈ log, h.Creates → req.NewNameLocked cfg shards
  | .rollingBack _ => (∃ h ∈ log, h.Locks o) ∧ (∃ locked, o.Holds cfg shards locked) ∧
    ∀ h ∈ log, ¬ h.Creates
  | .goingOn => True

variable {phase : Phase}

section

variable {cfg : ClusterConfig} {req : CDCReq} {o : OldEdge} {shards : Fin 256 → ShardDB}
  {log : List Handled} {s : Fin 256} {db : ShardDB} {time : ℕ} {q : ShardReq}

/-- The old edge stays locked until it is unlocked. -/
lemma OldEdge.Holds.step (hholds : o.Holds cfg shards true)
    (hnames : NamesStep (cfg.shard s) time (shards s).names q db.names)
    (hunlock : ∀ r, q ≠ .unlockCurrentEdge r) : o.Holds cfg (update shards s db) true := by
  unfold Holds at hholds ⊢
  by_cases hs : o.dirId.shardId = s
  · subst hs
    rw [update_self]
    exact hnames.edge_of_locked (fun r hr => absurd hr (hunlock r)) hholds
  · rw [update_of_ne hs]
    exact hholds

/-- The new name stays locked until it is unlocked or its directory is removed. -/
lemma CDCReq.NewNameLocked.step (hlocked : req.NewNameLocked cfg shards)
    (hnames : NamesStep (cfg.shard s) time (shards s).names q db.names)
    (hunlock : ∀ r, q ≠ .unlockCurrentEdge r) (hremove : ∀ r, q ≠ .removeDirectoryOwner r) :
    req.NewNameLocked cfg (update shards s db) := by
  obtain ⟨dirId, name, hname, htype, ⟨dir, hdir⟩, targetId, creationTime, hedge⟩ := hlocked
  refine ⟨dirId, name, hname, ?_⟩
  by_cases hs : dirId.shardId = s
  · subst hs
    rw [update_self]
    exact ⟨htype, hnames.there_kept (fun r hr => absurd hr (hremove r)) hdir, targetId, creationTime,
      hnames.edge_of_locked (fun r hr => absurd hr (hunlock r)) hedge⟩
  · rw [update_of_ne hs]
    exact ⟨htype, ⟨dir, hdir⟩, targetId, creationTime, hedge⟩

/-- A request of a client keeps what holds in a phase.  Once the edge may be unlocked, the request
must not name it. -/
lemma OldEdge.AtPhase.client (hphase : o.AtPhase cfg req shards log phase)
    (hclient : ¬ q.Privileged)
    (hnames : NamesStep (cfg.shard s) time (shards s).names q db.names)
    (hkept : ∀ e, phase = .rollingBack e → s = o.dirId.shardId →
      q.Renames (cfg.shard s) (o.key cfg) →
        ∀ edge ∈ (shards s).currentEdges.get (o.key cfg), edge.locked = true) :
    o.AtPhase cfg req (update shards s db) log phase := by
  have hunlock : ∀ r, q ≠ .unlockCurrentEdge r := fun r hr => hclient (hr ▸ trivial)
  have hremove : ∀ r, q ≠ .removeDirectoryOwner r := fun r hr => hclient (hr ▸ trivial)
  cases phase with
  | locking => exact ⟨fun h hh hlocks => (hphase.1 h hh hlocks).step hnames hunlock, hphase.2⟩
  | locked =>
    obtain ⟨hlocks, hholds, hcreates⟩ := hphase
    exact ⟨hlocks, hholds.step hnames hunlock,
      fun h hh hcreate => (hcreates h hh hcreate).step hnames hunlock hremove⟩
  | rollingBack e =>
    obtain ⟨hlocks, ⟨locked, hholds⟩, hcreates⟩ := hphase
    refine ⟨hlocks, ⟨locked, ?_⟩, hcreates⟩
    unfold Holds at hholds ⊢
    by_cases hs : o.dirId.shardId = s
    · subst hs
      rw [update_self]
      obtain ⟨body, hbody, hrest⟩ := hholds
      refine ⟨body, hnames.current_of_client hclient hbody ?_, hrest⟩
      by_cases hrenames : q.Renames (cfg.shard o.dirId.shardId) (o.key cfg)
      · exact .inl (hkept e rfl rfl hrenames body hbody)
      · exact .inr hrenames
    · rw [update_of_ne hs]
      exact hholds
  | goingOn => trivial

lemma OldEdge.AtPhase.handled_read {q : ShardReadReq} {result : ShardResult}
    (hphase : o.AtPhase cfg req shards log phase)
    (hhandle : handle (cfg.shard s) (shards s) d (.read q) = some (db, result)) :
    o.AtPhase cfg req (update shards s db) (log ++ [⟨s, .read q, shards s, result⟩]) phase := by
  obtain rfl := eq_of_handle_read hhandle
  have hcreate : ¬ (⟨s, .read q, shards s, result⟩ : Handled).Creates := nofun
  have hlock : ¬ (⟨s, .read q, shards s, result⟩ : Handled).Locks o := nofun
  cases phase with
  | goingOn => trivial
  | _ => simpa [AtPhase, or_imp, forall_and, hcreate, hlock] using hphase

/-- Handling the request that the transaction waits for keeps what holds in its phase, provided that
the request to lock the edge names its target. -/
lemma OldEdge.AtPhase.handled {state : TxnState} {result : ShardResult}
    (hphase : o.AtPhase cfg req shards log phase) (hrequest : PhaseRequest req o state phase s r)
    (hnamed : r = o.lockReq → o.NamesTarget cfg (shards s))
    (hhandle : handle (cfg.shard s) (shards s) d r = some (db, result)) :
    o.AtPhase cfg req (update shards s db) (log ++ [⟨s, r, shards s, result⟩]) phase := by
  cases hrequest with
  | lock =>
    simp only [AtPhase, mem_append, mem_singleton]
    obtain ⟨hlocks, hcreates⟩ := hphase
    have hstays := namesStep_of_handle hhandle
    refine ⟨?_, ?_⟩
    · rintro h (hh | rfl) hlock
      · exact (hlocks h hh hlock).step hstays nofun
      obtain ⟨-, -, resp, rfl⟩ := hlock
      obtain ⟨body, hbody, htime, hlocked⟩ := lock_of_handle hhandle
      unfold Holds
      rw [update_self]
      exact hlocked (hnamed rfl body hbody htime)
    · rintro h (hh | rfl)
      · exact hcreates h hh
      · rintro ⟨r, resp, hr, -⟩
        cases hr
  | read => exact hphase.handled_read hhandle
  | @create _ q hshid hname =>
    subst hshid
    simp only [AtPhase, mem_append, mem_singleton]
    obtain ⟨⟨h, hh, hlock⟩, hholds, hcreates⟩ := hphase
    have hstays := namesStep_of_handle hhandle
    refine ⟨⟨h, .inl hh, hlock⟩, hholds.step hstays nofun, ?_⟩
    rintro h (hh | rfl) hcreate
    · exact (hcreates h hh hcreate).step hstays nofun nofun
    obtain ⟨r, resp, -, rfl⟩ := hcreate
    refine ⟨q.dirId, q.name, hname, ?_⟩
    rw [update_self]
    exact create_of_handle hhandle
  | removeOwner hname =>
    simp only [AtPhase, mem_append, mem_singleton]
    obtain ⟨⟨h, hh, hlock⟩, hholds, hcreates⟩ := hphase
    have hstays := namesStep_of_handle hhandle
    refine ⟨⟨h, .inl hh, hlock⟩, hholds.step hstays nofun, ?_⟩
    rintro h (hh | rfl) hcreate
    · obtain ⟨dirId, name, hnew, -⟩ := hcreates h hh hcreate
      rw [hname] at hnew
      cases hnew
    · obtain ⟨r, resp, hr, -⟩ := hcreate
      cases hr
  | unlock =>
    simp only [AtPhase, mem_append, mem_singleton]
    obtain ⟨⟨h, hh, hlock⟩, ⟨locked, hholds⟩, hcreates⟩ := hphase
    obtain ⟨locked', hedge, -⟩ := unlock_of_handle (r := o.unlockReq _) rfl hholds hhandle
    refine ⟨⟨h, .inl hh, hlock⟩, ⟨locked', ?_⟩, ?_⟩
    · unfold Holds
      rw [update_self]
      exact hedge
    rintro h (hh | rfl)
    · exact hcreates h hh
    · rintro ⟨r, resp, hr, -⟩
      cases hr
  | other => trivial

/-- A transaction that cannot go on has not created an edge. -/
lemma OldEdge.AtPhase.not_creates {state : TxnState} {e' : TernError}
    (hphase : o.AtPhase cfg req shards log .locked) (hwaits : req.Waits state s r)
    (hexit : state.exitError e = some e')
    (hhandle : handle (cfg.shard s) (shards s) d r = some (db, .error e)) :
    ∀ h ∈ log, ¬ h.Creates := by
  intro h hh hcreate
  obtain ⟨dirId, name, hname, hlocked⟩ := hphase.2.2 h hh hcreate
  have hcurrent := hwaits.current
  cases hwaits.runs with
  | renameFile q step =>
    cases hname
    cases step with
    | lookupOldCreationTime =>
      cases hcurrent
      have herror := hlocked.fullReadDir hhandle
      cases e <;> first | exact herror rfl | cases hexit
    | createNewLockedEdge =>
      cases hcurrent
      have herror := hlocked.create (cfg.shard_eq _) hhandle
      cases e <;> first | exact herror.1 rfl | exact herror.2 rfl | cases hexit
    | _ => cases hexit
  | renameDirectory q step =>
    cases hname
    cases step with
    | lookupOldCreationTime =>
      cases hcurrent
      have herror := hlocked.fullReadDir hhandle
      cases e <;> first | exact herror rfl | cases hexit
    | createLockedNewEdge =>
      cases hcurrent
      have herror := hlocked.create (cfg.shard_eq _) hhandle
      cases e <;> first | exact herror.1 rfl | exact herror.2 rfl | cases hexit
    | _ => cases hexit
  | _ => cases hname

/-- The edge that the request to lock has found is the one that the request names. -/
lemma OldEdge.named_handled {result : ShardResult}
    (hnamed : r = o.lockReq → o.NamesTarget cfg (shards s))
    (hhandle : handle (cfg.shard s) (shards s) d r = some (db, result))
    (hlocks : (⟨s, r, shards s, result⟩ : Handled).Locks o) :
    ∃ locked, (shards s).names.Edge (o.key cfg) o.targetId o.creationTime locked := by
  obtain ⟨rfl, rfl, resp, rfl⟩ := hlocks
  obtain ⟨body, hbody, htime, -⟩ := lock_of_handle hhandle
  exact ⟨body.locked, body, hbody, hnamed rfl body hbody htime, htime, rfl⟩

/-- What holds of a transaction that runs. -/
structure OldEdge.Running (cfg : ClusterConfig) (req : CDCReq) (o : OldEdge) (sys : TxnSystem)
    (state : TxnState) (shid : Fin 256) (r : CDCShardReq) : Prop where
  waits : req.Waits state shid r
  named : ∀ h ∈ sys.log, h.Locks o → ∃ locked,
    h.before.names.Edge (o.key cfg) o.targetId o.creationTime locked
  phase : o.AtPhase cfg req sys.shards sys.log state.phase

/-- The invariant of a transaction and its shards. -/
def OldEdge.Inv (cfg : ClusterConfig) (req : CDCReq) (o : OldEdge) (sys : TxnSystem) : Prop :=
  ∀ state shid r, sys.txn = .running state shid r → o.Running cfg req sys state shid r

variable {sys : TxnSystem} {state : TxnState} {shid : Fin 256} {r : CDCShardReq} {d : Delivery}
  {result : ShardResult}

lemma OldEdge.Running.handled (hrunning : o.Running cfg req sys state shid r)
    (hold : req.oldEdge = some o) {r' : CDCShardReq} {s : Fin 256}
    (hr : s = shid ∧ r' = r ∨ ∃ q, r' = .read q)
    (hnamed : r' = o.lockReq → o.NamesTarget cfg (sys.shards s))
    (hhandle : handle (cfg.shard s) (sys.shards s) d r' = some (db, result)) :
    o.Running cfg req (sys.handled s r' db result) state shid r := by
  refine ⟨hrunning.waits, fun h hh hlocks => ?_, ?_⟩
  · rcases mem_append.1 hh with hh | hh
    · exact hrunning.named h hh hlocks
    · obtain rfl := mem_singleton.1 hh
      exact named_handled hnamed hhandle hlocks
  · rcases hr with ⟨rfl, rfl⟩ | ⟨q, rfl⟩
    · exact hrunning.phase.handled (hrunning.waits.phaseRequest hold) hnamed hhandle
    · exact hrunning.phase.handled_read hhandle

/-- A timeout ends no phase. -/
lemma TxnState.exitError_timeout (state : TxnState) : state.exitError .timeout = none := by
  cases state with
  | renameFile step | renameDirectory step | softUnlinkDirectory step => cases step <;> rfl
  | _ => rfl

/-- The transaction goes on with the answer to its request. -/
lemma OldEdge.Running.respond (hrunning : o.Running cfg req sys state shid r)
    (hold : req.oldEdge = some o) (hnamed : r = o.lockReq → o.NamesTarget cfg (sys.shards shid))
    (hhandle : handle (cfg.shard shid) (sys.shards shid) d r = some (db, result))
    (hafter : req.after state result = some out) :
    o.Inv cfg req ((sys.handled shid r db result).record env out) := by
  intro state' shid' r' htxn
  obtain ⟨-, hnamed', hphase⟩ := hrunning.handled hold (.inl ⟨rfl, rfl⟩) hnamed hhandle
  refine ⟨(CDCReq.after_sound hrunning.waits hafter).waits htxn, hnamed', ?_⟩
  cases out with
  | finish | finishWithError => cases htxn
  | needsShard =>
    cases htxn
    have hstep := (CDCReq.after_follows hafter).phase
    have hrequest := hrunning.waits.phaseRequest hold
    have hbefore := hrunning.phase
    generalize hp : state.phase = p at hstep hphase hrequest hbefore
    generalize state'.phase = p' at hstep
    cases hstep with
    | retry | stay => exact hphase
    | goOn => trivial
    | lock hresult =>
      obtain ⟨hlocked, hcreates⟩ := hphase
      have hlock : (⟨shid, r, sys.shards shid, result⟩ : Handled).Locks o := by
        cases hrequest
        exact ⟨rfl, rfl, _, hresult⟩
      have hmem := mem_append_right sys.log (mem_singleton.2 (Eq.refl
        (⟨shid, r, sys.shards shid, result⟩ : Handled)))
      exact ⟨⟨_, hmem, hlock⟩, hlocked _ hmem hlock, fun h hh hcreate => absurd hcreate (hcreates h hh)⟩
    | rollBack hresult hexit =>
      subst hresult
      have hcreates := hbefore.not_creates hrunning.waits hexit hhandle
      obtain ⟨hlocks, hholds, -⟩ := hphase
      refine ⟨hlocks, ⟨true, hholds⟩, fun h hh => ?_⟩
      rcases mem_append.1 hh with hh | hh
      · exact hcreates h hh
      · obtain rfl := mem_singleton.1 hh
        rintro ⟨q, resp, -, hresult⟩
        cases hresult

/-- The transaction goes on without an answer: the request is sent again in the same phase, or the
transaction is past the point where it can fail. -/
lemma OldEdge.Running.retry (hrunning : o.Running cfg req sys state shid r)
    (hold : req.oldEdge = some o)
    (hresume : req.again state = some out ∨ req.after state (.error .timeout) = some out) :
    o.Inv cfg req (sys.record env out) := by
  intro state' shid' r' htxn
  obtain ⟨hwaits, hnamed, hphase⟩ := hrunning
  cases out with
  | finish | finishWithError => cases htxn
  | needsShard =>
    cases htxn
    rcases hresume with hagain | hafter
    · refine ⟨(CDCReq.again_sound hwaits hagain).waits rfl, hnamed, ?_⟩
      rw [CDCReq.again_phase hold hagain]
      exact hphase
    refine ⟨(CDCReq.after_sound hwaits hafter).waits rfl, hnamed, ?_⟩
    have hstep := (CDCReq.after_follows hafter).phase
    generalize state.phase = p at hstep hphase
    generalize state'.phase = p' at hstep
    cases hstep with
    | retry | stay => exact hphase
    | goOn => trivial
    | lock hresult => cases hresult
    | rollBack hresult hexit =>
      cases hresult
      rw [state.exitError_timeout] at hexit
      cases hexit

lemma OldEdge.Inv.step {sys' : TxnSystem} {ev : TxnEvent} (hinv : o.Inv cfg req sys)
    (hold : req.oldEdge = some o) (hok : o.EventOk cfg sys ev)
    (hstep : sys.step cfg req ev = some sys') : o.Inv cfg req sys' := by
  cases TxnSystem.txnStep_of_step hstep with
  | ignored => exact hinv
  | client hclient hshard =>
    intro state shid r htxn
    obtain ⟨hwaits, hnamed, hphase⟩ := hinv state shid r htxn
    have htxn' : sys.txn = .running state shid r := htxn
    simp only [EventOk, htxn'] at hok
    refine ⟨hwaits, hnamed, hphase.client hclient (shardStep_namesStep hshard) ?_⟩
    intro e hrolling hs hrenames
    rw [hrolling] at hok
    exact hok hs hrenames
  | @respond d state shid r db result env out htxn hhandle hresume =>
    have hrunning := hinv state shid r htxn
    simp only [EventOk, htxn] at hok
    exact hrunning.respond hold hok hhandle (hrunning.waits.after_of_resume hresume)
  | @deliver i d shid' r' db result hsent hhandle =>
    intro state shid r htxn
    have htxn' : sys.txn = .running state shid r := htxn
    simp only [EventOk, htxn', hsent] at hok
    have hrunning := hinv state shid r htxn
    cases r' with
    | read q => exact hrunning.handled hold (.inr ⟨q, rfl⟩) nofun hhandle
    | write =>
      obtain ⟨rfl, rfl, hnamed⟩ := hok
      exact hrunning.handled hold (.inl ⟨rfl, rfl⟩) hnamed hhandle
  | timeout htxn hresume =>
    have hrunning := hinv _ _ _ htxn
    exact hrunning.retry hold (.inr (hrunning.waits.after_of_resume hresume))
  | restart htxn hresume =>
    have hrunning := hinv _ _ _ htxn
    exact hrunning.retry hold (.inl (hrunning.waits.again_of_resume hresume))

/-- A transaction starts with a request to lock its old edge. -/
lemma OldEdge.inv_start (hold : req.oldEdge = some o)
    (hstart : TxnSystem.start req shards env = some sys) : o.Inv cfg req sys := by
  obtain ⟨⟨env', out⟩, hout, rfl⟩ := map_eq_some_iff.1 hstart
  intro state shid r htxn
  have hwaits := (CDCReq.start_sound hout).waits htxn
  have hlocking : state.phase = .locking := by
    cases req with
    | renameFile =>
      cases hout
      unfold RenameFile.start at htxn
      split_ifs at htxn <;> cases htxn
      rfl
    | softUnlinkDirectory =>
      cases hout
      unfold SoftUnlinkDirectory.start at htxn
      split_ifs at htxn <;> cases htxn
      rfl
    | renameDirectory =>
      cases hout
      unfold RenameDirectory.start at htxn
      split_ifs at htxn
      · cases htxn
      · cases htxn
      · split at htxn <;> cases htxn
        rfl
    | _ => cases hold
  refine ⟨hwaits, fun h hh => absurd hh not_mem_nil, ?_⟩
  rw [hlocking]
  simp [AtPhase]

/-- An error that does not let the transaction go on makes it roll back. -/
lemma CDCReq.after_exitError {e' : TernError} (hwaits : req.Waits state shid r)
    (hexit : state.exitError e = some e') (hnew : req.NewDirectoryOk (shards shid) state)
    (hhandle : handle (cfg.shard shid) (shards shid) d r = some (db, .error e)) :
    ∃ state' shid' repeated r',
      req.after state (.error e) = some (.needsShard state' shid' repeated r') ∧
      state'.phase = .rollingBack (some e') := by
  have hcurrent := hwaits.current
  cases hwaits.runs with
  | renameFile q step =>
    cases step with
    | lookupOldCreationTime =>
      cases e <;> cases hexit
      exact ⟨_, _, _, _, rfl, rfl⟩
    | createNewLockedEdge =>
      cases hcurrent
      cases e <;> cases hexit
      · -- the directory is not missing
        obtain ⟨dir, hdir⟩ := hnew
        rcases handle_createLockedCurrentEdge_cases (cfg.shard_eq _) hhandle with h | h | h
        · cases h with
          | noDirectory hdir' =>
            rw [hdir] at hdir'
            cases hdir'
        · cases h
        · cases h
      · exact ⟨_, _, _, _, rfl, rfl⟩
    | _ => cases hexit
  | softUnlinkDirectory q step | renameDirectory q step =>
    cases step <;> cases e <;> cases hexit <;> exact ⟨_, _, _, _, rfl, rfl⟩
  | _ => cases hexit

/-- A roll-back that is answered with success ends the transaction with its error. -/
lemma CDCReq.after_rollback (hwaits : req.Waits state shid r)
    (hphase : state.phase = .rollingBack (some e)) :
    req.after state (.ok resp) = some (.finishWithError e) := by
  cases hwaits.runs with
  | renameFile q step | softUnlinkDirectory q step | renameDirectory q step =>
    cases step <;> simp only [TxnState.phase, Phase.rollingBack.injEq, reduceCtorEq] at hphase
    simp [after, RenameFile.after, RenameFile.afterRollback, SoftUnlinkDirectory.after,
      SoftUnlinkDirectory.afterRollback, RenameDirectory.after, RenameDirectory.afterRollback,
      finishWithExitError, hphase]
  | _ => cases hphase

lemma TxnSystem.step_respond (htxn : sys.txn = .running state shid r)
    (hwaits : req.Waits state shid r)
    (hhandle : handle (cfg.shard shid) (sys.shards shid) d r = some (db, result))
    (hafter : req.after state result = some out) :
    ∃ env, sys.step cfg req (.respond d) = some ((sys.handled shid r db result).record env out) := by
  have htxn' : (sys.handled shid r db result).txn = .running state shid r := htxn
  obtain ⟨env, hresume⟩ : ∃ env, req.resume sys.env state (some result) = some (env, out) := by
    simp only [CDCReq.resume, if_neg hwaits.not_isStart, hafter, map_some]
    cases out <;> exact ⟨_, rfl⟩
  have hresume' : req.resume (sys.handled shid r db result).env state (some result) =
      some (env, out) := hresume
  refine ⟨env, ?_⟩
  simp [step, htxn, handleAt, hhandle, advance, htxn', hresume']

end

/-- **Rolling back.** In every run whose events meet the condition, an error that does not let the
transaction go on makes it roll back, and the roll-back ends the transaction with this error and
restores the old edge, provided that the shard takes the request to unlock it. -/
theorem CDCReq.rollback_restores {cfg : ClusterConfig} {req : CDCReq} {o : OldEdge}
    {shards : Fin 256 → ShardDB} {env : CDCEnv} {sys₀ sys : TxnSystem} {events : List TxnEvent}
    {state : TxnState} {shid : Fin 256} {r : CDCShardReq} (hold : req.oldEdge = some o)
    (hstart : TxnSystem.start req shards env = some sys₀)
    (hok : RunMeets (TxnSystem.step cfg req) (o.EventOk cfg) sys₀ events)
    (hrun : run (TxnSystem.step cfg req) sys₀ events = some sys)
    (htxn : sys.txn = .running state shid r) :
    (∀ d db e e', handle (cfg.shard shid) (sys.shards shid) d r = some (db, .error e) →
      state.exitError e = some e' → req.NewDirectoryOk (sys.shards shid) state →
      ∃ sys' state' shid' r', sys.step cfg req (.respond d) = some sys' ∧
        sys'.txn = .running state' shid' r' ∧ state'.phase = .rollingBack (some e')) ∧
    ∀ d e, state.phase = .rollingBack (some e) → o.RollbackOk (sys.shards shid) d.time state →
      ∃ sys', sys.step cfg req (.respond d) = some sys' ∧ sys'.txn = .finished (.error e) ∧
        Restored cfg o sys' := by
  have hstep : ∀ sys ev sys', o.Inv cfg req sys → o.EventOk cfg sys ev →
      sys.step cfg req ev = some sys' → o.Inv cfg req sys' :=
    fun sys ev sys' hinv hev => hinv.step hold hev
  obtain ⟨hwaits, hnamed, hphase⟩ :=
    run_invariant hstep (OldEdge.inv_start hold hstart) hok hrun state shid r htxn
  constructor
  · intro d db e e' hhandle hexit hnew
    obtain ⟨state', shid', repeated, r', hafter, hrolling⟩ :=
      after_exitError hwaits hexit hnew hhandle
    obtain ⟨env', hrespond⟩ := TxnSystem.step_respond htxn hwaits hhandle hafter
    exact ⟨_, state', shid', r', hrespond, rfl, hrolling⟩
  · intro d e hrolling ⟨hthere, hyoung, htime⟩
    have hrequest := hwaits.phaseRequest hold
    rw [hrolling] at hphase hrequest
    obtain ⟨hlocks, ⟨locked, hholds⟩, hcreates⟩ := hphase
    cases hrequest
    have hshard := cfg.shard_eq o.dirId
    have hholds' : (sys.shards o.dirId.shardId).names.Edge (o.key cfg) o.targetId
        (state.rollbackTime o) locked := htime.symm ▸ hholds
    obtain ⟨db, hhandle⟩ := handle_unlock_eq_some (r := o.unlockReq (state.rollbackTime o)) (d := d)
      hshard hthere hyoung rfl hholds'
    obtain ⟨env', hrespond⟩ := TxnSystem.step_respond htxn hwaits hhandle
      (after_rollback hwaits hrolling)
    obtain ⟨locked', hedge, hunlocked⟩ :=
      unlock_of_handle (r := o.unlockReq (state.rollbackTime o)) rfl hholds hhandle
    obtain rfl := hunlocked _ rfl
    obtain ⟨h₀, hh₀, hlock₀⟩ := hlocks
    refine ⟨_, hrespond, rfl, ⟨h₀, mem_append_left _ hh₀, hlock₀⟩, ?_, ?_⟩
    · intro h hh hlock
      rcases mem_append.1 hh with hh | hh
      · obtain ⟨original, horiginal, htarget, hcreation, -⟩ := (hnamed h hh hlock).choose_spec
        obtain ⟨body, hbody, htarget', hcreation', hbody'⟩ := hedge
        refine ⟨original, body, horiginal, ?_, hbody', htarget'.trans htarget.symm,
          hcreation'.trans hcreation.symm⟩
        change (update sys.shards o.dirId.shardId db o.dirId.shardId).currentEdges.get _ = _
        rw [update_self]
        exact hbody
      · obtain rfl := mem_singleton.1 hh
        cases hlock.2.1
    · intro h hh
      rcases mem_append.1 hh with hh | hh
      · exact hcreates h hh
      · obtain rfl := mem_singleton.1 hh
        rintro ⟨q, resp, hreq, -⟩
        cases hreq

/-- Move the file to a directory that does not exist. -/
def sampleLostRename : RenameReq :=
  ⟨sampleRemoteFile, sampleRemoteDir, [97], 2, .of .directory 0 5, [98]⟩

/-- The new directory is not found, and the roll-back of `RenameFile` asks for the edge with the
creation time 0.  The shard refuses the request, which takes the coordinator down; the old edge
stays locked. -/
theorem RenameFile.not_rolled_back : ∃ sys₀ sys state shid r db,
      TxnSystem.start (.renameFile sampleLostRename) sampleTwoShards .init = some sys₀ ∧
      run (TxnSystem.step sampleCluster (.renameFile sampleLostRename)) sys₀
        [sampleRespond 3, sampleRespond 4] = some sys ∧
      sys.txn = .running state shid r ∧ state.phase = .rollingBack (some .newDirectoryNotFound) ∧
      ((sys.shards 1).currentEdges.get ((sampleCluster.shard 1).edgeName sampleRemoteDir [97])).any
        CurrentEdgeBody.locked = true ∧
      handle (sampleCluster.shard shid) (sys.shards shid) ⟨5, samplePick, sampleCache⟩ r =
        some (db, .error .mismatchingCreationTime) ∧
      (CDCReq.renameFile sampleLostRename).resume sys.env state
        (some (.error .mismatchingCreationTime)) = none := by
  simp only [exists_and_left]
  decide +kernel

/-- The directory of the second shard has the name `d` in the root directory. -/
def sampleTree : Fin 256 → ShardDB := fun s =>
  if s = 1 then sampleRemoteDB
  else { initDb (sampleCluster.shard s) 0 with
    currentEdges := SortedStore.empty.put ((sampleCluster.shard 0).edgeName .rootDir [100])
      ⟨.of sampleRemoteDir false, 1⟩ }

/-- Unlink the directory `d`, which has a file. -/
def sampleUnlinkDirectory : SoftUnlinkDirectoryReq := ⟨.rootDir, sampleRemoteDir, 1, [100]⟩

/-- The edge of the directory `d`. -/
def sampleOldEdge : OldEdge := ⟨.rootDir, [100], sampleRemoteDir, 1⟩

theorem SoftUnlinkDirectory.restored_of_notEmpty : ∃ sys₀ sys sys',
      TxnSystem.start (.softUnlinkDirectory sampleUnlinkDirectory) sampleTree .init = some sys₀ ∧
      run (TxnSystem.step sampleCluster (.softUnlinkDirectory sampleUnlinkDirectory)) sys₀
        [sampleRespond 3, sampleRespond 4, .timeout, sampleRespond 5, sampleRespond 6] = some sys ∧
      sys.step sampleCluster (.softUnlinkDirectory sampleUnlinkDirectory) (sampleRespond 7) =
        some sys' ∧
      sys'.txn = .finished (.error .directoryNotEmpty) ∧
      Restored sampleCluster sampleOldEdge sys' := by
  have hrolling : ∃ sys₀,
      TxnSystem.start (.softUnlinkDirectory sampleUnlinkDirectory) sampleTree .init = some sys₀ ∧
      RunMeets (TxnSystem.step sampleCluster (.softUnlinkDirectory sampleUnlinkDirectory))
        (sampleOldEdge.EventOk sampleCluster) sys₀
        [sampleRespond 3, sampleRespond 4, .timeout, sampleRespond 5, sampleRespond 6] ∧
      ∃ sys, run (TxnSystem.step sampleCluster (.softUnlinkDirectory sampleUnlinkDirectory)) sys₀
        [sampleRespond 3, sampleRespond 4, .timeout, sampleRespond 5, sampleRespond 6] = some sys ∧
      ∃ state shid r, sys.txn = .running state shid r ∧
        state.phase = .rollingBack (some .directoryNotEmpty) ∧
        sampleOldEdge.RollbackOk (sys.shards shid) 7 state := by decide +kernel
  obtain ⟨sys₀, hstart, hok, sys, hrun, state, shid, r, htxn, hphase, hrollback⟩ := hrolling
  obtain ⟨sys', hend⟩ := (CDCReq.rollback_restores (o := sampleOldEdge) rfl hstart hok hrun htxn).2
    ⟨7, samplePick, sampleCache⟩ _ hphase hrollback
  exact ⟨sys₀, sys, sys', hstart, hrun, hend⟩

end TernFS
