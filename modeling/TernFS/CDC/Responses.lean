/-
# Responses that transactions handle

Each step of a transaction names the errors of a shard that it expects, and asserts that there are
no others.  This file says for every step in which states of the shard the answer is an expected
one (`ResponseOk`), and shows that the coordinator handles the answer in these states and in no
others: everywhere else an assertion fails, or a response is read that is not there.  Between two
steps the shards may change in any way, so nothing is assumed about clients or about other
transactions.
-/
import TernFS.CDC.LateCopies
import TernFS.CDC.Steps

namespace TernFS

open Lib Option

variable {env env' : CDCEnv} {out : Outcome}

variable {req : CDCReq} {q : RenameReq} {st : RenameState} {cfg : ClusterConfig}
  {state : TxnState}

/-! ## The transactions that can be reached -/

/-- The states of a transaction when its shards may change in any way while it waits. -/
inductive CDCReq.Reached (cfg : ClusterConfig) (req : CDCReq) : TxnStatus → Prop
  | start {env env' : CDCEnv} {out : Outcome} (hstart : req.start env = some (env', out)) :
    Reached cfg req out.status
  | restart {state : TxnState} {shid : Fin 256} {r : CDCShardReq} {out : Outcome}
      (hreached : Reached cfg req (.running state shid r)) (hagain : req.again state = some out) :
    Reached cfg req out.status
  | timeout {state : TxnState} {shid : Fin 256} {r : CDCShardReq} {out : Outcome}
      (hreached : Reached cfg req (.running state shid r))
      (hafter : req.after state (.error .timeout) = some out) :
    Reached cfg req out.status
  | respond {state : TxnState} {shid : Fin 256} {r : CDCShardReq} {db db' : ShardDB} {d : Delivery}
      {result : ShardResult} {out : Outcome} (hreached : Reached cfg req (.running state shid r))
      (hhandle : handle (cfg.shard shid) db d r = some (db', result))
      (hafter : req.after state result = some out) :
    Reached cfg req out.status

/-- What a request has to be for its ids and names to pass the checks of the shards. -/
def CDCReq.WellFormed : CDCReq → Prop
  | makeDirectory r => r.ownerId.type = .directory ∧ ValidName r.name
  | hardUnlinkDirectory r => r.dirId.type = .directory
  | renameFile r | renameDirectory r =>
    r.oldOwnerId.type = .directory ∧ r.newOwnerId.type = .directory ∧ ValidName r.newName
  | softUnlinkDirectory r => r.ownerId.type = .directory
  | crossShardHardUnlinkFile r => r.ownerId.type = .directory ∧ r.targetId.type ≠ .reserved

/-- What a shard checks of the owner and the name in the request of a step of `MakeDirectory`. -/
def MakeDirectory.FieldsOk (req : MakeDirectoryReq) : MakeDirectoryStep → Prop
  | .start | .rollback => True
  | .lookup | .createDir | .unlockEdge => req.ownerId.type = .directory
  | .lookupOldCreationTime => req.ownerId.type = .directory ∧ req.name ≠ []
  | .createLockedEdge => req.ownerId.type = .directory ∧ ValidName req.name

/-- What a shard checks of the owners and the new name in the request of a step of `RenameFile`. -/
def RenameFile.FieldsOk (req : RenameReq) : RenameFileStep → Prop
  | .start => True
  | .lockOldEdge | .unlockOldEdge | .rollback => req.oldOwnerId.type = .directory
  | .lookupOldCreationTime => req.newOwnerId.type = .directory ∧ req.newName ≠ []
  | .createNewLockedEdge => req.newOwnerId.type = .directory ∧ ValidName req.newName
  | .unlockNewEdge => req.newOwnerId.type = .directory

/-- What a shard checks of the owner in the request of a step of `SoftUnlinkDirectory`. -/
def SoftUnlinkDirectory.FieldsOk (req : SoftUnlinkDirectoryReq) : SoftUnlinkDirectoryStep → Prop
  | .start | .stat | .removeOwner => True
  | .lockEdge | .unlockEdge | .rollback => req.ownerId.type = .directory

/-- What a shard checks of the owners and the new name in the request of a step of
`RenameDirectory`; the rollback takes any answer. -/
def RenameDirectory.FieldsOk (req : RenameReq) : RenameDirectoryStep → Prop
  | .start | .rollback => True
  | .lockOldEdge | .unlockOldEdge => req.oldOwnerId.type = .directory
  | .lookupOldCreationTime => req.newOwnerId.type = .directory ∧ req.newName ≠ []
  | .createLockedNewEdge => req.newOwnerId.type = .directory ∧ ValidName req.newName
  | .unlockNewEdge | .setOwner => req.newOwnerId.type = .directory

/-- What a shard checks of the ids and names of a transaction in the request of the step. -/
def CDCReq.FieldsOk : CDCReq → TxnState → Prop
  | makeDirectory r, .makeDirectory step _ => MakeDirectory.FieldsOk r step
  | hardUnlinkDirectory r, _ => r.dirId.type = .directory
  | renameFile r, .renameFile step _ => RenameFile.FieldsOk r step
  | softUnlinkDirectory r, .softUnlinkDirectory step _ => SoftUnlinkDirectory.FieldsOk r step
  | renameDirectory r, .renameDirectory step _ => RenameDirectory.FieldsOk r step
  | crossShardHardUnlinkFile r, .crossShardHardUnlinkFile .removeEdge =>
    r.ownerId.type = .directory ∧ r.targetId.type ≠ .reserved
  | crossShardHardUnlinkFile r, .crossShardHardUnlinkFile .makeTransient =>
    r.targetId.type ≠ .reserved
  | _, _ => True

/-- What the start of a transaction has checked. -/
def CDCReq.Admitted : CDCReq → Prop
  | renameDirectory r => r.targetId.type = .directory
  | softUnlinkDirectory r => r.targetId.type = .directory
  | crossShardHardUnlinkFile r => r.targetId.type ≠ .directory
  | _ => True

/-- A transaction that waits for the answer to a request. -/
structure CDCReq.Waits (req : CDCReq) (state : TxnState) (shid : Fin 256) (r : CDCShardReq) :
    Prop where
  admitted : req.Admitted
  current : req.Current state shid r
  keepsError : state.KeepsError

/-- The state is one of the machine of the request. -/
inductive CDCReq.Runs : CDCReq → TxnState → Prop
  | makeDirectory (q step st) : Runs (.makeDirectory q) (.makeDirectory step st)
  | hardUnlinkDirectory (q step) : Runs (.hardUnlinkDirectory q) (.hardUnlinkDirectory step)
  | renameFile (q step st) : Runs (.renameFile q) (.renameFile step st)
  | softUnlinkDirectory (q step st) : Runs (.softUnlinkDirectory q) (.softUnlinkDirectory step st)
  | renameDirectory (q step st) : Runs (.renameDirectory q) (.renameDirectory step st)
  | crossShardHardUnlinkFile (q step) :
    Runs (.crossShardHardUnlinkFile q) (.crossShardHardUnlinkFile step)

lemma CDCReq.Waits.runs {shid : Fin 256} {r : CDCShardReq} (h : req.Waits state shid r) :
    req.Runs state := by
  have hcurrent := h.current
  cases req <;> cases state <;> first | constructor | cases hcurrent

/-- A request that is well formed passes the checks in every step. -/
lemma CDCReq.WellFormed.fieldsOk (h : req.WellFormed) (hruns : req.Runs state) :
    req.FieldsOk state := by
  cases hruns with
  | hardUnlinkDirectory => exact h
  | makeDirectory q step | renameFile q step | softUnlinkDirectory q step
  | renameDirectory q step | crossShardHardUnlinkFile q step =>
    cases step <;> first
      | trivial
      | exact h
      | exact h.1
      | exact h.2
      | exact h.2.1
      | exact ⟨h.1, h.2.1⟩
      | exact ⟨h.2.1, h.2.2.1⟩

/-- What holds of the outcome of every step. -/
def Outcome.Sound (req : CDCReq) : Outcome → Prop
  | needsShard state shid _ r => req.Waits state shid r
  | _ => True

lemma CDCReq.start_sound (h : req.start env = some (env', out)) : out.Sound req := by
  cases req with
  | makeDirectory =>
    obtain ⟨_, _, ⟨⟩⟩ := bind_eq_some.1 h
    exact ⟨trivial, rfl, trivial⟩
  | hardUnlinkDirectory =>
    cases h
    exact ⟨trivial, rfl, trivial⟩
  | renameFile | softUnlinkDirectory | renameDirectory | crossShardHardUnlinkFile =>
    cases h
    simp only [RenameFile.start, SoftUnlinkDirectory.start, RenameDirectory.start,
      CrossShardHardUnlinkFile.start]
    repeat' split
    all_goals first
      | trivial
      | exact ⟨trivial, rfl, trivial⟩
      | exact ⟨by assumption, rfl, trivial⟩
      | exact ⟨not_not.1 (by assumption), rfl, trivial⟩

section

variable {req : CDCReq} {state : TxnState} {shid : Fin 256} {r : CDCShardReq} {out : Outcome}

/-- A transaction that comes up again waits for the request that it sends again. -/
lemma CDCReq.again_sound (hwaits : req.Waits state shid r) (h : req.again state = some out) :
    out.Sound req := by
  have hkeeps := hwaits.keepsError
  have hadmitted := hwaits.admitted
  cases hwaits.runs with
  | makeDirectory q step | hardUnlinkDirectory q step | renameFile q step
  | softUnlinkDirectory q step | renameDirectory q step | crossShardHardUnlinkFile q step =>
    cases step <;> cases h <;> exact ⟨hadmitted, rfl, hkeeps⟩

/-- A transaction that goes on waits for the request that it has sent. -/
lemma CDCReq.after_sound {result : ShardResult} (hwaits : req.Waits state shid r)
    (h : req.after state result = some out) : out.Sound req := by
  have hfollows := after_follows h
  cases out with
  | needsShard => exact ⟨hwaits.admitted, hfollows.current, hfollows.keepsError hwaits.keepsError⟩
  | finish | finishWithError => trivial

/-- A transaction that runs waits for the request of its step. -/
lemma Outcome.Sound.waits (hsound : out.Sound req) (hstatus : out.status = .running state shid r) :
    req.Waits state shid r := by
  cases out with
  | needsShard =>
    cases hstatus
    exact hsound
  | finish | finishWithError => cases hstatus

lemma CDCReq.Reached.waits {status : TxnStatus} (hreached : req.Reached cfg status) :
    ∀ {state shid r}, status = .running state shid r → req.Waits state shid r := by
  induction hreached with
  | start hstart => exact fun hstatus => (start_sound hstart).waits hstatus
  | restart _ hagain ih => exact fun hstatus => (again_sound (ih rfl) hagain).waits hstatus
  | timeout _ hafter ih | respond _ _ hafter ih =>
    exact fun hstatus => (after_sound (ih rfl) hafter).waits hstatus

end

/-! ## Which answers are expected -/

section

variable (cfg : ShardConfig) (db : ShardDB) (time : ℕ)

/-- The directory is there. -/
def DirectoryThere (allowSnapshot : Bool) (dirId : InodeId) : Prop :=
  ∃ dir, getDirectory db dirId allowSnapshot = .ok dir

/-- If the directory is there, it was modified before `time`. -/
def NotYoung (allowSnapshot : Bool) (dirId : InodeId) : Prop :=
  ∀ dir, getDirectory db dirId allowSnapshot = .ok dir → dir.mtime < time

/-- The name has a current edge of this creation time. -/
def EdgeThere (dirId : InodeId) (name : Bytes) (creationTime : ℕ) : Prop :=
  ∃ edge ∈ db.currentEdges.get (cfg.edgeName dirId name), edge.creationTime = creationTime

/-- If the name has a current edge, it is of this creation time. -/
def NoOtherEdge (dirId : InodeId) (name : Bytes) (creationTime : ℕ) : Prop :=
  ∀ edge ∈ db.currentEdges.get (cfg.edgeName dirId name), edge.creationTime = creationTime

/-- If the name is locked, its target is the given one. -/
def NotLockedForOther (dirId : InodeId) (name : Bytes) (targetId : InodeId) : Prop :=
  ∀ edge ∈ db.currentEdges.get (cfg.edgeName dirId name), edge.locked = true →
    edge.targetId = targetId

/-- When the answer to the request of a step of `MakeDirectory` is expected. -/
def MakeDirectory.ResponseOk (req : MakeDirectoryReq) (state : MakeDirectoryState) :
    MakeDirectoryStep → Prop
  | .start | .lookup | .lookupOldCreationTime => True
  | .createDir => state.dirId.type = .directory ∧
      ∀ dir, getDirectory db state.dirId false = .ok dir → dir.ownerId = req.ownerId
  | .createLockedEdge => DirectoryThere db false req.ownerId ∧
      (NotYoung db time false req.ownerId → NotLockedForOther cfg db req.ownerId req.name state.dirId)
  | .unlockEdge => DirectoryThere db false req.ownerId ∧
      (NotYoung db time false req.ownerId → EdgeThere cfg db req.ownerId req.name state.creationTime)
  | .rollback => DirectoryThere db true state.dirId ∧ NotYoung db time true state.dirId ∧
      ∀ dir, getDirectory db state.dirId true = .ok dir → dir.ownerId ≠ .null →
        ¬ HasCurrentEdge db state.dirId

/-- When the answer to the request of a step of `RenameFile` is expected. -/
def RenameFile.ResponseOk (req : RenameReq) (state : RenameState) : RenameFileStep → Prop
  | .start | .lookupOldCreationTime => True
  | .lockOldEdge => NotYoung db time false req.oldOwnerId
  | .createNewLockedEdge => DirectoryThere db false req.newOwnerId ∧
      (NotYoung db time false req.newOwnerId →
        NotLockedForOther cfg db req.newOwnerId req.newName req.targetId)
  | .unlockNewEdge => DirectoryThere db false req.newOwnerId ∧
      NotYoung db time false req.newOwnerId ∧
      EdgeThere cfg db req.newOwnerId req.newName state.newCreationTime
  | .unlockOldEdge => DirectoryThere db false req.oldOwnerId ∧
      NotYoung db time false req.oldOwnerId ∧
      NoOtherEdge cfg db req.oldOwnerId req.oldName req.oldCreationTime
  | .rollback => DirectoryThere db false req.oldOwnerId ∧ NotYoung db time false req.oldOwnerId ∧
      EdgeThere cfg db req.oldOwnerId req.oldName state.newCreationTime

/-- When the answer to the request of a step of `SoftUnlinkDirectory` is expected. -/
def SoftUnlinkDirectory.ResponseOk (req : SoftUnlinkDirectoryReq)
    (state : SoftUnlinkDirectoryState) : SoftUnlinkDirectoryStep → Prop
  | .start => True
  | .lockEdge => NotYoung db time false req.ownerId
  | .stat => DirectoryThere db true state.statDirId ∧
      ∀ dir, getDirectory db state.statDirId true = .ok dir →
        (requiredInfo [] dir.info).length = requiredDirInfoTags.length ∨ dir.ownerId ≠ .null
  | .removeOwner => DirectoryThere db true req.targetId ∧ NotYoung db time true req.targetId
  | .unlockEdge | .rollback => DirectoryThere db false req.ownerId ∧
      NotYoung db time false req.ownerId ∧
      NoOtherEdge cfg db req.ownerId req.name req.creationTime

/-- When the answer to the request of a step of `RenameDirectory` is expected. -/
def RenameDirectory.ResponseOk (req : RenameReq) (state : RenameState) : RenameDirectoryStep → Prop
  | .start | .lookupOldCreationTime | .rollback => True
  | .lockOldEdge => NotYoung db time false req.oldOwnerId
  | .createLockedNewEdge => DirectoryThere db false req.newOwnerId →
      NotYoung db time false req.newOwnerId →
        NotLockedForOther cfg db req.newOwnerId req.newName req.targetId
  | .unlockNewEdge => DirectoryThere db false req.newOwnerId ∧
      NotYoung db time false req.newOwnerId ∧
      NoOtherEdge cfg db req.newOwnerId req.newName state.newCreationTime
  | .unlockOldEdge => DirectoryThere db false req.oldOwnerId ∧
      NotYoung db time false req.oldOwnerId ∧
      NoOtherEdge cfg db req.oldOwnerId req.oldName req.oldCreationTime
  | .setOwner => DirectoryThere db true req.targetId ∧ NotYoung db time true req.targetId

/-- When the answer to the request of a transaction is expected, in terms of the database of the
shard that handles it and of the time of the log entry.  `CrossShardHardUnlinkFile` expects every
answer. -/
def CDCReq.ResponseOk : CDCReq → TxnState → Prop
  | makeDirectory req, .makeDirectory step state => MakeDirectory.ResponseOk cfg db time req state step
  | hardUnlinkDirectory req, _ => req.dirId ≠ .rootDir ∧ NotYoung db time true req.dirId
  | renameFile req, .renameFile step state => RenameFile.ResponseOk cfg db time req state step
  | softUnlinkDirectory req, .softUnlinkDirectory step state =>
    SoftUnlinkDirectory.ResponseOk cfg db time req state step
  | renameDirectory req, .renameDirectory step state =>
    RenameDirectory.ResponseOk cfg db time req state step
  | _, _ => True

instance {p : DirectoryBody → Prop} [DecidablePred p] (allowSnapshot : Bool) (dirId : InodeId) :
    Decidable (∀ dir, getDirectory db dirId allowSnapshot = .ok dir → p dir) :=
  match h : getDirectory db dirId allowSnapshot with
  | .ok dir => decidable_of_iff (p dir) (by simp)
  | .error _ => isTrue (by simp)

instance (allowSnapshot : Bool) (dirId : InodeId) : Decidable (DirectoryThere db allowSnapshot dirId) :=
  match h : getDirectory db dirId allowSnapshot with
  | .ok dir => isTrue ⟨dir, h⟩
  | .error _ => isFalse (by rintro ⟨dir, hdir⟩; rw [h] at hdir; cases hdir)

instance (allowSnapshot : Bool) (dirId : InodeId) : Decidable (NotYoung db time allowSnapshot dirId) :=
  inferInstanceAs (Decidable (∀ _, _ → _))

instance (dirId : InodeId) (name : Bytes) (creationTime : ℕ) :
    Decidable (EdgeThere cfg db dirId name creationTime) :=
  inferInstanceAs (Decidable (∃ edge ∈ _, _))

instance (dirId : InodeId) (name : Bytes) (creationTime : ℕ) :
    Decidable (NoOtherEdge cfg db dirId name creationTime) :=
  inferInstanceAs (Decidable (∀ edge ∈ _, _))

instance (dirId : InodeId) (name : Bytes) (targetId : InodeId) :
    Decidable (NotLockedForOther cfg db dirId name targetId) :=
  inferInstanceAs (Decidable (∀ edge ∈ _, _))

instance (req : MakeDirectoryReq) (state : MakeDirectoryState) (step : MakeDirectoryStep) :
    Decidable (MakeDirectory.ResponseOk cfg db time req state step) := by
  cases step <;> dsimp only [MakeDirectory.ResponseOk] <;> infer_instance

instance (req : RenameReq) (state : RenameState) (step : RenameFileStep) :
    Decidable (RenameFile.ResponseOk cfg db time req state step) := by
  cases step <;> dsimp only [RenameFile.ResponseOk] <;> infer_instance

instance (req : SoftUnlinkDirectoryReq) (state : SoftUnlinkDirectoryState)
    (step : SoftUnlinkDirectoryStep) :
    Decidable (SoftUnlinkDirectory.ResponseOk cfg db time req state step) := by
  cases step <;> dsimp only [SoftUnlinkDirectory.ResponseOk] <;> infer_instance

instance (req : RenameReq) (state : RenameState) (step : RenameDirectoryStep) :
    Decidable (RenameDirectory.ResponseOk cfg db time req state step) := by
  cases step <;> dsimp only [RenameDirectory.ResponseOk] <;> infer_instance

instance (req : CDCReq) (state : TxnState) : Decidable (req.ResponseOk cfg db time state) := by
  induction req using CDCReq.casesOn <;> induction state using TxnState.casesOn <;>
    dsimp only [CDCReq.ResponseOk] <;> infer_instance

end

/-- The shard of an id is the one that its requests are sent to. -/
lemma ClusterConfig.shard_eq (cfg : ClusterConfig) (x : InodeId) :
    x.shard = (cfg.shard x.shardId).shid := (cfg.shid_eq x.shardId).symm

section

variable {cfg : ClusterConfig} {shid : Fin 256} {r : CDCShardReq} {db db' : ShardDB} {d : Delivery}
  {result : ShardResult}

lemma HardUnlinkDirectory.after_isSome_iff {q : HardUnlinkDirectoryReq}
    (htype : q.dirId.type = .directory)
    (hhandle : handle (cfg.shard q.dirId.shardId) db d (.write (.removeInode ⟨q.dirId⟩)) =
      some (db', result)) :
    (HardUnlinkDirectory.afterRemoveInode q result).isSome ↔
      q.dirId ≠ .rootDir ∧ NotYoung db d.time true q.dirId := by
  cases handle_removeInode htype (cfg.shard_eq _) hhandle <;> simp_all [afterRemoveInode, NotYoung]

section

variable (hhandle : handle (cfg.shard shid) db d r = some (db', result))
include hhandle

lemma MakeDirectory.after_isSome_iff {q : MakeDirectoryReq} {st : MakeDirectoryState}
    {step : MakeDirectoryStep} (hfields : MakeDirectory.FieldsOk q step)
    (hwaits : (CDCReq.makeDirectory q).Waits (.makeDirectory step st) shid r) :
    (MakeDirectory.after q st step result).isSome ↔
      MakeDirectory.ResponseOk (cfg.shard shid) db d.time q st step := by
  obtain ⟨-, hcurrent, hkeeps⟩ := hwaits
  cases step with
  | start => cases hcurrent
  | lookup =>
    cases hcurrent
    rcases handle_lookup hfields hhandle with rfl | rfl | ⟨targetId, creationTime, rfl⟩
    · simp [after, afterLookup, ResponseOk]
    · simp [after, afterLookup, ResponseOk]
    · by_cases htype : targetId.type = .directory <;> simp [after, afterLookup, ResponseOk, htype]
  | createDir =>
    cases hcurrent
    cases handle_createDirectoryInode (cfg.shard_eq _) (by exact hfields) hhandle with
    | notDirectory htype => simp [after, afterCreateDirectoryInode, ResponseOk, htype]
    | otherOwner hdir howner => simp [after, afterCreateDirectoryInode, ResponseOk, hdir, howner]
    | done htype howner =>
      simp only [after, afterCreateDirectoryInode, ResponseOk, isSome_some, true_iff]
      exact ⟨htype, howner⟩
  | lookupOldCreationTime =>
    cases hcurrent
    rcases handle_fullReadDir hfields.1 hfields.2 hhandle with ⟨rfl, -⟩ | rfl | ⟨time, rfl⟩ <;>
      simp [after, afterLookupOldCreationTime, ResponseOk]
  | createLockedEdge =>
    cases hcurrent
    cases handle_createLockedCurrentEdge hfields.1 (cfg.shard_eq _) hfields.2 hhandle <;>
      simp_all [after, afterCreateLockedEdge, createCurrentLockedEdgeRetry, ResponseOk,
        DirectoryThere, NotYoung, NotLockedForOther]
  | unlockEdge =>
    cases hcurrent
    cases handle_unlockCurrentEdge (by exact hfields) (cfg.shard_eq _) hhandle <;>
      simp_all [after, afterUnlockEdge, ResponseOk, DirectoryThere, NotYoung, EdgeThere]
  | rollback =>
    cases hcurrent
    obtain ⟨err, herr⟩ := isSome_iff_exists.1 hkeeps
    cases handle_removeDirectoryOwner (cfg.shard_eq _) hhandle <;>
      simp_all [after, afterRollback, finishWithExitError, ResponseOk, DirectoryThere, NotYoung]

lemma RenameFile.after_isSome_iff {step : RenameFileStep} (hfields : RenameFile.FieldsOk q step)
    (hwaits : (CDCReq.renameFile q).Waits (.renameFile step st) shid r) :
    (RenameFile.after q st step result).isSome ↔
      RenameFile.ResponseOk (cfg.shard shid) db d.time q st step := by
  obtain ⟨-, hcurrent, hkeeps⟩ := hwaits
  cases step with
  | start => cases hcurrent
  | lockOldEdge =>
    cases hcurrent
    cases handle_lockCurrentEdge (by exact hfields) (cfg.shard_eq _) hhandle <;>
      simp_all [after, afterLockOldEdge, ResponseOk, NotYoung]
  | lookupOldCreationTime =>
    cases hcurrent
    rcases handle_fullReadDir hfields.1 hfields.2 hhandle with ⟨rfl, -⟩ | rfl | ⟨time, rfl⟩ <;>
      simp [after, afterLookupOldCreationTime, ResponseOk]
  | createNewLockedEdge =>
    cases hcurrent
    cases handle_createLockedCurrentEdge hfields.1 (cfg.shard_eq _) hfields.2 hhandle <;>
      simp_all [after, afterCreateNewLockedEdge, createCurrentLockedEdgeRetry, ResponseOk,
        DirectoryThere, NotYoung, NotLockedForOther]
  | unlockNewEdge | unlockOldEdge =>
    cases hcurrent
    cases handle_unlockCurrentEdge (by exact hfields) (cfg.shard_eq _) hhandle <;>
      simp_all [after, afterUnlockNewEdge, afterUnlockOldEdge, ResponseOk, DirectoryThere, NotYoung,
        EdgeThere, NoOtherEdge]
  | rollback =>
    cases hcurrent
    obtain ⟨err, herr⟩ := isSome_iff_exists.1 hkeeps
    cases handle_unlockCurrentEdge (by exact hfields) (cfg.shard_eq _) hhandle <;>
      simp_all [after, afterRollback, finishWithExitError, ResponseOk, DirectoryThere, NotYoung,
        EdgeThere]

lemma SoftUnlinkDirectory.after_isSome_iff {q : SoftUnlinkDirectoryReq}
    {st : SoftUnlinkDirectoryState} {step : SoftUnlinkDirectoryStep}
    (hfields : SoftUnlinkDirectory.FieldsOk q step)
    (hwaits : (CDCReq.softUnlinkDirectory q).Waits (.softUnlinkDirectory step st) shid r) :
    (SoftUnlinkDirectory.after q st step result).isSome ↔
      SoftUnlinkDirectory.ResponseOk (cfg.shard shid) db d.time q st step := by
  obtain ⟨-, hcurrent, hkeeps⟩ := hwaits
  cases step with
  | start => cases hcurrent
  | lockEdge =>
    cases hcurrent
    cases handle_lockCurrentEdge (by exact hfields) (cfg.shard_eq _) hhandle <;>
      simp_all [after, afterLockEdge, ResponseOk, NotYoung]
  | stat =>
    cases hcurrent
    rcases handle_statDirectory hhandle with ⟨e, e', hdir, rfl, htimeout⟩ | ⟨dir, hdir, rfl⟩
    · cases e' <;> simp_all [after, afterStat, ResponseOk, DirectoryThere]
    by_cases hlength : (requiredInfo [] dir.info).length = requiredDirInfoTags.length
    · simp [after, afterStat, ResponseOk, DirectoryThere, hdir, hlength]
    · by_cases howner : dir.ownerId = .null <;>
        simp [after, afterStat, ResponseOk, DirectoryThere, hdir, hlength, howner]
  | removeOwner =>
    obtain ⟨rfl, info, rfl⟩ := hcurrent
    cases handle_removeDirectoryOwner (cfg.shard_eq _) hhandle <;>
      simp_all [after, afterRemoveOwner, ResponseOk, DirectoryThere, NotYoung]
  | unlockEdge =>
    cases hcurrent
    cases handle_unlockCurrentEdge (by exact hfields) (cfg.shard_eq _) hhandle <;>
      simp_all [after, afterUnlockEdge, ResponseOk, DirectoryThere, NotYoung, NoOtherEdge]
  | rollback =>
    cases hcurrent
    obtain ⟨err, herr⟩ := isSome_iff_exists.1 hkeeps
    cases handle_unlockCurrentEdge (by exact hfields) (cfg.shard_eq _) hhandle <;>
      simp_all [after, afterRollback, finishWithExitError, ResponseOk, DirectoryThere, NotYoung,
        NoOtherEdge]

lemma RenameDirectory.after_isSome_iff {step : RenameDirectoryStep}
    (hfields : RenameDirectory.FieldsOk q step)
    (hwaits : (CDCReq.renameDirectory q).Waits (.renameDirectory step st) shid r) :
    (RenameDirectory.after q st step result).isSome ↔
      RenameDirectory.ResponseOk (cfg.shard shid) db d.time q st step := by
  obtain ⟨htarget, hcurrent, hkeeps⟩ := hwaits
  have htype : q.targetId.type = .directory := htarget
  cases step with
  | start => cases hcurrent
  | lockOldEdge =>
    cases hcurrent
    cases handle_lockCurrentEdge (by exact hfields) (cfg.shard_eq _) hhandle <;>
      simp_all [after, afterLockOldEdge, ResponseOk, NotYoung]
  | lookupOldCreationTime =>
    cases hcurrent
    rcases handle_fullReadDir hfields.1 hfields.2 hhandle with ⟨rfl, -⟩ | rfl | ⟨time, rfl⟩ <;>
      simp [after, afterLookupOldCreationTime, ResponseOk]
  | createLockedNewEdge =>
    cases hcurrent
    cases handle_createLockedCurrentEdge hfields.1 (cfg.shard_eq _) hfields.2 hhandle <;>
      simp_all [after, afterCreateLockedEdge, createCurrentLockedEdgeRetry, ResponseOk,
        DirectoryThere, NotYoung, NotLockedForOther]
  | unlockNewEdge | unlockOldEdge =>
    cases hcurrent
    cases handle_unlockCurrentEdge (by exact hfields) (cfg.shard_eq _) hhandle <;>
      simp_all [after, afterUnlockNewEdge, afterUnlockOldEdge, ResponseOk, DirectoryThere, NotYoung,
        NoOtherEdge]
  | setOwner =>
    cases hcurrent
    cases handle_setDirectoryOwner htype (cfg.shard_eq _) (by exact hfields) hhandle <;>
      simp_all [after, afterSetOwner, ResponseOk, DirectoryThere, NotYoung]
  | rollback =>
    cases hcurrent
    obtain ⟨err, herr⟩ := isSome_iff_exists.1 hkeeps
    simp only [after, ResponseOk, iff_true]
    unfold afterRollback
    split <;> simp [finishWithExitError, herr]

/-- A transaction that waits handles the answer exactly if it is an expected one. -/
lemma CDCReq.after_isSome_iff (hfields : req.FieldsOk state) (hwaits : req.Waits state shid r) :
    (req.after state result).isSome ↔ req.ResponseOk (cfg.shard shid) db d.time state := by
  have hcurrent := hwaits.current
  cases hwaits.runs with
  | makeDirectory => exact MakeDirectory.after_isSome_iff hhandle hfields hwaits
  | hardUnlinkDirectory q step =>
    cases step with
    | start => cases hcurrent
    | removeInode =>
      cases hcurrent
      exact HardUnlinkDirectory.after_isSome_iff hfields hhandle
  | renameFile => exact RenameFile.after_isSome_iff hhandle hfields hwaits
  | softUnlinkDirectory => exact SoftUnlinkDirectory.after_isSome_iff hhandle hfields hwaits
  | renameDirectory => exact RenameDirectory.after_isSome_iff hhandle hfields hwaits
  | crossShardHardUnlinkFile q step =>
    have hfile : q.targetId.type ≠ .reserved → q.targetId.IsFile := by
      intro htarget
      have hadmitted : q.targetId.type ≠ .directory := hwaits.admitted
      unfold InodeId.IsFile
      cases htype : q.targetId.type <;> simp_all
    cases step with
    | start => cases hcurrent
    | removeEdge =>
      cases hcurrent
      cases handle_removeOwnedSnapshotFileEdge hfields.1 (cfg.shard_eq _) (hfile hfields.2) hhandle <;>
        simp [after, CrossShardHardUnlinkFile.afterRemoveEdge, ResponseOk]
    | makeTransient =>
      cases hcurrent
      rcases handle_makeFileTransient (hfile hfields) (cfg.shard_eq _) hhandle with rfl | rfl <;>
        simp [after, CrossShardHardUnlinkFile.afterMakeTransient, ResponseOk]

end

/-- A timeout is handled in every step, and every step can be taken up again. -/
lemma CDCReq.Waits.retries (hwaits : req.Waits state shid r) :
    (req.after state (.error .timeout)).isSome ∧ (req.again state).isSome := by
  have hcurrent := hwaits.current
  cases hwaits.runs with
  | makeDirectory q step | hardUnlinkDirectory q step | renameFile q step
  | softUnlinkDirectory q step | renameDirectory q step | crossShardHardUnlinkFile q step =>
    cases step <;> first | exact ⟨rfl, rfl⟩ | cases hcurrent

/-- A transaction that waits has started. -/
lemma CDCReq.Waits.not_isStart (hwaits : req.Waits state shid r) : ¬ state.IsStart := by
  have hagain := hwaits.retries.2
  intro hstart
  cases state <;> simp only [TxnState.IsStart] at hstart <;> subst hstart <;> cases req <;>
    cases hagain

/-- A transaction that waits handles the answer that it is resumed with. -/
lemma CDCReq.Waits.after_of_resume (hwaits : req.Waits state shid r)
    (h : req.resume env state (some result) = some (env', out)) :
    req.after state result = some out := by
  rcases resume_eq_some hwaits.not_isStart h with ⟨hnone, -⟩ | ⟨_, hresult, hafter⟩
  · cases hnone
  · cases hresult
    exact hafter

/-- It sends its request again when it is resumed without one. -/
lemma CDCReq.Waits.again_of_resume (hwaits : req.Waits state shid r)
    (h : req.resume env state none = some (env', out)) : req.again state = some out := by
  rcases resume_eq_some hwaits.not_isStart h with ⟨-, hagain⟩ | ⟨_, hresult, -⟩
  · exact hagain
  · cases hresult

end

/-- Every event leads to a state that is considered here. -/
lemma CDCReq.Reached.of_step {sys sys' : TxnSystem} {ev : TxnEvent}
    (hsys : req.Reached cfg sys.txn) (hstep : sys.step cfg req ev = some sys') :
    req.Reached cfg sys'.txn := by
  cases TxnSystem.txnStep_of_step hstep with
  | ignored | client | deliver => exact hsys
  | respond htxn hhandle hresume =>
    rw [htxn] at hsys
    exact .respond hsys hhandle ((hsys.waits rfl).after_of_resume hresume)
  | timeout htxn hresume =>
    rw [htxn] at hsys
    exact .timeout hsys ((hsys.waits rfl).after_of_resume hresume)
  | restart htxn hresume =>
    rw [htxn] at hsys
    exact .restart hsys ((hsys.waits rfl).again_of_resume hresume)

/-- The states of the system of one transaction and its shards are among those considered here. -/
lemma CDCReq.reached_of_run {shards : Fin 256 → ShardDB} {sys₀ sys : TxnSystem}
    {events : List TxnEvent} (hstart : TxnSystem.start req shards env = some sys₀)
    (hrun : run (TxnSystem.step cfg req) sys₀ events = some sys) : req.Reached cfg sys.txn := by
  have hpreserved : ∀ (sys : TxnSystem) (ev : TxnEvent) (sys' : TxnSystem),
      req.Reached cfg sys.txn → sys.step cfg req ev = some sys' → req.Reached cfg sys'.txn :=
    fun sys ev sys' hsys => hsys.of_step
  obtain ⟨⟨env', out⟩, hout, rfl⟩ := map_eq_some_iff.1 hstart
  exact run_preserves hpreserved (.start hout) hrun

/-- **Responses.** The answer to the request of a transaction is handled if and only if the shard was
in one of the expected states; timeouts and restarts of the coordinator are always handled. -/
theorem CDCReq.resume_isSome_iff {cfg : ClusterConfig} {req : CDCReq} {state : TxnState}
    {shid : Fin 256} {r : CDCShardReq} (hwf : req.WellFormed)
    (hreached : req.Reached cfg (.running state shid r)) (env : CDCEnv) :
    (∀ db d db' result, handle (cfg.shard shid) db d r = some (db', result) →
      ((req.resume env state (some result)).isSome ↔
        req.ResponseOk (cfg.shard shid) db d.time state)) ∧
    (req.resume env state (some (.error .timeout))).isSome ∧ (req.resume env state none).isSome := by
  have hwaits := hreached.waits rfl
  have hstarted := hwaits.not_isStart
  obtain ⟨htimeout, hagain⟩ := hwaits.retries
  refine ⟨fun db d db' result hhandle => ?_, ?_, ?_⟩
  · rw [resume, if_neg hstarted, isSome_map]
    exact after_isSome_iff hhandle (hwf.fieldsOk hwaits.runs) hwaits
  · rw [resume, if_neg hstarted, isSome_map]
    exact htimeout
  · rw [resume, if_neg hstarted, isSome_map]
    exact hagain

/-- The new edge has been created at 5 and unlocked, but the answer was lost; then a client has
unlinked the file under its new name. -/
def sampleUnlinkEvents : List TxnEvent :=
  [sampleRespond 3, sampleRespond 4, sampleRespond 5, .deliver 3 ⟨6, samplePick, sampleCache⟩,
    .client 0 (sampleStep 7 (.softUnlinkFile ⟨.rootDir, sampleRemoteFile, [98], 5⟩))]

/-- The request to unlock the new edge is sent again and answered with `EDGE_NOT_FOUND`, which the
coordinator asserts not to happen. -/
theorem RenameFile.not_handled_of_unlink : ∃ sys₀ sys state shid r db,
      TxnSystem.start (.renameFile sampleRename) sampleTwoShards .init = some sys₀ ∧
      run (TxnSystem.step sampleCluster (.renameFile sampleRename)) sys₀ sampleUnlinkEvents =
        some sys ∧
      sys.txn = .running state shid r ∧
      handle (sampleCluster.shard shid) (sys.shards shid) ⟨8, samplePick, sampleCache⟩ r =
        some (db, .error .edgeNotFound) ∧
      (CDCReq.renameFile sampleRename).resume sys.env state (some (.error .edgeNotFound)) = none := by
  simp only [exists_and_left]
  decide +kernel

theorem RenameFile.resume_isSome_of_unlock : ∃ sys₀ sys state shid r db result,
      TxnSystem.start (.renameFile sampleRename) sampleTwoShards .init = some sys₀ ∧
      run (TxnSystem.step sampleCluster (.renameFile sampleRename)) sys₀
        [sampleRespond 3, sampleRespond 4, .timeout, sampleRespond 5] = some sys ∧
      sys.txn = .running state shid r ∧
      handle (sampleCluster.shard shid) (sys.shards shid) ⟨6, samplePick, sampleCache⟩ r =
        some (db, result) ∧
      ((CDCReq.renameFile sampleRename).resume sys.env state (some result)).isSome := by
  have hwf : (CDCReq.renameFile sampleRename).WellFormed := ⟨by decide, by decide, by decide⟩
  simp only [exists_and_left]
  refine exists_eq_some_imp (fun sys₀ hstart => exists_eq_some_imp fun sys hrun =>
    Exists.imp fun state => Exists.imp fun shid => Exists.imp fun r
      (h : sys.txn = .running state shid r ∧
        (CDCReq.renameFile sampleRename).ResponseOk (sampleCluster.shard shid) (sys.shards shid) 6
          state ∧
        (handle (sampleCluster.shard shid) (sys.shards shid)
          ⟨6, samplePick, sampleCache⟩ r).isSome) => ?_) (by decide +kernel)
  obtain ⟨htxn, hok, hsome⟩ := h
  obtain ⟨⟨db, result⟩, hhandle⟩ := isSome_iff_exists.1 hsome
  have hreached : (CDCReq.renameFile sampleRename).Reached sampleCluster (.running state shid r) :=
    htxn ▸ CDCReq.reached_of_run hstart hrun
  exact ⟨htxn, db, result, hhandle,
    ((CDCReq.resume_isSome_iff hwf hreached sys.env).1 _ _ _ _ hhandle).2 hok⟩

end TernFS
