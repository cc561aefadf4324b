/-
# What an answer does to a transaction

The handlers of the six machines are taken apart here, once, step by step.  What the other files
need to know of them is what `CDCReq.Follows` says of the outcome: a transaction that goes on waits
for the request that it has sent, moves between the phases in their order, and comes nearer to its
end unless the answer made it try again; a transaction that ends writes to the map of parents what
it is there for.
-/
import TernFS.CDC.Machines

namespace TernFS

open Lib Option

/-- A transaction that rolls back knows the error to end with. -/
def TxnState.KeepsError : TxnState → Prop
  | makeDirectory .rollback state => state.exitError.isSome
  | renameFile .rollback state => state.exitError.isSome
  | softUnlinkDirectory .rollback state => state.exitError.isSome
  | renameDirectory .rollback state => state.exitError.isSome
  | _ => True

/-- The request that a step waits for.  It is the one that the step sends again, apart from the
removal of an owner, which needs policies that are not kept. -/
def CDCReq.Current : CDCReq → TxnState → Fin 256 → CDCShardReq → Prop
  | softUnlinkDirectory q, .softUnlinkDirectory .removeOwner _, shid, r =>
    shid = q.targetId.shardId ∧ ∃ info, r = .write (.removeDirectoryOwner ⟨q.targetId, info⟩)
  | req, state, shid, r => req.again state = some (.needsShard state shid false r)

/-! ## Phases of a transaction

`RenameFile`, `RenameDirectory` and `SoftUnlinkDirectory` first lock the edge that they are about to
move or remove; then they find out whether they can go on, and either go on to their end or unlock
the edge again. -/

/-- Where a transaction stands with respect to its old edge. -/
inductive Phase
  /-- It is being locked. -/
  | locking
  /-- It is locked, and it is not clear yet whether the transaction can go on. -/
  | locked
  /-- It is unlocked again, and the transaction will end with an error. -/
  | rollingBack (e : Option TernError)
  /-- The transaction goes on to its end. -/
  | goingOn
deriving DecidableEq

/-- The phase of a state. -/
def TxnState.phase : TxnState → Phase
  | renameFile .lockOldEdge _ | renameDirectory .lockOldEdge _ | softUnlinkDirectory .lockEdge _ =>
    .locking
  | renameFile .lookupOldCreationTime _ | renameFile .createNewLockedEdge _
  | renameDirectory .lookupOldCreationTime _ | renameDirectory .createLockedNewEdge _
  | softUnlinkDirectory .stat _ | softUnlinkDirectory .removeOwner _ => .locked
  | renameFile .rollback state => .rollingBack state.exitError
  | renameDirectory .rollback state => .rollingBack state.exitError
  | softUnlinkDirectory .rollback state => .rollingBack state.exitError
  | _ => .goingOn

/-- The error that the transaction has to end with if its request is answered with an error that does
not let it go on. -/
def TxnState.exitError : TxnState → TernError → Option TernError
  | renameFile .lookupOldCreationTime _, .directoryNotFound => some .newDirectoryNotFound
  | renameFile .createNewLockedEdge _, .directoryNotFound => some .newDirectoryNotFound
  | renameFile .createNewLockedEdge _, .cannotOverrideName => some .cannotOverrideName
  | renameDirectory .lookupOldCreationTime _, .directoryNotFound => some .directoryNotFound
  | renameDirectory .createLockedNewEdge _, .directoryNotFound => some .directoryNotFound
  | renameDirectory .createLockedNewEdge _, .cannotOverrideName => some .cannotOverrideName
  | softUnlinkDirectory .removeOwner _, .directoryNotEmpty => some .directoryNotEmpty
  | _, _ => none

/-- How the phase moves when the answer to the request of a transaction is handled. -/
inductive PhaseStep (state : TxnState) (result : ShardResult) : Phase → Phase → Prop
  | retry {e : TernError} (hresult : result = .error e) : PhaseStep state result .locking .locking
  | lock {resp : ShardResp} (hresult : result = .ok resp) : PhaseStep state result .locking .locked
  | stay {phase : Phase} (hphase : phase ≠ .locking) : PhaseStep state result phase phase
  | rollBack {e e' : TernError} (hresult : result = .error e) (hexit : state.exitError e = some e') :
    PhaseStep state result .locked (.rollingBack (some e'))
  | goOn : PhaseStep state result .locked .goingOn

/-! ## The way to the end -/

/-- The answers that a transaction that has started still needs if it does not have to try again. -/
def TxnState.ahead : TxnState → ℕ
  | makeDirectory .lookup _ | renameFile .lockOldEdge _
  | renameDirectory .lookupOldCreationTime _ => 5
  | makeDirectory .createDir _ | renameFile .lookupOldCreationTime _
  | softUnlinkDirectory .lockEdge _ | renameDirectory .createLockedNewEdge _ => 4
  | makeDirectory .lookupOldCreationTime _ | renameFile .createNewLockedEdge _
  | softUnlinkDirectory .stat _ | renameDirectory .unlockNewEdge _ => 3
  | makeDirectory .createLockedEdge _ | renameFile .unlockNewEdge _
  | softUnlinkDirectory .removeOwner _ | renameDirectory .unlockOldEdge _
  | crossShardHardUnlinkFile .removeEdge => 2
  | makeDirectory .unlockEdge _ | makeDirectory .rollback _ | hardUnlinkDirectory .removeInode
  | renameFile .unlockOldEdge _ | renameFile .rollback _ | softUnlinkDirectory .unlockEdge _
  | softUnlinkDirectory .rollback _ | renameDirectory .setOwner _ | renameDirectory .rollback _
  | crossShardHardUnlinkFile .makeTransient => 1
  | _ => 6

/-- The answers that can make a transaction send a request again, or go on to the next directory on
the way up to the policies. -/
def ShardResult.triesAgain : ShardResult → Bool
  | .error e => createCurrentLockedEdgeRetry e || e = .mismatchingCreationTime
  | .ok (.statDirectory _ _ info) => (requiredInfo [] info).length ≠ requiredDirInfoTags.length
  | .ok _ => false

/-! ## The outcome of a step -/

/-- What an answer that ends a transaction makes it write. -/
inductive CDCReq.Writes : CDCReq → TxnState → ShardResult → ParentWrite → Prop
  | keep {req : CDCReq} {state : TxnState} {result : ShardResult} : Writes req state result .keep
  | make {r : MakeDirectoryReq} {state : MakeDirectoryState} {resp : ShardResp} :
    Writes (.makeDirectory r) (.makeDirectory .unlockEdge state) (.ok resp)
      (.put state.dirId r.ownerId)
  | move {r : RenameReq} {state : RenameState} {resp : ShardResp} :
    Writes (.renameDirectory r) (.renameDirectory .setOwner state) (.ok resp)
      (.put r.targetId r.newOwnerId)
  | unlink {r : SoftUnlinkDirectoryReq} {state : SoftUnlinkDirectoryState} {result : ShardResult}
      (hresult : (∃ resp, result = .ok resp) ∨ result = .error .edgeNotFound) :
    Writes (.softUnlinkDirectory r) (.softUnlinkDirectory .unlockEdge state) result
      (.delete r.targetId)

/-- A transaction goes on to wait for another request. -/
structure CDCReq.GoesOn (req : CDCReq) (state : TxnState) (result : ShardResult) (state' : TxnState)
    (shid : Fin 256) (r : CDCShardReq) : Prop where
  current : req.Current state' shid r
  keepsError : state.KeepsError → state'.KeepsError
  phase : PhaseStep state result state.phase state'.phase
  ahead : result.triesAgain = false → state'.ahead < state.ahead

/-- What holds of the outcome of an answer. -/
def CDCReq.Follows (req : CDCReq) (state : TxnState) (result : ShardResult) : Outcome → Prop
  | .needsShard state' shid _ r => req.GoesOn state result state' shid r
  | .finish _ w => req.Writes state result w
  | .finishWithError _ => True

section

variable {req : CDCReq} {state state' : TxnState} {result : ShardResult} {shid : Fin 256}
  {r : CDCShardReq} {out : Outcome}

lemma CDCReq.GoesOn.retry (htries : result.triesAgain = true)
    (hphase : PhaseStep state result state.phase state'.phase := by exact .stay nofun)
    (hcurrent : req.Current state' shid r := by rfl)
    (herror : state.KeepsError → state'.KeepsError := by first | exact id | exact fun _ => trivial) :
    req.GoesOn state result state' shid r :=
  ⟨hcurrent, herror, hphase, fun hgo => absurd hgo (ne_false_of_eq_true htries)⟩

lemma CDCReq.GoesOn.next (hphase : PhaseStep state result state.phase state'.phase)
    (hcurrent : req.Current state' shid r := by rfl)
    (herror : state'.KeepsError := by trivial) (hahead : state'.ahead.blt state.ahead := by rfl) :
    req.GoesOn state result state' shid r :=
  ⟨hcurrent, fun _ => herror, hphase, fun _ => Nat.le_of_ble_eq_true hahead⟩

lemma CDCReq.Follows.of_finishWithExitError {err : Option TernError}
    (h : finishWithExitError err = some out) : req.Follows state result out := by
  obtain ⟨e, -, rfl⟩ := map_eq_some_iff.1 h
  trivial

lemma MakeDirectory.after_follows {q : MakeDirectoryReq} {st : MakeDirectoryState}
    {step : MakeDirectoryStep} (h : after q st step result = some out) :
    CDCReq.Follows (.makeDirectory q) (.makeDirectory step st) result out := by
  cases step with
  | start => cases h
  | lookup =>
    simp only [after, afterLookup] at h
    repeat' split at h
    all_goals cases h
    exacts [.retry rfl, trivial, .next (.stay nofun), .keep, trivial]
  | createDir =>
    simp only [after, afterCreateDirectoryInode] at h
    split at h <;> cases h
    exacts [.retry rfl, .next (.stay nofun)]
  | lookupOldCreationTime =>
    simp only [after, afterLookupOldCreationTime] at h
    split at h <;> cases h
    exacts [.retry rfl, .next (.stay nofun), .next (.stay nofun), .next (.stay nofun)]
  | createLockedEdge =>
    simp only [after, afterCreateLockedEdge] at h
    repeat' split at h
    all_goals cases h
    exacts [.retry (by simp [ShardResult.triesAgain, *]), .next (.stay nofun),
      .retry (by simp [ShardResult.triesAgain, *]), .next (.stay nofun)]
  | unlockEdge =>
    simp only [after, afterUnlockEdge] at h
    split at h <;> cases h
    exacts [.retry rfl, .retry rfl, .make]
  | rollback =>
    simp only [after, afterRollback] at h
    split at h
    · cases h
      exact .retry rfl
    · exact .of_finishWithExitError h
    · cases h

lemma RenameFile.after_follows {q : RenameReq} {st : RenameState} {step : RenameFileStep}
    (h : after q st step result = some out) :
    CDCReq.Follows (.renameFile q) (.renameFile step st) result out := by
  cases step with
  | start => cases h
  | lockOldEdge =>
    simp only [after, afterLockOldEdge] at h
    split at h <;> cases h
    exacts [.retry rfl (.retry rfl), trivial, trivial, trivial, .next (.lock rfl)]
  | lookupOldCreationTime =>
    simp only [after, afterLookupOldCreationTime] at h
    split at h <;> cases h
    exacts [.retry rfl, .next (.rollBack rfl rfl), .next (.stay nofun), .next (.stay nofun)]
  | createNewLockedEdge =>
    simp only [after, afterCreateNewLockedEdge] at h
    repeat' split at h
    all_goals cases h
    · exact .retry (by simp [ShardResult.triesAgain, *])
    · exact .retry (by simp [ShardResult.triesAgain, *])
    · rename_i hfails
      exact .next (.rollBack rfl (hfails ▸ rfl))
    · exact .next .goOn
  | unlockNewEdge =>
    simp only [after, afterUnlockNewEdge] at h
    split at h <;> cases h
    exacts [.retry rfl, .next (.stay nofun)]
  | unlockOldEdge =>
    simp only [after, afterUnlockOldEdge] at h
    split at h <;> cases h
    exacts [.retry rfl, .keep, .keep]
  | rollback =>
    simp only [after, afterRollback] at h
    split at h
    · cases h
      exact .retry rfl
    · exact .of_finishWithExitError h
    · cases h

lemma SoftUnlinkDirectory.after_follows {q : SoftUnlinkDirectoryReq}
    {st : SoftUnlinkDirectoryState} {step : SoftUnlinkDirectoryStep}
    (h : after q st step result = some out) :
    CDCReq.Follows (.softUnlinkDirectory q) (.softUnlinkDirectory step st) result out := by
  cases step with
  | start => cases h
  | lockEdge =>
    simp only [after, afterLockEdge] at h
    split at h <;> cases h
    exacts [.retry rfl (.retry rfl), trivial, trivial, trivial, .next (.lock rfl)]
  | stat =>
    simp only [after, afterStat] at h
    repeat' split at h
    all_goals cases h
    exacts [.retry rfl, .next (.stay nofun) ⟨rfl, _, rfl⟩,
      .retry (decide_eq_true ‹_›)]
  | removeOwner =>
    simp only [after, afterRemoveOwner] at h
    split at h <;> cases h
    exacts [.retry rfl, .next (.rollBack rfl rfl),
      .next .goOn]
  | unlockEdge =>
    simp only [after, afterUnlockEdge] at h
    split at h <;> cases h
    exacts [.retry rfl, .unlink (.inr rfl), .unlink (.inl ⟨_, rfl⟩)]
  | rollback =>
    simp only [after, afterRollback] at h
    split at h
    · cases h
      exact .retry rfl
    · exact .of_finishWithExitError h
    · exact .of_finishWithExitError h
    · cases h

lemma RenameDirectory.after_follows {q : RenameReq} {st : RenameState} {step : RenameDirectoryStep}
    (h : after q st step result = some out) :
    CDCReq.Follows (.renameDirectory q) (.renameDirectory step st) result out := by
  cases step with
  | start => cases h
  | lockOldEdge =>
    simp only [after, afterLockOldEdge] at h
    split at h <;> cases h
    exacts [.retry rfl (.retry rfl), trivial, trivial, trivial, .next (.lock rfl)]
  | lookupOldCreationTime =>
    simp only [after, afterLookupOldCreationTime] at h
    split at h <;> cases h
    exacts [.retry rfl, .next (.rollBack rfl rfl), .next (.stay nofun), .next (.stay nofun)]
  | createLockedNewEdge =>
    simp only [after, afterCreateLockedEdge] at h
    repeat' split at h
    all_goals cases h
    · exact .retry (by simp [ShardResult.triesAgain, *])
    · exact .retry (by simp [ShardResult.triesAgain, *])
    · rename_i hfails
      rcases hfails with rfl | rfl <;> exact .next (.rollBack rfl rfl)
    · exact .next .goOn
  | unlockNewEdge | unlockOldEdge =>
    simp only [after, afterUnlockNewEdge, afterUnlockOldEdge] at h
    split at h <;> cases h
    exacts [.retry rfl, .next (.stay nofun), .next (.stay nofun)]
  | setOwner =>
    simp only [after, afterSetOwner] at h
    split at h <;> cases h
    exacts [.retry rfl, .move]
  | rollback =>
    simp only [after, afterRollback] at h
    split at h
    · cases h
      exact .retry rfl
    · exact .of_finishWithExitError h

/-- Every step that handles an answer does what is said of its outcome. -/
theorem CDCReq.after_follows (h : req.after state result = some out) :
    req.Follows state result out := by
  unfold after at h
  split at h
  · exact MakeDirectory.after_follows h
  · unfold HardUnlinkDirectory.afterRemoveInode at h
    split at h <;> cases h
    exacts [.retry rfl, trivial, trivial, trivial, .keep]
  · exact RenameFile.after_follows h
  · exact SoftUnlinkDirectory.after_follows h
  · exact RenameDirectory.after_follows h
  · unfold CrossShardHardUnlinkFile.afterRemoveEdge at h
    split at h <;> cases h
    exacts [.retry rfl, .retry rfl, trivial, .next (.stay nofun)]
  · unfold CrossShardHardUnlinkFile.afterMakeTransient at h
    split at h <;> cases h
    exacts [.retry rfl, .keep, .keep]
  · cases h

end

end TernFS
