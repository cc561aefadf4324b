/-
# The history of names

The snapshot edges of a name are its history, ordered by creation time; the current edge comes last.
Every operation on a directory moves its modification time forward, and gives that time to what it
creates, so that edges are never younger than their directory and nothing in the history of a name
is overwritten.  The exception is `CreateDirectoryInode`: on a directory that has lost its owner it
sets the modification time to that of the entry, whatever it was.
-/
import TernFS.Shard.Failures
import TernFS.Shard.Ownership

namespace TernFS

open Lib Function SortedStore Option

/-- The condition under which a request keeps the history of names: a directory inode that is
created has no bit 63 in its id, and if it is there without an owner, it has not been modified
later. -/
def ShardReq.CreatesOk (db : ShardDB) (time : ℕ) : ShardReq → Prop
  | .createDirectoryInode r => r.id.u64 < 2 ^ 63 ∧
    ∀ dir ∈ db.directories.get r.id, dir.ownerId = .null → dir.mtime ≤ time
  | _ => True

instance (db : ShardDB) (time : ℕ) (req : ShardReq) : Decidable (req.CreatesOk db time) := by
  induction req using ShardReq.casesOn <;> dsimp only [ShardReq.CreatesOk] <;> infer_instance

/-! ## Nothing is overwritten -/

section

variable {cfg : ShardConfig} {time : ℕ} {v w w' : Names} {edge : EdgeName} {id targetId : InodeId}
  {dir : DirectoryBody} {name : Bytes} {locked : Bool} {req : ShardReq} {k k₀ : SnapshotEdgeKey}
  {body body' written : SnapshotEdgeBody} {snapshot : SortedStore SnapshotEdgeKey SnapshotEdgeBody}

lemma Names.get_of_put_free (hfree : v.snapshot.get k₀ = none) (hk : v.snapshot.get k = some body)
    (hk' : (snapshot.put k₀ written).get k = some body') : snapshot.get k = some body' := by
  have hne : k₀ ≠ k := by
    rintro rfl
    rw [hfree] at hk
    cases hk
  rwa [get_put_of_ne hne] at hk'

lemma CreatedName.get_snapshot (h : CreatedName v w time edge targetId locked w')
    (hv : v.edgeView.History) (hk : v.snapshot.get k = some body)
    (hk' : w'.snapshot.get k = some body') : w.snapshot.get k = some body' := by
  cases h with
  | fresh | relocked => exact hk'
  | @overridden existing hsome =>
    exact Names.get_of_put_free (hv.separate edge existing hsome) hk hk'

lemma Names.get_of_unlink (hv : v.edgeView.History) {current : CurrentEdgeBody} {owned : Bool}
    (hdir : v.directories.get id = some dir) (hmtime : dir.mtime < time)
    (hcurrent : v.current.get (cfg.edgeName id name) = some current)
    (hk : v.snapshot.get k = some body)
    (hk' : ((v.touch id dir time).unlink (cfg.edgeName id name) current.creationTime targetId owned
      time).snapshot.get k = some body') : v.snapshot.get k = some body' := by
  have hnow : v.snapshot.get ⟨cfg.edgeName id name, time⟩ = none :=
    Names.snapshot_eq_none hv.kept hdir hmtime
  exact Names.get_of_put_free (hv.separate _ current hcurrent) hk
    (Names.get_of_put_free hnow hk hk')

/-- A snapshot edge that stays keeps its target. -/
theorem NamesStep.target_kept (h : NamesStep cfg time v req w) (hv : v.edgeView.History)
    (hk : v.snapshot.get k = some body) (hk' : w.snapshot.get k = some body') :
    body'.targetIdWithOwned.id = body.targetIdWithOwned.id := by
  have hsame : v.snapshot.get k = some body' →
      body'.targetIdWithOwned.id = body.targetIdWithOwned.id := by
    intro hget
    rw [hk, some_inj] at hget
    rw [hget]
  cases h with
  | stay | touch | removeDirectory | setInfo | lock | unlock | createDirectory | removeOwner
  | setOwner => exact hsame hk'
  | link _ _ hcreated | createLocked _ _ hcreated => exact hsame (hcreated.get_snapshot hv hk hk')
  | softUnlink hdir hmtime hbody | move hdir hmtime hbody =>
    exact hsame (Names.get_of_unlink hv hdir.1 hmtime hbody hk hk')
  | rename hdir hmtime _ hbody _ hcreated =>
    exact hsame (Names.get_of_unlink hv hdir.1 hmtime hbody hk (hcreated.get_snapshot hv hk hk'))
  | @restore r dir old w hdir hmtime hbody htarget howned hcreated =>
    -- the edge that is restored is written again, with the same target
    have hput := hcreated.get_snapshot hv hk hk'
    simp only [get_put] at hput
    split_ifs at hput with hold
    · have hlt : r.targetId.u64 < 2 ^ 63 := htarget ▸ old.targetIdWithOwned.id_lt
      rw [← hold, hbody, some_inj] at hk
      rw [← some_inj.1 hput, InodeIdExtra.of_id_of_lt hlt, ← hk, htarget]
    · exact hsame hput
  | removeSnapshot =>
    simp only [get_delete] at hk'
    split_ifs at hk'
    exact hsame hk'

end

/-! ## No edge from the future -/

section

variable {cfg : ShardConfig} {cache : BlockServicesCache} {db db' : ShardDB} {time : ℕ}
  {dirId : InodeId} {dir : DirectoryBody} {name : Bytes}

/-- The last snapshot edge of a name is older than the modification of its directory. -/
lemma lastSnapshotEdgeBefore_of_history (hdb : db.edgeView.History)
    (hdir : db.directories.get dirId = some dir) (hmtime : dir.mtime < time) :
    LastSnapshotEdgeBefore cfg db dirId name time := by
  unfold LastSnapshotEdgeBefore
  split
  · trivial
  rename_i k body hseek
  rintro ⟨rfl, -, -⟩
  obtain ⟨hget, -⟩ := seekForPrev_spec hseek
  obtain ⟨t, ht, hle⟩ := hdb.snapshot_le k body hget
  have hdir' : db.edgeView.mtime k.edge.dirId = some dir.mtime :=
    Names.mtime_of_get (v := db.names) hdir
  rw [hdir', some_inj] at ht
  exact (hle.trans_eq ht.symm).trans_lt hmtime

/-- The two errors that speak of an edge from the future. -/
def TernError.IsMoreRecent (e : TernError) : Prop :=
  e = .moreRecentSnapshotEdge ∨ e = .moreRecentCurrentEdge

lemma not_isMoreRecent_of_history (hdb : db.edgeView.History) {logIndex : ℕ}
    {logEntry : ShardLogEntry} {e : TernError}
    (h : applyLogEntry cfg cache db logIndex logEntry = some (db', .error e)) :
    ¬ e.IsMoreRecent := by
  have hallows : Allows (fun f => ∀ e, f = .err e → ¬ e.IsMoreRecent) cfg db :=
    { err := fun e hsnapshot hcurrent e' he' => by
        cases he'
        exact fun h => h.elim hsnapshot hcurrent
      snapshot := fun dirId dir name time hdir hmtime hnot =>
        absurd (lastSnapshotEdgeBefore_of_history hdb hdir hmtime) hnot
      current := fun dirId dir name time body hdir hmtime hbody hnot =>
        absurd (Names.lt_of_current (v := db.names) hdb.kept hdir hmtime hbody) hnot }
  have hfails : FailsOnly (fun f => ∀ e, f = .err e → ¬ e.IsMoreRecent)
      (applyEntryBody cfg cache db logEntry.time logEntry.body) :=
    applyEntryBody_failsOnly hallows (fun _ => by simp) (fun _ => by simp)
  unfold applyLogEntry at h
  split_ifs at h
  split at h
  · cases h
  · rename_i e' happly
    cases h
    exact hfails _ happly e rfl
  · cases h

end

/-! ## Whole runs -/

/-- The edges of a directory are not younger than the directory, and the current edge of a name is
younger than the snapshot edges of the name. -/
structure ShardDB.HistoryOrdered (cfg : ShardConfig) (db : ShardDB) : Prop where
  current_le : ∀ d dir name body, db.directories.get d = some dir →
    db.currentEdges.get (cfg.edgeName d name) = some body → body.creationTime ≤ dir.mtime
  snapshot_le : ∀ d dir name t body, db.directories.get d = some dir →
    db.snapshotEdges.get ⟨cfg.edgeName d name, t⟩ = some body → t ≤ dir.mtime
  newest : ∀ d name body t snapshot, db.currentEdges.get (cfg.edgeName d name) = some body →
    db.snapshotEdges.get ⟨cfg.edgeName d name, t⟩ = some snapshot → t < body.creationTime

section

variable {cfg : ShardConfig} {db db' : ShardDB}

lemma ShardDB.historyOrdered_of_history (h : db.edgeView.History) : db.HistoryOrdered cfg where
  current_le _ _ _ _ hdir hbody :=
    Nat.le_of_lt_succ (Names.lt_of_current (v := db.names) h.kept hdir (Nat.lt_succ_self _) hbody)
  snapshot_le _ _ _ _ _ hdir hbody :=
    Nat.le_of_lt_succ (Names.lt_of_snapshot (v := db.names) h.kept hdir (Nat.lt_succ_self _) hbody)
  newest _ _ body t snapshot hbody hs := h.newest _ body t snapshot hbody hs

lemma initDb_history (cfg : ShardConfig) (now : ℕ) : (initDb cfg now).edgeView.History where
  toOrdered := initDb_ordered cfg now
  newest := fun e body t snapshot hbody => by cases hbody

lemma shardStep_history {step : ShardStep} (h : db.edgeView.History)
    (hok : step.req.CreatesOk db step.time) (hstep : shardStep cfg db step = some db') :
    db'.edgeView.History := by
  refine ((shardStep_namesStep hstep).kept h.kept fun r hr => ?_).history
  rw [hr] at hok
  exact ⟨hok.1, fun dir hdir => hok.2 dir hdir⟩

/-- **Ordered history.** As long as no directory inode is created over one that was modified later,
the history of every name is ordered, no snapshot edge is overwritten with another target, and no
entry is refused for an edge from the future. -/
theorem historyOrdered_of_run {now : ℕ} {steps : List ShardStep}
    (hmeets : RunMeets (shardStep cfg) (fun db step => step.req.CreatesOk db step.time)
      (initDb cfg now) steps)
    (hrun : run (shardStep cfg) (initDb cfg now) steps = some db) :
    db.HistoryOrdered cfg ∧ (∀ step db', shardStep cfg db step = some db' → ∀ k body body',
        db.snapshotEdges.get k = some body → db'.snapshotEdges.get k = some body' →
          body'.targetIdWithOwned.id = body.targetIdWithOwned.id) ∧
      ∀ cache logIndex logEntry db' e,
        applyLogEntry cfg cache db logIndex logEntry = some (db', .error e) → ¬ e.IsMoreRecent := by
  have hdb : db.edgeView.History := run_invariant
    (fun _ _ _ h hok hstep => shardStep_history h hok hstep) (initDb_history cfg now) hmeets hrun
  exact ⟨ShardDB.historyOrdered_of_history hdb,
    fun step db' hstep k body body' hk hk' => (shardStep_namesStep hstep).target_kept hdb hk hk',
    fun cache logIndex logEntry db' e happly => not_isMoreRecent_of_history hdb happly⟩

/-- The machines of files and of names take a step each for every request. -/
def Simulates (cfg : ShardConfig) (steps : List ShardStep) :
    FileView × Names → FileView × Names → Prop :=
  steps.foldr (fun step => Relation.Comp fun v v' => RequestStep step.req v.1 v'.1 ∧
    NamesStep cfg step.time v.2 step.req v'.2) Eq

end

/-- A directory of the root. -/
def sampleDir : InodeId := .of .directory 0 1

/-- A directory is created, a name is created in it and moved away, and the directory loses its
owner. -/
def sampleDisowned : List ShardStep :=
  [sampleStep 10 (.createDirectoryInode ⟨sampleDir, .rootDir, []⟩),
    sampleStep 20 (.createLockedCurrentEdge ⟨sampleDir, [97], sampleFile 1, 0⟩),
    sampleStep 30 (.unlockCurrentEdge ⟨sampleDir, [97], 20, sampleFile 1, true⟩),
    sampleStep 40 (.removeDirectoryOwner ⟨sampleDir, []⟩)]

/-- The directory is created again. -/
def sampleRecreate (time : ℕ) : ShardStep :=
  sampleStep time (.createDirectoryInode ⟨sampleDir, .rootDir, []⟩)

/-- The name is created again. -/
def sampleCreateEdge : CreateLockedCurrentEdgeReq := ⟨sampleDir, [97], sampleFile 1, 0⟩

/-- The directory is created again with an earlier time: it is older than its edges, and a new edge
is refused. -/
theorem not_historyOrdered_of_recreate : ∃ db, run (shardStep sampleConfig) (initDb sampleConfig 0)
        (sampleDisowned ++ [sampleRecreate 5]) = some db ∧
      ¬ db.HistoryOrdered sampleConfig ∧
      ∃ logEntry db',
        prepareLogEntry sampleConfig 6 samplePick (.createLockedCurrentEdge sampleCreateEdge) =
          .ok logEntry ∧
        applyLogEntry sampleConfig sampleCache db (addU64 db.lastAppliedLogEntry 1) logEntry =
          some (db', .error .moreRecentSnapshotEdge) := by
  simp only [exists_and_left]
  refine exists_eq_some_imp (fun db _ (h : (db.directories.get sampleDir = some ⟨.rootDir, 5, []⟩ ∧
    (db.snapshotEdges.get ⟨sampleConfig.edgeName sampleDir [97], 30⟩).isSome) ∧ _) =>
      ⟨fun hordered => ?_, h.2⟩) (by decide +kernel)
  obtain ⟨snapshot, hsnapshot⟩ := isSome_iff_exists.1 h.1.2
  have hle := hordered.snapshot_le _ _ _ _ snapshot h.1.1 hsnapshot
  exact absurd hle (by decide)

theorem historyOrdered_of_run_recreate : ∃ db, run (shardStep sampleConfig) (initDb sampleConfig 0)
        (sampleDisowned ++ [sampleRecreate 50]) = some db ∧ db.HistoryOrdered sampleConfig := by
  exact exists_eq_some_imp (fun db hrun (_ : True) =>
    (historyOrdered_of_run (by decide +kernel) hrun).1) (by decide +kernel)

end TernFS
