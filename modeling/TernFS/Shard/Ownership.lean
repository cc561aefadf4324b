/-
# Unique ownership inside a shard

From an empty shard with any directories, the requests of clients keep every linked file owned by
exactly one edge and every transient file by none, as long as no file is hard-unlinked by an owned
snapshot edge of another file: `SameShardHardFileUnlink` checks that the edge is owned, but not
that it points to the file of the request.
-/
import TernFS.Shard.Owners
import TernFS.Shard.SpanStates

namespace TernFS

open Lib

/-- Every linked file is the target of exactly one owning edge, and every transient file of
none. -/
structure ShardDB.UniquelyOwned (db : ShardDB) : Prop where
  linked : ∀ f file, db.files.get f = some file → db.owners f = 1
  transient : ∀ f file, db.transientFiles.get f = some file → db.owners f = 0

/-- The empty shard, with the given directories. -/
def initDbWith (cfg : ShardConfig) (now : ℕ) (directories : SortedStore InodeId DirectoryBody) :
    ShardDB :=
  { initDb cfg now with directories := directories }

/-- What the requests of clients preserve. -/
structure ShardDB.Owned (db : ShardDB) : Prop where
  distinct : db.fileView.Distinct
  ordered : db.edgeView.Ordered
  owners_eq : ∀ f, db.owners f = linkedCount db.files f

section

variable {cfg : ShardConfig} {db db' : ShardDB}

lemma initDbWith_owned {now : ℕ} {directories : SortedStore InodeId DirectoryBody}
    (hdirs : ∀ id dir, directories.get id = some dir → id.u64 < 2 ^ 63) :
    (initDbWith cfg now directories).Owned where
  distinct := initDb_distinct now
  ordered :=
    { dirIds := fun d t hd => by
        obtain ⟨dir, hdir, -⟩ := Option.map_eq_some_iff.1 hd
        exact hdirs d dir hdir
      current_le := fun e body hbody => by cases hbody
      snapshot_le := fun k body hbody => by cases hbody
      separate := fun e body hbody => by cases hbody }
  owners_eq := fun f => rfl

/-- A new shard has no directory but the root. -/
lemma eq_rootDir_of_initDb {now : ℕ} {id : InodeId} {dir : DirectoryBody}
    (h : (initDb cfg now).directories.get id = some dir) : id = .rootDir := by
  by_contra hne
  simp only [initDb] at h
  split_ifs at h
  · rw [SortedStore.get_put_of_ne (Ne.symm hne)] at h
    cases h
  · cases h

lemma initDb_ordered (cfg : ShardConfig) (now : ℕ) : (initDb cfg now).edgeView.Ordered := by
  have howned : (initDbWith cfg now (initDb cfg now).directories).Owned :=
    initDbWith_owned fun id dir hdir => by
      rw [eq_rootDir_of_initDb hdir]
      decide
  exact howned.ordered

lemma ShardDB.Owned.step {step : ShardStep} (h : db.Owned) (hclient : ¬ step.req.Privileged)
    (hok : step.req.UnlinkOk cfg db) (hstep : shardStep cfg db step = some db') : db'.Owned := by
  obtain ⟨hordered, hbalance⟩ := shardStep_ownersKept h.ordered h.distinct hclient hok hstep
  refine ⟨shardStep_distinct h.distinct hstep, hordered, fun f => ?_⟩
  have hf := hbalance f
  have howners := h.owners_eq f
  omega

lemma ShardDB.Owned.uniquelyOwned (h : db.Owned) : db.UniquelyOwned where
  linked f file hfile := by rw [h.owners_eq, linkedCount, if_neg (by simp [hfile])]
  transient f file hfile := by
    have hf : db.fileView.transient f = some (file.fileSize, file.lastSpanState) := by
      simp [ShardDB.fileView, transientView, hfile]
    have hnone : db.files.get f = none := by
      simpa [ShardDB.fileView, linkedView] using h.distinct.linked_eq_none hf
    rw [h.owners_eq, linkedCount, if_pos hnone]

/-- **Unique ownership.** Clients that hard-unlink files by their own edges keep every linked file
owned by one edge, and every transient file by none. -/
theorem uniquelyOwned_of_run {now : ℕ} {directories : SortedStore InodeId DirectoryBody}
    {steps : List ShardStep} (hdirs : ∀ id dir, directories.get id = some dir → id.u64 < 2 ^ 63)
    (hmeets : RunMeets (shardStep cfg)
      (fun db step => ¬ step.req.Privileged ∧ step.req.UnlinkOk cfg db)
      (initDbWith cfg now directories) steps)
    (hrun : run (shardStep cfg) (initDbWith cfg now directories) steps = some db) :
    db.UniquelyOwned := by
  have howned : db.Owned := run_invariant
    (fun _ _ _ hdb hok hstep => hdb.step hok.1 hok.2 hstep) (initDbWith_owned hdirs) hmeets hrun
  exact howned.uniquelyOwned

end

/-- The root directory. -/
def sampleDirectories : SortedStore InodeId DirectoryBody := (initDb sampleConfig 0).directories

/-- Two files are linked, and the first one is soft-unlinked. -/
def sampleUnlinked : List ShardStep :=
  [sampleStep 1 sampleConstruct, sampleStep 2 sampleConstruct,
    sampleStep 3 (sampleLink (sampleFile 1) [97]), sampleStep 4 (sampleLink (sampleFile 2) [98]),
    sampleStep 5 (.softUnlinkFile ⟨.rootDir, sampleFile 1, [97], 3⟩)]

/-- Hard-unlink a file by the snapshot edge of the first one. -/
def sampleHardUnlink (f : InodeId) : ShardStep :=
  sampleStep 6 (.sameShardHardFileUnlink ⟨.rootDir, f, [97], 3⟩)

/-- The second file is hard-unlinked by the edge of the first one: it becomes transient while its
current edge stays. -/
theorem not_uniquelyOwned_of_other_target :
    ∃ db, run (shardStep sampleConfig) (initDbWith sampleConfig 0 sampleDirectories)
        (sampleUnlinked ++ [sampleHardUnlink (sampleFile 2)]) = some db ∧
      (∀ step ∈ sampleUnlinked ++ [sampleHardUnlink (sampleFile 2)], ¬ step.req.Privileged) ∧
      ¬ db.UniquelyOwned := by
  refine exists_eq_some_imp (fun db _ (h : (∃ file, db.transientFiles.get (sampleFile 2) = some file ∧
    db.owners (sampleFile 2) = 1)) => ⟨by decide, fun hunique => ?_⟩) (by decide +kernel)
  obtain ⟨file, hfile, hone⟩ := h
  rw [hunique.transient _ file hfile] at hone
  cases hone

theorem uniquelyOwned_of_run_own_edge :
    ∃ db, run (shardStep sampleConfig) (initDbWith sampleConfig 0 sampleDirectories)
        (sampleUnlinked ++ [sampleHardUnlink (sampleFile 1)]) = some db ∧
      (db.transientFiles.get (sampleFile 1)).isSome ∧ db.UniquelyOwned := by
  have hdirs : ∀ id dir, sampleDirectories.get id = some dir → id.u64 < 2 ^ 63 := by
    intro id dir hdir
    rw [eq_rootDir_of_initDb hdir]
    decide
  exact exists_eq_some_imp (fun db hrun hsome =>
    ⟨hsome, uniquelyOwned_of_run hdirs (by decide +kernel) hrun⟩) (by decide +kernel)

end TernFS
