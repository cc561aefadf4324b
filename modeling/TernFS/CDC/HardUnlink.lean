/-
# Hard-unlinking a file across shards

`CrossShardHardUnlinkFile` removes the owned snapshot edge of a file in one shard and makes the
file transient in another.  The edge is removed whatever it is, and a copy of `MakeFileTransient`
takes effect whenever it arrives.  So a file that is restored in between is made transient while an
edge owns it.  If the edge that is removed owns the file, and the file is not linked again
afterwards, then no edge owns a file that the transaction has made transient.
-/
import TernFS.CDC.Cluster
import TernFS.Shard.Ownership
import Mathlib.Algebra.BigOperators.Fin
import Mathlib.Algebra.BigOperators.Pi

namespace TernFS

open Lib Function SortedStore List Option

/-! ## Owners in all shards -/

/-- The number of edges of all shards that own a file. -/
def clusterOwners (shards : Fin 256 → ShardDB) (f : InodeId) : ℕ := ∑ s, (shards s).owners f

/-- The number of shards in which a file is linked. -/
def clusterLinked (shards : Fin 256 → ShardDB) (f : InodeId) : ℕ :=
  ∑ s, linkedCount (shards s).files f

/-- What holds of shards between steps; files are linked in the shard that their ids name. -/
structure ClusterSound (shards : Fin 256 → ShardDB) : Prop where
  distinct : ∀ s, (shards s).fileView.Distinct
  ordered : ∀ s, (shards s).edgeView.Ordered
  home : ∀ s f, (shards s).files.get f ≠ none → f.shardId = s

section

variable {cfg : ClusterConfig} {shards : Fin 256 → ShardDB} {s : Fin 256} {db : ShardDB}
  {f : InodeId}

lemma sum_update_shard (shards : Fin 256 → ShardDB) (s : Fin 256) (db : ShardDB) (g : ShardDB → ℕ) :
    ∑ i, g (update shards s db i) + g (shards s) = ∑ i, g (shards i) + g db := by
  rw [← Finset.add_sum_erase _ (fun i => g (update shards s db i)) (Finset.mem_univ s),
    ← Finset.add_sum_erase _ (fun i => g (shards i)) (Finset.mem_univ s), update_self]
  have hrest : ∑ i ∈ Finset.univ.erase s, g (update shards s db i) =
      ∑ i ∈ Finset.univ.erase s, g (shards i) :=
    Finset.sum_congr rfl fun i hi => by rw [update_of_ne (Finset.ne_of_mem_erase hi)]
  omega

lemma clusterOwners_update (shards : Fin 256 → ShardDB) (s : Fin 256) (db : ShardDB) (f : InodeId) :
    clusterOwners (update shards s db) f + (shards s).owners f =
      clusterOwners shards f + db.owners f :=
  sum_update_shard shards s db fun db => db.owners f

lemma clusterLinked_update (shards : Fin 256 → ShardDB) (s : Fin 256) (db : ShardDB) (f : InodeId) :
    clusterLinked (update shards s db) f + linkedCount (shards s).files f =
      clusterLinked shards f + linkedCount db.files f :=
  sum_update_shard shards s db fun db => linkedCount db.files f

namespace ClusterSound

/-- Only the shard of the file counts. -/
lemma linked_eq (h : ClusterSound shards) (f : InodeId) :
    clusterLinked shards f = linkedCount (shards f.shardId).files f := by
  refine Finset.sum_eq_single f.shardId (fun s _ hs => if_pos ?_) fun hs => ?_
  · by_contra hf
    exact hs (h.home s f hf).symm
  · exact absurd (Finset.mem_univ _) hs

lemma linked_le_one (h : ClusterSound shards) (f : InodeId) : clusterLinked shards f ≤ 1 := by
  rw [h.linked_eq, linkedCount]
  split_ifs <;> omega

lemma update (h : ClusterSound shards) (hdistinct : db.fileView.Distinct)
    (hordered : db.edgeView.Ordered)
    (hhome : ∀ f, db.files.get f ≠ none → (shards s).files.get f = none → f.shardId = s) :
    ClusterSound (update shards s db) where
  distinct i := by
    by_cases hi : i = s
    · subst hi
      simpa using hdistinct
    · simpa [update_of_ne hi] using h.distinct i
  ordered i := by
    by_cases hi : i = s
    · subst hi
      simpa using hordered
    · simpa [update_of_ne hi] using h.ordered i
  home i f hf := by
    by_cases hi : i = s
    · subst hi
      rw [update_self] at hf
      by_cases hold : (shards i).files.get f = none
      · exact hhome f hf hold
      · exact h.home i f hold
    · rw [update_of_ne hi] at hf
      exact h.home i f hf

/-- A request of a client keeps shards sound, and passes ownership on. -/
lemma client {step : ShardStep} (h : ClusterSound shards) (hclient : ¬ step.req.Privileged)
    (hok : step.req.UnlinkOk (cfg.shard s) (shards s))
    (hstep : shardStep (cfg.shard s) (shards s) step = some db) :
    ClusterSound (Function.update shards s db) ∧
      clusterOwners (Function.update shards s db) f + clusterLinked shards f =
        clusterOwners shards f + clusterLinked (Function.update shards s db) f := by
  have hkept := shardStep_ownersKept (h.ordered s) (h.distinct s) hclient hok hstep
  refine ⟨h.update (shardStep_distinct (h.distinct s) hstep) hkept.ordered fun f hf hold => ?_, ?_⟩
  · obtain ⟨-, -, -, -, hshard⟩ := linked_of_shardStep hstep hold hf
    exact Fin.ext (hshard.trans (cfg.shid_eq s))
  have howners := clusterOwners_update shards s db f
  have hlinked := clusterLinked_update shards s db f
  have hbalance := hkept.balance f
  omega

end ClusterSound

end

/-! ## The transaction -/

namespace CrossShardHardUnlinkFile

variable (cfg : ClusterConfig) (req : CrossShardHardUnlinkFileReq)

/-- The first request of the transaction, and its shard. -/
def removeCopy : Fin 256 × CDCShardReq :=
  (req.ownerId.shardId, .write (.removeOwnedSnapshotFileEdge
    { ownerId := req.ownerId, targetId := req.targetId, name := req.name
      creationTime := req.creationTime }))

/-- The second request of the transaction, and its shard. -/
def transientCopy : Fin 256 × CDCShardReq :=
  (req.targetId.shardId, .write (.makeFileTransient ⟨req.targetId, req.name⟩))

/-- The edge of the transaction in the given database is an owned one of the file. -/
def OwnsTarget (db : ShardDB) : Prop :=
  ∃ edge ∈ db.snapshotEdges.get
      ⟨(cfg.shard req.ownerId.shardId).edgeName req.ownerId req.name, req.creationTime⟩,
    edge.targetIdWithOwned.extra = true ∧ edge.targetIdWithOwned.id = req.targetId

instance (db : ShardDB) : Decidable (OwnsTarget cfg req db) :=
  inferInstanceAs (Decidable (∃ edge ∈ _, _))

/-- The edge has been removed. -/
def Removes (h : Handled) : Prop := h.req = (removeCopy req).2 ∧ h.result.isOk = true

/-- The file has been made transient. -/
def Unlinks (h : Handled) : Prop :=
  h.req = (transientCopy req).2 ∧ h.result.isOk = true ∧ h.before.files.get req.targetId ≠ none

instance (h : Handled) : Decidable (Removes req h) := inferInstanceAs (Decidable (_ ∧ _))

/-- The first time that the edge was removed. -/
def firstRemoval (log : List Handled) : Option Handled := log.find? fun h => Removes req h

/-- If the transaction has made the file transient, then the edge that it removed first was an
owned edge of the file, and no edge of any shard owns the file. -/
structure Safe (sys : TxnSystem) : Prop where
  removed : ∀ h ∈ sys.log, Unlinks req h →
    ∃ r, firstRemoval req sys.log = some r ∧ OwnsTarget cfg req r.before
  unowned : ∀ h ∈ sys.log, Unlinks req h → clusterOwners sys.shards req.targetId = 0

/-- The edge is removed while it owns the file, unless it cannot be removed, or the file is not
linked. -/
def RemovalOk (shards : Fin 256 → ShardDB) (d : Delivery) : Prop :=
  match getDirectory (shards req.ownerId.shardId) req.ownerId true with
  | .ok dir => dir.mtime < d.time →
    (shards req.targetId.shardId).files.get req.targetId ≠ none →
      OwnsTarget cfg req (shards req.ownerId.shardId)
  | .error _ => True

instance (shards : Fin 256 → ShardDB) (d : Delivery) : Decidable (RemovalOk cfg req shards d) := by
  dsimp only [RemovalOk]
  cases getDirectory (shards req.ownerId.shardId) req.ownerId true <;> infer_instance

/-- The condition on requests of clients: hard-unlinked files are unlinked by their own edges, and
the file is not linked again once the edge has been removed. -/
def ClientOk (sys : TxnSystem) (s : Fin 256) (step : ShardStep) : Prop :=
  step.req.UnlinkOk (cfg.shard s) (sys.shards s) ∧ match step.req with
    | .linkFile r => r.fileId = req.targetId → (firstRemoval req sys.log).isSome = true →
      (sys.shards s).transientFiles.get req.targetId = none
    | _ => True

instance (sys : TxnSystem) (s : Fin 256) (step : ShardStep) :
    Decidable (ClientOk cfg req sys s step) := by
  obtain ⟨_, _, _, r⟩ := step
  induction r using ShardReq.casesOn <;> dsimp only [ClientOk] <;> infer_instance

/-- The condition on events: the edge is removed while it owns the file. -/
def EventOk (sys : TxnSystem) (ev : TxnEvent) : Prop :=
  match ev with
  | .client s step => ClientOk cfg req sys s step
  | _ =>
    match sys.handles ev with
    | some (_, r, d) => r = (removeCopy req).2 → firstRemoval req sys.log = none →
      RemovalOk cfg req sys.shards d
    | none => True

instance (sys : TxnSystem) (ev : TxnEvent) : Decidable (EventOk cfg req sys ev) := by
  induction ev using TxnEvent.casesOn <;> dsimp only [EventOk]
  case client => infer_instance
  all_goals cases sys.handles _ <;> infer_instance

instance (h : Handled) : Decidable (Unlinks req h) := inferInstanceAs (Decidable (_ ∧ _ ∧ _))

/-! ### The account of owners -/

section

variable {cfg req} {shards : Fin 256 → ShardDB} {log : List Handled} {s : Fin 256} {db db' : ShardDB}
  {d : Delivery} {result : ShardResult}

/-- Until the edge is removed, the file has an owner if it is linked; then, it has none. -/
structure Account (cfg : ClusterConfig) (req : CrossShardHardUnlinkFileReq)
    (shards : Fin 256 → ShardDB) (log : List Handled) : Prop where
  sound : ClusterSound shards
  before : firstRemoval req log = none →
    clusterOwners shards req.targetId = clusterLinked shards req.targetId ∧
      ∀ h ∈ log, ¬ Unlinks req h
  after : ∀ r, firstRemoval req log = some r → clusterOwners shards req.targetId = 0 ∧
    (OwnsTarget cfg req r.before ∨
      clusterLinked shards req.targetId = 0 ∧ ∀ h ∈ log, ¬ Unlinks req h)

lemma Account.safe {sys : TxnSystem} (h : Account cfg req sys.shards sys.log) :
    Safe cfg req sys := by
  have hremoved : ∀ g ∈ sys.log, Unlinks req g → ∃ r, firstRemoval req sys.log = some r ∧
      OwnsTarget cfg req r.before ∧ clusterOwners sys.shards req.targetId = 0 := by
    intro g hg hunlinks
    cases hfirst : firstRemoval req sys.log with
    | none => exact absurd hunlinks ((h.before hfirst).2 g hg)
    | some r =>
      obtain ⟨howners, howns | ⟨-, hnone⟩⟩ := h.after r hfirst
      · exact ⟨r, rfl, howns, howners⟩
      · exact absurd hunlinks (hnone g hg)
  refine ⟨fun g hg hunlinks => ?_, fun g hg hunlinks => ?_⟩
  · obtain ⟨r, hr, howns, -⟩ := hremoved g hg hunlinks
    exact ⟨r, hr, howns⟩
  · obtain ⟨r, -, -, howners⟩ := hremoved g hg hunlinks
    exact howners

/-- A request of a client does not link the file once the edge has been removed. -/
lemma linkedCount_le_of_client {sys : TxnSystem} {step : ShardStep}
    (hok : ClientOk cfg req sys s step) (hremoved : (firstRemoval req sys.log).isSome = true)
    (hstep : shardStep (cfg.shard s) (sys.shards s) step = some db) :
    linkedCount db.files req.targetId ≤ linkedCount (sys.shards s).files req.targetId := by
  by_cases hold : (sys.shards s).files.get req.targetId = none
  · have hnew : db.files.get req.targetId = none := by
      by_contra hnew
      obtain ⟨r, hreq, hfile, htransient, -⟩ := linked_of_shardStep hstep hold hnew
      have hlink := hok.2
      rw [hreq] at hlink
      exact htransient (hlink hfile hremoved)
    simp [linkedCount, hnew]
  · simp only [linkedCount, if_neg hold]
    split_ifs <;> omega

lemma Account.client {sys : TxnSystem} {step : ShardStep}
    (h : Account cfg req sys.shards sys.log) (hclient : ¬ step.req.Privileged)
    (hok : ClientOk cfg req sys s step)
    (hstep : shardStep (cfg.shard s) (sys.shards s) step = some db) :
    Account cfg req (update sys.shards s db) sys.log := by
  obtain ⟨hsound, hbalance⟩ := h.sound.client (f := req.targetId) hclient hok.1 hstep
  refine ⟨hsound, fun hfirst => ?_, fun r hfirst => ?_⟩
  · obtain ⟨hequal, hnone⟩ := h.before hfirst
    exact ⟨by omega, hnone⟩
  obtain ⟨hzero, hcause⟩ := h.after r hfirst
  have hle := linkedCount_le_of_client hok (by simp [hfirst]) hstep
  have hlinked := clusterLinked_update sys.shards s db req.targetId
  refine ⟨by omega, hcause.imp_right fun hunlinked => ⟨by omega, hunlinked.2⟩⟩

/-- What removing the edge does to its shard. -/
lemma handle_remove (cfg : ClusterConfig) {req : CrossShardHardUnlinkFileReq}
    (h : handle (cfg.shard req.ownerId.shardId) db d (removeCopy req).2 = some (db', result)) :
    db'.files = db.files ∧ db'.owners req.targetId ≤ db.owners req.targetId ∧ (result.isOk = true →
        (∃ dir, getDirectory db req.ownerId true = .ok dir ∧ dir.mtime < d.time) ∧
        (OwnsTarget cfg req db → db'.owners req.targetId + 1 = db.owners req.targetId)) ∧
      (result.isOk = false → db'.owners req.targetId = db.owners req.targetId) := by
  rcases handle_write h with ⟨_, resp, index, ⟨⟩, rfl, batch, happly, rfl⟩ |
    ⟨e, rfl, rfl | ⟨index, time, rfl⟩⟩
  · simp only [applyEntryBody] at happly
    obtain ⟨hfiles, howners⟩ := applyRemoveOwnedSnapshotFileEdge_owners happly
    refine ⟨hfiles, (howners _).1, fun _ => ⟨?_, ?_⟩, by rintro ⟨⟩⟩
    · simp only [applyRemoveOwnedSnapshotFileEdge, bind_eq_ok, Prod.exists] at happly
      obtain ⟨b, dir', hinit, -⟩ := happly
      obtain ⟨dir, hdir, hmtime, -⟩ := initiateDirectoryModification_eq_ok.1 hinit
      exact ⟨dir, hdir, hmtime⟩
    · rintro ⟨edge, hedge, howned, htarget⟩
      have hone : edge.owns req.targetId = 1 := if_pos ⟨howned, htarget⟩
      rw [← hone]
      exact (howners _).2 edge hedge
  all_goals exact ⟨rfl, le_rfl, by rintro ⟨⟩, fun _ => rfl⟩

lemma firstRemoval_append (h : Handled) : firstRemoval req (log ++ [h]) =
      (firstRemoval req log).or (if Removes req h then some h else none) := by
  simp only [firstRemoval, find?_append, find?_cons, find?_nil]
  by_cases hremoves : Removes req h <;> simp [hremoves]

lemma Account.remove (h : Account cfg req shards log)
    (hok : firstRemoval req log = none → RemovalOk cfg req shards d)
    (hhandle : handle (cfg.shard (removeCopy req).1) (shards (removeCopy req).1) d
      (removeCopy req).2 = some (db, result)) :
    Account cfg req (update shards (removeCopy req).1 db)
      (log ++ [⟨(removeCopy req).1, (removeCopy req).2, shards (removeCopy req).1, result⟩]) := by
  set owner := (removeCopy req).1
  set entry : Handled := ⟨owner, (removeCopy req).2, shards owner, result⟩
  obtain ⟨hfiles, hle, hremoved, hkept⟩ := handle_remove cfg hhandle
  have hordered : db.names.edgeView.Kept False :=
    (shardStep_namesStep (shardStep_of_handle hhandle)).kept (h.sound.ordered owner).kept nofun
  have hsound : ClusterSound (update shards owner db) :=
    h.sound.update (shardStep_distinct (h.sound.distinct owner) (shardStep_of_handle hhandle))
      hordered.ordered fun f hf hold => absurd hold (hfiles ▸ hf)
  have howners := clusterOwners_update shards owner db req.targetId
  have hlinked : clusterLinked (update shards owner db) req.targetId =
      clusterLinked shards req.targetId := by
    have hupdate := clusterLinked_update shards owner db req.targetId
    rw [hfiles] at hupdate
    omega
  have hnot : ¬ Unlinks req entry := fun hunlinks => by cases hunlinks.1
  have hnone : (∀ g ∈ log, ¬ Unlinks req g) → ∀ g ∈ log ++ [entry], ¬ Unlinks req g := by
    intro hlog g hg
    rcases mem_append.1 hg with hg | hg
    · exact hlog g hg
    · exact mem_singleton.1 hg ▸ hnot
  refine ⟨hsound, fun hfirst => ?_, fun r hfirst => ?_⟩
  · -- nothing has been removed
    rw [firstRemoval_append, or_eq_none_iff] at hfirst
    have hresult : result.isOk = false := by
      by_contra hresult
      exact absurd hfirst.2 (by rw [if_pos ⟨rfl, by simpa using hresult⟩]; simp)
    have hsame := hkept hresult
    obtain ⟨hequal, hlog⟩ := h.before hfirst.1
    exact ⟨by omega, hnone hlog⟩
  · rw [firstRemoval_append] at hfirst
    cases hold : firstRemoval req log with
    | some r' =>
      rw [hold, some_or, some.injEq] at hfirst
      subst hfirst
      obtain ⟨hzero, hcause⟩ := h.after r' hold
      exact ⟨by omega, hcause.imp_right fun hunlinked => ⟨by omega, hnone hunlinked.2⟩⟩
    | none =>
      -- the edge is removed now
      rw [hold, none_or] at hfirst
      split_ifs at hfirst with hremoves
      obtain rfl : entry = r := some_inj.1 hfirst
      obtain ⟨hequal, hlog⟩ := h.before hold
      obtain ⟨⟨dir, hdir, hmtime⟩, hone⟩ := hremoved hremoves.2
      have hone' := h.sound.linked_le_one req.targetId
      by_cases htarget : (shards req.targetId.shardId).files.get req.targetId = none
      · have hzero : clusterLinked shards req.targetId = 0 := by
          rw [h.sound.linked_eq, linkedCount, if_pos htarget]
        exact ⟨by omega, .inr ⟨by omega, hnone hlog⟩⟩
      have hrem := hok hold
      have hdir' : getDirectory (shards req.ownerId.shardId) req.ownerId true = .ok dir := hdir
      simp only [RemovalOk, hdir'] at hrem
      have howns := hrem hmtime htarget
      have hless := hone howns
      exact ⟨by omega, .inl howns⟩

/-- Making the file transient touches no edge, and links no file. -/
lemma handle_makeTransient {cfg : ShardConfig} {id : InodeId} {note : Bytes}
    (h : handle cfg db d (.write (.makeFileTransient ⟨id, note⟩)) = some (db', result)) :
    db'.edgeView = db.edgeView ∧ ∀ f, db.files.get f = none → db'.files.get f = none := by
  rcases handle_write h with ⟨_, resp, index, ⟨⟩, rfl, batch, happly, rfl⟩ |
    ⟨e, rfl, rfl | ⟨index, time, rfl⟩⟩
  · simp only [applyEntryBody] at happly
    unfold applyMakeFileTransient at happly
    split at happly
    · split at happly
      · cases happly
        exact ⟨rfl, fun _ hf => hf⟩
      · cases happly
    · cases happly
    · cases happly
      refine ⟨rfl, fun f hf => ?_⟩
      change (db.files.delete _).get f = none
      rw [get_delete]
      split_ifs
      · rfl
      · exact hf
  · exact ⟨rfl, fun _ hf => hf⟩
  · exact ⟨rfl, fun _ hf => hf⟩

lemma Account.makeTransient (h : Account cfg req shards log)
    (hremoved : (firstRemoval req log).isSome = true)
    (hhandle : handle (cfg.shard (transientCopy req).1) (shards (transientCopy req).1) d
      (transientCopy req).2 = some (db, result)) :
    Account cfg req (update shards (transientCopy req).1 db)
      (log ++ [⟨(transientCopy req).1, (transientCopy req).2, shards (transientCopy req).1,
        result⟩]) := by
  set home := (transientCopy req).1
  set entry : Handled := ⟨home, (transientCopy req).2, shards home, result⟩
  obtain ⟨hedges, hlinks⟩ := handle_makeTransient hhandle
  have hsound : ClusterSound (update shards home db) :=
    h.sound.update (shardStep_distinct (h.sound.distinct home) (shardStep_of_handle hhandle))
      (hedges ▸ h.sound.ordered home) fun f hf hold => absurd (hlinks f hold) hf
  have howners : clusterOwners (update shards home db) req.targetId =
      clusterOwners shards req.targetId := by
    have hupdate := clusterOwners_update shards home db req.targetId
    simp only [ShardDB.owners, hedges] at hupdate
    omega
  have hlinked : clusterLinked (update shards home db) req.targetId ≤
      clusterLinked shards req.targetId := by
    rw [hsound.linked_eq, h.sound.linked_eq]
    change linkedCount (update shards home db home).files _ ≤ linkedCount (shards home).files _
    rw [update_self, linkedCount, linkedCount]
    by_cases hold : (shards home).files.get req.targetId = none
    · simp [hold, hlinks _ hold]
    · split_ifs <;> omega
  have hfirst : firstRemoval req (log ++ [entry]) = firstRemoval req log := by
    rw [firstRemoval_append, if_neg (fun hremoves => by cases hremoves.1), or_none]
  refine ⟨hsound, fun hnone => ?_, fun r hr => ?_⟩
  · rw [hfirst] at hnone
    rw [hnone] at hremoved
    cases hremoved
  obtain ⟨hzero, hcause⟩ := h.after r (hfirst ▸ hr)
  refine ⟨by omega, hcause.imp_right fun hunlinked => ⟨by omega, fun g hg => ?_⟩⟩
  rcases mem_append.1 hg with hg | hg
  · exact hunlinked.2 g hg
  -- the file is not linked, so that there is nothing to make transient
  rw [mem_singleton.1 hg]
  rintro ⟨-, -, hlinked'⟩
  have hone : linkedCount (shards home).files req.targetId = 1 := if_neg hlinked'
  have hzero' := hunlinked.1
  rw [h.sound.linked_eq] at hzero'
  exact absurd (hzero'.symm.trans hone) (by decide)

end

/-! ### The sequence of requests -/

section

variable {cfg req} {env env' : CDCEnv} {resp : Option ShardResult} {out : Outcome}

/-- The file is made transient only after the edge has been removed. -/
structure InSequence (req : CrossShardHardUnlinkFileReq) (sys : TxnSystem) : Prop where
  sent : ∀ copy ∈ sys.sent, copy = removeCopy req ∨
    copy = transientCopy req ∧ (firstRemoval req sys.log).isSome = true
  running : ∀ state shid r, sys.txn = .running state shid r →
    state = .crossShardHardUnlinkFile .removeEdge ∧ (shid, r) = removeCopy req ∨
      state = .crossShardHardUnlinkFile .makeTransient ∧ (shid, r) = transientCopy req ∧
        (firstRemoval req sys.log).isSome = true

variable {sys : TxnSystem} {state : TxnState} {shid : Fin 256} {repeated : Bool} {r : CDCShardReq}

/-- What is sent while the edge is being removed. -/
lemma resume_removeEdge
    (h : (CDCReq.crossShardHardUnlinkFile req).resume env (.crossShardHardUnlinkFile .removeEdge)
      resp = some (env', .needsShard state shid repeated r)) :
    state = .crossShardHardUnlinkFile .removeEdge ∧ (shid, r) = removeCopy req ∨
      (∃ answer, resp = some (.ok answer)) ∧
        state = .crossShardHardUnlinkFile .makeTransient ∧ (shid, r) = transientCopy req := by
  rcases CDCReq.resume_eq_some (by simp [TxnState.IsStart]) h with ⟨rfl, hagain⟩ |
    ⟨result, rfl, hafter⟩
  · cases hagain
    exact .inl ⟨rfl, rfl⟩
  simp only [CDCReq.after] at hafter
  unfold afterRemoveEdge at hafter
  split at hafter <;> cases hafter
  · exact .inl ⟨rfl, rfl⟩
  · exact .inl ⟨rfl, rfl⟩
  · exact .inr ⟨⟨_, rfl⟩, rfl, rfl⟩

/-- What is sent while the file is being made transient. -/
lemma resume_makeTransient (h : (CDCReq.crossShardHardUnlinkFile req).resume env
      (.crossShardHardUnlinkFile .makeTransient) resp =
        some (env', .needsShard state shid repeated r)) :
    state = .crossShardHardUnlinkFile .makeTransient ∧ (shid, r) = transientCopy req := by
  rcases CDCReq.resume_eq_some (by simp [TxnState.IsStart]) h with ⟨rfl, hagain⟩ |
    ⟨result, rfl, hafter⟩
  · cases hagain
    exact ⟨rfl, rfl⟩
  simp only [CDCReq.after] at hafter
  unfold afterMakeTransient at hafter
  split at hafter <;> cases hafter
  exact ⟨rfl, rfl⟩

lemma InSequence.mono {shards : Fin 256 → ShardDB} {log : List Handled} (h : InSequence req sys)
    (hlog : (firstRemoval req sys.log).isSome = true → (firstRemoval req log).isSome = true) :
    InSequence req { sys with shards := shards, log := log } where
  sent copy hcopy := (h.sent copy hcopy).imp_right fun hsent => ⟨hsent.1, hlog hsent.2⟩
  running state shid r htxn := (h.running state shid r htxn).imp_right fun hrunning =>
    ⟨hrunning.1, hrunning.2.1, hlog hrunning.2.2⟩

/-- The machine of a running transaction is resumed, with a success only if the edge has been
removed. -/
lemma InSequence.resume (h : InSequence req sys) (htxn : sys.txn = .running state shid r)
    (hanswer : ∀ answer, resp = some (.ok answer) → (shid, r) = removeCopy req →
      (firstRemoval req sys.log).isSome = true)
    (hresume : (CDCReq.crossShardHardUnlinkFile req).resume env state resp = some (env', out)) :
    InSequence req (sys.record env' out) := by
  suffices hout : _ from
    have hrecord := TxnSystem.of_record (R := fun state shid r =>
      state = .crossShardHardUnlinkFile .removeEdge ∧ (shid, r) = removeCopy req ∨
        state = .crossShardHardUnlinkFile .makeTransient ∧ (shid, r) = transientCopy req ∧
          (firstRemoval req sys.log).isSome = true) h.sent hout env'
    ⟨hrecord.1, hrecord.2⟩
  rintro state' shid' repeated r' rfl
  rcases h.running state shid r htxn with ⟨rfl, hcopy⟩ | ⟨rfl, -, hremoved⟩
  · rcases resume_removeEdge hresume with ⟨hstate, hcopy'⟩ | ⟨⟨answer, hok⟩, hstate, hcopy'⟩
    · exact ⟨.inl hcopy', .inl ⟨hstate, hcopy'⟩⟩
    · have hremoved := hanswer answer hok hcopy
      exact ⟨.inr ⟨hcopy', hremoved⟩, .inr ⟨hstate, hcopy', hremoved⟩⟩
  · obtain ⟨hstate, hcopy'⟩ := resume_makeTransient hresume
    exact ⟨.inr ⟨hcopy', hremoved⟩, .inr ⟨hstate, hcopy', hremoved⟩⟩

end

/-! ### Runs -/

section

variable {cfg req} {sys sys' : TxnSystem} {shid : Fin 256} {r : CDCShardReq} {db : ShardDB}
  {d : Delivery} {result : ShardResult} {ev : TxnEvent}

/-- What every event that meets the condition preserves. -/
structure Invariant (cfg : ClusterConfig) (req : CrossShardHardUnlinkFileReq) (sys : TxnSystem) :
    Prop where
  account : Account cfg req sys.shards sys.log
  sequence : InSequence req sys

lemma isSome_firstRemoval_append {log : List Handled} {entry : Handled}
    (h : (firstRemoval req log).isSome = true ∨ Removes req entry) :
    (firstRemoval req (log ++ [entry])).isSome = true := by
  rw [firstRemoval_append, isSome_or, Bool.or_eq_true]
  exact h.imp_right fun hremoves => by simp [hremoves]

lemma Invariant.handled (h : Invariant cfg req sys) (hcopy : (shid, r) = removeCopy req ∨
      (shid, r) = transientCopy req ∧ (firstRemoval req sys.log).isSome = true)
    (hok : r = (removeCopy req).2 → firstRemoval req sys.log = none →
      RemovalOk cfg req sys.shards d)
    (hhandle : handle (cfg.shard shid) (sys.shards shid) d r = some (db, result)) :
    Invariant cfg req (sys.handled shid r db result) := by
  refine ⟨?_, h.sequence.mono fun hremoved => isSome_firstRemoval_append (.inl hremoved)⟩
  rcases hcopy with heq | ⟨heq, hremoved⟩
  · cases heq
    exact h.account.remove (hok rfl) hhandle
  · cases heq
    exact h.account.makeTransient hremoved hhandle

lemma Invariant.step (h : Invariant cfg req sys) (hok : EventOk cfg req sys ev)
    (hstep : sys.step cfg (.crossShardHardUnlinkFile req) ev = some sys') :
    Invariant cfg req sys' := by
  cases TxnSystem.txnStep_of_step hstep with
  | ignored => exact h
  | client hclient hserved =>
    exact ⟨h.account.client hclient hok hserved, h.sequence.mono fun hremoved => hremoved⟩
  | @respond d state shid r db result env out htxn hhandle hresume =>
    have hcopy := (h.sequence.running state shid r htxn).imp And.right And.right
    have hremoval : r = (removeCopy req).2 → firstRemoval req sys.log = none →
        RemovalOk cfg req sys.shards d := by
      simpa only [EventOk, TxnSystem.handles, htxn] using hok
    have hhandled := h.handled hcopy hremoval hhandle
    refine ⟨hhandled.account, hhandled.sequence.resume htxn (fun answer hanswer heq => ?_) hresume⟩
    cases heq
    exact isSome_firstRemoval_append (.inr ⟨rfl, by rw [some_inj.1 hanswer]; rfl⟩)
  | @deliver i d shid r db result hsent hhandle =>
    refine h.handled (h.sequence.sent _ (mem_of_getElem? hsent)) ?_ hhandle
    simpa only [EventOk, TxnSystem.handles, hsent, map_some] using hok
  | timeout htxn hresume | restart htxn hresume =>
    exact ⟨h.account, h.sequence.resume htxn (fun answer hanswer => by cases hanswer) hresume⟩

lemma Invariant.start {shards : Fin 256 → ShardDB} {env : CDCEnv} (hsound : ClusterSound shards)
    (howned : clusterOwners shards req.targetId = clusterLinked shards req.targetId)
    (hstart : TxnSystem.start (.crossShardHardUnlinkFile req) shards env = some sys) :
    Invariant cfg req sys := by
  cases hstart
  refine ⟨⟨hsound, fun _ => ⟨howned, fun h hh => (by cases hh)⟩, fun r hr => (by cases hr)⟩, ?_⟩
  unfold CrossShardHardUnlinkFile.start
  split_ifs
  · exact ⟨nofun, fun state shid r htxn => (by cases htxn)⟩
  · exact ⟨nofun, fun state shid r htxn => (by cases htxn)⟩
  · refine ⟨fun copy hcopy => .inl (mem_singleton.1 hcopy), fun state shid r htxn => ?_⟩
    cases htxn
    exact .inl ⟨rfl, rfl⟩

/-- **Hard-unlinking across shards.** In every run whose events meet the condition, from shards in
which the file has one owner if it is linked and none otherwise: if the transaction has made the
file transient, then it has removed an owned edge of the file, and no edge owns the file. -/
theorem safe_of_run {shards : Fin 256 → ShardDB} {env : CDCEnv} {sys₀ : TxnSystem}
    {evs : List TxnEvent} (hsound : ClusterSound shards)
    (howned : clusterOwners shards req.targetId = clusterLinked shards req.targetId)
    (hstart : TxnSystem.start (.crossShardHardUnlinkFile req) shards env = some sys₀)
    (hmeets : RunMeets (TxnSystem.step cfg (.crossShardHardUnlinkFile req)) (EventOk cfg req)
      sys₀ evs)
    (hrun : run (TxnSystem.step cfg (.crossShardHardUnlinkFile req)) sys₀ evs = some sys) :
    Safe cfg req sys := by
  have hinv : Invariant cfg req sys := run_invariant
    (fun _ _ _ hsys hok hstep => hsys.step hok hstep) (.start hsound howned hstart) hmeets hrun
  exact hinv.account.safe

end

end CrossShardHardUnlinkFile

/-- Shards that are configured like the sample shard. -/
def sampleCluster : ClusterConfig where
  shard s := ⟨s, 3600, List.range 16, xxh3Short, s.isLt⟩
  shid_eq _ := rfl

/-- A file of the second shard. -/
def sampleRemoteFile : InodeId := .of .file 1 1

/-- The root directory, in which the file was linked at 3 and soft-unlinked at 5. -/
def sampleOwnerDB : ShardDB :=
  { initDb (sampleCluster.shard 0) 0 with
    directories := SortedStore.empty.put .rootDir ⟨.null, 5, defaultDirectoryInfo⟩
    snapshotEdges := (SortedStore.empty.put
      ⟨(sampleCluster.shard 0).edgeName .rootDir [97], 3⟩ ⟨.of sampleRemoteFile true⟩).put
        ⟨(sampleCluster.shard 0).edgeName .rootDir [97], 5⟩ ⟨.of .null false⟩ }

/-- The shard of the file. -/
def sampleHomeDB : ShardDB :=
  { initDb (sampleCluster.shard 1) 0 with
    nextFileId := sampleRemoteFile
    files := SortedStore.empty.put sampleRemoteFile ⟨0, 2, 2⟩ }

/-- The shards of the sample. -/
def sampleShards : Fin 256 → ShardDB := fun s =>
  if s = 0 then sampleOwnerDB else if s = 1 then sampleHomeDB else initDb (sampleCluster.shard s) 0

/-- Hard-unlink the file. -/
def sampleCrossUnlink : CrossShardHardUnlinkFileReq := ⟨.rootDir, sampleRemoteFile, [97], 3⟩

/-- The response to the current request arrives. -/
def sampleRespond (time : ℕ) : TxnEvent := .respond ⟨time, samplePick, sampleCache⟩

/-- The snapshot edge is restored under another name before it is removed: the file is made
transient, and the new edge owns it. -/
theorem CrossShardHardUnlinkFile.not_safe_of_restore : ∃ sys₀ sys,
      TxnSystem.start (.crossShardHardUnlinkFile sampleCrossUnlink) sampleShards .init = some sys₀ ∧
      run (TxnSystem.step sampleCluster (.crossShardHardUnlinkFile sampleCrossUnlink)) sys₀
        [.client 0 (sampleStep 6 (.sameDirectoryRenameSnapshot
            ⟨sampleRemoteFile, .rootDir, [97], 3, [98]⟩)),
          sampleRespond 7, sampleRespond 8] = some sys ∧
      ¬ CrossShardHardUnlinkFile.Safe sampleCluster sampleCrossUnlink sys := by
  simp only [exists_and_left]
  refine exists_eq_some_imp (fun sys₀ _ => exists_eq_some_imp fun sys _
    (h : (∃ h ∈ sys.log, CrossShardHardUnlinkFile.Unlinks sampleCrossUnlink h) ∧
      clusterOwners sys.shards sampleCrossUnlink.targetId = 1) hsafe => ?_) (by decide +kernel)
  obtain ⟨⟨h, hmem, hunlinks⟩, hone⟩ := h
  rw [hsafe.unowned h hmem hunlinks] at hone
  cases hone

lemma sampleOwnerDB_ordered : sampleOwnerDB.edgeView.Ordered := by
  have hdirs : ∀ e ∈ sampleOwnerDB.directories.entries, e.1.u64 < 2 ^ 63 := by decide
  have hsnapshots : ∀ e ∈ sampleOwnerDB.snapshotEdges.entries,
      sampleOwnerDB.edgeView.mtime e.1.edge.dirId = some 5 ∧ e.1.creationTime ≤ 5 := by
    decide +kernel
  refine ⟨fun d t ht => ?_, fun e body hbody => (by cases hbody), fun k body hbody => ?_,
    fun e body hbody => (by cases hbody)⟩
  · obtain ⟨dir, hdir, -⟩ := map_eq_some_iff.1 ht
    exact hdirs (d, dir) (mem_entries_iff.2 hdir)
  · exact ⟨5, hsnapshots (k, body) (mem_entries_iff.2 hbody)⟩

lemma eq_of_mem_sampleHomeDB {f : InodeId} (h : sampleHomeDB.files.get f ≠ none) :
    f = sampleRemoteFile := by
  have hfiles : ∀ e ∈ sampleHomeDB.files.entries, e.1 = sampleRemoteFile := by decide
  obtain ⟨file, hfile⟩ := ne_none_iff_exists'.1 h
  exact hfiles (f, file) (mem_entries_iff.2 hfile)

lemma sampleHomeDB_distinct : sampleHomeDB.fileView.Distinct where
  disjoint _ := .inr rfl
  fileIds := ⟨by decide, by decide⟩
  symlinkIds := ⟨by decide, by decide⟩
  givenOut f hf := by
    rcases hf with hf | hf
    · obtain rfl := eq_of_mem_sampleHomeDB (mt map_eq_none_iff.2 hf)
      exact .inl ⟨by decide, le_refl sampleRemoteFile⟩
    · exact absurd rfl hf

lemma sampleShards_sound : ClusterSound sampleShards where
  distinct s := by
    unfold sampleShards
    split_ifs
    · exact initDb_distinct 0
    · exact sampleHomeDB_distinct
    · exact initDb_distinct 0
  ordered s := by
    unfold sampleShards
    split_ifs
    · exact sampleOwnerDB_ordered
    · exact initDb_ordered _ 0
    · exact initDb_ordered _ 0
  home s f hf := by
    unfold sampleShards at hf
    split_ifs at hf with h₀ h₁
    · exact absurd rfl hf
    · rw [eq_of_mem_sampleHomeDB hf, h₁]
      decide
    · exact absurd rfl hf

theorem CrossShardHardUnlinkFile.safe_of_run_owned_edge : ∃ sys₀ sys,
      TxnSystem.start (.crossShardHardUnlinkFile sampleCrossUnlink) sampleShards .init = some sys₀ ∧
      run (TxnSystem.step sampleCluster (.crossShardHardUnlinkFile sampleCrossUnlink)) sys₀
        [sampleRespond 7, .timeout, sampleRespond 8, .deliver 0 ⟨9, samplePick, sampleCache⟩] =
          some sys ∧
      (∃ h ∈ sys.log, CrossShardHardUnlinkFile.Unlinks sampleCrossUnlink h) ∧
      CrossShardHardUnlinkFile.Safe sampleCluster sampleCrossUnlink sys := by
  simp only [exists_and_left]
  exact exists_eq_some_imp (fun sys₀ hstart (h : RunMeets _
    (CrossShardHardUnlinkFile.EventOk sampleCluster sampleCrossUnlink) sys₀ _ ∧ _) =>
      exists_eq_some_imp (fun sys hrun hlog => ⟨hlog, CrossShardHardUnlinkFile.safe_of_run
        sampleShards_sound (by decide +kernel) hstart h.1 hrun⟩) h.2) (by decide +kernel)

end TernFS
