/-
# Edges and owners

The directories and edges of a shard.  A file is owned by the current edges that point to it and
by the snapshot edges that point to it and are marked as owned.  The edges of a directory are not
younger than the directory, and a current edge never shares its creation time with a snapshot edge
of the same name; so that turning a current edge into a snapshot edge overwrites nothing.
-/
import TernFS.Shard.Data
import Mathlib.Logic.Function.Basic

namespace TernFS

open Lib Function SortedStore

/-- The edges of a shard, and the modification times of its directories. -/
structure EdgeView where
  mtime : InodeId → Option ℕ
  current : SortedStore EdgeName CurrentEdgeBody
  snapshot : SortedStore SnapshotEdgeKey SnapshotEdgeBody

/-- The modification times of directories. -/
def mtimeView (directories : SortedStore InodeId DirectoryBody) : InodeId → Option ℕ := fun d =>
  (directories.get d).map DirectoryBody.mtime

/-- The edges in a database. -/
def ShardDB.edgeView (db : ShardDB) : EdgeView where
  mtime := mtimeView db.directories
  current := db.currentEdges
  snapshot := db.snapshotEdges

lemma mtimeView_put (directories : SortedStore InodeId DirectoryBody) (d : InodeId)
    (body : DirectoryBody) :
    mtimeView (directories.put d body) = update (mtimeView directories) d (some body.mtime) :=
  map_get_put _ directories d body

lemma mtimeView_delete (directories : SortedStore InodeId DirectoryBody) (d : InodeId) :
    mtimeView (directories.delete d) = update (mtimeView directories) d none :=
  map_get_delete _ directories d

/-- Whether the edge owns the file, as a number. -/
def CurrentEdgeBody.owns (e : CurrentEdgeBody) (f : InodeId) : ℕ := if e.targetId = f then 1 else 0

/-- Whether the edge owns the file, as a number. -/
def SnapshotEdgeBody.owns (e : SnapshotEdgeBody) (f : InodeId) : ℕ :=
  if e.targetIdWithOwned.extra = true ∧ e.targetIdWithOwned.id = f then 1 else 0

lemma CurrentEdgeBody.owns_of {target : InodeId} (h : target.u64 < 2 ^ 63) (locked : Bool)
    (time : ℕ) (f : InodeId) :
    (⟨.of target locked, time⟩ : CurrentEdgeBody).owns f = if target = f then 1 else 0 := by
  simp only [owns, targetId, InodeIdExtra.of_id_of_lt h]

lemma SnapshotEdgeBody.owns_of {target : InodeId} (h : target.u64 < 2 ^ 63) (owned : Bool)
    (f : InodeId) :
    (⟨.of target owned⟩ : SnapshotEdgeBody).owns f = if owned = true ∧ target = f then 1 else 0 := by
  simp only [owns, InodeIdExtra.of_id_of_lt h, InodeIdExtra.of_extra_of_lt h]

/-- The number of current edges that own a file. -/
def currentOwners (current : SortedStore EdgeName CurrentEdgeBody) (f : InodeId) : ℕ :=
  current.sum fun _ e => e.owns f

/-- The number of snapshot edges that own a file. -/
def snapshotOwners (snapshot : SortedStore SnapshotEdgeKey SnapshotEdgeBody) (f : InodeId) : ℕ :=
  snapshot.sum fun _ e => e.owns f

section

variable {current : SortedStore EdgeName CurrentEdgeBody}
  {snapshot : SortedStore SnapshotEdgeKey SnapshotEdgeBody} {e : EdgeName} {k : SnapshotEdgeKey}
  {old : CurrentEdgeBody} {oldSnapshot : SnapshotEdgeBody}

lemma currentOwners_put_of_none (h : current.get e = none) (body : CurrentEdgeBody) (f : InodeId) :
    currentOwners (current.put e body) f = currentOwners current f + body.owns f := by
  rw [currentOwners, sum_put_of_get_eq_none h, add_comm]
  rfl

lemma currentOwners_put_of_some (h : current.get e = some old) (body : CurrentEdgeBody)
    (f : InodeId) :
    currentOwners (current.put e body) f + old.owns f = currentOwners current f + body.owns f := by
  simp only [currentOwners, sum_put, sum_of_get_eq_some h]
  omega

lemma currentOwners_delete (h : current.get e = some old) (f : InodeId) :
    currentOwners (current.delete e) f + old.owns f = currentOwners current f := by
  simp only [currentOwners, sum_of_get_eq_some h]
  omega

lemma snapshotOwners_put_of_none (h : snapshot.get k = none) (body : SnapshotEdgeBody)
    (f : InodeId) :
    snapshotOwners (snapshot.put k body) f = snapshotOwners snapshot f + body.owns f := by
  rw [snapshotOwners, sum_put_of_get_eq_none h, add_comm]
  rfl

lemma snapshotOwners_put_of_some (h : snapshot.get k = some oldSnapshot) (body : SnapshotEdgeBody)
    (f : InodeId) :
    snapshotOwners (snapshot.put k body) f + oldSnapshot.owns f =
      snapshotOwners snapshot f + body.owns f := by
  simp only [snapshotOwners, sum_put, sum_of_get_eq_some h]
  omega

lemma snapshotOwners_delete (h : snapshot.get k = some oldSnapshot) (f : InodeId) :
    snapshotOwners (snapshot.delete k) f + oldSnapshot.owns f = snapshotOwners snapshot f := by
  simp only [snapshotOwners, sum_of_get_eq_some h]
  omega

end

namespace EdgeView

variable (v : EdgeView)

/-- The number of edges that own a file. -/
def owners (f : InodeId) : ℕ := currentOwners v.current f + snapshotOwners v.snapshot f

/-- The edges of a directory are not younger than the directory, and a current edge never shares
its creation time with a snapshot edge of its name. -/
structure Ordered : Prop where
  dirIds : ∀ d t, v.mtime d = some t → d.u64 < 2 ^ 63
  current_le : ∀ e body, v.current.get e = some body →
    ∃ t, v.mtime e.dirId = some t ∧ body.creationTime ≤ t
  snapshot_le : ∀ k body, v.snapshot.get k = some body →
    ∃ t, v.mtime k.edge.dirId = some t ∧ k.creationTime ≤ t
  separate : ∀ e body, v.current.get e = some body → v.snapshot.get ⟨e, body.creationTime⟩ = none

variable {v} {e : EdgeName} {k : SnapshotEdgeKey} {f d : InodeId} {t t' : ℕ}

/-- Moreover, the current edge of a name is younger than every snapshot edge of the name. -/
structure History (v : EdgeView) : Prop extends v.Ordered where
  newest : ∀ e body t snapshot, v.current.get e = some body →
    v.snapshot.get ⟨e, t⟩ = some snapshot → t < body.creationTime

/-- The edges are ordered and, if `full`, they have a history. -/
structure Kept (full : Prop) (v : EdgeView) : Prop where
  dirIds : ∀ d t, v.mtime d = some t → d.u64 < 2 ^ 63
  current_le : ∀ e body, v.current.get e = some body →
    ∃ t, v.mtime e.dirId = some t ∧ body.creationTime ≤ t
  snapshot_le : ∀ k body, v.snapshot.get k = some body →
    ∃ t, v.mtime k.edge.dirId = some t ∧ k.creationTime ≤ t
  apart : ∀ e body t snapshot, v.current.get e = some body → v.snapshot.get ⟨e, t⟩ = some snapshot →
      t ≠ body.creationTime ∧ (full → t < body.creationTime)

variable {full : Prop}

lemma Ordered.kept (h : v.Ordered) : v.Kept False where
  dirIds := h.dirIds
  current_le := h.current_le
  snapshot_le := h.snapshot_le
  apart e body t snapshot hbody hs := by
    refine ⟨?_, False.elim⟩
    rintro rfl
    rw [h.separate e body hbody] at hs
    cases hs

lemma History.kept (h : v.History) : v.Kept True where
  dirIds := h.dirIds
  current_le := h.current_le
  snapshot_le := h.snapshot_le
  apart e body t snapshot hbody hs :=
    have hlt := h.newest e body t snapshot hbody hs
    ⟨hlt.ne, fun _ => hlt⟩

lemma Kept.ordered (h : v.Kept full) : v.Ordered where
  dirIds := h.dirIds
  current_le := h.current_le
  snapshot_le := h.snapshot_le
  separate e body hbody := by
    by_contra hne
    obtain ⟨snapshot, hs⟩ := Option.ne_none_iff_exists'.1 hne
    exact (h.apart e body _ snapshot hbody hs).1 rfl

lemma Kept.history (h : v.Kept True) : v.History :=
  ⟨h.ordered, fun e body t snapshot hbody hs => (h.apart e body t snapshot hbody hs).2 trivial⟩

/-! ## Order after a write -/

namespace Kept

variable (h : v.Kept full)
include h

lemma putDir (hid : d.u64 < 2 ^ 63) (ht : ∀ t, v.mtime d = some t → t ≤ t') :
    ({ v with mtime := update v.mtime d (some t') } : EdgeView).Kept full := by
  have hmtime : ∀ d' s, v.mtime d' = some s → ∃ s', update v.mtime d (some t') d' = some s' ∧
      s ≤ s' := by
    intro d' s hs
    by_cases hd' : d' = d
    · subst hd'
      exact ⟨t', update_self .., ht s hs⟩
    · exact ⟨s, by rw [update_of_ne hd', hs], le_rfl⟩
  refine ⟨fun d' s hs => ?_, fun e body hbody => ?_, fun k body hbody => ?_, h.apart⟩
  · by_cases hd' : d' = d
    · exact hd' ▸ hid
    · have hs' : update v.mtime d (some t') d' = some s := hs
      rw [update_of_ne hd'] at hs'
      exact h.dirIds d' s hs'
  · obtain ⟨s, hs, hle⟩ := h.current_le e body hbody
    obtain ⟨s', hs', hle'⟩ := hmtime _ s hs
    exact ⟨s', hs', hle.trans hle'⟩
  · obtain ⟨s, hs, hle⟩ := h.snapshot_le k body hbody
    obtain ⟨s', hs', hle'⟩ := hmtime _ s hs
    exact ⟨s', hs', hle.trans hle'⟩

lemma putCurrent (body : CurrentEdgeBody) (hd : v.mtime e.dirId = some t)
    (ht : body.creationTime ≤ t)
    (hbefore : ∀ s snapshot, v.snapshot.get ⟨e, s⟩ = some snapshot →
      s ≠ body.creationTime ∧ (full → s < body.creationTime)) :
    ({ v with current := v.current.put e body } : EdgeView).Kept full := by
  refine ⟨h.dirIds, fun e' body' hbody' => ?_, h.snapshot_le, fun e' body' s snapshot hbody' hs => ?_⟩
  all_goals
    rw [get_put] at hbody'
    split_ifs at hbody' with he
  · subst he
    cases hbody'
    exact ⟨t, hd, ht⟩
  · exact h.current_le e' body' hbody'
  · subst he
    cases hbody'
    exact hbefore s snapshot hs
  · exact h.apart e' body' s snapshot hbody' hs

lemma deleteCurrent (e : EdgeName) :
    ({ v with current := v.current.delete e } : EdgeView).Kept full := by
  have hget : ∀ e' body, (v.current.delete e).get e' = some body → v.current.get e' = some body := by
    intro e' body hbody
    rw [get_delete] at hbody
    split_ifs at hbody
    exact hbody
  exact ⟨h.dirIds, fun e' body hbody => h.current_le e' body (hget e' body hbody), h.snapshot_le,
    fun e' body s snapshot hbody => h.apart e' body s snapshot (hget e' body hbody)⟩

lemma putSnapshot (body : SnapshotEdgeBody) (hd : v.mtime k.edge.dirId = some t)
    (ht : k.creationTime ≤ t)
    (hbefore : ∀ body, v.current.get k.edge = some body →
      k.creationTime ≠ body.creationTime ∧ (full → k.creationTime < body.creationTime)) :
    ({ v with snapshot := v.snapshot.put k body } : EdgeView).Kept full := by
  refine ⟨h.dirIds, h.current_le, fun k' body' hbody' => ?_, fun e' body' s snapshot hbody' hs => ?_⟩
  · rw [get_put] at hbody'
    split_ifs at hbody' with hk
    · subst hk
      exact ⟨t, hd, ht⟩
    · exact h.snapshot_le k' body' hbody'
  · rw [get_put] at hs
    split_ifs at hs with hk
    · subst hk
      exact hbefore body' hbody'
    · exact h.apart e' body' s snapshot hbody' hs

lemma deleteSnapshot (k : SnapshotEdgeKey) :
    ({ v with snapshot := v.snapshot.delete k } : EdgeView).Kept full := by
  have hget : ∀ k' body, (v.snapshot.delete k).get k' = some body →
      v.snapshot.get k' = some body := by
    intro k' body hbody
    rw [get_delete] at hbody
    split_ifs at hbody
    exact hbody
  exact ⟨h.dirIds, h.current_le, fun k' body hbody => h.snapshot_le k' body (hget k' body hbody),
    fun e body s snapshot hbody hs => h.apart e body s snapshot hbody (hget _ snapshot hs)⟩

lemma removeDir (hcurrent : ∀ e body, v.current.get e = some body → e.dirId ≠ d)
    (hsnapshot : ∀ k body, v.snapshot.get k = some body → k.edge.dirId ≠ d) :
    ({ v with mtime := update v.mtime d none } : EdgeView).Kept full := by
  refine ⟨fun d' s hs => ?_, fun e body hbody => ?_, fun k body hbody => ?_, h.apart⟩
  · have hs' : update v.mtime d none d' = some s := hs
    by_cases hd' : d' = d
    · rw [hd', update_self] at hs'
      cases hs'
    · rw [update_of_ne hd'] at hs'
      exact h.dirIds d' s hs'
  · obtain ⟨s, hs, hle⟩ := h.current_le e body hbody
    exact ⟨s, (update_of_ne (hcurrent e body hbody) ..).trans hs, hle⟩
  · obtain ⟨s, hs, hle⟩ := h.snapshot_le k body hbody
    exact ⟨s, (update_of_ne (hsnapshot k body hbody) ..).trans hs, hle⟩

variable {existing : CurrentEdgeBody} {target : InodeIdExtra}

section

variable (hd : v.mtime e.dirId = some t)
  (hbefore : ∀ s snapshot, v.snapshot.get ⟨e, s⟩ = some snapshot → s < t)
include hd hbefore

lemma create : ({ v with current := v.current.put e ⟨target, t⟩ } : EdgeView).Kept full := by
  refine h.putCurrent ⟨target, t⟩ hd le_rfl fun s snapshot hs => ?_
  have hlt := hbefore s snapshot hs
  exact ⟨hlt.ne, fun _ => hlt⟩

/-- It takes the place of an older one, which becomes a snapshot edge. -/
lemma override (hlt : existing.creationTime < t) (body : SnapshotEdgeBody) : ({ v with
      current := v.current.put e ⟨target, t⟩
      snapshot := v.snapshot.put ⟨e, existing.creationTime⟩ body } : EdgeView).Kept full := by
  refine (h.create hd hbefore).putSnapshot (k := ⟨e, existing.creationTime⟩) body hd hlt.le
    fun body' hbody' => ?_
  rw [get_put_self] at hbody'
  cases hbody'
  exact ⟨hlt.ne, fun _ => hlt⟩

end

/-- A current edge becomes a snapshot edge, and another one records when. -/
lemma unlink (hd : v.mtime e.dirId = some t) (hlt : existing.creationTime < t)
    (body body' : SnapshotEdgeBody) :
    ({ v with
      current := v.current.delete e
      snapshot := (v.snapshot.put ⟨e, existing.creationTime⟩ body).put ⟨e, t⟩ body' } :
      EdgeView).Kept full := by
  have hnone : ∀ b, (v.current.delete e).get e ≠ some b := by simp
  have hput : ({ v with
      current := v.current.delete e
      snapshot := v.snapshot.put ⟨e, existing.creationTime⟩ body } : EdgeView).Kept full :=
    (h.deleteCurrent e).putSnapshot (k := ⟨e, existing.creationTime⟩) body hd hlt.le
      fun b hb => absurd hb (hnone b)
  exact hput.putSnapshot (k := ⟨e, t⟩) body' hd le_rfl fun b hb => absurd hb (hnone b)

end Kept

/-! ## Owners after a write -/

namespace Ordered

variable (h : v.Ordered) {existing : CurrentEdgeBody}
include h

lemma owners_override (hget : v.current.get e = some existing) (body : CurrentEdgeBody)
    (f : InodeId) :
    ({ v with
      current := v.current.put e body
      snapshot := v.snapshot.put ⟨e, existing.creationTime⟩ ⟨.of existing.targetId true⟩ } :
      EdgeView).owners f = v.owners f + body.owns f := by
  have howns : (⟨.of existing.targetId true⟩ : SnapshotEdgeBody).owns f = existing.owns f := by
    rw [SnapshotEdgeBody.owns_of existing.targetId_lt]
    simp only [CurrentEdgeBody.owns, true_and]
  have hput := currentOwners_put_of_some hget body f
  have hsnapshot := snapshotOwners_put_of_none (h.separate e existing hget)
    ⟨.of existing.targetId true⟩ f
  simp only [owners]
  omega

lemma owners_unlink (hget : v.current.get e = some existing) (hlt : existing.creationTime < t)
    (hfree : v.snapshot.get ⟨e, t⟩ = none) (body body' : SnapshotEdgeBody) (f : InodeId) :
    ({ v with
      current := v.current.delete e
      snapshot := (v.snapshot.put ⟨e, existing.creationTime⟩ body).put ⟨e, t⟩ body' } :
      EdgeView).owners f + existing.owns f = v.owners f + body.owns f + body'.owns f := by
  have hkeys : (⟨e, existing.creationTime⟩ : SnapshotEdgeKey) ≠ ⟨e, t⟩ := by
    simpa using hlt.ne
  have hdelete := currentOwners_delete hget f
  have hput := snapshotOwners_put_of_none (h.separate e existing hget) body f
  have hfree' : (v.snapshot.put ⟨e, existing.creationTime⟩ body).get ⟨e, t⟩ = none :=
    (get_put_of_ne hkeys).trans hfree
  have hput' := snapshotOwners_put_of_none hfree' body' f
  simp only [owners]
  omega

end Ordered

end EdgeView

end TernFS
