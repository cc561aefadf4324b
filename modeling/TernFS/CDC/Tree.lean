/-
# The tree of directories

The coordinator keeps the parent of every directory, so that it can refuse to move a directory below
itself.  The map is written when a transaction ends, and read by `loopCheck` when a move starts;
between the two, other transactions end and write to the map.

* `RenameDirectory.walk_loopCheck`: the walk of `loopCheck` ends on every map, and says whether the
  way up from the new owner ends at the root without passing through the directory to be moved.
* `CDCDB.isTree_of_run`: the map stays a tree.  The locks are needed for that: moves are executed one
  after the other, and the new owner of a directory is not unlinked while the directory is moved.
* `RenameDirectory.root_below_itself`: nothing keeps the root directory from being moved.
-/
import TernFS.CDC.LockDiscipline
import TernFS.CDC.Rollback
import TernFS.Lib.ParentMaps

namespace TernFS

open Lib Relation SortedStore List Option

/-! ## The walk of `loopCheck` -/

namespace RenameDirectory

/-- The loop of `loopCheck`, without a bound on the number of its turns. -/
inductive Walk (parents : SortedStore InodeId InodeId) :
    List InodeId → InodeId → Option TernError → Prop
  | root {visited : List InodeId} : Walk parents visited .rootDir none
  | loop {visited : List InodeId} {cursor : InodeId} (hroot : cursor ≠ .rootDir)
      (hvisited : cursor ∈ visited) : Walk parents visited cursor (some .loopInDirectoryRename)
  | notFound {visited : List InodeId} {cursor : InodeId} (hroot : cursor ≠ .rootDir)
      (hnew : cursor ∉ visited) (hget : parents.get cursor = none) :
    Walk parents visited cursor (some .directoryNotFound)
  | up {visited : List InodeId} {cursor parent : InodeId} {result : Option TernError}
      (hroot : cursor ≠ .rootDir) (hnew : cursor ∉ visited)
      (hget : parents.get cursor = some parent)
      (hrest : Walk parents (cursor :: visited) parent result) : Walk parents visited cursor result

/-- The directories with a parent that have not been visited. -/
def unvisited (parents : SortedStore InodeId InodeId) (visited : List InodeId) :
    List (InodeId × InodeId) :=
  parents.entries.filter fun e => e.1 ∉ visited

variable {parents : SortedStore InodeId InodeId} {visited : List InodeId}

lemma unvisited_cons_lt
    {cursor parent : InodeId} (hnew : cursor ∉ visited) (hget : parents.get cursor = some parent) :
    (unvisited parents (cursor :: visited)).length < (unvisited parents visited).length := by
  have hfilter : unvisited parents (cursor :: visited) =
      (unvisited parents visited).filter fun e => e.1 ≠ cursor := by
    simp [unvisited]
  rw [hfilter, length_filter_lt_length_iff_exists]
  exact ⟨(cursor, parent), mem_filter.2 ⟨mem_entries_iff.2 hget, decide_eq_true hnew⟩, by simp⟩

/-- There are enough turns if there is one for each directory that has not been visited. -/
lemma walk_walkUp {fuel : ℕ}
    {cursor : InodeId} (hfuel : (unvisited parents visited).length ≤ fuel) :
    Walk parents visited cursor (walkUp parents fuel visited cursor) := by
  induction fuel generalizing visited cursor with
  | zero | succ fuel ih =>
    unfold walkUp
    split_ifs with hroot hvisited
    · exact hroot ▸ .root
    · exact .loop hroot hvisited
    split
    · rename_i hget
      exact .notFound hroot hvisited hget
    · rename_i parent hget
      have hlt := unvisited_cons_lt hvisited hget
      first
      | omega
      | exact .up hroot hvisited hget (ih (by omega))

/-- `loopCheck` ends on every map. -/
lemma walk_loopCheck (req : RenameReq) (parents : SortedStore InodeId InodeId) :
    Walk parents [req.targetId] req.newOwnerId (loopCheck req parents) := by
  have hlength : (unvisited parents [req.targetId]).length ≤ parents.entries.length :=
    length_filter_le ..
  exact walk_walkUp (by omega)

/-- A walk without an error ends at the root and does not pass through directories that it has
visited before. -/
lemma Walk.leadsTo {cursor t : InodeId} (h : Walk parents visited cursor none) (ht : t ∈ visited) :
    LeadsTo parents.get {t} .rootDir cursor := by
  generalize hresult : (none : Option TernError) = result at h
  induction h with
  | root => exact .refl
  | loop | notFound => cases hresult
  | up hroot hnew hget _ ih =>
    refine .head ⟨hget, ?_⟩ (ih (mem_cons_of_mem _ ht) hresult)
    rintro rfl
    exact hnew ht

/-- A directory is moved only below one from which the way up does not pass through it. -/
lemma leadsTo_of_loopCheck {req : RenameReq} (h : loopCheck req parents = none) :
    LeadsTo parents.get {req.targetId} .rootDir req.newOwnerId :=
  (h ▸ walk_loopCheck req parents).leadsTo mem_cons_self

end RenameDirectory

/-! ## What is written to the map -/

section

variable {result : ShardResult} {answer : CDCResp} {w : ParentWrite}

/-- Starting a machine leaves the map alone. -/
lemma CDCReq.start_parents {req : CDCReq} {env env' : CDCEnv} {out : Outcome}
    (h : req.start env = some (env', out)) : env'.parents = env.parents := by
  cases req with
  | makeDirectory =>
    simp only [start, CDCEnv.allocateDirectoryId, bind_eq_some, Prod.exists] at h
    obtain ⟨dirId, env₁, hallocate, ⟨⟩⟩ := h
    split_ifs at hallocate
    cases hallocate
    rfl
  | _ =>
    cases h
    rfl

/-- What resuming a machine does to the map: nothing, unless an answer ends the transaction.  A move
that starts has passed the check. -/
lemma CDCReq.resume_cases {req : CDCReq} {env env' : CDCEnv} {state : TxnState}
    {resp : Option ShardResult} {out : Outcome}
    (h : req.resume env state resp = some (env', out)) :
    (env'.parents = env.parents ∧ (state.IsStart → ∀ r state' shid repeated q,
      req = .renameDirectory r → out = .needsShard state' shid repeated q →
        RenameDirectory.loopCheck r env.parents = none)) ∨
    ∃ result w, ¬ state.IsStart ∧ resp = some result ∧ env' = env.write w ∧
      req.Writes state result w ∧
      ∀ state' shid repeated q, out ≠ .needsShard state' shid repeated q := by
  by_cases hstart : state.IsStart
  · left
    unfold resume at h
    rw [if_pos hstart] at h
    refine ⟨start_parents h, ?_⟩
    rintro - r state' shid repeated q rfl rfl
    simp only [start, some.injEq, Prod.mk.injEq] at h
    unfold RenameDirectory.start at h
    split_ifs at h
    · cases h.2
    · cases h.2
    · split at h
      · cases h.2
      · assumption
  · unfold resume at h
    rw [if_neg hstart] at h
    split at h <;> obtain ⟨out', hout, heq⟩ := map_eq_some_iff.1 h
    · cases heq
      exact .inl ⟨rfl, fun hstart' => absurd hstart' hstart⟩
    cases out' with
    | needsShard | finishWithError =>
      cases heq
      exact .inl ⟨rfl, fun hstart' => absurd hstart' hstart⟩
    | finish answer w =>
      cases heq
      exact .inr ⟨_, w, hstart, rfl, rfl, after_follows hout, fun _ _ _ _ h => by cases h⟩

end

lemma CDCReq.isStart_startState (req : CDCReq) : req.startState.IsStart := by
  cases req <;> rfl

/-! ## The condition -/

/-- The condition under which an answer may end a transaction.  The root directory is not moved, a
directory that is unlinked has no children in the map, and a new directory gets an owner that is in
the map and an id that is not. -/
def CDCReq.EndOk (parents : SortedStore InodeId InodeId) : CDCReq → TxnState → ShardResult → Prop
  | makeDirectory r, .makeDirectory .unlockEdge state, .ok _ =>
    state.dirId ≠ .rootDir ∧ parents.get state.dirId = none ∧
      (r.ownerId = .rootDir ∨ (parents.get r.ownerId).isSome = true)
  | renameDirectory r, .renameDirectory .setOwner _, .ok _ => r.targetId ≠ .rootDir
  | softUnlinkDirectory r, .softUnlinkDirectory .unlockEdge _, .ok _
  | softUnlinkDirectory r, .softUnlinkDirectory .unlockEdge _, .error .edgeNotFound =>
    ∀ e ∈ parents.entries, e.2 ≠ r.targetId
  | _, _, _ => True

instance (parents : SortedStore InodeId InodeId) (req : CDCReq) (state : TxnState)
    (result : ShardResult) : Decidable (req.EndOk parents state result) := by
  unfold CDCReq.EndOk
  split <;> infer_instance

namespace CDCDB

/-- The condition on an answer, in the state in which it is handled. -/
def AnswerOk (db : CDCDB) (resp : ℕ × Option ShardResult) : Prop :=
  ∀ req ∈ db.enqueued.get resp.1, ∀ state ∈ db.executing.get resp.1, ∀ result ∈ resp.2,
    req.EndOk db.env.parents state result

instance (db : CDCDB) (resp : ℕ × Option ShardResult) : Decidable (db.AnswerOk resp) :=
  inferInstanceAs (Decidable (∀ req ∈ _, ∀ state ∈ _, ∀ result ∈ _, _))

/-- The condition on answers that are handled one after the other. -/
def AnswersOk : CDCDB → List (ℕ × Option ShardResult) → CDCStep → List ℕ → Prop
  | _, [], _, _ => True
  | db, resp :: resps, step, txnIds =>
    db.AnswerOk resp ∧ match db.advanceWithResp resp.1 resp.2 step txnIds with
      | .ok (db, step, txnIds) => AnswersOk db resps step txnIds
      | .error _ => True

instance AnswersOk.decidable : ∀ db resps step txnIds, Decidable (AnswersOk db resps step txnIds)
  | _, [], _, _ => isTrue trivial
  | db, resp :: resps, step, txnIds =>
    have : Decidable (match db.advanceWithResp resp.1 resp.2 step txnIds with
        | .ok (db, step, txnIds) => AnswersOk db resps step txnIds
        | .error _ => True) :=
      match db.advanceWithResp resp.1 resp.2 step txnIds with
      | .ok (db, step, txnIds) => AnswersOk.decidable db resps step txnIds
      | .error _ => isTrue trivial
    inferInstanceAs (Decidable (_ ∧ _))

/-- The condition on an entry of the log: the answers are handled after the new requests have been
enqueued. -/
def TreeOk (db : CDCDB) : CDCLogEntry → Prop
  | .bootstrap => True
  | .update reqs resps =>
    match { db with lastAppliedLogEntry := db.lastAppliedLogEntry + 1 }.enqueueCDCReqs reqs with
    | .ok (db, newIds) => AnswersOk db (resps.map fun r => (r.1, some r.2)) {} newIds
    | .error _ => True

instance (db : CDCDB) (entry : CDCLogEntry) : Decidable (db.TreeOk entry) := by
  unfold TreeOk
  split
  · infer_instance
  · split <;> infer_instance

/-! ## The invariant -/

/-- The map is a tree, and the directories that are being moved can be moved. -/
structure TreeInv (db : CDCDB) : Prop where
  tree : IsTree db.env.parents.get .rootDir
  moves : ∀ t state r, db.executing.get t = some state → ¬ state.IsStart →
    db.enqueued.get t = some (.renameDirectory r) →
    LeadsTo db.env.parents.get {r.targetId} .rootDir r.newOwnerId

variable {db db' : CDCDB} {txnIds txnIds' : List ℕ} {t u : ℕ} {req req' : CDCReq}
  {state state' : TxnState} {step step' : CDCStep}

/-- Transactions that execute at the same time need different directories. -/
lemma Inv.not_mem_locks (hinv : db.Inv txnIds)
    (hgranted : Granted db.dirsToTxns.queue req.locks t) (hu : db.executing.get u = some state')
    (henqueued' : db.enqueued.get u = some req') (hne : u ≠ t) {d : InodeId} (hd : d ∈ req.locks) :
    d ∉ req'.locks := by
  intro hd'
  obtain ⟨req'', hreq'', hgranted'⟩ := hinv.executing u state' hu
  obtain rfl := mem_unique henqueued' hreq''
  exact hne (hgranted'.eq hgranted hd' hd)

/-- The write that ends a transaction keeps the map a tree, and does not get in the way of the
directory that is being moved by another transaction. -/
lemma TreeInv.write {result : ShardResult} {w : ParentWrite} (h : db.TreeInv) (hinv : db.Inv txnIds)
    (hexecuting : db.executing.get t = some state) (hstart : ¬ state.IsStart)
    (henqueued : db.enqueued.get t = some req)
    (hgranted : Granted db.dirsToTxns.queue req.locks t) (hwrites : req.Writes state result w)
    (hok : req.EndOk db.env.parents state result) :
    IsTree (db.env.write w).parents.get .rootDir ∧
      ∀ u state' r, u ≠ t → db.executing.get u = some state' → ¬ state'.IsStart →
        db.enqueued.get u = some (.renameDirectory r) →
        LeadsTo (db.env.write w).parents.get {r.targetId} .rootDir r.newOwnerId := by
  have hput : ∀ {c p e : InodeId}, e ≠ c → (db.env.parents.put c p).get e = db.env.parents.get e :=
    fun hne => get_put_of_ne (Ne.symm hne)
  have hdelete : ∀ {c e : InodeId}, e ≠ c → (db.env.parents.delete c).get e = db.env.parents.get e :=
    fun hne => get_delete_of_ne (Ne.symm hne)
  cases hwrites with
  | keep => exact ⟨h.tree, fun u state' r _ hu hstart' => h.moves u state' r hu hstart'⟩
  | @make r =>
    obtain ⟨hroot, hnew, howner⟩ := hok
    have hleads : LeadsTo db.env.parents.get ∅ .rootDir r.ownerId := by
      rcases howner with heq | hsome
      · exact heq ▸ .refl
      · obtain ⟨p, hp⟩ := isSome_iff_exists.1 hsome
        exact h.tree.leads _ p hp
    have havoid := hleads.avoid_of_eq_none hnew
    rw [insert_empty_eq] at havoid
    refine ⟨h.tree.put (fun e => hput) hroot (get_put_self ..) havoid, ?_⟩
    intro u state' r' _ hu hstart' hreq'
    exact (h.moves u state' r' hu hstart' hreq').put (fun e => hput) hnew
  | @move r =>
    refine ⟨h.tree.put (fun e => hput) hok (get_put_self ..)
      (h.moves t _ r hexecuting hstart henqueued), ?_⟩
    intro u state' r' hne hu hstart' hreq'
    -- only one directory is moved at a time
    have hlock : ∀ {v q}, db.enqueued.get v = some (.renameDirectory q) →
        moveDirectoryLock ∈ (CDCReq.renameDirectory q).locks :=
      fun hv => CDCReq.moveDirectoryLock_mem (hinv.locks _ _ hv)
    exact absurd (hlock hreq') (hinv.not_mem_locks hgranted hu hreq' hne (hlock henqueued))
  | @unlink r s _ hresult =>
    have hleaf : ∀ e, db.env.parents.get e ≠ some r.targetId := by
      intro e he
      have hchildren : ∀ e ∈ db.env.parents.entries, e.2 ≠ r.targetId := by
        rcases hresult with ⟨resp, rfl⟩ | rfl
        · exact hok
        · exact hok
      exact hchildren (e, r.targetId) (mem_entries_iff.2 he) rfl
    refine ⟨h.tree.delete (fun e => hdelete) (get_delete_self ..) hleaf, ?_⟩
    intro u state' r' hne hu hstart' hreq'
    -- the new owner is locked, so that it is not the directory that is unlinked
    have htarget : r.targetId ∈ (CDCReq.softUnlinkDirectory r).locks :=
      mem_addLocks (hinv.locks _ _ henqueued) (.inr (by simp))
    have hnew : r'.newOwnerId ∈ (CDCReq.renameDirectory r').locks :=
      mem_addLocks (hinv.locks _ _ hreq') (.inr (by simp))
    have howner : r'.newOwnerId ≠ r.targetId :=
      fun heq => hinv.not_mem_locks hgranted hu hreq' hne htarget (heq ▸ hnew)
    exact (h.moves u state' r' hu hstart' hreq').delete (fun e => hdelete) hleaf howner

lemma Advanced.treeInv {resp : Option ShardResult}
    (hadvanced : Advanced db t req resp state txnIds db' txnIds') (h : db.TreeInv)
    (hinv : db.Inv txnIds) (hexecuting : db.executing.get t = some state)
    (henqueued : db.enqueued.get t = some req)
    (hgranted : Granted db.dirsToTxns.queue req.locks t)
    (hok : ∀ result ∈ resp, req.EndOk db.env.parents state result) : db'.TreeInv := by
  cases hadvanced with
  | @runs env state' shid repeated q hresume =>
    rcases CDCReq.resume_cases hresume with ⟨hparents, hcheck⟩ | ⟨_, _, _, _, _, _, hout⟩
    · refine ⟨hparents ▸ h.tree, fun u state₁ r hu hstart hreq => ?_⟩
      rw [hparents]
      rw [get_put] at hu
      split_ifs at hu with htu
      · subst htu
        obtain rfl := mem_unique henqueued hreq
        -- the directory can be moved since before, or the check has just been passed
        by_cases hstart' : state.IsStart
        · exact RenameDirectory.leadsTo_of_loopCheck (hcheck hstart' r _ _ _ _ rfl rfl)
        · exact h.moves t state r hexecuting hstart' hreq
      · exact h.moves u state₁ r hu hstart hreq
    · exact absurd rfl (hout state' shid repeated q)
  | @finishes env out q hresume =>
    have hothers : ∀ {u state₁ r}, (db.executing.delete t).get u = some state₁ →
        (db.enqueued.delete t).get u = some (.renameDirectory r) →
        u ≠ t ∧ db.executing.get u = some state₁ ∧ db.enqueued.get u = some (.renameDirectory r) := by
      intro u state₁ r hu hreq
      rw [get_delete] at hu hreq
      split_ifs at hu hreq with htu
      exact ⟨Ne.symm htu, hu, hreq⟩
    rcases CDCReq.resume_cases hresume with
      ⟨hparents, -⟩ | ⟨result, w, hstart, hresp, henv, hwrites, -⟩
    · refine ⟨hparents ▸ h.tree, fun u state₁ r hu hstart hreq => ?_⟩
      obtain ⟨-, hu', hreq'⟩ := hothers hu hreq
      rw [hparents]
      exact h.moves u state₁ r hu' hstart hreq'
    · obtain ⟨htree, hmoves⟩ := h.write hinv hexecuting hstart henqueued hgranted hwrites
        (hok result hresp)
      subst henv
      refine ⟨htree, fun u state₁ r hu hstart' hreq => ?_⟩
      obtain ⟨hne, hu', hreq'⟩ := hothers hu hreq
      exact hmoves u state₁ r hne hu' hstart' hreq'

/-! ## Runs -/

/-- New requests do not change the map, nor which transactions execute. -/
lemma TreeInv.enqueueCDCReqs {reqs : List CDCReq} {newIds : List ℕ} (h : db.TreeInv)
    (hinv : db.Inv txnIds) (henqueue : db.enqueueCDCReqs reqs = .ok (db', newIds)) :
    db'.TreeInv := by
  induction reqs generalizing db txnIds newIds with
  | nil =>
    cases henqueue
    exact h
  | cons req reqs ih =>
    simp only [CDCDB.enqueueCDCReqs, bind_eq_ok, Prod.exists] at henqueue
    obtain ⟨db₁, hadd, db₂, ids, hrest, ⟨⟩⟩ := henqueue
    refine ih ?_ (hinv.addToEnqueued hadd) hrest
    simp only [CDCDB.addToEnqueued, bind_eq_ok, orFail_eq_ok] at hadd
    obtain ⟨dirs, -, ⟨⟩⟩ := hadd
    refine ⟨h.tree, fun t state r ht hstart hreq => ?_⟩
    obtain ⟨req', hreq', -⟩ := hinv.executing t state ht
    have hne : db.lastTxn + 1 ≠ t := by
      have hle := hinv.lastTxn t req' hreq'
      omega
    exact h.moves t state r ht hstart ((get_put_of_ne hne).symm.trans hreq)

variable {resps : List (ℕ × Option ShardResult)}

lemma TreeInv.advanceAll (h : db.TreeInv)
    (hinv : db.Inv txnIds) (hok : AnswersOk db resps step txnIds)
    (hadvance : db.advanceAll resps step txnIds = .ok (db', step', txnIds')) : db'.TreeInv := by
  induction resps generalizing db step txnIds with
  | nil =>
    cases hadvance
    exact h
  | cons resp resps ih =>
    simp only [CDCDB.advanceAll, bind_eq_ok, Prod.exists] at hadvance
    obtain ⟨db₁, step₁, txnIds₁, hfirst, hrest⟩ := hadvance
    obtain ⟨hanswer, hanswers⟩ := hok
    rw [hfirst] at hanswers
    obtain ⟨req, state, henqueued, hexecuting, hgranted, hadvanced⟩ := hinv.advanceWithResp hfirst
    exact ih (hadvanced.treeInv h hinv hexecuting henqueued hgranted
      (hanswer req henqueued state hexecuting)) (hadvanced.inv hinv henqueued hgranted) hanswers hrest

lemma TreeInv.startExecuting {fuel : ℕ} (h : db.TreeInv) (hinv : db.Inv txnIds)
    (hexecute : startExecuting fuel db step txnIds = .ok (db', step')) : db'.TreeInv := by
  refine (hinv.startExecuting (P := TreeInv) ?_ h hexecute).2
  intro db t req txnIds db₁ txnIds₁ h henqueued hgranted hmarked hadvanced
  refine hadvanced.treeInv ?_ hmarked (get_put_self ..) henqueued hgranted nofun
  -- the transaction is marked as executing, but has not started yet
  refine ⟨h.tree, fun u state r hu hstart hreq => ?_⟩
  rw [get_put] at hu
  split_ifs at hu with htu
  · cases hu
    exact absurd (CDCReq.isStart_startState req) hstart
  · exact h.moves u state r hu hstart hreq

/-- There is no condition on requests that are sent again. -/
lemma answersOk_again (h : ∀ r ∈ resps, r.2 = none) : AnswersOk db resps step txnIds := by
  induction resps generalizing db step txnIds with
  | nil => trivial
  | cons resp resps ih =>
    refine ⟨fun req _ state _ result hresult => ?_, ?_⟩
    · rw [h resp mem_cons_self] at hresult
      cases hresult
    · split
      · exact ih fun r hr => h r (mem_cons_of_mem _ hr)
      · trivial

lemma TreeInv.of_step {entry : CDCLogEntry} (h : db.TreeInv) (hinv : db.Inv [])
    (hok : db.TreeOk entry) (hstep : db.step entry = some db') : db'.TreeInv := by
  unfold CDCDB.step at hstep
  split at hstep
  · rename_i db₁ out happly
    cases hstep
    have h' : { db with lastAppliedLogEntry := db.lastAppliedLogEntry + 1 }.TreeInv := ⟨h.tree, h.moves⟩
    have hinv' : { db with lastAppliedLogEntry := db.lastAppliedLogEntry + 1 }.Inv [] :=
      { hinv with }
    cases entry with
    | bootstrap =>
      simp only [applyLogEntry, bootstrap, bind_eq_ok, ensure_eq_ok, exists_const, Prod.exists,
        true_and] at happly
      obtain ⟨db₂, step₂, ⟨db₃, step₃, txnIds, hadvance, hstart⟩, ⟨⟩⟩ := happly
      have hanswers : ∀ r ∈ db.executing.entries.map (fun e => (e.1, (none : Option ShardResult))),
          r.2 = none := by
        intro r hr
        obtain ⟨e, -, rfl⟩ := mem_map.1 hr
        rfl
      exact (h'.advanceAll hinv' (answersOk_again hanswers) hadvance).startExecuting
        (hinv'.advanceAll hadvance) hstart
    | update =>
      simp only [applyLogEntry, update, CDCDB.collect, bind_eq_ok, ensure_eq_ok, exists_const,
        Prod.exists, true_and] at happly
      obtain ⟨db₂, step₂, txnIds, newIds, ⟨db₃, ids, henqueue, db₄, step₄, txnIds₄, hadvance, rfl, rfl,
        rfl, rfl⟩, db₅, step₅, hstart, ⟨⟩⟩ := happly
      simp only [TreeOk, henqueue] at hok
      have hinv₃ := hinv'.enqueueCDCReqs henqueue
      exact ((h'.enqueueCDCReqs hinv' henqueue).advanceAll hinv₃ hok hadvance).startExecuting
        (hinv₃.advanceAll hadvance) hstart
  · cases hstep

/-- **The directories stay a tree.** From every map that is a tree, in every run whose entries meet
the condition, the map stays one: the way up from every directory in it ends at the root, and no
directory is its own ancestor.  `loopCheck` ends on every map. -/
theorem isTree_of_run {env : CDCEnv} {entries : List CDCLogEntry}
    (htree : IsTree env.parents.get .rootDir)
    (hok : RunMeets CDCDB.step TreeOk { CDCDB.init with env := env } entries)
    (hrun : run CDCDB.step { CDCDB.init with env := env } entries = some db) :
    (IsTree db.env.parents.get .rootDir ∧
      ∀ d, ¬ TransGen (fun c p => db.env.parents.get c = some p) d d) ∧
    ∀ r parents, RenameDirectory.Walk parents [r.targetId] r.newOwnerId
      (RenameDirectory.loopCheck r parents) := by
  have hinit : { CDCDB.init with env := env }.Inv [] ∧ { CDCDB.init with env := env }.TreeInv :=
    ⟨{ inv_init with }, htree, fun t state r ht => absurd ht (by simp [CDCDB.init])⟩
  have hstep : ∀ (db : CDCDB) (entry : CDCLogEntry) (db' : CDCDB), db.Inv [] ∧ db.TreeInv →
      db.TreeOk entry → db.step entry = some db' → db'.Inv [] ∧ db'.TreeInv :=
    fun db entry db' h hok hstep => ⟨h.1.of_step hstep, h.2.of_step h.1 hok hstep⟩
  have hreached := (run_invariant hstep hinit hok hrun).2.tree
  exact ⟨⟨hreached, hreached.acyclic⟩, RenameDirectory.walk_loopCheck⟩

/-- Two directories `a` and `b` are made in the root directory, and `b` is moved into `a`. -/
def sampleMove : List CDCLogEntry :=
  let a : InodeId := ⟨InodeId.rootDir.u64 + 1⟩
  let b : InodeId := ⟨InodeId.rootDir.u64 + 2⟩
  [.update [.makeDirectory ⟨.rootDir, [97]⟩] [], .update [] [(1, .error .nameNotFound)],
    .update [] [(1, .ok .done)], .update [] [(1, .ok (.fullReadDir []))],
    .update [] [(1, .ok (.createLockedCurrentEdge 5))],
    .update [.makeDirectory ⟨.rootDir, [98]⟩] [(1, .ok .done)],
    .update [] [(2, .error .nameNotFound)], .update [] [(2, .ok .done)],
    .update [] [(2, .ok (.fullReadDir []))], .update [] [(2, .ok (.createLockedCurrentEdge 6))],
    .update [.renameDirectory ⟨b, .rootDir, [98], 6, a, [99]⟩] [(2, .ok .done)],
    .update [] [(3, .ok .done)], .update [] [(3, .ok (.fullReadDir []))],
    .update [] [(3, .ok (.createLockedCurrentEdge 9))], .update [] [(3, .ok .done)],
    .update [] [(3, .ok .done)], .update [] [(3, .ok .done)]]

theorem isTree_of_sampleMove :
    ∃ db, run CDCDB.step { CDCDB.init with env := .init } sampleMove = some db ∧
      db.env.parents.get ⟨InodeId.rootDir.u64 + 2⟩ = some ⟨InodeId.rootDir.u64 + 1⟩ ∧
      IsTree db.env.parents.get .rootDir := by
  have hok : RunMeets CDCDB.step TreeOk { CDCDB.init with env := .init } sampleMove := by
    decide +kernel
  have hempty : IsTree CDCEnv.init.parents.get .rootDir :=
    ⟨rfl, fun c p hc => absurd hc (by simp [CDCEnv.init])⟩
  exact exists_eq_some_imp (fun db hrun hmoved => ⟨hmoved, (isTree_of_run hempty hok hrun).1.1⟩)
    (by decide +kernel)

end CDCDB

/-- The root directory is to be moved below the directory `d`, in place of the edge of `d`. -/
def sampleMoveRoot : RenameReq :=
  ⟨.rootDir, .rootDir, [100], 1, sampleRemoteDir, [98]⟩

/-- The coordinator of `sampleTree`. -/
def sampleParents : CDCEnv :=
  ⟨⟨InodeId.rootDir.u64 + 1⟩, SortedStore.empty.put sampleRemoteDir .rootDir⟩

/-- The root directory passes `loopCheck`, and the shards carry the request out: it gets a parent
that is below it. -/
theorem RenameDirectory.root_below_itself : IsTree sampleParents.parents.get .rootDir ∧ ∃ sys₀ sys,
      TxnSystem.start (.renameDirectory sampleMoveRoot) sampleTree sampleParents = some sys₀ ∧
      run (TxnSystem.step sampleCluster (.renameDirectory sampleMoveRoot)) sys₀
        [sampleRespond 3, sampleRespond 4, sampleRespond 5, sampleRespond 6, sampleRespond 7,
          sampleRespond 8] = some sys ∧
      sys.env.parents.get .rootDir = some sampleRemoteDir ∧
      sys.env.parents.get sampleRemoteDir = some .rootDir ∧
      TransGen (fun c p => sys.env.parents.get c = some p) .rootDir .rootDir := by
  have hempty : IsTree (SortedStore.empty : SortedStore InodeId InodeId).get .rootDir :=
    ⟨rfl, fun c p hc => absurd hc (by simp)⟩
  have htree : IsTree sampleParents.parents.get .rootDir :=
    hempty.put (fun e he => get_put_of_ne (Ne.symm he)) (by decide) (get_put_self ..) .refl
  refine ⟨htree, ?_⟩
  simp only [exists_and_left]
  exact exists_eq_some_imp (fun sys₀ _ => exists_eq_some_imp fun sys _
    (h : sys.env.parents.get .rootDir = some sampleRemoteDir ∧
      sys.env.parents.get sampleRemoteDir = some .rootDir) =>
        ⟨h.1, h.2, .tail (.single h.1) h.2⟩) (by decide +kernel)

end TernFS
