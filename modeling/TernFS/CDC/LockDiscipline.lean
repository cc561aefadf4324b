/-
# The lock discipline of the coordinator

The queues of the coordinator are lock queues in the sense of `Lib/LockQueues.lean`: the tickets are
the ids of transactions, and the resources are the directories that they need.  The invariant says
that queues and sentinels are what they should be, that executing transactions are granted, and that
the transactions that are granted but not executing are among those that are still to be looked at.
It holds after every step of the loops, and at the end of an entry nothing is left to be looked at.
-/
import TernFS.CDC.Queues
import TernFS.Lib.LockQueues
import TernFS.Lib.Run

namespace TernFS

open Lib SortedStore List Option

/-! ## The directories that a transaction needs -/

variable {ids ids' rest : List InodeId}

lemma nodup_addLock {id : InodeId} (h : addLock ids id = some ids') (hids : ids.Nodup) :
    ids'.Nodup := by
  unfold addLock at h
  split_ifs at h with hguard hmem <;> cases h
  · exact hids
  · rw [← concat_eq_append]
    exact hids.concat hmem

lemma nodup_addLocks (h : addLocks ids rest = some ids') (hids : ids.Nodup) : ids'.Nodup := by
  induction rest generalizing ids with
  | nil =>
    cases h
    exact hids
  | cons id rest ih =>
    obtain ⟨ids₁, hadd, hrest⟩ := bind_eq_some_iff.1 h
    exact ih hrest (nodup_addLock hadd hids)

lemma mem_addLocks (h : addLocks ids rest = some ids') {id : InodeId}
    (hid : id ∈ ids ∨ id ∈ rest) : id ∈ ids' := by
  induction rest generalizing ids with
  | nil =>
    cases h
    exact hid.resolve_right not_mem_nil
  | cons id' rest ih =>
    obtain ⟨ids₁, hadd, hrest⟩ := bind_eq_some_iff.1 h
    have hmem : id ∈ ids ∨ id = id' → id ∈ ids₁ := by
      unfold addLock at hadd
      split_ifs at hadd with hguard hmem <;> cases hadd
      · rintro (hid | rfl)
        · exact hid
        · exact hmem
      · simp
    refine ih hrest ?_
    rcases hid with hid | hid
    · exact .inl (hmem (.inl hid))
    · exact (mem_cons.1 hid).imp (fun heq => hmem (.inr heq)) fun h => h

/-- The directories that a request needs; none if an assertion fails. -/
def CDCReq.locks (req : CDCReq) : List InodeId := req.directoriesNeedingLock.getD []

lemma CDCReq.locks_nodup (req : CDCReq) : req.locks.Nodup := by
  unfold locks
  cases h : req.directoriesNeedingLock with
  | none => exact nodup_nil
  | some =>
    cases req <;> exact nodup_addLocks h nodup_nil

/-! ## Queues and sentinels -/

namespace DirsToTxns

variable {q q' : DirsToTxns} {t u : ℕ} {d : InodeId} {dirs : List InodeId}

/-- The transactions in the queue of a directory. -/
def queue (q : DirsToTxns) (d : InodeId) : Set ℕ := {t | (q.txns.get ⟨d, t⟩).isSome = true}

lemma mem_queue : t ∈ q.queue d ↔ (q.txns.get ⟨d, t⟩).isSome = true := Iff.rfl

/-- The sentinel of a directory is the first transaction in its queue. -/
def Valid (q : DirsToTxns) : Prop := ∀ d t, q.sentinels.get d = some t ↔ IsLeast (q.queue d) t

lemma Valid.sentinel_eq_none (hvalid : q.Valid) : q.sentinels.get d = none ↔ q.queue d = ∅ := by
  constructor
  · intro hnone
    by_contra hne
    have hleast := isLeast_csInf (Set.nonempty_iff_ne_empty.2 hne)
    rw [← hvalid, hnone] at hleast
    cases hleast
  · intro hempty
    by_contra hne
    obtain ⟨t, ht⟩ := ne_none_iff_exists'.1 hne
    have hmem := ((hvalid d t).1 ht).1
    rw [hempty] at hmem
    cases hmem

variable {d' : InodeId} {sentinels : SortedStore InodeId ℕ} {txns : SortedStore DirsToTxnsKey PUnit}

lemma mem_queue_put : u ∈ queue ⟨txns.put ⟨d', t⟩ ⟨⟩, sentinels⟩ d ↔
      (txns.get ⟨d, u⟩).isSome = true ∨ u = t ∧ d = d' := by
  simp only [mem_queue, get_put, DirsToTxnsKey.mk.injEq]
  split_ifs with h
  · simp [h.1, h.2]
  · have hne : ¬ (u = t ∧ d = d') := fun h' => h ⟨h'.2.symm, h'.1.symm⟩
    simp [hne]

lemma mem_queue_delete : u ∈ queue ⟨txns.delete ⟨d', t⟩, sentinels⟩ d ↔
      (txns.get ⟨d, u⟩).isSome = true ∧ ¬ (u = t ∧ d = d') := by
  simp only [mem_queue, get_delete, DirsToTxnsKey.mk.injEq]
  split_ifs with h
  · simp [h.1, h.2]
  · have hne : ¬ (u = t ∧ d = d') := fun h' => h ⟨h'.2.symm, h'.1.symm⟩
    simp [hne]

/-- `_addToDirsToTxns` joins the queues. -/
lemma queue_add (t : ℕ) (q : DirsToTxns) (dirs : List InodeId) :
    (add t q dirs).queue = joinQueues q.queue dirs t := by
  induction dirs generalizing q with
  | nil =>
    ext d u
    simp [add, mem_joinQueues]
  | cons d' dirs ih =>
    rw [add, ih]
    ext d u
    rw [mem_joinQueues, mem_queue_put, mem_joinQueues, mem_cons, mem_queue]
    tauto

/-- A new transaction keeps the sentinels right, since it comes after all the others. -/
lemma Valid.add (hvalid : q.Valid) (hnodup : dirs.Nodup)
    (hlast : ∀ d ∈ dirs, ∀ u ∈ q.queue d, u < t) : (add t q dirs).Valid := by
  induction dirs generalizing q with
  | nil => exact hvalid
  | cons d' dirs ih =>
    obtain ⟨hd', hnodup'⟩ := nodup_cons.1 hnodup
    have hqueue : ∀ {sentinels : SortedStore InodeId ℕ} (d : InodeId), d ≠ d' →
        queue ⟨q.txns.put ⟨d', t⟩ ⟨⟩, sentinels⟩ d = q.queue d := by
      intro sentinels d hne
      ext u
      rw [mem_queue_put]
      exact or_iff_left fun h => hne h.2
    have hleast : ∀ {sentinels : SortedStore InodeId ℕ} (u : ℕ),
        IsLeast (queue ⟨q.txns.put ⟨d', t⟩ ⟨⟩, sentinels⟩ d') u ↔
          IsLeast (q.queue d') u ∨ q.queue d' = ∅ ∧ u = t := by
      intro sentinels u
      have hjoin : queue ⟨q.txns.put ⟨d', t⟩ ⟨⟩, sentinels⟩ d' = joinQueues q.queue [d'] t d' := by
        ext v
        rw [mem_queue_put, mem_joinQueues, mem_queue]
        simp
      rw [hjoin, isLeast_joinQueues (hlast d' mem_cons_self)]
      simp
    rw [DirsToTxns.add]
    refine ih ?_ hnodup' fun d hd u hu => ?_
    · intro d u
      by_cases hd : d = d'
      · subst hd
        rw [hleast]
        cases hsentinel : q.sentinels.get d with
        | none =>
          have hempty := hvalid.sentinel_eq_none.1 hsentinel
          simp [hempty, eq_comm, IsLeast]
        | some v =>
          have hmem := ((hvalid d v).1 hsentinel).1
          have hne : q.queue d ≠ ∅ := fun hempty => by
            rw [hempty] at hmem
            cases hmem
          simp only [hsentinel, hne, false_and, or_false]
          rw [← hvalid, hsentinel]
      · rw [hqueue d hd, ← hvalid]
        cases q.sentinels.get d' with
        | none => rw [get_put_of_ne (Ne.symm hd)]
        | some => rfl
    · rw [hqueue d fun hd'' => hd' (hd'' ▸ hd)] at hu
      exact hlast d (mem_cons_of_mem _ hd) u hu

/-- The transaction that is next in line is the first one after the given one. -/
lemma next_eq_some : q.next d t = some u ↔ IsLeast {v | v ∈ q.queue d ∧ t < v} u := by
  have hle : ∀ v, (⟨d, t + 1⟩ : DirsToTxnsKey) ≤ ⟨d, v⟩ ↔ t < v := fun v => by
    rw [DirsToTxnsKey.le_def]
    simp only [lt_irrefl, true_and, false_or]
    exact Nat.succ_le_iff
  have hsome : ∀ v, q.txns.get ⟨d, v⟩ ≠ none ↔ v ∈ q.queue d := fun v => by
    rw [mem_queue, isSome_iff_ne_none]
  unfold next
  rw [bind_eq_some_iff]
  constructor
  · rintro ⟨⟨⟨d', v⟩, _⟩, hhead, hif⟩
    obtain ⟨hget, hge, hleast⟩ := seek_head?_spec hhead
    split_ifs at hif with hd
    subst hd
    cases hif
    refine ⟨⟨by rw [mem_queue, hget]; rfl, (hle _).1 hge⟩, fun w hw => ?_⟩
    have hmin := hleast ⟨d', w⟩ ((hle w).2 hw.2) ((hsome w).2 hw.1)
    simpa [DirsToTxnsKey.le_def] using hmin
  · rintro ⟨⟨hmem, hlt⟩, hlower⟩
    cases hhead : (q.txns.seek ⟨d, t + 1⟩).head? with
    | none =>
      have hnone := seek_head?_eq_none_iff.1 hhead ⟨d, u⟩ ((hle u).2 hlt)
      exact absurd hnone ((hsome u).2 hmem)
    | some e =>
      obtain ⟨⟨d', v⟩, _⟩ := e
      obtain ⟨hget, hge, hleast⟩ := seek_head?_spec hhead
      have hmin := hleast ⟨d, u⟩ ((hle u).2 hlt) ((hsome u).2 hmem)
      -- the entry that is found lies between two keys of the directory
      have hd : d' = d := by
        rw [DirsToTxnsKey.le_def] at hge hmin
        rcases hge with hge | hge
        · rcases hmin with hmin | hmin
          · exact absurd (hge.trans hmin) (lt_irrefl _)
          · exact hmin.1
        · exact hge.1.symm
      subst hd
      refine ⟨_, rfl, ?_⟩
      rw [if_pos rfl, some_inj]
      have hv : v ∈ q.queue d' := by rw [mem_queue, hget]; rfl
      refine le_antisymm ?_ (hlower ⟨hv, (hle v).1 hge⟩)
      simpa [DirsToTxnsKey.le_def] using hmin

lemma next_congr (h : ∀ v, t < v → (v ∈ q.queue d ↔ v ∈ q'.queue d)) :
    q.next d t = q'.next d t := by
  have hset : {v | v ∈ q.queue d ∧ t < v} = {v | v ∈ q'.queue d ∧ t < v} := by
    ext v
    exact and_congr_left (h v)
  ext u
  rw [next_eq_some, next_eq_some, hset]

/-- The queues without the transaction in those of the given directories. -/
lemma remove_step : queue ⟨q.txns.delete ⟨d', t⟩, sentinels⟩ d =
      if d = d' then leaveQueues q.queue t d else q.queue d := by
  ext u
  rw [mem_queue_delete]
  split_ifs with hd
  · simp [hd, mem_leaveQueues, mem_queue]
  · simp [hd, mem_queue]

/-- `_removeFromDirsToTxns` for a transaction at the head of its queues: it leaves them, and those
that come next are returned. -/
lemma Valid.remove (hvalid : q.Valid) (hnodup : dirs.Nodup)
    (hfirst : ∀ d ∈ dirs, IsLeast (q.queue d) t) :
    ∃ q', remove t q dirs = .ok (q', dirs.filterMap fun d => q.next d t) ∧ q'.Valid ∧
      ∀ d, q'.queue d = if d ∈ dirs then leaveQueues q.queue t d else q.queue d := by
  induction dirs generalizing q with
  | nil => exact ⟨q, rfl, hvalid, fun d => by simp⟩
  | cons d' dirs ih =>
    obtain ⟨hd', hnodup'⟩ := nodup_cons.1 hnodup
    have hleast := hfirst d' mem_cons_self
    have hrest := leaveQueues_of_isLeast hleast
    -- the first turn leaves a valid state, whatever comes next
    have hturn : ∀ sentinels : SortedStore InodeId ℕ,
        (∀ d, d ≠ d' → sentinels.get d = q.sentinels.get d) → sentinels.get d' = q.next d' t →
        ∃ q', remove t ⟨q.txns.delete ⟨d', t⟩, sentinels⟩ dirs =
            .ok (q', dirs.filterMap fun d => q.next d t) ∧ q'.Valid ∧
          ∀ d, q'.queue d = if d ∈ d' :: dirs then leaveQueues q.queue t d else q.queue d := by
      intro sentinels hother hsame
      have hvalid' : Valid ⟨q.txns.delete ⟨d', t⟩, sentinels⟩ := by
        intro d u
        rw [remove_step]
        by_cases hd : d = d'
        · subst hd
          rw [if_pos rfl, hsame, next_eq_some, hrest]
        · rw [if_neg hd, hother d hd]
          exact hvalid d u
      have hne : ∀ d ∈ dirs, d ≠ d' := fun d hd heq => hd' (heq ▸ hd)
      obtain ⟨q', hremove, hq', hqueue⟩ := ih hvalid' hnodup' (fun d hd => by
        rw [remove_step, if_neg (hne d hd)]
        exact hfirst d (mem_cons_of_mem _ hd))
      refine ⟨q', hremove.trans ?_, hq', fun d => ?_⟩
      · have hnext : dirs.filterMap (fun d => next ⟨q.txns.delete ⟨d', t⟩, sentinels⟩ d t) =
            dirs.filterMap fun d => q.next d t := by
          refine filterMap_congr fun d hd => next_congr fun v _ => ?_
          rw [remove_step, if_neg (hne d hd)]
        rw [hnext]
      · rw [hqueue, leaveQueues, remove_step]
        by_cases hd : d = d'
        · subst hd
          simp [hd']
        · simp [hd, leaveQueues]
    have hmem : (q.txns.get ⟨d', t⟩).isSome = true := hleast.1
    rw [DirsToTxns.remove, ensure_of hmem, ok_bind]
    cases hnext : q.next d' t with
    | none =>
      simp only [filterMap_cons, hnext]
      exact hturn _ (fun d hd => get_delete_of_ne (Ne.symm hd)) (by rw [get_delete_self, hnext])
    | some nextId =>
      obtain ⟨q', hremove, hq', hqueue⟩ := hturn (q.sentinels.put d' nextId)
        (fun d hd => get_put_of_ne (Ne.symm hd))
        (by rw [get_put_self, hnext])
      refine ⟨q', ?_, hq', hqueue⟩
      simp only [filterMap_cons, hnext, hremove, ok_bind]
      rfl

/-- `_isReadyToGo` for a transaction that is in its queues: it says whether the transaction is
granted. -/
lemma Valid.isReadyToGo (hvalid : q.Valid) (hmem : ∀ d ∈ dirs, t ∈ q.queue d) :
    ∃ ready, q.isReadyToGo t dirs = .ok ready ∧ (ready = true ↔ Granted q.queue dirs t) := by
  induction dirs with
  | nil => exact ⟨true, rfl, by simp [Granted]⟩
  | cons d dirs ih =>
    obtain ⟨ready, hready, hgranted⟩ := ih fun d' hd' => hmem d' (mem_cons_of_mem _ hd')
    have hne : q.queue d ≠ ∅ := fun hempty => by
      have hd := hmem d mem_cons_self
      rw [hempty] at hd
      cases hd
    obtain ⟨u, hu⟩ := ne_none_iff_exists'.1 (mt hvalid.sentinel_eq_none.1 hne)
    have hleast := (hvalid d u).1 hu
    rw [DirsToTxns.isReadyToGo, hu, orFail, ok_bind]
    by_cases htu : u = t
    · subst htu
      refine ⟨ready, by rw [if_neg (not_not.2 rfl), hready], hgranted.trans ?_⟩
      simp only [Granted, forall_mem_cons]
      exact (and_iff_right hleast).symm
    · refine ⟨false, by rw [if_pos htu]; rfl, ?_⟩
      simp only [Bool.false_eq_true, false_iff]
      exact fun hgrant => htu (hleast.unique (hgrant d mem_cons_self))

end DirsToTxns

/-! ## The invariant -/

namespace CDCDB

/-- The queues hold the enqueued transactions, executing transactions are granted, and the
transactions that are granted but not executing are in the list. -/
structure Inv (db : CDCDB) (txnIds : List ℕ) : Prop where
  locks : ∀ t req, db.enqueued.get t = some req → req.directoriesNeedingLock = some req.locks
  queue : ∀ d t, t ∈ db.dirsToTxns.queue d ↔ ∃ req, db.enqueued.get t = some req ∧ d ∈ req.locks
  sentinels : db.dirsToTxns.Valid
  lastTxn : ∀ t req, db.enqueued.get t = some req → t ≤ db.lastTxn
  executing : ∀ t state, db.executing.get t = some state →
    ∃ req, db.enqueued.get t = some req ∧ Granted db.dirsToTxns.queue req.locks t
  waiting : ∀ t req, db.enqueued.get t = some req → db.executing.get t = none →
    Granted db.dirsToTxns.queue req.locks t → t ∈ txnIds

variable {db db' : CDCDB} {txnIds txnIds' : List ℕ} {t : ℕ} {req : CDCReq} {state : TxnState}

/-- A transaction is only in the queues of the directories that it needs. -/
lemma Inv.mem_locks (hinv : db.Inv txnIds) (henqueued : db.enqueued.get t = some req) {d : InodeId}
    (hmem : t ∈ db.dirsToTxns.queue d) : d ∈ req.locks := by
  obtain ⟨req', hreq', hd⟩ := (hinv.queue d t).1 hmem
  obtain rfl := mem_unique henqueued hreq'
  exact hd

lemma inv_init : init.Inv [] where
  locks := nofun
  queue d t := by simp [init, DirsToTxns.mem_queue]
  sentinels d t := by
    have hempty : init.dirsToTxns.queue d = ∅ := by
      ext u
      simp [init, DirsToTxns.mem_queue]
    rw [hempty]
    simp [init, IsLeast]
  lastTxn := nofun
  executing := nofun
  waiting := nofun

lemma Inv.addToEnqueued (hinv : db.Inv txnIds)
    (h : { db with lastTxn := db.lastTxn + 1 }.addToEnqueued (db.lastTxn + 1) req = .ok db') :
    db'.Inv (txnIds ++ [db.lastTxn + 1]) := by
  simp only [CDCDB.addToEnqueued, bind_eq_ok, orFail_eq_ok] at h
  obtain ⟨dirs, hdirs, ⟨⟩⟩ := h
  obtain rfl : dirs = req.locks := by rw [CDCReq.locks, hdirs, getD_some]
  have hlast : ∀ d, ∀ u ∈ db.dirsToTxns.queue d, u < db.lastTxn + 1 := by
    intro d u hu
    obtain ⟨req', hreq', -⟩ := (hinv.queue d u).1 hu
    exact Nat.lt_succ_of_le (hinv.lastTxn u req' hreq')
  have hnew : db.enqueued.get (db.lastTxn + 1) = none := by
    by_contra hne
    obtain ⟨req', hreq'⟩ := ne_none_iff_exists'.1 hne
    exact absurd (hinv.lastTxn _ req' hreq') (by omega)
  refine ⟨?_, ?_, hinv.sentinels.add req.locks_nodup fun d _ => hlast d, ?_, ?_, ?_⟩
  · intro t req' henqueued
    rw [get_put] at henqueued
    split_ifs at henqueued with ht
    · cases henqueued
      exact hdirs
    · exact hinv.locks t req' henqueued
  · intro d t
    rw [DirsToTxns.queue_add, mem_joinQueues, hinv.queue]
    simp only [get_put]
    split_ifs with ht
    · subst ht
      simp [hnew]
    · simp [Ne.symm ht]
  · intro t req' henqueued
    rw [get_put] at henqueued
    split_ifs at henqueued with ht
    · exact ht.ge
    · exact (hinv.lastTxn t req' henqueued).trans (Nat.le_succ _)
  · intro t state hexecuting
    obtain ⟨req', hreq', hgranted⟩ := hinv.executing t state hexecuting
    have hne : t ≠ db.lastTxn + 1 := fun heq => by
      rw [heq, hnew] at hreq'
      cases hreq'
    refine ⟨req', (get_put_of_ne hne.symm).trans hreq', ?_⟩
    rw [DirsToTxns.queue_add]
    exact (granted_joinQueues hlast hne).2 hgranted
  · intro t req' henqueued hexecuting hgranted
    rw [get_put] at henqueued
    split_ifs at henqueued with ht
    · exact mem_append_right _ (mem_singleton.2 ht.symm)
    · rw [DirsToTxns.queue_add] at hgranted
      exact mem_append_left _ (hinv.waiting t req' henqueued hexecuting
        ((granted_joinQueues hlast (Ne.symm ht)).1 hgranted))

/-- The transactions that come next in the queues of a transaction. -/
def successors (db : CDCDB) (t : ℕ) (req : CDCReq) : List ℕ :=
  req.locks.filterMap fun d => db.dirsToTxns.next d t

/-- What advancing a transaction does: it goes on with a new state, or it leaves its queues. -/
inductive Advanced (db : CDCDB) (t : ℕ) (req : CDCReq) (resp : Option ShardResult)
    (state : TxnState) (txnIds : List ℕ) : CDCDB → List ℕ → Prop
  | runs {env : CDCEnv} {state' : TxnState} {shid : Fin 256} {repeated : Bool} {r : CDCShardReq}
      (hresume : req.resume db.env state resp = some (env, .needsShard state' shid repeated r)) :
    Advanced db t req resp state txnIds
      { db with env := env, executing := db.executing.put t state' } txnIds
  | finishes {env : CDCEnv} {out : Outcome} {q : DirsToTxns}
      (hresume : req.resume db.env state resp = some (env, out))
      (hout : ∀ state' shid repeated r, out ≠ .needsShard state' shid repeated r)
      (hvalid : q.Valid) (hqueue : q.queue = leaveQueues db.dirsToTxns.queue t) :
    Advanced db t req resp state txnIds { db with
        env := env
        executing := db.executing.delete t
        enqueued := db.enqueued.delete t
        dirsToTxns := q }
      (txnIds ++ db.successors t req)

section

variable (hinv : db.Inv txnIds) (henqueued : db.enqueued.get t = some req)
  (hgranted : Granted db.dirsToTxns.queue req.locks t)
include hinv henqueued hgranted

lemma Inv.execute (env : CDCEnv) (state : TxnState) :
    { db with env := env, executing := db.executing.put t state }.Inv txnIds := by
  refine ⟨hinv.locks, hinv.queue, hinv.sentinels, hinv.lastTxn, ?_, ?_⟩
  · intro u state' hexecuting
    rw [get_put] at hexecuting
    split_ifs at hexecuting with hu
    · exact hu ▸ ⟨req, henqueued, hgranted⟩
    · exact hinv.executing u state' hexecuting
  · intro u req' henqueued' hexecuting
    rw [get_put] at hexecuting
    split_ifs at hexecuting with hu
    exact hinv.waiting u req' henqueued' hexecuting

lemma Inv.finishExecuting (env : CDCEnv) :
    ∃ q : DirsToTxns, q.Valid ∧ q.queue = leaveQueues db.dirsToTxns.queue t ∧
      { db with env := env }.finishExecuting t req = .ok ({ db with
        env := env
        executing := db.executing.delete t
        enqueued := db.enqueued.delete t
        dirsToTxns := q }, db.successors t req) := by
  obtain ⟨q, hremove, hvalid, hqueue⟩ := hinv.sentinels.remove req.locks_nodup hgranted
  refine ⟨q, hvalid, ?_, ?_⟩
  · ext d u
    rw [hqueue]
    split_ifs with hd
    · rfl
    -- the transaction is not in this queue
    have hnot : t ∉ db.dirsToTxns.queue d := fun hmem => hd (hinv.mem_locks henqueued hmem)
    refine (and_iff_left_of_imp ?_).symm
    rintro hu rfl
    exact hnot hu
  · simp only [CDCDB.finishExecuting, hinv.locks t req henqueued, orFail, ok_bind, hremove]
    rfl

/-- Advancing a granted transaction does not look for anything that is not there. -/
lemma Inv.advance (resp : Option ShardResult) (state : TxnState) (step : CDCStep)
    (txnIds' : List ℕ) :
    db.advance t req resp state step txnIds' = .error .assertion ∨
      ∃ db' step' txnIds'', db.advance t req resp state step txnIds' = .ok (db', step', txnIds'') ∧
        Advanced db t req resp state txnIds' db' txnIds'' := by
  unfold CDCDB.advance
  cases hresume : req.resume db.env state resp with
  | none => exact .inl rfl
  | some out =>
    obtain ⟨env, outcome⟩ := out
    right
    simp only [orFail, ok_bind]
    obtain ⟨q, hvalid, hqueue, hfinish⟩ := hinv.finishExecuting henqueued hgranted env
    cases outcome with
    | needsShard => exact ⟨_, _, _, rfl, .runs hresume⟩
    | finish | finishWithError =>
      simp only [hfinish, ok_bind]
      exact ⟨_, _, _, rfl, .finishes hresume (fun _ _ _ _ h => by cases h) hvalid hqueue⟩

end

/-- A transaction that becomes first in a queue of one that leaves comes next after it. -/
lemma mem_successors {d : InodeId} {u : ℕ} (hd : d ∈ req.locks)
    (hfirst : IsLeast (db.dirsToTxns.queue d) t)
    (hleast : IsLeast (leaveQueues db.dirsToTxns.queue t d) u) : u ∈ db.successors t req := by
  rw [leaveQueues_of_isLeast hfirst, ← DirsToTxns.next_eq_some] at hleast
  exact mem_filterMap.2 ⟨d, hd, hleast⟩

variable {resp : Option ShardResult}

/-- Advancing a transaction keeps the invariant. -/
lemma Advanced.inv (h : Advanced db t req resp state txnIds db' txnIds') (hinv : db.Inv txnIds)
    (henqueued : db.enqueued.get t = some req)
    (hgranted : Granted db.dirsToTxns.queue req.locks t) : db'.Inv txnIds' := by
  cases h with
  | runs => exact hinv.execute henqueued hgranted _ _
  | @finishes env out q hresume hout hvalid hqueue =>
    have hget : ∀ {u req'}, (db.enqueued.delete t).get u = some req' →
        db.enqueued.get u = some req' ∧ u ≠ t := by
      intro u req' hu
      rw [get_delete] at hu
      split_ifs at hu with ht
      exact ⟨hu, Ne.symm ht⟩
    refine ⟨fun u req' hu => hinv.locks u req' (hget hu).1, ?_, hvalid,
      fun u req' hu => hinv.lastTxn u req' (hget hu).1, ?_, ?_⟩
    · intro d u
      rw [hqueue, mem_leaveQueues, hinv.queue]
      simp only [get_delete]
      split_ifs with hu
      · simp [hu]
      · simp [Ne.symm hu]
    · intro u state' hexecuting
      rw [get_delete] at hexecuting
      split_ifs at hexecuting with hu
      obtain ⟨req', hreq', hgranted'⟩ := hinv.executing u state' hexecuting
      refine ⟨req', (get_delete_of_ne hu).trans hreq', ?_⟩
      rw [hqueue]
      exact hgranted'.leave (Ne.symm hu)
    · intro u req' hu hexecuting hgranted'
      obtain ⟨hreq', hne⟩ := hget hu
      have hexecuting' : db.executing.get u = none :=
        (get_delete_of_ne (Ne.symm hne)).symm.trans hexecuting
      rw [hqueue] at hgranted'
      rcases hgranted'.of_leave fun d => hinv.mem_locks henqueued with hbefore | ⟨d, hd, hleast⟩
      · exact mem_append_left _ (hinv.waiting u req' hreq' hexecuting' hbefore)
      · exact mem_append_right _ (mem_successors hd (hgranted d hd) hleast)

/-! ## The loops -/

variable {step step' : CDCStep}

lemma Inv.enqueueCDCReqs {reqs : List CDCReq} {newIds : List ℕ} (hinv : db.Inv txnIds)
    (h : db.enqueueCDCReqs reqs = .ok (db', newIds)) : db'.Inv (txnIds ++ newIds) := by
  induction reqs generalizing db txnIds newIds with
  | nil =>
    cases h
    simpa using hinv
  | cons req reqs ih =>
    simp only [CDCDB.enqueueCDCReqs, bind_eq_ok, Prod.exists] at h
    obtain ⟨db₁, hadd, db₂, ids, hrest, ⟨⟩⟩ := h
    have hrest' := ih (hinv.addToEnqueued hadd) hrest
    rwa [append_assoc] at hrest'

lemma Inv.advanceWithResp (hinv : db.Inv txnIds)
    (h : db.advanceWithResp t resp step txnIds = .ok (db', step', txnIds')) :
    ∃ req state, db.enqueued.get t = some req ∧ db.executing.get t = some state ∧
      Granted db.dirsToTxns.queue req.locks t ∧
      Advanced db t req resp state txnIds db' txnIds' := by
  simp only [CDCDB.advanceWithResp, bind_eq_ok, orFail_eq_ok] at h
  obtain ⟨req, henqueued, state, hexecuting, hadvance⟩ := h
  obtain ⟨req', henqueued', hgranted⟩ := hinv.executing t state hexecuting
  obtain rfl := mem_unique henqueued henqueued'
  refine ⟨req, state, henqueued, hexecuting, hgranted, ?_⟩
  rcases hinv.advance henqueued hgranted resp state step txnIds with herror | ⟨_, _, _, hok, hadvanced⟩
  · rw [herror] at hadvance
    cases hadvance
  · rw [hok] at hadvance
    cases hadvance
    exact hadvanced

lemma Inv.advanceAll {resps : List (ℕ × Option ShardResult)} (hinv : db.Inv txnIds)
    (h : db.advanceAll resps step txnIds = .ok (db', step', txnIds')) : db'.Inv txnIds' := by
  induction resps generalizing db step txnIds with
  | nil =>
    cases h
    exact hinv
  | cons resp resps ih =>
    simp only [CDCDB.advanceAll, bind_eq_ok, Prod.exists] at h
    obtain ⟨db₁, step₁, txnIds₁, hfirst, hrest⟩ := h
    obtain ⟨req, state, henqueued, -, hgranted, hadvanced⟩ := hinv.advanceWithResp hfirst
    exact ih (hadvanced.inv hinv henqueued hgranted) hrest

/-- A transaction that executes already, or that is not granted, need not be looked at. -/
lemma Inv.skip (hinv : db.Inv (t :: txnIds)) (henqueued : db.enqueued.get t = some req)
    (h : db.executing.get t ≠ none ∨ ¬ Granted db.dirsToTxns.queue req.locks t) :
    db.Inv txnIds := by
  refine { hinv with waiting := fun u req' hu hexecuting hgranted => ?_ }
  rcases mem_cons.1 (hinv.waiting u req' hu hexecuting hgranted) with rfl | hmem
  · obtain rfl := mem_unique henqueued hu
    exact (h.elim (absurd hexecuting) (absurd hgranted))
  · exact hmem

/-- What a turn of `_startExecuting` does with the first transaction of the list: it is skipped, or
it is started and advanced. -/
lemma Inv.startExecuting_cons (hinv : db.Inv (t :: txnIds)) (henqueued : db.enqueued.get t = some req)
    (fuel : ℕ) (step : CDCStep) :
    startExecuting (fuel + 1) db step (t :: txnIds) = .error .assertion ∨
    (db.Inv txnIds ∧ startExecuting (fuel + 1) db step (t :: txnIds) =
      startExecuting fuel db step txnIds) ∨
    ∃ db₁ step₁ txnIds₁, db.executing.get t = none ∧ Granted db.dirsToTxns.queue req.locks t ∧
      { db with executing := db.executing.put t req.startState }.Inv txnIds ∧
      Advanced { db with executing := db.executing.put t req.startState } t req none req.startState
        txnIds db₁ txnIds₁ ∧
      db₁.Inv txnIds₁ ∧ startExecuting (fuel + 1) db step (t :: txnIds) =
        startExecuting fuel db₁ step₁ txnIds₁ := by
  have hmem : ∀ d ∈ req.locks, t ∈ db.dirsToTxns.queue d :=
    fun d hd => (hinv.queue d t).2 ⟨req, henqueued, hd⟩
  obtain ⟨ready, hready, hiff⟩ := hinv.sentinels.isReadyToGo hmem
  cases hexecuting : db.executing.get t with
  | some =>
    refine .inr (.inl ⟨hinv.skip henqueued (.inl (by simp [hexecuting])), ?_⟩)
    simp [startExecuting, henqueued, orFail, ok_bind, hexecuting]
  | none =>
    simp only [startExecuting, henqueued, orFail, ok_bind, hexecuting, isSome_none,
      Bool.false_eq_true, if_false, hinv.locks t req henqueued, hready]
    cases ready with
    | false =>
      refine .inr (.inl ⟨hinv.skip henqueued (.inr (mt hiff.2 (by simp))), ?_⟩)
      simp
    | true =>
      have hgranted := hiff.1 rfl
      -- the transaction is marked as executing before it is advanced
      have hinv' : { db with executing := db.executing.put t req.startState }.Inv txnIds :=
        (hinv.execute henqueued hgranted db.env req.startState).skip henqueued
          (.inl (by rw [get_put_self]; simp))
      rcases hinv'.advance henqueued hgranted none req.startState step txnIds with
        herror | ⟨db₁, step₁, txnIds₁, hok, hadvanced⟩
      · simp only [if_true, herror, error_bind]
        exact .inl trivial
      · simp only [if_true, hok, ok_bind]
        exact .inr (.inr ⟨db₁, step₁, txnIds₁, trivial, hgranted, hinv', hadvanced,
          hadvanced.inv hinv' henqueued hgranted, rfl⟩)

/-- The invariant is kept, with whatever starting a transaction keeps. -/
lemma Inv.startExecuting {P : CDCDB → Prop} {fuel : ℕ}
    (hP : ∀ {db : CDCDB} {t req txnIds db₁ txnIds₁}, P db → db.enqueued.get t = some req →
      Granted db.dirsToTxns.queue req.locks t →
      { db with executing := db.executing.put t req.startState }.Inv txnIds →
      Advanced { db with executing := db.executing.put t req.startState } t req none req.startState
        txnIds db₁ txnIds₁ → P db₁)
    (hinv : db.Inv txnIds) (hp : P db) (h : startExecuting fuel db step txnIds = .ok (db', step')) :
    db'.Inv [] ∧ P db' := by
  induction fuel generalizing db step txnIds with
  | zero =>
    cases txnIds with
    | nil =>
      cases h
      exact ⟨hinv, hp⟩
    | cons => cases h
  | succ fuel ih =>
    cases txnIds with
    | nil =>
      cases h
      exact ⟨hinv, hp⟩
    | cons t =>
      cases henqueued : db.enqueued.get t with
      | none =>
        simp only [CDCDB.startExecuting, henqueued, orFail, error_bind] at h
        cases h
      | some =>
        rcases hinv.startExecuting_cons henqueued fuel step with
          herror | ⟨hinv', hrest⟩ | ⟨db₁, step₁, txnIds₁, -, hgranted, hmarked, hadvanced, hinv', hrest⟩
        · rw [herror] at h
          cases h
        · exact ih hinv' hp (hrest.symm.trans h)
        · exact ih hinv' (hP hp henqueued hgranted hmarked hadvanced) (hrest.symm.trans h)

lemma Inv.collect {reqs : List CDCReq} {resps : List (ℕ × ShardResult)} {newIds : List ℕ}
    (hinv : db.Inv []) (h : db.collect reqs resps = .ok (db', step', txnIds', newIds)) :
    db'.Inv txnIds' := by
  simp only [CDCDB.collect, bind_eq_ok, Prod.exists] at h
  obtain ⟨db₁, ids, henqueue, db₂, step₂, txnIds₂, hadvance, rfl, rfl, ⟨⟩⟩ := h
  exact (hinv.enqueueCDCReqs henqueue).advanceAll hadvance

lemma Inv.of_step {entry : CDCLogEntry} (hinv : db.Inv []) (h : db.step entry = some db') :
    db'.Inv [] := by
  unfold CDCDB.step at h
  split at h
  · rename_i db₁ out happly
    cases h
    have hinv' : { db with lastAppliedLogEntry := db.lastAppliedLogEntry + 1 }.Inv [] :=
      { hinv with }
    cases entry with
    | bootstrap =>
      simp only [applyLogEntry, bootstrap, bind_eq_ok, ensure_eq_ok, exists_const, Prod.exists,
        true_and] at happly
      obtain ⟨db₂, step₂, ⟨db₃, step₃, txnIds, hadvance, hstart⟩, ⟨⟩⟩ := happly
      exact ((hinv'.advanceAll hadvance).startExecuting (fun _ _ _ _ _ => trivial) trivial hstart).1
    | update =>
      simp only [applyLogEntry, update, bind_eq_ok, ensure_eq_ok, exists_const, Prod.exists,
        true_and] at happly
      obtain ⟨db₂, step₂, txnIds, newIds, hcollect, db₃, step₃, hstart, ⟨⟩⟩ := happly
      exact ((hinv'.collect hcollect).startExecuting (fun _ _ _ _ _ => trivial) trivial hstart).1
  · cases h

lemma inv_of_run {entries : List CDCLogEntry} (hrun : run CDCDB.step .init entries = some db) :
    db.Inv [] := by
  have hstep : ∀ (db : CDCDB) (entry : CDCLogEntry) (db' : CDCDB), db.Inv [] →
      db.step entry = some db' → db'.Inv [] := fun db entry db' hinv => hinv.of_step
  exact run_preserves hstep inv_init hrun

end CDCDB

/-! ## The lock discipline -/

/-- What holds between two entries of the log. -/
structure LockDiscipline (db : CDCDB) : Prop where
  /-- The queue of a directory holds the enqueued transactions that need it. -/
  queue : ∀ d t, t ∈ db.dirsToTxns.queue d ↔
    ∃ req dirs, db.enqueued.get t = some req ∧ req.directoriesNeedingLock = some dirs ∧ d ∈ dirs
  /-- The sentinel of a directory is the first transaction in its queue, if there is one. -/
  sentinel : ∀ d, (∀ t, db.dirsToTxns.sentinels.get d = some t ↔ IsLeast (db.dirsToTxns.queue d) t) ∧
    ((db.dirsToTxns.sentinels.get d).isSome ↔ (db.dirsToTxns.queue d).Nonempty)
  /-- Executing transactions are enqueued, and no two of them need the same directory. -/
  exclusive : ∀ t u state state', db.executing.get t = some state →
    db.executing.get u = some state' → ∃ req req' dirs dirs', db.enqueued.get t = some req ∧
      db.enqueued.get u = some req' ∧ req.directoriesNeedingLock = some dirs ∧
      req'.directoriesNeedingLock = some dirs' ∧ (t ≠ u → ∀ d ∈ dirs, d ∉ dirs')
  /-- At most one directory is moved at a time. -/
  moves : ∀ t u state state' r r', db.executing.get t = some state →
    db.executing.get u = some state' → db.enqueued.get t = some (.renameDirectory r) →
    db.enqueued.get u = some (.renameDirectory r') → t = u
  /-- An enqueued transaction executes exactly if it is the first one in all its queues. -/
  executing : ∀ t req dirs, db.enqueued.get t = some req → req.directoriesNeedingLock = some dirs →
    ((db.executing.get t).isSome ↔ ∀ d ∈ dirs, IsLeast (db.dirsToTxns.queue d) t)

/-- Every move of a directory needs the same lock. -/
lemma CDCReq.moveDirectoryLock_mem {r : RenameReq} {dirs : List InodeId}
    (h : (CDCReq.renameDirectory r).directoriesNeedingLock = some dirs) :
    moveDirectoryLock ∈ dirs :=
  mem_addLocks h (.inr (by simp))

/-- **Lock discipline.** After every entry of the log, queues and sentinels are as they should be,
transactions that execute need different directories, and no transaction waits that could
execute. -/
theorem CDCDB.lockDiscipline_of_run {entries : List CDCLogEntry} {db : CDCDB}
    (hrun : run CDCDB.step .init entries = some db) : LockDiscipline db := by
  have hinv := inv_of_run hrun
  have hlocks : ∀ {t req dirs}, db.enqueued.get t = some req →
      req.directoriesNeedingLock = some dirs → dirs = req.locks :=
    fun hreq hdirs => some_inj.1 (hdirs.symm.trans (hinv.locks _ _ hreq))
  have hexclusive : ∀ {t u state state'}, db.executing.get t = some state →
      db.executing.get u = some state' → ∃ req req', db.enqueued.get t = some req ∧
        db.enqueued.get u = some req' ∧ (t ≠ u → ∀ d ∈ req.locks, d ∉ req'.locks) := by
    intro t u state state' ht hu
    obtain ⟨req, hreq, hgranted⟩ := hinv.executing t state ht
    obtain ⟨req', hreq', hgranted'⟩ := hinv.executing u state' hu
    exact ⟨req, req', hreq, hreq', fun hne d hd hd' => hne (hgranted.eq hgranted' hd hd')⟩
  refine ⟨fun d t => ?_, fun d => ⟨hinv.sentinels d, ?_⟩, ?_, ?_, ?_⟩
  · rw [hinv.queue]
    constructor
    · rintro ⟨req, hreq, hd⟩
      exact ⟨req, _, hreq, hinv.locks t req hreq, hd⟩
    · rintro ⟨req, dirs, hreq, hdirs, hd⟩
      exact ⟨req, hreq, hlocks hreq hdirs ▸ hd⟩
  · rw [isSome_iff_ne_none, Ne, hinv.sentinels.sentinel_eq_none, ← Ne, ← Set.nonempty_iff_ne_empty]
  · intro t u state state' ht hu
    obtain ⟨req, req', hreq, hreq', hdisjoint⟩ := hexclusive ht hu
    exact ⟨req, req', _, _, hreq, hreq', hinv.locks t req hreq, hinv.locks u req' hreq', hdisjoint⟩
  · intro t u state state' r r' ht hu hreq hreq'
    by_contra hne
    obtain ⟨req₁, req₂, hreq₁, hreq₂, hdisjoint⟩ := hexclusive ht hu
    obtain rfl := mem_unique hreq hreq₁
    obtain rfl := mem_unique hreq' hreq₂
    exact hdisjoint hne moveDirectoryLock (CDCReq.moveDirectoryLock_mem (hinv.locks t _ hreq))
      (CDCReq.moveDirectoryLock_mem (hinv.locks u _ hreq'))
  · intro t req dirs hreq hdirs
    obtain rfl := hlocks hreq hdirs
    constructor
    · intro hsome
      obtain ⟨state, hstate⟩ := isSome_iff_exists.1 hsome
      obtain ⟨req', hreq', hgranted⟩ := hinv.executing t state hstate
      obtain rfl := mem_unique hreq hreq'
      exact hgranted
    · intro hgranted
      by_contra hnone
      have hmem := hinv.waiting t req hreq (by simpa using hnone) hgranted
      cases hmem

/-- Two directories are made in the root directory, the coordinator comes up again, and the first
transaction is told that there is no such directory. -/
def sampleEntries : List CDCLogEntry :=
  [.update [.makeDirectory ⟨.rootDir, [97]⟩, .makeDirectory ⟨.rootDir, [98]⟩] [], .bootstrap,
    .update [] [(1, .error .directoryNotFound)]]

theorem CDCDB.lockDiscipline_of_two_txns :
    ∃ db db', run CDCDB.step .init (sampleEntries.take 2) = some db ∧
      (db.executing.get 1).isSome ∧ (db.enqueued.get 2).isSome ∧ (db.executing.get 2).isNone ∧
      run CDCDB.step .init sampleEntries = some db' ∧
      (db'.enqueued.get 1).isNone ∧ (db'.executing.get 2).isSome ∧ LockDiscipline db' := by
  simp only [exists_and_left]
  exact exists_eq_some_imp (fun db _ => And.imp_right (And.imp_right (And.imp_right
    (exists_eq_some_imp fun db' hdb' => And.imp_right fun h => ⟨h, lockDiscipline_of_run hdb'⟩))))
    (by decide +kernel)

end TernFS
