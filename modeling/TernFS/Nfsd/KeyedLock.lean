/-
# Mutexes by key

`keyedlock.Locker` (`nfsd/internal/keyedlock/locker.go`) keeps an entry for a key while the key is
held or awaited.  `ref` and `unref` run under the mutex of the table and wait for nothing there,
so that each is one step here.  They touch nothing of other keys, and an entry is never moved to
another key, so that the state of a locker is given key by key.
-/
import TernFS.Lib.Run
import Mathlib.Data.List.Perm.Basic
import Mathlib.Logic.Function.Basic
import Mathlib.Algebra.GroupWithZero.Nat

namespace TernFS.KeyedLock

open Lib Function List

/-- `lockEntry`: its mutex and the number of references. -/
structure LockEntry where
  locked : Bool
  refs : ℤ

/-- Where a call is: it waits for the mutex of its entry, or tries to get it; it has it and has
returned; the function that it returned has unlocked the mutex; it has failed. -/
inductive Phase
  | locking
  | trying
  | held
  | unlocking
  | failed
deriving DecidableEq

/-- A call of `Lock` or `TryLock` after `ref`, with the address of its entry. -/
structure Call where
  entry : ℕ
  phase : Phase

/-- What there is of a key: its entry in the table, the entries in memory with the next free
address, and the calls in progress. -/
structure KeyState where
  entry : Option ℕ
  heap : ℕ → LockEntry
  next : ℕ
  calls : List Call

namespace KeyState

def init : KeyState := ⟨none, fun _ => ⟨false, 0⟩, 0, []⟩

/-- `ref`, with the address that it returns. -/
def ref (s : KeyState) : KeyState × ℕ :=
  let (s, e) := match s.entry with
    | some e => (s, e)
    | none =>
      ({ s with entry := some s.next, heap := update s.heap s.next ⟨false, 0⟩, next := s.next + 1 },
        s.next)
  ({ s with heap := update s.heap e { s.heap e with refs := (s.heap e).refs + 1 } }, e)

/-- `unref`. -/
def unref (s : KeyState) (e : ℕ) : KeyState :=
  let s := { s with heap := update s.heap e { s.heap e with refs := (s.heap e).refs - 1 } }
  if (s.heap e).refs = 0 then { s with entry := none } else s

/-- The beginning of a call. -/
def enter (s : KeyState) (phase : Phase) : KeyState :=
  let (s, e) := s.ref
  { s with calls := ⟨e, phase⟩ :: s.calls }

/-- The mutex of an entry and the phase of a call change. -/
def setLocked (s : KeyState) (i : ℕ) (c : Call) (locked : Bool) (phase : Phase) : KeyState :=
  { s with
    heap := update s.heap c.entry { s.heap c.entry with locked }
    calls := s.calls.set i { c with phase } }

end KeyState

/-- What can happen next on a key. The calls that go on are given by their places. -/
inductive Action
  | lock
  | tryLock
  /-- The call gets the mutex, which is free. -/
  | acquire (i : ℕ)
  /-- `sync.Mutex.TryLock` fails, which may happen at any time. -/
  | fail (i : ℕ)
  /-- The function that the call returned unlocks the mutex. -/
  | unlock (i : ℕ)
  /-- The call, or the function that it returned, ends with `unref`. -/
  | unref (i : ℕ)

def KeyState.step (s : KeyState) : Action → Option KeyState
  | .lock => some (s.enter .locking)
  | .tryLock => some (s.enter .trying)
  | .acquire i => do
    let c ← s.calls[i]?
    guard ((c.phase = .locking ∨ c.phase = .trying) ∧ (s.heap c.entry).locked = false)
    return s.setLocked i c true .held
  | .fail i => do
    let c ← s.calls[i]?
    guard (c.phase = .trying)
    return { s with calls := s.calls.set i { c with phase := .failed } }
  | .unlock i => do
    let c ← s.calls[i]?
    guard (c.phase = .held)
    return s.setLocked i c false .unlocking
  | .unref i => do
    let c ← s.calls[i]?
    guard (c.phase = .unlocking ∨ c.phase = .failed)
    return { s.unref c.entry with calls := s.calls.eraseIdx i }

abbrev Locker (K : Type) := K → KeyState

/-- A step on one key. -/
def step {K : Type} [DecidableEq K] (l : Locker K) (a : K × Action) : Option (Locker K) :=
  ((l a.1).step a.2).map (update l a.1)

/-! ## The invariant -/

/-- The entry counts the calls on its key and is locked by the one that has it. -/
structure EntryOk (e : ℕ) (entry : LockEntry) (calls : List Call) : Prop where
  refs : entry.refs = calls.length
  held : calls.countP (·.phase = .held) = entry.locked.toNat
  entry : ∀ c ∈ calls, c.entry = e

/-- The table has an entry exactly if there are calls. -/
def KeyOk (s : KeyState) : Prop :=
  match s.entry with
  | none => s.calls = []
  | some e => s.calls ≠ [] ∧ EntryOk e (s.heap e) s.calls

variable {s s' : KeyState} {e i : ℕ} {entry : LockEntry} {calls calls' : List Call} {c : Call}

lemma EntryOk.perm (h : EntryOk e entry calls) (hperm : calls.Perm calls') :
    EntryOk e entry calls' :=
  ⟨hperm.length_eq ▸ h.refs, (hperm.countP_eq _).symm.trans h.held,
    fun c hc => h.entry c (hperm.mem_iff.2 hc)⟩

/-- A call in progress uses the entry of the table. -/
lemma KeyOk.entry_eq (h : KeyOk s) (hc : c ∈ s.calls) : s.entry = some c.entry := by
  rw [KeyOk] at h
  split at h
  · rw [h] at hc
    cases hc
  · next hentry => rw [hentry, h.2.entry c hc]

/-- One of the calls and the others. -/
lemma KeyOk.ok_cons (h : KeyOk s) (hi : s.calls[i]? = some c) :
    EntryOk c.entry (s.heap c.entry) (c :: s.calls.eraseIdx i) := by
  have hentry := h.entry_eq (mem_of_getElem? hi)
  obtain ⟨hlt, rfl⟩ := List.getElem?_eq_some_iff.1 hi
  simp only [KeyOk, hentry] at h
  exact h.2.perm (getElem_cons_eraseIdx_perm hlt).symm

lemma keyOk_of_some (hentry : s.entry = some e) (hne : s.calls ≠ [])
    (hok : EntryOk e (s.heap e) s.calls) : KeyOk s := by
  simp only [KeyOk, hentry]
  exact ⟨hne, hok⟩

/-- A call that goes on with its entry, whose mutex may change. -/
lemma KeyOk.setLocked (h : KeyOk s) (hi : s.calls[i]? = some c) {locked : Bool} {phase : Phase}
    (hheld : ∀ others, others + (if c.phase = .held then 1 else 0) = (s.heap c.entry).locked.toNat →
      others + (if phase = .held then 1 else 0) = locked.toNat) :
    KeyOk (s.setLocked i c locked phase) := by
  have hmem := mem_of_getElem? hi
  have hok := h.ok_cons hi
  obtain ⟨hlt, -⟩ := List.getElem?_eq_some_iff.1 hi
  refine keyOk_of_some (h.entry_eq hmem) (by simpa [KeyState.setLocked] using ne_nil_of_mem hmem) ?_
  simp only [KeyState.setLocked, update_self]
  have hnew : EntryOk c.entry ⟨locked, (s.heap c.entry).refs⟩
      (⟨c.entry, phase⟩ :: s.calls.eraseIdx i) := by
    refine ⟨hok.refs, ?_, forall_mem_cons.2 (forall_mem_cons.1 hok.entry)⟩
    have hold := hok.held
    simp only [countP_cons, decide_eq_true_eq] at hold ⊢
    exact hheld _ hold
  exact hnew.perm (set_perm_cons_eraseIdx hlt _).symm

lemma KeyOk.enter (h : KeyOk s) {phase : Phase} (hphase : phase ≠ .held) : KeyOk (s.enter phase) := by
  rw [KeyOk] at h
  rw [KeyState.enter, KeyState.ref]
  split at h
  · next hentry =>
    simp only [hentry]
    refine keyOk_of_some rfl (by simp) ?_
    simp only [h, update_self]
    exact ⟨by simp, by simp [hphase], by simp⟩
  · next hentry =>
    simp only [hentry]
    refine keyOk_of_some rfl (by simp) ?_
    simp only [update_self]
    refine ⟨by simp [h.2.refs], ?_, forall_mem_cons.2 ⟨rfl, h.2.entry⟩⟩
    rw [countP_cons_of_neg (by simpa using hphase)]
    exact h.2.held

lemma KeyState.unref_locked (s : KeyState) (e e' : ℕ) :
    ((s.unref e).heap e').locked = (s.heap e').locked := by
  rw [KeyState.unref]
  by_cases he : e' = e
  · subst he
    split <;> simp
  · split <;> simp [he]

lemma KeyOk.unref (h : KeyOk s) (hi : s.calls[i]? = some c)
    (hphase : c.phase = .unlocking ∨ c.phase = .failed) :
    KeyOk { s.unref c.entry with calls := s.calls.eraseIdx i } := by
  obtain ⟨hrefs, hheld, hentry⟩ := h.ok_cons hi
  have hnot : c.phase ≠ .held := by
    rcases hphase with hphase | hphase <;> rw [hphase] <;> decide
  rw [length_cons] at hrefs
  rw [countP_cons_of_neg (by simpa using hnot)] at hheld
  simp only [KeyState.unref, update_self]
  split
  · next hzero =>
    show s.calls.eraseIdx i = []
    rw [← length_eq_zero_iff]
    omega
  · next hpos =>
    refine keyOk_of_some (h.entry_eq (mem_of_getElem? hi)) ?_ ?_
    · show s.calls.eraseIdx i ≠ []
      rw [← length_pos_iff]
      omega
    simp only [update_self]
    refine ⟨?_, hheld, (forall_mem_cons.1 hentry).2⟩
    simp only
    omega

lemma KeyOk.step (h : KeyOk s) {a : Action} (hstep : s.step a = some s') : KeyOk s' := by
  cases a with
  | lock | tryLock =>
    cases hstep
    exact h.enter (by decide)
  | acquire i =>
    simp only [KeyState.step, bind_eq_some, Option.guard_eq_some'] at hstep
    obtain ⟨c, hi, _, ⟨hphase, hfree⟩, ⟨⟩⟩ := hstep
    refine h.setLocked hi fun others hothers => ?_
    rcases hphase with hphase | hphase <;> simp_all
  | fail i =>
    simp only [KeyState.step, bind_eq_some, Option.guard_eq_some'] at hstep
    obtain ⟨c, hi, _, hphase, ⟨⟩⟩ := hstep
    have hset : KeyOk (s.setLocked i c (s.heap c.entry).locked .failed) :=
      h.setLocked hi fun others hothers => by simp_all
    rwa [KeyState.setLocked, update_eq_self] at hset
  | unlock i =>
    simp only [KeyState.step, bind_eq_some, Option.guard_eq_some'] at hstep
    obtain ⟨c, hi, _, hphase, ⟨⟩⟩ := hstep
    refine h.setLocked hi fun others hothers => ?_
    have hle := Bool.toNat_le (s.heap c.entry).locked
    simp only [hphase, if_true] at hothers
    simp only [reduceCtorEq, if_false, Bool.toNat_false]
    omega
  | unref i =>
    simp only [KeyState.step, bind_eq_some, Option.guard_eq_some'] at hstep
    obtain ⟨c, hi, _, hphase, ⟨⟩⟩ := hstep
    exact h.unref hi hphase

lemma keyOk_of_run {K : Type} [DecidableEq K] {l : Locker K} {steps : List (K × Action)}
    (hrun : run step (fun _ => KeyState.init) steps = some l) (key : K) : KeyOk (l key) := by
  have hstep : ∀ (l : Locker K) a l', (∀ k, KeyOk (l k)) → step l a = some l' →
      ∀ k, KeyOk (l' k) := by
    intro l a l' hl hstep k
    obtain ⟨s, hs, rfl⟩ := Option.map_eq_some_iff.1 hstep
    by_cases hk : k = a.1
    · subst hk
      rw [update_self]
      exact (hl a.1).step hs
    · rw [update_of_ne hk]
      exact hl k
  have hinit : ∀ _ : K, KeyOk .init := fun _ => rfl
  exact run_preserves hstep hinit hrun key

/-- In every state that calls on any keys reach: at most one call holds a key, and one that gets the
mutex does; the calls on a key use the entry that the table has for it; a call can go on, unless it is a `Lock` on a key that is
held; a `TryLock` that fails leaves the other calls and their mutex as they are; and without calls
the table is empty. -/
theorem locker_of_run {K : Type} [DecidableEq K] {l : Locker K} {steps : List (K × Action)}
    (hrun : run step (fun _ => KeyState.init) steps = some l) :
    (∀ key, (l key).calls.countP (·.phase = .held) ≤ 1) ∧
    (∀ key i l', step l (key, .acquire i) = some l' →
      ∃ c, (l' key).calls[i]? = some c ∧ c.phase = .held) ∧
    (∀ key, ∀ c ∈ (l key).calls, (l key).entry = some c.entry) ∧
    (∀ key i c, (l key).calls[i]? = some c →
      (∃ a ∈ [Action.acquire i, .fail i, .unlock i, .unref i], (step l (key, a)).isSome) ∨
        c.phase = .locking ∧ ∃ c' ∈ (l key).calls, c'.phase = .held) ∧
    (∀ key i c, (l key).calls[i]? = some c →
      (c.phase = .trying → step l (key, .fail i) = some (update l key
        { l key with calls := (l key).calls.set i { c with phase := .failed } })) ∧
      (c.phase = .failed → ∃ l', step l (key, .unref i) = some l' ∧
        (l' key).calls = (l key).calls.eraseIdx i ∧ (∀ k, k ≠ key → l' k = l k) ∧
        ∀ c' ∈ (l' key).calls, (l' key).entry = (l key).entry ∧
          ((l' key).heap c'.entry).locked = ((l key).heap c'.entry).locked)) ∧
    ((∀ key, (l key).calls = []) → ∀ key, (l key).entry = none) := by
  have hok := keyOk_of_run hrun
  refine ⟨fun key => ?_, fun key i l' hstep => ?_, fun key c hc => (hok key).entry_eq hc,
    fun key i c hi => ?_, fun key i c hi => ⟨fun hphase => ?_, fun hphase => ?_⟩, fun hnone key => ?_⟩
  · have hkey := hok key
    rw [KeyOk] at hkey
    split at hkey
    · simp [hkey]
    · rw [hkey.2.held]
      exact Bool.toNat_le _
  · obtain ⟨s, hs, rfl⟩ := Option.map_eq_some_iff.1 hstep
    simp only [KeyState.step, bind_eq_some, Option.guard_eq_some'] at hs
    obtain ⟨c, hi, -, -, ⟨⟩⟩ := hs
    obtain ⟨hlt, -⟩ := List.getElem?_eq_some_iff.1 hi
    exact ⟨{ c with phase := .held }, by simp [KeyState.setLocked, hlt], rfl⟩
  · have hheld := ((hok key).ok_cons hi).held
    cases hphase : c.phase with
    | locking =>
      cases hlocked : ((l key).heap c.entry).locked with
      | false => exact .inl ⟨.acquire i, by simp, by simp [step, KeyState.step, hi, hphase, hlocked]⟩
      | true =>
        -- The mutex is locked by a call, and this one is not it.
        rw [countP_cons_of_neg (by simp [hphase]), hlocked] at hheld
        obtain ⟨c', hc', hphase'⟩ := countP_pos_iff.1 (by rw [hheld]; decide)
        exact .inr ⟨rfl, c', mem_of_mem_eraseIdx hc', of_decide_eq_true hphase'⟩
    | trying => exact .inl ⟨.fail i, by simp, by simp [step, KeyState.step, hi, hphase]⟩
    | held => exact .inl ⟨.unlock i, by simp, by simp [step, KeyState.step, hi, hphase]⟩
    | unlocking | failed =>
      exact .inl ⟨.unref i, by simp, by simp [step, KeyState.step, hi, hphase]⟩
  · simp [step, KeyState.step, hi, hphase]
  · have hunref : step l (key, .unref i) = some (update l key
        { (l key).unref c.entry with calls := (l key).calls.eraseIdx i }) := by
      simp [step, KeyState.step, hi, hphase]
    refine ⟨_, hunref, by simp, fun k hk => update_of_ne hk .., fun c' hc' => ?_⟩
    rw [update_self] at hc' ⊢
    have hentry := ((hok key).unref hi (.inr hphase)).entry_eq hc'
    refine ⟨hentry.trans ((hok key).entry_eq (mem_of_mem_eraseIdx hc')).symm, ?_⟩
    exact KeyState.unref_locked ..
  · have hkey := hok key
    rw [KeyOk] at hkey
    split at hkey
    · assumption
    · exact absurd (hnone key) hkey.1

/-- One call holds a key and another one has failed to get it. -/
def sampleCalls : List (ℕ × Action) := [(7, .lock), (7, .acquire 0), (7, .tryLock), (7, .fail 0)]

theorem locker_of_run_sample : ∃ l, run step (fun _ => KeyState.init) sampleCalls = some l ∧
    (l 7).calls.length = 2 ∧ (l 7).calls.countP (·.phase = .held) = 1 := by
  refine exists_eq_some_imp (fun l hrun (h : (l 7).calls.length = 2 ∧
    0 < (l 7).calls.countP (·.phase = .held)) => ⟨h.1, ?_⟩) (by decide)
  exact Nat.le_antisymm ((locker_of_run hrun).1 7) h.2

end TernFS.KeyedLock
