/-
# Erase proofs and late writes

`handleAdmittedRequest` (`ternblocks.go`) serves the WriteBlock and EraseBlock requests of a block
on disk workers of their own.  What keeps them apart are two cut-offs around the time in the block
id, which are read when a request starts.  This file follows the requests for one block id, on any
number of connections, through the operations on the block's file: the interleaving, the time
each operation takes, its failure and the crashes of the host are inputs.
-/
import TernFS.Lib.Durable
import TernFS.Lib.Run
import Mathlib.Algebra.Order.Ring.Int

namespace TernFS.BlockService

open Lib List Option

/-- A minute, in the nanoseconds of `time.Duration`. -/
def minute : ℤ := 60 * 10 ^ 9

def PAST_CUTOFF : ℤ := 22 * 60 * minute

def DEFAULT_FUTURE_CUTOFF : ℤ := 60 * minute

def WRITE_FUTURE_CUTOFF : ℤ := 5 * minute

/-- Where a request for the block stands. -/
inductive Stage
  /-- A WriteBlock that passed the checks, up to the rename of its temporary file. -/
  | writing
  /-- `moveFileAndSyncDir` has renamed the file. -/
  | moved
  /-- The directory is synced, the proof is not sent yet. -/
  | written
  /-- An EraseBlock that passed the checks. -/
  | erasing
  /-- `eraseFileIfExistsAndSyncDir` has removed the file. -/
  | removed
  /-- `eraseBlock` has returned nil, the proof is not sent yet. -/
  | erased
deriving DecidableEq

/-- The stages of a WriteBlock. -/
def Stage.writes : Stage → Bool
  | .writing | .moved | .written => true
  | .erasing | .removed | .erased => false

structure State where
  /-- The clock of the host. -/
  now : ℤ
  /-- Is there a file at the path of the block? -/
  file : Durable Bool
  /-- The requests for the block under way, on any connections. -/
  requests : List Stage
  /-- An erase proof has been sent. -/
  eraseProof : Bool
  /-- A write proof has been sent after an erase proof. -/
  lateWriteProof : Bool

inductive Event
  | clock (now : ℤ)
  /-- A WriteBlock with a good certificate is admitted. -/
  | writeBlock
  /-- An EraseBlock with a good certificate is admitted. -/
  | eraseBlock
  /-- A request ends with an error: of the socket, of the checks of the body or of the disk. -/
  | fail (stage : Stage)
  /-- `os.Rename` of a WriteBlock succeeds. -/
  | rename
  /-- `os.Remove` of an EraseBlock succeeds, or finds no file. -/
  | remove
  /-- The sync of the directory succeeds, after the rename. -/
  | syncWrite
  /-- The sync of the directory succeeds, after the remove. -/
  | syncErase
  | sendWriteProof
  | sendEraseProof
  /-- The process is started again. -/
  | restart
  /-- The host is started again, with the file as it was some changes ago. -/
  | crash (age : ℕ)

namespace State

/-- A request goes on to another stage, or ends. -/
def advance (s : State) (stage : Stage) (next : Option Stage) : Option State :=
  if stage ∈ s.requests then
    some { s with requests := next.toList ++ s.requests.erase stage }
  else none

end State

variable {blockTime futureCutoff : ℤ} {s s' : State} {e : Event}

/-- One event, for the block whose id is `blockTime` with the flag `-future-cutoff`. -/
def step (blockTime futureCutoff : ℤ) (s : State) : Event → Option State
  | .clock now => some { s with now := now }
  | .writeBlock =>
    -- the panic ends the process
    if s.now < blockTime - PAST_CUTOFF then some { s with requests := [] }
    else if blockTime + WRITE_FUTURE_CUTOFF < s.now then some s
    else some { s with requests := .writing :: s.requests }
  | .eraseBlock =>
    if s.now < blockTime + futureCutoff then some s
    else some { s with requests := .erasing :: s.requests }
  | .fail stage => s.advance stage none
  | .rename => { s with file := s.file.set true }.advance .writing (some .moved)
  | .remove =>
    if s.file.now then { s with file := s.file.set false }.advance .erasing (some .removed)
    -- `os.IsNotExist`: no sync
    else s.advance .erasing (some .erased)
  | .syncWrite => { s with file := s.file.sync }.advance .moved (some .written)
  | .syncErase => { s with file := s.file.sync }.advance .removed (some .erased)
  | .sendWriteProof =>
    { s with lateWriteProof := s.lateWriteProof || s.eraseProof }.advance .written none
  | .sendEraseProof => { s with eraseProof := true }.advance .erased none
  | .restart => some { s with requests := [] }
  | .crash age => some { s with file := s.file.crash age, requests := [] }

/-- The state before the first request. -/
def start (now : ℤ) (file : Durable Bool) : State := ⟨now, file, [], false, false⟩

/-- What an event must meet: the clock is not set back, and a remove finds no WriteBlock under way
and, if it finds no file, a disk on which none can come back. -/
def EventOk (s : State) : Event → Prop
  | .clock now => s.now ≤ now
  | .remove => (∀ r ∈ s.requests, r.writes = false) ∧ (s.file.now = false → s.file.Settled false)
  | _ => True

instance : ∀ e, Decidable (EventOk s e)
  | .clock now => inferInstanceAs (Decidable (s.now ≤ now))
  | .remove => inferInstanceAs (Decidable (_ ∧ _))
  | .writeBlock | .eraseBlock | .fail _ | .rename | .syncWrite | .syncErase | .sendWriteProof
  | .sendEraseProof | .restart | .crash _ => isTrue trivial

/-! ## The invariant -/

variable {cutoff : ℤ}

/-- Past the cut-off, with no WriteBlock under way and no file. -/
structure Gone (cutoff : ℤ) (s : State) : Prop where
  late : cutoff ≤ s.now
  no_write : ∀ r ∈ s.requests, r.writes = false
  absent : s.file.now = false

/-- What holds between events. -/
structure Inv (cutoff : ℤ) (s : State) : Prop where
  late : ∀ r ∈ s.requests, r.writes = false → cutoff ≤ s.now
  removed : .removed ∈ s.requests → Gone cutoff s
  erased : .erased ∈ s.requests ∨ s.eraseProof = true → Gone cutoff s ∧ s.file.Settled false
  proof : s.lateWriteProof = false

variable {stage r : Stage}

lemma advance_eq_some {next : Option Stage} : s.advance stage next = some s' ↔
      stage ∈ s.requests ∧ s' = { s with requests := next.toList ++ s.requests.erase stage } := by
  simp [State.advance, eq_comm]

lemma mem_advance {next : Option Stage} {rs : List Stage}
    (h : r ∈ next.toList ++ rs.erase stage) : next = some r ∨ r ∈ rs := by
  rcases mem_append.1 h with h | h
  · exact .inl (mem_toList.1 h)
  · exact .inr (mem_of_mem_erase h)

/-- A request that goes on and leaves the file as it is, or syncs it, keeps the invariant when
the stage it reaches does. -/
lemma Inv.advance (h : Inv cutoff s) (next : Option Stage)
    (hstage : stage ∈ s.requests) {file : Durable Bool} (hnow : file.now = s.file.now)
    (hfile : s.file.Settled false → file.Settled false)
    (hwrites : ∀ r, next = some r → r.writes = stage.writes ∧ r ≠ .removed)
    (herased : next = some .erased → Gone cutoff s ∧ file.Settled false) :
    Inv cutoff { s with file := file, requests := next.toList ++ s.requests.erase stage } := by
  have hgone : Gone cutoff s → Gone cutoff
      { s with file := file, requests := next.toList ++ s.requests.erase stage } := by
    intro hg
    refine ⟨hg.late, fun r hr => ?_, hnow.trans hg.absent⟩
    rcases mem_advance hr with hr | hr
    · exact (hwrites r hr).1.trans (hg.no_write _ hstage)
    · exact hg.no_write r hr
  refine ⟨fun r hr hw => ?_, fun hr => ?_, fun hr => ?_, h.proof⟩
  · rcases mem_advance hr with hr | hr
    · exact h.late _ hstage ((hwrites r hr).1 ▸ hw)
    · exact h.late r hr hw
  · rcases mem_advance hr with hr | hr
    · exact absurd rfl (hwrites _ hr).2
    · exact hgone (h.removed hr)
  by_cases hnext : next = some .erased
  · exact (herased hnext).imp_left hgone
  · refine (h.erased (hr.imp_left fun hr => ?_)).imp hgone hfile
    exact (mem_advance hr).resolve_left hnext

/-- A rename leaves the invariant, since no erase is past its remove. -/
lemma Inv.rename (h : Inv cutoff s) (hw : Stage.writing ∈ s.requests) : Inv cutoff
      { s with file := s.file.set true, requests := .moved :: s.requests.erase .writing } := by
  have hnot : ¬ Gone cutoff s := fun hg => absurd (hg.no_write _ hw) (by decide)
  refine ⟨fun r hr hwr => ?_, fun hr => ?_, fun hr => ?_, h.proof⟩
  · rcases mem_cons.1 hr with rfl | hr
    · simp [Stage.writes] at hwr
    · exact h.late r (mem_of_mem_erase hr) hwr
  · exact absurd (h.removed (by simpa using hr)) hnot
  · exact absurd (h.erased (by simpa using hr)).1 hnot

/-- A remove of the file, when no WriteBlock is under way. -/
lemma Inv.remove (h : Inv cutoff s) (he : Stage.erasing ∈ s.requests)
    (hfile : s.file.now = true) (hw : ∀ r ∈ s.requests, r.writes = false) :
    Inv cutoff
      { s with file := s.file.set false, requests := .removed :: s.requests.erase .erasing } := by
  have hlate := h.late _ he rfl
  have hnot : ¬ Gone cutoff s := fun hg => by simp [hg.absent] at hfile
  have hno : ∀ r ∈ Stage.removed :: s.requests.erase .erasing, r.writes = false :=
    forall_mem_cons.2 ⟨rfl, fun r hr => hw r (mem_of_mem_erase hr)⟩
  refine ⟨fun _ _ _ => hlate, fun _ => ⟨hlate, hno, rfl⟩, fun hr => ?_, h.proof⟩
  exact absurd (h.erased (by simpa using hr)).1 hnot

/-- Without requests only the proofs that were sent count. -/
lemma Inv.no_requests (h : Inv cutoff s) {file : Durable Bool}
    (hfile : s.file.Settled false → file.Settled false) :
    Inv cutoff { s with file := file, requests := [] } where
  late := by simp
  removed := by simp
  erased := by
    intro hr
    obtain ⟨hg, hs⟩ := h.erased (.inr (by simpa using hr))
    exact ⟨⟨hg.late, by simp, (hfile hs).now⟩, hfile hs⟩
  proof := h.proof

/-- A request that starts is a WriteBlock before the cut-off of erases, or an EraseBlock after
it. -/
lemma Inv.admit (h : Inv cutoff s)
    (hr : r = .writing ∧ s.now < cutoff ∨ r = .erasing ∧ cutoff ≤ s.now) :
    Inv cutoff { s with requests := r :: s.requests } := by
  have hgone : Gone cutoff s → Gone cutoff { s with requests := r :: s.requests } := by
    rintro ⟨hlate, hno, habs⟩
    rcases hr with ⟨-, hr⟩ | ⟨rfl, -⟩
    · exact absurd hlate (not_le.2 hr)
    · exact ⟨hlate, forall_mem_cons.2 ⟨rfl, hno⟩, habs⟩
  refine ⟨fun r' hr' hw => ?_, fun hr' => ?_, fun hr' => ?_, h.proof⟩
  · rcases mem_cons.1 hr' with rfl | hr'
    · rcases hr with ⟨rfl, -⟩ | ⟨-, hr⟩
      · simp [Stage.writes] at hw
      · exact hr
    · exact h.late r' hr' hw
  · refine hgone (h.removed ((mem_cons.1 hr').resolve_left ?_))
    rintro rfl
    simp at hr
  · refine (h.erased (hr'.imp_left fun hr' => (mem_cons.1 hr').resolve_left ?_)).imp_left hgone
    rintro rfl
    simp at hr

/-- A proof that is sent keeps the invariant, if it is of an erase that is done or no late write
proof. -/
lemma Inv.send (h : Inv cutoff s) (eraseProof lateWriteProof : Bool)
    (herase : eraseProof = true → .erased ∈ s.requests ∨ s.eraseProof = true)
    (hwrite : lateWriteProof = false) :
    Inv cutoff { s with eraseProof := eraseProof, lateWriteProof := lateWriteProof } := by
  have hgone : Gone cutoff s → Gone cutoff
      { s with eraseProof := eraseProof, lateWriteProof := lateWriteProof } :=
    fun hg => ⟨hg.late, hg.no_write, hg.absent⟩
  exact ⟨h.late, fun hr => hgone (h.removed hr),
    fun hr => (h.erased (hr.elim .inl herase)).imp_left hgone, hwrite⟩

/-- Every event that meets the condition keeps the invariant. -/
theorem Inv.step (hcutoff : WRITE_FUTURE_CUTOFF < futureCutoff)
    (h : Inv (blockTime + futureCutoff) s) (hok : EventOk s e)
    (hstep : step blockTime futureCutoff s e = some s') : Inv (blockTime + futureCutoff) s' := by
  cases e with
  | clock now =>
    obtain rfl := some.inj hstep
    have hle : s.now ≤ now := hok
    have hgone : Gone (blockTime + futureCutoff) s → Gone _ { s with now := now } :=
      fun hg => ⟨hg.late.trans hle, hg.no_write, hg.absent⟩
    exact ⟨fun r hr hw => (h.late r hr hw).trans hle, fun hr => hgone (h.removed hr),
      fun hr => (h.erased hr).imp_left hgone, h.proof⟩
  | writeBlock =>
    simp only [BlockService.step] at hstep
    split_ifs at hstep with hpast hfuture
    · obtain rfl := some.inj hstep
      exact h.no_requests id
    · obtain rfl := some.inj hstep
      exact h
    · obtain rfl := some.inj hstep
      exact h.admit (.inl ⟨rfl, by omega⟩)
  | eraseBlock =>
    simp only [BlockService.step] at hstep
    split_ifs at hstep with hcut
    · obtain rfl := some.inj hstep
      exact h
    · obtain rfl := some.inj hstep
      exact h.admit (.inr ⟨rfl, not_lt.1 hcut⟩)
  | fail =>
    obtain ⟨hmem, rfl⟩ := advance_eq_some.1 hstep
    exact h.advance none hmem rfl id (by simp) (by simp)
  | rename =>
    obtain ⟨hmem, rfl⟩ := advance_eq_some.1 hstep
    exact h.rename hmem
  | remove =>
    obtain ⟨hw, hsettled⟩ : (∀ r ∈ s.requests, r.writes = false) ∧
      (s.file.now = false → s.file.Settled false) := hok
    simp only [BlockService.step] at hstep
    split_ifs at hstep with hfile
    · obtain ⟨hmem, rfl⟩ := advance_eq_some.1 hstep
      exact h.remove hmem hfile hw
    obtain ⟨hmem, rfl⟩ := advance_eq_some.1 hstep
    have habs : s.file.now = false := Bool.eq_false_iff.2 hfile
    exact h.advance _ hmem rfl id (by simp [Stage.writes])
      fun _ => ⟨⟨h.late _ hmem rfl, hw, habs⟩, hsettled habs⟩
  | syncWrite =>
    obtain ⟨hmem, rfl⟩ := advance_eq_some.1 hstep
    exact h.advance _ hmem rfl (fun hs => by simpa using hs.now) (by simp [Stage.writes]) (by simp)
  | syncErase =>
    obtain ⟨hmem, rfl⟩ := advance_eq_some.1 hstep
    have hg := h.removed hmem
    exact h.advance _ hmem rfl (fun hs => by simpa using hs.now) (by simp [Stage.writes])
      fun _ => ⟨hg, by simpa using hg.absent⟩
  | sendWriteProof =>
    obtain ⟨hmem, rfl⟩ := advance_eq_some.1 hstep
    -- with an erase proof sent there would be no WriteBlock under way
    have hno : s.eraseProof = false := by
      by_contra he
      have hg := (h.erased (.inr (by simpa using he))).1
      exact absurd (hg.no_write _ hmem) (by decide)
    have h' := h.send s.eraseProof (s.lateWriteProof || s.eraseProof) .inr (by simp [h.proof, hno])
    exact h'.advance none hmem rfl id (by simp) (by simp)
  | sendEraseProof =>
    obtain ⟨hmem, rfl⟩ := advance_eq_some.1 hstep
    have h' := h.send true s.lateWriteProof (fun _ => .inl hmem) h.proof
    exact h'.advance none hmem rfl id (by simp) (by simp)
  | restart =>
    obtain rfl := some.inj hstep
    exact h.no_requests id
  | crash age =>
    obtain rfl := some.inj hstep
    exact h.no_requests fun hs => hs.crash age

/-! ## Erase proofs are final -/

/-- An erase proof is final in every run of any requests, durations, failures and crashes whose
removes find no WriteBlock under way and no removal that is not synced: from then on there is no
file, now or after a crash, and no write proof is sent. -/
theorem eraseProof_final (hcutoff : WRITE_FUTURE_CUTOFF < futureCutoff) {now : ℤ}
    {file : Durable Bool} {events : List Event}
    (hok : RunMeets (step blockTime futureCutoff) EventOk (start now file) events)
    (hrun : run (step blockTime futureCutoff) (start now file) events = some s)
    (hproof : s.eraseProof = true) :
    s.file.now = false ∧ s.file.Settled false ∧ s.lateWriteProof = false := by
  have h0 : Inv (blockTime + futureCutoff) (start now file) := by
    constructor <;> simp [start]
  have h := run_invariant (fun s e s' h hok hstep => h.step hcutoff hok hstep) h0 hok hrun
  obtain ⟨hgone, hsettled⟩ := h.erased (.inr hproof)
  exact ⟨hgone.absent, hsettled, h.proof⟩

/-- A block is written, a late write of it is refused, and it is erased before a crash. -/
def sampleErase : List Event :=
  [.clock 0, .writeBlock, .rename, .syncWrite, .sendWriteProof, .clock DEFAULT_FUTURE_CUTOFF,
    .writeBlock, .eraseBlock, .remove, .syncErase, .sendEraseProof, .crash 1]

theorem eraseProof_final_sample : ∃ s,
    run (step 0 DEFAULT_FUTURE_CUTOFF) (start 0 (.synced false)) sampleErase = some s ∧
      s.eraseProof = true ∧ s.file.now = false ∧ s.file.Settled false ∧ s.lateWriteProof = false :=
  exists_eq_some_imp
    (fun _ hrun (h : _ = true) => ⟨h, eraseProof_final (by decide) (by decide +kernel) hrun h⟩)
    (by decide +kernel)

/-- Two runs with an erase proof that is not final. A WriteBlock whose body or disk is slow renames
its file after the erase and is proved as well. An erase whose sync failed is tried again, finds no
file and is proved without a sync, and a crash brings the file back. -/
theorem eraseProof_not_final : (∃ s, run (step 0 DEFAULT_FUTURE_CUTOFF) (start 0 (.synced false))
        [.writeBlock, .clock DEFAULT_FUTURE_CUTOFF, .eraseBlock, .remove, .sendEraseProof,
          .rename, .syncWrite, .sendWriteProof] = some s ∧
      s.eraseProof = true ∧ s.file.Settled true ∧ s.lateWriteProof = true) ∧
    ∃ s, run (step 0 DEFAULT_FUTURE_CUTOFF) (start 0 (.synced true))
        [.clock DEFAULT_FUTURE_CUTOFF, .eraseBlock, .remove, .fail .removed, .eraseBlock, .remove,
          .sendEraseProof, .crash 1] = some s ∧
      s.eraseProof = true ∧ s.file.Settled true := by
  decide +kernel

end TernFS.BlockService
