/-
# The two partitions of the log

The entries of a log are kept in two column families, so that old entries can be discarded by
dropping a whole one.  Which of the two an index belongs to is decided by the least and the largest
index and by the time of the first write of each, which are kept in memory, change when an entry is
written but not when it is dropped, and are read off the entries when the log is opened again.
-/
import TernFS.Core.Msgs
import TernFS.Lib.MergeCursor

namespace TernFS

open Lib SortedStore List Option

variable {s : Side} {i idx : ℕ} {f : LogPartition → LogPartition}

/-- The results of the messages of the log. -/
inductive LogError
  | leaderPreempted
  | logEntryMissing
  | logEntryTrimmed
  | logEntryUnreleased
deriving DecidableEq

/-- `LogsDBLogEntry`. -/
structure LogsDBLogEntry where
  idx : ℕ
  value : Bytes
deriving DecidableEq

/-- `MAX_LOG_IDX`. -/
def maxLogIdx : ℕ := 2 ^ 61 - 1

/-- `PARTITION_TIME_SPAN`, twelve hours in nanoseconds. -/
def partitionTimeSpan : ℕ := 12 * 60 * 60 * 10 ^ 9

/-- `DataPartitions::LogPartition`, with the entries of its column family.  The time of the first
write is in the database as well. -/
structure LogPartition where
  data : SortedStore ℕ Bytes := .empty
  firstWriteTime : ℕ := 0
  minKey : ℕ := 0
  maxKey : ℕ := 0
deriving DecidableEq

/-- `_partitionKeyInserted`, with the write of the entry. -/
def LogPartition.insert (p : LogPartition) (now : ℕ) (entry : LogsDBLogEntry) : LogPartition :=
  let p := if p.minKey = 0 then { p with minKey := entry.idx, firstWriteTime := now } else p
  { p with
    data := p.data.put entry.idx entry.value
    minKey := min p.minKey entry.idx
    maxKey := max p.maxKey entry.idx }

/-- `init(false)`, for one partition: the least and the largest index are those of the entries, and
a partition that was written has to have some. -/
def LogPartition.reopen (p : LogPartition) : Option LogPartition :=
  match p.data.entries with
  | [] => if p.firstWriteTime ≠ 0 then none else some { p with minKey := 0, maxKey := 0 }
  | e :: rest => some { p with minKey := e.1, maxKey := ((e :: rest).getLastD e).1 }

/-- `DataPartitions`. -/
structure DataPartitions where
  first : LogPartition := {}
  second : LogPartition := {}
deriving DecidableEq

namespace DataPartitions

variable (d : DataPartitions)

/-- One of the partitions. -/
def part : Side → LogPartition
  | .first => d.first
  | .second => d.second

/-- Change one of the partitions. -/
def modify (f : LogPartition → LogPartition) : Side → DataPartitions
  | .first => { d with first := f d.first }
  | .second => { d with second := f d.second }

/-- The partition with the larger least index. -/
def newer : Side := if d.first.minKey < d.second.minKey then .second else .first

/-- `_getPartitionForIdx`. -/
def partitionFor (key : ℕ) : Side :=
  if d.first.firstWriteTime = 0 ∧ d.second.firstWriteTime = 0 then .first
  else if d.first.firstWriteTime = 0 then
    if d.second.maxKey < key then .first else .second
  else if d.second.firstWriteTime = 0 then
    if d.first.maxKey < key then .second else .first
  else if (d.part d.newer).minKey ≤ key then d.newer
  else d.newer.other

/-- The partition that is written last has been written for too long. -/
def Rotates (now : ℕ) : Prop :=
  (d.part (d.partitionFor maxLogIdx)).firstWriteTime ≠ 0 ∧
    (d.part (d.partitionFor maxLogIdx)).firstWriteTime + partitionTimeSpan ≤ now

instance (now : ℕ) : Decidable (d.Rotates now) := inferInstanceAs (Decidable (_ ∧ _))

/-- `_maybeRotate`: the older partition is discarded. -/
def maybeRotate (now : ℕ) : DataPartitions :=
  if d.Rotates now then d.modify (fun _ => {}) d.newer.other else d

/-- Write one entry to its partition. -/
def insert (now : ℕ) (entry : LogsDBLogEntry) : DataPartitions :=
  d.modify (fun p => p.insert now entry) (d.partitionFor entry.idx)

/-- `writeLogEntries`. -/
def writeLogEntries (now : ℕ) (entries : List LogsDBLogEntry) : DataPartitions :=
  entries.foldl (fun d entry => d.insert now entry) (d.maybeRotate now)

/-- `writeLogEntry`. -/
def writeLogEntry (now : ℕ) (entry : LogsDBLogEntry) : DataPartitions :=
  (d.maybeRotate now).insert now entry

/-- `readLogEntry`. -/
def readLogEntry (idx : ℕ) : Except LogError Bytes :=
  if idx < (d.part (d.partitionFor idx)).minKey then .error .logEntryTrimmed
  else
    match (d.part (d.partitionFor idx)).data.get idx with
    | some value => .ok value
    | none => .error .logEntryMissing

/-- `Iterator::seek`. -/
def seek (idx : ℕ) : MergeCursor ℕ Bytes := ⟨d.first.data.seek idx, d.second.data.seek idx⟩

/-- `Iterator::dropEntry`. -/
def dropEntry (e : Side × ℕ × Bytes) : DataPartitions :=
  d.modify (fun p => { p with data := p.data.delete e.2.1 }) e.1

/-- `dropEntriesAfterIdx`: the iterator reads a snapshot, so what it meets does not depend on what
has been dropped already. -/
def dropEntriesAfterIdx (start : ℕ) : DataPartitions :=
  (d.seek start).next.walk.foldl dropEntry d

/-- `init(false)`. -/
def reopen : Option DataPartitions := do
  return ⟨← d.first.reopen, ← d.second.reopen⟩

/-- An index is stored in a partition. -/
def Has (s : Side) (i : ℕ) : Prop := (d.part s).data.get i ≠ none

/-- An index is stored. -/
def Stored (i : ℕ) : Prop := ∃ s, d.Has s i

/-- The value stored at an index. -/
def get (i : ℕ) : Option Bytes := (d.first.data.get i).or (d.second.data.get i)

instance (s : Side) (i : ℕ) : Decidable (d.Has s i) := inferInstanceAs (Decidable (_ ≠ _))

variable {d}

@[simp] lemma part_modify_self : (d.modify f s).part s = f (d.part s) := by
  cases s <;> rfl

@[simp] lemma part_modify_other : (d.modify f s).part s.other = d.part s.other := by
  cases s <;> rfl

lemma part_modify {t : Side} :
    (d.modify f s).part t = if t = s then f (d.part s) else d.part t := by
  cases s <;> cases t <;> rfl

lemma stored_iff : d.Stored i ↔ d.Has .first i ∨ d.Has .second i := by
  constructor
  · rintro ⟨s, h⟩
    cases s with
    | first => exact .inl h
    | second => exact .inr h
  · rintro (h | h)
    exacts [⟨_, h⟩, ⟨_, h⟩]

instance (i : ℕ) : Decidable (d.Stored i) := decidable_of_iff _ stored_iff.symm

lemma get_eq_none_iff : d.get i = none ↔ ¬ d.Stored i := by
  simp [get, stored_iff, Has, part]

/-- No index is in both partitions. -/
def Disjoint (d : DataPartitions) : Prop := ∀ i, d.Has .first i → ¬ d.Has .second i

lemma Disjoint.get_eq (h : d.Disjoint) (hs : d.Has s i) : d.get i = (d.part s).data.get i := by
  obtain ⟨v, hv⟩ := ne_none_iff_exists'.1 hs
  cases s with
  | first =>
    have hv' : d.first.data.get i = some v := hv
    simp [get, part, hv']
  | second =>
    have hfirst : d.first.data.get i = none := by
      by_contra hne
      exact h i hne hs
    simp [get, part, hfirst]

/-! ## The iterator -/

lemma run_seek : (d.seek idx).run s = (d.part s).data.seek idx := by
  cases s <;> rfl

lemma mem_seek {e : ℕ × Bytes} :
    e ∈ (d.seek idx).run s ↔ idx ≤ e.1 ∧ (d.part s).data.get e.1 = some e.2 := by
  rw [run_seek, SortedStore.mem_seek]

lemma seek_sorted (idx : ℕ) : (d.seek idx).Sorted := by
  intro s
  rw [run_seek]
  exact (d.part s).data.sorted.filter _

lemma Disjoint.seek (h : d.Disjoint) (idx : ℕ) : (d.seek idx).Disjoint := by
  intro x hx y hy hxy
  have hx' := (mem_seek (s := .first)).1 hx
  have hy' := (mem_seek (s := .second)).1 hy
  refine h x.1 (ne_none_iff_exists'.2 ⟨_, hx'.2⟩) ?_
  rw [hxy]
  exact ne_none_iff_exists'.2 ⟨_, hy'.2⟩

/-- An iterator that is placed at an index is at the end, or at the least index from there. -/
lemma seek_current?_cases (idx : ℕ) : ((d.seek idx).current? = none ∧ ∀ i, idx ≤ i → ¬ d.Stored i) ∨
    ∃ s e, (d.seek idx).current? = some (s, e) ∧ idx ≤ e.1 ∧ (d.part s).data.get e.1 = some e.2 ∧
      ∀ i, idx ≤ i → d.Stored i → e.1 ≤ i := by
  rcases (d.seek idx).current?_cases with ⟨hnone, -, hrun⟩ | ⟨s, e, rest, hcur, hs, -⟩
  · refine .inl ⟨hnone, ?_⟩
    rintro i hi ⟨s, hs⟩
    obtain ⟨v, hv⟩ := ne_none_iff_exists'.1 hs
    have hmem : (i, v) ∈ (d.seek idx).run s := mem_seek.2 ⟨hi, hv⟩
    rw [hrun s] at hmem
    cases hmem
  · have he : e ∈ (d.seek idx).run s := by
      rw [hs]
      exact mem_cons_self ..
    refine .inr ⟨s, e, hcur, (mem_seek.1 he).1, (mem_seek.1 he).2, ?_⟩
    rintro i hi ⟨t, ht⟩
    obtain ⟨v, hv⟩ := ne_none_iff_exists'.1 ht
    exact (seek_sorted idx).current?_le hcur t (i, v) (mem_seek.2 ⟨hi, hv⟩)

/-- What an iterator meets after its first step: everything past the least index from where it was
placed. -/
lemma Disjoint.mem_seek_next (h : d.Disjoint) {t : Side} {e x : ℕ × Bytes}
    (hcur : (d.seek idx).current? = some (s, e)) :
    x ∈ (d.seek idx).next.run t ↔ e.1 < x.1 ∧ (d.part t).data.get x.1 = some x.2 := by
  have hle : idx ≤ e.1 := by
    rcases d.seek_current?_cases idx with ⟨hnone, -⟩ | ⟨s', e', hcur', hle, -⟩
    · rw [hnone] at hcur
      cases hcur
    · rw [hcur'] at hcur
      obtain ⟨-, rfl⟩ : s' = s ∧ e' = e := by simpa using hcur
      exact hle
  rw [(seek_sorted idx).mem_next_iff (h.seek idx) hcur, mem_seek]
  constructor
  · rintro ⟨⟨-, hget⟩, hlt⟩
    exact ⟨hlt, hget⟩
  · rintro ⟨hlt, hget⟩
    exact ⟨⟨hle.trans hlt.le, hget⟩, hlt⟩

/-! ## Dropping entries -/

lemma part_dropEntry {e : Side × ℕ × Bytes} : (d.dropEntry e).part s =
      { d.part s with data := if s = e.1 then (d.part s).data.delete e.2.1 else (d.part s).data } := by
  rw [dropEntry, part_modify]
  split_ifs with h
  · rw [h]
  · rfl

lemma part_foldl_dropEntry (d : DataPartitions) (l : List (Side × ℕ × Bytes)) (s : Side) :
    ∃ data, (l.foldl dropEntry d).part s = { d.part s with data := data } ∧
      ∀ i v, data.get i = some v ↔ (d.part s).data.get i = some v ∧ ∀ w, (s, i, w) ∉ l := by
  induction l generalizing d with
  | nil => exact ⟨(d.part s).data, rfl, fun i v => by simp⟩
  | cons e l ih =>
    obtain ⟨data, hpart, hdata⟩ := ih (d.dropEntry e)
    refine ⟨data, ?_, fun i v => ?_⟩
    · rw [foldl_cons, hpart, part_dropEntry]
    obtain ⟨t, k, w⟩ := e
    rw [hdata, part_dropEntry]
    by_cases hs : s = t
    · subst hs
      by_cases hk : k = i
      · subst hk
        rw [if_pos rfl, get_delete_self]
        constructor
        · rintro ⟨hnone, -⟩
          cases hnone
        · rintro ⟨-, hmem⟩
          exact absurd (mem_cons_self ..) (hmem w)
      · have hne : ∀ w', (s, i, w') ≠ (s, k, w) := by
          intro w' heq
          simp only [Prod.mk.injEq] at heq
          exact hk heq.2.1.symm
        simp [get_delete_of_ne hk, hne]
    · have hne : ∀ w', (s, i, w') ≠ (t, k, w) := by
        intro w' heq
        simp only [Prod.mk.injEq] at heq
        exact hs heq.1
      simp [hs, hne]

/-- The least and the largest index and the time of the first write stay as they are. -/
lemma part_dropEntriesAfterIdx (d : DataPartitions) (start : ℕ) (s : Side) :
    ∃ data, (d.dropEntriesAfterIdx start).part s = { d.part s with data := data } ∧
      ∀ i v, data.get i = some v ↔
        (d.part s).data.get i = some v ∧ ∀ w, (i, w) ∉ (d.seek start).next.run s := by
  obtain ⟨data, hpart, hdata⟩ := part_foldl_dropEntry d (d.seek start).next.walk s
  refine ⟨data, hpart, fun i v => ?_⟩
  simp only [hdata, MergeCursor.mem_walk]

lemma get_of_dropEntriesAfterIdx {start : ℕ} {v : Bytes}
    (h : ((d.dropEntriesAfterIdx start).part s).data.get i = some v) :
    (d.part s).data.get i = some v := by
  obtain ⟨data, hpart, hdata⟩ := d.part_dropEntriesAfterIdx start s
  rw [hpart] at h
  exact ((hdata i v).1 h).1

/-- What is dropped: everything past the least index from `start` on, which is kept itself. -/
lemma Disjoint.get_dropEntriesAfterIdx (h : d.Disjoint) (start : ℕ) :
    ((∀ i, start ≤ i → ¬ d.Stored i) ∧ ∀ s i,
      ((d.dropEntriesAfterIdx start).part s).data.get i = (d.part s).data.get i) ∨
    ∃ k, start ≤ k ∧ d.Stored k ∧ (∀ i, start ≤ i → d.Stored i → k ≤ i) ∧ ∀ s i,
      ((d.dropEntriesAfterIdx start).part s).data.get i =
        if k < i then none else (d.part s).data.get i := by
  rcases d.seek_current?_cases start with ⟨-, hempty⟩ | ⟨s₀, e, hcur, hle, he, hleast⟩
  · refine .inl ⟨hempty, fun s i => ?_⟩
    obtain ⟨data, hpart, hdata⟩ := d.part_dropEntriesAfterIdx start s
    rw [hpart]
    refine Option.ext fun v => (hdata i v).trans (and_iff_left ?_)
    intro w hw
    have hmem := mem_seek.1 (MergeCursor.mem_of_mem_next hw)
    exact hempty i hmem.1 ⟨s, ne_none_iff_exists'.2 ⟨_, hmem.2⟩⟩
  · refine .inr ⟨e.1, hle, ⟨s₀, ne_none_iff_exists'.2 ⟨_, he⟩⟩, hleast, fun s i => ?_⟩
    obtain ⟨data, hpart, hdata⟩ := d.part_dropEntriesAfterIdx start s
    rw [hpart]
    refine Option.ext fun v => (hdata i v).trans ?_
    simp only [h.mem_seek_next hcur]
    split_ifs with hlt
    · constructor
      · rintro ⟨hv, hnot⟩
        exact absurd ⟨hlt, hv⟩ (hnot v)
      · rintro ⟨⟩
    · exact and_iff_left fun w hw => hlt hw.1

/-! ## Writing entries -/

lemma get_insert_data {p : LogPartition} {now : ℕ} {entry : LogsDBLogEntry} :
    (p.insert now entry).data.get i = if entry.idx = i then some entry.value else p.data.get i := by
  rw [LogPartition.insert, get_put]
  split_ifs <;> rfl

lemma get_part_insert {now : ℕ} {entry : LogsDBLogEntry} :
    ((d.insert now entry).part s).data.get i =
      if s = d.partitionFor entry.idx ∧ entry.idx = i then some entry.value
      else (d.part s).data.get i := by
  rw [DataPartitions.insert, part_modify]
  by_cases hs : s = d.partitionFor entry.idx
  · rw [if_pos hs, get_insert_data, ← hs]
    simp
  · rw [if_neg hs, if_neg fun h => hs h.1]

end DataPartitions

end TernFS
