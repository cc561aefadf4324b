/-
# The partitions as one ordered log

Reads, writes and iterators of the two partitions are meant to be those of one ordered map from
which entries vanish in two ways only: a drop removes a suffix, and a rotation discards a partition.
The partition that was begun last has the larger indices, and its least index separates the two.
This is kept by every operation.  What is not kept is the connection of the time of the first write
to the entries: a partition that has lost all its entries to a drop cannot be opened again.
-/
import TernFS.LogsDB.Partitions
import TernFS.Lib.Run

namespace TernFS

open Lib SortedStore List

variable {now i : ℕ} {s : Side}

/-- What a read of an ordered map returns. -/
def readOrdered : Option Bytes → Except LogError Bytes
  | some value => .ok value
  | none => .error .logEntryMissing

/-! ## One partition -/

/-- The least and the largest index of a partition are bounds on its entries, and both are zero
together with the time of the first write as long as nothing has been written. -/
structure LogPartition.Ok (p : LogPartition) : Prop where
  firstWriteTime_iff : p.firstWriteTime = 0 ↔ p.minKey = 0
  min_le_max : p.minKey ≤ p.maxKey
  fresh : p.minKey = 0 → ∀ i, p.data.get i = none
  bounds : ∀ i, p.data.get i ≠ none → p.minKey ≤ i ∧ i ≤ p.maxKey

namespace LogPartition

variable {p : LogPartition}

lemma ok_empty : ({} : LogPartition).Ok where
  firstWriteTime_iff := Iff.rfl
  min_le_max := le_rfl
  fresh _ _ := rfl
  bounds _ h := absurd rfl h

lemma Ok.ne_zero (h : p.Ok) (hi : p.data.get i ≠ none) : p.minKey ≠ 0 :=
  fun hmin => hi (h.fresh hmin i)

variable {entry : LogsDBLogEntry}

lemma minKey_insert :
    (p.insert now entry).minKey = if p.minKey = 0 then entry.idx else min p.minKey entry.idx := by
  unfold LogPartition.insert
  split_ifs <;> simp

lemma maxKey_insert : (p.insert now entry).maxKey = max p.maxKey entry.idx := by
  unfold LogPartition.insert
  split_ifs <;> rfl

lemma firstWriteTime_insert :
    (p.insert now entry).firstWriteTime = if p.minKey = 0 then now else p.firstWriteTime := by
  unfold LogPartition.insert
  split_ifs <;> rfl

lemma Ok.insert (h : p.Ok) (hnow : 0 < now) (hidx : 1 ≤ entry.idx) : (p.insert now entry).Ok where
  firstWriteTime_iff := by
    rw [firstWriteTime_insert, minKey_insert]
    split_ifs with hmin
    · omega
    · rw [h.firstWriteTime_iff]
      omega
  min_le_max := by
    have hle := h.min_le_max
    rw [minKey_insert, maxKey_insert]
    split_ifs <;> omega
  fresh hmin := by
    rw [minKey_insert] at hmin
    split_ifs at hmin <;> omega
  bounds i hi := by
    rw [minKey_insert, maxKey_insert]
    rw [DataPartitions.get_insert_data] at hi
    split_ifs at hi with heq
    · subst heq
      split_ifs <;> omega
    have hb := h.bounds i hi
    have hne := h.ne_zero hi
    rw [if_neg hne]
    omega

lemma Ok.shrink (h : p.Ok) {data : SortedStore ℕ Bytes}
    (hdata : ∀ i v, data.get i = some v → p.data.get i = some v) :
    ({ p with data := data } : LogPartition).Ok := by
  have hsub : ∀ i, data.get i ≠ none → p.data.get i ≠ none := by
    intro i hi
    obtain ⟨v, hv⟩ := Option.ne_none_iff_exists'.1 hi
    exact Option.ne_none_iff_exists'.2 ⟨v, hdata i v hv⟩
  refine ⟨h.firstWriteTime_iff, h.min_le_max, fun hmin i => ?_, fun i hi => h.bounds i (hsub i hi)⟩
  by_contra hi
  exact hsub i hi (h.fresh hmin i)

/-- A partition has entries if it was written. -/
def HasEntries (p : LogPartition) : Prop := p.firstWriteTime ≠ 0 → p.data.entries ≠ []

lemma reopen_isSome_iff : p.reopen.isSome ↔ p.HasEntries := by
  unfold reopen HasEntries
  split
  · rename_i hnil
    by_cases h : p.firstWriteTime = 0 <;> simp [h, hnil]
  · rename_i e rest hcons
    simp [hcons]

/-- The bounds of a partition that is opened are attained. -/
structure Reopened (p p' : LogPartition) : Prop where
  data_eq : p'.data = p.data
  ok : p'.Ok
  attained : p'.minKey ≠ 0 → p.data.get p'.minKey ≠ none

lemma Ok.reopened (h : p.Ok) {p' : LogPartition} (hreopen : p.reopen = some p') :
    Reopened p p' := by
  unfold reopen at hreopen
  split at hreopen
  · rename_i hnil
    split_ifs at hreopen with htime
    obtain rfl := Option.some.inj hreopen
    have hempty : ∀ i, p.data.get i = none := by
      intro i
      simp [SortedStore.get, hnil, lookupEntry]
    exact ⟨rfl, ⟨by simpa using htime, le_rfl, fun _ => hempty, fun i hi => absurd (hempty i) hi⟩,
      fun hne => absurd rfl hne⟩
  · rename_i e rest hcons
    obtain rfl := Option.some.inj hreopen
    have hsorted : SortedEntries (e :: rest) := hcons ▸ p.data.sorted
    have he : p.data.get e.1 = some e.2 := by
      rw [← mem_entries_iff, hcons]
      exact mem_cons_self ..
    have hmin : p.minKey ≠ 0 := h.ne_zero (i := e.1) (by simp [he])
    have hpos := h.bounds e.1 (by simp [he])
    have hlast : ∀ x ∈ e :: rest, x.1 ≤ ((e :: rest).getLastD e).1 := by
      intro x hx
      have hne : e :: rest ≠ [] := by simp
      rw [getLastD_eq_getLast?, getLast?_eq_getLast_of_ne_nil hne, Option.getD_some]
      rw [← dropLast_append_getLast hne] at hx hsorted
      rcases mem_append.1 hx with hx | hx
      · exact ((pairwise_append.1 hsorted).2.2 x hx _ (mem_singleton_self _)).le
      · rw [mem_singleton.1 hx]
    refine ⟨rfl, ⟨?_, hlast e (mem_cons_self ..), ?_, ?_⟩, fun _ => by simp [he]⟩
    · simp only [h.firstWriteTime_iff]
      omega
    · intro hzero
      simp only at hzero
      omega
    intro i hi
    obtain ⟨v, hv⟩ := Option.ne_none_iff_exists'.1 hi
    have hmem : (i, v) ∈ e :: rest := by
      rw [← hcons, mem_entries_iff]
      exact hv
    refine ⟨?_, hlast (i, v) hmem⟩
    rcases mem_cons.1 hmem with heq | hmem
    · rw [← heq]
    · exact (hsorted.lt_of_mem hmem).le

end LogPartition

namespace DataPartitions

variable {d d' : DataPartitions}

/-! ## Both partitions -/

/-- The least index of a partition separates it from the other. -/
def Split (d : DataPartitions) (s : Side) : Prop :=
  (d.part s.other).minKey < (d.part s).minKey ∧ ∀ i, d.Has s.other i → i < (d.part s).minKey

/-- Each partition is as it should be, and if both have been written they do not overlap. -/
structure Ok (d : DataPartitions) : Prop where
  part : ∀ s, (d.part s).Ok
  split : (∀ s, (d.part s).minKey ≠ 0) → ∃ s, d.Split s

lemma Split.newer_eq (h : d.Split s) : d.newer = s := by
  have hlt := h.1
  cases s with
  | first => exact if_neg hlt.asymm
  | second => exact if_pos hlt

/-- Which partition an index belongs to. -/
lemma Ok.partitionFor_cases (h : d.Ok) (key : ℕ) :
    ((∀ s, (d.part s).minKey = 0) ∧ d.partitionFor key = .first) ∨
    (∃ s, (d.part s).minKey = 0 ∧ (d.part s.other).minKey ≠ 0 ∧
      d.partitionFor key = if (d.part s.other).maxKey < key then s else s.other) ∨
    ∃ s, (∀ t, (d.part t).minKey ≠ 0) ∧ d.Split s ∧
      d.partitionFor key = if (d.part s).minKey ≤ key then s else s.other := by
  have hfirst : d.first.firstWriteTime = 0 ↔ d.first.minKey = 0 := (h.part .first).firstWriteTime_iff
  have hsecond : d.second.firstWriteTime = 0 ↔ d.second.minKey = 0 :=
    (h.part .second).firstWriteTime_iff
  by_cases h₁ : d.first.minKey = 0
  · by_cases h₂ : d.second.minKey = 0
    · refine .inl ⟨?_, by simp [partitionFor, hfirst, hsecond, h₁, h₂]⟩
      rintro (_ | _)
      exacts [h₁, h₂]
    · refine .inr (.inl ⟨.first, h₁, h₂, ?_⟩)
      simp only [partitionFor, hfirst, hsecond, h₁, h₂, and_false, if_false, if_true]
      rfl
  · by_cases h₂ : d.second.minKey = 0
    · refine .inr (.inl ⟨.second, h₂, h₁, ?_⟩)
      simp only [partitionFor, hfirst, hsecond, h₁, h₂, false_and, if_false, if_true]
      rfl
    have hboth : ∀ t, (d.part t).minKey ≠ 0 := by
      rintro (_ | _)
      exacts [h₁, h₂]
    obtain ⟨s, hs⟩ := h.split hboth
    refine .inr (.inr ⟨s, hboth, hs, ?_⟩)
    simp [partitionFor, hfirst, hsecond, h₁, h₂, hs.newer_eq]

/-- A stored index belongs to the partition that it is stored in. -/
lemma Ok.partitionFor_of_has (h : d.Ok) (hs : d.Has s i) : d.partitionFor i = s := by
  have hne := (h.part s).ne_zero hs
  have hbounds := (h.part s).bounds i hs
  rcases h.partitionFor_cases i with ⟨hfresh, -⟩ | ⟨t, hfresh, -, hfor⟩ | ⟨t, -, hsplit, hfor⟩
  · exact absurd (hfresh s) hne
  · rcases Side.eq_or_eq_other t s with rfl | rfl
    · exact absurd hfresh hne
    · rw [hfor, if_neg (by omega)]
  · rcases Side.eq_or_eq_other t s with rfl | rfl
    · rw [hfor, if_pos hbounds.1]
    · rw [hfor, if_neg (not_le.2 (hsplit.2 i hs))]

lemma Ok.disjoint (h : d.Ok) : d.Disjoint := by
  intro i hfirst hsecond
  have heq := (h.partitionFor_of_has hfirst).symm.trans (h.partitionFor_of_has hsecond)
  cases heq

/-- A read that is not below the least index returns what is stored. -/
lemma Ok.readLogEntry_eq (h : d.Ok) (hmin : (d.part (d.partitionFor i)).minKey ≤ i) :
    d.readLogEntry i = readOrdered (d.get i) := by
  have hget : (d.part (d.partitionFor i)).data.get i = d.get i := by
    by_cases hstored : d.Stored i
    · obtain ⟨s, hs⟩ := hstored
      rw [h.disjoint.get_eq hs, h.partitionFor_of_has hs]
    · rw [get_eq_none_iff.2 hstored]
      by_contra hne
      exact hstored ⟨_, hne⟩
  rw [readLogEntry, if_neg (not_lt.2 hmin), hget]
  cases d.get i <;> rfl

/-! ## The operations -/

lemma ok_init : ({} : DataPartitions).Ok where
  part s := by cases s <;> exact LogPartition.ok_empty
  split h := absurd rfl (h .first)

variable {f : LogPartition → LogPartition}

lemma Ok.modify (h : d.Ok) (hf : (f (d.part s)).Ok)
    (hsplit : (d.part s.other).minKey ≠ 0 → ∃ t, (d.modify f s).Split t) : (d.modify f s).Ok where
  part t := by
    rcases Side.eq_or_eq_other s t with rfl | rfl
    · rwa [part_modify_self]
    · rw [part_modify_other]
      exact h.part _
  split hne := by
    have hother := hne s.other
    rw [part_modify_other] at hother
    exact hsplit hother

lemma has_modify_other : (d.modify f s).Has s.other i ↔ d.Has s.other i := by
  rw [Has, part_modify_other, Has]

variable {entry : LogsDBLogEntry}

lemma Ok.insert (h : d.Ok) (hnow : 0 < now) (hidx : 1 ≤ entry.idx) : (d.insert now entry).Ok := by
  refine h.modify ((h.part _).insert hnow hidx) fun hother => ?_
  rcases h.partitionFor_cases entry.idx with ⟨hfresh, -⟩ | ⟨s, hfresh, -, hfor⟩ |
    ⟨s, hne, hsplit, hfor⟩
  · exact absurd (hfresh _) hother
  · -- the entry starts a partition, past the end of the other
    by_cases hmax : (d.part s.other).maxKey < entry.idx
    · rw [hfor, if_pos hmax] at hother ⊢
      refine ⟨s, ?_, fun i hi => ?_⟩
      · have hle := (h.part s.other).min_le_max
        rw [part_modify_self, part_modify_other, LogPartition.minKey_insert, if_pos hfresh]
        omega
      · have hle := (h.part s.other).bounds i (has_modify_other.1 hi)
        rw [part_modify_self, LogPartition.minKey_insert, if_pos hfresh]
        omega
    · rw [hfor, if_neg hmax, Side.other_other] at hother
      exact absurd hfresh hother
  · by_cases hmin : (d.part s).minKey ≤ entry.idx
    · -- the least index of the newer partition stays
      rw [hfor, if_pos hmin]
      have hmin' : ((d.part s).insert now entry).minKey = (d.part s).minKey := by
        rw [LogPartition.minKey_insert, if_neg (hne s)]
        omega
      refine ⟨s, ?_, fun i hi => ?_⟩
      · rw [part_modify_self, part_modify_other, hmin']
        exact hsplit.1
      · rw [part_modify_self, hmin']
        exact hsplit.2 i (has_modify_other.1 hi)
    · -- an entry below it goes to the older partition
      rw [hfor, if_neg hmin]
      have hpart : (d.modify (fun p => p.insert now entry) s.other).part s = d.part s := by
        have hother' := part_modify_other (d := d) (f := fun p => p.insert now entry) (s := s.other)
        rwa [Side.other_other] at hother'
      refine ⟨s, ?_, fun i hi => ?_⟩
      · rw [part_modify_self, hpart, LogPartition.minKey_insert, if_neg (hne s.other)]
        omega
      rw [hpart]
      rw [Has, part_modify_self, get_insert_data] at hi
      split_ifs at hi with heq
      · omega
      · exact hsplit.2 i hi

lemma Ok.maybeRotate (h : d.Ok) (now : ℕ) : (d.maybeRotate now).Ok := by
  unfold DataPartitions.maybeRotate
  split_ifs
  · refine ⟨fun t => ?_, fun hne => absurd ?_ (hne d.newer.other)⟩
    · rcases Side.eq_or_eq_other d.newer.other t with rfl | rfl
      · rw [part_modify_self]
        exact LogPartition.ok_empty
      · rw [part_modify_other]
        exact h.part _
    · rw [part_modify_self]
  · exact h

lemma Ok.foldl_insert (h : d.Ok) {entries : List LogsDBLogEntry} (hnow : 0 < now)
    (hidx : ∀ entry ∈ entries, 1 ≤ entry.idx) :
    (entries.foldl (fun d entry => d.insert now entry) d).Ok := by
  induction entries generalizing d with
  | nil => exact h
  | cons entry entries ih =>
    exact ih (h.insert hnow (hidx entry (mem_cons_self ..)))
      fun x hx => hidx x (mem_cons_of_mem _ hx)

lemma Ok.dropEntriesAfterIdx (h : d.Ok) (start : ℕ) : (d.dropEntriesAfterIdx start).Ok := by
  have hkeys : ∀ s, ((d.dropEntriesAfterIdx start).part s).minKey = (d.part s).minKey := by
    intro s
    obtain ⟨data, hpart, -⟩ := d.part_dropEntriesAfterIdx start s
    rw [hpart]
  have hhas : ∀ s i, (d.dropEntriesAfterIdx start).Has s i → d.Has s i := by
    intro s i hi
    obtain ⟨v, hv⟩ := Option.ne_none_iff_exists'.1 hi
    exact Option.ne_none_iff_exists'.2 ⟨v, get_of_dropEntriesAfterIdx hv⟩
  refine ⟨fun s => ?_, fun hne => ?_⟩
  · obtain ⟨data, hpart, hdata⟩ := d.part_dropEntriesAfterIdx start s
    rw [hpart]
    exact (h.part s).shrink fun i v hv => ((hdata i v).1 hv).1
  obtain ⟨s, hs⟩ := h.split fun t => hkeys t ▸ hne t
  refine ⟨s, ?_, fun i hi => ?_⟩
  · rw [hkeys, hkeys]
    exact hs.1
  · rw [hkeys]
    exact hs.2 i (hhas _ i hi)

lemma reopen_isSome_iff : d.reopen.isSome ↔ ∀ s, (d.part s).HasEntries := by
  have hboth : d.reopen.isSome ↔ d.first.reopen.isSome ∧ d.second.reopen.isSome := by
    unfold reopen
    cases d.first.reopen <;> cases d.second.reopen <;> simp
  rw [hboth, LogPartition.reopen_isSome_iff, LogPartition.reopen_isSome_iff]
  constructor
  · rintro ⟨h₁, h₂⟩ (_ | _)
    exacts [h₁, h₂]
  · exact fun h => ⟨h .first, h .second⟩

lemma part_of_reopen (hreopen : d.reopen = some d') (s : Side) :
    (d.part s).reopen = some (d'.part s) := by
  unfold reopen at hreopen
  simp only [bind_eq_some] at hreopen
  obtain ⟨p₁, h₁, p₂, h₂, ⟨⟩⟩ := hreopen
  cases s with
  | first => exact h₁
  | second => exact h₂

lemma Ok.reopen (h : d.Ok) (hreopen : d.reopen = some d') : d'.Ok := by
  have hpart := fun s => (h.part s).reopened (part_of_reopen hreopen s)
  refine ⟨fun s => (hpart s).ok, fun hne => ?_⟩
  have hstored : ∀ s, d.Has s (d'.part s).minKey := fun s => (hpart s).attained (hne s)
  obtain ⟨s, hs⟩ := h.split fun t => (h.part t).ne_zero (hstored t)
  have hle : (d.part s).minKey ≤ (d'.part s).minKey := ((h.part s).bounds _ (hstored s)).1
  refine ⟨s, ?_, fun i hi => ?_⟩
  · have hlt := hs.2 _ (hstored s.other)
    omega
  have hi' : d.Has s.other i := by
    rw [Has, ← (hpart s.other).data_eq]
    exact hi
  have hlt := hs.2 i hi'
  omega

/-! ## What an operation stores -/

lemma get_congr (h : ∀ s, (d'.part s).data.get i = (d.part s).data.get i) : d'.get i = d.get i := by
  have hfirst : d'.first.data.get i = d.first.data.get i := h .first
  have hsecond : d'.second.data.get i = d.second.data.get i := h .second
  rw [get, hfirst, hsecond, get]

lemma Ok.get_insert (h : d.Ok) (hnow : 0 < now) (hidx : 1 ≤ entry.idx)
    (i : ℕ) : (d.insert now entry).get i = if entry.idx = i then some entry.value else d.get i := by
  split_ifs with heq
  · subst heq
    have hget : ((d.insert now entry).part (d.partitionFor entry.idx)).data.get entry.idx =
        some entry.value := by
      rw [get_part_insert, if_pos ⟨rfl, rfl⟩]
    have hhas : (d.insert now entry).Has (d.partitionFor entry.idx) entry.idx := by
      rw [Has, hget]
      simp
    rw [(h.insert hnow hidx).disjoint.get_eq hhas, hget]
  · refine get_congr fun s => ?_
    rw [get_part_insert, if_neg fun hc => heq hc.2]

/-- A rotation discards what is in the older partition. -/
lemma get_maybeRotate (hkeep : ¬ (d.Rotates now ∧ d.Has d.newer.other i)) :
    (d.maybeRotate now).get i = d.get i := by
  unfold DataPartitions.maybeRotate
  split_ifs with hrotates
  · have hold : (d.part d.newer.other).data.get i = none := by
      by_contra hne
      exact hkeep ⟨hrotates, hne⟩
    refine get_congr fun s => ?_
    rcases Side.eq_or_eq_other d.newer.other s with rfl | rfl
    · rw [part_modify_self, hold]
      rfl
    · rw [part_modify_other]
  · rfl

/-- A drop is exact: its starting point is stored, or nothing beyond it is. -/
def DropsExactly (d : DataPartitions) (start : ℕ) : Prop :=
  d.Stored start ∨ ∀ i, start < i → ¬ d.Stored i

lemma Disjoint.get_of_dropsExactly (h : d.Disjoint) {start : ℕ} (hexact : d.DropsExactly start)
    (s : Side) (i : ℕ) : ((d.dropEntriesAfterIdx start).part s).data.get i =
      if start < i then none else (d.part s).data.get i := by
  rcases h.get_dropEntriesAfterIdx start with ⟨hempty, hget⟩ | ⟨k, hle, hk, hleast, hget⟩
  · rw [hget]
    split_ifs with hlt
    · by_contra hne
      exact hempty i hlt.le ⟨s, hne⟩
    · rfl
  · rw [hget]
    rcases hexact with hstored | hnone
    · obtain rfl : k = start := le_antisymm (hleast start le_rfl hstored) hle
      rfl
    obtain rfl : start = k := by
      by_contra hne
      exact hnone k (lt_of_le_of_ne hle hne) hk
    rfl

lemma Disjoint.get_dropEntriesAfterIdx_eq (h : d.Disjoint) {start : ℕ}
    (hexact : d.DropsExactly start) (i : ℕ) :
    (d.dropEntriesAfterIdx start).get i = if start < i then none else d.get i := by
  have hfirst := h.get_of_dropsExactly hexact .first i
  have hsecond := h.get_of_dropsExactly hexact .second i
  simp only [part] at hfirst hsecond
  rw [get, hfirst, hsecond, get]
  split_ifs <;> rfl

/-- An iterator meets every stored index from where it is placed once, in increasing order. -/
lemma Ok.walk_seek (h : d.Ok) (start : ℕ) :
    ((d.seek start).walk.Pairwise fun a b => a.2.1 < b.2.1) ∧
    ∀ i v, (i, v) ∈ (d.seek start).walk.map Prod.snd ↔ start ≤ i ∧ d.get i = some v := by
  refine ⟨(seek_sorted start).pairwise_walk (h.disjoint.seek start), fun i v => ?_⟩
  simp only [mem_map, Prod.exists, exists_eq_right, MergeCursor.mem_walk, mem_seek]
  constructor
  · rintro ⟨s, hle, hget⟩
    exact ⟨hle, (h.disjoint.get_eq (by rw [Has, hget]; simp)).trans hget⟩
  · rintro ⟨hle, hget⟩
    have hstored : d.Stored i := by
      by_contra hnot
      rw [get_eq_none_iff.2 hnot] at hget
      cases hget
    obtain ⟨s, hs⟩ := hstored
    exact ⟨s, hle, (h.disjoint.get_eq hs).symm.trans hget⟩

end DataPartitions

/-! ## The ordered map -/

/-- An ordered map that is written and dropped from like the log, and the indices that a rotation
has discarded and that have not been written since. -/
structure LogSpec where
  written : ℕ → Option Bytes
  discarded : ℕ → Prop

namespace LogSpec

/-- Nothing has been written. -/
def init : LogSpec := ⟨fun _ => none, fun _ => False⟩

/-- Write an entry. -/
def write (m : LogSpec) (entry : LogsDBLogEntry) : LogSpec :=
  ⟨fun i => if entry.idx = i then some entry.value else m.written i,
    fun i => entry.idx ≠ i ∧ m.discarded i⟩

/-- Drop the entries after an index. -/
def drop (m : LogSpec) (start : ℕ) : LogSpec :=
  { m with written := fun i => if start < i then none else m.written i }

/-- Discard what a rotation discards. -/
def rotate (m : LogSpec) (d : DataPartitions) (now : ℕ) : LogSpec :=
  { m with discarded := fun i => m.discarded i ∨ d.Rotates now ∧ d.Has d.newer.other i }

/-- The partitions hold what the map holds, apart from what has been discarded. -/
def Refines (m : LogSpec) (d : DataPartitions) : Prop :=
  ∀ i, ¬ m.discarded i → d.get i = m.written i

variable {m : LogSpec} {d : DataPartitions}

lemma Refines.rotate (h : m.Refines d) (now : ℕ) : (m.rotate d now).Refines (d.maybeRotate now) := by
  intro i hi
  have hi' := not_or.1 hi
  rw [DataPartitions.get_maybeRotate hi'.2]
  exact h i hi'.1

lemma Refines.write (h : m.Refines d) (hd : d.Ok) {entry : LogsDBLogEntry} (hnow : 0 < now)
    (hidx : 1 ≤ entry.idx) : (m.write entry).Refines (d.insert now entry) := by
  intro i hi
  rw [hd.get_insert hnow hidx]
  simp only [LogSpec.write]
  split_ifs with heq
  · rfl
  · exact h i fun hdiscarded => hi ⟨heq, hdiscarded⟩

lemma Refines.foldl_write (h : m.Refines d) (hd : d.Ok) {entries : List LogsDBLogEntry}
    (hnow : 0 < now) (hidx : ∀ entry ∈ entries, 1 ≤ entry.idx) :
    (entries.foldl LogSpec.write m).Refines
      (entries.foldl (fun d entry => d.insert now entry) d) := by
  induction entries generalizing m d with
  | nil => exact h
  | cons entry entries ih =>
    have hentry := hidx entry (mem_cons_self ..)
    exact ih (h.write hd hnow hentry) (hd.insert hnow hentry)
      fun x hx => hidx x (mem_cons_of_mem _ hx)

lemma Refines.drop (h : m.Refines d) (hd : d.Ok) {start : ℕ} (hexact : d.DropsExactly start) :
    (m.drop start).Refines (d.dropEntriesAfterIdx start) := by
  intro i hi
  rw [hd.disjoint.get_dropEntriesAfterIdx_eq hexact]
  simp only [LogSpec.drop]
  split_ifs
  · rfl
  · exact h i hi

end LogSpec

/-- The calls that change the log, with the time at which they are made. -/
inductive PartitionOp
  | writeLogEntry (now : ℕ) (entry : LogsDBLogEntry)
  | writeLogEntries (now : ℕ) (entries : List LogsDBLogEntry)
  | dropEntriesAfterIdx (start : ℕ)
  | reopen

/-- The partitions and the ordered map side by side. -/
structure PartitionSystem where
  data : DataPartitions := {}
  spec : LogSpec := .init

namespace PartitionSystem

/-- One call. -/
def step (sys : PartitionSystem) : PartitionOp → Option PartitionSystem
  | .writeLogEntry now entry =>
    some ⟨sys.data.writeLogEntry now entry, (sys.spec.rotate sys.data now).write entry⟩
  | .writeLogEntries now entries =>
    some ⟨sys.data.writeLogEntries now entries,
      entries.foldl LogSpec.write (sys.spec.rotate sys.data now)⟩
  | .dropEntriesAfterIdx start =>
    some ⟨sys.data.dropEntriesAfterIdx start, sys.spec.drop start⟩
  | .reopen => sys.data.reopen.map fun data => ⟨data, sys.spec⟩

/-- Indices start at one, the clock has started, and what is dropped is exactly a suffix. -/
def StepOk (sys : PartitionSystem) : PartitionOp → Prop
  | .writeLogEntry now entry => 0 < now ∧ 1 ≤ entry.idx
  | .writeLogEntries now entries => 0 < now ∧ ∀ entry ∈ entries, 1 ≤ entry.idx
  | .dropEntriesAfterIdx start => sys.data.DropsExactly start
  | .reopen => True

/-- Indices start at one, and the clock has started. -/
def WritesOk : PartitionOp → Prop
  | .writeLogEntry now entry => 0 < now ∧ 1 ≤ entry.idx
  | .writeLogEntries now entries => 0 < now ∧ ∀ entry ∈ entries, 1 ≤ entry.idx
  | .dropEntriesAfterIdx _ | .reopen => True

instance : DecidablePred WritesOk
  | .writeLogEntry .. => inferInstanceAs (Decidable (_ ∧ _))
  | .writeLogEntries .. => inferInstanceAs (Decidable (_ ∧ ∀ entry ∈ _, _))
  | .dropEntriesAfterIdx _ | .reopen => isTrue trivial

lemma ok_step {sys sys' : PartitionSystem} {op : PartitionOp} (hstep : sys.step op = some sys')
    (h : sys.data.Ok) (hok : WritesOk op) : sys'.data.Ok := by
  cases op with
  | writeLogEntry now =>
    obtain rfl := Option.some.inj hstep
    exact (h.maybeRotate now).insert hok.1 hok.2
  | writeLogEntries now =>
    obtain rfl := Option.some.inj hstep
    exact (h.maybeRotate now).foldl_insert hok.1 hok.2
  | dropEntriesAfterIdx start =>
    obtain rfl := Option.some.inj hstep
    exact h.dropEntriesAfterIdx start
  | reopen =>
    obtain ⟨data, hreopen, rfl⟩ := Option.map_eq_some_iff.1 hstep
    exact h.reopen hreopen

/-- **Run lemma.** Whatever is written and dropped, no index is in both partitions. -/
lemma disjoint_of_run {ops : List PartitionOp} {sys : PartitionSystem}
    (hok : ∀ op ∈ ops, WritesOk op) (hrun : run step {} ops = some sys) : sys.data.Disjoint := by
  have hstep : ∀ (sys : PartitionSystem) (op : PartitionOp) (sys' : PartitionSystem),
      sys.data.Ok → WritesOk op → sys.step op = some sys' → sys'.data.Ok :=
    fun _ _ _ h hok hstep => ok_step hstep h hok
  exact (run_invariant hstep DataPartitions.ok_init (.of_forall hok _) hrun).disjoint

/-- The partitions are as they should be and hold what the map holds. -/
structure Inv (sys : PartitionSystem) : Prop where
  ok : sys.data.Ok
  refines : sys.spec.Refines sys.data

lemma Inv.step {sys sys' : PartitionSystem} {op : PartitionOp} (h : sys.Inv) (hok : sys.StepOk op)
    (hstep : sys.step op = some sys') : sys'.Inv := by
  cases op with
  | writeLogEntry now =>
    refine ⟨ok_step hstep h.ok hok, ?_⟩
    obtain rfl := Option.some.inj hstep
    exact (h.refines.rotate now).write (h.ok.maybeRotate now) hok.1 hok.2
  | writeLogEntries now =>
    refine ⟨ok_step hstep h.ok hok, ?_⟩
    obtain rfl := Option.some.inj hstep
    exact (h.refines.rotate now).foldl_write (h.ok.maybeRotate now) hok.1 hok.2
  | dropEntriesAfterIdx start =>
    refine ⟨ok_step hstep h.ok trivial, ?_⟩
    obtain rfl := Option.some.inj hstep
    exact h.refines.drop h.ok hok
  | reopen =>
    refine ⟨ok_step hstep h.ok trivial, ?_⟩
    obtain ⟨data, hreopen, rfl⟩ := Option.map_eq_some_iff.1 hstep
    intro i hi
    rw [← h.refines i hi]
    refine DataPartitions.get_congr fun s => ?_
    rw [((h.ok.part s).reopened (DataPartitions.part_of_reopen hreopen s)).data_eq]

/-- **The partitions as an ordered map.** In every run in which all drops are exact, the log can be
opened again if and only if no partition has lost all its entries; an index that no rotation has
discarded reads as in the ordered map if and only if it is not below the least index of its
partition, and as trimmed otherwise; no index is in both partitions; and iterators meet every stored
index once, in increasing order. -/
theorem refines_of_run {ops : List PartitionOp} {sys : PartitionSystem}
    (hrun : run step {} ops = some sys) (hok : RunMeets step StepOk {} ops) :
    (sys.data.reopen.isSome ↔ ∀ s, (sys.data.part s).HasEntries) ∧
    (∀ i, ¬ sys.spec.discarded i → (sys.data.readLogEntry i = readOrdered (sys.spec.written i) ↔
        (sys.data.part (sys.data.partitionFor i)).minKey ≤ i)) ∧
    (∀ i, sys.data.Has .first i → ¬ sys.data.Has .second i) ∧
    ∀ start, ((sys.data.seek start).walk.Pairwise fun a b => a.2.1 < b.2.1) ∧
      ∀ i v, (i, v) ∈ (sys.data.seek start).walk.map Prod.snd ↔
        start ≤ i ∧ sys.data.get i = some v := by
  have hinit : Inv {} := ⟨DataPartitions.ok_init, fun _ _ => rfl⟩
  have hinv : sys.Inv := run_invariant (fun _ _ _ h hok hstep => h.step hok hstep) hinit hok hrun
  refine ⟨DataPartitions.reopen_isSome_iff, fun i hi => ?_, hinv.ok.disjoint, hinv.ok.walk_seek⟩
  constructor
  · intro hread
    by_contra hmin
    rw [DataPartitions.readLogEntry, if_pos (not_le.1 hmin)] at hread
    cases hspec : sys.spec.written i <;> rw [hspec] at hread <;> cases hread
  · intro hmin
    rw [hinv.ok.readLogEntry_eq hmin, hinv.refines i hi]

/-- Two entries are written, each to a partition of its own, and the second is dropped. -/
def sampleDropped : List PartitionOp :=
  [.writeLogEntry 1 ⟨1, [7]⟩, .writeLogEntry 1 ⟨2, [8]⟩, .dropEntriesAfterIdx 1]

/-- The second partition is empty, and cannot be opened.  And below the first index that was written
an entry is not missing but trimmed. -/
theorem not_refines_of_run :
    (∃ sys, run step {} sampleDropped = some sys ∧ sys.data.reopen = none) ∧
    ∃ sys, run step {} [.writeLogEntry 1 ⟨5, [7]⟩] = some sys ∧ sys.spec.written 3 = none ∧
      ¬ sys.spec.discarded 3 ∧ sys.data.readLogEntry 3 = .error .logEntryTrimmed := by
  refine ⟨⟨_, rfl, by decide +kernel⟩, ⟨_, rfl, rfl, ?_, by decide +kernel⟩⟩
  rintro ⟨-, h | h⟩
  · exact h
  · exact absurd h.2 (by decide +kernel)

theorem refines_of_run_dropped : ∃ sys, run step {} sampleDropped = some sys ∧
      sys.data.readLogEntry 1 = .ok [7] ∧ sys.data.readLogEntry 2 = .error .logEntryMissing := by
  have hok : RunMeets step StepOk {} sampleDropped :=
    ⟨⟨by decide, by decide⟩, ⟨by decide, by decide⟩, .inl (by decide +kernel), trivial⟩
  refine ⟨_, rfl, ((refines_of_run rfl hok).2.1 1 ?_).2 (by decide +kernel),
    ((refines_of_run rfl hok).2.1 2 ?_).2 (by decide +kernel)⟩
  · rintro ⟨-, ⟨hne, -⟩ | hrotates⟩
    · exact hne rfl
    · exact absurd hrotates.1 (by decide +kernel)
  · rintro ⟨hne, -⟩
    exact hne rfl

end PartitionSystem

end TernFS
