/-
# Dropping and digesting the unreleased suffix

A replica that follows a new leader drops what it has stored beyond the release point, and a nominee
digests it.  Both place an iterator at the release point and move it once before they look at what it
meets.  That passes over the entry at the release point if there is one, and over the first entry
beyond it otherwise: the suffix is dropped as a whole exactly if the entry at the release point is
stored, or nothing beyond it is.  To be digested as a whole it also has to fit into the window, and
none of its entries may be empty.
-/
import TernFS.LogsDB.OrderedLog
import TernFS.LogsDB.Election

namespace TernFS

open Lib List

namespace DataPartitions

variable {d : DataPartitions}

/-- What is dropped is the suffix exactly if the starting point is stored or the last one. -/
lemma Disjoint.dropsExactly_iff (h : d.Disjoint) (start : ℕ) :
    (∀ s i, ((d.dropEntriesAfterIdx start).part s).data.get i =
      if start < i then none else (d.part s).data.get i) ↔ d.DropsExactly start := by
  refine ⟨fun hget => ?_, fun hexact => h.get_of_dropsExactly hexact⟩
  rcases h.get_dropEntriesAfterIdx start with ⟨hempty, -⟩ | ⟨k, hle, ⟨s, hk⟩, -, hget'⟩
  · exact .inr fun i hi => hempty i hi.le
  -- the least index from the starting point on is kept, so it is the starting point
  rcases hle.eq_or_lt with rfl | hlt
  · exact .inl ⟨s, hk⟩
  · have hnone := hget s k
    rw [if_pos hlt, hget' s k, if_neg (lt_irrefl k)] at hnone
    exact absurd hnone hk

/-- Which entries are digested: those past the least index from the release point on. -/
lemma Disjoint.mem_localEntries (h : d.Disjoint) (lastReleased : ℕ) :
    (LogsDB.localEntries d lastReleased = [] ∧ ∀ i, lastReleased ≤ i → ¬ d.Stored i) ∨
    ∃ k, lastReleased ≤ k ∧ d.Stored k ∧ (∀ i, lastReleased ≤ i → d.Stored i → k ≤ i) ∧
      ∀ i v, ⟨i, v⟩ ∈ LogsDB.localEntries d lastReleased ↔ k < i ∧ d.get i = some v := by
  rcases d.seek_current?_cases lastReleased with ⟨hnone, hempty⟩ | ⟨s, e, hcur, hle, he, hleast⟩
  · refine .inl ⟨?_, hempty⟩
    rcases (d.seek lastReleased).current?_cases with ⟨-, hnext, -⟩ | ⟨t, x, rest, hcur, -⟩
    · rw [LogsDB.localEntries, hnext, MergeCursor.walk_eq, hnone]
      rfl
    · rw [hnone] at hcur
      cases hcur
  · refine .inr ⟨e.1, hle, ⟨s, by rw [Has, he]; simp⟩, hleast, fun i v => ?_⟩
    simp only [LogsDB.localEntries, mem_map, Prod.exists, LogsDBLogEntry.mk.injEq,
      MergeCursor.mem_walk, h.mem_seek_next hcur]
    constructor
    · rintro ⟨t, i', v', ⟨hlt, hget⟩, rfl, rfl⟩
      exact ⟨hlt, (h.get_eq (by rw [Has, hget]; simp)).trans hget⟩
    · rintro ⟨hlt, hget⟩
      have hstored : d.Stored i := by
        by_contra hnot
        rw [get_eq_none_iff.2 hnot] at hget
        cases hget
      obtain ⟨t, ht⟩ := hstored
      exact ⟨t, i, v, ⟨hlt, (h.get_eq ht).symm.trans hget⟩, rfl, rfl⟩

end DataPartitions

namespace LogsDB

/-- What a slot holds once the entries have been put in their slots. -/
lemma entry_of_fillSlots {lastReleased : ℕ} {slots slots' : List RecoverySlot}
    {entries : List LogsDBLogEntry} (h : fillSlots lastReleased slots entries = some slots') (j : ℕ) :
    (∃ e ∈ entries, e.idx = lastReleased + 1 + j ∧ (slots'[j]?).map RecoverySlot.entry = some e) ∨
    ((∀ e ∈ entries, e.idx ≠ lastReleased + 1 + j) ∧
      (slots'[j]?).map RecoverySlot.entry = (slots[j]?).map RecoverySlot.entry) := by
  induction entries generalizing slots with
  | nil =>
    obtain rfl : slots = slots' := by simpa [fillSlots] using h
    exact .inr ⟨nofun, rfl⟩
  | cons e entries ih =>
    simp only [fillSlots, foldlM_cons, bind_eq_some] at h
    obtain ⟨mid, hfill, hrest⟩ := h
    unfold fillSlot at hfill
    split_ifs at hfill with hbounds
    obtain rfl := Option.some.inj hfill
    rcases ih hrest with ⟨e', he', hidx, hslot⟩ | ⟨hne, hslot⟩
    · exact .inl ⟨e', mem_cons_of_mem _ he', hidx, hslot⟩
    by_cases hj : e.idx = lastReleased + 1 + j
    · refine .inl ⟨e, mem_cons_self .., hj, ?_⟩
      have hoffset : e.idx - lastReleased - 1 = j := by omega
      rw [hslot, hoffset, getElem?_modify]
      have hlt : j < slots.length := by omega
      simp [getElem?_eq_getElem hlt]
    · have hoffset : e.idx - lastReleased - 1 ≠ j := by omega
      refine .inr ⟨fun x hx => ?_, ?_⟩
      · rcases mem_cons.1 hx with rfl | hx
        · exact hj
        · exact hne x hx
      · rw [hslot, getElem?_modify]
        simp [hoffset]

/-- The slot of an index beyond the release point holds an entry exactly if it is digested. -/
lemma mem_localEntries_iff {d : DataPartitions} (hd : d.Disjoint) {lastReleased : ℕ}
    {slots : List RecoverySlot} (hslots : fillSlots lastReleased
      (replicate inFlightAppendWindow {}) (localEntries d lastReleased) = some slots)
    {i : ℕ} {v : Bytes} (hi : lastReleased < i) :
    (slots[i - lastReleased - 1]?).map RecoverySlot.entry = some ⟨i, v⟩ ↔
      ⟨i, v⟩ ∈ localEntries d lastReleased := by
  have hoffset : lastReleased + 1 + (i - lastReleased - 1) = i := by omega
  rcases entry_of_fillSlots hslots (i - lastReleased - 1) with ⟨e, he, hidx, hslot⟩ | ⟨hne, hslot⟩
  · obtain rfl : e.idx = i := hidx.trans hoffset
    rw [hslot, Option.some.injEq]
    constructor
    · intro heq
      rwa [← heq]
    · intro hv
      -- the entries that are digested have different indices
      rcases hd.mem_localEntries lastReleased with ⟨hnil, -⟩ | ⟨k, -, -, -, hmem⟩
      · rw [hnil] at he
        cases he
      · have hvalue := ((hmem e.idx e.value).1 he).2.symm.trans ((hmem e.idx v).1 hv).2
        rw [← Option.some.inj hvalue]
  · rw [hslot]
    refine iff_of_false (fun hentry => ?_) fun hmem => hne _ hmem hoffset.symm
    obtain ⟨slot, hget, hslot'⟩ := Option.map_eq_some_iff.1 hentry
    have hdefault := eq_of_mem_replicate (mem_of_getElem? hget)
    rw [hdefault] at hslot'
    have hzero : 0 = i := congrArg LogsDBLogEntry.idx hslot'
    omega

lemma length_of_fillSlots {lastReleased : ℕ} {slots slots' : List RecoverySlot}
    {entries : List LogsDBLogEntry} (h : fillSlots lastReleased slots entries = some slots') :
    slots'.length = slots.length := by
  refine foldlM_invariant (motive := fun s => s.length = slots.length) (fun s e _ s' hs hfill => ?_)
    rfl h
  unfold fillSlot at hfill
  split_ifs at hfill
  cases hfill
  rw [length_modify, hs]

/-- Entries of the window are put in their slots. -/
lemma exists_fillSlots {lastReleased : ℕ} {slots : List RecoverySlot}
    {entries : List LogsDBLogEntry}
    (h : ∀ e ∈ entries, lastReleased < e.idx ∧ e.idx - lastReleased - 1 < slots.length) :
    ∃ slots', fillSlots lastReleased slots entries = some slots' := by
  induction entries generalizing slots with
  | nil => exact ⟨slots, rfl⟩
  | cons e entries ih =>
    obtain ⟨he, hentries⟩ := forall_mem_cons.1 h
    simp only [fillSlots, foldlM_cons, fillSlot, if_pos he]
    exact ih (by simpa using hentries)

section

variable {d : DataPartitions} {lastReleased : ℕ}

/-- The entries that are digested are those beyond the release point exactly if a drop from there is
exact. -/
lemma localEntries_exact_iff (hd : d.Disjoint) :
    (∀ i v, lastReleased < i → (d.get i = some v ↔ ⟨i, v⟩ ∈ localEntries d lastReleased)) ↔
      d.DropsExactly lastReleased := by
  rcases hd.mem_localEntries lastReleased with ⟨hnil, hempty⟩ | ⟨k, hle, hk, hleast, hmem⟩
  · have hnone : ∀ i, lastReleased < i → d.get i = none := fun i hi =>
      DataPartitions.get_eq_none_iff.2 (hempty i hi.le)
    refine iff_of_true (fun i v hi => ?_) (.inr fun i hi => hempty i hi.le)
    simp [hnil, hnone i hi]
  · constructor
    · intro hiff
      rcases hle.eq_or_lt with rfl | hlt
      · exact .inl hk
      · obtain ⟨v, hv⟩ := Option.ne_none_iff_exists'.1 fun hnone =>
          DataPartitions.get_eq_none_iff.1 hnone hk
        exact absurd ((hmem k v).1 ((hiff k v hlt).1 hv)).1 (lt_irrefl k)
    · intro hexact i v hi
      rw [hmem]
      refine ⟨fun hget => ⟨?_, hget⟩, fun h => h.2⟩
      rcases hexact with hstored | hnone
      · exact (hleast lastReleased le_rfl hstored).trans_lt hi
      have hstored : d.Stored i := by
        by_contra hnot
        rw [DataPartitions.get_eq_none_iff.2 hnot] at hget
        cases hget
      exact absurd hstored (hnone i hi)

lemma lt_of_mem_localEntries (hd : d.Disjoint) {i : ℕ} {v : Bytes}
    (h : ⟨i, v⟩ ∈ localEntries d lastReleased) : lastReleased < i ∧ d.get i = some v := by
  rcases hd.mem_localEntries lastReleased with ⟨hnil, -⟩ | ⟨k, hle, -, -, hmem⟩
  · rw [hnil] at h
    cases h
  · exact ((hmem i v).1 h).imp_left hle.trans_lt

/-- Entries of the window are not more than there are slots. -/
lemma length_localEntries_le (hd : d.Disjoint)
    (h : ∀ e ∈ localEntries d lastReleased, e.idx ≤ lastReleased + inFlightAppendWindow) :
    (localEntries d lastReleased).length ≤ inFlightAppendWindow := by
  have hsorted : ((localEntries d lastReleased).map LogsDBLogEntry.idx).Pairwise (· < ·) := by
    rw [localEntries, map_map]
    exact pairwise_map.2 ((DataPartitions.seek_sorted lastReleased).next.pairwise_walk
      (hd.seek lastReleased).next)
  have hwindow : (localEntries d lastReleased).map LogsDBLogEntry.idx ⊆
      range' (lastReleased + 1) inFlightAppendWindow := by
    intro i hi
    obtain ⟨e, he, rfl⟩ := mem_map.1 hi
    have hlt := (lt_of_mem_localEntries hd he).1
    have hle := h e he
    exact mem_range'_1.2 (by omega)
  have hlength := (subperm_of_subset (hsorted.imp ne_of_lt) hwindow).length_le
  rwa [length_map, length_range'] at hlength

end

/-- The slots of `_tryProgressToDigest` after the local entries have been put there.  It asserts that
there are not too many of them, and has no slot for one beyond the window. -/
def digestedSlots (d : DataPartitions) (lastReleased : ℕ) : Option (List RecoverySlot) := do
  guard ((localEntries d lastReleased).length ≤ inFlightAppendWindow)
  fillSlots lastReleased (replicate inFlightAppendWindow {}) (localEntries d lastReleased)

/-- The slots hold the local entries beyond the release point and no other ones, and no stored entry
is asked for, as those of slots with an empty value are. -/
def Digests (d : DataPartitions) (lastReleased : ℕ) (slots : List RecoverySlot) : Prop :=
  ∀ i v, lastReleased < i →
    (d.get i = some v ↔ (slots[i - lastReleased - 1]?).map RecoverySlot.entry = some ⟨i, v⟩) ∧
    (d.get i = some v → v ≠ [])

/-- The condition: a drop from the release point is exact, and the entries beyond it are in the window
and not empty. -/
def SuffixOk (d : DataPartitions) (lastReleased : ℕ) : Prop :=
  d.DropsExactly lastReleased ∧ ∀ i v, lastReleased < i → d.get i = some v →
    i ≤ lastReleased + inFlightAppendWindow ∧ v ≠ []

/-- **The unreleased suffix.** For any content of the log and any release point, the entries that are
dropped are exactly those beyond it if and only if the entry at the release point is stored or nothing
beyond it is; and the entries that a nominee digests are exactly those beyond it, none of them counted
as missing, if and only if they are also in the window and not empty. -/
theorem drops_and_digests_iff {d : DataPartitions} (hd : d.Disjoint) (lastReleased : ℕ) :
    ((∀ s i, ((d.dropEntriesAfterIdx lastReleased).part s).data.get i =
      if lastReleased < i then none else (d.part s).data.get i) ↔ d.DropsExactly lastReleased) ∧
    ((∃ slots, digestedSlots d lastReleased = some slots ∧ Digests d lastReleased slots) ↔
      SuffixOk d lastReleased) := by
  refine ⟨hd.dropsExactly_iff lastReleased, ?_, ?_⟩
  · rintro ⟨slots, hslots, hdigests⟩
    obtain ⟨-, -, hslots⟩ := bind_eq_some.1 hslots
    have hlength : slots.length = inFlightAppendWindow :=
      (length_of_fillSlots hslots).trans length_replicate
    refine ⟨(localEntries_exact_iff hd).1 fun i v hi => ?_, fun i v hi hget => ⟨?_, ?_⟩⟩
    · rw [(hdigests i v hi).1, mem_localEntries_iff hd hslots hi]
    · obtain ⟨slot, hslot, -⟩ := Option.map_eq_some_iff.1 ((hdigests i v hi).1.1 hget)
      have hlt := (List.getElem?_eq_some_iff.1 hslot).1
      omega
    · exact (hdigests i v hi).2 hget
  · rintro ⟨hexact, hwindow⟩
    have hmem := (localEntries_exact_iff hd).2 hexact
    have hentries : ∀ e ∈ localEntries d lastReleased,
        lastReleased < e.idx ∧ e.idx ≤ lastReleased + inFlightAppendWindow := by
      intro e he
      obtain ⟨hlt, hget⟩ := lt_of_mem_localEntries hd he
      exact ⟨hlt, (hwindow e.idx e.value hlt hget).1⟩
    have hlength := length_localEntries_le hd fun e he => (hentries e he).2
    obtain ⟨slots, hslots⟩ : ∃ slots, fillSlots lastReleased (replicate inFlightAppendWindow {})
        (localEntries d lastReleased) = some slots := by
      refine exists_fillSlots fun e he => ?_
      have he := hentries e he
      rw [length_replicate]
      omega
    refine ⟨slots, ?_, fun i v hi => ⟨?_, fun hget => (hwindow i v hi hget).2⟩⟩
    · simpa [digestedSlots, hlength] using hslots
    · rw [hmem i v hi, mem_localEntries_iff hd hslots hi]

/-- A new leader writes two entries to a log that has released nothing. -/
def sampleWrites : List PartitionOp := [.writeLogEntries 1 [⟨1, [7]⟩, ⟨2, [8]⟩]]

/-- The first entry survives the drop, and a nominee counts it as missing. -/
theorem not_drops_and_digests : ∃ sys, run PartitionSystem.step {} sampleWrites = some sys ∧
    (sys.data.dropEntriesAfterIdx 0).get 1 = some [7] ∧
    ((digestedSlots sys.data 0).bind fun slots => (slots[0]?).map RecoverySlot.entry) =
      some ⟨0, []⟩ := by
  decide +kernel

theorem drops_and_digests_released : ∃ sys, run PartitionSystem.step {} sampleWrites = some sys ∧
    (∀ s i, ((sys.data.dropEntriesAfterIdx 1).part s).data.get i =
      if 1 < i then none else (sys.data.part s).data.get i) ∧
    ∃ slots, digestedSlots sys.data 1 = some slots ∧ Digests sys.data 1 slots := by
  have hwrites : ∀ op ∈ sampleWrites, PartitionSystem.WritesOk op := by decide
  refine exists_eq_some_imp (fun sys hrun (h : sys.data.Stored 1 ∧
    ∀ e ∈ sys.data.first.data.entries ++ sys.data.second.data.entries, e.1 ≤ 2 ∧ e.2 ≠ []) => ?_)
    (by decide +kernel)
  have hsuffix : SuffixOk sys.data 1 := by
    refine ⟨.inl h.1, fun i v _ hget => ?_⟩
    have hmem : (i, v) ∈ sys.data.first.data.entries ++ sys.data.second.data.entries := by
      rw [mem_append, SortedStore.mem_entries_iff, SortedStore.mem_entries_iff]
      exact (Option.or_eq_some_iff.1 hget).imp_right And.right
    obtain ⟨hle, hvalue⟩ := h.2 _ hmem
    exact ⟨hle.trans (by decide), hvalue⟩
  have hexact := drops_and_digests_iff (PartitionSystem.disjoint_of_run hwrites hrun) 1
  exact ⟨hexact.1.2 hsuffix.1, hexact.2.2 hsuffix⟩

end LogsDB

end TernFS
