/-
# The phases of an election

An election moves on only when an answer comes in, and no new election starts while it lasts.  So in
every phase there has to be a request of the kind that the phase waits for.  The arrays say which ones:
at least three replicas take part, so as long as fewer than three have confirmed there is one among them
that is waited for.  Two things get in the way: a write of another leader that is accepted in the middle
of an election, and a window without a hole, for which nothing is asked.
-/
import TernFS.LogsDB.Promises
import TernFS.LogsDB.Requests
import TernFS.LogsDB.Truncation

namespace TernFS

open Lib List Option Function

variable {idx lastReleased i : ℕ} {es : LeaderElectionState} {slot : RecoverySlot}

namespace QuorumTrackArray

variable {t t' : QuorumTrackArray} {r : ReplicaId}

/-! ## Arrays that ask a quorum -/

/-- The array waits for nothing. -/
def Idle (t : QuorumTrackArray) : Prop := ∀ id, ¬ t.Waits id

/-- At least a quorum of replicas is asked or has confirmed. -/
def Asks (t : QuorumTrackArray) : Prop :=
  5 / 2 < (finRange 5).countP fun r => t r ≠ .unused

lemma idle_confirmed : Idle fun _ => .confirmed := by
  rintro id ⟨r, hr⟩
  cases hr

/-- More than half of the replicas, under a weaker condition. -/
lemma quorum_mono {p q : ReplicaId → Prop} [DecidablePred p] [DecidablePred q]
    (h : ∀ r, p r → q r) (hp : 5 / 2 < (finRange 5).countP fun r => p r) :
    5 / 2 < (finRange 5).countP fun r => q r := by
  refine lt_of_lt_of_le hp (countP_mono_left fun r _ hr => ?_)
  simpa using h r (by simpa using hr)

lemma IsQuorum.mono (h : ∀ r, t r = .confirmed → t' r = .confirmed) (ht : t.IsQuorum) :
    t'.IsQuorum := quorum_mono h ht

lemma IsQuorum.asks_of (h : ∀ r, t r = .confirmed → t' r ≠ .unused) (ht : t.IsQuorum) : t'.Asks :=
  quorum_mono h ht

/-- Someone is waited for as long as there is no quorum. -/
lemma Asks.exists_waiting (ht : t.Asks) (hnot : ¬ t.IsQuorum) : ∃ r id, t r = .waiting id := by
  by_contra hnone
  refine hnot (quorum_mono (fun r hr => ?_) ht)
  cases h : t r with
  | confirmed => rfl
  | unused => exact absurd h hr
  | waiting id => exact absurd ⟨r, id, h⟩ hnone

/-- What holds of a confirmation and of a track holds of the track after a confirmation. -/
lemma of_confirm {P : Track → Prop} {r' : ReplicaId} (hconfirmed : P .confirmed) (h : P (t r'))
    (r : ReplicaId) : P (update t r .confirmed r') := by
  rw [update_apply]
  split
  · exact hconfirmed
  · exact h

lemma Asks.confirm (ht : t.Asks) (r : ReplicaId) : Asks (update t r .confirmed) :=
  quorum_mono (fun _ hr' => of_confirm (P := (· ≠ .unused)) nofun hr' r) ht

lemma Idle.confirm (ht : t.Idle) (r : ReplicaId) : Idle (update t r .confirmed) :=
  fun id ⟨r', hr'⟩ =>
    of_confirm (P := (· ≠ .waiting id)) nofun (fun h => ht id ⟨r', h⟩) r hr'

lemma IsQuorum.confirm (ht : t.IsQuorum) (r : ReplicaId) : IsQuorum (update t r .confirmed) :=
  ht.mono fun _ hr' => of_confirm (P := (· = .confirmed)) rfl hr' r

lemma not_isQuorum_of_eq (h : ∀ r', t r' = .confirmed → r' = r) : ¬ t.IsQuorum := by
  have hone : ∀ s : ReplicaId, (finRange 5).countP (fun r => r = s) = 1 := by decide
  have hle : (finRange 5).countP (fun r => t r = .confirmed) ≤ 1 := by
    refine le_trans (countP_mono_left fun r' _ hr' => ?_) (hone r).le
    simpa using h r' (by simpa using hr')
  unfold IsQuorum
  omega

end QuorumTrackArray

namespace ReqResp

open QuorumTrackArray

variable {rr rr' : ReqResp} {t t' : QuorumTrackArray} {body : LogReq}
  {given : ReplicaId → Option Track} {good good' : LogReq → Prop} {self r : ReplicaId}

/-! ## What asking leaves in an array -/

lemma eq_of_ask_eq_confirmed (hgiven : ∀ r, given r = some .confirmed → r = self)
    (h : (rr.ask body given).2 r = .confirmed) : r = self := by
  have hasked := asked_ask rr body given
  cases hr : given r with
  | some track =>
    have htrack := hasked.of_given r (mem_finRange r) track hr
    exact hgiven r (hr.trans (congrArg some (htrack.symm.trans h)))
  | none =>
    obtain ⟨q, -, -, -, hwaiting⟩ := hasked.of_none r (mem_finRange r) hr
    rw [h] at hwaiting
    cases hwaiting

lemma ask_ne_unused (h : given r ≠ some .unused) : (rr.ask body given).2 r ≠ .unused := by
  have hasked := asked_ask rr body given
  cases hr : given r with
  | some track =>
    rw [hasked.of_given r (mem_finRange r) track hr]
    exact fun htrack => h (hr.trans (congrArg some htrack))
  | none =>
    obtain ⟨q, -, -, -, hwaiting⟩ := hasked.of_none r (mem_finRange r) hr
    rw [hwaiting]
    exact nofun

/-! ## Arrays with requests of different contents -/

/-- The requests of one array are not erased with those of another. -/
lemma Tracks.cleanup_of_ne (hok : rr.Ok) (ht : Tracks rr t good) (ht' : Tracks rr t' good')
    (hne : ∀ b, good b → ¬ good' b) : Tracks (rr.cleanupRequests t') t good := by
  intro r id hr
  obtain ⟨q, hq, hid, hrep, hgood⟩ := ht r id hr
  have hnot : ¬ t'.Waits q.id := by
    rintro ⟨r', hr'⟩
    obtain ⟨q', hq', hid', -, hgood'⟩ := ht' r' q.id hr'
    rw [hok.eq_of_id_eq hq' hq hid'] at hgood'
    exact hne _ hgood hgood'
  exact ⟨q, mem_filter.2 ⟨hq, decide_eq_true hnot⟩, hid, hrep, hgood⟩

lemma Tracks.erase_of_ne (hok : rr.Ok) (ht : Tracks rr t good) {p : LogsDBRequest}
    (hp : p ∈ rr.requests) (hne : ¬ good p.body) : Tracks (rr.eraseRequest p.id) t good := by
  intro r id hr
  obtain ⟨q, hq, hid, hrep, hgood⟩ := ht r id hr
  have hqp : q.id ≠ p.id := fun h => hne (hok.eq_of_id_eq hq hp h ▸ hgood)
  exact ⟨q, mem_filter.2 ⟨hq, decide_eq_true hqp⟩, hid, hrep, hgood⟩

lemma Tracks.confirm (hok : rr.Ok) (ht : Tracks rr t good) {p : LogsDBRequest}
    (hp : p ∈ rr.requests) :
    Tracks (rr.eraseRequest p.id) (update t p.replicaId .confirmed) good := by
  intro r id hr
  by_cases heq : r = p.replicaId
  · rw [heq, update_self] at hr
    cases hr
  rw [update_of_ne heq] at hr
  obtain ⟨q, hq, hid, hrep, hgood⟩ := ht r id hr
  have hqp : q.id ≠ p.id := fun h => heq (by rw [← hrep, hok.eq_of_id_eq hq hp h])
  exact ⟨q, mem_filter.2 ⟨hq, decide_eq_true hqp⟩, hid, hrep, hgood⟩

lemma Tracks.imp (h : ∀ b, good b → good' b) (ht : Tracks rr t good) : Tracks rr t good' := by
  intro r id hr
  obtain ⟨q, hq, hid, hrep, hgood⟩ := ht r id hr
  exact ⟨q, hq, hid, hrep, h _ hgood⟩

lemma Tracks.exists_request (ht : Tracks rr t good) (hasks : t.Asks) (hnot : ¬ t.IsQuorum) :
    ∃ q ∈ rr.requests, good q.body := by
  obtain ⟨r, id, hr⟩ := hasks.exists_waiting hnot
  obtain ⟨q, hq, -, -, hgood⟩ := ht r id hr
  exact ⟨q, hq, hgood⟩

end ReqResp

/-! ## Slots by their index -/

/-- Every slot has a property that depends on its index, the first of which is given. -/
def EachSlot (P : ℕ → RecoverySlot → Prop) (base : ℕ) (slots : List RecoverySlot) : Prop :=
  ∀ i slot, slots[i]? = some slot → P (base + i) slot

namespace EachSlot

variable {P Q : ℕ → RecoverySlot → Prop} {base : ℕ} {slot : RecoverySlot} {slots : List RecoverySlot}

lemma nil : EachSlot P base [] := by
  intro i slot h
  simp at h

lemma cons_iff : EachSlot P base (slot :: slots) ↔ P base slot ∧ EachSlot P (base + 1) slots := by
  constructor
  · intro h
    refine ⟨h 0 slot rfl, fun i s hs => ?_⟩
    have hs' := h (i + 1) s (by simpa using hs)
    rwa [show base + (i + 1) = base + 1 + i by omega] at hs'
  · rintro ⟨hslot, hrest⟩ i s hs
    cases i with
    | zero =>
      obtain rfl : slot = s := by simpa using hs
      exact hslot
    | succ i =>
      rw [show base + (i + 1) = base + 1 + i by omega]
      exact hrest i s (by simpa using hs)

lemma imp (h : ∀ i slot, base ≤ i → P i slot → Q i slot) (hP : EachSlot P base slots) :
    EachSlot Q base slots :=
  fun i slot hs => h _ _ (by omega) (hP i slot hs)

/-- One slot changes, and the others get another property. -/
lemma set (h : ∀ j slot, j ≠ base + i → P j slot → Q j slot) (hslot : Q (base + i) slot)
    (hP : EachSlot P base slots) : EachSlot Q base (slots.set i slot) := by
  intro j s hs
  rw [getElem?_set] at hs
  split at hs
  · rename_i heq
    subst heq
    split at hs
    · obtain rfl : slot = s := by simpa using hs
      exact hslot
    · cases hs
  · exact h _ _ (by omega) (hP j s hs)

end EachSlot

namespace LogsDB

open ReqResp QuorumTrackArray

variable {cfg : LogsDBConfig} {now : ℕ} {l l' : LogsDB} {rr rr' rr'' : ReqResp} {token : LeaderToken}
  {requestIds : QuorumTrackArray} {base : ℕ} {slots slots' : List RecoverySlot}

/-! ## Reading the entries beyond the release point -/

/-- A slot while entries are digested: an empty one is asked for, the others wait for nothing. -/
structure DigestSlot (rr : ReqResp) (idx : ℕ) (slot : RecoverySlot) : Prop where
  entry_idx : slot.entry.idx = idx
  tracks : Tracks rr slot.requestIds fun b => ∃ token, b = .logRecoveryRead token idx
  asks : slot.entry.value = [] → slot.requestIds.Asks
  idle : slot.entry.value ≠ [] → slot.requestIds.Idle

lemma elects_logRecoveryRead (b : LogReq) (h : ∃ token, b = .logRecoveryRead token idx) :
    b.kind.Elects := by
  obtain ⟨token, rfl⟩ := h
  exact ⟨nofun, nofun, nofun⟩

lemma DigestSlot.mono (h : KeepsElection rr rr') (hslot : DigestSlot rr idx slot) :
    DigestSlot rr' idx slot :=
  { hslot with tracks := hslot.tracks.mono h elects_logRecoveryRead }

lemma participants_ne_waiting (r : ReplicaId) (id : ℕ) :
    participants cfg requestIds r ≠ some (.waiting id) := by
  unfold participants
  split
  · simp
  · split <;> simp

lemma eq_of_participants_eq_confirmed {r : ReplicaId}
    (h : participants cfg requestIds r = some .confirmed) : r = cfg.replicaId := by
  unfold participants at h
  split at h
  · assumption
  · split at h <;> cases h

/-- A quorum that has given its promise is asked. -/
lemma asks_participants {body : LogReq} (h : requestIds.IsQuorum) :
    (rr.ask body (participants cfg requestIds)).2.Asks := by
  refine h.asks_of fun r hr => ask_ne_unused ?_
  unfold participants
  split <;> exact nofun

lemma not_isQuorum_participants {body : LogReq} :
    ¬ (rr.ask body (participants cfg requestIds)).2.IsQuorum :=
  not_isQuorum_of_eq fun _ h =>
    eq_of_ask_eq_confirmed (fun _ => eq_of_participants_eq_confirmed) h

/-- What asking for the empty slots leaves. -/
structure AskedMissing (base : ℕ) (slots : List RecoverySlot) (rr : ReqResp)
    (out : List RecoverySlot × ReqResp) : Prop where
  evolves : Evolves rr out.2
  keeps : KeepsElection rr out.2
  each : EachSlot (DigestSlot out.2) base out.1
  unconfirmed : ∀ slot ∈ out.1, slot.entry.value = [] → ¬ slot.requestIds.IsQuorum
  values : out.1.map (fun slot => slot.entry.value) = slots.map fun slot => slot.entry.value

lemma askedMissing (hquorum : requestIds.IsQuorum) (hok : rr.Ok)
    (hslots : EachSlot (fun idx slot => slot.requestIds.Idle ∧
      (slot.entry.value ≠ [] → slot.entry.idx = idx)) base slots) :
    AskedMissing base slots rr (askMissing cfg requestIds token base slots rr) := by
  induction slots generalizing base rr with
  | nil => exact ⟨.refl rr, .refl rr, .nil, nofun, rfl⟩
  | cons slot rest ih =>
    obtain ⟨⟨hidle, hidx⟩, hrest⟩ := EachSlot.cons_iff.1 hslots
    by_cases hvalue : slot.entry.value = []
    · have hev : Evolves rr (rr.ask (.logRecoveryRead token base) (participants cfg requestIds)).1 :=
        evolves_ask
      have h := ih (hev.ok hok) hrest
      simp only [askMissing, if_pos hvalue]
      refine ⟨hev.trans h.evolves, keepsElection_ask.trans h.keeps,
        EachSlot.cons_iff.2 ⟨⟨rfl, ?_, fun _ => asks_participants hquorum, fun h => absurd hvalue h⟩,
          h.each⟩, ?_, by simp [h.values]⟩
      · exact ((tracks_ask participants_ne_waiting).imp fun b hb => ⟨token, hb⟩).mono h.keeps
          elects_logRecoveryRead
      rintro s hs hs'
      rcases mem_cons.1 hs with rfl | hs
      · exact not_isQuorum_participants
      · exact h.unconfirmed s hs hs'
    · have h := ih hok hrest
      simp only [askMissing, if_neg hvalue]
      refine ⟨h.evolves, h.keeps, EachSlot.cons_iff.2 ⟨⟨hidx hvalue, .of_not_waits hidle,
        fun h => absurd h hvalue, fun _ => hidle⟩, h.each⟩, ?_, by simp [h.values]⟩
      rintro s hs hs'
      rcases mem_cons.1 hs with rfl | hs
      · exact absurd hs' hvalue
      · exact h.unconfirmed s hs hs'

/-- No progress means that the first empty slot is still waited for. -/
lemma exists_of_clearMissing_eq_none (h : clearMissing false slots rr = none) :
    ∃ slot ∈ slots, slot.entry.value = [] ∧ ¬ slot.requestIds.IsQuorum := by
  have htrue : ∀ (slots : List RecoverySlot) (rr : ReqResp), (clearMissing true slots rr).isSome := by
    intro slots
    induction slots with
    | nil => exact fun _ => rfl
    | cons slot rest ih =>
      intro rr
      unfold clearMissing
      split
      · obtain ⟨out, hout⟩ := isSome_iff_exists.1 (ih (rr.cleanupRequests slot.requestIds))
        simp [hout]
      · obtain ⟨out, hout⟩ := isSome_iff_exists.1 (ih rr)
        simp [hout]
  induction slots with
  | nil => cases h
  | cons slot rest ih =>
    unfold clearMissing at h
    split at h
    · rename_i hvalue
      split at h
      · obtain ⟨out, hout⟩ :=
          isSome_iff_exists.1 (htrue rest (rr.cleanupRequests slot.requestIds))
        simp [hout] at h
      · rename_i hnot
        exact ⟨slot, mem_cons_self .., hvalue, fun hq => hnot (.inr hq)⟩
    · cases hrest : clearMissing false rest rr with
      | none =>
        obtain ⟨s, hs, hs'⟩ := ih hrest
        exact ⟨s, mem_cons_of_mem _ hs, hs'⟩
      | some => simp [hrest] at h

/-- Once there is progress nothing is waited for. -/
lemma clearMissing_spec {b : Bool} (hslots : EachSlot (DigestSlot rr') base slots)
    (h : clearMissing b slots rr = some (slots', rr'')) :
    Evolves rr rr'' ∧
      EachSlot (fun idx slot => slot.entry.idx = idx ∧ slot.requestIds.Idle) base slots' := by
  induction slots generalizing b base rr slots' with
  | nil =>
    cases h
    exact ⟨.refl _, .nil⟩
  | cons slot rest ih =>
    obtain ⟨hslot, hrest⟩ := EachSlot.cons_iff.1 hslots
    unfold clearMissing at h
    split at h
    · split at h
      · simp only [bind_eq_some] at h
        obtain ⟨⟨rest', rr₁⟩, hout, ⟨⟩⟩ := h
        obtain ⟨hev, heach⟩ := ih hrest hout
        exact ⟨(evolves_cleanupRequests _).trans hev,
          EachSlot.cons_iff.2 ⟨⟨hslot.entry_idx, not_waits_cleanup _⟩, heach⟩⟩
      · cases h
    · rename_i hvalue
      simp only [bind_eq_some] at h
      obtain ⟨⟨rest', rr₁⟩, hout, ⟨⟩⟩ := h
      obtain ⟨hev, heach⟩ := ih hrest hout
      exact ⟨hev, EachSlot.cons_iff.2 ⟨⟨hslot.entry_idx, hslot.idle hvalue⟩, heach⟩⟩

/-! ## Writing them to a quorum -/

/-- The content of a write for an index. -/
def WritesIdx (idx : ℕ) (b : LogReq) : Prop := ∃ token value, b = .logRecoveryWrite token idx value

lemma WritesIdx.elects (b : LogReq) (h : WritesIdx idx b) : b.kind.Elects := by
  obtain ⟨token, value, rfl⟩ := h
  exact ⟨nofun, nofun, nofun⟩

lemma WritesIdx.ne {j : ℕ} (hne : i ≠ j) (b : LogReq) (h : WritesIdx i b) : ¬ WritesIdx j b := by
  obtain ⟨token, value, rfl⟩ := h
  rintro ⟨token', value', heq⟩
  cases heq
  exact hne rfl

/-- The slots before the first hole have been written to a quorum or are being written to one.  The
others wait for nothing. -/
def SlotsSound : List RecoverySlot → Prop
  | [] => True
  | slot :: rest =>
    if slot.entry.value = [] then ∀ s ∈ slot :: rest, s.requestIds.Idle
    else (slot.requestIds.IsQuorum ∨ slot.requestIds.Asks) ∧ SlotsSound rest

/-- There is a slot before the first hole that has not been written to a quorum. -/
def SlotsPending : List RecoverySlot → Prop
  | [] => False
  | slot :: rest => slot.entry.value ≠ [] ∧ (¬ slot.requestIds.IsQuorum ∨ SlotsPending rest)

lemma exists_of_slotsPending (hsound : SlotsSound slots) (hpending : SlotsPending slots) :
    ∃ (i : ℕ) (slot : RecoverySlot), slots[i]? = some slot ∧ slot.requestIds.Asks ∧
      ¬ slot.requestIds.IsQuorum := by
  induction slots with
  | nil => exact hpending.elim
  | cons slot rest ih =>
    obtain ⟨hvalue, hpending⟩ := hpending
    rw [SlotsSound, if_neg hvalue] at hsound
    by_cases hquorum : slot.requestIds.IsQuorum
    · obtain ⟨i, s, hs, hs'⟩ := ih hsound.2 (hpending.resolve_left fun h => h hquorum)
      exact ⟨i + 1, s, by simpa using hs, hs'⟩
    · exact ⟨0, slot, rfl, hsound.1.resolve_left hquorum, hquorum⟩

/-- What sending the writes leaves. -/
structure SentWrites (base : ℕ) (slots : List RecoverySlot) (rr : ReqResp)
    (out : List RecoverySlot × ReqResp × List LogsDBLogEntry) : Prop where
  evolves : Evolves rr out.2.1
  keeps : KeepsElection rr out.2.1
  each : EachSlot (fun idx slot => Tracks out.2.1 slot.requestIds (WritesIdx idx)) base out.1
  sound : SlotsSound out.1
  pending : out.2.2 ≠ [] → SlotsPending out.1

lemma sentWrites (hquorum : requestIds.IsQuorum) (hok : rr.Ok)
    (hslots : EachSlot (fun idx slot => slot.entry.idx = idx ∧ slot.requestIds.Idle) base slots) :
    SentWrites base slots rr (sendWrites cfg requestIds token slots rr) := by
  induction slots generalizing base rr with
  | nil => exact ⟨.refl rr, .refl rr, .nil, trivial, fun h => absurd rfl h⟩
  | cons slot rest ih =>
    obtain ⟨⟨hidx, hidle⟩, hrest⟩ := EachSlot.cons_iff.1 hslots
    by_cases hvalue : slot.entry.value = []
    · simp only [sendWrites, if_pos hvalue]
      refine ⟨.refl rr, .refl rr, hslots.imp fun _ _ _ h => .of_not_waits h.2, ?_,
        fun h => absurd rfl h⟩
      rw [SlotsSound, if_pos hvalue]
      intro s hs
      obtain ⟨i, hi⟩ := mem_iff_getElem?.1 hs
      exact (hslots i s hi).2
    · have hev : Evolves rr (rr.ask (.logRecoveryWrite token slot.entry.idx slot.entry.value)
          (participants cfg requestIds)).1 := evolves_ask
      have h := ih (hev.ok hok) hrest
      simp only [sendWrites, if_neg hvalue]
      refine ⟨hev.trans h.evolves, keepsElection_ask.trans h.keeps,
        EachSlot.cons_iff.2 ⟨?_, h.each⟩, ?_, fun _ => ⟨hvalue, .inl not_isQuorum_participants⟩⟩
      · exact ((tracks_ask participants_ne_waiting).imp fun b hb => ⟨token, _, hidx ▸ hb⟩).mono
          h.keeps WritesIdx.elects
      · rw [SlotsSound, if_neg hvalue]
        exact ⟨.inr (asks_participants hquorum), h.sound⟩

/-- What going over the answers to the writes leaves. -/
structure Replicated (base : ℕ) (rr : ReqResp) (out : Bool × ℕ × List RecoverySlot × ReqResp) :
    Prop where
  evolves : Evolves rr out.2.2.2
  each : EachSlot (fun idx slot => Tracks out.2.2.2 slot.requestIds (WritesIdx idx)) base out.2.2.1
  sound : SlotsSound out.2.2.1
  pending : out.1 = false → SlotsPending out.2.2.1

lemma replicated (hok : rr.Ok)
    (hslots : EachSlot (fun idx slot => Tracks rr slot.requestIds (WritesIdx idx)) base slots)
    (hsound : SlotsSound slots) : Replicated base rr (confirmReplicated lastReleased slots rr) := by
  induction slots generalizing base rr lastReleased with
  | nil => exact ⟨.refl rr, .nil, trivial, nofun⟩
  | cons slot rest ih =>
    obtain ⟨hslot, hrest⟩ := EachSlot.cons_iff.1 hslots
    by_cases hvalue : slot.entry.value = []
    · simp only [confirmReplicated, if_pos hvalue]
      exact ⟨.refl rr, hslots, hsound, nofun⟩
    by_cases hquorum : slot.requestIds.IsQuorum
    · have hsound' := hsound
      rw [SlotsSound, if_neg hvalue] at hsound'
      have hrest' : EachSlot (fun idx s => Tracks (rr.cleanupRequests slot.requestIds) s.requestIds
          (WritesIdx idx)) (base + 1) rest :=
        hrest.imp fun i s hi hs => hs.cleanup_of_ne hok hslot (WritesIdx.ne (by omega))
      have hev : Evolves rr (rr.cleanupRequests slot.requestIds) := evolves_cleanupRequests _
      have h : Replicated (base + 1) (rr.cleanupRequests slot.requestIds)
          (confirmReplicated slot.entry.idx rest (rr.cleanupRequests slot.requestIds)) :=
        ih (hev.ok hok) hrest' hsound'.2
      simp only [confirmReplicated, if_neg hvalue, if_neg (not_not.2 hquorum)]
      refine ⟨hev.trans h.evolves, EachSlot.cons_iff.2
        ⟨.of_not_waits (not_waits_cleanup _), h.each⟩, ?_, fun hout => ⟨hvalue, .inr (h.pending hout)⟩⟩
      rw [SlotsSound, if_neg hvalue]
      exact ⟨.inl (hquorum.mono fun r hr => cleanup_eq_confirmed_iff.2 hr), h.sound⟩
    · simp only [confirmReplicated, if_neg hvalue, if_pos hquorum]
      exact ⟨.refl rr, hslots, hsound, fun _ => ⟨hvalue, .inl hquorum⟩⟩

/-! ## The phases -/

/-- Promises are collected. -/
structure NomineePhase (rr : ReqResp) (es : LeaderElectionState) : Prop where
  tracks : Tracks rr es.requestIds fun b => b.kind = .newLeader
  asks : es.requestIds.Asks
  unconfirmed : ¬ es.requestIds.IsQuorum
  slots : es.slots = replicate inFlightAppendWindow {}

/-- A quorum has given its promise, and its entries are digested. -/
structure Digesting (rr : ReqResp) (es : LeaderElectionState) : Prop where
  quorum : es.requestIds.IsQuorum
  idle : es.requestIds.Idle
  each : EachSlot (DigestSlot rr) (es.lastReleased + 1) es.slots

/-- Entries are read. -/
structure DigestPhase (rr : ReqResp) (es : LeaderElectionState) : Prop extends Digesting rr es where
  hole : ∃ slot ∈ es.slots, slot.entry.value = [] ∧ ¬ slot.requestIds.IsQuorum

/-- The entries have been read and are written to the quorum. -/
structure Replicating (rr : ReqResp) (es : LeaderElectionState) : Prop where
  quorum : es.requestIds.IsQuorum
  idle : es.requestIds.Idle
  each : EachSlot (fun idx slot => Tracks rr slot.requestIds (WritesIdx idx)) (es.lastReleased + 1)
    es.slots
  sound : SlotsSound es.slots

/-- Entries are written. -/
structure ReplicationPhase (rr : ReqResp) (es : LeaderElectionState) : Prop
    extends Replicating rr es where
  pending : SlotsPending es.slots

/-- Confirmations are collected. -/
structure ConfirmPhase (rr : ReqResp) (es : LeaderElectionState) : Prop where
  tracks : Tracks rr es.requestIds fun b => b.kind = .newLeaderConfirm
  asks : es.requestIds.Asks
  unconfirmed : ¬ es.requestIds.IsQuorum

/-- The election waits for what its state says. -/
def PhaseOk (rr : ReqResp) : LeadershipState → Option LeaderElectionState → Prop
  | .becomingNominee, some es => NomineePhase rr es
  | .digestingEntries, some es => DigestPhase rr es
  | .confirmingReplication, some es => ReplicationPhase rr es
  | .confirmingLeadership, some es => ConfirmPhase rr es
  | .follower, _ => True
  | .leader, _ => True
  | _, none => False

variable {s : LeadershipState}

lemma PhaseOk.of_not_elects (h : ¬ s.Elects) (es : Option LeaderElectionState) :
    PhaseOk rr s es := by
  cases s with
  | follower | leader => trivial
  | _ => exact absurd ⟨nofun, nofun⟩ h

/-- A phase depends on the requests of the election alone. -/
lemma PhaseOk.mono {es : Option LeaderElectionState}
    (h : KeepsElection rr rr') (hphase : PhaseOk rr s es) : PhaseOk rr' s es := by
  cases es with
  | none => cases s <;> exact hphase
  | some =>
    cases s with
    | follower | leader => trivial
    | becomingNominee | confirmingLeadership =>
      exact { hphase with tracks := hphase.tracks.mono h fun b hb => hb ▸ ⟨nofun, nofun, nofun⟩ }
    | digestingEntries =>
      exact ⟨{ hphase.toDigesting with each := hphase.each.imp fun _ _ _ hslot => hslot.mono h },
        hphase.hole⟩
    | confirmingReplication =>
      exact ⟨{ hphase.toReplicating with
        each := hphase.each.imp fun _ _ _ hslot => hslot.mono h WritesIdx.elects }, hphase.pending⟩

/-- The requests of a replica are in order and its election waits for what its state says. -/
structure ElectionOk (l : LogsDB) : Prop where
  requests : l.RequestsOk
  phase : PhaseOk l.reqResp l.election.state l.election.electionState

lemma ElectionOk.phase_of (hl : l.ElectionOk) (hstate : l.election.state = s)
    (hes : l.election.electionState = some es) : PhaseOk l.reqResp s (some es) :=
  hstate ▸ hes ▸ hl.phase

lemma ElectionOk.of_harmless (h : Harmless l l') (hl : l.ElectionOk) : l'.ElectionOk := by
  rcases h with hquiet | ⟨hok, hstate⟩
  · refine ⟨hquiet.requestsOk hl.requests, ?_⟩
    rw [hquiet.state, hquiet.electionState]
    exact hl.phase.mono (hquiet.keeps hl.requests)
  · exact ⟨hok hl.requests, .of_not_elects hstate _⟩

/-! ## From one phase to the next -/

lemma orderly_tryBecomeLeader (h : l.tryBecomeLeader cfg now = some l') : Orderly l l' := by
  unfold tryBecomeLeader at h
  split at h
  · cases h
  split at h
  · cases h
    exact .of_evolves (.refl _) rfl rfl
  split at h
  · split at h
    · rename_i l₁ hup
      cases h
      have hlead : Orderly l { l with election.state := .leader } := .of_evolves (.refl _) rfl rfl
      exact (hlead.trans (orderly_updateLeaderToken hup)).trans (orderly_clearElectionState now)
    · cases h
  · cases h

/-- The nominee has become the leader, or still waits for a quorum. -/
lemma electionOk_tryBecomeLeader (h : l.tryBecomeLeader cfg now = some l')
    (hes : l.election.electionState = some es) (hl : l.RequestsOk)
    (hphase : ¬ es.requestIds.IsQuorum → PhaseOk l.reqResp l.election.state (some es)) :
    l'.ElectionOk := by
  refine ⟨(orderly_tryBecomeLeader h).requestsOk hl, ?_⟩
  obtain ⟨es', hes', ⟨hquorum, rfl⟩ | ⟨-, -, -, hrole⟩⟩ := role_tryBecomeLeader h
  · obtain rfl : es = es' := mem_unique hes hes'
    rw [hes]
    exact hphase hquorum
  · have hstate : l'.election.state = .leader := congrArg LogsDBRole.state hrole
    rw [hstate]
    trivial

lemma electionOk_maybeStartLeaderElection (hl : l.ElectionOk)
    (h : l.maybeStartLeaderElection cfg now = some l') : l'.ElectionOk := by
  have hall : QuorumTrackArray.IsQuorum fun _ => .confirmed := by decide
  unfold maybeStartLeaderElection at h
  split at h
  · cases h
    exact hl
  split at h
  · refine electionOk_tryBecomeLeader h rfl ?_ fun hquorum => absurd hall hquorum
    exact Orderly.requestsOk (l := l) (.of_evolves (.refl _) rfl rfl) hl.requests
  cases h
  have hgiven : ∀ r id, (if r = cfg.replicaId then some Track.confirmed else none) ≠
      some (.waiting id) := given_ne_waiting _
  refine ⟨?_, ⟨?_, ?_, ?_, rfl⟩⟩
  · exact Orderly.requestsOk (l := l) (.of_evolves evolves_ask rfl rfl) hl.requests
  · exact (tracks_ask hgiven).imp fun b hb => by rw [hb]; rfl
  · refine hall.asks_of fun r _ => ask_ne_unused ?_
    split <;> exact nofun
  refine not_isQuorum_of_eq (r := cfg.replicaId) fun r hr => ?_
  refine eq_of_ask_eq_confirmed (fun r' hr' => ?_) hr
  by_contra hne
  rw [if_neg hne] at hr'
  cases hr'

/-- The local entries that are digested leave a hole in the window. -/
def LeavesHole (data : DataPartitions) (lastReleased : ℕ) : Prop :=
  ∃ k < inFlightAppendWindow, ∀ e ∈ localEntries data lastReleased,
    e.idx = lastReleased + 1 + k → e.value = []

instance (data : DataPartitions) (lastReleased : ℕ) : Decidable (LeavesHole data lastReleased) :=
  inferInstanceAs (Decidable (∃ k < inFlightAppendWindow, _))

variable {entries : List LogsDBLogEntry}

lemma requestIds_of_fillSlots (h : fillSlots lastReleased slots entries = some slots') (i : ℕ) :
    (slots'[i]?).map RecoverySlot.requestIds = (slots[i]?).map RecoverySlot.requestIds := by
  refine foldlM_invariant (motive := fun slots₁ => (slots₁[i]?).map RecoverySlot.requestIds = _)
    (fun slots₁ e _ slots₂ hslots₁ hfill => ?_) rfl h
  unfold fillSlot at hfill
  split_ifs at hfill with hbounds
  obtain rfl := some.inj hfill
  rw [← hslots₁, getElem?_modify, Option.map_eq_map, Option.map_map]
  congr 1
  funext slot
  split <;> rfl

lemma eachSlot_of_fillSlots
    (h : fillSlots lastReleased (replicate inFlightAppendWindow {}) entries = some slots) :
    EachSlot (fun idx slot => slot.requestIds.Idle ∧ (slot.entry.value ≠ [] → slot.entry.idx = idx))
      (lastReleased + 1) slots := by
  intro i slot hi
  constructor
  · have hids := requestIds_of_fillSlots h i
    rw [hi] at hids
    obtain ⟨slot₀, hslot₀, hids⟩ := map_eq_some_iff.1 hids.symm
    rw [← hids, eq_of_mem_replicate (mem_of_getElem? hslot₀)]
    exact idle_confirmed
  · intro hvalue
    rcases entry_of_fillSlots h i with ⟨e, -, hidx, hentry⟩ | ⟨-, hentry⟩
    · rw [hi] at hentry
      rw [some.inj hentry, hidx]
    rw [hi] at hentry
    obtain ⟨slot₀, hslot₀, heq⟩ := map_eq_some_iff.1 hentry.symm
    rw [eq_of_mem_replicate (mem_of_getElem? hslot₀)] at heq
    exact absurd (heq ▸ rfl) hvalue

lemma exists_hole_of_fillSlots {data : DataPartitions} (hhole : LeavesHole data lastReleased)
    (h : fillSlots lastReleased (replicate inFlightAppendWindow {})
      (localEntries data lastReleased) = some slots) :
    [] ∈ slots.map fun slot => slot.entry.value := by
  obtain ⟨k, hk, hempty⟩ := hhole
  have hvalue : (slots[k]?).map (fun slot => slot.entry.value) = some [] := by
    rcases entry_of_fillSlots h k with ⟨e, he, hidx, hentry⟩ | ⟨-, hentry⟩
    · obtain ⟨slot, hslot, rfl⟩ := map_eq_some_iff.1 hentry
      rw [hslot, map_some, hempty _ he hidx]
    · rw [getElem?_replicate, if_pos hk] at hentry
      obtain ⟨slot, hslot, heq⟩ := map_eq_some_iff.1 hentry
      rw [hslot, map_some, heq]
  obtain ⟨slot, hslot, hslot'⟩ := map_eq_some_iff.1 hvalue
  exact mem_map.2 ⟨slot, mem_of_getElem? hslot, hslot'⟩

lemma electionOk_tryProgressToDigest (h : l.tryProgressToDigest cfg = some l')
    (hes : l.election.electionState = some es) (hl : l.RequestsOk)
    (hstate : l.election.state = .becomingNominee)
    (htracks : Tracks l.reqResp es.requestIds fun b => b.kind = .newLeader)
    (hasks : es.requestIds.Asks) (hslots : es.slots = replicate inFlightAppendWindow {})
    (hhole : es.requestIds.IsQuorum → LeavesHole l.data es.lastReleased) : l'.ElectionOk := by
  simp only [tryProgressToDigest, bind_eq_some] at h
  obtain ⟨es', hes', h⟩ := h
  obtain rfl : es = es' := mem_unique hes hes'
  split at h
  · rename_i hquorum
    cases h
    refine ⟨hl, ?_⟩
    rw [hstate, hes]
    exact ⟨htracks, hasks, hquorum, hslots⟩
  · rename_i hquorum
    rw [not_not] at hquorum
    simp only [bind_eq_some] at h
    obtain ⟨l₁, hl₁, -, -, slots, hfill, ⟨⟩⟩ := h
    have hrr : l₁.reqResp = l.reqResp.cleanupRequests es.requestIds ∧ l₁.data = l.data ∧
        l₁.appender = l.appender ∧ l₁.catchupReader = l.catchupReader ∧
        l₁.election.state = .digestingEntries := by
      unfold setLastReleased at hl₁
      split at hl₁
      · cases hl₁
        exact ⟨rfl, rfl, rfl, rfl, rfl⟩
      · cases hl₁
    obtain ⟨hrr, hdata, happender, hcatchup, hstate₁⟩ := hrr
    rw [hslots, hdata] at hfill
    have hcleaned : es.requestIds.cleanup.IsQuorum :=
      hquorum.mono fun r hr => cleanup_eq_confirmed_iff.2 hr
    have hev : Evolves l.reqResp l₁.reqResp := hrr ▸ evolves_cleanupRequests _
    have hasked : AskedMissing (es.lastReleased + 1) slots l₁.reqResp (askMissing cfg
        es.requestIds.cleanup l₁.metadata.nomineeToken (es.lastReleased + 1) slots l₁.reqResp) :=
      askedMissing hcleaned (hev.ok hl.ok) (eachSlot_of_fillSlots hfill)
    refine ⟨Orderly.requestsOk (l := l)
      (.of_evolves (hev.trans hasked.evolves) happender hcatchup) hl, ?_⟩
    rw [hstate₁]
    refine ⟨⟨hcleaned, not_waits_cleanup _, hasked.each⟩, ?_⟩
    have hempty := exists_hole_of_fillSlots (hhole hquorum) hfill
    rw [← hasked.values] at hempty
    obtain ⟨slot, hslot, hvalue⟩ := mem_map.1 hempty
    exact ⟨slot, hslot, hvalue, hasked.unconfirmed slot hslot hvalue⟩

/-- The elements of the array for the confirmation. -/
lemma confirmers_ne_waiting (r : ReplicaId) (id : ℕ) :
    confirmers cfg requestIds r ≠ some (.waiting id) := by
  unfold confirmers
  split
  · exact nofun
  · split <;> exact nofun

lemma eq_of_confirmers_eq_confirmed {r : ReplicaId}
    (h : confirmers cfg requestIds r = some .confirmed) : r = cfg.replicaId := by
  unfold confirmers at h
  split at h
  · assumption
  · split at h <;> cases h

lemma confirmPhase_ask {slots : List RecoverySlot} (h : es.requestIds.IsQuorum) :
    ConfirmPhase (rr.ask (.newLeaderConfirm token lastReleased) (confirmers cfg es.requestIds)).1
      { es with
        requestIds := (rr.ask (.newLeaderConfirm token lastReleased)
          (confirmers cfg es.requestIds)).2
        slots := slots } where
  tracks := (tracks_ask confirmers_ne_waiting).imp fun b hb => by rw [hb]; rfl
  asks := by
    refine h.asks_of fun r hr => ask_ne_unused ?_
    unfold confirmers
    rw [if_neg (show es.requestIds r ≠ .unused by rw [hr]; exact nofun)]
    split <;> exact nofun
  unconfirmed := not_isQuorum_of_eq fun _ hr =>
    eq_of_ask_eq_confirmed (fun _ => eq_of_confirmers_eq_confirmed) hr

lemma electionOk_tryProgressToLeaderConfirm (h : l.tryProgressToLeaderConfirm cfg = some l')
    (hes : l.election.electionState = some es) (hl : l.RequestsOk)
    (hstate : l.election.state = .confirmingReplication) (hphase : Replicating l.reqResp es) :
    l'.ElectionOk := by
  simp only [tryProgressToLeaderConfirm, bind_eq_some] at h
  obtain ⟨es', hes', l₁, hl₁, h⟩ := h
  obtain rfl : es = es' := mem_unique hes hes'
  have hout : Replicated (es.lastReleased + 1) l.reqResp
      (confirmReplicated es.lastReleased es.slots l.reqResp) :=
    replicated hl.ok hphase.each hphase.sound
  have hquiet := quiet_setLastReleased hl₁
  have hrr : l₁.reqResp = (confirmReplicated es.lastReleased es.slots l.reqResp).2.2.2 :=
    reqResp_setLastReleased hl₁
  have horderly : Orderly l l₁ := by
    refine Orderly.trans ?_ hquiet.toOrderly
    exact .of_evolves hout.evolves rfl rfl
  split at h <;> cases h
  · exact ⟨Orderly.requestsOk (l := l₁) (.of_evolves evolves_ask rfl rfl) (horderly.requestsOk hl),
      confirmPhase_ask hphase.quorum⟩
  rename_i hfalse
  refine ⟨horderly.requestsOk hl, ?_⟩
  rw [hquiet.state, hquiet.electionState, hstate, hrr]
  exact ⟨⟨hphase.quorum, hphase.idle, hout.each, hout.sound⟩,
    hout.pending (Bool.eq_false_iff.2 hfalse)⟩

lemma electionOk_tryProgressToReplication (h : l.tryProgressToReplication cfg now = some l')
    (hes : l.election.electionState = some es) (hl : l.RequestsOk)
    (hstate : l.election.state = .digestingEntries) (hphase : Digesting l.reqResp es) :
    l'.ElectionOk := by
  simp only [tryProgressToReplication, bind_eq_some] at h
  obtain ⟨es', hes', h⟩ := h
  obtain rfl : es = es' := mem_unique hes hes'
  split at h
  · rename_i hnone
    cases h
    refine ⟨hl, ?_⟩
    rw [hstate, hes]
    exact ⟨hphase, exists_of_clearMissing_eq_none hnone⟩
  · rename_i slots rr hclear
    obtain ⟨hev, heach⟩ := clearMissing_spec hphase.each hclear
    have hout : SentWrites (es.lastReleased + 1) slots rr
        (sendWrites cfg es.requestIds l.metadata.nomineeToken slots rr) :=
      sentWrites hphase.quorum (hev.ok hl.ok) heach
    have horderly := hev.trans hout.evolves
    split at h
    · refine electionOk_tryProgressToLeaderConfirm h rfl ?_ rfl
        ⟨hphase.quorum, hphase.idle, hout.each, hout.sound⟩
      exact Orderly.requestsOk (l := l) (.of_evolves horderly rfl rfl) hl
    rename_i hne
    cases h
    exact ⟨Orderly.requestsOk (l := l) (.of_evolves horderly rfl rfl) hl,
      ⟨hphase.quorum, hphase.idle, hout.each, hout.sound⟩, hout.pending hne⟩

/-! ## Answers -/

variable {request : LogsDBRequest} {result : Option LogError}

lemma electionOk_processNewLeaderResponse (hl : l.ElectionOk) (hmem : request ∈ l.reqResp.requests)
    (hhole : ∀ es, result = none → l.election.electionState = some es →
      IsQuorum (update es.requestIds request.replicaId .confirmed) →
        LeavesHole l.data (max es.lastReleased lastReleased))
    (h : l.processNewLeaderResponse cfg now request result lastReleased = some l') :
    l'.ElectionOk := by
  simp only [processNewLeaderResponse, bind_eq_some, guard_eq_some'] at h
  obtain ⟨-, hstate, es, hes, -, -, h⟩ := h
  have hphase : NomineePhase l.reqResp es := hl.phase_of hstate hes
  split at h
  · refine electionOk_tryProgressToDigest h rfl ?_ hstate (hphase.tracks.confirm hl.requests.ok hmem)
      (hphase.asks.confirm _) hphase.slots (hhole es rfl hes)
    exact Orderly.requestsOk (l := l) (.of_evolves (evolves_eraseRequest _) rfl rfl) hl.requests
  · cases h
    exact hl.of_harmless harmless_resetLeaderElection
  · cases h
    exact hl

lemma electionOk_processNewLeaderConfirmResponse (hl : l.ElectionOk)
    (hmem : request ∈ l.reqResp.requests)
    (h : l.processNewLeaderConfirmResponse cfg now request result = some l') : l'.ElectionOk := by
  simp only [processNewLeaderConfirmResponse, bind_eq_some, guard_eq_some'] at h
  obtain ⟨-, hstate, es, hes, -, -, h⟩ := h
  have hphase : ConfirmPhase l.reqResp es := hl.phase_of hstate hes
  split at h
  · refine electionOk_tryBecomeLeader h rfl ?_ fun hquorum => ?_
    · exact Orderly.requestsOk (l := l) (.of_evolves (evolves_eraseRequest _) rfl rfl) hl.requests
    · rw [hstate]
      exact ⟨hphase.tracks.confirm hl.requests.ok hmem, hphase.asks.confirm _, hquorum⟩
  · cases h
    exact hl.of_harmless harmless_resetLeaderElection
  · cases h
    exact hl

/-- The slot of an answer, by its index. -/
lemma waitingSlot_spec (h : waitingSlot es request idx = some slot) :
    es.lastReleased + 1 + (idx - es.lastReleased - 1) = idx ∧
      es.slots[idx - es.lastReleased - 1]? = some slot ∧
      slot.requestIds request.replicaId = .waiting request.id := by
  simp only [waitingSlot, bind_eq_some, guard_eq_some'] at h
  obtain ⟨-, hlt, slot', hslot, -, hwaits, ⟨⟩⟩ := h
  exact ⟨by omega, hslot, hwaits⟩

lemma electionOk_noteRecoveryRead {value : Bytes} (hl : l.ElectionOk)
    (hmem : request ∈ l.reqResp.requests)
    (hbody : ∃ token, request.body = .logRecoveryRead token idx)
    (hstate : l.election.state = .digestingEntries) (hes : l.election.electionState = some es)
    (h : l.noteRecoveryRead cfg now es request idx value = some l') : l'.ElectionOk := by
  simp only [noteRecoveryRead, bind_eq_some] at h
  obtain ⟨slot, hslot, h⟩ := h
  have hphase : DigestPhase l.reqResp es := hl.phase_of hstate hes
  obtain ⟨hidx, hget, hwaits⟩ := waitingSlot_spec hslot
  have hat : DigestSlot l.reqResp idx slot := by
    have hat := hphase.each _ _ hget
    rwa [hidx] at hat
  have hne : ∀ {j : ℕ}, j ≠ es.lastReleased + 1 + (idx - es.lastReleased - 1) → ∀ b : LogReq,
      (∃ token, b = .logRecoveryRead token j) → ¬ ∃ token, b = .logRecoveryRead token idx := by
    rintro j hj b ⟨token, rfl⟩ ⟨token', heq⟩
    cases heq
    exact hj hidx.symm
  split at h
  · rename_i hvalue
    refine electionOk_tryProgressToReplication h rfl ?_ hstate ⟨hphase.quorum, hphase.idle, ?_⟩
    · exact Orderly.requestsOk (l := l) (.of_evolves (evolves_cleanupRequests _) rfl rfl) hl.requests
    refine hphase.each.set (fun j s hj hs => { hs with
      tracks := hs.tracks.cleanup_of_ne hl.requests.ok hat.tracks (hne hj) }) ?_
    exact ⟨hat.entry_idx.trans hidx.symm, .of_not_waits (not_waits_cleanup _),
      fun h => absurd h hvalue, fun _ => not_waits_cleanup _⟩
  · refine electionOk_tryProgressToReplication h rfl ?_ hstate ⟨hphase.quorum, hphase.idle, ?_⟩
    · exact Orderly.requestsOk (l := l) (.of_evolves (evolves_eraseRequest _) rfl rfl) hl.requests
    refine hphase.each.set (fun j s hj hs => { hs with
      tracks := hs.tracks.erase_of_ne hl.requests.ok hmem fun hj' => hne hj _ hj' hbody }) ?_
    rw [hidx]
    exact ⟨hat.entry_idx, hat.tracks.confirm hl.requests.ok hmem,
      fun hvalue => (hat.asks hvalue).confirm _,
      fun hvalue => absurd ⟨_, hwaits⟩ (hat.idle hvalue request.id)⟩

lemma electionOk_processRecoveryReadResponse {value : Bytes} (hl : l.ElectionOk)
    (hmem : request ∈ l.reqResp.requests)
    (hbody : ∃ token, request.body = .logRecoveryRead token idx)
    (h : l.processRecoveryReadResponse cfg now request idx result value = some l') :
    l'.ElectionOk := by
  simp only [processRecoveryReadResponse, bind_eq_some, guard_eq_some'] at h
  obtain ⟨-, hstate, es, hes, h⟩ := h
  split at h
  · exact electionOk_noteRecoveryRead hl hmem hbody hstate hes h
  · exact electionOk_noteRecoveryRead hl hmem hbody hstate hes h
  · cases h
    exact hl.of_harmless harmless_resetLeaderElection
  · cases h
    exact hl

/-- A change of a slot that leaves its value leaves the first hole where it is. -/
lemma SlotsSound.set {slot' : RecoverySlot} (hsound : SlotsSound slots)
    (hslot : slots[i]? = some slot) (hvalue : slot'.entry.value = slot.entry.value)
    (hidle : slot.requestIds.Idle → slot'.requestIds.Idle)
    (hasks : slot.requestIds.IsQuorum ∨ slot.requestIds.Asks →
      slot'.requestIds.IsQuorum ∨ slot'.requestIds.Asks) : SlotsSound (slots.set i slot') := by
  induction slots generalizing i with
  | nil => trivial
  | cons head rest ih =>
    by_cases hempty : head.entry.value = []
    · rw [SlotsSound, if_pos hempty] at hsound
      have hall : ∀ s ∈ (head :: rest).set i slot', s.requestIds.Idle := by
        intro s hs
        rcases mem_or_eq_of_mem_set hs with hs | rfl
        · exact hsound s hs
        · exact hidle (hsound slot (mem_of_getElem? hslot))
      cases i with
      | zero =>
        obtain rfl : head = slot := by simpa using hslot
        rwa [set_cons_zero, SlotsSound, if_pos (hvalue.trans hempty)]
      | succ => rwa [set_cons_succ, SlotsSound, if_pos hempty]
    · rw [SlotsSound, if_neg hempty] at hsound
      cases i with
      | zero =>
        obtain rfl : head = slot := by simpa using hslot
        rw [set_cons_zero, SlotsSound, if_neg (hvalue ▸ hempty)]
        exact ⟨hasks hsound.1, hsound.2⟩
      | succ =>
        rw [set_cons_succ, SlotsSound, if_neg hempty]
        exact ⟨hsound.1, ih hsound.2 (by simpa using hslot)⟩

lemma electionOk_processRecoveryWriteResponse (hl : l.ElectionOk)
    (hmem : request ∈ l.reqResp.requests) (hbody : WritesIdx idx request.body)
    (h : l.processRecoveryWriteResponse cfg now request idx result = some l') : l'.ElectionOk := by
  simp only [processRecoveryWriteResponse, bind_eq_some, guard_eq_some'] at h
  obtain ⟨-, hstate, es, hes, h⟩ := h
  have hphase : ReplicationPhase l.reqResp es := hl.phase_of hstate hes
  split at h
  · simp only [bind_eq_some] at h
    obtain ⟨slot, hslot, h⟩ := h
    obtain ⟨hidx, hget, -⟩ := waitingSlot_spec hslot
    refine electionOk_tryProgressToLeaderConfirm h rfl ?_ hstate
      ⟨hphase.quorum, hphase.idle, ?_, ?_⟩
    · exact Orderly.requestsOk (l := l) (.of_evolves (evolves_eraseRequest _) rfl rfl) hl.requests
    · refine hphase.each.set (fun j s hj hs => ?_) ?_
      · exact hs.erase_of_ne hl.requests.ok hmem (WritesIdx.ne (hidx ▸ hj.symm) _ hbody)
      · exact (hphase.each _ _ hget).confirm hl.requests.ok hmem
    · exact hphase.sound.set hget rfl (·.confirm _) (·.imp (·.confirm _) (·.confirm _))
  · cases h
    exact hl.of_harmless harmless_resetLeaderElection
  · cases h
    exact hl

/-- The answer that completes a quorum of promises finds a hole in the local entries. -/
def DigestsHole (l : LogsDB) : Op → Prop
  | .response _ ⟨r, _, .newLeader none lastReleased⟩ =>
    ∀ es ∈ l.election.electionState, IsQuorum (update es.requestIds r .confirmed) →
        LeavesHole l.data (max es.lastReleased lastReleased)
  | _ => True

instance : DecidablePred l.DigestsHole := fun o => by
  unfold DigestsHole
  split <;> infer_instance

lemma electionOk_processResponse {resp : LogsDBResponse} (hl : l.ElectionOk)
    (hhole : l.DigestsHole (.response now resp)) (h : l.processResponse cfg now resp = some l') :
    l'.ElectionOk := by
  unfold processResponse at h
  split at h
  · cases h
    exact hl
  rename_i request hreq
  obtain ⟨hmem, -⟩ := mem_of_getRequest hreq
  split at h
  · rename_i hmatch
    obtain ⟨r, id, body⟩ := resp
    unfold dispatchResponse at h
    split at h
    · rename_i token lastReleased idx value result hbody _
      by_cases hresult : result = some .leaderPreempted
      · subst hresult
        unfold processLogWriteResponse at h
        split at h
        · cases h
          exact hl
        · cases h
          exact hl.of_harmless harmless_resetLeaderElection
      · exact hl.of_harmless (.inl (quiet_processLogWriteResponse hmem (by rw [hbody]; rfl) hresult h))
    · cases h
      exact hl.of_harmless (.inl quiet_processLogReadResponse)
    · rename_i hresp
      refine electionOk_processNewLeaderResponse hl hmem (fun es hnone hes hquorum => ?_) h
      subst hnone hresp
      have hr : request.replicaId = r := hmatch.1
      exact hhole es hes (hr ▸ hquorum)
    · exact electionOk_processNewLeaderConfirmResponse hl hmem h
    · exact electionOk_processRecoveryReadResponse hl hmem ⟨_, ‹_›⟩ h
    · exact electionOk_processRecoveryWriteResponse hl hmem ⟨_, _, ‹_›⟩ h
    · cases h
      exact hl
  · cases h
    exact hl

/-- **Step lemma.** -/
lemma ElectionOk.step {o : Op} (hrole : RoleOk cfg l.role) (hl : l.ElectionOk)
    (hok : l.FollowsNewLeader o → l.election.state = .follower) (hhole : l.DigestsHole o)
    (h : op cfg l o = some l') : l'.ElectionOk := by
  cases o with
  | response => exact electionOk_processResponse hl hhole h
  | request => exact hl.of_harmless (harmless_processRequest hrole hok h)
  | maybeStartLeaderElection => exact electionOk_maybeStartLeaderElection hl h
  | writeBatch =>
    cases h
    exact hl.of_harmless (harmless_writeBatch hrole hok trivial)
  | maybeMoveRelease => exact hl.of_harmless (harmless_maybeMoveRelease hl.requests.ok h)
  | maybeCatchUp =>
    cases h
    exact hl.of_harmless (.inl (quiet_maybeCatchUp hl.requests.ok))
  | resendTimedOutRequests =>
    cases h
    exact hl.of_harmless (.inl quiet_resendTimedOutRequests)
  | appendEntries =>
    simp only [op, appendEntries] at h
    split at h
    · cases h
      exact hl
    simp only [bind_eq_some] at h
    obtain ⟨l₁, hl₁, h⟩ := h
    have hl₁ := hl.of_harmless (.inl (.foldlM (fun _ => quiet_appendEntry) hl.requests.ok hl₁))
    split at h
    · exact hl₁.of_harmless (harmless_maybeMoveRelease hl₁.requests.ok h)
    · cases h
      exact hl₁
  | readEntries =>
    obtain ⟨⟨l₁, entries⟩, hread, rfl⟩ := map_eq_some_iff.1 h
    exact hl.of_harmless (.inl (quiet_readEntries hread))
  | getOutgoingMessages =>
    cases h
    have hquiet : Quiet l l.getOutgoingMessages := .of_eq rfl rfl rfl rfl rfl rfl
    exact hl.of_harmless (.inl hquiet)
  | restart => exact hl.of_harmless (harmless_restart h)

/-- The kind of the requests that drive a phase. -/
def drivingKind : LeadershipState → Option LogMessageKind
  | .becomingNominee => some .newLeader
  | .digestingEntries => some .logRecoveryRead
  | .confirmingReplication => some .logRecoveryWrite
  | .confirmingLeadership => some .newLeaderConfirm
  | _ => none

/-- In every phase there is a request that drives it. -/
lemma ElectionOk.exists_request (hl : l.ElectionOk) {k : LogMessageKind}
    (hk : drivingKind l.election.state = some k) : ∃ q ∈ l.reqResp.requests, q.body.kind = k := by
  have hphase := hl.phase
  generalize l.election.state = s at hk hphase
  generalize l.election.electionState = es at hphase
  cases es with
  | none => cases s <;> first | exact hphase.elim | cases hk
  | some =>
    cases s with
    | follower | leader => cases hk
    | becomingNominee | confirmingLeadership =>
      cases hk
      exact hphase.tracks.exists_request hphase.asks hphase.unconfirmed
    | digestingEntries =>
      cases hk
      obtain ⟨slot, hslot, hvalue, hnot⟩ := hphase.hole
      obtain ⟨i, hi⟩ := mem_iff_getElem?.1 hslot
      have hat := hphase.each i slot hi
      obtain ⟨q, hq, token, hbody⟩ := hat.tracks.exists_request (hat.asks hvalue) hnot
      exact ⟨q, hq, by rw [hbody]; rfl⟩
    | confirmingReplication =>
      cases hk
      obtain ⟨i, slot, hi, hasks, hnot⟩ := exists_of_slotsPending hphase.sound hphase.pending
      obtain ⟨q, hq, token, value, hbody⟩ := (hphase.each i slot hi).exists_request hasks hnot
      exact ⟨q, hq, by rw [hbody]; rfl⟩

/-- **Run lemma.** -/
lemma ElectionOk.of_run {ops : List Op}
    (hok : RunMeets (op cfg) (fun l o => (l.FollowsNewLeader o → l.election.state = .follower) ∧
      l.DigestsHole o) (init cfg now) ops)
    (hrun : run (op cfg) (init cfg now) ops = some l) : l.ElectionOk := by
  have hstep : ∀ l o l', RoleOk cfg l.role ∧ l.ElectionOk →
      ((l.FollowsNewLeader o → l.election.state = .follower) ∧ l.DigestsHole o) →
      op cfg l o = some l' → RoleOk cfg l'.role ∧ l'.ElectionOk :=
    fun l o l' hl hok h => ⟨hl.1.step (roleStep_op h) hok.1, hl.2.step hl.1 hok.1 hok.2 h⟩
  have hrole : (init cfg now).role = ⟨.zero, .zero, .follower, false⟩ := role_start
  have hfollower : (init cfg now).election.state = .follower := congrArg LogsDBRole.state hrole
  have hinit : (init cfg now).ElectionOk :=
    ⟨requestsOk_start, .of_not_elects (by rw [hfollower]; decide) _⟩
  exact (run_invariant hstep ⟨roleOk_init, hinit⟩ hok hrun).2

/-- In a run in which only followers follow a new leader, and every nominee finds a hole among the
entries that it digests, an election always waits for an answer that moves it on. -/
theorem election_waits_of_run {ops : List Op}
    (hok : RunMeets (op cfg) (fun l o => (l.FollowsNewLeader o → l.election.state = .follower) ∧
      l.DigestsHole o) (init cfg now) ops)
    (hrun : run (op cfg) (init cfg now) ops = some l) {k : LogMessageKind}
    (hk : drivingKind l.election.state = some k) : ∃ q ∈ l.reqResp.requests, q.body.kind = k :=
  (ElectionOk.of_run hok hrun).exists_request hk

/-- Replica 0 has the promises of replicas 1 and 2. -/
def sampleDigest : List Op :=
  roundOps (2 * 10 ^ 9) [] [] ++
  roundOps (2 * 10 ^ 9 + 1) [] [⟨1, 1, .newLeader none 0⟩, ⟨2, 2, .newLeader none 0⟩]

theorem election_waits_digesting :
    ∃ l, run (op ⟨0, false, false, false⟩) (init ⟨0, false, false, false⟩ 0) sampleDigest = some l ∧
      l.election.state = .digestingEntries ∧
      ∃ q ∈ l.reqResp.requests, q.body.kind = .logRecoveryRead := by
  refine exists_eq_some_imp (fun l hl (hstate : l.election.state = .digestingEntries) =>
    ⟨hstate, ?_⟩) (by decide +kernel)
  exact election_waits_of_run (by decide +kernel) hl (by rw [hstate]; rfl)

/-- The writes of leader 0 that fill a window: all entries up to 257, with the first one released. -/
def sampleFullWindow : List LogsDBRequest :=
  (range 257).map fun i => ⟨0, 0, i + 1, .logWrite ⟨0, 1⟩ 1 (257 - i) [1]⟩

/-- A nominee that stores the whole window waits for nothing.  Neither does one that has accepted the
release of another leader. -/
theorem not_election_waits : (run (op ⟨2, false, false, false⟩) (init ⟨2, false, false, false⟩ 0)
      (roundOps 1 sampleFullWindow [] ++ roundOps (2 * 10 ^ 9) [] [] ++
        roundOps (2 * 10 ^ 9 + 1) [] [⟨3, 3, .newLeader none 0⟩, ⟨4, 4, .newLeader none 0⟩])).map
        (fun l => (l.election.state, l.reqResp.requests)) = some (.digestingEntries, []) ∧
    (run (op ⟨0, false, false, false⟩) (init ⟨0, false, false, false⟩ 0)
      (roundOps (2 * 10 ^ 9) [] [] ++
        roundOps (2 * 10 ^ 9 + 1) [⟨1, 0, 1, .release ⟨1, 1⟩ 0⟩] [])).map
        (fun l => (l.election.state, l.reqResp.requests)) = some (.becomingNominee, []) := by
  constructor <;> decide +kernel

end LogsDB

end TernFS
