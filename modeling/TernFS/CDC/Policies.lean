/-
# The policies of an unlinked directory

A directory inherits its policies from the directories above it.  When it is soft-unlinked it loses
its place below them, and `SoftUnlinkDirectory` stores its effective policies with it: it walks up
from the directory and collects the entries with required tags.  The machine is a new one for each
answer, however, so that only the entries of the directory visited last are left.

* `SoftUnlinkDirectory.sends_policies_iff`: the transaction sends the effective policies if and only
  if the first directory on the way that has four different entries with required tags (as
  `DirectoryInfoEntry::operator==` tells them apart) has one for each tag, and no directory below it
  has another entry for one of them.
* `SoftUnlinkDirectory.override_lost`: an own policy of the directory is lost.
-/
import TernFS.CDC.Rollback

namespace TernFS

open Lib Function List Option

variable {info : DirectoryInfo} {shid : Fin 256} {r : CDCShardReq} {st : SoftUnlinkDirectoryState}
  {e : DirectoryInfoEntry} {above : List (InodeId × DirectoryInfo)} {infos : List DirectoryInfo}
  {d : InodeId} {dir : DirectoryBody}

/-! ## Policies along a chain of directories -/

/-- The directory has as many entries with required tags as there are required tags. -/
def DirectoryInfo.Complete (info : DirectoryInfo) : Prop :=
  (requiredInfo [] info).length = requiredDirInfoTags.length

instance (info : DirectoryInfo) : Decidable (DirectoryInfo.Complete info) :=
  inferInstanceAs (Decidable (_ = _))

/-- The nearest directory with an entry for the tag. -/
def nearest? (tag : ℕ) (infos : List DirectoryInfo) : Option DirectoryInfo :=
  infos.find? fun info => info.any fun e => e.tag = tag

/-- The policies are the effective ones: for each required tag there is exactly one entry, and the
nearest directory with an entry for the tag has that entry. -/
def Effective (infos : List DirectoryInfo) (info : DirectoryInfo) : Prop :=
  ∀ tag ∈ requiredDirInfoTags, ∃ e,
    info.filter (fun e => e.tag = tag) = [e] ∧ ∃ near ∈ nearest? tag infos, e ∈ near

/-- The condition: the first complete directory has one entry for each required tag, and the nearest
directory below it that has an entry for the tag, if there is one, has the same entry. -/
def PoliciesOk (infos : List DirectoryInfo) : Prop :=
  ∃ below info above, infos = below ++ info :: above ∧ (∀ i ∈ below, ¬ DirectoryInfo.Complete i) ∧
    DirectoryInfo.Complete info ∧ ((requiredInfo [] info).map DirectoryInfoEntry.tag).Nodup ∧
    ∀ e ∈ requiredInfo [] info, ∀ near ∈ nearest? e.tag below, e ∈ near

/-- Only entries of the directory with required tags are collected. -/
lemma mem_or_of_mem_requiredInfo {acc : DirectoryInfo} (h : e ∈ requiredInfo acc info) :
    e ∈ acc ∨ e ∈ info ∧ e.tag ∈ requiredDirInfoTags := by
  induction info generalizing acc with
  | nil => exact .inl h
  | cons entry entries ih =>
    unfold requiredInfo at h
    split_ifs at h with hskip
    · exact (ih h).imp_right fun ⟨hmem, htag⟩ => ⟨mem_cons_of_mem _ hmem, htag⟩
    · push Not at hskip
      rcases ih h with hacc | ⟨hmem, htag⟩
      · rcases mem_append.1 hacc with hacc | hnew
        · exact .inl hacc
        · obtain rfl := mem_singleton.1 hnew
          exact .inr ⟨mem_cons_self, hskip.1⟩
      · exact .inr ⟨mem_cons_of_mem _ hmem, htag⟩

lemma mem_of_mem_requiredInfo (h : e ∈ requiredInfo [] info) :
    e ∈ info ∧ e.tag ∈ requiredDirInfoTags :=
  (mem_or_of_mem_requiredInfo h).resolve_left not_mem_nil

lemma nearest?_append {tag : ℕ} {below rest : List DirectoryInfo} :
    nearest? tag (below ++ rest) = (nearest? tag below).or (nearest? tag rest) :=
  find?_append

lemma nearest?_cons_of_mem {tag : ℕ} {above : List DirectoryInfo} (he : e ∈ info)
    (htag : e.tag = tag) : nearest? tag (info :: above) = some info := by
  refine find?_cons_of_pos (any_eq_true.2 ⟨e, he, ?_⟩)
  simpa using htag

/-- In a list of four entries with different required tags there is one for each tag. -/
lemma exists_of_nodup (hcomplete : DirectoryInfo.Complete info)
    (hnodup : ((requiredInfo [] info).map DirectoryInfoEntry.tag).Nodup) {tag : ℕ}
    (htag : tag ∈ requiredDirInfoTags) : ∃ e ∈ requiredInfo [] info, e.tag = tag := by
  have hsub : (requiredInfo [] info).map DirectoryInfoEntry.tag ⊆ requiredDirInfoTags := by
    intro t ht
    obtain ⟨e, he, rfl⟩ := mem_map.1 ht
    exact (mem_of_mem_requiredInfo he).2
  have hperm := (subperm_of_subset hnodup hsub).perm_of_length_le (by
    rw [length_map]
    exact hcomplete.ge)
  exact mem_map.1 (hperm.mem_iff.2 htag)

/-- An entry with a tag of its own is the only one with that tag. -/
lemma filter_tag_eq (hnodup : (info.map DirectoryInfoEntry.tag).Nodup) (he : e ∈ info) :
    info.filter (fun e' => e'.tag = e.tag) = [e] := by
  have hmem : ∀ e', e' ∈ info.filter (fun e' => e'.tag = e.tag) ↔ e' ∈ [e] := by
    intro e'
    rw [mem_filter, decide_eq_true_eq, mem_singleton]
    constructor
    · exact fun h => inj_on_of_nodup_map hnodup h.1 he h.2
    · rintro rfl
      exact ⟨he, rfl⟩
  have hperm := (perm_ext_iff_of_nodup (hnodup.of_map.filter _) (nodup_singleton e)).2 hmem
  exact perm_singleton.1 hperm

/-- The condition, in terms of the directory that the machine takes the policies from. -/
lemma policiesOk_iff :
    PoliciesOk infos ↔ ∃ info, infos.find? (fun i => DirectoryInfo.Complete i) = some info ∧
      Effective infos (requiredInfo [] info) := by
  constructor
  · rintro ⟨below, info, above, rfl, hbelow, hcomplete, hnodup, hsame⟩
    refine ⟨info, find?_eq_some_iff_append.2 ⟨decide_eq_true hcomplete, below, above, rfl, ?_⟩, ?_⟩
    · intro i hi
      simpa using hbelow i hi
    intro tag htag
    obtain ⟨e, he, rfl⟩ := exists_of_nodup hcomplete hnodup htag
    have hinfo : e ∈ info := (mem_of_mem_requiredInfo he).1
    refine ⟨e, filter_tag_eq hnodup he, ?_⟩
    rw [nearest?_append, nearest?_cons_of_mem hinfo rfl]
    cases hnear : nearest? e.tag below with
    | none => exact ⟨info, rfl, hinfo⟩
    | some near => exact ⟨near, rfl, hsame e he near hnear⟩
  · rintro ⟨info, hfind, heffective⟩
    obtain ⟨hcomplete, below, above, rfl, hbelow⟩ := find?_eq_some_iff_append.1 hfind
    have hunique : ∀ e ∈ requiredInfo [] info,
        (requiredInfo [] info).filter (fun e' => e'.tag = e.tag) = [e] ∧
          ∃ near ∈ nearest? e.tag (below ++ info :: above), e ∈ near := by
      intro e he
      obtain ⟨-, htag⟩ := mem_of_mem_requiredInfo he
      obtain ⟨e', hfilter, hnear⟩ := heffective e.tag htag
      have hmem : e ∈ (requiredInfo [] info).filter (fun e' => e'.tag = e.tag) :=
        mem_filter.2 ⟨he, decide_eq_true rfl⟩
      rw [hfilter, mem_singleton] at hmem
      subst hmem
      exact ⟨hfilter, hnear⟩
    refine ⟨below, info, above, rfl, fun i hi => by simpa using hbelow i hi,
      of_decide_eq_true hcomplete, ?_, ?_⟩
    · refine nodup_iff_count_le_one.2 fun tag => ?_
      by_cases htag : tag ∈ (requiredInfo [] info).map DirectoryInfoEntry.tag
      · obtain ⟨e, he, rfl⟩ := mem_map.1 htag
        have hlength := congrArg List.length (hunique e he).1
        rw [List.count, countP_map, countP_eq_length_filter]
        refine le_of_eq (Eq.trans ?_ hlength)
        congr 1
      · rw [count_eq_zero_of_not_mem htag]
        exact Nat.zero_le 1
    · intro e he near hnear
      obtain ⟨-, near', hnear', hmem⟩ := hunique e he
      rw [nearest?_append, mem_def.1 hnear, some_or, mem_some_iff] at hnear'
      exact hnear' ▸ hmem

/-! ## The walk -/

/-- A chain of directories, each with its policies: each directory is owned by the next one, and the
last one has no owner. -/
inductive OwnerChain (shards : Fin 256 → ShardDB) : List (InodeId × DirectoryInfo) → Prop
  | top {d : InodeId} {dir : DirectoryBody}
      (hdir : getDirectory (shards d.shardId) d true = .ok dir) (howner : dir.ownerId = .null) :
    OwnerChain shards [(d, dir.info)]
  | up {d : InodeId} {dir : DirectoryBody} {info : DirectoryInfo}
      {rest : List (InodeId × DirectoryInfo)}
      (hdir : getDirectory (shards d.shardId) d true = .ok dir) (howner : dir.ownerId ≠ .null)
      (hrest : OwnerChain shards ((dir.ownerId, info) :: rest)) :
    OwnerChain shards ((d, dir.info) :: (dir.ownerId, info) :: rest)

section

variable {shards : Fin 256 → ShardDB}

/-- The first directory of a chain is the last one, or its owner comes next. -/
lemma OwnerChain.cons_inv (h : OwnerChain shards ((d, info) :: above)) :
    ∃ dir, getDirectory (shards d.shardId) d true = .ok dir ∧ info = dir.info ∧
      (above = [] ∧ dir.ownerId = .null ∨ dir.ownerId ≠ .null ∧ OwnerChain shards above ∧
          ∃ info' rest, above = (dir.ownerId, info') :: rest) := by
  cases h with
  | top hdir howner => exact ⟨_, hdir, rfl, .inl ⟨rfl, howner⟩⟩
  | up hdir howner hrest => exact ⟨_, hdir, rfl, .inr ⟨howner, hrest, _, _, rfl⟩⟩

/-- Whether there is such a chain. -/
def OwnerChain.check (shards : Fin 256 → ShardDB) : List (InodeId × DirectoryInfo) → Bool
  | [] => false
  | (d, info) :: above =>
    match getDirectory (shards d.shardId) d true with
    | .ok dir => info = dir.info &&
      match above with
      | [] => dir.ownerId = .null
      | e :: rest => dir.ownerId ≠ .null && e.1 = dir.ownerId && check shards (e :: rest)
    | .error _ => false

lemma OwnerChain.of_check {chain : List (InodeId × DirectoryInfo)}
    (h : OwnerChain.check shards chain = true) : OwnerChain shards chain := by
  induction chain with
  | nil => cases h
  | cons e above ih =>
    obtain ⟨d, info⟩ := e
    cases hdir : getDirectory (shards d.shardId) d true with
    | error => simp [OwnerChain.check, hdir] at h
    | ok dir =>
      simp only [OwnerChain.check, hdir, Bool.and_eq_true, decide_eq_true_eq] at h
      obtain ⟨rfl, h⟩ := h
      cases above with
      | nil => exact .top hdir (of_decide_eq_true h)
      | cons e =>
        simp only [Bool.and_eq_true, decide_eq_true_eq] at h
        obtain ⟨⟨howner, hnext⟩, hrest⟩ := h
        obtain ⟨p, info'⟩ := e
        obtain rfl : p = dir.ownerId := hnext
        exact .up hdir howner (ih hrest)

instance (chain : List (InodeId × DirectoryInfo)) : Decidable (OwnerChain shards chain) := by
  refine decidable_of_iff (OwnerChain.check shards chain = true) ⟨.of_check, fun h => ?_⟩
  induction h with
  | top hdir howner => simp [OwnerChain.check, hdir, howner]
  | up hdir howner hrest ih => simp [OwnerChain.check, hdir, howner, ih]

lemma OwnerChain.of_append {below rest : List (InodeId × DirectoryInfo)}
    {e : InodeId × DirectoryInfo} (h : OwnerChain shards (below ++ e :: rest)) :
    OwnerChain shards (e :: rest) := by
  induction below with
  | nil => exact h
  | cons e' below ih =>
    obtain ⟨dir, -, -, ⟨hnil, -⟩ | ⟨-, hrest, -⟩⟩ := h.cons_inv
    · simp at hnil
    · exact ih hrest

end

namespace SoftUnlinkDirectory

/-- The directory is on the chain, below the directories `above`, and no directory below it is
complete. -/
def Below (chain above : List (InodeId × DirectoryInfo)) (d : InodeId) : Prop :=
  ∃ below info, chain = below ++ (d, info) :: above ∧ ∀ e ∈ below, ¬ DirectoryInfo.Complete e.2

/-- The directory is on the chain, and no directory below it is complete. -/
def OnChain (chain : List (InodeId × DirectoryInfo)) (d : InodeId) : Prop :=
  ∃ above, Below chain above d

/-- The first complete directory on the chain is the one whose policies are sent. -/
def Sent (chain : List (InodeId × DirectoryInfo)) (info : DirectoryInfo) : Prop :=
  ∃ e, chain.find? (fun e => DirectoryInfo.Complete e.2) = some e ∧ info = requiredInfo [] e.2

/-- Where the walk stands. -/
def Walks (chain : List (InodeId × DirectoryInfo)) : TxnState → Prop
  | .softUnlinkDirectory .stat state | .softUnlinkDirectory .removeOwner state =>
    OnChain chain state.statDirId
  | _ => True

/-- The machine goes on along the chain, and sends the policies of the first complete directory. -/
def GoesOn (chain : List (InodeId × DirectoryInfo)) : Outcome → Prop
  | .needsShard state _ _ r =>
    Walks chain state ∧ ∀ q, r = .write (.removeDirectoryOwner q) → Sent chain q.info
  | _ => True

variable {shards : Fin 256 → ShardDB} {step : SoftUnlinkDirectoryStep}

section

variable {req : SoftUnlinkDirectoryReq} {chain : List (InodeId × DirectoryInfo)}
  {st : SoftUnlinkDirectoryState} {out : Outcome}

lemma goesOn_stat {repeated : Bool} (h : OnChain chain st.statDirId) :
    GoesOn chain (stat st repeated) :=
  ⟨h, nofun⟩

/-- A directory that the walk has come to is complete, or it has to go on to its owner. -/
lemma Below.next (h : Below chain above d) (hchain : OwnerChain shards chain) :
    ∃ dir, getDirectory (shards d.shardId) d true = .ok dir ∧
      (DirectoryInfo.Complete dir.info ∧ Sent chain (requiredInfo [] dir.info) ∨
        ¬ DirectoryInfo.Complete dir.info ∧
          (dir.ownerId = .null ∧ chain.find? (fun e => DirectoryInfo.Complete e.2) = none ∨
            dir.ownerId ≠ .null ∧ ∃ e rest, above = e :: rest ∧ Below chain rest dir.ownerId)) := by
  obtain ⟨below, info, rfl, hbelow⟩ := h
  obtain ⟨dir, hdir, rfl, hup⟩ := hchain.of_append.cons_inv
  have hfind : ∀ rest, (below ++ rest).find? (fun e => decide (DirectoryInfo.Complete e.2)) =
      rest.find? fun e => DirectoryInfo.Complete e.2 := by
    intro rest
    have hnone : below.find? (fun e => decide (DirectoryInfo.Complete e.2)) = none :=
      find?_eq_none.2 fun e he => by simpa using hbelow e he
    rw [find?_append, hnone, none_or]
  refine ⟨dir, hdir, ?_⟩
  by_cases hcomplete : DirectoryInfo.Complete dir.info
  · refine .inl ⟨hcomplete, (d, dir.info), ?_, rfl⟩
    rw [hfind]
    exact find?_cons_of_pos (decide_eq_true hcomplete)
  refine .inr ⟨hcomplete, ?_⟩
  rcases hup with ⟨rfl, howner⟩ | ⟨howner, -, info', rest, rfl⟩
  · refine .inl ⟨howner, ?_⟩
    rw [hfind]
    simpa using hcomplete
  refine .inr ⟨howner, (dir.ownerId, info'), rest, rfl, below ++ [(d, dir.info)], info', ?_, ?_⟩
  · simp
  intro e he
  rcases mem_append.1 he with he | he
  · exact hbelow e he
  · obtain rfl := mem_singleton.1 he
    exact hcomplete

/-- An answer lets the machine go on along the chain, if the answer to a `StatDirectory` is about the
directory that it is at. -/
lemma after_goesOn {result : ShardResult}
    (htarget : OnChain chain req.targetId) (hwalks : Walks chain (.softUnlinkDirectory step st))
    (hstat : step = .stat → ∀ mtime owner info, result = .ok (.statDirectory mtime owner info) →
      (DirectoryInfo.Complete info → Sent chain (requiredInfo [] info)) ∧
      (¬ DirectoryInfo.Complete info → owner ≠ .null → OnChain chain owner))
    (h : after req st step result = some out) : GoesOn chain out := by
  cases step with
  | start => cases h
  | lockEdge =>
    simp only [after, afterLockEdge] at h
    split at h <;> cases h
    any_goals exact trivial
    · exact ⟨trivial, by rintro _ ⟨⟩⟩
    · exact goesOn_stat htarget
  | stat =>
    simp only [after, afterStat] at h
    split at h
    · cases h
      exact goesOn_stat hwalks
    · rename_i mtime owner info
      obtain ⟨hsent, hnext⟩ := hstat rfl mtime owner info rfl
      split_ifs at h with hcomplete howner <;> cases h
      · refine ⟨hwalks, fun q hq => ?_⟩
        cases hq
        exact hsent hcomplete
      · exact goesOn_stat (hnext hcomplete howner)
    · cases h
  | removeOwner =>
    simp only [after, afterRemoveOwner] at h
    split at h <;> cases h
    · exact goesOn_stat hwalks
    · exact ⟨trivial, by rintro _ ⟨⟩⟩
    · exact ⟨trivial, by rintro _ ⟨⟩⟩
  | unlockEdge =>
    simp only [after, afterUnlockEdge] at h
    split at h <;> cases h
    any_goals exact trivial
    exact ⟨trivial, by rintro _ ⟨⟩⟩
  | rollback =>
    simp only [after, afterRollback, finishWithExitError] at h
    split at h
    · cases h
      exact ⟨trivial, by rintro _ ⟨⟩⟩
    · obtain ⟨err, -, rfl⟩ := map_eq_some_iff.1 h
      trivial
    · obtain ⟨err, -, rfl⟩ := map_eq_some_iff.1 h
      trivial
    · cases h

lemma again_goesOn
    (hwalks : Walks chain (.softUnlinkDirectory step st)) (h : again req st step = some out) :
    GoesOn chain out := by
  cases step with
  | start => cases h
  | lockEdge | unlockEdge | rollback =>
    cases h
    exact ⟨trivial, by rintro _ ⟨⟩⟩
  | stat | removeOwner =>
    cases h
    exact goesOn_stat hwalks

/-! ## Runs -/

/-- The transaction walks along the chain, and has sent nothing but the policies of the first
complete directory. -/
structure Inv (chain : List (InodeId × DirectoryInfo)) (sys : TxnSystem) : Prop where
  walks : ∀ state shid r, sys.txn = .running state shid r →
    GoesOn chain (.needsShard state shid false r)
  sent : ∀ copy ∈ sys.sent, ∀ q, copy.2 = .write (.removeDirectoryOwner q) → Sent chain q.info

variable {cfg : ClusterConfig} {sys sys' : TxnSystem} {ev : TxnEvent}

lemma Inv.record (h : Inv chain sys) (hout : GoesOn chain out) (env : CDCEnv) :
    Inv chain (sys.record env out) := by
  suffices hneeds : _ from
    have hrecord := TxnSystem.of_record (R := fun state shid r =>
      GoesOn chain (.needsShard state shid false r)) h.sent hneeds env
    ⟨hrecord.2, hrecord.1⟩
  rintro state shid repeated r rfl
  exact ⟨hout.2, hout⟩

/-- A transaction that starts has not sent anything yet but the request to lock the edge. -/
lemma inv_start {env : CDCEnv} {log : List Handled} :
    Inv chain ⟨shards, env, (start req {}).status, (start req {}).sent, log⟩ := by
  have hinit : Inv chain ⟨shards, env, .finished (.error .timeout), [], log⟩ :=
    ⟨fun state shid r htxn => (by cases htxn), nofun⟩
  refine hinit.record ?_ env
  unfold start
  split_ifs
  · trivial
  · exact ⟨trivial, by rintro _ ⟨⟩⟩

/-- The state of a transaction that waits. -/
lemma exists_step {state : TxnState}
    (hwaits : (CDCReq.softUnlinkDirectory req).Waits state shid r) :
    ∃ step st, state = .softUnlinkDirectory step st := by
  have hcurrent := hwaits.current
  cases state with
  | softUnlinkDirectory step st => exact ⟨step, st, rfl⟩
  | _ => cases hcurrent

/-- In the walk it waits for a `StatDirectory`. -/
lemma stat_of_running (hreached : (CDCReq.softUnlinkDirectory req).Reached cfg sys.txn)
    (htxn : sys.txn = .running (.softUnlinkDirectory .stat st) shid r) :
    shid = st.statDirId.shardId ∧ r = .read (.statDirectory st.statDirId) := by
  cases ((htxn ▸ hreached).waits rfl).current
  exact ⟨rfl, rfl⟩

lemma Inv.of_step (h : Inv chain sys) (htarget : OnChain chain req.targetId)
    (hreached : (CDCReq.softUnlinkDirectory req).Reached cfg sys.txn)
    (hchain : OwnerChain sys.shards chain)
    (hstep : sys.step cfg (.softUnlinkDirectory req) ev = some sys') : Inv chain sys' := by
  cases TxnSystem.txnStep_of_step hstep with
  | ignored => exact h
  | client | deliver => exact ⟨h.walks, h.sent⟩
  | @respond d state shid r db result env out htxn hhandle hresume =>
    have hwaits := (htxn ▸ hreached).waits rfl
    have hafter := hwaits.after_of_resume hresume
    obtain ⟨step, st, rfl⟩ := exists_step hwaits
    have hwalks := (h.walks _ _ _ htxn).1
    have hhandled : Inv chain (sys.handled shid r db result) := ⟨h.walks, h.sent⟩
    refine hhandled.record (after_goesOn htarget hwalks ?_ hafter) env
    rintro rfl mtime owner info rfl
    obtain ⟨rfl, rfl⟩ := stat_of_running hreached htxn
    obtain ⟨above, hbelow⟩ := hwalks
    obtain ⟨dir, hdir, hnext⟩ := hbelow.next hchain
    rcases handle_statDirectory hhandle with ⟨_, _, hdir', -, -⟩ | ⟨dir', hdir', heq⟩
    · rw [hdir] at hdir'
      cases hdir'
    rw [hdir] at hdir'
    cases hdir'
    cases heq
    rcases hnext with ⟨hcomplete, hsent⟩ | ⟨hcomplete, ⟨howner, -⟩ | ⟨howner, e, rest, -, hon⟩⟩
    · exact ⟨fun _ => hsent, fun hnot => absurd hcomplete hnot⟩
    · exact ⟨fun hyes => absurd hyes hcomplete, fun _ hne => absurd howner hne⟩
    · exact ⟨fun hyes => absurd hyes hcomplete, fun _ _ => ⟨rest, hon⟩⟩
  | @timeout state shid r env out htxn hresume =>
    have hwaits := (htxn ▸ hreached).waits rfl
    have hafter := hwaits.after_of_resume hresume
    obtain ⟨step, st, rfl⟩ := exists_step hwaits
    exact h.record (after_goesOn htarget (h.walks _ _ _ htxn).1
      (fun _ _ _ _ heq => by cases heq) hafter) env
  | @restart state shid r env out htxn hresume =>
    have hwaits := (htxn ▸ hreached).waits rfl
    have hagain := hwaits.again_of_resume hresume
    obtain ⟨step, st, rfl⟩ := exists_step hwaits
    exact h.record (again_goesOn (h.walks _ _ _ htxn).1 hagain) env

/-- Whenever the shards answer, the transaction comes to send the effective policies after finitely
many answers. -/
inductive Sends (cfg : ClusterConfig) (req : SoftUnlinkDirectoryReq) (infos : List DirectoryInfo) :
    TxnSystem → Prop
  | sent {sys : TxnSystem} {state : TxnState} {shid : Fin 256} {info : DirectoryInfo}
      (htxn : sys.txn = .running state shid (.write (.removeDirectoryOwner ⟨req.targetId, info⟩)))
      (heffective : Effective infos info) : Sends cfg req infos sys
  | answer {sys : TxnSystem} {st : SoftUnlinkDirectoryState} {shid : Fin 256} {r : CDCShardReq}
      (htxn : sys.txn = .running (.softUnlinkDirectory .stat st) shid r)
      (hstep : ∀ d, (sys.step cfg (.softUnlinkDirectory req) (.respond d)).isSome)
      (hrest : ∀ d sys', sys.step cfg (.softUnlinkDirectory req) (.respond d) = some sys' →
        Sends cfg req infos sys') : Sends cfg req infos sys

lemma handle_stat {cfg : ShardConfig} {db : ShardDB} (delivery : Delivery)
    (hdir : getDirectory db d true = .ok dir) :
    handle cfg db delivery (.read (.statDirectory d)) =
      some (db, .ok (.statDirectory dir.mtime dir.ownerId dir.info)) := by
  simp only [handle, read, statDirectory, hdir, ok_bind]
  rfl

section

variable (hreached : (CDCReq.softUnlinkDirectory req).Reached cfg sys.txn)
  (htxn : sys.txn = .running (.softUnlinkDirectory .stat st) shid r)
include hreached htxn

/-- Answers in the walk leave the shards as they are. -/
lemma shards_of_respond {d : Delivery}
    (hstep : sys.step cfg (.softUnlinkDirectory req) (.respond d) = some sys') :
    sys'.shards = sys.shards := by
  cases TxnSystem.txnStep_of_step hstep with
  | respond htxn' hhandle =>
    cases htxn.symm.trans htxn'
    obtain ⟨rfl, rfl⟩ := stat_of_running hreached htxn
    obtain rfl := eq_of_handle_read hhandle
    exact Function.update_eq_self _ _

variable (hdir : getDirectory (sys.shards st.statDirId.shardId) st.statDirId true = .ok dir)
  (hafter : afterStat req st (.ok (.statDirectory dir.mtime dir.ownerId dir.info)) = some out)
include hdir hafter

lemma step_stat (delivery : Delivery) :
    ∃ sys', sys.step cfg (.softUnlinkDirectory req) (.respond delivery) = some sys' ∧
      sys'.txn = out.status ∧ sys'.shards = sys.shards := by
  have hwaits := (htxn ▸ hreached).waits rfl
  obtain ⟨rfl, rfl⟩ := stat_of_running hreached htxn
  obtain ⟨env, hstep⟩ := TxnSystem.step_respond htxn hwaits (handle_stat delivery hdir) hafter
  exact ⟨_, hstep, rfl, Function.update_eq_self _ _⟩

/-- The next answer lets the transaction go on. -/
lemma sends_of_afterStat
    (hrest : ∀ sys', (CDCReq.softUnlinkDirectory req).Reached cfg sys'.txn →
      sys'.txn = out.status → sys'.shards = sys.shards → Sends cfg req infos sys') :
    Sends cfg req infos sys := by
  refine .answer htxn (fun d => ?_) fun d sys' hstep => ?_
  · obtain ⟨sys', hstep, -⟩ := step_stat hreached htxn hdir hafter d
    rw [hstep, isSome_some]
  · obtain ⟨sys₁, hstep₁, htxn', hshards⟩ := step_stat hreached htxn hdir hafter d
    obtain rfl := mem_unique hstep hstep₁
    exact hrest sys' (hreached.of_step hstep) htxn' hshards

end

/-- The walk ends at the first complete directory. -/
lemma sends_of_below (hfind : chain.find? (fun e => DirectoryInfo.Complete e.2) ≠ none)
    (heffective : ∀ info, Sent chain info → Effective infos info)
    (hreached : (CDCReq.softUnlinkDirectory req).Reached cfg sys.txn)
    (hchain : OwnerChain sys.shards chain)
    (htxn : sys.txn = .running (.softUnlinkDirectory .stat st) shid r)
    (hbelow : Below chain above st.statDirId) : Sends cfg req infos sys := by
  -- the walk goes up the chain, of which less and less is left
  induction hlength : above.length using Nat.strong_induction_on
    generalizing above sys st shid r with
  | _ n ih =>
    obtain ⟨dir, hdir, ⟨hcomplete, hsent⟩ | ⟨hcomplete, ⟨-, hnone⟩ | ⟨howner, e, rest, rfl, hon⟩⟩⟩ :=
      hbelow.next hchain
    · have hafter : afterStat req st (.ok (.statDirectory dir.mtime dir.ownerId dir.info)) =
          some (removeOwner req st (requiredInfo [] dir.info)) := if_pos hcomplete
      exact sends_of_afterStat hreached htxn hdir hafter fun sys' _ htxn' _ =>
        .sent htxn' (heffective _ hsent)
    · exact absurd hnone hfind
    · have hafter : afterStat req st (.ok (.statDirectory dir.mtime dir.ownerId dir.info)) =
          some (stat { st with statDirId := dir.ownerId } false) :=
        (if_neg hcomplete).trans (if_neg howner)
      refine sends_of_afterStat hreached htxn hdir hafter fun sys' hreached' htxn' hshards => ?_
      exact ih rest.length (by simp [← hlength]) hreached' (hshards ▸ hchain) htxn' hon rfl

/-- A transaction that sends the effective policies takes them from the first complete
directory. -/
lemma Sends.policiesOk (hsends : Sends cfg req (chain.map Prod.snd) sys) (h : Inv chain sys)
    (htarget : OnChain chain req.targetId)
    (hreached : (CDCReq.softUnlinkDirectory req).Reached cfg sys.txn)
    (hchain : OwnerChain sys.shards chain) : PoliciesOk (chain.map Prod.snd) := by
  induction hsends with
  | sent htxn heffective =>
    obtain ⟨e, hfind, rfl⟩ := (h.walks _ _ _ htxn).2 _ rfl
    refine policiesOk_iff.2 ⟨e.2, ?_, heffective⟩
    rw [find?_map]
    exact congrArg (Option.map Prod.snd) hfind
  | answer htxn hstep _ ih =>
    obtain ⟨sys', hsys'⟩ := isSome_iff_exists.1 (hstep ⟨0, samplePick, sampleCache⟩)
    have hshards := shards_of_respond hreached htxn hsys'
    exact ih _ sys' hsys' (h.of_step htarget hreached hchain hsys') (hreached.of_step hsys')
      (hshards ▸ hchain)

/-- **Policies of an unlinked directory.** Take a chain of directories that starts with the one to be
unlinked, and that stays as it is while the transaction walks up: whatever else happens, every request
to remove the owner that is sent has the effective policies, and the walk comes to send it, if and
only if the policies on the chain meet the condition. -/
theorem sends_policies_iff {shards : Fin 256 → ShardDB} {env : CDCEnv} {sys₀ : TxnSystem}
    {events₀ : List TxnEvent} {st : SoftUnlinkDirectoryState} {shid : Fin 256} {r : CDCShardReq}
    (hhead : ∃ info above, chain = (req.targetId, info) :: above)
    (hstart : TxnSystem.start (.softUnlinkDirectory req) shards env = some sys₀)
    (hfixed : RunMeets (TxnSystem.step cfg (.softUnlinkDirectory req))
      (fun sys _ => OwnerChain sys.shards chain) sys₀ events₀)
    (hrun : run (TxnSystem.step cfg (.softUnlinkDirectory req)) sys₀ events₀ = some sys)
    (htxn : sys.txn = .running (.softUnlinkDirectory .stat st) shid r)
    (hchain : OwnerChain sys.shards chain) :
    (∀ events sys', RunMeets (TxnSystem.step cfg (.softUnlinkDirectory req))
        (fun sys _ => OwnerChain sys.shards chain) sys events →
      run (TxnSystem.step cfg (.softUnlinkDirectory req)) sys events = some sys' →
      OwnerChain sys'.shards chain →
      (∀ copy ∈ sys'.sent, ∀ q, copy.2 = .write (.removeDirectoryOwner q) →
        Effective (chain.map Prod.snd) q.info) ∧
      (∀ st' shid' r', sys'.txn = .running (.softUnlinkDirectory .stat st') shid' r' →
        Sends cfg req (chain.map Prod.snd) sys')) ↔
    PoliciesOk (chain.map Prod.snd) := by
  obtain ⟨info, above, hchain₀⟩ := hhead
  have htarget : OnChain chain req.targetId :=
    ⟨above, [], info, hchain₀, nofun⟩
  have hstep : ∀ (sys : TxnSystem) (ev : TxnEvent) (sys' : TxnSystem),
      Inv chain sys ∧ (CDCReq.softUnlinkDirectory req).Reached cfg sys.txn →
      OwnerChain sys.shards chain → sys.step cfg (.softUnlinkDirectory req) ev = some sys' →
      Inv chain sys' ∧ (CDCReq.softUnlinkDirectory req).Reached cfg sys'.txn :=
    fun sys ev sys' h hchain hstep => ⟨h.1.of_step htarget h.2 hchain hstep, h.2.of_step hstep⟩
  have hinit : Inv chain sys₀ := by
    obtain ⟨⟨env', out⟩, hout, rfl⟩ := map_eq_some_iff.1 hstart
    cases hout
    exact inv_start
  have hsys := run_invariant hstep ⟨hinit, CDCReq.reached_of_run hstart (run_nil sys₀)⟩ hfixed hrun
  constructor
  · intro hall
    exact ((hall [] sys trivial (run_nil sys) hchain).2 st shid r htxn).policiesOk hsys.1 htarget
      hsys.2 hchain
  · intro hok events sys' hfixed' hrun' hchain'
    obtain ⟨info', hfind, heffective⟩ := policiesOk_iff.1 hok
    have hsent : ∀ info, Sent chain info → Effective (chain.map Prod.snd) info := by
      rintro _ ⟨e, he, rfl⟩
      rw [find?_map] at hfind
      obtain rfl := Option.some_inj.1 ((congrArg (Option.map Prod.snd) he).symm.trans hfind)
      exact heffective
    have hsys' := run_invariant hstep hsys hfixed' hrun'
    refine ⟨fun copy hcopy q hq => hsent _ (hsys'.1.sent copy hcopy q hq), ?_⟩
    intro st' shid' r' htxn'
    obtain ⟨above', hbelow⟩ := (hsys'.1.walks _ _ _ htxn').1
    refine sends_of_below ?_ hsent hsys'.2 hchain' htxn' hbelow
    intro hnone
    rw [find?_map] at hfind
    cases (congrArg (Option.map Prod.snd) hnone).symm.trans hfind

end

/-- The directory `d` and the root directory, both with the default policies. -/
def sampleChain : List (InodeId × DirectoryInfo) :=
  [(sampleRemoteDir, defaultDirectoryInfo), (.rootDir, defaultDirectoryInfo)]

/-- A state in the walk. -/
def isWalking (sys : TxnSystem) : Bool :=
  match sys.txn with
  | .running (.softUnlinkDirectory .stat _) _ _ => true
  | _ => false

lemma exists_of_isWalking {sys : TxnSystem} (h : isWalking sys = true) :
    ∃ st shid r, sys.txn = .running (.softUnlinkDirectory .stat st) shid r := by
  unfold isWalking at h
  split at h
  · rename_i st shid r htxn
    exact ⟨st, shid, r, htxn⟩
  · cases h

/-- The default policies are sent, also if the first answer is lost and the coordinator comes up
again. -/
theorem sends_default_policies :
    ∃ sys₀ sys₁ sys, TxnSystem.start (.softUnlinkDirectory sampleUnlinkDirectory) sampleTree .init =
        some sys₀ ∧
      run (TxnSystem.step sampleCluster (.softUnlinkDirectory sampleUnlinkDirectory)) sys₀
        [sampleRespond 3] = some sys₁ ∧
      run (TxnSystem.step sampleCluster (.softUnlinkDirectory sampleUnlinkDirectory)) sys₁
        [.timeout, .restart] = some sys ∧
      Sends sampleCluster sampleUnlinkDirectory (sampleChain.map Prod.snd) sys := by
  have hok : PoliciesOk (sampleChain.map Prod.snd) :=
    ⟨[], defaultDirectoryInfo, [defaultDirectoryInfo], rfl, fun i hi => absurd hi not_mem_nil,
      by decide +kernel, by decide +kernel, nofun⟩
  simp only [exists_and_left]
  refine exists_eq_some_imp (fun sys₀ hstart (h : RunMeets (TxnSystem.step sampleCluster
      (.softUnlinkDirectory sampleUnlinkDirectory)) (fun sys _ => OwnerChain sys.shards sampleChain)
      sys₀ [sampleRespond 3] ∧ _) =>
    exists_eq_some_imp (fun sys₁ hrun (h₁ : (OwnerChain sys₁.shards sampleChain ∧
      isWalking sys₁ = true ∧ RunMeets (TxnSystem.step sampleCluster (.softUnlinkDirectory
        sampleUnlinkDirectory)) (fun sys _ => OwnerChain sys.shards sampleChain) sys₁
          [.timeout, .restart]) ∧ _) =>
    exists_eq_some_imp (fun sys hrun₁ (h₂ : OwnerChain sys.shards sampleChain ∧
      isWalking sys = true) => ?_) h₁.2) h.2) (by decide +kernel)
  obtain ⟨hchain₁, hwalking₁, hfixed₁⟩ := h₁.1
  obtain ⟨st₁, shid₁, r₁, htxn₁⟩ := exists_of_isWalking hwalking₁
  obtain ⟨st, shid, r, htxn⟩ := exists_of_isWalking h₂.2
  exact ((sends_policies_iff ⟨_, _, rfl⟩ hstart h.1 hrun htxn₁ hchain₁).2 hok _ sys hfixed₁ hrun₁
    h₂.1).2 st shid r htxn

/-- The directory `d` has a policy for snapshots of its own. -/
def sampleOwnPolicy : DirectoryInfo := [⟨1, [7]⟩]

/-- `sampleTree`, in which the directory `d` has a policy of its own and no files. -/
def sampleOverride : Fin 256 → ShardDB := fun s =>
  if s = 1 then
    { sampleRemoteDB with
      directories := SortedStore.empty.put sampleRemoteDir ⟨.rootDir, 2, sampleOwnPolicy⟩
      currentEdges := .empty }
  else sampleTree s

/-- The policies of the root directory are sent, and the policy of the directory is lost. -/
theorem override_lost : (∀ tag ∈ requiredDirInfoTags,
      (nearest? tag [sampleOwnPolicy, defaultDirectoryInfo]).isSome = true) ∧
    ∃ sys₀ sys state shid, TxnSystem.start (.softUnlinkDirectory sampleUnlinkDirectory) sampleOverride
        .init = some sys₀ ∧
      OwnerChain sys₀.shards
        [(sampleRemoteDir, sampleOwnPolicy), (.rootDir, defaultDirectoryInfo)] ∧
      run (TxnSystem.step sampleCluster (.softUnlinkDirectory sampleUnlinkDirectory)) sys₀
        [sampleRespond 3, sampleRespond 4, sampleRespond 5] = some sys ∧
      sys.txn = .running state shid
        (.write (.removeDirectoryOwner ⟨sampleRemoteDir, defaultDirectoryInfo⟩)) ∧
      ¬ Effective [sampleOwnPolicy, defaultDirectoryInfo] defaultDirectoryInfo := by
  have hnot : ¬ Effective [sampleOwnPolicy, defaultDirectoryInfo] defaultDirectoryInfo := by
    intro heffective
    obtain ⟨e, hfilter, near, hnear, hmem⟩ := heffective 1 (by decide)
    have hown : nearest? 1 [sampleOwnPolicy, defaultDirectoryInfo] = some sampleOwnPolicy := by
      decide +kernel
    have hother : ∀ e ∈ defaultDirectoryInfo.filter (fun e => e.tag = 1), e ∉ sampleOwnPolicy := by
      decide +kernel
    rw [hown, mem_some_iff] at hnear
    subst hnear
    exact hother e (by rw [hfilter]; exact mem_singleton_self e) hmem
  refine ⟨by decide +kernel, ?_⟩
  simp only [exists_and_left]
  refine exists_eq_some_imp (fun sys₀ _ => And.imp_right (exists_eq_some_imp fun sys _
    (h : ∃ state shid r, sys.txn = .running state shid r ∧
      r = .write (.removeDirectoryOwner ⟨sampleRemoteDir, defaultDirectoryInfo⟩)) => ?_))
    (by decide +kernel)
  obtain ⟨state, shid, r, htxn, rfl⟩ := h
  exact ⟨state, shid, htxn, hnot⟩

end SoftUnlinkDirectory

end TernFS
