/-
# The snapshot policy

`edgesToRemove` decides how many of the oldest edges of a name the garbage collector removes. Two
scans run back from the newest snapshot edge, one for each rule of the policy, and a sweep then
takes the deletion edges that would be left in front. FUSE reads the same policy when it unlinks.
-/
import TernFS.Shard.Listings

namespace TernFS.Cleanup

open List Nat

variable {e : Edge} {k i j : ℕ}

/-! ## Times and policies -/

/-- `TernTime.Time`: the conversion to `int64` nanoseconds. -/
def time (t : ℕ) : ℤ := Int.bmod t (2 ^ 64)

/-- `now.Time().Sub(creationTime)`, which saturates at the ends of `int64`. -/
def age (now t : ℕ) : ℤ := max (-2 ^ 63) (min (time now - time t) (2 ^ 63 - 1))

lemma age_anti (now : ℕ) {t t' : ℕ} (h : time t ≤ time t') : age now t' ≤ age now t := by
  show max _ (min _ _) ≤ max _ (min _ _)
  omega

/-- `SnapshotPolicy`: the `uint64` and the `uint16`, whose top bits say whether the rule is
active. -/
structure SnapshotPolicy where
  deleteAfterTime : ℕ
  deleteAfterVersions : ℕ
deriving DecidableEq

namespace SnapshotPolicy

variable (policy : SnapshotPolicy)

/-- `DeleteAfterTime.Active`. -/
def timeActive : Bool := policy.deleteAfterTime / 2 ^ 63 != 0

/-- `DeleteAfterTime.Time`. -/
def timeLimit : ℤ := (policy.deleteAfterTime % 2 ^ 63 : ℕ)

/-- `DeleteAfterVersions.Active`. -/
def versionsActive : Bool := policy.deleteAfterVersions / 2 ^ 15 != 0

/-- `DeleteAfterVersions.Versions`. -/
def versions : ℕ := policy.deleteAfterVersions % 2 ^ 15

end SnapshotPolicy

/-- A deletion edge: its target is `NULL_INODE_ID`. -/
def isDeletion (e : Edge) : Bool := e.targetId.id == InodeId.null

/-! ## The code -/

/-- What `edgesToRemove` and its caller panic with. -/
inductive Panic
  | nonTrailingCurrentEdge (dir : InodeId)
  | multipleNames (name other : Bytes)
  | nonMonotonicTimes
  | unexpectedCurrentEdge (edge : Edge)
  | indexOutOfRange
deriving DecidableEq

/-- The scan of `DeleteAfterVersions`, which looks next at the edge before the given index. -/
def versionsLoop (policy : SnapshotPolicy) (now : ℕ) (edges : List Edge) (minEdgeAge : ℤ) :
    ℕ → ℕ → Except Panic ℤ
  | 0, _ => .ok (-1)
  | i + 1, versionNumber =>
    match edges[i]? with
    | none => .error .indexOutOfRange
    | some edge =>
      if edge.current then .error (.unexpectedCurrentEdge edge)
      else if isDeletion edge then versionsLoop policy now edges minEdgeAge i versionNumber
      else if policy.versions ≤ versionNumber ∧ minEdgeAge < age now edge.creationTime then
        .ok (i + 1)
      else versionsLoop policy now edges minEdgeAge i (versionNumber + 1)

/-- The scan of `DeleteAfterTime`, which looks next at the edge before the given index. -/
def timeLoop (policy : SnapshotPolicy) (now : ℕ) (edges : List Edge) (minEdgeAge : ℤ) :
    ℕ → Except Panic ℤ
  | 0 => .ok (-1)
  | i + 1 =>
    match edges[i]? with
    | none => .error .indexOutOfRange
    | some edge =>
      if edge.current then .error (.unexpectedCurrentEdge edge)
      else if max policy.timeLimit minEdgeAge < age now edge.creationTime then
        if edge.targetId.extra ∨ (isDeletion edge = false ∧ i < edges.length - 1) then
          match edges[i + 1]? with
          | none => .error .indexOutOfRange
          | some nextEdge =>
            if policy.timeLimit < age now nextEdge.creationTime then .ok (i + 1) else .ok i
        else .ok (i + 1)
      else timeLoop policy now edges minEdgeAge i

/-- The number of edges before the trailing current edge: `lastNonCurrentEdge + 1`. -/
def snapshotEdges (edges : List Edge) : ℕ :=
  if edges.getLast?.any (·.current) then edges.length - 1 else edges.length

/-- The last loop: `firstGoodEdge` moves over deletion edges. -/
def sweep (edges : List Edge) (firstGoodEdge : ℕ) : ℕ :=
  firstGoodEdge + ((edges.drop firstGoodEdge).takeWhile isDeletion).length

/-- The three checks of the list. -/
def checkEdges (dir : InodeId) (edges : List Edge) : Except Panic Unit := do
  if edges.dropLast.any (·.current) then .error (.nonTrailingCurrentEdge dir)
  let name := (edges.head?.map (·.name)).getD []
  match edges.find? (·.name != name) with
  | some e => .error (.multipleNames name e.name)
  | none => pure ()
  if (edges.zip edges.tail).any fun p =>
      !(dir.shard == 0 && p.2.current) && decide (p.2.creationTime < p.1.creationTime) then
    .error .nonMonotonicTimes

/-- `firstGoodEdgeVersions`: the versions rule lets the edges before it go. -/
def firstGoodEdgeVersions (policy : SnapshotPolicy) (now : ℕ) (edges : List Edge)
    (minEdgeAge : ℤ) : Except Panic ℤ :=
  if policy.versionsActive then versionsLoop policy now edges minEdgeAge (snapshotEdges edges) 0
  else .ok 0

/-- `firstGoodEdgeTime`: the time rule lets the edges before it go. -/
def firstGoodEdgeTime (policy : SnapshotPolicy) (now : ℕ) (edges : List Edge)
    (minEdgeAge : ℤ) : Except Panic ℤ :=
  if policy.timeActive then timeLoop policy now edges minEdgeAge (snapshotEdges edges)
  else .ok 0

/-- `edgesToRemove`. -/
def edgesToRemove (dir : InodeId) (policy : SnapshotPolicy) (now : ℕ) (edges : List Edge)
    (minEdgeAge : ℤ) : Except Panic ℕ :=
  if edges.isEmpty then .ok 0
  else do
    checkEdges dir edges
    let byVersions ← firstGoodEdgeVersions policy now edges minEdgeAge
    let byTime ← firstGoodEdgeTime policy now edges minEdgeAge
    -- The rules are a disjunction, and a scan that finds nothing ends at `-1`.
    pure (sweep edges (max byVersions byTime).toNat)

/-! ## What the policy retains -/

/-- The edges of one name as the function expects them: oldest first, with the current edge, if
there is one, at the end. The creation times ascend both as the numbers that the code compares and
as the points in time they stand for. -/
structure WellFormed (edges : List Edge) : Prop where
  sameName : ∀ a ∈ edges, ∀ b ∈ edges, a.name = b.name
  ascending : edges.Pairwise fun a b =>
    a.creationTime ≤ b.creationTime ∧ time a.creationTime ≤ time b.creationTime
  trailing : ∀ i e, edges[i]? = some e → i + 1 < edges.length → e.current = false
  current_target : ∀ e ∈ edges, e.current = true → isDeletion e = false
  owned_followed : ∀ i e, edges[i]? = some e → e.current = false → e.targetId.extra = true →
    i + 1 < edges.length

/-- The snapshot edges after the given one that are not deletions. -/
def newerVersions (edges : List Edge) (i : ℕ) : ℕ :=
  ((edges.drop (i + 1)).filter fun e => !e.current && !isDeletion e).length

section Rules

variable (policy : SnapshotPolicy) (now : ℕ) (edges : List Edge) (minEdgeAge : ℤ) (i : ℕ)

/-- The edge has as many newer versions as `DeleteAfterVersions` keeps. -/
def TooManyVersions : Prop :=
  policy.versionsActive = true ∧ policy.versions ≤ newerVersions edges i

/-- The edge was overridden more than `DeleteAfterTime` ago: the edge after it is that old. -/
def Overridden : Prop :=
  policy.timeActive = true ∧
    ∃ next, edges[i + 1]? = some next ∧ policy.timeLimit < age now next.creationTime

/-- Nothing follows the edge, which is neither owned nor a deletion, and it is itself older than
`DeleteAfterTime`. The code takes its own age where the age of the next edge is not known. -/
def LooseEnd : Prop :=
  policy.timeActive = true ∧ i + 1 = edges.length ∧
    ∃ e, edges[i]? = some e ∧ e.current = false ∧ e.targetId.extra = false ∧
      isDeletion e = false ∧ max policy.timeLimit minEdgeAge < age now e.creationTime

/-- A rule of the policy lets the edge go. -/
def Violates : Prop :=
  TooManyVersions policy edges i ∨ Overridden policy now edges i ∨
    LooseEnd policy now edges minEdgeAge i

end Rules

/-- Removing the first `n` edges removes what the policy lets go and nothing else. -/
structure Retains (policy : SnapshotPolicy) (now : ℕ) (edges : List Edge) (minEdgeAge : ℤ)
    (n : ℕ) : Prop where
  le_length : n ≤ edges.length
  current_kept : ∀ i e, i < n → edges[i]? = some e → e.current = false
  justified : ∀ i e, i < n → edges[i]? = some e → isDeletion e = false →
    Violates policy now edges minEdgeAge i
  /-- Only the deletion edges that end the removed part may be young. -/
  not_young : ∀ i e, i < n → edges[i]? = some e → minEdgeAge < age now e.creationTime ∨
    ∀ j e', i ≤ j → j < n → edges[j]? = some e' → isDeletion e' = true
  first_kept : ∀ e, edges[n]? = some e → isDeletion e = false
  complete : ∀ i e, edges[i]? = some e → e.current = false →
    minEdgeAge < age now e.creationTime → Violates policy now edges minEdgeAge i → i < n

/-! ### Lists of edges -/

lemma newerVersions_anti (edges : List Edge) (h : i ≤ j) :
    newerVersions edges j ≤ newerVersions edges i := by
  have hsub : (edges.drop (j + 1)).Sublist (edges.drop (i + 1)) :=
    drop_sublist_drop_left edges (by omega)
  exact (hsub.filter _).length_le

lemma newerVersions_drop (edges : List Edge) (n i : ℕ) :
    newerVersions (edges.drop n) i = newerVersions edges (n + i) := by
  show (filter _ ((edges.drop n).drop (i + 1))).length = _
  rw [drop_drop]
  rfl

/-- Going back over one edge. -/
lemma newerVersions_pred {edges : List Edge} (he : edges[i + 1]? = some e)
    (hcur : e.current = false) :
    newerVersions edges i = newerVersions edges (i + 1) + if isDeletion e then 0 else 1 := by
  obtain ⟨hlt, rfl⟩ := List.getElem?_eq_some_iff.1 he
  show (filter _ (edges.drop (i + 1))).length = _
  rw [drop_eq_getElem_cons hlt, filter_cons]
  cases isDeletion edges[i + 1]
  · simp only [hcur]
    rfl
  · simp only [hcur]
    rfl

namespace WellFormed

variable {edges : List Edge}

lemma age_le (hwf : WellFormed edges) (now : ℕ) {a b : Edge} (hij : i ≤ j)
    (ha : edges[i]? = some a) (hb : edges[j]? = some b) :
    age now b.creationTime ≤ age now a.creationTime := by
  obtain ⟨hi, rfl⟩ := List.getElem?_eq_some_iff.1 ha
  obtain ⟨hj, rfl⟩ := List.getElem?_eq_some_iff.1 hb
  rcases lt_or_eq_of_le hij with hlt | rfl
  · exact age_anti now (pairwise_iff_getElem.1 hwf.ascending i j hi hj hlt).2
  · exact le_rfl

lemma drop (hwf : WellFormed edges) (n : ℕ) : WellFormed (edges.drop n) where
  sameName a ha b hb := hwf.sameName a (mem_of_mem_drop ha) b (mem_of_mem_drop hb)
  ascending := hwf.ascending.sublist (drop_sublist n edges)
  trailing i e he hi := by
    rw [getElem?_drop] at he
    rw [length_drop] at hi
    exact hwf.trailing _ e he (by omega)
  current_target e he := hwf.current_target e (mem_of_mem_drop he)
  owned_followed i e he hcur hown := by
    rw [getElem?_drop] at he
    have hlt := hwf.owned_followed _ e he hcur hown
    rw [length_drop]
    omega

/-- The edges before the trailing current edge are those that are not current. -/
lemma lt_snapshotEdges_iff (hwf : WellFormed edges) (he : edges[i]? = some e) :
    i < snapshotEdges edges ↔ e.current = false := by
  obtain ⟨hi, rfl⟩ := List.getElem?_eq_some_iff.1 he
  have hlast : edges.getLast? = some (edges[edges.length - 1]) := by
    rw [getLast?_eq_getElem?]
    exact getElem?_eq_getElem _
  rw [snapshotEdges, hlast]
  rcases lt_or_eq_of_le (le_sub_one_of_lt hi) with hlt | heq
  · have hcur := hwf.trailing i _ he (by omega)
    constructor
    · intro
      exact hcur
    · intro
      split <;> omega
  · subst heq
    cases hcur : edges[edges.length - 1].current
    · simpa [hcur] using hi
    · simp [hcur]

lemma snapshotEdges_le (edges : List Edge) : snapshotEdges edges ≤ edges.length := by
  rw [snapshotEdges]
  split <;> omega

lemma checkEdges_eq_ok (hwf : WellFormed edges) (dir : InodeId) :
    checkEdges dir edges = .ok () := by
  have hcur : edges.dropLast.any (·.current) = false := by
    rw [any_eq_false]
    intro e he
    obtain ⟨i, hi, rfl⟩ := getElem_of_mem he
    rw [length_dropLast] at hi
    rw [getElem_dropLast, hwf.trailing i _ (getElem?_eq_getElem _) (by omega)]
    exact Bool.false_ne_true
  have hname : edges.find? (·.name != (edges.head?.map (·.name)).getD []) = none := by
    rw [find?_eq_none]
    intro e he
    cases edges with
    | nil => exact absurd he not_mem_nil
    | cons a => simp [hwf.sameName e he a mem_cons_self]
  have htime : ((edges.zip edges.tail).any fun p =>
      !(dir.shard == 0 && p.2.current) &&
        decide (p.2.creationTime < p.1.creationTime)) = false := by
    rw [any_eq_false]
    rintro ⟨a, b⟩ hp
    have hle : a.creationTime ≤ b.creationTime := by
      obtain ⟨i, hi, hpi⟩ := getElem_of_mem hp
      rw [getElem_zip, Prod.mk.injEq, getElem_tail] at hpi
      obtain ⟨rfl, rfl⟩ := hpi
      exact (pairwise_iff_getElem.1 hwf.ascending i (i + 1) _ _ (by omega)).1
    simp [hle]
  rw [checkEdges]
  simp only [hcur, hname, htime]
  rfl

end WellFormed

/-! ### The scans

Each scan ends at a number below which everything is to go, and below which everything that the
rule lets go is. -/

section Scans

variable {policy : SnapshotPolicy} {now : ℕ} {edges : List Edge} {minEdgeAge : ℤ}

/-- Below `r` the edges are old enough and the rule `P` lets the versions go. Of the first `k` edges
there are no others like these, among those with the property `Q`. -/
structure Cut (now : ℕ) (edges : List Edge) (minEdgeAge : ℤ) (P : ℕ → Prop) (Q : Edge → Prop)
    (k : ℕ) (r : ℤ) : Prop where
  le : r ≤ k
  old : ∀ (i : ℕ) (e : Edge), (i : ℤ) < r → edges[i]? = some e → minEdgeAge < age now e.creationTime
  sound : ∀ (i : ℕ) (e : Edge), (i : ℤ) < r → edges[i]? = some e → isDeletion e = false → P i
  all : ∀ i e, i < k → edges[i]? = some e → Q e → minEdgeAge < age now e.creationTime → P i →
    (i : ℤ) < r

/-- Nothing goes if no edge is looked at, or no edge is to go. -/
lemma cut_of_not {P : ℕ → Prop} {Q : Edge → Prop} {r : ℤ} (hr : r ≤ 0) (hP : ∀ i < k, ¬ P i) :
    Cut now edges minEdgeAge P Q k r := by
  refine ⟨by omega, ?_, ?_, fun i e hi _ _ _ h => absurd h (hP i hi)⟩
  · intro i e hi
    omega
  · intro i e hi
    omega

lemma Cut.succ {P : ℕ → Prop} {Q : Edge → Prop} {r : ℤ} (hcut : Cut now edges minEdgeAge P Q k r)
    (he : edges[k]? = some e) (hstay : Q e → minEdgeAge < age now e.creationTime → ¬ P k) :
    Cut now edges minEdgeAge P Q (k + 1) r := by
  refine ⟨le_trans hcut.le (by omega), hcut.old, hcut.sound, fun i e' hi he' hq hage hp => ?_⟩
  rcases Nat.lt_succ_iff_lt_or_eq.1 hi with hlt | rfl
  · exact hcut.all i e' hlt he' hq hage hp
  · obtain rfl := Option.mem_unique he he'
    exact absurd hp (hstay hq hage)

/-- The edge that a scan looks at next is a snapshot edge. -/
lemma WellFormed.exists_of_lt (hwf : WellFormed edges) (hk : k < snapshotEdges edges) :
    ∃ e, edges[k]? = some e ∧ e.current = false := by
  have hlen := snapshotEdges_le edges
  have he := getElem?_eq_getElem (show k < edges.length by omega)
  exact ⟨_, he, (hwf.lt_snapshotEdges_iff he).1 hk⟩

/-- The number of versions counted so far is the number of newer versions of the edge that is
looked at next. -/
lemma versionsLoop_spec (hwf : WellFormed edges) (hact : policy.versionsActive = true) {v : ℕ}
    (hk : k ≤ snapshotEdges edges) (hv : ∀ i, k = i + 1 → v = newerVersions edges i) :
    ∃ r, versionsLoop policy now edges minEdgeAge k v = .ok r ∧
      Cut now edges minEdgeAge (TooManyVersions policy edges) (isDeletion · = false) k r := by
  induction k generalizing v with
  | zero => exact ⟨-1, rfl, cut_of_not (by omega) nofun⟩
  | succ k ih =>
    obtain ⟨e, he, hcur⟩ := hwf.exists_of_lt hk
    obtain rfl := hv k rfl
    rw [versionsLoop, he]
    simp only [hcur, Bool.false_eq_true, if_false]
    have hstep : ∀ v', v' = newerVersions edges k + (if isDeletion e then 0 else 1) →
        ∀ i, k = i + 1 → v' = newerVersions edges i := by
      rintro v' rfl i rfl
      exact (newerVersions_pred he hcur).symm
    split
    · next hdel =>
      obtain ⟨r, hr, hcut⟩ := ih (by omega) (hstep _ (by rw [if_pos hdel, add_zero]))
      exact ⟨r, hr, hcut.succ he fun hdel' => absurd hdel (ne_true_of_eq_false hdel')⟩
    next hdel =>
    split
    · next hbreak =>
      refine ⟨(k : ℤ) + 1, rfl, by omega, ?_, ?_, fun i _ hi _ _ _ _ => by omega⟩
      · intro i e' hi he'
        exact lt_of_lt_of_le hbreak.2 (hwf.age_le now (by omega) he' he)
      · intro i e' hi he' hdel'
        exact ⟨hact, le_trans hbreak.1 (newerVersions_anti edges (by omega))⟩
    · next hgo =>
      obtain ⟨r, hr, hcut⟩ := ih (by omega) (hstep _ (by rw [if_neg hdel]))
      exact ⟨r, hr, hcut.succ he fun _ hage hmany => hgo ⟨hmany.2, hage⟩⟩

/-- What `DeleteAfterTime` lets go. -/
def TimeRule (policy : SnapshotPolicy) (now : ℕ) (edges : List Edge) (minEdgeAge : ℤ) (i : ℕ) :
    Prop :=
  Overridden policy now edges i ∨ LooseEnd policy now edges minEdgeAge i

/-- An edge before one that is older than `DeleteAfterTime` was overridden as long ago. -/
lemma overridden_of_lt (hwf : WellFormed edges) (hact : policy.timeActive = true) (hij : i < j)
    (he : edges[j]? = some e) (hold : policy.timeLimit < age now e.creationTime) :
    Overridden policy now edges i := by
  obtain ⟨hlt, -⟩ := List.getElem?_eq_some_iff.1 he
  have hnext : edges[i + 1]? = some (edges[i + 1]) := getElem?_eq_getElem (by omega)
  exact ⟨hact, _, hnext, lt_of_lt_of_le hold (hwf.age_le now (by omega) hnext he)⟩

/-- An edge that the rule lets go and that is past `minEdgeAge` is past both limits. -/
lemma old_of_timeRule (hwf : WellFormed edges) (he : edges[i]? = some e)
    (hage : minEdgeAge < age now e.creationTime) (hrule : TimeRule policy now edges minEdgeAge i) :
    max policy.timeLimit minEdgeAge < age now e.creationTime := by
  rcases hrule with ⟨-, next, hnext, hexpired⟩ | ⟨-, -, e', he', -, -, -, hold⟩
  · exact max_lt (lt_of_lt_of_le hexpired (hwf.age_le now (le_succ i) he hnext)) hage
  · obtain rfl := Option.mem_unique he he'
    exact hold

lemma timeLoop_spec (hwf : WellFormed edges) (hact : policy.timeActive = true)
    (hk : k ≤ snapshotEdges edges) :
    ∃ r, timeLoop policy now edges minEdgeAge k = .ok r ∧
      Cut now edges minEdgeAge (TimeRule policy now edges minEdgeAge) (fun _ => True) k r := by
  induction k with
  | zero => exact ⟨-1, rfl, cut_of_not (by omega) nofun⟩
  | succ k ih =>
    obtain ⟨e, he, hcur⟩ := hwf.exists_of_lt hk
    rw [timeLoop, he]
    simp only [hcur, Bool.false_eq_true, if_false]
    split
    · next hold =>
      obtain ⟨hlimit, hmin⟩ := max_lt_iff.1 hold
      have hages : ∀ i e', i ≤ k → edges[i]? = some e' → minEdgeAge < age now e'.creationTime :=
        fun i e' hi he' => lt_of_lt_of_le hmin (hwf.age_le now hi he' he)
      have hbefore : ∀ i, i < k → TimeRule policy now edges minEdgeAge i := fun i hi =>
        Or.inl (overridden_of_lt hwf hact hi he hlimit)
      -- The edge itself goes as soon as the rule holds for it or it is a deletion.
      have htake : (isDeletion e = false → TimeRule policy now edges minEdgeAge k) →
          Cut now edges minEdgeAge (TimeRule policy now edges minEdgeAge) (fun _ => True) (k + 1)
            ((k : ℤ) + 1) := by
        intro hself
        refine ⟨by omega, fun i e' hi he' => hages i e' (by omega) he', ?_,
          fun i _ hi _ _ _ _ => by omega⟩
        intro i e' hi he' hdel
        rcases lt_or_eq_of_le (show i ≤ k by omega) with hlt | rfl
        · exact hbefore i hlt
        · obtain rfl := Option.mem_unique he he'
          exact hself hdel
      split
      · next hlook =>
        have hfollowed : k + 1 < edges.length := by
          rcases hlook with hown | ⟨-, hlt⟩
          · exact hwf.owned_followed k e he hcur hown
          · omega
        have hnext : edges[k + 1]? = some edges[k + 1] := getElem?_eq_getElem hfollowed
        rw [hnext]
        dsimp only
        split
        · next hexpired => exact ⟨_, rfl, htake fun _ => Or.inl ⟨hact, _, hnext, hexpired⟩⟩
        next hgood =>
        have hcut : Cut now edges minEdgeAge (TimeRule policy now edges minEdgeAge)
            (fun _ => True) k k :=
          ⟨le_rfl, fun i e' hi he' => hages i e' (by omega) he',
            fun i _ hi _ _ => hbefore i (by omega), fun i _ hi _ _ _ _ => by omega⟩
        refine ⟨k, rfl, hcut.succ he fun _ _ hrule => ?_⟩
        rcases hrule with ⟨-, next, hnext', hexpired⟩ | ⟨-, hend, -⟩
        · obtain rfl := Option.mem_unique hnext hnext'
          exact hgood hexpired
        · omega
      · next hlook =>
        refine ⟨_, rfl, htake fun hdel => Or.inr ⟨hact, ?_, e, he, hcur, ?_, hdel, hold⟩⟩
        · have hlast : ¬ k < edges.length - 1 := fun hlt => hlook (Or.inr ⟨hdel, hlt⟩)
          have hlen := WellFormed.snapshotEdges_le edges
          omega
        · exact Bool.eq_false_iff.2 fun hown => hlook (Or.inl hown)
    · next hyoung =>
      obtain ⟨r, hr, hcut⟩ := ih (by omega)
      exact ⟨r, hr, hcut.succ he fun _ hage hrule => hyoung (old_of_timeRule hwf he hage hrule)⟩

end Scans

/-! ### The sweep -/

lemma le_sweep (edges : List Edge) (k : ℕ) : k ≤ sweep edges k := le_add_right _ _

lemma sweep_le {edges : List Edge} (hk : k ≤ edges.length) : sweep edges k ≤ edges.length := by
  have hle := (takeWhile_sublist (l := edges.drop k) isDeletion).length_le
  rw [length_drop] at hle
  show k + _ ≤ _
  omega

lemma isDeletion_of_lt_sweep {edges : List Edge} (hkj : k ≤ j) (hj : j < sweep edges k)
    (he : edges[j]? = some e) : isDeletion e = true := by
  obtain ⟨d, rfl⟩ := Nat.exists_eq_add_of_le hkj
  have hd : d < ((edges.drop k).takeWhile isDeletion).length := Nat.lt_of_add_lt_add_left hj
  have hsame := ( takeWhile_prefix (l := edges.drop k) isDeletion).getElem hd
  rw [← getElem?_drop] at he
  obtain ⟨hd', rfl⟩ := List.getElem?_eq_some_iff.1 he
  rw [← hsame]
  exact all_eq_true.1 all_takeWhile _ (getElem_mem hd)

lemma isDeletion_sweep {edges : List Edge} (he : edges[sweep edges k]? = some e) :
    isDeletion e = false := by
  have hhead : ((edges.drop k).dropWhile isDeletion).head? = some e := by
    rw [head?_eq_getElem?, ← he, sweep, ← getElem?_drop]
    conv_rhs => rw [← takeWhile_append_dropWhile (p := isDeletion) (l := edges.drop k)]
    rw [getElem?_append_right (by simp)]
    simp
  have hnot := head?_dropWhile_not isDeletion (edges.drop k)
  rw [hhead] at hnot
  exact Bool.eq_false_iff.2 (by simpa using hnot)

/-! ### The whole function -/

section Whole

variable {edges : List Edge} (dir : InodeId) (policy : SnapshotPolicy) (now : ℕ) (minEdgeAge : ℤ)

lemma firstGoodEdgeVersions_spec (hwf : WellFormed edges) :
    ∃ r, firstGoodEdgeVersions policy now edges minEdgeAge = .ok r ∧
      Cut now edges minEdgeAge (TooManyVersions policy edges) (isDeletion · = false)
        (snapshotEdges edges) r := by
  rw [firstGoodEdgeVersions]
  split
  · next hact =>
    refine versionsLoop_spec hwf hact le_rfl ?_
    -- Only the current edge stands after the edge where the scan starts.
    intro i hi
    symm
    rw [newerVersions, length_eq_zero_iff, filter_eq_nil_iff]
    intro e he
    obtain ⟨j, hj, rfl⟩ := getElem_of_mem he
    rw [length_drop] at hj
    have hlt : i + 1 + j < edges.length := by omega
    have hcur := (not_congr (hwf.lt_snapshotEdges_iff (getElem?_eq_getElem hlt))).1 (by omega)
    simp [hcur]
  · next hact => exact ⟨0, rfl, cut_of_not le_rfl fun i _ hmany => hact hmany.1⟩

lemma firstGoodEdgeTime_spec (hwf : WellFormed edges) :
    ∃ r, firstGoodEdgeTime policy now edges minEdgeAge = .ok r ∧
      Cut now edges minEdgeAge (TimeRule policy now edges minEdgeAge) (fun _ => True)
        (snapshotEdges edges) r := by
  rw [firstGoodEdgeTime]
  split
  · next hact => exact timeLoop_spec hwf hact le_rfl
  next hact =>
  refine ⟨0, rfl, cut_of_not le_rfl fun i _ hrule => ?_⟩
  rcases hrule with hrule | hrule
  · exact hact hrule.1
  · exact hact hrule.1

/-- On a well-formed list the function does not panic, and what it says to remove is right. -/
lemma edgesToRemove_eq_ok (hwf : WellFormed edges) :
    ∃ n, edgesToRemove dir policy now edges minEdgeAge = .ok n ∧
      Retains policy now edges minEdgeAge n := by
  rw [edgesToRemove]
  split
  · next hnil =>
    obtain rfl := isEmpty_iff.1 hnil
    exact ⟨0, rfl, ⟨le_rfl, by simp, by simp, by simp, by simp, by simp⟩⟩
  rw [hwf.checkEdges_eq_ok]
  obtain ⟨rv, hrv, hcutv⟩ := firstGoodEdgeVersions_spec policy now minEdgeAge hwf
  obtain ⟨rt, hrt, hcutt⟩ := firstGoodEdgeTime_spec policy now minEdgeAge hwf
  rw [hrv, hrt]
  refine ⟨sweep edges (max rv rt).toNat, rfl, ?_⟩
  generalize hm : (max rv rt).toNat = m
  have hlt : ∀ i : ℕ, i < m ↔ (i : ℤ) < rv ∨ (i : ℤ) < rt := fun i => by omega
  have hms : m ≤ snapshotEdges edges := by
    have hv := hcutv.le
    have ht := hcutt.le
    omega
  have hlen := WellFormed.snapshotEdges_le edges
  have hle := le_sweep edges m
  have hmany : ∀ i e, edges[i]? = some e → e.current = false → isDeletion e = false →
      minEdgeAge < age now e.creationTime → TooManyVersions policy edges i →
      i < sweep edges m := by
    intro i e he hcur hdel hage h
    have hi := hcutv.all i e ((hwf.lt_snapshotEdges_iff he).2 hcur) he hdel hage h
    exact lt_of_lt_of_le ((hlt i).2 (Or.inl hi)) hle
  have hfirst : ∀ e, edges[sweep edges m]? = some e → isDeletion e = false :=
    fun e he => isDeletion_sweep he
  refine ⟨sweep_le (by omega), ?_, ?_, ?_, hfirst, ?_⟩
  · intro i e hi he
    rcases lt_or_ge i m with him | him
    · exact (hwf.lt_snapshotEdges_iff he).1 (by omega)
    have hdel := isDeletion_of_lt_sweep him hi he
    refine Bool.eq_false_iff.2 fun hcur => ?_
    rw [hwf.current_target e (mem_of_getElem? he) hcur] at hdel
    exact Bool.false_ne_true hdel
  · intro i e hi he hdel
    rcases lt_or_ge i m with him | him
    · rcases (hlt i).1 him with h | h
      · exact Or.inl (hcutv.sound i e h he hdel)
      · exact Or.inr (hcutt.sound i e h he hdel)
    · exact absurd (isDeletion_of_lt_sweep him hi he) (ne_true_of_eq_false hdel)
  · intro i e hi he
    rcases lt_or_ge i m with him | him
    · rcases (hlt i).1 him with h | h
      · exact Or.inl (hcutv.old i e h he)
      · exact Or.inl (hcutt.old i e h he)
    · exact Or.inr fun j e' hij hj he' => isDeletion_of_lt_sweep (le_trans him hij) hj he'
  · intro i e he hcur hage hviol
    rcases hviol with h | h
    · cases hdel : isDeletion e with
      | false => exact hmany i e he hcur hdel hage h
      | true =>
        -- A version that stays before a deletion would itself have too many newer ones.
        by_contra hge
        obtain ⟨hi, -⟩ := List.getElem?_eq_some_iff.1 he
        have hget : edges[sweep edges m]? = some edges[sweep edges m] :=
          getElem?_eq_getElem (by omega)
        have hne : sweep edges m ≠ i := by
          rintro rfl
          rw [hfirst e he] at hdel
          exact Bool.false_ne_true hdel
        have hself := hmany _ _ hget (hwf.trailing _ _ hget (by omega)) (hfirst _ hget)
          (lt_of_lt_of_le hage (hwf.age_le now (by omega) hget he))
          ⟨h.1, le_trans h.2 (newerVersions_anti edges (by omega))⟩
        exact absurd hself (lt_irrefl _)
    · have hi := hcutt.all i e ((hwf.lt_snapshotEdges_iff he).2 hcur) he trivial hage h
      exact lt_of_lt_of_le ((hlt i).2 (Or.inr hi)) hle

variable {policy now minEdgeAge}

/-- A rule lets an edge go before and after the edges in front are removed. -/
lemma violates_drop {n : ℕ} (h : Violates policy now (edges.drop n) minEdgeAge i) :
    Violates policy now edges minEdgeAge (n + i) := by
  rcases h with ⟨hact, h⟩ | ⟨hact, next, hnext, h⟩ | ⟨hact, hend, e, he, h⟩
  · rw [newerVersions_drop] at h
    exact Or.inl ⟨hact, h⟩
  · rw [getElem?_drop] at hnext
    exact Or.inr (Or.inl ⟨hact, next, hnext, h⟩)
  · rw [getElem?_drop] at he
    rw [length_drop] at hend
    exact Or.inr (Or.inr ⟨hact, by omega, e, he, h⟩)

/-- What is left satisfies the policy. -/
lemma Retains.eq_zero_of_drop {n n' : ℕ} (h : Retains policy now edges minEdgeAge n)
    (h' : Retains policy now (edges.drop n) minEdgeAge n') : n' = 0 := by
  by_contra hpos
  have hlen := h'.le_length
  obtain ⟨e, he⟩ : ∃ e, (edges.drop n)[0]? = some e := ⟨_, getElem?_eq_getElem (by omega)⟩
  have hget : edges[n]? = some e := by
    rw [← he, getElem?_drop, add_zero]
  have hdel := h.first_kept e hget
  have hcur := h'.current_kept 0 e (by omega) he
  have hage : minEdgeAge < age now e.creationTime := by
    rcases h'.not_young 0 e (by omega) he with hage | hdels
    · exact hage
    · have htrue := hdels 0 e le_rfl (by omega) he
      rw [hdel] at htrue
      exact absurd htrue Bool.false_ne_true
  have hviol := violates_drop (h'.justified 0 e (by omega) he hdel)
  exact absurd (h.complete n e hget hcur hage hviol) (lt_irrefl n)

end Whole

/-- What garbage collection removes of a name is what the policy lets go: versions beyond
`DeleteAfterVersions`, versions overridden longer ago than `DeleteAfterTime`, and a version that is
not owned, that nothing follows and that is that old itself. Deletion edges go with the versions
before them, at any age. -/
theorem edgesToRemove_retains {edges : List Edge} (hwf : WellFormed edges) (dir : InodeId)
    (policy : SnapshotPolicy) (now : ℕ) (minEdgeAge : ℤ) :
    ∃ n, edgesToRemove dir policy now edges minEdgeAge = .ok n ∧
      Retains policy now edges minEdgeAge n ∧
      edgesToRemove dir policy now (edges.drop n) minEdgeAge = .ok 0 := by
  obtain ⟨n, hn, hret⟩ := edgesToRemove_eq_ok dir policy now minEdgeAge hwf
  obtain ⟨n', hn', hret'⟩ := edgesToRemove_eq_ok dir policy now minEdgeAge (hwf.drop n)
  obtain rfl := hret.eq_zero_of_drop hret'
  exact ⟨n, hn, hret, hn'⟩

/-- A snapshot edge of the name `f`. -/
def sampleSnapshot (target : ℕ) (owned : Bool) (creationTime : ℕ) : Edge :=
  ⟨false, InodeIdExtra.of ⟨target⟩ owned, 0, [102], creationTime⟩

/-- Two versions of a file and its deletion. -/
def sampleHistory : List Edge :=
  [sampleSnapshot 512 true 100, sampleSnapshot 768 true 200, sampleSnapshot 0 false 300]

lemma sampleHistory_wellFormed : WellFormed sampleHistory where
  sameName := by decide
  ascending := by decide
  trailing i e he _ := by
    have hall : ∀ e ∈ sampleHistory, e.current = false := by decide
    exact hall e (mem_of_getElem? he)
  current_target := by decide
  owned_followed
    | 0, _, _, _, _ => by decide
    | 1, _, _, _, _ => by decide
    | 2, _, he, _, hown => by cases he; exact absurd hown (by decide)

theorem edgesToRemove_retains_sample :
    ∃ n, edgesToRemove ⟨256⟩ ⟨0, 2 ^ 15 + 1⟩ 400 sampleHistory 50 = .ok n ∧
      Retains ⟨0, 2 ^ 15 + 1⟩ 400 sampleHistory 50 n ∧
      edgesToRemove ⟨256⟩ ⟨0, 2 ^ 15 + 1⟩ 400 (sampleHistory.drop n) 50 = .ok 0 :=
  edgesToRemove_retains sampleHistory_wellFormed ⟨256⟩ ⟨0, 2 ^ 15 + 1⟩ 400 50

lemma wellFormed_singleton (hcur : e.current = false) (hown : e.targetId.extra = false) :
    WellFormed [e] where
  sameName := by simp
  ascending := pairwise_singleton _ _
  trailing := by simp
  current_target := by simp [hcur]
  owned_followed i e' he' _ hown' := by
    obtain rfl := mem_singleton.1 (mem_of_getElem? he')
    rw [hown] at hown'
    exact absurd hown' Bool.false_ne_true

/-- A version that is not owned goes although nothing has overridden it, and a deletion edge goes
although it is younger than the minimum age. -/
theorem edgesToRemove_exceptions : (WellFormed [sampleSnapshot 512 false 100] ∧
      edgesToRemove ⟨256⟩ ⟨2 ^ 63 + 10, 0⟩ 200 [sampleSnapshot 512 false 100] 5 = .ok 1 ∧
      ¬ TooManyVersions ⟨2 ^ 63 + 10, 0⟩ [sampleSnapshot 512 false 100] 0 ∧
      ¬ Overridden ⟨2 ^ 63 + 10, 0⟩ 200 [sampleSnapshot 512 false 100] 0) ∧
    (WellFormed [sampleSnapshot 0 false 199] ∧
      edgesToRemove ⟨256⟩ ⟨2 ^ 63 + 10, 0⟩ 200 [sampleSnapshot 0 false 199] 5 = .ok 1 ∧
      age 200 (sampleSnapshot 0 false 199).creationTime < 5) := by
  refine ⟨⟨wellFormed_singleton rfl rfl, by decide, ?_, ?_⟩,
    wellFormed_singleton rfl rfl, by decide, by decide⟩
  · rintro ⟨hact, -⟩
    exact absurd hact (by decide)
  · rintro ⟨-, next, hnext, -⟩
    exact absurd hnext (by simp)

/-! ## Unlink through FUSE

`Unlink` deletes a file at once where its own reading of the policy says that nothing would keep
it. -/

/-- `canDeleteFileImmediately`. -/
def canDeleteFileImmediately (policy : SnapshotPolicy) : Bool :=
  !(!policy.timeActive && !policy.versionsActive) &&
    ((!policy.versionsActive || policy.timeLimit == 0) ||
      (!policy.timeActive || policy.versions == 0))

/-- A version that is not current any more, as `SoftUnlinkFile` leaves it. -/
def ownedSnapshot (version : Edge) : Edge :=
  { version with current := false, targetId := { version.targetId with extra := true } }

/-- The deletion edge that `SoftUnlinkFile` adds. -/
def deletionEdge (version : Edge) (unlinkTime : ℕ) : Edge :=
  { version with current := false, targetId := .of .null false, creationTime := unlinkTime }

/-- The edges of a name after the soft unlink of its current edge. -/
def softUnlinked (older : List Edge) (version : Edge) (unlinkTime : ℕ) : List Edge :=
  older ++ [ownedSnapshot version, deletionEdge version unlinkTime]

lemma newerVersions_softUnlinked (older : List Edge) (version : Edge) (unlinkTime : ℕ) :
    newerVersions (softUnlinked older version unlinkTime) older.length = 0 := by
  rw [newerVersions, softUnlinked, drop_append, drop_eq_nil_of_le (le_succ _),
    nil_append, Nat.add_sub_cancel_left]
  rfl

lemma sampleUnlink_wellFormed : WellFormed (softUnlinked [] (sampleSnapshot 512 true 0) 1) where
  sameName := by decide
  ascending := by decide
  trailing
    | 0, _, he, _ => by cases he; rfl
  current_target := by decide
  owned_followed
    | 0, _, _, _, _ => by decide
    | 1, _, he, _, hown => by cases he; exact absurd hown (by decide)

/-- The collector takes the unlinked version by one of the rules alone: the unlink is older than
`DeleteAfterTime`, or no versions are kept. -/
lemma removes_softUnlinked_iff {older : List Edge} {version : Edge} {unlinkTime now : ℕ}
    (hwf : WellFormed (softUnlinked older version unlinkTime)) (hver : isDeletion version = false)
    (hnow : time unlinkTime < time now) (dir : InodeId) (policy : SnapshotPolicy) :
    (∃ n, edgesToRemove dir policy now (softUnlinked older version unlinkTime) 0 = .ok n ∧
      older.length < n) ↔
    (policy.timeActive = true ∧ policy.timeLimit < age now unlinkTime) ∨
      (policy.versionsActive = true ∧ policy.versions = 0) := by
  obtain ⟨n, hn, hret⟩ := edgesToRemove_eq_ok dir policy now 0 hwf
  have hnewer := newerVersions_softUnlinked older version unlinkTime
  have hlen : (softUnlinked older version unlinkTime).length = older.length + 2 := by
    simp [softUnlinked]
  have hget : (softUnlinked older version unlinkTime)[older.length]? =
      some (ownedSnapshot version) := by simp [softUnlinked]
  have hnext : (softUnlinked older version unlinkTime)[older.length + 1]? =
      some (deletionEdge version unlinkTime) := by simp [softUnlinked]
  rw [hn]
  constructor
  · rintro ⟨n', hn', hlt⟩
    obtain rfl := Except.ok.inj hn'
    rcases hret.justified _ _ hlt hget hver with
      ⟨hact, hmany⟩ | ⟨hact, next, hnext', hold⟩ | ⟨-, hend, -⟩
    · exact Or.inr ⟨hact, by omega⟩
    · obtain rfl := Option.mem_unique hnext hnext'
      exact Or.inl ⟨hact, hold⟩
    · omega
  · intro hrule
    have hpos : 0 < age now unlinkTime := by
      rw [age]
      omega
    refine ⟨n, rfl, hret.complete _ _ hget rfl ?_ ?_⟩
    · have hle := hwf.age_le now (le_succ _) hget hnext
      exact lt_of_lt_of_le hpos hle
    · rcases hrule with ⟨hact, hold⟩ | ⟨hact, hzero⟩
      · exact Or.inr (Or.inl ⟨hact, _, hnext, hold⟩)
      · exact Or.inl ⟨hact, by omega⟩

/-- **Unlink deletes what the collector would.** For a policy under which `Unlink` deletes the file
at once, the collector takes the version out of every history at every later time: exactly when a
rule that is active alone keeps nothing. Where only one rule is active, the code does not look at
its limit. -/
theorem unlink_collected_iff (policy : SnapshotPolicy) : (canDeleteFileImmediately policy = true →
      ∀ dir older version unlinkTime now, WellFormed (softUnlinked older version unlinkTime) →
        isDeletion version = false → time unlinkTime < time now →
        ∃ n, edgesToRemove dir policy now (softUnlinked older version unlinkTime) 0 = .ok n ∧
          older.length < n) ↔
    (policy.timeActive = true → policy.versionsActive = false → policy.timeLimit = 0) ∧
      (policy.versionsActive = true → policy.timeActive = false → policy.versions = 0) := by
  have hlimit : 0 ≤ policy.timeLimit := Int.natCast_nonneg _
  constructor
  · intro h
    -- a file created at 0 and unlinked at 1, looked at by the collector at 2
    have hrule := fun hcan => (removes_softUnlinked_iff sampleUnlink_wellFormed (by decide)
      (by decide) ⟨256⟩ policy).1 (h hcan _ _ _ _ 2 sampleUnlink_wellFormed (by decide) (by decide))
    have hage : age 2 1 = 1 := by decide
    refine ⟨fun ht hv => ?_, fun hv ht => ?_⟩
    · simp [canDeleteFileImmediately, ht, hv] at hrule
      omega
    · simpa [canDeleteFileImmediately, ht, hv] using hrule
  · rintro ⟨ht, hv⟩ hcan dir older version unlinkTime now hwf hver hnow
    rw [removes_softUnlinked_iff hwf hver hnow]
    have hpos : 0 < age now unlinkTime := by
      rw [age]
      omega
    cases htime : policy.timeActive <;> cases hvers : policy.versionsActive <;>
      simp_all [canDeleteFileImmediately]
    rcases hcan with hzero | hzero
    · simp [hzero, hpos]
    · exact Or.inr hzero

/-- With 30 days to keep every version, the file is deleted at once, and the collector would have
kept it. -/
theorem unlink_deletes_retained :
    canDeleteFileImmediately ⟨2 ^ 63 + 30 * 86400 * 10 ^ 9, 0⟩ = true ∧
    WellFormed (softUnlinked [] (sampleSnapshot 512 true 0) 1) ∧
    edgesToRemove ⟨256⟩ ⟨2 ^ 63 + 30 * 86400 * 10 ^ 9, 0⟩ 2
      (softUnlinked [] (sampleSnapshot 512 true 0) 1) 0 = .ok 0 :=
  ⟨by decide, sampleUnlink_wellFormed, by decide⟩

end TernFS.Cleanup
