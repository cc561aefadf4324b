/-
# Listing a directory page by page

The edges of a directory are listed in key order from a start position, forwards or backwards, by
feeding the cursor of each response into the next request.  A cursor stands at the first edge that
was taken off its page, and names it completely: whether it is current, its name, and its creation
time.  So the next page starts at that edge, whatever the hashes are, and nothing is lost or listed
twice at the end of a page, be it between two snapshot edges of one name or between the last snapshot
edge and the first current one.

A limit ends the listing by design: the page that reaches it has the empty cursor.

`_readDir` lists the current edges only, and its cursor is a hash.  A page must not end within the
edges that have one hash, so these are taken off together.  If each such group fits into a page, the
pages list each edge once; a group that does not fit leaves an empty page that leads to itself.
-/
import TernFS.Lib.Paging
import TernFS.Shard.EdgePages
import TernFS.Shard.Tiling

namespace TernFS

open Lib List

/-! ## Key order -/

lemma EdgeKey.lt_iff {a b : EdgeKey} : a < b ↔ a.current < b.current ∨ a.current = b.current ∧
      (a.nameHash < b.nameHash ∨ a.nameHash = b.nameHash ∧
        (a.name.length < b.name.length ∨ a.name.length = b.name.length ∧
          (a.name < b.name ∨ a.name = b.name ∧ a.creationTime < b.creationTime))) := by
  have h : a < b ↔ toLex (a.current, toLex (a.nameHash, toLex (a.name.length, toLex (a.name,
        a.creationTime)))) <
      toLex (b.current, toLex (b.nameHash, toLex (b.name.length, toLex (b.name,
        b.creationTime)))) := Iff.rfl
  rw [h]
  simp only [Prod.Lex.toLex_lt_toLex]

lemma EdgeName.lt_iff {a b : EdgeName} : a < b ↔ a.dirId < b.dirId ∨ a.dirId = b.dirId ∧
      (a.nameHash < b.nameHash ∨ a.nameHash = b.nameHash ∧
        (a.name.length < b.name.length ∨ a.name.length = b.name.length ∧ a.name < b.name)) := by
  have h : a < b ↔ toLex (a.dirId, toLex (a.nameHash, toLex (a.name.length, a.name))) <
      toLex (b.dirId, toLex (b.nameHash, toLex (b.name.length, b.name))) := Iff.rfl
  rw [h]
  simp only [Prod.Lex.toLex_lt_toLex]

lemma SnapshotEdgeKey.lt_iff {a b : SnapshotEdgeKey} :
    a < b ↔ a.edge < b.edge ∨ a.edge = b.edge ∧ a.creationTime < b.creationTime := by
  have h : a < b ↔ toLex (a.edge, a.creationTime) < toLex (b.edge, b.creationTime) := Iff.rfl
  rw [h]
  simp only [Prod.Lex.toLex_lt_toLex]

lemma key_lt_ofSnapshot {a b : SnapshotEdgeKey × SnapshotEdgeBody} (h : a.1 < b.1)
    (hdir : a.1.edge.dirId = b.1.edge.dirId) : (Edge.ofSnapshot a).key < (Edge.ofSnapshot b).key := by
  rw [EdgeKey.lt_iff]
  refine .inr ⟨rfl, ?_⟩
  show a.1.edge.nameHash < b.1.edge.nameHash ∨ a.1.edge.nameHash = b.1.edge.nameHash ∧
    (a.1.edge.name.length < b.1.edge.name.length ∨ a.1.edge.name.length = b.1.edge.name.length ∧
      (a.1.edge.name < b.1.edge.name ∨
        a.1.edge.name = b.1.edge.name ∧ a.1.creationTime < b.1.creationTime))
  rcases SnapshotEdgeKey.lt_iff.mp h with hedge | ⟨hedge, htime⟩
  · rcases EdgeName.lt_iff.mp hedge with hlt | ⟨-, hhash | ⟨hhash, hlen | ⟨hlen, hname⟩⟩⟩
    · rw [hdir] at hlt
      exact absurd hlt (lt_irrefl _)
    · exact .inl hhash
    · exact .inr ⟨hhash, .inl hlen⟩
    · exact .inr ⟨hhash, .inr ⟨hlen, .inl hname⟩⟩
  · rw [hedge]
    exact .inr ⟨rfl, .inr ⟨rfl, .inr ⟨rfl, htime⟩⟩⟩

lemma key_lt_ofCurrent {a b : EdgeName × CurrentEdgeBody} (h : a.1 < b.1)
    (hdir : a.1.dirId = b.1.dirId) : (Edge.ofCurrent a).key < (Edge.ofCurrent b).key := by
  rw [EdgeKey.lt_iff]
  refine .inr ⟨rfl, ?_⟩
  rcases EdgeName.lt_iff.mp h with hlt | ⟨-, hhash | ⟨hhash, hlen | ⟨hlen, hname⟩⟩⟩
  · rw [hdir] at hlt
    exact absurd hlt (lt_irrefl _)
  · exact .inl hhash
  · exact .inr ⟨hhash, .inl hlen⟩
  · exact .inr ⟨hhash, .inr ⟨hlen, .inl hname⟩⟩

lemma key_lt_of_snapshot_current (a : SnapshotEdgeKey × SnapshotEdgeBody)
    (b : EdgeName × CurrentEdgeBody) : (Edge.ofSnapshot a).key < (Edge.ofCurrent b).key := by
  rw [EdgeKey.lt_iff]
  exact .inl rfl

lemma ShardDB.edges_sorted (db : ShardDB) (dirId : InodeId) :
    (db.edges dirId).Pairwise fun a b => a.key < b.key := by
  rw [ShardDB.edges, pairwise_append, pairwise_map, pairwise_map]
  refine ⟨?_, ?_, ?_⟩
  · have hsorted : SortedEntries (db.snapshotEdges.entries.filter
        fun e => e.1.edge.dirId = dirId.masked) := db.snapshotEdges.sorted.filter _
    exact hsorted.imp_of_mem fun {a b} ha hb hlt => key_lt_ofSnapshot hlt
      ((of_decide_eq_true (mem_filter.mp ha).2).trans (of_decide_eq_true (mem_filter.mp hb).2).symm)
  · have hsorted : SortedEntries (db.currentEdges.entries.filter
        fun e => e.1.dirId = dirId.masked) := db.currentEdges.sorted.filter _
    exact hsorted.imp_of_mem fun {a b} ha hb hlt => key_lt_ofCurrent hlt
      ((of_decide_eq_true (mem_filter.mp ha).2).trans (of_decide_eq_true (mem_filter.mp hb).2).symm)
  · intro x hx y hy
    obtain ⟨a, -, rfl⟩ := mem_map.mp hx
    obtain ⟨b, -, rfl⟩ := mem_map.mp hy
    exact key_lt_of_snapshot_current a b

/-! ## Walks -/

section

variable (cfg : ShardConfig) (db : ShardDB) (req : FullReadDirReq)

/-- The direction of a walk. -/
def FullReadDirReq.Before (a b : EdgeKey) : Prop := if req.backwards then b < a else a < b

/-- A walk meets edges in key order, or against it, and so each one once. -/
lemma walk_sorted : (req.walk cfg db).Pairwise fun a b => req.Before a.key b.key := by
  unfold FullReadDirReq.walk FullReadDirReq.Before
  cases req.backwards with
  | true => exact pairwise_reverse.mpr ((db.edges_sorted req.dirId).filter _)
  | false => exact (db.edges_sorted req.dirId).filter _

/-- What is met from an edge of a walk on. -/
lemma walk_from {req' : FullReadDirReq} {l l' : List Edge} {x : Edge}
    (hwalk : req.walk cfg db = l ++ x :: l') (hdir : req'.dirId = req.dirId)
    (hback : req'.backwards = req.backwards) (hkey : req'.startKey cfg = x.key) :
    req'.walk cfg db = x :: l' := by
  have hsorted := walk_sorted cfg db req
  have hmem : x ∈ req.walk cfg db := by rw [hwalk]; simp
  rw [hwalk, pairwise_append, pairwise_cons] at hsorted
  obtain ⟨-, ⟨hafter, -⟩, hbefore⟩ := hsorted
  unfold FullReadDirReq.Before at hafter hbefore
  unfold FullReadDirReq.walk at hwalk hmem ⊢
  rw [hback, hdir, hkey]
  cases hb : req.backwards with
  | true =>
    simp only [hb, if_true, ← filter_reverse] at hwalk hmem hafter hbefore ⊢
    have hle : x.key ≤ req.startKey cfg := by simpa using (mem_filter.mp hmem).2
    refine filter_eq_of_split hwalk (fun e _ he => ?_) (fun e he => ?_) fun e he => ?_
    · simp only [decide_eq_true_eq] at he ⊢
      exact he.trans hle
    · simpa using hbefore e he x (by simp)
    · rcases mem_cons.mp he with rfl | he
      · simp
      · simpa using (hafter e he).le
  | false =>
    simp only [hb, Bool.false_eq_true, if_false] at hwalk hmem hafter hbefore ⊢
    have hle : req.startKey cfg ≤ x.key := by simpa using (mem_filter.mp hmem).2
    refine filter_eq_of_split hwalk (fun e _ he => ?_) (fun e he => ?_) fun e he => ?_
    · simp only [decide_eq_true_eq] at he ⊢
      exact hle.trans he
    · simpa using hbefore e he x (by simp)
    · rcases mem_cons.mp he with rfl | he
      · simp
      · simpa using (hafter e he).le

/-! ## Following the cursors -/

/-- The position that a request starts from, as a cursor. -/
def FullReadDirReq.cursor : FullReadDirCursor := ⟨req.current, req.startName, req.startTime⟩

/-- The request for the page at a cursor. -/
def FullReadDirReq.follow (c : FullReadDirCursor) : FullReadDirReq :=
  { req with current := c.current, startName := c.startName, startTime := c.startTime }

/-- The page that a client gets at a cursor.  The empty cursor ends the listing. -/
def FullReadDirReq.page (c : FullReadDirCursor) : Option (Page FullReadDirCursor Edge) :=
  match fullReadDirPage cfg db (req.follow c) with
  | .ok resp => some ⟨resp.results, if resp.next = .empty then none else some resp.next⟩
  | .error _ => none

/-- The edges of a directory have the names that the types and `validName` allow, and the hashes of
these names. -/
structure WellNamed (dirId : InodeId) : Prop where
  nonempty : ∀ e ∈ db.edges dirId, e.name ≠ []
  length : ∀ e ∈ db.edges dirId, e.name.length ≤ 255
  hash : ∀ e ∈ db.edges dirId, e.nameHash = cfg.computeNameHash e.name

/-- The request is accepted: it is not for one name only, does not give a time for a current edge,
and the directory is there. -/
structure FullReadDirReq.Accepted : Prop where
  normal : req.sameName = false
  time : req.current = true → req.startTime = 0
  dir : (getDirectory db req.dirId true).isOk

/-- There is room for each edge met together with the name of the next one. -/
def FullReadDirReq.Roomy : Prop :=
  (req.walk cfg db).IsChain fun a b => a.packedSize + b.name.length ≤ req.start.budget

/-- The cursors of a listing move on, in key order or against it. -/
def FullReadDirReq.Advances (c c' : FullReadDirCursor) : Prop :=
  req.Before ((req.follow c).startKey cfg) ((req.follow c').startKey cfg)

/-- A page that reaches the limit. -/
def FullReadDirReq.ReachesLimit (p : Page FullReadDirCursor Edge) : Prop :=
  0 < req.limit ∧ p.items.length = req.limit

variable {cfg db req}

lemma mem_edges_of_mem_walk {e : Edge} (h : e ∈ req.walk cfg db) : e ∈ db.edges req.dirId := by
  unfold FullReadDirReq.walk at h
  split_ifs at h
  · exact mem_of_mem_filter (mem_reverse.mp h)
  · exact mem_of_mem_filter h

/-- The cursor at an edge names its position. -/
lemma startKey_follow_atEdge (hnames : WellNamed cfg db req.dirId) {x : Edge}
    (hx : x ∈ db.edges req.dirId) : (req.follow (.atEdge x)).startKey cfg = x.key := by
  have hname := hnames.nonempty x hx
  have hhash := hnames.hash x hx
  simp only [FullReadDirReq.startKey, FullReadDirReq.follow, FullReadDirCursor.atEdge, Edge.key,
    if_neg hname, ← hhash]
  split_ifs <;> rfl

lemma fullReadDirPage_of_accepted (h : req.Accepted db) : fullReadDirPage cfg db req =
      fullReadDirAddAll req.limit (req.walk cfg db) req.start >>= fun result =>
        .ok result.2.resp := by
  have hmal : ¬ (req.sameName = true ∧ req.startName = [] ∨
      req.current = true ∧ req.startTime ≠ 0) := by
    rintro (⟨hsame, -⟩ | ⟨hcurrent, htime⟩)
    · rw [h.normal] at hsame
      cases hsame
    · exact htime (h.time hcurrent)
  obtain ⟨dir, hdir⟩ := exists_of_isOk h.dir
  rw [fullReadDirPage, ensure_of hmal, hdir, h.normal]
  rfl

/-- An edge met later than another one is behind the start. -/
lemma before_of_walk {l l' : List Edge} {k x : Edge}
    (hwalk : req.walk cfg db = k :: l ++ x :: l') : req.Before (req.startKey cfg) x.key := by
  have hsorted := walk_sorted cfg db req
  have hmem : k ∈ req.walk cfg db := by rw [hwalk]; simp
  rw [hwalk, pairwise_append] at hsorted
  have hlt := hsorted.2.2 k (by simp) x (by simp)
  unfold FullReadDirReq.Before at hlt ⊢
  unfold FullReadDirReq.walk at hmem
  cases hb : req.backwards with
  | true =>
    simp only [hb, if_true, mem_reverse] at hmem hlt ⊢
    have hle : k.key ≤ req.startKey cfg := by simpa using (mem_filter.mp hmem).2
    exact lt_of_lt_of_le hlt hle
  | false =>
    simp only [hb, Bool.false_eq_true, if_false] at hmem hlt ⊢
    have hle : req.startKey cfg ≤ k.key := by simpa using (mem_filter.mp hmem).2
    exact lt_of_le_of_lt hle hlt

/-- A page is the beginning of what is left, and ends at the limit, at the end, or at its cursor. -/
lemma fullReadDir_page_spec (hmtu : 281 ≤ req.start.budget) (hnames : WellNamed cfg db req.dirId)
    (haccepted : req.Accepted db) (hroomy : req.Roomy cfg db) :
    ∃ resp left, fullReadDirPage cfg db req = .ok resp ∧ req.walk cfg db = resp.results ++ left ∧
      (resp.next = .empty ∧ (left = [] ∨ 0 < req.limit ∧ resp.results.length = req.limit) ∨
        ∃ x l, left = x :: l ∧ resp.next = .atEdge x ∧ resp.results ≠ []) := by
  rw [fullReadDirPage_of_accepted haccepted]
  set base := req.start.budget with hbase
  have hcases : AddsEdges req.limit base req.start (req.walk cfg db)
      (fullReadDirAddAll req.limit (req.walk cfg db) req.start) :=
    fullReadDirAddAll_cases req.limit _ (by simp [hbase, FullReadDirReq.start]) (by omega)
      (by simp [FullReadDirReq.start])
  generalize fullReadDirAddAll req.limit (req.walk cfg db) req.start = result at hcases
  have hresults : req.start.results = [] := rfl
  have hsmall : ∀ e ∈ req.walk cfg db, e.packedSize ≤ 281 := by
    intro e he
    have hlen := hnames.length e (mem_edges_of_mem_walk he)
    rw [e.packedSize_eq]
    omega
  cases hcases with
  | all =>
    refine ⟨⟨.empty, req.walk cfg db⟩, [], rfl, by simp, .inl ⟨rfl, .inl rfl⟩⟩
  | limit last e rest budget hedges hpos hlength =>
    refine ⟨⟨.empty, last ++ [e]⟩, rest, rfl, by simp [hedges], .inl ⟨rfl, .inr ⟨hpos, ?_⟩⟩⟩
    simpa [hresults] using hlength
  | full last e rest hedges hlimit hfit hfull =>
    simp only [hresults, nil_append] at hfull ⊢
    have hmem : ∀ x ∈ last ++ [e], x ∈ req.walk cfg db := by
      intro x hx
      rw [hedges]
      rcases mem_append.mp hx with hx | hx
      · exact mem_append_left _ hx
      · obtain rfl : x = e := by simpa using hx
        simp
    obtain ⟨first, hfirst⟩ : ∃ first, (last ++ [e]).head? = some first := by
      cases last with
      | nil => exact ⟨e, rfl⟩
      | cons x => exact ⟨x, rfl⟩
    have hfirstName : (first.name.length : ℤ) ≤ base := by
      have hsize := hsmall first (hmem first (mem_of_head? hfirst))
      rw [first.packedSize_eq] at hsize
      omega
    have hbase' : base = base - edgesSize (last ++ [e]) + edgesSize (last ++ [e]) +
        FullReadDirCursor.staticSize - FullReadDirCursor.staticSize := by omega
    obtain ⟨-, keep, x, dropped, hsplit, hremove, -, hmax⟩ :=
      (removeLast_spec hbase' hfirst).resolve_left fun h => by omega
    rw [hremove]
    have hwalk : req.walk cfg db = keep ++ x :: (dropped ++ rest) := by
      rw [hedges, append_cons, hsplit]
      simp
    refine ⟨⟨.atEdge x, keep⟩, x :: (dropped ++ rest), rfl, hwalk,
      .inr ⟨x, dropped ++ rest, rfl, rfl, ?_⟩⟩
    -- the first edge is not taken off: it fits, together with the name of the second
    rintro rfl
    rw [nil_append] at hsplit hwalk
    cases dropped with
    | nil =>
      have hsize := hsmall x (hmem x (by rw [hsplit]; simp))
      rw [hsplit, edgesSize_cons, edgesSize_nil] at hfull
      omega
    | cons y =>
      have hlt := hmax y rfl
      unfold FullReadDirReq.Roomy at hroomy
      rw [hwalk, cons_append, isChain_cons_cons] at hroomy
      rw [edgesSize_nil] at hlt
      omega

/-- Following the cursors of a listing meets the edges from the start on, in order and each once,
all of them unless a page reaches the limit; each cursor is behind the one before it, and the last
one is empty. -/
theorem fullReadDir_pages_cover (cfg : ShardConfig) (db : ShardDB) (req : FullReadDirReq)
    (hmtu : minUdpMtu ≤ req.mtu) (hnames : WellNamed cfg db req.dirId)
    (haccepted : req.Accepted db) (hroomy : req.Roomy cfg db) :
    (req.walk cfg db).Pairwise (fun a b => req.Before a.key b.key) ∧
    ∃ pages, followPages (req.page cfg db) ((req.walk cfg db).length + 1) req.cursor = some pages ∧
      PagesCover (req.walk cfg db) req.ReachesLimit (req.Advances cfg) req.cursor pages := by
  refine ⟨walk_sorted cfg db req, ?_⟩
  have hbudget : ∀ c, 281 ≤ (req.follow c).start.budget := by
    intro c
    have hpick : minUdpMtu ≤ pickMtu req.mtu := by
      unfold pickMtu minUdpMtu maxUdpMtu defaultUdpMtu at *
      split_ifs <;> omega
    show (281 : ℤ) ≤ (pickMtu req.mtu : ℤ) - shardRespMsgSize - FullReadDirResp.staticSize
    have h1 : shardRespMsgSize = 37 := rfl
    have h2 : FullReadDirResp.staticSize = 12 := rfl
    have h3 : minUdpMtu = 548 := rfl
    omega
  let Good (c : FullReadDirCursor) : Prop :=
    (req.follow c).Accepted db ∧ (req.follow c).Roomy cfg db
  let rest (c : FullReadDirCursor) : List Edge := (req.follow c).walk cfg db
  suffices hpage : ∀ c, Good c → ∃ p left, req.page cfg db c = some p ∧ rest c = p.items ++ left ∧
      (p.next = none → left = [] ∨ req.ReachesLimit p) ∧
      ∀ c', p.next = some c' → Good c' ∧ rest c' = left ∧ p.items ≠ [] ∧ req.Advances cfg c c' from
    followPages_cover hpage _ _ ⟨haccepted, hroomy⟩ (Nat.lt_succ_self _)
  rintro c ⟨haccepted', hroomy'⟩
  obtain ⟨resp, left, hresp, hwalk, hend⟩ :=
    fullReadDir_page_spec (hbudget c) hnames haccepted' hroomy'
  have hedge : ∀ x ∈ (req.follow c).walk cfg db, x ∈ db.edges (req.follow c).dirId :=
    fun _ => mem_edges_of_mem_walk
  refine ⟨⟨resp.results, if resp.next = .empty then none else some resp.next⟩, left, ?_, hwalk, ?_,
    ?_⟩
  · rw [FullReadDirReq.page, hresp]
  · intro hnone
    rcases hend with ⟨-, hend⟩ | ⟨x, l, hleft, hnext, -⟩
    · exact hend
    have hx : x ∈ db.edges req.dirId := hedge x (by rw [hwalk, hleft]; simp)
    simp only [hnext] at hnone
    split_ifs at hnone with hempty
    exact absurd (congrArg FullReadDirCursor.startName hempty) (hnames.nonempty x hx)
  · intro c' hc'
    split_ifs at hc' with hempty
    obtain rfl : resp.next = c' := by simpa using hc'
    rcases hend with ⟨hnext, -⟩ | ⟨x, l, hleft, hnext, hne⟩
    · exact absurd hnext hempty
    have hx : x ∈ db.edges req.dirId := hedge x (by rw [hwalk, hleft]; simp)
    have hkey : (req.follow resp.next).startKey cfg = x.key := by
      rw [hnext]
      exact startKey_follow_atEdge hnames hx
    rw [hleft] at hwalk
    have hrest : (req.follow resp.next).walk cfg db = x :: l :=
      walk_from cfg db (req.follow c) hwalk rfl rfl hkey
    refine ⟨⟨⟨haccepted'.normal, ?_, haccepted'.dir⟩, ?_⟩, hrest.trans hleft.symm, hne, ?_⟩
    · rw [hnext]
      exact fun hcurrent => if_pos hcurrent
    · show ((req.follow resp.next).walk cfg db).IsChain _
      rw [hrest]
      have hchain : ((req.follow c).walk cfg db).IsChain
        fun a b => (a.packedSize + b.name.length : ℤ) ≤ req.start.budget := hroomy'
      rw [hwalk] at hchain
      exact hchain.right_of_append
    · obtain ⟨k, keep, hkeep⟩ := exists_cons_of_ne_nil hne
      rw [hkeep] at hwalk
      have hbefore := before_of_walk hwalk
      show req.Before _ ((req.follow resp.next).startKey cfg)
      rw [hkey]
      exact hbefore

end

/-! ## Sample listings -/

/-- A root directory with three names of 255 bytes. -/
def sampleLongNames : ShardDB :=
  { initDb sampleConfig 0 with
    currentEdges := ([97, 98, 99] : List ℕ).foldl (fun edges c =>
      edges.put (sampleConfig.edgeName .rootDir (replicate 255 c)) ⟨.of ⟨c⟩ false, c⟩) .empty }

/-- The listing of all edges of the root directory. -/
def sampleFullReadDir (limit mtu : ℕ) : FullReadDirReq :=
  ⟨.rootDir, false, false, false, [], 0, limit, mtu⟩

theorem fullReadDir_pages_cover_sample :
    ∃ pages, followPages ((sampleFullReadDir 0 600).page sampleConfig sampleLongNames)
        (((sampleFullReadDir 0 600).walk sampleConfig sampleLongNames).length + 1)
        (sampleFullReadDir 0 600).cursor = some pages ∧
      PagesCover ((sampleFullReadDir 0 600).walk sampleConfig sampleLongNames)
        (sampleFullReadDir 0 600).ReachesLimit ((sampleFullReadDir 0 600).Advances sampleConfig)
        (sampleFullReadDir 0 600).cursor pages :=
  (fullReadDir_pages_cover sampleConfig sampleLongNames (sampleFullReadDir 0 600) (by decide)
    ⟨by decide +kernel, by decide +kernel, by decide +kernel⟩
    ⟨rfl, by decide, by decide +kernel⟩ (by unfold FullReadDirReq.Roomy; decide +kernel)).2

/-- A limit ends a listing after one page.  With the smallest message size, the page is empty if the
first two names have 255 bytes: the second edge does not fit, and to make room for its name in the
cursor the first one is taken off, too. -/
theorem not_readsAll_fullReadDir_sample :
    ¬ ReadsAll ((sampleFullReadDir 1 1472).page sampleConfig sampleLongNames)
      (sampleFullReadDir 1 1472).cursor
      ((sampleFullReadDir 1 1472).walk sampleConfig sampleLongNames) ∧
    ¬ ReadsAll ((sampleFullReadDir 0 minUdpMtu).page sampleConfig sampleLongNames)
      (sampleFullReadDir 0 minUdpMtu).cursor
      ((sampleFullReadDir 0 minUdpMtu).walk sampleConfig sampleLongNames) := by
  constructor
  · exact not_readsAll_of_last (n := 1) (by decide +kernel) (by decide +kernel)
  · exact not_readsAll_of_stuck ⟨true, replicate 255 98, 0⟩ (by decide +kernel) (by decide +kernel)

/-! ## Reading by hash -/

/-- The current edges of a directory, as they are stored. -/
def ShardDB.directory (db : ShardDB) (dirId : InodeId) : List CurrentEdge :=
  (db.currentEdges.entries.filter fun e => e.1.dirId = dirId.masked).map fun e =>
    ⟨e.2.targetId, e.1.nameHash, e.1.name, e.2.creationTime⟩

/-- What is left of a directory at a hash. -/
def ShardDB.directoryFrom (db : ShardDB) (dirId : InodeId) (hash : ℕ) : List CurrentEdge :=
  (db.directory dirId).filter fun e => hash ≤ e.nameHash

/-- What the message size leaves for the edges of a page. -/
def readDirBudget (mtu : ℕ) : ℤ := pickMtu mtu - shardRespMsgSize - ReadDirResp.staticSize

/-- The page that a client gets at a hash.  The hash 0 ends the listing. -/
def readDirPage (db : ShardDB) (dirId : InodeId) (mtu hash : ℕ) : Option (Page ℕ CurrentEdge) :=
  match readDir db ⟨dirId, hash, mtu⟩ with
  | .ok resp => some ⟨resp.results, if resp.nextHash = 0 then none else some resp.nextHash⟩
  | .error _ => none

/-- The edges with the same hash fit into one page. -/
def GroupsFit (db : ShardDB) (dirId : InodeId) (mtu : ℕ) : Prop :=
  ∀ e ∈ db.directory dirId,
    currentEdgesSize ((db.directory dirId).filter fun x => x.nameHash = e.nameHash) ≤
      readDirBudget mtu

section

variable {db : ShardDB} {dirId : InodeId} {mtu hash : ℕ} {l : List CurrentEdge}

/-- Edges are in the order of their hashes, and no two of them have the same hash and name. -/
lemma ShardDB.directory_sorted (db : ShardDB) (dirId : InodeId) :
    (db.directory dirId).Pairwise fun a b =>
      a.nameHash ≤ b.nameHash ∧ (a.nameHash, a.name) ≠ (b.nameHash, b.name) := by
  have hsorted : SortedEntries (db.currentEdges.entries.filter
      fun e => e.1.dirId = dirId.masked) := db.currentEdges.sorted.filter _
  refine pairwise_map.mpr (hsorted.imp_of_mem fun {a b} ha hb hlt => ?_)
  have hdir : a.1.dirId = b.1.dirId := by
    rw [of_decide_eq_true (mem_filter.mp ha).2, of_decide_eq_true (mem_filter.mp hb).2]
  obtain ⟨⟨d, h, n⟩, _⟩ := a
  obtain ⟨⟨d', h', n'⟩, _⟩ := b
  obtain rfl : d = d' := hdir
  refine ⟨?_, fun heq => ?_⟩
  · rcases EdgeName.lt_iff.mp hlt with hdirs | ⟨-, hhash | ⟨hhash, -⟩⟩
    · exact absurd hdirs (lt_irrefl _)
    · exact hhash.le
    · exact hhash.le
  · cases heq
    exact lt_irrefl _ hlt

/-- An iterator placed at a hash meets the edges from it on. -/
lemma ShardDB.currentEdgesFrom_eq :
    db.currentEdgesFrom ⟨dirId.masked, hash, []⟩ = db.directoryFrom dirId hash := by
  rw [ShardDB.currentEdgesFrom, ShardDB.directoryFrom, ShardDB.directory, SortedStore.seek,
    filter_map, filter_filter, filter_filter]
  congr 1
  refine filter_congr fun e _ => ?_
  rw [Bool.eq_iff_iff]
  simp only [Bool.and_eq_true, decide_eq_true_eq, Function.comp_apply]
  rw [and_comm]
  refine and_congr_left fun hdir => ?_
  rw [← not_lt, EdgeName.lt_iff]
  simp [hdir]

lemma readDirPage_eq {resp : ReadDirResp} (hdir : (getDirectory db dirId false).isOk)
    (h : readDirLoop (db.directoryFrom dirId hash) (readDirBudget mtu) [] = resp) :
    readDirPage db dirId mtu hash =
      some ⟨resp.results, if resp.nextHash = 0 then none else some resp.nextHash⟩ := by
  obtain ⟨dir, hdir⟩ := exists_of_isOk hdir
  rw [← h, ← ShardDB.currentEdgesFrom_eq, readDirPage, readDir, hdir]
  rfl

/-- What stays on a page has smaller hashes than what is taken off. -/
lemma lt_of_mem_rdropWhile {x : CurrentEdge} (hsorted : l.Pairwise fun a b => a.nameHash ≤ b.nameHash)
    (hle : ∀ e ∈ l, e.nameHash ≤ hash) (hx : x ∈ l.rdropWhile fun e => e.nameHash = hash) :
    x.nameHash < hash := by
  induction l using reverseRecOn with
  | nil => simp at hx
  | append_singleton l a ih =>
    obtain ⟨hsorted, -, hlast⟩ := pairwise_append.mp hsorted
    by_cases ha : a.nameHash = hash
    · rw [rdropWhile_concat_pos _ _ _ (by simpa using ha)] at hx
      exact ih hsorted (fun e he => hle e (mem_append_left _ he)) hx
    rw [rdropWhile_concat_neg _ _ _ (by simpa using ha)] at hx
    have hlt : a.nameHash < hash := lt_of_le_of_ne (hle a (by simp)) ha
    rcases mem_append.mp hx with hx | hx
    · exact (hlast x hx a (by simp)).trans_lt hlt
    · rwa [mem_singleton.mp hx]

/-- A page is all that is left at its cursor, or the beginning of it up to a group. -/
lemma readDir_page_spec (hmtu : 280 ≤ readDirBudget mtu) (hfit : GroupsFit db dirId mtu) (hash : ℕ) :
    readDirLoop (db.directoryFrom dirId hash) (readDirBudget mtu) [] =
      ⟨0, db.directoryFrom dirId hash⟩ ∨
    ∃ next keep, readDirLoop (db.directoryFrom dirId hash) (readDirBudget mtu) [] = ⟨next, keep⟩ ∧
      db.directoryFrom dirId hash = keep ++ db.directoryFrom dirId next ∧ keep ≠ [] ∧
      hash < next := by
  have hbudget : 0 ≤ readDirBudget mtu := by omega
  rcases readDirLoop_cases (db.directoryFrom dirId hash) [] hbudget with
    ⟨-, hall⟩ | ⟨last, e, after, hrest, -, hfull, hstop⟩
  · exact .inl hall
  have hsorted : (db.directoryFrom dirId hash).Pairwise fun a b => a.nameHash ≤ b.nameHash :=
    ((db.directory_sorted dirId).imp And.left).filter _
  have hfrom : ∀ x ∈ db.directoryFrom dirId hash, hash ≤ x.nameHash :=
    fun x hx => of_decide_eq_true (mem_filter.mp hx).2
  rw [hrest, pairwise_append, pairwise_cons] at hsorted
  obtain ⟨hlast, ⟨hafter, -⟩, hbefore⟩ := hsorted
  set keep := last.rdropWhile fun x => x.nameHash = e.nameHash
  set group := last.rtakeWhile fun x => x.nameHash = e.nameHash
  have hsplit : db.directoryFrom dirId hash = keep ++ (group ++ e :: after) := by
    rw [hrest, ← append_assoc, rdropWhile_append_rtakeWhile]
  have hlt : ∀ x ∈ keep, x.nameHash < e.nameHash := fun x hx =>
    lt_of_mem_rdropWhile hlast (fun y hy => hbefore y hy e mem_cons_self) hx
  have hne : keep ≠ [] := by
    intro hnil
    -- all edges up to the one that does not fit have its hash
    have hall : (last ++ [e]).filter (fun x => x.nameHash = e.nameHash) = last ++ [e] := by
      refine filter_eq_self.mpr fun x hx => ?_
      rcases mem_append.mp hx with hx | hx
      · exact rdropWhile_eq_nil_iff.mp hnil x hx
      · simp [mem_singleton.mp hx]
    have hsub : (last ++ [e]).Sublist (db.directory dirId) := by
      refine Sublist.trans ?_ (filter_sublist (p := fun x => hash ≤ x.nameHash))
      show (last ++ [e]).Sublist (db.directoryFrom dirId hash)
      rw [hrest]
      simp
    have hle := currentEdgesSize_le_of_sublist (hsub.filter fun x => x.nameHash = e.nameHash)
    rw [hall] at hle
    have hgroup := hfit e (hsub.subset (by simp))
    omega
  have hnext : hash < e.nameHash := by
    obtain ⟨k, hk⟩ := exists_mem_of_ne_nil _ hne
    exact (hfrom k (by rw [hsplit]; simp [hk])).trans_lt (hlt k hk)
  refine .inr ⟨e.nameHash, keep, hstop, hsplit.trans ?_, hne, hnext⟩
  congr 1
  refine (filter_eq_of_split hsplit (fun x _ hx => ?_) (fun x hx => ?_) fun x hx => ?_).symm
  · have hle := of_decide_eq_true hx
    exact decide_eq_true (hnext.le.trans hle)
  · simpa using hlt x hx
  rcases mem_append.mp hx with hx | hx
  · have hgroup : x.nameHash = e.nameHash := by simpa using mem_rtakeWhile_imp hx
    simp [hgroup]
  · rcases mem_cons.mp hx with rfl | hx
    · simp
    · simpa using hafter x hx

/-- Edges with the same hash that do not fit into a page are on no page, and no page leads behind
them. -/
lemma not_mem_readDirPage {e : CurrentEdge} {p : Page ℕ CurrentEdge} (hmtu : 280 ≤ readDirBudget mtu)
    (hdir : (getDirectory db dirId false).isOk) (hlong : readDirBudget mtu < currentEdgesSize
      ((db.directory dirId).filter fun x => x.nameHash = e.nameHash))
    (hle : hash ≤ e.nameHash) (hp : readDirPage db dirId mtu hash = some p) :
    e ∉ p.items ∧ ∀ next, p.next = some next → next ≤ e.nameHash := by
  have hbudget : 0 ≤ readDirBudget mtu := by omega
  have hgroup : (db.directory dirId).filter (fun x => x.nameHash = e.nameHash) =
      (db.directoryFrom dirId hash).filter fun x => x.nameHash = e.nameHash := by
    rw [ShardDB.directoryFrom, filter_filter]
    refine filter_congr fun x _ => ?_
    by_cases hx : x.nameHash = e.nameHash
    · simp [hx, hle]
    · simp [hx]
  rw [hgroup] at hlong
  rcases readDirLoop_cases (db.directoryFrom dirId hash) [] hbudget with
    ⟨hfit, -⟩ | ⟨last, x, after, hrest, hfit, -, hstop⟩
  · have hsize := currentEdgesSize_le_of_sublist
      (filter_sublist (l := db.directoryFrom dirId hash) (p := fun x => x.nameHash = e.nameHash))
    omega
  have hsorted : (db.directoryFrom dirId hash).Pairwise fun a b => a.nameHash ≤ b.nameHash :=
    ((db.directory_sorted dirId).imp And.left).filter _
  rw [hrest, pairwise_append, pairwise_cons] at hsorted
  obtain ⟨hlast, ⟨hafter, -⟩, hbefore⟩ := hsorted
  have hx : x.nameHash ≤ e.nameHash := by
    by_contra hlt
    -- the whole group comes before the edge that does not fit
    have hnone : (x :: after).filter (fun y => y.nameHash = e.nameHash) = [] := by
      refine filter_eq_nil_iff.mpr fun y hy => ?_
      rcases mem_cons.mp hy with rfl | hy
      · simpa using by omega
      · have hle' := hafter y hy
        simpa using by omega
    rw [hrest, filter_append, hnone, append_nil] at hlong
    have hsize := currentEdgesSize_le_of_sublist
      (filter_sublist (l := last) (p := fun y => y.nameHash = e.nameHash))
    omega
  rw [readDirPage_eq hdir hstop] at hp
  cases hp
  refine ⟨fun hmem => ?_, fun next hnext => ?_⟩
  · have hlt := lt_of_mem_rdropWhile hlast (fun y hy => hbefore y hy x mem_cons_self) hmem
    omega
  · simp only [Option.ite_none_left_eq_some, Option.some.injEq] at hnext
    omega

/-- Following the hashes meets each edge of the directory once, with hashes that increase and a last
page that leaves nothing, exactly if the edges with the same hash fit into a page. -/
theorem readDir_pages_cover_iff (db : ShardDB) (dirId : InodeId) (mtu : ℕ)
    (hmtu : 280 ≤ readDirBudget mtu) (hdir : (getDirectory db dirId false).isOk) :
    ((db.directory dirId).map fun e => (e.nameHash, e.name)).Nodup ∧
    ((∃ pages, followPages (readDirPage db dirId mtu) ((db.directory dirId).length + 1) 0 =
        some pages ∧
      PagesCover (db.directory dirId) (fun _ => False) (· < ·) 0 pages) ↔
        GroupsFit db dirId mtu) := by
  refine ⟨pairwise_map.mpr ((db.directory_sorted dirId).imp And.right), ?_, fun hfit => ?_⟩
  · rintro ⟨pages, hpages, hcover⟩ e he
    by_contra hlong
    obtain ⟨left, hitems, hleft⟩ := hcover.items
    obtain rfl : left = [] := hleft.resolve_right fun ⟨_, _, h⟩ => h
    rw [append_nil] at hitems
    rw [hitems] at he
    exact not_mem_of_followPages (fun hash => hash ≤ e.nameHash)
      (fun _ _ hle hp => not_mem_readDirPage hmtu hdir (not_le.mp hlong) hle hp) _
      (Nat.zero_le _) hpages he
  have hzero : db.directoryFrom dirId 0 = db.directory dirId := filter_eq_self.mpr (by simp)
  rw [← hzero]
  refine followPages_cover (fun hash (_ : True) => ?_) _ 0 trivial (Nat.lt_succ_self _)
  rcases readDir_page_spec hmtu hfit hash with hloop | ⟨next, keep, hloop, hrest, hne, hlt⟩
  · exact ⟨_, [], readDirPage_eq hdir hloop, by simp, fun _ => .inl rfl, by simp⟩
  have hnext : next ≠ 0 := Nat.ne_zero_of_lt hlt
  refine ⟨_, _, readDirPage_eq hdir hloop, hrest, by simp [hnext], ?_⟩
  simp only [if_neg hnext, Option.some.injEq]
  rintro c' rfl
  exact ⟨trivial, rfl, hne, hlt⟩

end

/-- The root directory with two names of 255 bytes that have the same hash. -/
def sampleCollision : ShardDB :=
  { initDb sampleConfig 0 with
    currentEdges := ([97, 98] : List ℕ).foldl (fun edges c =>
      edges.put (sampleConfig.edgeName .rootDir (97 :: c :: replicate 253 97))
        ⟨.of ⟨c⟩ false, c⟩) .empty }

theorem readDir_pages_cover_iff_sample : ∃ pages,
      followPages (readDirPage sampleLongNames .rootDir 600)
        ((sampleLongNames.directory .rootDir).length + 1) 0 = some pages ∧
      PagesCover (sampleLongNames.directory .rootDir) (fun _ => False) (· < ·) 0 pages :=
  (readDir_pages_cover_iff sampleLongNames .rootDir 600 (by decide) (by decide +kernel)).2.mpr
    (by unfold GroupsFit; decide +kernel)

/-- Two names with the same hash, of which only one fits: the page is empty, and leads to itself. -/
theorem not_readsAll_readDir_of_collision : 280 ≤ readDirBudget 327 ∧
    ¬ ReadsAll (readDirPage sampleCollision .rootDir 327) 0 (sampleCollision.directory .rootDir) := by
  refine ⟨by decide, not_readsAll_of_stuck (sampleConfig.computeNameHash (replicate 255 97)) ?_ ?_⟩
  · decide +kernel
  · decide +kernel

end TernFS
