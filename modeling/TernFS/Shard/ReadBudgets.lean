/-
# The budgets of reads

A client says how large a response may be, and the handlers that answer with pages have to keep to
it for every value it can give.  This file says exactly when they do.  The smallest response of each
kind has to fit, since `pickMtu` has no lower bound; a directory listing also needs room for the name
in its cursor, and is not cut to its budget by the edge that reaches the limit.  The budgets are
smaller than what the message size leaves: they set aside the room of the largest response.
-/
import TernFS.Shard.EdgePages
import TernFS.Shard.ServicePages
import TernFS.Shard.Tiling

namespace TernFS

open Lib List

variable {base budget : ℤ} {l : List Edge} {limit : ℕ} {e : Edge}

/-! ## Requests and what they promise -/

/-- The read requests that are answered with pages. -/
inductive PagedReq
  | readDir (req : ReadDirReq)
  | fullReadDir (req : FullReadDirReq)
  | fileSpans (req : FileSpansReq)
  | localFileSpans (req : FileSpansReq)
  | visitDirectories (req : VisitInodesReq)
  | visitFiles (req : VisitInodesReq)
  | visitTransientFiles (req : VisitInodesReq)

/-- The message size that a request asks for. -/
def PagedReq.mtu : PagedReq → ℕ
  | .readDir req => req.mtu
  | .fullReadDir req => req.mtu
  | .fileSpans req => req.mtu
  | .localFileSpans req => req.mtu
  | .visitDirectories req => req.mtu
  | .visitFiles req => req.mtu
  | .visitTransientFiles req => req.mtu

section

variable (cfg : ShardConfig) (cache : BlockServicesCache) (locationId : ℕ) (db : ShardDB)

/-- The packed size of the body of the response. -/
def PagedReq.respSize : PagedReq → Read ℕ
  | .readDir req => ReadDirResp.packedSize <$> TernFS.readDir db req
  | .fullReadDir req => FullReadDirResp.packedSize <$> fullReadDirPage cfg db req
  | .fileSpans req => FileSpansResp.packedSize .full <$> TernFS.fileSpans cache db req
  | .localFileSpans req =>
    FileSpansResp.packedSize (.localTo locationId) <$> TernFS.localFileSpans cache locationId db req
  | .visitDirectories req => VisitInodesResp.packedSize <$> TernFS.visitDirectories db req
  | .visitFiles req => VisitInodesResp.packedSize <$> TernFS.visitFiles db req
  | .visitTransientFiles req =>
    VisitTransientFilesResp.packedSize <$> TernFS.visitTransientFiles cfg db req

/-- The packed size of an error code. -/
def errorSize : ℕ := 2

/-- The read ends with a response, or an error code, of at most the size asked for, and with none
of the accesses that have no defined result. -/
def RespWithin (mtu : ℕ) : Read ℕ → Prop
  | .ok size => shardRespHeaderSize + size ≤ min (pickMtu mtu) maxUdpMtu
  | .error (.refused _) => shardRespHeaderSize + errorSize ≤ min (pickMtu mtu) maxUdpMtu
  | .error _ => False

/-- The bound that a handler compares with the size of a container is not negative. -/
def PagedReq.BoundNonneg : PagedReq → Prop
  | .visitDirectories req => 0 ≤ visitMaxIds req.mtu
  | .visitFiles req => 0 ≤ visitMaxIds req.mtu
  | _ => True

/-- The read keeps to its budget. -/
def PagedReq.StaysWithin (req : PagedReq) : Prop :=
  RespWithin req.mtu (req.respSize cfg cache locationId db) ∧ req.BoundNonneg

end

lemma min_pickMtu (mtu : ℕ) : min (pickMtu mtu) maxUdpMtu = pickMtu mtu :=
  min_eq_left (min_le_left _ _)

lemma respWithin_ok {mtu size : ℕ} :
    RespWithin mtu (.ok size) ↔ shardRespHeaderSize + size ≤ pickMtu mtu := by
  rw [RespWithin, min_pickMtu]

lemma respWithin_refused {mtu : ℕ} {t : TernError} :
    RespWithin mtu (.error (.refused t)) ↔ shardRespHeaderSize + errorSize ≤ pickMtu mtu := by
  rw [RespWithin, min_pickMtu]

lemma shardRespMsgSize_eq : shardRespMsgSize = shardRespHeaderSize + maxRespStaticSize := rfl

/-! ## Current edges -/

lemma readDirLoop_size (l : List CurrentEdge) (budget : ℤ) :
    currentEdgesSize (readDirLoop l budget []).results ≤ max budget 0 := by
  by_cases h : 0 ≤ budget
  · rw [max_eq_left h]
    rcases readDirLoop_cases l [] h with ⟨hfit, hall⟩ | ⟨last, e, rest, -, hfit, -, hstop⟩
    · rwa [hall]
    · have hkeep := rdropWhile_prefix (fun x : CurrentEdge => x.nameHash = e.nameHash) (l := last)
      rw [hstop]
      exact (Nat.cast_le.mpr (currentEdgesSize_le_of_sublist hkeep.sublist)).trans hfit
  · cases l with
    | nil => exact le_max_right _ _
    | cons e =>
      have hneg : budget - e.packedSize < 0 := by omega
      rw [readDirLoop, if_pos hneg]
      exact le_max_right _ _

lemma getDirectory_toRead (db : ShardDB) (id : InodeId) (allowSnapshot : Bool) :
    (∃ dir, getDirectory db id allowSnapshot = .ok dir) ∨
      ∃ t, Checked.toRead (getDirectory db id allowSnapshot) = .error (.refused t) := by
  have hfails : FailsOnly (· ≠ .crash) (getDirectory db id allowSnapshot) := by
    simp [getDirectory]
  cases h : getDirectory db id allowSnapshot with
  | ok dir => exact .inl ⟨dir, rfl⟩
  | error e =>
    right
    cases e with
    | err t => exact ⟨t, rfl⟩
    | crash => exact absurd rfl (hfails _ h)

/-- A listing of current edges keeps to its budget if the empty listing does. -/
lemma readDir_within (db : ShardDB) (req : ReadDirReq) :
    RespWithin req.mtu (ReadDirResp.packedSize <$> readDir db req) ↔
      shardRespHeaderSize + (if (getDirectory db req.dirId false).isOk then ReadDirResp.staticSize
        else errorSize) ≤ pickMtu req.mtu := by
  rcases getDirectory_toRead db req.dirId false with ⟨dir, hdir⟩ | ⟨t, ht⟩
  · have hread : readDir db req = .ok (readDirLoop
        (db.currentEdgesFrom ⟨req.dirId.masked, req.startHash, []⟩)
        ((pickMtu req.mtu : ℤ) - shardRespMsgSize - ReadDirResp.staticSize) []) := by
      rw [readDir, hdir]
      rfl
    rw [hread, hdir]
    show RespWithin _ (.ok _) ↔ shardRespHeaderSize + ReadDirResp.staticSize ≤ _
    rw [respWithin_ok, ReadDirResp.packedSize]
    constructor
    · omega
    · intro h
      have hsize := readDirLoop_size (db.currentEdgesFrom ⟨req.dirId.masked, req.startHash, []⟩)
        (pickMtu req.mtu - shardRespMsgSize - ReadDirResp.staticSize)
      rw [shardRespMsgSize_eq] at hsize ⊢
      unfold currentEdgesSize at hsize
      omega
  · have hread : readDir db req = .error (.refused t) := by
      rw [readDir, ht]
      rfl
    have hnot : (getDirectory db req.dirId false).isOk = false := by
      cases h : getDirectory db req.dirId false with
      | ok => simp [h, Checked.toRead] at ht
      | error => rfl
    rw [hread, hnot]
    exact respWithin_refused

/-! ## Inodes -/

/-- An id is read, the one to go on from, if the budget is not too far below zero. -/
lemma visitMaxIds_pos_iff {mtu : ℕ} : 0 < visitMaxIds mtu ↔
    shardRespMsgSize + VisitInodesResp.staticSize < pickMtu mtu + 8 := by
  rw [visitMaxIds, Int.tdiv_eq_ediv, Int.sign_eq_one_of_pos (by decide)]
  split_ifs <;> omega

lemma visitMaxIds_le (mtu : ℕ) : 8 * (visitMaxIds mtu - 1) ≤
    max ((pickMtu mtu : ℤ) - shardRespMsgSize - VisitInodesResp.staticSize) 0 := by
  rw [visitMaxIds, Int.tdiv_eq_ediv, Int.sign_eq_one_of_pos (by decide)]
  split_ifs <;> omega

lemma visitInodes_within {V : Type} (cf : SortedStore InodeId V) (req : VisitInodesReq) :
    RespWithin req.mtu (VisitInodesResp.packedSize <$> visitInodes cf req) ∧
        0 ≤ visitMaxIds req.mtu ↔
      shardRespMsgSize + VisitInodesResp.staticSize < pickMtu req.mtu + 8 := by
  rw [← visitMaxIds_pos_iff]
  constructor
  · rintro ⟨hwithin, hnonneg⟩
    refine lt_of_le_of_ne hnonneg fun hzero => ?_
    -- nothing is read, and the last element of nothing is looked at
    rw [visitInodes, ← hzero] at hwithin
    exact hwithin
  · intro hpos
    have hle : pickMtu req.mtu ≤ 8972 := min_le_left _ _
    have hmax := visitMaxIds_le req.mtu
    obtain ⟨n, hn⟩ : ∃ n : ℕ, visitMaxIds req.mtu = n + 1 :=
      ⟨(visitMaxIds req.mtu - 1).toNat, by omega⟩
    have hroom := visitMaxIds_pos_iff.mp hpos
    have hword : toU64 (visitMaxIds req.mtu) = n + 1 := by
      rw [hn, toU64]
      omega
    refine ⟨?_, hpos.le⟩
    have hlen : (((cf.seek req.beginId).map Prod.fst).take (n + 1)).length ≤ n + 1 :=
      length_take_le _ _
    have hsize : ∀ k ≤ n, shardRespHeaderSize + (VisitInodesResp.staticSize + 8 * k) ≤
        pickMtu req.mtu := by
      intro k hk
      rw [shardRespMsgSize_eq] at hmax hroom
      have hslack : maxRespStaticSize = 24 := rfl
      omega
    rw [visitInodes, hword]
    generalize ((cf.seek req.beginId).map Prod.fst).take (n + 1) = ids at hlen
    by_cases hfull : ids.length = n + 1
    · rw [if_pos hfull]
      cases hlast : ids.getLast? with
      | none =>
        rw [getLast?_eq_none_iff.mp hlast] at hfull
        cases hfull
      | some =>
        show RespWithin _ (.ok _)
        rw [respWithin_ok, VisitInodesResp.packedSize, length_dropLast]
        exact hsize _ (by omega)
    · rw [if_neg hfull]
      show RespWithin _ (.ok _)
      exact respWithin_ok.mpr (hsize ids.length (by omega))

/-! ## Transient files -/

lemma visitTransientFilesLoop_size (l : List TransientFile) (budget : ℤ)
    (files : List TransientFile) :
    (((visitTransientFilesLoop l budget files).files.map TransientFile.packedSize).sum : ℤ) ≤
      (files.map TransientFile.packedSize).sum + max budget 0 := by
  induction l generalizing budget files with
  | nil =>
    simp only [visitTransientFilesLoop]
    omega
  | cons file rest ih =>
    rw [visitTransientFilesLoop]
    split_ifs with hneg
    · simp only
      omega
    · have hrest := ih (budget - file.packedSize) (files ++ [file])
      simp only [map_append, map_cons, map_nil, sum_append, sum_cons, sum_nil] at hrest
      omega

lemma visitTransientFiles_within (cfg : ShardConfig) (db : ShardDB) (req : VisitInodesReq) :
    RespWithin req.mtu (VisitTransientFilesResp.packedSize <$> visitTransientFiles cfg db req) ↔
      shardRespHeaderSize + VisitTransientFilesResp.staticSize ≤ pickMtu req.mtu := by
  set files := (db.transientFiles.seek req.beginId).map fun e =>
    (⟨e.1, cfg.calcCookie e.1, e.2.deadline⟩ : TransientFile) with hfiles
  set budget : ℤ := pickMtu req.mtu - shardRespMsgSize - VisitTransientFilesResp.staticSize
    with hbudget
  show RespWithin _ (.ok (visitTransientFilesLoop files budget []).packedSize) ↔ _
  rw [respWithin_ok, VisitTransientFilesResp.packedSize]
  constructor
  · omega
  · intro h
    have hsize := visitTransientFilesLoop_size files budget []
    have hmsg := shardRespMsgSize_eq
    simp only [map_nil, sum_nil] at hsize
    omega

/-! ## All edges of a directory -/

/-- The page of a listing fits into what its message has room for. -/
def PageWithin (room : ℤ) : Read (Bool × EdgePage) → Prop
  | .ok (_, page) => (page.next.startName.length + edgesSize page.results : ℕ) ≤ room
  | .error _ => False

/-- A run of edges makes a page that fits: the name of the first one fits into the base, and the
edge that reaches the limit fits, into the base and what it leaves of the message, if those before
it fit into the base. -/
def EdgesFit (limit : ℕ) (base : ℤ) (edges : List Edge) : Prop :=
  0 ≤ base + maxRespStaticSize ∧ (∀ e ∈ edges.head?, e.name.length ≤ base) ∧
    (0 < limit → limit ≤ edges.length → edgesSize (edges.take (limit - 1)) ≤ base →
      edgesSize (edges.take limit) ≤ base + maxRespStaticSize)

/-- Edges that do not fit leave a page that fits, if the name of the first one does. -/
lemma removeLast_within {first : Edge} (hbase : base = budget + edgesSize l)
    (hfirst : l.head? = some first) :
    PageWithin (base + maxRespStaticSize) (removeLast l.reverse budget
      FullReadDirCursor.staticSize >>= fun page => .ok (true, page)) ↔
        first.name.length ≤ base := by
  have hbase' : base = budget + edgesSize l + FullReadDirCursor.staticSize -
      FullReadDirCursor.staticSize := by omega
  rcases removeLast_spec hbase' hfirst with
    ⟨hlt, hremove⟩ | ⟨hle, keep, x, dropped, -, hremove, hpos, -⟩
  · rw [hremove]
    exact iff_of_false id (not_le.mpr hlt)
  rw [hremove]
  refine iff_of_true ?_ hle
  show ((x.name.length + edgesSize keep : ℕ) : ℤ) ≤ base + maxRespStaticSize
  omega

lemma exists_head? (h : l ≠ []) : ∃ first ∈ l, l.head? = some first := by
  obtain ⟨x, l, rfl⟩ := exists_cons_of_ne_nil h
  exact ⟨x, mem_cons_self .., rfl⟩

lemma edgesSize_le_of_prefix {l' : List Edge} (h : l <+: l') : edgesSize l ≤ edgesSize l' := by
  obtain ⟨t, rfl⟩ := h
  rw [edgesSize_append]
  omega

variable {result : Read (Bool × EdgePage)} {edges last rest : List Edge}

/-- The edges up to the one that reaches the limit. -/
lemma take_of_length (hedges : edges = last ++ e :: rest) (hlength : last.length + 1 = limit) :
    edges.take (limit - 1) = last ∧ edges.take limit = last ++ [e] ∧ limit ≤ edges.length := by
  rw [hedges, ← hlength]
  refine ⟨by simp, by simp [take_append], by simp⟩

/-- If the edges up to one before the limit do not fit, neither do all those before the limit. -/
lemma lt_edgesSize_take (hedges : edges = last ++ e :: rest)
    (hlimit : last.length + 1 < limit) (hfull : base < edgesSize (last ++ [e])) :
    base < edgesSize (edges.take (limit - 1)) := by
  have hpre : last ++ [e] <+: edges.take (limit - 1) := by
    rw [hedges]
    refine prefix_take_iff.mpr ⟨⟨rest, by simp⟩, ?_⟩
    simp only [length_append, length_singleton]
    omega
  have hle := edgesSize_le_of_prefix hpre
  omega

/-- With a base below zero an edge is added only by reaching the limit. -/
lemma fullReadDirAddAll_of_neg (limit : ℕ) (e : Edge) (rest : List Edge) (hneg : base < 0) :
    fullReadDirAddAll limit (e :: rest) ⟨.empty, [], base⟩ =
      if limit = 1 then .ok (true, ⟨.empty, [e], base⟩) else .error .emptyVector := by
  rw [fullReadDirAddAll]
  by_cases hlimit : limit = 1
  · rw [if_pos hlimit, fullReadDirAdd_of_limit (by simp [hlimit])]
    rfl
  · have hdone : ¬ (0 < limit ∧ limit ≤ ([] ++ [e] : List Edge).length) := by
      simp
      omega
    rw [if_neg hlimit, fullReadDirAdd_of_full hdone (by simp only; omega)]
    have hbase : base = base - e.packedSize + edgesSize [e] + FullReadDirCursor.staticSize -
        FullReadDirCursor.staticSize := by
      rw [edgesSize_cons, edgesSize_nil]
      omega
    rcases removeLast_spec hbase rfl with ⟨-, hremove⟩ | ⟨hle, -⟩
    · simp only [nil_append, hremove]
      rfl
    · omega

lemma lt_edgesSize_of_neg (e : Edge) (rest : List Edge) (hneg : base < 0) :
    base + maxRespStaticSize < edgesSize (e :: rest) := by
  have hslack : maxRespStaticSize = 24 := rfl
  have hsize := e.packedSize_eq
  rw [edgesSize_cons]
  omega

lemma fullReadDirAddAll_within (limit : ℕ) (base : ℤ) (edges : List Edge) :
    PageWithin (base + maxRespStaticSize) (fullReadDirAddAll limit edges ⟨.empty, [], base⟩) ↔
      EdgesFit limit base edges := by
  by_cases hpos : 0 ≤ base
  · have hcases : AddsEdges limit base ⟨.empty, [], base⟩ edges
        (fullReadDirAddAll limit edges ⟨.empty, [], base⟩) :=
      fullReadDirAddAll_cases limit edges (by simp) hpos (by simp)
    generalize fullReadDirAddAll limit edges ⟨.empty, [], base⟩ = result at hcases
    -- the first edge of the list is the first on the page
    have hhead : ∀ (last : List Edge) (e : Edge) (rest : List Edge), edges = last ++ e :: rest →
        (last ++ [e]).head? = edges.head? := by
      rintro last e rest rfl
      cases last <;> rfl
    cases hcases with
    | all hfit hlimit =>
      simp only [nil_append] at hfit hlimit ⊢
      refine iff_of_true ?_ ⟨by omega, ?_, ?_⟩
      · show ((0 + edgesSize edges : ℕ) : ℤ) ≤ base + maxRespStaticSize
        omega
      · intro e he
        have hname := name_length_le_edgesSize (mem_of_head? he)
        omega
      · intro hpos' hle
        exact absurd (hlimit hpos') (by omega)
    | limit last e rest budget hedges hpos' hlength hfit =>
      simp only [nil_append] at hlength hfit ⊢
      obtain ⟨htake, htake', hlen⟩ := take_of_length hedges hlength
      have hpage : PageWithin (base + maxRespStaticSize)
          (.ok (true, ⟨.empty, last ++ [e], budget⟩)) ↔
            edgesSize (last ++ [e]) ≤ base + maxRespStaticSize := by
        show ((0 + edgesSize (last ++ [e]) : ℕ) : ℤ) ≤ base + maxRespStaticSize ↔ _
        rw [Nat.zero_add]
      rw [hpage]
      constructor
      · intro h
        refine ⟨by omega, fun x hx => ?_, fun _ _ _ => by rwa [htake']⟩
        rw [← hhead last e rest hedges] at hx
        have hname := name_length_le_edgesSize (mem_of_head? hx)
        have hslack : maxRespStaticSize = 24 := rfl
        omega
      · rintro ⟨-, -, h⟩
        rw [← htake']
        exact h hpos' hlen (by rwa [htake])
    | full last e rest hedges hlimit hfit hfull =>
      simp only [nil_append] at hlimit hfit hfull ⊢
      obtain ⟨first, -, hfirst⟩ := exists_head? (l := last ++ [e]) (by simp)
      have hremove : PageWithin (base + maxRespStaticSize) (removeLast (last ++ [e]).reverse
          (base - edgesSize (last ++ [e])) FullReadDirCursor.staticSize >>= fun page =>
            .ok (true, page)) ↔ first.name.length ≤ base :=
        removeLast_within (by omega) hfirst
      rw [hremove]
      constructor
      · intro h
        refine ⟨by omega, fun x hx => ?_, fun hpos' _ hbefore => ?_⟩
        · rw [← hhead last e rest hedges, hfirst] at hx
          obtain rfl : first = x := by simpa using hx
          exact h
        · exact absurd hbefore (not_le.mpr (lt_edgesSize_take hedges (hlimit hpos') hfull))
      · rintro ⟨-, h, -⟩
        exact h first (by rw [← hhead last e rest hedges]; exact hfirst)
  · have hneg := not_le.mp hpos
    cases edges with
    | nil =>
      show (0 : ℤ) ≤ base + maxRespStaticSize ↔ _
      exact ⟨fun h => ⟨h, by simp, fun _ _ _ => by simpa using h⟩, fun h => h.1⟩
    | cons e rest =>
      refine iff_of_false ?_ fun h => ?_
      · have hlong := lt_edgesSize_of_neg e [] hneg
        rw [fullReadDirAddAll_of_neg limit e rest hneg]
        split_ifs
        · show ¬ ((0 + edgesSize [e] : ℕ) : ℤ) ≤ base + maxRespStaticSize
          omega
        · exact id
      · have hname := h.2.1 e rfl
        omega

lemma PageWithin.mono {room room' : ℤ} (h : PageWithin room result)
    (hle : room ≤ room') : PageWithin room' result := by
  cases result with
  | error => exact h
  | ok page => exact le_trans h hle

lemma fullReadDirAddAll_append (limit : ℕ) (l l' : List Edge) (page : EdgePage) :
    fullReadDirAddAll limit (l ++ l') page = fullReadDirAddAll limit l page >>= fun result =>
        if result.1 then .ok (true, result.2) else fullReadDirAddAll limit l' result.2 := by
  induction l generalizing page with
  | nil => rfl
  | cons e l ih =>
    rw [cons_append, fullReadDirAddAll, fullReadDirAddAll]
    cases fullReadDirAdd limit page e with
    | error => rfl
    | ok result =>
      obtain ⟨done, page⟩ := result
      cases done with
      | true => rfl
      | false => exact ih page

lemma fullReadDirAddAll_singleton (limit : ℕ) (e : Edge) (page : EdgePage) :
    fullReadDirAddAll limit [e] page = fullReadDirAdd limit page e := by
  rw [fullReadDirAddAll]
  cases fullReadDirAdd limit page e with
  | error => rfl
  | ok result =>
    obtain ⟨done, page⟩ := result
    cases done <;> rfl

/-- The edges of one name and then its current edge, which is looked up even if the page is done,
make a page that fits.  If the limit was reached the edge is one too many; if the budget was used
up the name in the cursor is paid for twice. -/
def ThenCurrentFits (limit : ℕ) (base : ℤ) (edges : List Edge) (edge : Edge) : Prop :=
  if 0 < limit ∧ limit ≤ edges.length ∧ edgesSize (edges.take (limit - 1)) ≤ base then
    (edgesSize (edges.take limit) + edge.packedSize : ℕ) ≤ base + maxRespStaticSize
  else if base < edgesSize edges then 0 ≤ base ∧ (2 * edge.name.length : ℕ) ≤ base
  else EdgesFit limit base (edges ++ [edge])

variable {edge : Edge}

/-- The current edge after edges of the same name that do not fit: the page that is done has no
room for it, and edges are taken off once more. -/
lemma addCurrent_within_of_full (hnames : ∀ x ∈ l, x.name.length = edge.name.length)
    (hne : l ≠ []) (hlimit : 0 < limit → l.length < limit) (hfull : base < edgesSize l) :
    PageWithin (base + maxRespStaticSize) ((removeLast l.reverse (base - edgesSize l)
        FullReadDirCursor.staticSize >>= fun page => .ok (true, page)) >>= fun result =>
          fullReadDirAdd limit result.2 edge) ↔
      (2 * edge.name.length : ℕ) ≤ base := by
  obtain ⟨first, hmem, hfirst⟩ := exists_head? hne
  have hfirstName := hnames first hmem
  have hbase : base = base - edgesSize l + edgesSize l + FullReadDirCursor.staticSize -
      FullReadDirCursor.staticSize := by omega
  rcases removeLast_spec hbase hfirst with
    ⟨hlt, hremove⟩ | ⟨hle, keep, x, dropped, hsplit, hremove, hpage, hmax⟩
  · rw [hremove]
    exact iff_of_false id (by omega)
  have hx : x.name.length = edge.name.length := hnames x (by rw [hsplit]; simp)
  have hneg : base - edgesSize keep - x.name.length - edge.packedSize < 0 := by
    have hsize := x.packedSize_eq
    have hsize' := edge.packedSize_eq
    cases dropped with
    | nil =>
      rw [hsplit, edgesSize_append, edgesSize_cons, edgesSize_nil] at hfull
      omega
    | cons y =>
      have hy : y.name.length = edge.name.length := hnames y (by rw [hsplit]; simp)
      have hlt := hmax y rfl
      omega
  have hdone : ¬ (0 < limit ∧ limit ≤ (keep ++ [edge]).length) := by
    rintro ⟨hpos, hle⟩
    have hlen := congrArg List.length hsplit
    simp only [length_append, length_cons, length_nil] at hle hlen
    omega
  have hadd : fullReadDirAdd limit ⟨.atEdge x, keep, base - edgesSize keep - x.name.length⟩ edge =
      removeLast (keep ++ [edge]).reverse
        (base - edgesSize keep - x.name.length - edge.packedSize)
        FullReadDirCursor.staticSize >>= fun page => .ok (true, page) :=
    fullReadDirAdd_of_full hdone hneg
  -- the name in the cursor is not given back, so that the base is smaller now
  have hbase' : base - edge.name.length =
      base - edgesSize keep - x.name.length - edge.packedSize + edgesSize (keep ++ [edge]) +
        FullReadDirCursor.staticSize - FullReadDirCursor.staticSize := by
    rw [edgesSize_append, edgesSize_cons, edgesSize_nil, hx]
    omega
  obtain ⟨first', hmem', hfirst'⟩ := exists_head? (l := keep ++ [edge]) (by simp)
  have hfirstName' : first'.name.length = edge.name.length := by
    rcases mem_append.mp hmem' with h | h
    · exact hnames first' (by rw [hsplit]; exact mem_append_left _ h)
    · obtain rfl : first' = edge := by simpa using h
      rfl
  rw [hremove, ok_bind, ok_bind, hadd]
  rcases removeLast_spec hbase' hfirst' with ⟨hlt, herror⟩ | ⟨hle', -⟩
  · rw [herror]
    exact iff_of_false id (by omega)
  · refine iff_of_true (PageWithin.mono ((removeLast_within ?_ hfirst').mpr hle') ?_) ?_ <;> omega

lemma thenCurrent_within (hnames : ∀ e ∈ edges, e.name.length = edge.name.length) :
    PageWithin (base + maxRespStaticSize) (fullReadDirAddAll limit edges ⟨.empty, [], base⟩ >>=
        fun result => fullReadDirAdd limit result.2 edge) ↔
      ThenCurrentFits limit base edges edge := by
  by_cases hpos : 0 ≤ base
  · have hcases : AddsEdges limit base ⟨.empty, [], base⟩ edges
        (fullReadDirAddAll limit edges ⟨.empty, [], base⟩) :=
      fullReadDirAddAll_cases limit edges (by simp) hpos (by simp)
    have hfits := fullReadDirAddAll_within limit base (edges ++ [edge])
    rw [fullReadDirAddAll_append] at hfits
    generalize fullReadDirAddAll limit edges ⟨.empty, [], base⟩ = result at hcases hfits
    unfold ThenCurrentFits
    cases hcases with
    | all hfit hlimit =>
      simp only [nil_append] at hfit hlimit hfits ⊢
      have hnot : ¬ (0 < limit ∧ limit ≤ edges.length ∧
          edgesSize (edges.take (limit - 1)) ≤ base) := by
        rintro ⟨hpos', hle, -⟩
        exact absurd (hlimit hpos') (by omega)
      rw [if_neg hnot, if_neg (not_lt.mpr hfit), ← hfits, ok_bind, ok_bind]
      simp [fullReadDirAddAll_singleton]
    | limit last e rest budget hedges hpos' hlength hfit =>
      simp only [nil_append] at hlength hfit ⊢
      obtain ⟨htake, htake', hlen⟩ := take_of_length hedges hlength
      rw [if_pos ⟨hpos', hlen, by rwa [htake]⟩, htake', ok_bind]
      have hdone : 0 < limit ∧ limit ≤ (last ++ [e] ++ [edge]).length := by
        simp only [length_append, length_singleton]
        omega
      have hadd : fullReadDirAdd limit ⟨.empty, last ++ [e], budget⟩ edge =
          .ok (true, ⟨.empty, last ++ [e] ++ [edge], budget⟩) := fullReadDirAdd_of_limit hdone
      rw [hadd]
      show ((0 + edgesSize (last ++ [e] ++ [edge]) : ℕ) : ℤ) ≤ base + maxRespStaticSize ↔ _
      rw [Nat.zero_add, edgesSize_append (last ++ [e]), edgesSize_cons edge, edgesSize_nil,
        Nat.add_zero]
    | full last e rest hedges hlimit hfit hfull =>
      simp only [nil_append] at hlimit hfit hfull ⊢
      have hnot : ¬ (0 < limit ∧ limit ≤ edges.length ∧
          edgesSize (edges.take (limit - 1)) ≤ base) := by
        rintro ⟨hpos', -, hle⟩
        exact absurd hle (not_le.mpr (lt_edgesSize_take hedges (hlimit hpos') hfull))
      have hlong : base < edgesSize edges := by
        have hle : edgesSize (last ++ [e]) ≤ edgesSize edges :=
          edgesSize_le_of_prefix ⟨rest, by rw [hedges]; simp⟩
        omega
      rw [if_neg hnot, if_pos hlong]
      have hname : ∀ x ∈ last ++ [e], x.name.length = edge.name.length := by
        intro x hx
        refine hnames x ?_
        rw [hedges]
        rcases mem_append.mp hx with hx | hx
        · exact mem_append_left _ hx
        · obtain rfl : x = e := by simpa using hx
          simp
      rw [addCurrent_within_of_full hname (by simp) (by simpa using hlimit) hfull]
      exact ⟨fun h => ⟨hpos, h⟩, fun h => h.2⟩
  · have hneg := not_le.mp hpos
    refine iff_of_false ?_ ?_
    · cases edges with
      | nil =>
        have hadd := fullReadDirAddAll_within limit base [edge]
        rw [fullReadDirAddAll_singleton] at hadd
        intro h
        have hname := (hadd.mp h).2.1 edge rfl
        omega
      | cons e rest =>
        have hlong := lt_edgesSize_of_neg e [edge] hneg
        rw [fullReadDirAddAll_of_neg limit e rest hneg]
        split_ifs with hlimit
        · rw [ok_bind, fullReadDirAdd_of_limit (by simp [hlimit])]
          show ¬ ((0 + edgesSize [e, edge] : ℕ) : ℤ) ≤ base + maxRespStaticSize
          omega
        · exact id
    · unfold ThenCurrentFits
      split_ifs with h h'
      · omega
      · exact fun h => hpos h.1
      · omega

lemma removeLast_not_refused (l : List Edge) (budget : ℤ) (prevCursorSize : ℕ) (t : TernError) :
    removeLast l budget prevCursorSize ≠ .error (.refused t) := by
  induction l generalizing budget prevCursorSize with
  | nil => simp [removeLast]
  | cons last rest ih =>
    rw [removeLast]
    split_ifs
    · exact ih _ _
    · simp

lemma fullReadDirAdd_not_refused (limit : ℕ) (page : EdgePage) (e : Edge) (t : TernError) :
    fullReadDirAdd limit page e ≠ .error (.refused t) := by
  by_cases hdone : 0 < limit ∧ limit ≤ (page.results ++ [e]).length
  · rw [fullReadDirAdd_of_limit hdone]
    simp
  by_cases hneg : page.budget - e.packedSize < 0
  · rw [fullReadDirAdd_of_full hdone hneg]
    intro h
    rcases bind_eq_error.mp h with h | ⟨page, -, h⟩
    · exact removeLast_not_refused _ _ _ t h
    · cases h
  · rw [fullReadDirAdd_of_fits hdone hneg]
    simp

lemma fullReadDirAddAll_not_refused (limit : ℕ) (l : List Edge) (page : EdgePage) (t : TernError) :
    fullReadDirAddAll limit l page ≠ .error (.refused t) := by
  induction l generalizing page with
  | nil => simp [fullReadDirAddAll]
  | cons e l ih =>
    intro h
    rcases bind_eq_error.mp h with h | ⟨⟨done, page⟩, -, h⟩
    · exact fullReadDirAdd_not_refused limit _ e t h
    · cases done with
      | true => cases h
      | false => exact ih page h

/-- The message of a page fits if the page fits into its base and the room set aside. -/
lemma respWithin_page {req : FullReadDirReq} (h : ∀ t, result ≠ .error (.refused t)) :
    RespWithin req.mtu (FullReadDirResp.packedSize <$>
        (result >>= fun result => .ok result.2.resp)) ↔
      PageWithin (req.start.budget + maxRespStaticSize) result := by
  cases result with
  | error e =>
    cases e with
    | refused t => exact absurd rfl (h t)
    | emptyVector | outOfRange | assertion => exact Iff.rfl
  | ok result =>
    obtain ⟨done, page⟩ := result
    show RespWithin req.mtu (.ok page.resp.packedSize) ↔
      ((page.next.startName.length + edgesSize page.results : ℕ) : ℤ) ≤
        (pickMtu req.mtu : ℤ) - shardRespMsgSize - FullReadDirResp.staticSize + maxRespStaticSize
    have hmsg := shardRespMsgSize_eq
    have hstatic : FullReadDirResp.staticSize = 12 := rfl
    have hsize : page.resp.packedSize =
        12 + (page.next.startName.length + edgesSize page.results) := page.resp.packedSize_eq
    rw [respWithin_ok, hsize]
    omega

section

variable (cfg : ShardConfig) (db : ShardDB) (req : FullReadDirReq)

lemma fullReadDirLookupCurrent_eq (page : EdgePage) : fullReadDirLookupCurrent cfg db req page =
      fullReadDirAddAll req.limit (req.currentEdge cfg db).toList page := by
  rw [fullReadDirLookupCurrent]
  cases req.currentEdge cfg db with
  | none => rfl
  | some => exact (fullReadDirAddAll_singleton ..).symm

/-- A listing of one name fits. -/
def FullReadDirReq.SameNameFits : Prop :=
  let edges := req.snapshotEdges cfg db
  let current := req.currentEdge cfg db
  if req.current then
    EdgesFit req.limit req.start.budget (current.toList ++ if req.backwards then edges else [])
  else if req.backwards then EdgesFit req.limit req.start.budget edges
  else
    match current with
    | none => EdgesFit req.limit req.start.budget edges
    | some edge => ThenCurrentFits req.limit req.start.budget edges edge

/-- The edges of one name and the current edge of it have names of one length. -/
lemma name_length_of_mem_snapshotEdges (hedge : req.currentEdge cfg db = some edge)
    (he : e ∈ req.snapshotEdges cfg db) : e.name.length = edge.name.length := by
  have hsame : SameBytes e.name req.startName := by
    have h := all_eq_true.mp (all_takeWhile (l := _)) e he
    simpa using h
  obtain ⟨body, -, rfl⟩ := Option.map_eq_some_iff.mp hedge
  exact hsame.1

lemma fullReadDirSameName_within :
    RespWithin req.mtu (FullReadDirResp.packedSize <$> fullReadDirSameName cfg db req) ↔
      req.SameNameFits cfg db := by
  have hstart : req.start = ⟨.empty, [], req.start.budget⟩ := rfl
  have hpage : ∀ l : List Edge, RespWithin req.mtu (FullReadDirResp.packedSize <$>
      (fullReadDirAddAll req.limit l req.start >>= fun result => .ok result.2.resp)) ↔
        EdgesFit req.limit req.start.budget l := by
    intro l
    rw [respWithin_page (fullReadDirAddAll_not_refused _ _ _), hstart]
    exact fullReadDirAddAll_within ..
  unfold FullReadDirReq.SameNameFits
  cases hcurrent : req.current with
  | true =>
    rw [if_pos rfl, ← hpage]
    suffices h : fullReadDirSameName cfg db req =
        fullReadDirAddAll req.limit ((req.currentEdge cfg db).toList ++
          if req.backwards then req.snapshotEdges cfg db else []) req.start >>= fun result =>
            .ok result.2.resp by
      rw [h]
    rw [fullReadDirSameName, hcurrent, if_pos rfl, fullReadDirLookupCurrent_eq,
      fullReadDirAddAll_append]
    cases fullReadDirAddAll req.limit (req.currentEdge cfg db).toList req.start with
    | error => rfl
    | ok result =>
      obtain ⟨done, page⟩ := result
      cases done <;> cases req.backwards <;> simp [fullReadDirAddAll] <;> rfl
  | false =>
    rw [if_neg (by simp)]
    cases hback : req.backwards with
    | true =>
      rw [if_pos rfl, ← hpage]
      suffices h : fullReadDirSameName cfg db req =
          fullReadDirAddAll req.limit (req.snapshotEdges cfg db) req.start >>= fun result =>
            .ok result.2.resp by
        rw [h]
      rw [fullReadDirSameName, hcurrent, hback]
      rfl
    | false =>
      have hrun : fullReadDirSameName cfg db req =
          (fullReadDirAddAll req.limit (req.snapshotEdges cfg db) req.start >>= fun result =>
            fullReadDirLookupCurrent cfg db req result.2) >>= fun result => .ok result.2.resp := by
        rw [fullReadDirSameName, hcurrent, hback]
        change (fullReadDirAddAll req.limit (req.snapshotEdges cfg db) req.start >>= fun result =>
          fullReadDirLookupCurrent cfg db req result.2 >>= fun result => .ok result.2.resp) = _
        cases fullReadDirAddAll req.limit (req.snapshotEdges cfg db) req.start <;> rfl
      rw [hrun]
      cases hedge : req.currentEdge cfg db with
      | none =>
        rw [← hpage]
        simp only [fullReadDirLookupCurrent, hedge]
        cases fullReadDirAddAll req.limit (req.snapshotEdges cfg db) req.start <;> rfl
      | some =>
        simp only [fullReadDirLookupCurrent, hedge]
        rw [respWithin_page, hstart]
        · exact thenCurrent_within fun e he => name_length_of_mem_snapshotEdges cfg db req hedge he
        intro t h
        rcases bind_eq_error.mp h with h | ⟨result, -, h⟩
        · exact fullReadDirAddAll_not_refused _ _ _ t h
        · exact fullReadDirAdd_not_refused _ _ _ t h

/-- The request is malformed, or its directory is not there. -/
def FullReadDirReq.Refused : Prop :=
  (req.sameName ∧ req.startName = [] ∨ req.current ∧ req.startTime ≠ 0) ∨
    ¬ (getDirectory db req.dirId true).isOk

/-- The page that a request for all edges of a directory gets fits. -/
def FullReadDirReq.Fits : Prop :=
  (req.Refused db → shardRespHeaderSize + errorSize ≤ pickMtu req.mtu) ∧ (¬ req.Refused db →
      if req.sameName then req.SameNameFits cfg db
      else EdgesFit req.limit req.start.budget (req.walk cfg db))

lemma fullReadDirPage_within :
    RespWithin req.mtu (FullReadDirResp.packedSize <$> fullReadDirPage cfg db req) ↔
      req.Fits cfg db := by
  by_cases hrefused : req.Refused db
  · have hread : ∃ t, fullReadDirPage cfg db req = .error (.refused t) := by
      by_cases hmal : req.sameName ∧ req.startName = [] ∨ req.current ∧ req.startTime ≠ 0
      · exact ⟨.malformedRequest, by rw [fullReadDirPage, ensure_of_not (not_not.mpr hmal)]; rfl⟩
      rcases getDirectory_toRead db req.dirId true with ⟨dir, hdir⟩ | ⟨t, ht⟩
      · refine absurd (hrefused.resolve_left hmal) ?_
        simp [hdir, Except.isOk, Except.toBool]
      · exact ⟨t, by rw [fullReadDirPage, ensure_of hmal, ok_bind, ht]; rfl⟩
    obtain ⟨t, ht⟩ := hread
    rw [ht]
    simp [respWithin_refused, FullReadDirReq.Fits, hrefused]
  · obtain ⟨hmal, hdir⟩ := not_or.mp hrefused
    obtain ⟨dir, hdir⟩ := exists_of_isOk (not_not.mp hdir)
    have hread : fullReadDirPage cfg db req =
        if req.sameName then fullReadDirSameName cfg db req else fullReadDirNormal cfg db req := by
      rw [fullReadDirPage, ensure_of hmal, hdir]
      rfl
    have hstart : req.start = ⟨.empty, [], req.start.budget⟩ := rfl
    have hbody : RespWithin req.mtu (FullReadDirResp.packedSize <$> fullReadDirPage cfg db req) ↔
        if req.sameName then req.SameNameFits cfg db
        else EdgesFit req.limit req.start.budget (req.walk cfg db) := by
      rw [hread]
      cases req.sameName with
      | true => exact fullReadDirSameName_within cfg db req
      | false =>
        show RespWithin req.mtu (FullReadDirResp.packedSize <$>
          (fullReadDirAddAll req.limit (req.walk cfg db) req.start >>= fun result =>
            .ok result.2.resp)) ↔ EdgesFit req.limit req.start.budget (req.walk cfg db)
        rw [respWithin_page (fullReadDirAddAll_not_refused _ _ _), hstart]
        exact fullReadDirAddAll_within ..
    rw [hbody, FullReadDirReq.Fits]
    simp [hrefused]

end

/-! ## Spans -/

/-- The file is there, linked or transient. -/
def ShardDB.HasFile (db : ShardDB) (fileId : InodeId) : Prop :=
  db.files.get fileId ≠ none ∨ db.transientFiles.get fileId ≠ none

lemma getTransientFile_isOk {db : ShardDB} {fileId : InodeId} (hfile : fileId.IsFile) :
    (getTransientFile db 0 true fileId).isOk = (db.transientFiles.get fileId).isSome := by
  rw [getTransientFile, check_of hfile, ok_bind]
  cases db.transientFiles.get fileId <;> rfl

lemma checkFileExists_eq (db : ShardDB) {fileId : InodeId} (hfile : fileId.IsFile) :
    (db.HasFile fileId → checkFileExists db fileId = .ok ⟨⟩) ∧
      (¬ db.HasFile fileId → checkFileExists db fileId = .error (.refused .fileNotFound)) := by
  unfold ShardDB.HasFile checkFileExists
  rw [getFile, check_of hfile, ok_bind, getTransientFile_isOk hfile]
  cases db.files.get fileId with
  | some => exact ⟨fun _ => rfl, fun h => absurd (.inl (by simp)) h⟩
  | none =>
    cases db.transientFiles.get fileId with
    | some => exact ⟨fun _ => rfl, fun h => absurd (.inr (by simp)) h⟩
    | none => exact ⟨fun h => by simp at h, fun _ => rfl⟩

section

variable (r : SpanReader) (cache : BlockServicesCache) (db : ShardDB) (req : FileSpansReq)

/-- The spans that the request can get. -/
def FileSpansReq.spans : List (SpanKey × SpanBody) :=
  req.readable 0 (db.spansFrom req.fileId req.byteOffset)

/-- There is no span to get, or the first one does not fit. -/
def FileSpansReq.NothingFits : Prop :=
  ∀ e ∈ (req.spans db).head?, req.start.budget < r.spansCost [] [e.2]

/-- The request is not for a file, or there is neither a span to return nor the file. -/
def FileSpansReq.Refused : Prop :=
  ¬ req.fileId.IsFile ∨ req.NothingFits r db ∧ ¬ db.HasFile req.fileId

/-- The page of spans that a request gets fits: the smallest page does, and no block is met that
cannot be read. -/
def FileSpansReq.Fits : Prop :=
  (req.fileId.IsFile → ¬ MeetsBadSpan r cache [] req.start.budget ((req.spans db).map Prod.snd)) ∧
    (req.Refused r db → shardRespHeaderSize + errorSize ≤ pickMtu req.mtu) ∧
    (¬ req.Refused r db → shardRespHeaderSize + FileSpansResp.staticSize ≤ pickMtu req.mtu)

variable {r cache db req}

lemma SpanReader.spansCost_head_le (listed : List ℕ) (span : SpanBody) (spans : List SpanBody) :
    r.spansCost listed [span] ≤ r.spansCost listed (span :: spans) := by
  rw [SpanReader.spansCost_cons listed span spans]
  omega

/-- The page has no span exactly if nothing fits. -/
lemma nothingFits_iff {kept rest : List (SpanKey × SpanBody)} (hspans : req.spans db = kept ++ rest)
    (hcost : r.spansCost [] (kept.map Prod.snd) ≤ req.start.budget)
    (hfull : ∀ next ∈ rest.head?,
      req.start.budget < r.spansCost [] ((kept ++ [next]).map Prod.snd)) :
    kept = [] ↔ req.NothingFits r db := by
  rw [FileSpansReq.NothingFits, hspans]
  cases kept with
  | nil => exact iff_of_true rfl hfull
  | cons e kept =>
    refine iff_of_false (cons_ne_nil _ _) fun hnothing => ?_
    have hlt := hnothing e rfl
    have hle := SpanReader.spansCost_head_le (r := r) [] e.2 (kept.map Prod.snd)
    rw [map_cons] at hcost
    omega

lemma good_nil : (ServicePage.mk [] budget).Good r cache :=
  ⟨by simp [ServicePage.ids], by simp [ServicePage.ids]⟩

variable (cache) in
/-- With a budget below zero, no span is returned. -/
lemma fileSpansLoop_of_neg (hr : r.Asserts) (hneg : req.start.budget < 0)
    (spans : List (SpanKey × SpanBody)) :
    ∃ nextOffset, fileSpansLoop r cache req spans req.start [] = .ok ⟨nextOffset, [], []⟩ := by
  cases spans with
  | nil => exact ⟨0, rfl⟩
  | cons e =>
    obtain ⟨key, span⟩ := e
    rw [fileSpansLoop]
    split_ifs with hlimit hends
    · exact ⟨0, rfl⟩
    · exact ⟨0, rfl⟩
    have hserves : Serves r cache (r.services span)
        fun page => Prod.snd <$> fetchSpan r cache key.offset span page :=
      serves_fetchSpan hr key.offset span
    obtain ⟨page', hrun, hsame, hneg'⟩ := hserves.spent req.start good_nil hneg
    obtain ⟨⟨f, page₁⟩, hfetch, rfl⟩ := map_eq_ok.mp hrun
    rw [hfetch, ok_bind]
    simp only at hsame hneg'
    have hshort : page₁.budget - f.packedSize r < 0 := by omega
    simp only [if_pos hshort, hsame]
    exact ⟨_, rfl⟩

variable (cache db req) in
/-- The loop fails if a bad block is met; otherwise its page fits into the budget if there is one,
and it has no span exactly if nothing fits. -/
lemma fileSpansLoop_spec (hr : r.Asserts) :
    (MeetsBadSpan r cache [] req.start.budget ((req.spans db).map Prod.snd) ∧
      ∃ e, (∀ t, e ≠ .refused t) ∧ fileSpansLoop r cache req
        (db.spansFrom req.fileId req.byteOffset) req.start [] = .error e) ∨
    (¬ MeetsBadSpan r cache [] req.start.budget ((req.spans db).map Prod.snd) ∧
      ∃ resp, fileSpansLoop r cache req (db.spansFrom req.fileId req.byteOffset) req.start [] =
          .ok resp ∧ (resp.spans = [] ↔ req.NothingFits r db) ∧
        (resp.packedSize r : ℤ) ≤ FileSpansResp.staticSize + max req.start.budget 0) := by
  by_cases hpos : 0 ≤ req.start.budget
  · have hreads : ReadsSpans r cache req.start (req.spans db) []
        (fileSpansLoop r cache req (db.spansFrom req.fileId req.byteOffset) req.start []) :=
      fileSpansLoop_reads hr req _ [] good_nil hpos
    generalize fileSpansLoop r cache req (db.spansFrom req.fileId req.byteOffset) req.start [] =
      result at hreads
    have hids₀ : req.start.ids = [] := rfl
    cases hreads with
    | fault e he hbad => exact .inl ⟨hbad, e, he, rfl⟩
    | all services out hbad hcost hids hpre hshows hsizes =>
      rw [hids₀] at hcost hids
      refine .inr ⟨hbad, _, rfl, ?_, ?_⟩
      · rw [← nothingFits_iff (append_nil _).symm hcost nofun, ← length_eq_zero_iff,
          ← length_eq_zero_iff, hshows.length_eq, nil_append]
      rw [SpanReader.spansCost, servicesCost, map_map, ← hids, length_map] at hcost
      rw [FileSpansResp.packedSize, nil_append, hsizes]
      simp only [length_nil, Nat.sub_zero, Function.comp_def] at hcost ⊢
      omega
    | cut services listed out kept next rest hspans hbad hcost hfull hpaid hids hpre hlisted
        hshows hsizes =>
      rw [hids₀] at hcost hfull hpaid
      refine .inr ⟨hbad, _, rfl, ?_, ?_⟩
      · rw [← nothingFits_iff hspans hcost (by rintro _ ⟨⟩; exact hfull),
          ← length_eq_zero_iff, ← length_eq_zero_iff, hshows.length_eq, nil_append]
      rw [FileSpansResp.packedSize, nil_append, hsizes]
      simp only [length_nil] at hpaid
      push_cast at hpaid ⊢
      omega
  · have hneg := not_le.mp hpos
    obtain ⟨nextOffset, hrun⟩ := fileSpansLoop_of_neg cache hr hneg
      (db.spansFrom req.fileId req.byteOffset)
    refine .inr ⟨not_meetsBadSpan_of_neg hneg, _, hrun, iff_of_true rfl fun e _ => ?_, ?_⟩
    · omega
    · rw [max_eq_right hneg.le]
      rfl

lemma readSpans_within (hr : r.Asserts) (wrongType : TernError) :
    RespWithin req.mtu (FileSpansResp.packedSize r <$> readSpans r cache db wrongType req) ↔
      req.Fits r cache db := by
  by_cases hfile : req.fileId.IsFile
  · have hbudget : req.start.budget =
        (pickMtu req.mtu : ℤ) - shardRespMsgSize - FileSpansResp.staticSize := rfl
    rw [readSpans, ensure_of hfile, ok_bind]
    rcases fileSpansLoop_spec cache db req hr with
      ⟨hbad, e, he, hrun⟩ | ⟨hbad, resp, hrun, hnothing, hsize⟩
    · rw [hrun, error_bind]
      refine iff_of_false ?_ fun h => h.1 hfile hbad
      cases e with
      | refused t => exact absurd rfl (he t)
      | emptyVector | outOfRange | assertion => exact id
    · rw [hrun, ok_bind]
      obtain ⟨hthere, hmissing⟩ := checkFileExists_eq db hfile
      have hstatic : FileSpansResp.staticSize ≤ resp.packedSize r := by
        rw [FileSpansResp.packedSize]
        omega
      have hok : RespWithin req.mtu (.ok (resp.packedSize r)) ↔
          shardRespHeaderSize + FileSpansResp.staticSize ≤ pickMtu req.mtu := by
        have hmsg := shardRespMsgSize_eq
        rw [respWithin_ok]
        constructor <;> omega
      by_cases hrefused : req.Refused r db
      · have hno := hrefused.resolve_left (not_not.mpr hfile)
        rw [if_pos (hnothing.mpr hno.1), hmissing hno.2, error_bind]
        simp [respWithin_refused, FileSpansReq.Fits, hbad, hrefused]
      have hdone : (if resp.spans = [] then
          checkFileExists db req.fileId >>= fun _ => (pure resp : Read FileSpansResp)
          else pure resp) = .ok resp := by
        by_cases hnil : resp.spans = []
        · have hhas : db.HasFile req.fileId := by
            by_contra hnot
            exact hrefused (.inr ⟨hnothing.mp hnil, hnot⟩)
          rw [if_pos hnil, hthere hhas]
          rfl
        · rw [if_neg hnil]
          rfl
      rw [hdone]
      simp [hok, FileSpansReq.Fits, hbad, hrefused]
  · have hrefused : req.Refused r db := .inl hfile
    rw [readSpans, ensure_of_not hfile, error_bind]
    simp [respWithin_refused, FileSpansReq.Fits, hfile, hrefused]

end

lemma asserts_full : SpanReader.full.Asserts := by
  intro i t h
  cases h

lemma asserts_localTo (locationId : ℕ) : (SpanReader.localTo locationId).Asserts := by
  intro i t h
  simp only [SpanReader.localTo] at h
  split at h <;> cases h

/-! ## All requests -/

/-- The condition for each request: the smallest response that it can get fits into the message size
asked for.  A visit of inodes needs a budget for the id to go on from; for a listing of all edges
and for spans, see `FullReadDirReq.Fits` and `FileSpansReq.Fits`. -/
def PagedReq.Fits (cfg : ShardConfig) (cache : BlockServicesCache) (locationId : ℕ) (db : ShardDB) :
    PagedReq → Prop
  | .readDir req =>
    shardRespHeaderSize + (if (getDirectory db req.dirId false).isOk then ReadDirResp.staticSize
      else errorSize) ≤ pickMtu req.mtu
  | .fullReadDir req => req.Fits cfg db
  | .fileSpans req => req.Fits .full cache db
  | .localFileSpans req => req.Fits (.localTo locationId) cache db
  | .visitDirectories req => shardRespMsgSize + VisitInodesResp.staticSize < pickMtu req.mtu + 8
  | .visitFiles req => shardRespMsgSize + VisitInodesResp.staticSize < pickMtu req.mtu + 8
  | .visitTransientFiles req =>
    shardRespHeaderSize + VisitTransientFilesResp.staticSize ≤ pickMtu req.mtu

/-- Exactly when a read keeps to its budget. -/
theorem PagedReq.staysWithin_iff (cfg : ShardConfig) (cache : BlockServicesCache) (locationId : ℕ)
    (db : ShardDB) (req : PagedReq) :
    req.StaysWithin cfg cache locationId db ↔ req.Fits cfg cache locationId db := by
  cases req with
  | readDir req => exact (and_iff_left trivial).trans (readDir_within db req)
  | fullReadDir req => exact (and_iff_left trivial).trans (fullReadDirPage_within cfg db req)
  | fileSpans =>
    exact (and_iff_left trivial).trans (readSpans_within asserts_full .typeIsDirectory)
  | localFileSpans =>
    exact (and_iff_left trivial).trans
      (readSpans_within (asserts_localTo locationId) .blockIoErrorFile)
  | visitDirectories req => exact visitInodes_within db.directories req
  | visitFiles req => exact visitInodes_within db.files req
  | visitTransientFiles req =>
    exact (and_iff_left trivial).trans (visitTransientFiles_within cfg db req)

section

variable {cfg : ShardConfig} {cache : BlockServicesCache} {locationId : ℕ} {db : ShardDB}
  {req : PagedReq}

lemma PagedReq.not_staysWithin_of_fault
    (hfault : req.respSize cfg cache locationId db = .error .emptyVector) :
    ¬ req.StaysWithin cfg cache locationId db := by
  rintro ⟨h, -⟩
  rw [hfault] at h
  exact h

lemma PagedReq.not_staysWithin_of_size (size : ℕ)
    (hsize : req.respSize cfg cache locationId db = .ok size)
    (hlong : pickMtu req.mtu < shardRespHeaderSize + size) :
    ¬ req.StaysWithin cfg cache locationId db := by
  rintro ⟨h, -⟩
  rw [hsize, respWithin_ok] at h
  omega

end

/-- A root directory with six names of 255 bytes. -/
def sampleListing : ShardDB :=
  { initDb sampleConfig 0 with
    currentEdges :=
      ⟨[97, 98, 99, 100, 101, 102].map fun c =>
        (⟨.rootDir, c, List.replicate 255 c⟩, ⟨.of ⟨c⟩ false, c⟩), by decide +kernel⟩ }

/-- A message size of 39 makes `_visitFiles` take the last element of an empty vector, for any
database.  A listing with the default message size and a limit of six edges is larger than that:
the sixth edge is added without looking at the budget. -/
theorem not_staysWithin_small_mtu :
    ¬ (PagedReq.visitFiles ⟨.null, 39⟩).StaysWithin sampleConfig sampleCache 0 sampleListing ∧
    ¬ (PagedReq.fullReadDir ⟨.rootDir, false, true, false, [], 0, 6, 0⟩).StaysWithin sampleConfig
      sampleCache 0 sampleListing := by
  constructor
  · exact PagedReq.not_staysWithin_of_fault rfl
  · exact PagedReq.not_staysWithin_of_size 1698 (by decide +kernel) (by decide)

end TernFS
