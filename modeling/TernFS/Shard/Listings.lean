/-
# Listings in pages

The read requests that answer with a page of a longer listing (`_readDir`, `_fullReadDir`,
`_visitTransientFiles`, `_visitInodes` in `shard/ShardDB.cpp`).  Each handler walks a column family
from the position that the request gives, adds elements to the response while they fit into what
the message size of the request leaves, and says where to go on.

The budgets are signed integers, as in the code, and the comparisons of a container's size with one
of them are comparisons of 64-bit words.  The accesses that have no defined result are failures of
their own: `back()` or `pop_back()` of an empty vector, and a lookup that throws.

The iterators have the bounds of one directory.  The directory ids next to it belong to other
shards, and stored ids have no bit 63, so that the assertion on the directory of each key found
holds.
-/
import TernFS.Shard.Edges

namespace TernFS

open Lib

/-! ## Messages -/

/-- `MIN_UDP_MTU`. -/
def minUdpMtu : ℕ := 548

/-- `DEFAULT_UDP_MTU`. -/
def defaultUdpMtu : ℕ := 1472

/-- `MAX_UDP_MTU`. -/
def maxUdpMtu : ℕ := 8972

/-- `pickMtu`. -/
def pickMtu (mtu : ℕ) : ℕ := min maxUdpMtu (if mtu = 0 then defaultUdpMtu else mtu)

/-- What comes before the body of a response: protocol version, request id and kind. -/
def shardRespHeaderSize : ℕ := 4 + 8 + 1

/-- The largest `STATIC_SIZE` of a response, that of `StatFileResp`. -/
def maxRespStaticSize : ℕ := 8 + 8 + 8

/-- `ShardRespMsg::STATIC_SIZE`, which has room for the largest response. -/
def shardRespMsgSize : ℕ := shardRespHeaderSize + maxRespStaticSize

/-- How a read can end without a response: with an error code, or in one of the ways that the code
does not provide for. -/
inductive ReadFault
  /-- An error code, which is sent as the response. -/
  | refused (e : TernError)
  /-- `back()` or `pop_back()` of an empty vector. -/
  | emptyVector
  /-- `at()` of a key that is not in the map. -/
  | outOfRange
  /-- A failed `ALWAYS_ASSERT`. -/
  | assertion
deriving DecidableEq

/-- The result of a read. -/
abbrev Read (α : Type) := Except ReadFault α

/-- A lookup of the write path, used by a read. -/
def Checked.toRead {α : Type} : Checked α → Read α
  | .ok a => .ok a
  | .error (.err e) => .error (.refused e)
  | .error .crash => .error .assertion

/-- A signed integer that is compared with the size of a container. -/
def toU64 (x : ℤ) : ℕ := (x % 2 ^ 64).toNat

/-! ## Current edges of a directory -/

/-- `CurrentEdge`, an element of a `ReadDirResp`. -/
structure CurrentEdge where
  targetId : InodeId
  nameHash : ℕ
  name : Bytes
  creationTime : ℕ
deriving DecidableEq

/-- `CurrentEdge::packedSize`. -/
def CurrentEdge.packedSize (e : CurrentEdge) : ℕ := 8 + 8 + (1 + e.name.length) + 8

/-- `ReadDirReq`. -/
structure ReadDirReq where
  dirId : InodeId
  startHash : ℕ
  mtu : ℕ
deriving DecidableEq

/-- `ReadDirResp`. -/
structure ReadDirResp where
  nextHash : ℕ
  results : List CurrentEdge
deriving DecidableEq

/-- `ReadDirResp::STATIC_SIZE`. -/
def ReadDirResp.staticSize : ℕ := 8 + 2

/-- `ReadDirResp::packedSize`. -/
def ReadDirResp.packedSize (resp : ReadDirResp) : ℕ :=
  staticSize + (resp.results.map CurrentEdge.packedSize).sum

/-- The current edges of a directory from a key on, in key order: what an iterator placed at the
key meets up to its upper bound. -/
def ShardDB.currentEdgesFrom (db : ShardDB) (start : EdgeName) : List CurrentEdge :=
  ((db.currentEdges.seek start).filter fun e => e.1.dirId = start.dirId).map fun e =>
    ⟨e.2.targetId, e.1.nameHash, e.1.name, e.2.creationTime⟩

/-- The loop of `_readDir`.  The element that does not fit is removed, and with it all those that
have its hash. -/
def readDirLoop : List CurrentEdge → ℤ → List CurrentEdge → ReadDirResp
  | [], _, results => ⟨0, results⟩
  | edge :: rest, budget, results =>
    if budget - edge.packedSize < 0 then
      ⟨edge.nameHash, (results.reverse.dropWhile fun last => last.nameHash = edge.nameHash).reverse⟩
    else readDirLoop rest (budget - edge.packedSize) (results ++ [edge])

/-- `_readDir`. -/
def readDir (db : ShardDB) (req : ReadDirReq) : Read ReadDirResp := do
  let _ ← (getDirectory db req.dirId false).toRead
  let budget : ℤ := pickMtu req.mtu - shardRespMsgSize - ReadDirResp.staticSize
  return readDirLoop (db.currentEdgesFrom ⟨req.dirId.masked, req.startHash, []⟩) budget []

/-! ## Inodes -/

/-- The request of `_visitInodes`: `VisitDirectoriesReq` or `VisitFilesReq`. -/
structure VisitInodesReq where
  beginId : InodeId
  mtu : ℕ
deriving DecidableEq

/-- The response of `_visitInodes`. -/
structure VisitInodesResp where
  nextId : InodeId
  ids : List InodeId
deriving DecidableEq

/-- The `STATIC_SIZE` of `VisitDirectoriesResp` and of `VisitFilesResp`. -/
def VisitInodesResp.staticSize : ℕ := 8 + 2

/-- The packed size of the response. -/
def VisitInodesResp.packedSize (resp : VisitInodesResp) : ℕ := staticSize + 8 * resp.ids.length

/-- The number of ids that `_visitInodes` reads, with the one to go on from.  The division rounds
towards zero. -/
def visitMaxIds (mtu : ℕ) : ℤ :=
  ((pickMtu mtu : ℤ) - shardRespMsgSize - VisitInodesResp.staticSize).tdiv 8 + 1

/-- `_visitInodes`, for the ids of a column family. -/
def visitInodes {V : Type} (cf : SortedStore InodeId V) (req : VisitInodesReq) :
    Read VisitInodesResp :=
  let maxIds := toU64 (visitMaxIds req.mtu)
  let ids := ((cf.seek req.beginId).map Prod.fst).take maxIds
  if ids.length = maxIds then
    match ids.getLast? with
    | none => .error .emptyVector
    | some nextId => .ok ⟨nextId, ids.dropLast⟩
  else .ok ⟨.null, ids⟩

/-- `_visitDirectories`. -/
def visitDirectories (db : ShardDB) (req : VisitInodesReq) : Read VisitInodesResp :=
  visitInodes db.directories req

/-- `_visitFiles`. -/
def visitFiles (db : ShardDB) (req : VisitInodesReq) : Read VisitInodesResp :=
  visitInodes db.files req

/-! ## Transient files -/

/-- `TransientFile`, an element of a `VisitTransientFilesResp`. -/
structure TransientFile where
  id : InodeId
  cookie : Bytes
  deadlineTime : ℕ
deriving DecidableEq

/-- `TransientFile::packedSize`; the cookie has eight bytes. -/
def TransientFile.packedSize (_ : TransientFile) : ℕ := 8 + 8 + 8

/-- `VisitTransientFilesResp`. -/
structure VisitTransientFilesResp where
  nextId : InodeId
  files : List TransientFile
deriving DecidableEq

/-- `VisitTransientFilesResp::STATIC_SIZE`. -/
def VisitTransientFilesResp.staticSize : ℕ := 8 + 2

/-- `VisitTransientFilesResp::packedSize`. -/
def VisitTransientFilesResp.packedSize (resp : VisitTransientFilesResp) : ℕ :=
  staticSize + (resp.files.map TransientFile.packedSize).sum

/-- The loop of `_visitTransientFiles`; the budget is not used up to the last byte. -/
def visitTransientFilesLoop : List TransientFile → ℤ → List TransientFile → VisitTransientFilesResp
  | [], _, files => ⟨.null, files⟩
  | file :: rest, budget, files =>
    if budget - file.packedSize ≤ 0 then ⟨file.id, files⟩
    else visitTransientFilesLoop rest (budget - file.packedSize) (files ++ [file])

/-- `_visitTransientFiles`. -/
def visitTransientFiles (cfg : ShardConfig) (db : ShardDB) (req : VisitInodesReq) :
    Read VisitTransientFilesResp :=
  let budget : ℤ := pickMtu req.mtu - shardRespMsgSize - VisitTransientFilesResp.staticSize
  let files := (db.transientFiles.seek req.beginId).map fun e =>
    (⟨e.1, cfg.calcCookie e.1, e.2.deadline⟩ : TransientFile)
  .ok (visitTransientFilesLoop files budget [])

/-! ## All edges of a directory -/

/-- The part of an `EdgeKey` after the directory: whether the edge is current, the name with its
hash, and the creation time of a snapshot edge (0 for a current edge, whose key has none). -/
structure EdgeKey where
  current : Bool
  nameHash : ℕ
  name : Bytes
  creationTime : ℕ
deriving DecidableEq

/-- Keys are compared bytewise: snapshot edges come first, then the hash decides, then the length
of the name, which stands before the name. -/
instance : LinearOrder EdgeKey :=
  LinearOrder.lift'
    (fun k => toLex (k.current, toLex (k.nameHash, toLex (k.name.length, toLex (k.name,
      k.creationTime)))))
    fun a b h => by
      cases a
      cases b
      simp_all

/-- `Edge`, an element of a `FullReadDirResp`. -/
structure Edge where
  current : Bool
  targetId : InodeIdExtra
  nameHash : ℕ
  name : Bytes
  creationTime : ℕ
deriving DecidableEq

/-- `Edge::packedSize`. -/
def Edge.packedSize (e : Edge) : ℕ := 1 + 8 + 8 + (1 + e.name.length) + 8

/-- The key that an edge of a response has in the database. -/
def Edge.key (e : Edge) : EdgeKey :=
  ⟨e.current, e.nameHash, e.name, if e.current then 0 else e.creationTime⟩

/-- A snapshot edge, as `_fullReadDirAdd` fills it in. -/
def Edge.ofSnapshot (e : SnapshotEdgeKey × SnapshotEdgeBody) : Edge :=
  ⟨false, e.2.targetIdWithOwned, e.1.edge.nameHash, e.1.edge.name, e.1.creationTime⟩

/-- A current edge, as `_fullReadDirAdd` fills it in. -/
def Edge.ofCurrent (e : EdgeName × CurrentEdgeBody) : Edge :=
  ⟨true, e.2.targetIdWithLocked, e.1.nameHash, e.1.name, e.2.creationTime⟩

/-- The edges of a directory in key order: the snapshot edges, then the current ones. -/
def ShardDB.edges (db : ShardDB) (dirId : InodeId) : List Edge :=
  ((db.snapshotEdges.entries.filter fun e => e.1.edge.dirId = dirId.masked).map Edge.ofSnapshot) ++
    ((db.currentEdges.entries.filter fun e => e.1.dirId = dirId.masked).map Edge.ofCurrent)

/-- `FullReadDirCursor`. -/
structure FullReadDirCursor where
  current : Bool
  startName : Bytes
  startTime : ℕ
deriving DecidableEq

namespace FullReadDirCursor

/-- `FullReadDirCursor::clear`: the cursor that ends a listing. -/
def empty : FullReadDirCursor := ⟨false, [], 0⟩

/-- `FullReadDirCursor::STATIC_SIZE`. -/
def staticSize : ℕ := 1 + 1 + 8

/-- `FullReadDirCursor::packedSize`. -/
def packedSize (c : FullReadDirCursor) : ℕ := 1 + (1 + c.startName.length) + 8

/-- The cursor at an edge. -/
def atEdge (e : Edge) : FullReadDirCursor :=
  ⟨e.current, e.name, if e.current then 0 else e.creationTime⟩

end FullReadDirCursor

/-- `FullReadDirReq`, with the flags one by one. -/
structure FullReadDirReq where
  dirId : InodeId
  sameName : Bool
  current : Bool
  backwards : Bool
  startName : Bytes
  startTime : ℕ
  limit : ℕ
  mtu : ℕ
deriving DecidableEq

/-- `FullReadDirResp`. -/
structure FullReadDirResp where
  next : FullReadDirCursor
  results : List Edge
deriving DecidableEq

/-- `FullReadDirResp::STATIC_SIZE`. -/
def FullReadDirResp.staticSize : ℕ := FullReadDirCursor.staticSize + 2

/-- `FullReadDirResp::packedSize`. -/
def FullReadDirResp.packedSize (resp : FullReadDirResp) : ℕ :=
  resp.next.packedSize + (2 + (resp.results.map Edge.packedSize).sum)

/-- What `_fullReadDirAdd` works on: the response and the budget that is left. -/
structure EdgePage where
  next : FullReadDirCursor
  results : List Edge
  budget : ℤ
deriving DecidableEq

/-- The page before the first edge. -/
def FullReadDirReq.start (req : FullReadDirReq) : EdgePage :=
  ⟨.empty, [], (pickMtu req.mtu : ℤ) - shardRespMsgSize - FullReadDirResp.staticSize⟩

/-- The inner loop of `_fullReadDirAdd`: remove the last edge and put the cursor there, until the
budget is not negative.  The edges are given in reverse. -/
def removeLast : List Edge → ℤ → ℕ → Read EdgePage
  | [], _, _ => .error .emptyVector
  | last :: rest, budget, prevCursorSize =>
    let next := FullReadDirCursor.atEdge last
    let budget := budget + last.packedSize + prevCursorSize - next.packedSize
    if budget < 0 then removeLast rest budget next.packedSize
    else .ok ⟨next, rest.reverse, budget⟩

/-- `_fullReadDirAdd`, with whether the page is done.  The limit is looked at before the budget. -/
def fullReadDirAdd (limit : ℕ) (page : EdgePage) (edge : Edge) : Read (Bool × EdgePage) :=
  let results := page.results ++ [edge]
  if 0 < limit ∧ limit ≤ results.length then .ok (true, { page with next := .empty, results })
  else
    let budget := page.budget - edge.packedSize
    if budget < 0 then do
      let page ← removeLast results.reverse budget FullReadDirCursor.staticSize
      return (true, page)
    else .ok (false, { page with results, budget })

/-- Add the edges that an iterator meets until the page is done. -/
def fullReadDirAddAll (limit : ℕ) : List Edge → EdgePage → Read (Bool × EdgePage)
  | [], page => .ok (false, page)
  | edge :: rest, page => do
    let (done, page) ← fullReadDirAdd limit page edge
    if done then return (true, page) else fullReadDirAddAll limit rest page

/-- The response of a page. -/
def EdgePage.resp (page : EdgePage) : FullReadDirResp := ⟨page.next, page.results⟩

variable (cfg : ShardConfig) (db : ShardDB)

/-- The position that `_fullReadDirNormal` starts from. -/
def FullReadDirReq.startKey (req : FullReadDirReq) : EdgeKey :=
  ⟨req.current, if req.startName = [] then (if req.backwards then 2 ^ 64 - 1 else 0)
    else cfg.computeNameHash req.startName,
    req.startName, if req.current then 0 else req.startTime⟩

/-- The edges that `_fullReadDirNormal` walks over: those from the start on, or those from the start
back. -/
def FullReadDirReq.walk (req : FullReadDirReq) : List Edge :=
  if req.backwards then
    ((db.edges req.dirId).filter fun e => e.key ≤ req.startKey cfg).reverse
  else (db.edges req.dirId).filter fun e => req.startKey cfg ≤ e.key

/-- `_fullReadDirNormal`. -/
def fullReadDirNormal (req : FullReadDirReq) : Read FullReadDirResp := do
  let (_, page) ← fullReadDirAddAll req.limit (req.walk cfg db) req.start
  return page.resp

/-- The edge that `lookupCurrent` finds in `_fullReadDirSameName`. -/
def FullReadDirReq.currentEdge (req : FullReadDirReq) : Option Edge :=
  (db.currentEdges.get (cfg.edgeName req.dirId req.startName)).map fun body =>
    Edge.ofCurrent (cfg.edgeName req.dirId req.startName, body)

/-- The snapshot edges that `_fullReadDirSameName` walks over: within the bounds of the hash, from
the start time on or back, up to the first one with another name. -/
def FullReadDirReq.snapshotEdges (req : FullReadDirReq) : List Edge :=
  let nameHash := cfg.computeNameHash req.startName
  let key (time : ℕ) : EdgeKey := ⟨false, nameHash, req.startName, time⟩
  let within :=
    if req.backwards then
      ((db.edges req.dirId).filter fun e => ⟨false, nameHash, [], 0⟩ ≤ e.key ∧
        e.key ≤ key (if req.startTime = 0 then 2 ^ 64 - 1 else req.startTime)).reverse
    else
      (db.edges req.dirId).filter fun e => key req.startTime ≤ e.key ∧
        e.key < ⟨false, addU64 nameHash 1, [], 0⟩
  within.takeWhile fun e => SameBytes e.name req.startName

/-- Add the current edge, if there is one. -/
def fullReadDirLookupCurrent (req : FullReadDirReq) (page : EdgePage) : Read (Bool × EdgePage) :=
  match req.currentEdge cfg db with
  | none => .ok (false, page)
  | some edge => fullReadDirAdd req.limit page edge

/-- `_fullReadDirSameName`.  Going forwards from a snapshot edge, the current edge is looked up at
the end even if the page is done. -/
def fullReadDirSameName (req : FullReadDirReq) : Read FullReadDirResp := do
  let (done, page) ←
    if req.current then fullReadDirLookupCurrent cfg db req req.start else .ok (false, req.start)
  if done ∨ (req.current ∧ ¬ req.backwards) then return page.resp
  let (_, page) ← fullReadDirAddAll req.limit (req.snapshotEdges cfg db) page
  if req.backwards then return page.resp
  let (_, page) ← fullReadDirLookupCurrent cfg db req page
  return page.resp

/-- `_fullReadDir`.  (`fullReadDir` is the special case that the coordinator asks for.) -/
def fullReadDirPage (req : FullReadDirReq) : Read FullReadDirResp := do
  ensure (¬ (req.sameName ∧ req.startName = [] ∨ req.current ∧ req.startTime ≠ 0))
    (.refused .malformedRequest)
  let _ ← (getDirectory db req.dirId true).toRead
  if req.sameName then fullReadDirSameName cfg db req else fullReadDirNormal cfg db req

end TernFS
