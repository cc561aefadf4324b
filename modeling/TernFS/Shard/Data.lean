/-
# The records of a shard

The column families of a shard's database and the records in them (`shard/ShardDBData.hpp`).
Each record carries the conditions its accessors assert, so that a record that would not
decode cannot be built.

Current and snapshot edges share a column family in the code and are told apart by one bit of
the key, next to the directory id; here they are two stores, one for each value of that bit.
Span records of the old format (version 0) are never written by a fresh shard and are left
out.
-/
import TernFS.Core.Msgs
import TernFS.Lib.SortedStore
import Mathlib.Algebra.GroupWithZero.Nat
import Mathlib.Data.Prod.Lex
import Mathlib.Data.List.Lex
import Mathlib.Data.Bool.Basic

namespace TernFS

open Lib

/-! ## Files and spans -/

/-- `SpanState`: the state of the last span of a transient file. -/
inductive SpanState
  | clean | dirty | condemned
deriving DecidableEq, Repr

/-- `TransientFileBody`. -/
structure TransientFileBody where
  fileSize : ℕ
  mtime : ℕ
  deadline : ℕ
  lastSpanState : SpanState
  note : Bytes
deriving DecidableEq, Repr

/-- `FileBody`. -/
structure FileBody where
  fileSize : ℕ
  mtime : ℕ
  atime : ℕ
deriving DecidableEq, Repr

/-- `SpanKey`: spans are ordered by file, and by offset within a file. -/
structure SpanKey where
  fileId : InodeId
  offset : ℕ
deriving DecidableEq, Repr

instance : LinearOrder SpanKey :=
  LinearOrder.lift' (fun k => toLex (k.fileId, k.offset)) fun a b h => by
    cases a
    cases b
    simpa using h

lemma SpanKey.le_def {a b : SpanKey} :
    a ≤ b ↔ a.fileId < b.fileId ∨ a.fileId = b.fileId ∧ a.offset ≤ b.offset :=
  Prod.Lex.toLex_le_toLex (x := (a.fileId, a.offset)) (y := (b.fileId, b.offset))

lemma SpanKey.lt_def {a b : SpanKey} :
    a < b ↔ a.fileId < b.fileId ∨ a.fileId = b.fileId ∧ a.offset < b.offset :=
  Prod.Lex.toLex_lt_toLex (x := (a.fileId, a.offset)) (y := (b.fileId, b.offset))

/-- `BlockBody`. -/
structure BlockBody where
  blockService : ℕ
  blockId : ℕ
  crc : ℕ
deriving DecidableEq, Repr

/-- `SpanBlocksBody`: the blocks of a span at one location. -/
structure SpanBlocksBody where
  location : ℕ
  storageClass : ℕ
  parity : Parity
  stripes : ℕ
  cellSize : ℕ
  blocks : List BlockBody
  stripesCrc : List ℕ
  /-- One record for each data and parity block. -/
  blocks_length : blocks.length = parity.blocks
  /-- One checksum for each stripe. -/
  stripesCrc_length : stripesCrc.length = stripes
  /-- The assertions of `LocationBlocksInfo` and `SpanBody::checkSize`. -/
  allocated : (0 < stripes ∧ stripes < 16) ∧ 0 < parity.dataBlocks ∧
    storageClass ≠ emptyStorage ∧ storageClass ≠ inlineStorage
deriving DecidableEq

namespace SpanBlocksBody

/-- Allocate the record for the given blocks, if the assertions of the record hold. -/
def alloc (location storageClass : ℕ) (parity : Parity) (stripes cellSize : ℕ)
    (blocks : List BlockBody) (stripesCrc : List ℕ) : Option SpanBlocksBody :=
  if h : blocks.length = parity.blocks ∧ stripesCrc.length = stripes ∧
      (0 < stripes ∧ stripes < 16) ∧ 0 < parity.dataBlocks ∧
        storageClass ≠ emptyStorage ∧ storageClass ≠ inlineStorage then
    some ⟨location, storageClass, parity, stripes, cellSize, blocks, stripesCrc, h.1, h.2.1, h.2.2⟩
  else none

/-- `SpanBlocksBody::size`: the length of the record in bytes. -/
def size (b : SpanBlocksBody) : ℕ := 8 + 20 * b.parity.blocks + 4 * b.stripes

/-- Overwrite one block record in place. -/
def setBlock (b : SpanBlocksBody) (ix : ℕ) (block : BlockBody) : SpanBlocksBody :=
  { b with
    blocks := b.blocks.set ix block
    blocks_length := by rw [List.length_set]; exact b.blocks_length }

end SpanBlocksBody

/-- What a span holds: the bytes themselves, or blocks at one or more locations. -/
inductive SpanStorage
  | inline (body : Bytes)
  | blocks (first : SpanBlocksBody) (rest : List SpanBlocksBody)
deriving DecidableEq

/-- `SpanBody`. -/
structure SpanBody where
  spanSize : ℕ
  crc : ℕ
  storage : SpanStorage
deriving DecidableEq

namespace SpanBody

/-- `SpanBody::isInlineStorage`. -/
def IsInlineStorage (s : SpanBody) : Prop :=
  match s.storage with
  | .inline _ => True
  | .blocks _ _ => False

instance (s : SpanBody) : Decidable s.IsInlineStorage :=
  match s with
  | ⟨_, _, .inline _⟩ => isTrue trivial
  | ⟨_, _, .blocks _ _⟩ => isFalse id

/-- The locations of the span, none for an inline span. -/
def locations (s : SpanBody) : List SpanBlocksBody :=
  match s.storage with
  | .inline _ => []
  | .blocks first rest => first :: rest

/-- `SpanBody::size`: the length of the record in bytes, not that of the data. -/
def size (s : SpanBody) : ℕ :=
  match s.storage with
  | .inline body => 10 + 1 + body.length
  | .blocks first rest => 10 + ((first :: rest).map SpanBlocksBody.size).sum

/-- `SpanBody::findBlocksLocIdx`: the first location whose block ids are the given ones. -/
def findBlocksLocIdx (s : SpanBody) (blockIds : List ℕ) : Option ℕ :=
  s.locations.findIdx? fun loc => loc.blocks.map BlockBody.blockId = blockIds

/-- The blocks of the span, over all its locations. -/
def blocks (s : SpanBody) : List BlockBody := s.locations.flatMap SpanBlocksBody.blocks

lemma blocks_of_isInlineStorage (s : SpanBody) (h : s.IsInlineStorage) : s.blocks = [] := by
  obtain ⟨size, crc, storage⟩ := s
  cases storage with
  | inline => rfl
  | blocks => cases h

/-- The number of blocks of the span on a block service, over all its locations. -/
def blockCount (s : SpanBody) (blockService : ℕ) : ℕ :=
  s.blocks.countP fun block => block.blockService = blockService

end SpanBody

/-! ## Directories and edges -/

/-- `DirectoryInfoEntry`. -/
structure DirectoryInfoEntry where
  tag : ℕ
  body : Bytes
deriving DecidableEq, Repr

/-- `DirectoryInfo`: policies, by tag. -/
abbrev DirectoryInfo := List DirectoryInfoEntry

/-- `DirectoryBody`.  A directory without an owner is a snapshot directory (the root apart). -/
structure DirectoryBody where
  ownerId : InodeId
  mtime : ℕ
  info : DirectoryInfo
deriving DecidableEq, Repr

/-- What identifies a name in a directory, and the key of its current edge.  The directory id
is kept without bit 63.  Names with one hash are ordered by length first, since the key holds
the length before the name. -/
structure EdgeName where
  dirId : InodeId
  nameHash : ℕ
  name : Bytes
deriving DecidableEq, Repr

instance : LinearOrder EdgeName :=
  LinearOrder.lift' (fun k => toLex (k.dirId, toLex (k.nameHash, toLex (k.name.length, k.name))))
    fun a b h => by
      cases a
      cases b
      simp_all

/-- The key of a snapshot edge: snapshot edges of one name are ordered by creation time. -/
structure SnapshotEdgeKey where
  edge : EdgeName
  creationTime : ℕ
deriving DecidableEq, Repr

instance : LinearOrder SnapshotEdgeKey :=
  LinearOrder.lift' (fun k => toLex (k.edge, k.creationTime)) fun a b h => by
    cases a
    cases b
    simpa using h

/-- `SnapshotEdgeBody`: the target, and whether the edge owns it.  A deletion edge has the
null target. -/
structure SnapshotEdgeBody where
  targetIdWithOwned : InodeIdExtra
deriving DecidableEq, Repr

/-- `CurrentEdgeBody`: the target, whether the edge is locked, and when it was created. -/
structure CurrentEdgeBody where
  targetIdWithLocked : InodeIdExtra
  creationTime : ℕ
deriving DecidableEq, Repr

/-- `CurrentEdgeBody::targetId`. -/
def CurrentEdgeBody.targetId (e : CurrentEdgeBody) : InodeId := e.targetIdWithLocked.id

lemma CurrentEdgeBody.targetId_lt (e : CurrentEdgeBody) : e.targetId.u64 < 2 ^ 63 :=
  e.targetIdWithLocked.id_lt

/-- `CurrentEdgeBody::locked`. -/
def CurrentEdgeBody.locked (e : CurrentEdgeBody) : Bool := e.targetIdWithLocked.extra

/-! ## The database -/

/-- `BlockServiceToFileKey`. -/
structure BlockServiceToFileKey where
  blockService : ℕ
  fileId : InodeId
deriving DecidableEq, Repr

instance : LinearOrder BlockServiceToFileKey :=
  LinearOrder.lift' (fun k => toLex (k.blockService, k.fileId)) fun a b h => by
    cases a
    cases b
    simpa using h

/-- The database of a shard. -/
structure ShardDB where
  files : SortedStore InodeId FileBody
  transientFiles : SortedStore InodeId TransientFileBody
  spans : SortedStore SpanKey SpanBody
  directories : SortedStore InodeId DirectoryBody
  currentEdges : SortedStore EdgeName CurrentEdgeBody
  snapshotEdges : SortedStore SnapshotEdgeKey SnapshotEdgeBody
  blockServicesToFiles : SortedStore BlockServiceToFileKey ℤ
  nextFileId : InodeId
  nextSymlinkId : InodeId
  nextBlockId : ℕ
  lastAppliedLogEntry : ℕ
  lastAppliedEntryTime : ℕ
deriving DecidableEq

end TernFS
