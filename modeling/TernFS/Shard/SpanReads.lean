/-
# Reading the spans of a file

`_fileSpans` and `_localFileSpans` of `shard/ShardDB.cpp`: a page of the spans of a file, with the
block services that they refer to.  A block of the response names its service by the index in the
list of the page, and each service is listed, and paid for out of the budget, once.

The two handlers differ in what they list of a span (all locations, or the one of the shard), in
the layout of it, and in what they do with an index that does not fit into a byte; they share the
loop.  A span that does not fit is removed again and the page ends there; the services that it has
added stay, they are paid for.
-/
import TernFS.Shard.Listings
import TernFS.Shard.Spans

namespace TernFS

open Lib

/-- `BlockService`, an element of the response. -/
structure BlockService where
  id : ℕ
  addrs : Bytes
  flags : ℕ
deriving DecidableEq

/-- `BlockService::STATIC_SIZE`: two addresses with ports, the id and the flags. -/
def BlockService.staticSize : ℕ := (4 + 2 + (4 + 2)) + 8 + 1

/-- `FetchedBlock`. -/
structure FetchedBlock where
  blockServiceIx : ℕ
  blockId : ℕ
  crc : ℕ
deriving DecidableEq

/-- `FetchedBlocksSpan` or `FetchedBlockServices`: the blocks of a span at one location.  The first
leaves the location out and has the storage class in the header of the span. -/
structure FetchedBlocks where
  location : ℕ
  storageClass : ℕ
  parity : Parity
  stripes : ℕ
  cellSize : ℕ
  blocks : List FetchedBlock
  stripesCrc : List ℕ
deriving DecidableEq

/-- What a span of a response holds. -/
inductive FetchedStorage
  | inline (body : Bytes)
  | blocks (locations : List FetchedBlocks)
deriving DecidableEq

/-- `FetchedSpan` or `FetchedFullSpan`. -/
structure FetchedSpan where
  byteOffset : ℕ
  size : ℕ
  crc : ℕ
  storage : FetchedStorage
deriving DecidableEq

/-- What distinguishes the two handlers. -/
structure SpanReader where
  /-- The locations of a span that are listed. -/
  locations : SpanBody → List SpanBlocksBody
  /-- The bytes of one location besides its blocks and checksums. -/
  locationSize : ℕ
  /-- The bytes of the list of locations besides these. -/
  locationsSize : ℕ
  /-- The index of a block service as it is put into a block. -/
  index : ℕ → Read ℕ

/-- The packed size of the blocks at one location. -/
def FetchedBlocks.packedSize (r : SpanReader) (b : FetchedBlocks) : ℕ :=
  r.locationSize + (1 + 8 + 4) * b.blocks.length + 4 * b.stripesCrc.length

/-- The packed size of a span: offset, size, checksum and one byte for the kind of storage, then
the storage. -/
def FetchedSpan.packedSize (r : SpanReader) (s : FetchedSpan) : ℕ :=
  (8 + 4 + 4 + 1) + match s.storage with
    | .inline body => 1 + body.length
    | .blocks locations => r.locationsSize + (locations.map (FetchedBlocks.packedSize r)).sum

/-- `FileSpansReq` or `LocalFileSpansReq`. -/
structure FileSpansReq where
  fileId : InodeId
  byteOffset : ℕ
  limit : ℕ
  mtu : ℕ
deriving DecidableEq

/-- `FileSpansResp` or `LocalFileSpansResp`. -/
structure FileSpansResp where
  nextOffset : ℕ
  blockServices : List BlockService
  spans : List FetchedSpan
deriving DecidableEq

/-- The `STATIC_SIZE` of `FileSpansResp` and of `LocalFileSpansResp`. -/
def FileSpansResp.staticSize : ℕ := 8 + 2 + 2

/-- The packed size of a response. -/
def FileSpansResp.packedSize (r : SpanReader) (resp : FileSpansResp) : ℕ :=
  staticSize + BlockService.staticSize * resp.blockServices.length +
    (resp.spans.map (FetchedSpan.packedSize r)).sum

/-- The block services of a page and the budget that is left. -/
structure ServicePage where
  blockServices : List BlockService
  budget : ℤ
deriving DecidableEq

variable (r : SpanReader) (cache : BlockServicesCache)

/-- `addBlockService`: the index of a service in the list of the page, to which it is added if it
is not there.  There is no index if the budget does not allow for that. -/
def addBlockService (page : ServicePage) (blockServiceId : ℕ) : Read (Option ℕ × ServicePage) :=
  match page.blockServices.findIdx? fun service => service.id = blockServiceId with
  | some i => .ok (some i, page)
  | none =>
    let budget := page.budget - BlockService.staticSize
    if budget < 0 then .ok (none, { page with budget })
    else do
      let service ← orFail .outOfRange (cache blockServiceId)
      return (some page.blockServices.length,
        ⟨page.blockServices ++ [⟨blockServiceId, service.addrs, service.flags⟩], budget⟩)

/-- The loop over the blocks of a location.  Without an index the rest of the blocks stays as it was
allocated; the span is removed from the page then. -/
def fetchBlocks : List BlockBody → ServicePage → Read (List FetchedBlock × ServicePage)
  | [], page => .ok ([], page)
  | block :: rest, page => do
    let (ix, page) ← addBlockService cache page block.blockService
    match ix with
    | none => return ((block :: rest).map fun _ => ⟨0, 0, 0⟩, page)
    | some i =>
      let i ← r.index i
      let (blocks, page) ← fetchBlocks rest page
      return (⟨i, block.blockId, block.crc⟩ :: blocks, page)

/-- The loop over the locations of a span. -/
def fetchLocations : List SpanBlocksBody → ServicePage → Read (List FetchedBlocks × ServicePage)
  | [], page => .ok ([], page)
  | loc :: rest, page => do
    let (blocks, page) ← fetchBlocks r cache loc.blocks page
    let (locations, page) ← fetchLocations rest page
    return (⟨loc.location, loc.storageClass, loc.parity, loc.stripes, loc.cellSize, blocks,
      loc.stripesCrc⟩ :: locations, page)

/-- One span of the response. -/
def fetchSpan (offset : ℕ) (span : SpanBody) (page : ServicePage) :
    Read (FetchedSpan × ServicePage) :=
  match span.storage with
  | .inline body => .ok (⟨offset, span.spanSize, span.crc, .inline body⟩, page)
  | .blocks _ _ => do
    let (locations, page) ← fetchLocations r cache (r.locations span) page
    return (⟨offset, span.spanSize, span.crc, .blocks locations⟩, page)

/-- The loop over the spans of the file.  The first one can end before the offset asked for, if
that is behind the end of the file. -/
def fileSpansLoop (req : FileSpansReq) :
    List (SpanKey × SpanBody) → ServicePage → List FetchedSpan → Read FileSpansResp
  | [], page, spans => .ok ⟨0, page.blockServices, spans⟩
  | (key, span) :: rest, page, spans =>
    if req.limit ≠ 0 ∧ req.limit ≤ spans.length then .ok ⟨0, page.blockServices, spans⟩
    else if addU64 key.offset span.spanSize < req.byteOffset then
      .ok ⟨0, page.blockServices, spans⟩
    else do
      let (respSpan, page) ← fetchSpan r cache key.offset span page
      let budget := page.budget - respSpan.packedSize r
      if budget < 0 then return ⟨key.offset, page.blockServices, spans⟩
      else fileSpansLoop req rest { page with budget } (spans ++ [respSpan])

/-- The spans of the file that the iterator meets: from the last one that starts at the offset or
before it. -/
def ShardDB.spansFrom (db : ShardDB) (fileId : InodeId) (byteOffset : ℕ) :
    List (SpanKey × SpanBody) :=
  match db.spans.seekForPrev ⟨fileId, byteOffset⟩ with
  | none => []
  | some e => (db.spans.seek e.1).takeWhile fun e' => e'.1.fileId = fileId

/-- Whether the file is there, linked or transient: with no span to return, that is looked up. -/
def checkFileExists (db : ShardDB) (fileId : InodeId) : Read PUnit :=
  match getFile db fileId with
  | .ok _ => .ok ⟨⟩
  | .error e =>
    if e = .err .fileNotFound ∧ (getTransientFile db 0 true fileId).isOk then .ok ⟨⟩
    else Checked.toRead (.error e)

/-- The page before the first span. -/
def FileSpansReq.start (req : FileSpansReq) : ServicePage :=
  ⟨[], (pickMtu req.mtu : ℤ) - shardRespMsgSize - FileSpansResp.staticSize⟩

/-- The common part of `_fileSpans` and `_localFileSpans`. -/
def readSpans (db : ShardDB) (wrongType : TernError) (req : FileSpansReq) :
    Read FileSpansResp := do
  ensure req.fileId.IsFile (.refused wrongType)
  let resp ← fileSpansLoop r cache req (db.spansFrom req.fileId req.byteOffset) req.start []
  if resp.spans = [] then checkFileExists db req.fileId
  return resp

/-- What `_fileSpans` does: all locations are listed, and an index is cut to a byte. -/
def SpanReader.full : SpanReader where
  locations := SpanBody.locations
  locationSize := 1 + 1 + 1 + 1 + 4 + 2 + 2
  locationsSize := 2
  index i := .ok (i % 2 ^ 8)

/-- What `_localFileSpans` does: the location of the shard is listed, or else the first one, and
an index has to be a byte. -/
def SpanReader.localTo (locationId : ℕ) : SpanReader where
  locations span := ((span.locations.find? fun loc => loc.location = locationId).orElse
    fun _ => span.locations.head?).toList
  locationSize := 1 + 1 + 4 + 2 + 2
  locationsSize := 0
  index i := if i < 2 ^ 8 then .ok i else .error .assertion

/-- `_fileSpans`. -/
def fileSpans (db : ShardDB) (req : FileSpansReq) : Read FileSpansResp :=
  readSpans .full cache db .typeIsDirectory req

/-- `_localFileSpans`. -/
def localFileSpans (locationId : ℕ) (db : ShardDB) (req : FileSpansReq) : Read FileSpansResp :=
  readSpans (.localTo locationId) cache db .blockIoErrorFile req

end TernFS
