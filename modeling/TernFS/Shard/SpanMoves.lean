/-
# Spans: moving blocks between files

The log entries that move blocks, locations or whole spans from one file to another: defragmentation
and evacuation swap blocks and spans, replication merges a location into a span, and a span that
could not be written is moved to a scratch file.  The state of a span is not stored with the span:
it is that of its file if the span is the last one, and clean otherwise.
-/
import TernFS.Shard.Spans

namespace TernFS

open Lib

/-- `_fetchSpanState`: the state of the span of `fileId` that ends at `spanEnd`. -/
def fetchSpanState (db : ShardDB) (fileId : InodeId) (spanEnd : ℕ) : Checked SpanState := do
  assert fileId.IsFile
  match db.files.get fileId with
  | some _ => return .clean
  | none =>
    -- not a normal file, so it must be transient
    let file ← orFail .crash (db.transientFiles.get fileId)
    return if spanEnd = file.fileSize then file.lastSpanState else .clean

/-! ## Swapping blocks -/

/-- A block of a span, and where it is. -/
structure FoundBlock where
  locIdx : ℕ
  loc : SpanBlocksBody
  blockIdx : ℕ
  block : BlockBody

/-- `findBlock`, over the locations of a span. -/
def findBlockIn (blockId : ℕ) : List SpanBlocksBody → Option FoundBlock
  | [] => none
  | loc :: locs =>
    match loc.blocks.findIdx? fun block => block.blockId = blockId with
    | some blockIdx => loc.blocks[blockIdx]?.map fun block => ⟨0, loc, blockIdx, block⟩
    | none => (findBlockIn blockId locs).map fun f => { f with locIdx := f.locIdx + 1 }

/-- Overwrite one block record of a span in place. -/
def SpanBody.setBlock (s : SpanBody) (locIdx blockIdx : ℕ) (block : BlockBody) : SpanBody :=
  { s with
    storage :=
      match s.storage, locIdx with
      | .inline body, _ => .inline body
      | .blocks first rest, 0 => .blocks (first.setBlock blockIdx block) rest
      | .blocks first rest, l + 1 => .blocks first (rest.modify l (·.setBlock blockIdx block)) }

/-- `checkNoDuplicateBlockServicesOrFailureDomains`: the blocks of a location, the one to be
replaced apart, are on other block services and failure domains than the new block. -/
def checkNoDuplicates (cache : BlockServicesCache) (blocks : List BlockBody) (replacedIx : ℕ)
    (newBlock : BlockBody) : Checked PUnit := do
  let newService ← orFail .crash (cache newBlock.blockService)
  (blocks.eraseIdx replacedIx).forM fun block => do
    check (block.blockService ≠ newBlock.blockService) .swapBlocksDuplicateBlockService
    let service ← orFail .crash (cache block.blockService)
    check (newService.failureDomain ≠ service.failureDomain) .swapBlocksDuplicateFailureDomain

/-- `_applySwapBlocks`. -/
def applySwapBlocks (cache : BlockServicesCache) (db : ShardDB) (entry : SwapBlocksReq) :
    Checked (ShardDB × ShardResp) := do
  let key1 : SpanKey := ⟨entry.fileId1, entry.byteOffset1⟩
  let key2 : SpanKey := ⟨entry.fileId2, entry.byteOffset2⟩
  let span1 ← orFail (.err .spanNotFound) (db.spans.get key1)
  let span2 ← orFail (.err .spanNotFound) (db.spans.get key2)
  check (¬ span1.IsInlineStorage ∧ ¬ span2.IsInlineStorage) .swapBlocksInlineStorage
  -- the end of a span is computed from the length of its record, not from its size
  let state1 ← fetchSpanState db entry.fileId1 (addU64 entry.byteOffset1 span1.size)
  let state2 ← fetchSpanState db entry.fileId2 (addU64 entry.byteOffset2 span2.size)
  check (state1 = state2) .swapBlocksMismatchingState
  match findBlockIn entry.blockId1 span1.locations, findBlockIn entry.blockId2 span2.locations with
  | some found1, some found2 =>
    check (found1.loc.blockSize = found2.loc.blockSize) .swapBlocksMismatchingSize
    check (found1.block.crc = found2.block.crc) .swapBlocksMismatchingCrc
    check (found1.loc.location = found2.loc.location) .swapBlocksMismatchingLocation
    checkNoDuplicates cache found1.loc.blocks found1.blockIdx found2.block
    checkNoDuplicates cache found2.loc.blocks found2.blockIdx found1.block
    let service1 := found1.block.blockService
    let service2 := found2.block.blockService
    let batch := addBlockServicesToFiles db service1 entry.fileId1 (-1)
    let batch := addBlockServicesToFiles batch service2 entry.fileId1 1
    let batch := addBlockServicesToFiles batch service1 entry.fileId2 1
    let batch := addBlockServicesToFiles batch service2 entry.fileId2 (-1)
    let span1' := span1.setBlock found1.locIdx found1.blockIdx found2.block
    let span2' := span2.setBlock found2.locIdx found2.blockIdx found1.block
    return ({ batch with spans := (batch.spans.put key1 span1').put key2 span2' }, .done)
  | none, none =>
    -- swapped already
    check ((findBlockIn entry.blockId2 span1.locations).isSome ∧
      (findBlockIn entry.blockId1 span2.locations).isSome) .blockNotFound
    return (db, .done)
  | _, _ => .error (.err .blockNotFound)

/-! ## Swapping spans -/

/-- The inner loop of `blocksMatch`: it runs over the given ids, and reading a block that the
location does not have is an assertion failure. -/
def blocksMatchIn : List BlockBody → List ℕ → Checked Bool
  | _, [] => return true
  | [], _ :: _ => .error .crash
  | block :: blocks, id :: ids =>
    if block.blockId = id then blocksMatchIn blocks ids else return false

/-- `blocksMatch`, from a location on; `blockIdx` ids have been compared. -/
def blocksMatchFrom (ids : List ℕ) : ℕ → List SpanBlocksBody → Checked Bool
  | _, [] => return true
  | blockIdx, loc :: locs => do
    if ids.length < blockIdx + loc.parity.blocks then return false
    else if ← blocksMatchIn loc.blocks (ids.drop blockIdx) then
      blocksMatchFrom ids (blockIdx + ids.length) locs
    else return false

/-- `blocksMatch`. -/
def blocksMatch (span : SpanBody) (ids : List ℕ) : Checked Bool :=
  blocksMatchFrom ids 0 span.locations

/-- Both spans match their lists of ids; the second is not looked at if the first does not. -/
def bothMatch (span1 : SpanBody) (ids1 : List ℕ) (span2 : SpanBody) (ids2 : List ℕ) :
    Checked Bool := do
  if ← blocksMatch span1 ids1 then blocksMatch span2 ids2 else return false

/-- `_applySwapSpans`. -/
def applySwapSpans (db : ShardDB) (entry : SwapSpansReq) : Checked (ShardDB × ShardResp) := do
  let key1 : SpanKey := ⟨entry.fileId1, entry.byteOffset1⟩
  let key2 : SpanKey := ⟨entry.fileId2, entry.byteOffset2⟩
  let span1 ← orFail (.err .spanNotFound) (db.spans.get key1)
  let span2 ← orFail (.err .spanNotFound) (db.spans.get key2)
  check (¬ span1.IsInlineStorage ∧ ¬ span2.IsInlineStorage) .swapSpansInlineStorage
  check (span1.spanSize = span2.spanSize) .swapSpansMismatchingSize
  check (span1.crc = span2.crc) .swapSpansMismatchingCrc
  let state1 ← fetchSpanState db entry.fileId1 (addU64 entry.byteOffset1 span1.size)
  let state2 ← fetchSpanState db entry.fileId2 (addU64 entry.byteOffset2 span2.size)
  check (state1 = .clean ∧ state2 = .clean) .swapSpansNotClean
  let swapped ← bothMatch span1 entry.blocks2 span2 entry.blocks1
  if swapped then return (db, .done)
  else
    let expected ← bothMatch span1 entry.blocks1 span2 entry.blocks2
    check (expected = true) .swapSpansMismatchingBlocks
    let batch := moveBlocksToFile db span1.blocks entry.fileId2 entry.fileId1
    let batch := moveBlocksToFile batch span2.blocks entry.fileId1 entry.fileId2
    return ({ batch with spans := (batch.spans.put key1 span2).put key2 span1 }, .done)

/-! ## Moving spans and locations -/

/-- `_applyMoveSpan`. -/
def applyMoveSpan (cfg : ShardConfig) (db : ShardDB) (time : ℕ) (entry : MoveSpanReq) :
    Checked (ShardDB × ShardResp) := do
  let (batch, file1) ← initiateTransientFileModification cfg db db time true entry.fileId1
  let (batch, file2) ← initiateTransientFileModification cfg db batch time true entry.fileId2
  if file1.fileSize = entry.byteOffset1 ∧ file1.lastSpanState = .clean ∧
      file2.fileSize = addU64 entry.byteOffset2 entry.spanSize ∧ file2.lastSpanState = .dirty then
    -- moved already
    return (batch, .done)
  else
    check (file1.lastSpanState = .dirty ∧ file1.fileSize = addU64 entry.byteOffset1 entry.spanSize ∧
      file2.lastSpanState = .clean ∧ file2.fileSize = entry.byteOffset2) .spanNotFound
    let key1 : SpanKey := ⟨entry.fileId1, entry.byteOffset1⟩
    let key2 : SpanKey := ⟨entry.fileId2, entry.byteOffset2⟩
    let span ← orFail (.err .spanNotFound) (db.spans.get key1)
    check (span.spanSize = entry.spanSize) .spanNotFound
    let file1' := { file1 with
      fileSize := subU64 file1.fileSize span.spanSize
      lastSpanState := .clean }
    let file2' := { file2 with
      fileSize := addU64 file2.fileSize span.spanSize
      lastSpanState := .dirty }
    assert (span.locations.length = 1)
    let batch := span.blocks.foldl (fun batch block =>
      addBlockServicesToFiles (addBlockServicesToFiles batch block.blockService entry.fileId1 (-1))
        block.blockService entry.fileId2 1) batch
    return ({ batch with
      spans := (batch.spans.delete key1).put key2 span
      transientFiles := (batch.transientFiles.put entry.fileId1 file1').put entry.fileId2 file2' },
      .done)

/-- The span with one more location (`SpanBody::afterAlloc` for an existing span and a new
location); the count of locations has to stay below the code for inline spans. -/
def SpanBody.addLocation (s : SpanBody) (loc : SpanBlocksBody) : Option SpanBody :=
  match s.storage with
  | .inline _ => none
  | .blocks first rest =>
    if rest.length + 2 < 255 then some { s with storage := .blocks first (rest ++ [loc]) } else none

/-- `_applyAddSpanLocation`.  The span that is taken from the source is not checked to be its
last one. -/
def applyAddSpanLocation (cfg : ShardConfig) (db : ShardDB) (time : ℕ)
    (entry : AddSpanLocationReq) : Checked (ShardDB × ShardResp) := do
  let _ ← getFile db entry.fileId2
  let (batch, sourceFile) ← initiateTransientFileModification cfg db db time false entry.fileId1
  check (sourceFile.lastSpanState = .clean) .lastSpanStateNotClean
  let sourceKey : SpanKey := ⟨entry.fileId1, entry.byteOffset1⟩
  let destinationKey : SpanKey := ⟨entry.fileId2, entry.byteOffset2⟩
  let destination ← orFail (.err .spanNotFound) (db.spans.get destinationKey)
  check (¬ destination.IsInlineStorage) .addSpanLocationInlineStorage
  match db.spans.get sourceKey with
  | none =>
    -- the location may have been added already
    check ((destination.findBlocksLocIdx entry.blocks1).isSome) .spanNotFound
    return (batch, .done)
  | some source =>
    check (¬ source.IsInlineStorage) .swapSpansInlineStorage
    check (source.spanSize = destination.spanSize) .addSpanLocationMismatchingSize
    check (source.crc = destination.crc) .addSpanLocationMismatchingCrc
    let state1 ← fetchSpanState db entry.fileId1 (addU64 entry.byteOffset1 source.size)
    check (state1 = .clean) .addSpanLocationNotClean
    match source.locations with
    | [loc] =>
      check (∀ d ∈ destination.locations, d.location ≠ loc.location) .addSpanLocationExists
      let batch := moveBlocksToFile batch loc.blocks entry.fileId2 entry.fileId1
      let sourceFile' := { sourceFile with
        fileSize := subU64 sourceFile.fileSize source.spanSize }
      let destination' ← orFail .crash (destination.addLocation loc)
      return ({ batch with
        transientFiles := batch.transientFiles.put entry.fileId1 sourceFile'
        spans := (batch.spans.put destinationKey destination').delete sourceKey }, .done)
    | _ => .error (.err .transientLocationCount)

/-! ## Clearing the index -/

/-- The most entries one `RemoveZeroBlockServiceFiles` looks at. -/
def maxZeroEntries : ℕ := 1000

/-- `_applyRemoveZeroBlockServiceFiles`. -/
def applyRemoveZeroBlockServiceFiles (db : ShardDB) (entry : RemoveZeroBlockServiceFilesReq) :
    Checked (ShardDB × ShardResp) :=
  let seen := db.blockServicesToFiles.seek ⟨entry.startBlockService, entry.startFile⟩
  let zeros := (seen.take maxZeroEntries).filter fun e => e.2 = 0
  let next := ((seen.drop maxZeroEntries).head?.map Prod.fst).getD ⟨0, .null⟩
  let index := zeros.foldl (fun index e => index.delete e.1) db.blockServicesToFiles
  return ({ db with blockServicesToFiles := index },
    .removeZeroBlockServiceFiles zeros.length next.blockService next.fileId)

end TernFS
