/-
# Spans: how log entries change them

The part of `ShardDB.cpp` that applies log entries to the spans of files.  Adding a span of
blocks and removing one take two steps each: the blocks are handed out with certificates and
the span is marked dirty (or condemned), and a proof from every block service then makes the
file clean again.  The index from block services to files counts, for each block service and
file, the blocks of the file on it; it is only ever changed by adding a difference.
-/
import TernFS.Shard.Edges

namespace TernFS

open Lib

/-- What a shard knows about a block service (the fields of `BlockServiceCache` that are used). -/
structure BlockServiceInfo where
  secretKey : AES128Key
  failureDomain : Bytes
  addrs : Bytes
  flags : ℕ

/-- `BlockServicesCache`: the block services known to the process, by id.  The lookup of an
unknown id throws. -/
abbrev BlockServicesCache := ℕ → Option BlockServiceInfo

/-! ## The index of block services -/

/-- Two's complement reading of a 64-bit sum. -/
def wrapI64 (x : ℤ) : ℤ := (x + 2 ^ 63) % 2 ^ 64 - 2 ^ 63

/-- `_addBlockServicesToFiles`: a merge with 64-bit addition. -/
def addBlockServicesToFiles (batch : ShardDB) (blockService : ℕ) (fileId : InodeId) (delta : ℤ) :
    ShardDB :=
  let key : BlockServiceToFileKey := ⟨blockService, fileId⟩
  let old := (batch.blockServicesToFiles.get key).getD 0
  { batch with
    blockServicesToFiles := batch.blockServicesToFiles.put key (wrapI64 (old + delta)) }

/-- Move the count of each block from one file to another. -/
def moveBlocksToFile (batch : ShardDB) (blocks : List BlockBody) (addTo subtractFrom : InodeId) :
    ShardDB :=
  blocks.foldl (fun batch block =>
    addBlockServicesToFiles (addBlockServicesToFiles batch block.blockService addTo 1)
      block.blockService subtractFrom (-1)) batch

/-! ## Certificates and proofs -/

/-- The MAC over the id of a block service, a tag, the id of a block and more words, padded to
32 bytes. -/
def blockMac (key : AES128Key) (blockService : ℕ) (tag : Char) (blockId : ℕ) (rest : Bytes) :
    Bytes :=
  let buf := leBytes 8 blockService ++ [tag.toNat] ++ leBytes 8 blockId ++ rest
  cbcmac key ((buf ++ List.replicate 32 0).take 32)

/-- `_blockWriteCertificate`. -/
def blockWriteCertificate (blockSize : ℕ) (block : BlockBody) (key : AES128Key) : Bytes :=
  blockMac key block.blockService 'w' block.blockId (leBytes 4 block.crc ++ leBytes 4 blockSize)

/-- `_blockEraseCertificate`. -/
def blockEraseCertificate (block : BlockBody) (key : AES128Key) : Bytes :=
  blockMac key block.blockService 'e' block.blockId []

/-- `_checkBlockAddProof`; the block id is the one in the proof. -/
def checkBlockAddProof (cache : BlockServicesCache) (blockService : ℕ) (proof : BlockProof) :
    Checked Bool := do
  let service ← orFail .crash (cache blockService)
  return decide (proof.proof = blockMac service.secretKey blockService 'W' proof.blockId [])

/-- `_checkBlockDeleteProof`. -/
def checkBlockDeleteProof (cache : BlockServicesCache) (blockService : ℕ) (proof : BlockProof) :
    Checked Bool := do
  let service ← orFail .crash (cache blockService)
  return decide (proof.proof = blockMac service.secretKey blockService 'E' proof.blockId [])

/-- The size of each block of a location, a 32-bit product. -/
def SpanBlocksBody.blockSize (b : SpanBlocksBody) : ℕ := b.cellSize * b.stripes % 2 ^ 32

/-- `_fillInAddSpanInitiate`. -/
def fillInAddSpanInitiate (cache : BlockServicesCache) (loc : SpanBlocksBody) :
    Checked (List BlockInfo) :=
  loc.blocks.mapM fun block => do
    let service ← orFail .crash (cache block.blockService)
    return ⟨service.addrs, block.blockService, service.failureDomain, 0, block.blockId,
      blockWriteCertificate loc.blockSize block service.secretKey⟩

/-- The blocks that `_applyRemoveSpanInitiate` answers with. -/
def fillInRemoveSpanInitiate (cache : BlockServicesCache) (span : SpanBody) :
    Checked (List BlockInfo) :=
  span.blocks.mapM fun block => do
    let service ← orFail .crash (cache block.blockService)
    return ⟨service.addrs, block.blockService, [], service.flags, block.blockId,
      blockEraseCertificate block service.secretKey⟩

/-! ## Adding spans -/

/-- A span that answers a repeated `AddInlineSpan`.  The bodies are compared up to their first
zero byte. -/
def SameInlineSpan (span : SpanBody) (entry : AddInlineSpanEntry) : Prop :=
  match span.storage with
  | .inline body => span.spanSize = entry.size ∧ span.crc = entry.crc ∧ SameBytes body entry.body
  | .blocks _ _ => False

instance (span : SpanBody) (entry : AddInlineSpanEntry) : Decidable (SameInlineSpan span entry) :=
  match span with
  | ⟨_, _, .inline _⟩ => inferInstanceAs (Decidable (_ ∧ _))
  | ⟨_, _, .blocks _ _⟩ => isFalse id

/-- `_applyAddInlineSpan`. -/
def applyAddInlineSpan (cfg : ShardConfig) (db : ShardDB) (time : ℕ) (entry : AddInlineSpanEntry) :
    Checked (ShardDB × ShardResp) := do
  let (batch, file) ← initiateTransientFileModification cfg db db time false entry.fileId
  if entry.body = [] then
    -- nothing to do for empty spans
    return (batch, .done)
  else if file.fileSize ≠ entry.byteOffset then
    -- the same span again is accepted
    check (file.fileSize = addU64 entry.byteOffset entry.size) .spanNotFound
    let existing ← orFail (.err .spanNotFound) (db.spans.get ⟨entry.fileId, entry.byteOffset⟩)
    check (SameInlineSpan existing entry) .spanNotFound
    return (batch, .done)
  else
    check (file.lastSpanState = .clean) .lastSpanStateNotClean
    let file' := { file with fileSize := addU64 entry.byteOffset entry.size }
    let span : SpanBody := ⟨entry.size, entry.crc, .inline entry.body⟩
    return ({ batch with
      transientFiles := batch.transientFiles.put entry.fileId file'
      spans := batch.spans.put ⟨entry.fileId, entry.byteOffset⟩ span }, .done)

/-- `_updateNextBlockId`: the time is embedded into the id, except for the low byte, which is
the shard. -/
def updateNextBlockId (cfg : ShardConfig) (time nextBlockId : ℕ) : ℕ :=
  max (addU64 nextBlockId 0x100) (cfg.shid + time / 256 * 256)

/-- The loop of `_applyAddSpanInitiate` that gives out block ids: the block records, and the
last id given out. -/
def newBlocks (cfg : ShardConfig) (time : ℕ) : ℕ → List EntryNewBlockInfo → List BlockBody × ℕ
  | nextBlockId, [] => ([], nextBlockId)
  | nextBlockId, entryBlock :: entryBlocks =>
    let id := updateNextBlockId cfg time nextBlockId
    let (blocks, last) := newBlocks cfg time id entryBlocks
    (⟨entryBlock.blockServiceId, id, entryBlock.crc⟩ :: blocks, last)

/-- A span that answers a repeated `AddSpanInitiate`: the only location it has. -/
def sameSpanAgain (span : SpanBody) (entry : AddSpanAtLocationInitiateEntry) :
    Option SpanBlocksBody :=
  match span.storage with
  | .blocks loc [] =>
    if span.spanSize = entry.size ∧ span.crc = entry.crc ∧ loc.cellSize = entry.cellSize ∧
        loc.stripes = entry.stripes ∧ loc.parity = entry.parity ∧
        loc.location = entry.locationId then some loc else none
  | _ => none

/-- `_applyAddSpanInitiate`. -/
def applyAddSpanInitiate (cfg : ShardConfig) (cache : BlockServicesCache) (db : ShardDB) (time : ℕ)
    (entry : AddSpanAtLocationInitiateEntry) : Checked (ShardDB × ShardResp) := do
  let (batch, file) ← initiateTransientFileModification cfg db db time false entry.fileId
  if file.fileSize ≠ entry.byteOffset then
    -- the same span again is answered with the blocks computed the first time
    check (file.fileSize = addU64 entry.byteOffset entry.size) .spanNotFound
    let existing ← orFail (.err .spanNotFound) (db.spans.get ⟨entry.fileId, entry.byteOffset⟩)
    let loc ← orFail (.err .spanNotFound) (sameSpanAgain existing entry)
    let infos ← fillInAddSpanInitiate cache loc
    return (batch, .addSpanInitiate infos)
  else
    check (file.lastSpanState = .clean) .lastSpanStateNotClean
    let file' := { file with
      fileSize := addU64 entry.byteOffset entry.size
      lastSpanState := .dirty }
    let (blocks, nextBlockId) :=
      newBlocks cfg time db.nextBlockId (entry.bodyBlocks.take entry.parity.blocks)
    let loc ← orFail .crash (SpanBlocksBody.alloc entry.locationId entry.storageClass entry.parity
      entry.stripes entry.cellSize blocks (entry.bodyStripes.take entry.stripes))
    let batch := blocks.foldl (fun batch block =>
      addBlockServicesToFiles batch block.blockService entry.fileId 1) batch
    let span : SpanBody := ⟨entry.size, entry.crc, .blocks loc []⟩
    let batch := { batch with
      transientFiles := batch.transientFiles.put entry.fileId file'
      nextBlockId := nextBlockId
      spans := batch.spans.put ⟨entry.fileId, entry.byteOffset⟩ span }
    let infos ← fillInAddSpanInitiate cache loc
    return (batch, .addSpanInitiate infos)

/-- The loop over the proofs of `_applyAddSpanCertify`. -/
def checkAddProofs (cache : BlockServicesCache) : List BlockBody → List BlockProof → Checked Bool
  | block :: blocks, proof :: proofs => do
    if ← checkBlockAddProof cache block.blockService proof then checkAddProofs cache blocks proofs
    else return false
  | _, _ => return true

/-- `_applyAddSpanCertify`. -/
def applyAddSpanCertify (cfg : ShardConfig) (cache : BlockServicesCache) (db : ShardDB) (time : ℕ)
    (entry : SpanCertifyEntry) : Checked (ShardDB × ShardResp) := do
  let (batch, file) ← initiateTransientFileModification cfg db db time false entry.fileId
  let span ← orFail (.err .spanNotFound) (db.spans.get ⟨entry.fileId, entry.byteOffset⟩)
  if addU64 entry.byteOffset span.spanSize < file.fileSize ∨ file.lastSpanState = .clean then
    -- certified already
    return (batch, .done)
  else
    check (file.lastSpanState ≠ .condemned) .spanNotFound
    match span.storage with
    | .inline _ => .error (.err .cannotCertifyBlocklessSpan)
    | .blocks loc rest =>
      assert (rest = [])
      check (loc.parity.blocks = entry.proofs.length) .badNumberOfBlocksProofs
      let good ← checkAddProofs cache loc.blocks entry.proofs
      check (good = true) .badBlockProof
      let file' := { file with lastSpanState := .clean }
      return ({ batch with transientFiles := batch.transientFiles.put entry.fileId file' }, .done)

/-! ## Removing spans -/

/-- `_applyRemoveSpanInitiate`. -/
def applyRemoveSpanInitiate (cfg : ShardConfig) (cache : BlockServicesCache) (db : ShardDB)
    (time : ℕ) (fileId : InodeId) : Checked (ShardDB × ShardResp) := do
  let (batch, file) ← initiateTransientFileModification cfg db db time true fileId
  check (file.fileSize ≠ 0) .fileEmpty
  -- a file that is not empty must have a last span
  let (spanKey, span) ← orFail .crash (db.spans.seekForPrev ⟨fileId, file.fileSize⟩)
  assert (spanKey.fileId = fileId)
  if span.IsInlineStorage then
    let file' := { file with fileSize := spanKey.offset }
    return ({ batch with
      spans := batch.spans.delete spanKey
      transientFiles := batch.transientFiles.put fileId file' },
      .removeSpanInitiate spanKey.offset [])
  else
    let file' := { file with lastSpanState := .condemned }
    let infos ← fillInRemoveSpanInitiate cache span
    return ({ batch with transientFiles := batch.transientFiles.put fileId file' },
      .removeSpanInitiate spanKey.offset infos)

/-- The inner loop over the proofs of `_applyRemoveSpanCertify`, for the blocks of one
location.  The position in the list of proofs is kept in one byte. -/
def checkDeleteProofs (cache : BlockServicesCache) (proofs : List BlockProof) :
    ℕ → List BlockBody → Checked ℕ
  | entryBlockIdx, [] => return entryBlockIdx
  | entryBlockIdx, block :: blocks => do
    let proof ← orFail .crash proofs[entryBlockIdx]?
    check (block.blockId = proof.blockId) .badBlockProof
    let good ← checkBlockDeleteProof cache block.blockService proof
    check (good = true) .badBlockProof
    checkDeleteProofs cache proofs ((entryBlockIdx + 1) % 256) blocks

/-- The loop over the locations of `_applyRemoveSpanCertify`. -/
def checkDeleteProofsAt (cache : BlockServicesCache) (proofs : List BlockProof) :
    ℕ → List SpanBlocksBody → Checked ℕ
  | entryBlockIdx, [] => return entryBlockIdx
  | entryBlockIdx, loc :: locs => do
    check (entryBlockIdx + loc.parity.blocks ≤ proofs.length) .badNumberOfBlocksProofs
    let entryBlockIdx ← checkDeleteProofs cache proofs entryBlockIdx loc.blocks
    checkDeleteProofsAt cache proofs entryBlockIdx locs

/-- `_applyRemoveSpanCertify`.  The span at the given offset is not checked to be the last one
of the file. -/
def applyRemoveSpanCertify (cfg : ShardConfig) (cache : BlockServicesCache) (db : ShardDB)
    (time : ℕ) (entry : SpanCertifyEntry) : Checked (ShardDB × ShardResp) := do
  let (batch, file) ← initiateTransientFileModification cfg db db time true entry.fileId
  let spanKey : SpanKey := ⟨entry.fileId, entry.byteOffset⟩
  match db.spans.get spanKey with
  | none => return (batch, .done)
  | some span =>
    check (¬ span.IsInlineStorage) .cannotCertifyBlocklessSpan
    check (file.lastSpanState = .condemned) .spanNotFound
    let entryBlockIdx ← checkDeleteProofsAt cache entry.proofs 0 span.locations
    check (entryBlockIdx = entry.proofs.length) .badNumberOfBlocksProofs
    let batch := span.blocks.foldl (fun batch block =>
      addBlockServicesToFiles batch block.blockService entry.fileId (-1)) batch
    let file' := { file with lastSpanState := .clean, fileSize := entry.byteOffset }
    return ({ batch with
      spans := batch.spans.delete spanKey
      transientFiles := batch.transientFiles.put entry.fileId file' }, .done)

end TernFS
