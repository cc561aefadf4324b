/-
# Block writes and their proofs

`writeBlock` (`ternblocks.go`) reads the body of a WriteBlock request off the connection, frames it
into pages with a checksum each, writes them to a temporary file that it syncs and reads back, moves
the file to the path of the block, syncs the directory and sends the proof.  What each read of the
socket returns, the failures of the disk and the crashes of the host are inputs.
-/
import TernFS.Core.CrcLaws
import TernFS.Core.Crypto
import TernFS.Lib.Durable
import TernFS.Lib.Run

namespace TernFS.BlockService

open Lib List Option Nat

/-! ## The body -/

/-- The first `n` pages of the data, each with its checksum after it. -/
def encodePages : ℕ → Bytes → Bytes
  | 0, _ => []
  | n + 1, data =>
    data.take ternfsPageSize ++ leBytes 4 (crc32c 0 (data.take ternfsPageSize)) ++
      encodePages n (data.drop ternfsPageSize)

/-- `TERN_PAGE_WITH_CRC_SIZE`. -/
def pageWithCrcSize : ℕ := ternfsPageSize + 4

/-- The variables of the loop of `writeToBuf`, and what is on the connection. -/
structure Framing where
  stream : Bytes
  /-- The bytes that are not framed yet. -/
  size : ℕ
  readBuffer : Bytes
  writeBuffer : Bytes

/-- The body of the loop, for a read that returns at most `n` bytes. -/
def Framing.read (f : Framing) (n : ℕ) : Framing :=
  let endReadOffset := min (2 ^ 20) f.size
  let read := f.stream.take (min n (endReadOffset - f.readBuffer.length))
  let buffer := f.readBuffer ++ read
  let availablePages := buffer.length / ternfsPageSize
  { stream := f.stream.drop read.length
    size := f.size - availablePages * ternfsPageSize
    readBuffer := buffer.drop (availablePages * ternfsPageSize)
    writeBuffer := f.writeBuffer ++ encodePages availablePages buffer }

/-- The loop, for reads that return some bytes or an error, and the end of the stream after them.
The result is missing when the connection fails. -/
def Framing.readAll : List (Option ℕ) → Framing → Option Framing
  | [], f => if f.size ≤ f.readBuffer.length then some f else none
  | r :: reads, f =>
    if f.size ≤ f.readBuffer.length then some f
    else r.bind fun n => readAll reads (f.read n)

/-- `writeToBuf`: what is left on the connection, and the buffer or `BAD_BLOCK_CRC`. -/
def writeToBuf (reads : List (Option ℕ)) (stream : Bytes) (size : ℕ) :
    Option (Bytes × Option Bytes) :=
  (Framing.readAll reads ⟨stream, size, [], []⟩).map fun f =>
    (f.stream, if f.readBuffer.length ≠ 0 ∨ f.size ≠ 0 then none
      else if f.writeBuffer.length ≠ size / ternfsPageSize * pageWithCrcSize then none
      else some f.writeBuffer)

/-- The loop of `verifyCrcReader` over the pages of the file. -/
def verifyPages : ℕ → Bytes → ℕ → Option ℕ
  | 0, _, actualCrc => some actualCrc
  | n + 1, file, actualCrc =>
    let actualPageCrc := crc32c 0 (file.take ternfsPageSize)
    if (file.drop ternfsPageSize).take 4 ≠ leBytes 4 actualPageCrc then none
    else verifyPages n (file.drop pageWithCrcSize)
      (crc32cAppend actualCrc actualPageCrc ternfsPageSize)

/-- `verifyCrcFile`. -/
def verifyCrcFile (file : Bytes) (expectedSize expectedCrc : ℕ) : Bool :=
  file.length = expectedSize ∧
    verifyPages (file.length / pageWithCrcSize) file 0 = some expectedCrc ∧
    file.length % pageWithCrcSize = 0

/-! ## The disk -/

/-- The operations on directories. -/
inductive DiskOp
  | mkdir (dir : ℕ)
  | rename (blockId : ℕ) (file : Bytes)
  | syncDir (dir : ℕ)

/-- The sub-directories of a block service, and the files at the paths of the blocks. -/
structure Disk where
  dirs : ℕ → Durable Bool
  files : ℕ → Durable (Option Bytes)

/-- What a certificate says about a block. -/
structure Cert where
  size : ℕ
  crc : ℕ

/-- What goes wrong on the disk. -/
inductive Fault
  | mkdir
  /-- An operation on the temporary file, up to its rename. -/
  | temp
  | sync
deriving DecidableEq

/-- A WriteBlock request whose certificate is good. -/
structure Request where
  blockId : ℕ
  /-- The bytes on the connection after the header. -/
  stream : Bytes
  stream_lt : ∀ b ∈ stream, b < 2 ^ 8
  reads : List (Option ℕ)
  fault : Option Fault

section

variable (dirOf : ℕ → ℕ)

/-- An operation that succeeds. `dirOf` is the sub-directory in `BlockId.Path`. -/
def Disk.apply (disk : Disk) : DiskOp → Disk
  | .mkdir dir =>
    { disk with
      dirs := fun d => if d = dir ∧ (disk.dirs d).now = false then (disk.dirs d).set true
        else disk.dirs d }
  | .rename blockId file =>
    { disk with
      files := fun b => if b = blockId then (disk.files b).set (some file) else disk.files b }
  | .syncDir dir =>
    { disk with files := fun b => if dirOf b = dir then (disk.files b).sync else disk.files b }

/-- A crash. The files of a sub-directory that is lost are lost with it. -/
def Disk.crash (disk : Disk) (dirAge fileAge : ℕ → ℕ) : Disk where
  dirs d := (disk.dirs d).crash (dirAge d)
  files b :=
    if ((disk.dirs (dirOf b)).crash (dirAge (dirOf b))).now then (disk.files b).crash (fileAge b)
    else .synced none

/-- `writeBlockInternal` after `writeToBuf`: the operations on directories, and whether it returns
nil. -/
def storeBlock (cert : Cert) (r : Request) (buf : Bytes) : List DiskOp × Bool :=
  let dir := dirOf r.blockId
  if r.fault = some .mkdir then ([], false)
  else if r.fault = some .temp ∨ verifyCrcFile buf buf.length cert.crc = false then
    ([.mkdir dir], false)
  else if r.fault = some .sync then ([.mkdir dir, .rename r.blockId buf], false)
  else ([.mkdir dir, .rename r.blockId buf, .syncDir dir], true)

/-- `writeBlock`, unless the connection fails: what is left on the connection, the operations, and
whether the answer is a proof. -/
def writeBlock (cert : Cert) (r : Request) : Option (Bytes × List DiskOp × Bool) :=
  (writeToBuf r.reads r.stream cert.size).map fun (rest, buf) =>
    (rest, match buf with
      | none => ([], false)
      | some buf => storeBlock dirOf cert r buf)

/-- A block service: its disk, and the blocks it sent a proof for. -/
structure Service where
  disk : Disk
  proofs : List ℕ

inductive WriteEvent
  /-- A request is served to its end. -/
  | request (r : Request)
  /-- The host crashes, after the first operations of a request. -/
  | crash (r : Request) (done : ℕ) (dirAge fileAge : ℕ → ℕ)

/-- One event, where the blocks have the certificates `cert`. -/
def serve (cert : ℕ → Cert) (s : Service) : WriteEvent → Option Service
  | .request r =>
    (writeBlock dirOf (cert r.blockId) r).map fun (_, ops, proof) =>
      { disk := ops.foldl (Disk.apply dirOf) s.disk
        proofs := if proof then r.blockId :: s.proofs else s.proofs }
  | .crash r done dirAge fileAge =>
    let ops := ((writeBlock dirOf (cert r.blockId) r).map fun (_, ops, _) => ops).getD []
    some { s with
      disk := ((ops.take done).foldl (Disk.apply dirOf) s.disk).crash dirOf dirAge fileAge }

/-- The sub-directory of the block a request writes is there, durably. -/
def DirDurable (s : Service) : WriteEvent → Prop
  | .request r => (s.disk.dirs (dirOf r.blockId)).Settled true
  | .crash .. => True

instance (s : Service) : ∀ e, Decidable (DirDurable dirOf s e)
  | .request _ => inferInstanceAs (Decidable (Durable.Settled _ _))
  | .crash .. => isTrue trivial

end

/-! ## What the body is framed into -/

variable {n m : ℕ} {data : Bytes}

lemma length_leBytes (k x : ℕ) : (leBytes k x).length = k := by
  induction k generalizing x with
  | zero => rfl
  | succ k ih => simp [leBytes, ih]

lemma pages_succ (h : (n + 1) * ternfsPageSize ≤ data.length) :
    ternfsPageSize ≤ data.length ∧ n * ternfsPageSize ≤ (data.drop ternfsPageSize).length := by
  rw [succ_mul] at h
  rw [length_drop]
  omega

lemma length_encodePages (h : n * ternfsPageSize ≤ data.length) :
    (encodePages n data).length = n * pageWithCrcSize := by
  induction n generalizing data with
  | zero => simp [encodePages]
  | succ n ih =>
    obtain ⟨hpage, hrest⟩ := pages_succ h
    simp only [encodePages, length_append, length_take_of_le hpage, length_leBytes,
      ih hrest, succ_mul, pageWithCrcSize]
    omega

lemma encodePages_add : encodePages (m + n) data =
    encodePages m data ++ encodePages n (data.drop (m * ternfsPageSize)) := by
  induction m generalizing data with
  | zero => simp [encodePages]
  | succ m ih =>
    rw [succ_add, encodePages, encodePages, ih, drop_drop, succ_mul, add_comm]
    simp

variable {rest : Bytes}

lemma encodePages_append (h : n * ternfsPageSize ≤ data.length) :
    encodePages n (data ++ rest) = encodePages n data := by
  induction n generalizing data with
  | zero => rfl
  | succ n ih =>
    obtain ⟨hpage, hrest⟩ := pages_succ h
    rw [encodePages, encodePages, take_append_of_le_length hpage,
      drop_append_of_le_length hpage, ih hrest]

/-- What the loop keeps: `m` pages of the body are framed, and the rest is in the read buffer and on
the connection. -/
structure Frames (data : Bytes) (size : ℕ) (f : Framing) (m : ℕ) : Prop where
  size_eq : m * ternfsPageSize + f.size = size
  buffered : f.readBuffer.length ≤ f.size
  le : m * ternfsPageSize ≤ data.length
  rest : data.drop (m * ternfsPageSize) = f.readBuffer ++ f.stream
  framed : f.writeBuffer = encodePages m data

variable {size b : ℕ}

lemma Frames.read {f : Framing} (h : Frames data size f m) (k : ℕ) :
    ∃ m, Frames data size (f.read k) m := by
  set read := f.stream.take (min k (min (2 ^ 20) f.size - f.readBuffer.length)) with hread
  set buffer := f.readBuffer ++ read with hbuffer
  set pages := buffer.length / ternfsPageSize with hpages
  have hle : buffer.length ≤ f.size := by
    have := h.buffered
    simp only [hbuffer, hread, length_append, length_take]
    omega
  have hdiv : pages * ternfsPageSize ≤ buffer.length := div_mul_le_self _ _
  have hrest : data.drop (m * ternfsPageSize) = buffer ++ f.stream.drop read.length := by
    rw [h.rest, hbuffer, append_assoc, ← prefix_append_drop (List.take_prefix _ _)]
  have hlen := congrArg List.length hrest
  have := h.size_eq
  have := h.le
  simp only [length_drop, length_append] at hlen
  refine ⟨m + pages, ?_, ?_, ?_, ?_, ?_⟩
  · show (m + pages) * _ + (f.size - pages * _) = size
    rw [add_mul]
    omega
  · show (buffer.drop (pages * _)).length ≤ f.size - pages * _
    rw [length_drop]
    omega
  · rw [add_mul]
    omega
  · rw [add_mul, ← drop_drop, hrest, drop_append_of_le_length hdiv]
    rfl
  · show f.writeBuffer ++ encodePages pages buffer = _
    rw [h.framed, encodePages_add, hrest, encodePages_append hdiv]

variable {reads : List (Option ℕ)}

lemma Frames.readAll {f f' : Framing} (h : Frames data size f m)
    (hread : f.readAll reads = some f') :
    ∃ m, Frames data size f' m ∧ f'.size = f'.readBuffer.length := by
  induction reads generalizing f m with
  | nil =>
    simp only [Framing.readAll, ite_none_right_eq_some, some.injEq] at hread
    obtain ⟨hle, rfl⟩ := hread
    exact ⟨m, h, le_antisymm hle h.buffered⟩
  | cons r reads ih =>
    rw [Framing.readAll] at hread
    split_ifs at hread with hle
    · obtain rfl := some.inj hread
      exact ⟨m, h, le_antisymm hle h.buffered⟩
    · obtain ⟨k, -, hread⟩ := bind_eq_some_iff.1 hread
      obtain ⟨m, h⟩ := h.read k
      exact ih h hread

/-- `writeToBuf` consumes the body, and returns its pages if they are whole. -/
lemma writeToBuf_spec {buf : Option Bytes} (h : writeToBuf reads data size = some (rest, buf)) :
    size ≤ data.length ∧ rest = data.drop size ∧
      ∀ file ∈ buf, ∃ n, size = n * ternfsPageSize ∧ file = encodePages n (data.take size) := by
  obtain ⟨f, hf, heq⟩ := map_eq_some_iff.1 h
  obtain ⟨rfl, rfl⟩ := Prod.mk.inj heq
  have h0 : Frames data size ⟨data, size, [], []⟩ 0 := ⟨by simp, by simp, by simp, by simp, rfl⟩
  obtain ⟨m, hframes, hsize⟩ := h0.readAll hf
  have hlen := congrArg List.length hframes.rest
  have hle := hframes.le
  have heq := hframes.size_eq
  simp only [length_drop, length_append] at hlen
  refine ⟨by omega, ?_, fun file hfile => ?_⟩
  · rw [← heq, ← drop_drop, hframes.rest, hsize, drop_left]
  simp only [mem_def, ite_none_left_eq_some, some.injEq] at hfile
  obtain ⟨hwhole, -, rfl⟩ := hfile
  have hdone : size = m * ternfsPageSize := by omega
  have htake : m * ternfsPageSize ≤ (data.take size).length := by
    rw [length_take]
    omega
  refine ⟨m, hdone, ?_⟩
  rw [hframes.framed, ← encodePages_append htake, take_append_drop]

/-- The pages that were written are verified against the checksum of their data. -/
lemma verifyPages_encodePages {pre : Bytes} (hpre : ∀ b ∈ pre, b < 2 ^ 8)
    (hdata : ∀ b ∈ data, b < 2 ^ 8) (h : n * ternfsPageSize ≤ data.length) :
    verifyPages n (encodePages n data) (crc32c 0 pre) =
      some (crc32c 0 (pre ++ data.take (n * ternfsPageSize))) := by
  induction n generalizing pre data with
  | zero => simp [verifyPages]
  | succ n ih =>
    obtain ⟨hpage, hrest⟩ := pages_succ h
    set page := data.take ternfsPageSize with hpageEq
    have hlen : page.length = ternfsPageSize := length_take_of_le hpage
    have hmem : ∀ b ∈ page, b < 2 ^ 8 := fun b hb => hdata b (mem_of_mem_take hb)
    have hencode : encodePages (n + 1) data =
        page ++ (leBytes 4 (crc32c 0 page) ++ encodePages n (data.drop ternfsPageSize)) :=
      append_assoc ..
    have hcrc := crc32c_append hpre (hlen.trans_lt (by decide) : page.length < 2 ^ 64)
    rw [hlen] at hcrc
    rw [verifyPages, hencode, pageWithCrcSize, ← drop_drop, take_left' hlen,
      drop_left' hlen, take_left' (length_leBytes 4 _),
      drop_left' (length_leBytes 4 _), hcrc, if_neg (not_not.2 rfl),
      ih (forall_mem_append.2 ⟨hpre, hmem⟩) (fun b hb => hdata b (mem_of_mem_drop hb))
      hrest, append_assoc, succ_mul, add_comm, take_add]

lemma verifyCrcFile_encodePages {crc : ℕ} (hdata : ∀ b ∈ data, b < 2 ^ 8)
    (hlen : data.length = n * ternfsPageSize) :
    verifyCrcFile (encodePages n data) (encodePages n data).length crc = true ↔
      crc32c 0 data = crc := by
  have hpages : verifyPages n (encodePages n data) 0 = some (crc32c 0 data) := by
    have hverify := verifyPages_encodePages (forall_mem_nil _) hdata hlen.ge
    rwa [← hlen, take_length] at hverify
  simp [verifyCrcFile, length_encodePages hlen.ge, Nat.mul_div_cancel n (show 0 < pageWithCrcSize
    by decide), hpages]

/-! ## Requests -/

variable {dirOf : ℕ → ℕ}

/-- The body of the request is what the certificate says. -/
def Matches (cert : Cert) (stream : Bytes) : Prop :=
  ternfsPageSize ∣ cert.size ∧ cert.size ≤ stream.length ∧
    crc32c 0 (stream.take cert.size) = cert.crc

/-- A file is the encoding of the data that the certificate describes. -/
def Holds (cert : Cert) (file : Option Bytes) : Prop :=
  ∃ n data, data.length = cert.size ∧ cert.size = n * ternfsPageSize ∧
    crc32c 0 data = cert.crc ∧ file = some (encodePages n data)

/-- What a request does, unless the connection fails: it consumes the body and changes the path of
the block only to the encoding of a body that matches. -/
lemma writeBlock_cases {cert : Cert} {r : Request} {ops : List DiskOp} {proof : Bool}
    (h : writeBlock dirOf cert r = some (rest, ops, proof)) :
    cert.size ≤ r.stream.length ∧ rest = r.stream.drop cert.size ∧
      ((ops = [] ∨ ops = [.mkdir (dirOf r.blockId)]) ∧ proof = false ∨
        Matches cert r.stream ∧ ∃ file, Holds cert (some file) ∧
          (ops = [.mkdir (dirOf r.blockId), .rename r.blockId file] ∧ proof = false ∨
            ops = [.mkdir (dirOf r.blockId), .rename r.blockId file,
              .syncDir (dirOf r.blockId)])) := by
  obtain ⟨⟨rest', buf⟩, hbuf, hpair⟩ := map_eq_some_iff.1 h
  obtain ⟨hle, hrest, hfile⟩ := writeToBuf_spec hbuf
  obtain ⟨rfl, heq⟩ := Prod.mk.inj hpair
  refine ⟨hle, hrest, ?_⟩
  cases buf with
  | none =>
    obtain ⟨rfl, rfl⟩ := Prod.mk.inj heq
    exact .inl ⟨.inl rfl, rfl⟩
  | some buf =>
    obtain ⟨n, hn, hpages⟩ := hfile buf rfl
    have hlen : (r.stream.take cert.size).length = cert.size := length_take_of_le hle
    simp only [storeBlock] at heq
    split_ifs at heq with hmkdir htemp hsync
    · obtain ⟨rfl, rfl⟩ := Prod.mk.inj heq
      exact .inl ⟨.inl rfl, rfl⟩
    · obtain ⟨rfl, rfl⟩ := Prod.mk.inj heq
      exact .inl ⟨.inr rfl, rfl⟩
    all_goals
      obtain ⟨rfl, rfl⟩ := Prod.mk.inj heq
      have hverify : verifyCrcFile buf buf.length cert.crc = true := by
        simpa using (not_or.1 htemp).2
      rw [hpages] at hverify
      have hcrc := (verifyCrcFile_encodePages
        (fun b hb => r.stream_lt b (mem_of_mem_take hb)) (hlen.trans hn)).1 hverify
      exact .inr ⟨⟨⟨n, hn.trans (mul_comm ..)⟩, hle, hcrc⟩, buf,
        ⟨n, _, hlen, hn, hcrc, by rw [hpages]⟩, by simp⟩

/-! ## The disk over a run -/

variable {disk : Disk}

lemma Disk.files_foldl {p : Option Bytes → Prop} (h : (disk.files b).All p)
    {ops : List DiskOp} (hops : ∀ file, .rename b file ∈ ops → p (some file)) :
    ((ops.foldl (Disk.apply dirOf) disk).files b).All p := by
  induction ops generalizing disk with
  | nil => exact h
  | cons op ops ih =>
    refine ih ?_ fun file hfile => hops file (mem_cons_of_mem _ hfile)
    simp only [Disk.apply]
    split
    · exact h
    · simp only
      split_ifs with hb
      · exact h.set (hops _ (hb ▸ mem_cons_self))
      · exact h
    · simp only
      split_ifs
      · exact h.sync
      · exact h

lemma Disk.dirs_foldl {d : ℕ} (h : (disk.dirs d).Settled true) (ops : List DiskOp) :
    ((ops.foldl (Disk.apply dirOf) disk).dirs d).Settled true := by
  induction ops generalizing disk with
  | nil => exact h
  | cons op ops ih =>
    refine ih ?_
    cases op with
    | mkdir => simpa [Disk.apply, h.now] using h
    | rename | syncDir => exact h

variable {cert : ℕ → Cert} {s s' : Service}

/-- The block is at its path, now and after a crash. -/
def Proved (dirOf : ℕ → ℕ) (cert : ℕ → Cert) (disk : Disk) (b : ℕ) : Prop :=
  (disk.dirs (dirOf b)).Settled true ∧ (disk.files b).All (Holds (cert b))

/-- What holds between events. -/
structure Sound (dirOf : ℕ → ℕ) (cert : ℕ → Cert) (s : Service) : Prop where
  files : ∀ b, (s.disk.files b).All fun file => file = none ∨ Holds (cert b) file
  proofs : ∀ b ∈ s.proofs, Proved dirOf cert s.disk b

lemma Sound.ops (h : Sound dirOf cert s) {ops : List DiskOp}
    (hops : ∀ b file, .rename b file ∈ ops → Holds (cert b) (some file)) :
    Sound dirOf cert { s with disk := ops.foldl (Disk.apply dirOf) s.disk } where
  files b := Disk.files_foldl (h.files b) fun file hfile => .inr (hops b file hfile)
  proofs b hb :=
    ⟨Disk.dirs_foldl (h.proofs b hb).1 ops, Disk.files_foldl (h.proofs b hb).2 (hops b)⟩

lemma Sound.crash (h : Sound dirOf cert s) (dirAge fileAge : ℕ → ℕ) :
    Sound dirOf cert { s with disk := s.disk.crash dirOf dirAge fileAge } := by
  refine ⟨fun b => ?_, fun b hb => ?_⟩
  · simp only [Disk.crash]
    split_ifs
    · exact (h.files b).crash _
    · exact Durable.all_synced.2 (.inl rfl)
  · obtain ⟨hdir, hfile⟩ := h.proofs b hb
    have hthere := hdir.crash (dirAge (dirOf b))
    refine ⟨hthere, ?_⟩
    simp only [Disk.crash, hthere.now, if_true]
    exact hfile.crash _

/-- The operations of a request only put at a path what the certificate of its block describes. -/
lemma holds_of_rename_mem {r : Request} {ops : List DiskOp} {proof : Bool}
    (h : writeBlock dirOf (cert r.blockId) r = some (rest, ops, proof)) {file : Bytes}
    (hmem : .rename b file ∈ ops) : Holds (cert b) (some file) := by
  obtain ⟨-, -, ⟨rfl | rfl, -⟩ | ⟨-, file', hfile, ⟨rfl, -⟩ | rfl⟩⟩ := writeBlock_cases h
  · simp at hmem
  · simp at hmem
  all_goals
    obtain ⟨rfl, rfl⟩ : b = r.blockId ∧ file = file' := by simpa using hmem
    exact hfile

theorem Sound.serve (h : Sound dirOf cert s) {e : WriteEvent} (hok : DirDurable dirOf s e)
    (hserve : serve dirOf cert s e = some s') : Sound dirOf cert s' := by
  cases e with
  | request =>
    obtain ⟨⟨rest, ops, proof⟩, hwrite, rfl⟩ := map_eq_some_iff.1 hserve
    have hops := h.ops fun b file => holds_of_rename_mem hwrite
    refine ⟨hops.files, fun b hb => ?_⟩
    by_cases hproof : proof = true
    · rcases mem_cons.1 (by simpa [hproof] using hb) with rfl | hb
      · obtain ⟨-, -, ⟨-, hnot⟩ | ⟨-, file, hfile, ⟨-, hnot⟩ | rfl⟩⟩ := writeBlock_cases hwrite
        · exact absurd (hnot.symm.trans hproof) (by simp)
        · exact absurd (hnot.symm.trans hproof) (by simp)
        · exact ⟨Disk.dirs_foldl hok _, by simpa [Disk.apply, Durable.sync] using hfile⟩
      · exact hops.proofs b hb
    · exact hops.proofs b (by simpa [hproof] using hb)
  | crash r done dirAge fileAge =>
    obtain rfl := some.inj hserve
    refine Sound.crash (s := ⟨_, _⟩) (h.ops fun b file hmem => ?_) dirAge fileAge
    cases hwrite : writeBlock dirOf (cert r.blockId) r with
    | none => simp [hwrite] at hmem
    | some result =>
      obtain ⟨rest, ops, proof⟩ := result
      exact holds_of_rename_mem hwrite (mem_of_mem_take (by simpa [hwrite] using hmem))

/-! ## Proofs mean durable blocks -/

/-- In every run of requests and crashes in which the sub-directory of the block is durable when a
request is served, a block with a proof is at its path, now and after every crash, and holds what
its certificate says.  Every request that does not lose its connection consumes exactly the body,
and one that does not match has no proof and leaves the path as it is. -/
theorem writeBlock_proof_durable {disk : Disk} {events : List WriteEvent}
    (hdisk : ∀ b, (disk.files b).All fun file => file = none ∨ Holds (cert b) file)
    (hok : RunMeets (serve dirOf cert) (DirDurable dirOf) ⟨disk, []⟩ events)
    (hrun : run (serve dirOf cert) ⟨disk, []⟩ events = some s) :
    (∀ b ∈ s.proofs, (s.disk.dirs (dirOf b)).Settled true ∧ (s.disk.files b).All (Holds (cert b))) ∧
    ∀ r rest ops proof, writeBlock dirOf (cert r.blockId) r = some (rest, ops, proof) →
      (cert r.blockId).size ≤ r.stream.length ∧ rest = r.stream.drop (cert r.blockId).size ∧
        (¬ Matches (cert r.blockId) r.stream → proof = false ∧
            ∀ disk b, (ops.foldl (Disk.apply dirOf) disk).files b = disk.files b) := by
  have h0 : Sound dirOf cert ⟨disk, []⟩ := ⟨hdisk, by simp⟩
  have h := run_invariant (fun s e s' h hok hserve => h.serve hok hserve) h0 hok hrun
  refine ⟨h.proofs, fun r rest ops proof hwrite => ?_⟩
  obtain ⟨hle, hrest, hcases⟩ := writeBlock_cases hwrite
  refine ⟨hle, hrest, fun hnot => ?_⟩
  obtain ⟨rfl | rfl, hproof⟩ := hcases.resolve_right fun hmatch => hnot hmatch.1
  · exact ⟨hproof, fun _ _ => rfl⟩
  · exact ⟨hproof, fun _ _ => rfl⟩

/-- The id of a block is the time at which it was allocated. -/
def sampleBlock : ℕ := 1794000000000000000

/-- The certificate of a page of zeros. -/
def sampleCert : Cert := ⟨4096, 0x98f94189⟩

/-- The page is written, and comes in two reads. -/
def sampleWrite : Request :=
  ⟨sampleBlock, replicate 4096 0, fun b hb => eq_of_mem_replicate hb ▸ by decide,
    [some 1000, some 4096], none⟩

/-- A disk without files, where every sub-directory is there or none. -/
def sampleDisk (dir : Bool) : Disk := ⟨fun _ => .synced dir, fun _ => .synced none⟩

/-- The block is written, and the host crashes. -/
def sampleWrites : List WriteEvent :=
  [.request sampleWrite, .crash sampleWrite 0 (fun _ => 1) fun _ => 1]

set_option maxRecDepth 20000 in
theorem writeBlock_proof_durable_sample : ∃ s,
    run (serve (· % 256) fun _ => sampleCert) ⟨sampleDisk true, []⟩ sampleWrites = some s ∧
      sampleBlock ∈ s.proofs ∧ (s.disk.files sampleBlock).All (Holds sampleCert) := by
  refine exists_eq_some_imp (fun s hrun (h : sampleBlock ∈ s.proofs) => ⟨h, ?_⟩)
    (by decide +kernel)
  have hdurable := writeBlock_proof_durable
    (fun b => Durable.all_synced.2 (.inl rfl)) (by decide +kernel) hrun
  exact (hdurable.1 sampleBlock h).2

set_option maxRecDepth 20000 in
/-- A proof for a block that is lost: the sub-directory is made for it, and only the sub-directory
itself is synced. -/
theorem writeBlock_proof_lost : ∃ s,
    run (serve (· % 256) fun _ => sampleCert) ⟨sampleDisk false, []⟩ sampleWrites = some s ∧
      sampleBlock ∈ s.proofs ∧ (s.disk.dirs (sampleBlock % 256)).now = false ∧
      (s.disk.files sampleBlock).now = none := by
  decide +kernel

end TernFS.BlockService
