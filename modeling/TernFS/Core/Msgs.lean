/-
# Basic message types

The identifiers and small types that the shards, the cross-directory coordinator and the
clients exchange (`core/Msgs.hpp`, `core/MsgsGen.hpp`).  Machine words are natural numbers;
where an operation of the code can wrap, the reduction is written out.
-/
import TernFS.Lib.Checked
import Mathlib.Order.Lattice
import Mathlib.Order.Basic
import Mathlib.Order.Lattice.Nat

namespace TernFS

open Lib

variable {c : Prop} {e : TernError}

/-- `a + b` on 64-bit words. -/
def addU64 (a b : ℕ) : ℕ := (a + b) % 2 ^ 64

/-- `a - b` on 64-bit words. -/
def subU64 (a b : ℕ) : ℕ := (a + 2 ^ 64 - b % 2 ^ 64) % 2 ^ 64

lemma addU64_of_lt {a b : ℕ} (h : a + b < 2 ^ 64) : addU64 a b = a + b :=
  Nat.mod_eq_of_lt h

lemma subU64_of_le {a b : ℕ} (ha : a < 2 ^ 64) (h : b ≤ a) : subU64 a b = a - b := by
  unfold subU64
  omega

/-! ## Errors -/

/-- The errors a request can be answered with (`TernError`, without `NO_ERROR`). -/
inductive TernError
  | internalError | fatalError | timeout | malformedRequest | malformedResponse | notAuthorised
  | unrecognizedRequest | fileNotFound | directoryNotFound | nameNotFound | edgeNotFound
  | edgeIsLocked | typeIsDirectory | typeIsNotDirectory | badCookie
  | inconsistentStorageClassParity | lastSpanStateNotClean | couldNotPickBlockServices
  | badSpanBody | spanNotFound | blockServiceNotFound | cannotCertifyBlocklessSpan
  | badNumberOfBlocksProofs | badBlockProof | cannotOverrideName | nameIsLocked
  | mtimeIsTooRecent | mismatchingTarget | mismatchingOwner | mismatchingCreationTime
  | directoryNotEmpty | fileIsTransient | oldDirectoryNotFound | newDirectoryNotFound
  | loopInDirectoryRename | directoryHasOwner | fileIsNotTransient | fileNotEmpty
  | cannotRemoveRootDirectory | fileEmpty | cannotRemoveDirtySpan | badShard | badName
  | moreRecentSnapshotEdge | moreRecentCurrentEdge | badDirectoryInfo | deadlineNotPassed
  | sameSourceAndDestination | sameDirectories | sameShard | badProtocolVersion | badCertificate
  | blockTooRecentForDeletion | blockFetchOutOfBounds | badBlockCrc | blockTooBig | blockNotFound
  | cannotUnsetDecommissioned | cannotRegisterDecommissionedOrStale | blockTooOldForWrite
  | blockIoErrorDevice | blockIoErrorFile | invalidReplica | differentAddrsInfo | leaderPreempted
  | logEntryMissing | logEntryTrimmed | logEntryUnreleased | logEntryReleased
  | autoDecommissionForbidden | inconsistentBlockServiceRegistration | swapBlocksInlineStorage
  | swapBlocksMismatchingSize | swapBlocksMismatchingState | swapBlocksMismatchingCrc
  | swapBlocksDuplicateBlockService | swapSpansInlineStorage | swapSpansMismatchingSize
  | swapSpansNotClean | swapSpansMismatchingCrc | swapSpansMismatchingBlocks | edgeNotOwned
  | cannotCreateDbSnapshot | blockSizeNotMultipleOfPageSize | swapBlocksDuplicateFailureDomain
  | transientLocationCount | addSpanLocationInlineStorage | addSpanLocationMismatchingSize
  | addSpanLocationNotClean | addSpanLocationMismatchingCrc | addSpanLocationExists
  | swapBlocksMismatchingLocation | locationExists | locationNotFound
  | autoDecommissionRateLimited | registryOverloaded | shardsNotReady | cdcNotReady
deriving DecidableEq

/-- How a computation on replicated state can stop: with an error that is returned to the
client, or with a failed `ALWAYS_ASSERT` (or another uncaught exception), which takes the
process down before anything is written. -/
inductive Failure
  | err (e : TernError)
  | crash
deriving DecidableEq

/-- The result of a computation that can fail. -/
abbrev Checked (α : Type) := Except Failure α

/-- Return the error `e` unless the condition holds. -/
def check (c : Prop) [Decidable c] (e : TernError) : Checked PUnit := ensure c (.err e)

/-- `ALWAYS_ASSERT`. -/
def assert (c : Prop) [Decidable c] : Checked PUnit := ensure c .crash

@[simp] lemma check_eq_ok [Decidable c] {u : PUnit} :
    check c e = .ok u ↔ c := ensure_eq_ok

lemma check_of [Decidable c] (h : c) : check c e = .ok ⟨⟩ := ensure_of h

lemma check_of_not [Decidable c] (h : ¬ c) : check c e = .error (.err e) := ensure_of_not h

@[simp] lemma assert_eq_ok [Decidable c] {u : PUnit} : assert c = .ok u ↔ c :=
  ensure_eq_ok

@[simp] lemma failsOnly_check {P : Failure → Prop} [Decidable c] :
    FailsOnly P (check c e) ↔ (¬ c → P (.err e)) := failsOnly_ensure

@[simp] lemma failsOnly_assert {P : Failure → Prop} [Decidable c] :
    FailsOnly P (assert c) ↔ (¬ c → P .crash) := failsOnly_ensure

/-! ## Inode ids -/

/-- The type bits of an inode id. -/
inductive InodeType
  | reserved | directory | file | symlink
deriving DecidableEq, Repr

/-- An inode id, a 64-bit word: the type in bits 61 and 62, the number of the inode in bits
8 to 60 and the shard that holds it in the low byte.  Bit 63 is not interpreted. -/
structure InodeId where
  /-- The word. -/
  u64 : ℕ
deriving DecidableEq, Repr

namespace InodeId

instance : LinearOrder InodeId := LinearOrder.lift' InodeId.u64 fun a b h => by
  cases a
  cases b
  simpa using h

lemma lt_def {a b : InodeId} : a < b ↔ a.u64 < b.u64 := Iff.rfl

/-- `InodeId::type`. -/
def type (x : InodeId) : InodeType :=
  match x.u64 / 2 ^ 61 % 4 with
  | 1 => .directory
  | 2 => .file
  | 3 => .symlink
  | _ => .reserved

/-- `InodeId::id`. -/
def id (x : InodeId) : ℕ := x.u64 % 2 ^ 61 / 2 ^ 8

/-- `InodeId::shard`. -/
def shard (x : InodeId) : ℕ := x.u64 % 2 ^ 8

/-- `NULL_INODE_ID`. -/
def null : InodeId := ⟨0⟩

/-- `InodeId::valid`. -/
def Valid (x : InodeId) : Prop := x = null ∨ x.id < 2 ^ 53 - 1 ∧ x.type ≠ .reserved

instance (x : InodeId) : Decidable x.Valid := inferInstanceAs (Decidable (_ ∨ _))

/-- The word of an inode type. -/
def typeBits : InodeType → ℕ
  | .reserved => 0
  | .directory => 1
  | .file => 2
  | .symlink => 3

/-- The constructor `InodeId(type, shard, id)`, for arguments in range. -/
def of (type : InodeType) (shard id : ℕ) : InodeId := ⟨typeBits type * 2 ^ 61 + id * 2 ^ 8 + shard⟩

/-- `ROOT_DIR_INODE_ID`. -/
def rootDir : InodeId := of .directory 0 0

/-- The id without bit 63, the part that edge keys and edge bodies keep. -/
def masked (x : InodeId) : InodeId := ⟨x.u64 % 2 ^ 63⟩

lemma masked_of_lt {x : InodeId} (h : x.u64 < 2 ^ 63) : x.masked = x := by
  cases x
  simpa [masked] using h

end InodeId

/-- `InodeIdExtra`: an inode id with one more bit, kept in bit 63 of the word.  An id that
has bit 63 set already makes the extra bit true. -/
structure InodeIdExtra where
  /-- The id, without bit 63. -/
  id : InodeId
  /-- The extra bit. -/
  extra : Bool
  id_lt : id.u64 < 2 ^ 63
deriving DecidableEq, Repr

namespace InodeIdExtra

/-- The constructor `InodeIdExtra(id, extra)`. -/
def of (id : InodeId) (extra : Bool) : InodeIdExtra :=
  ⟨id.masked, extra || decide (2 ^ 63 ≤ id.u64 % 2 ^ 64), Nat.mod_lt _ (by omega)⟩

lemma of_id_of_lt {id : InodeId} (h : id.u64 < 2 ^ 63) (extra : Bool) : (of id extra).id = id :=
  InodeId.masked_of_lt h

lemma of_extra_of_lt {id : InodeId} (h : id.u64 < 2 ^ 63) (extra : Bool) :
    (of id extra).extra = extra := by
  have hmod : ¬ 2 ^ 63 ≤ id.u64 % 2 ^ 64 := by omega
  change (extra || decide _) = extra
  rw [decide_eq_false hmod, Bool.or_false]

end InodeIdExtra

/-! ## Parity and storage classes -/

/-- `Parity`: the number of data blocks in the low half of the byte, that of parity blocks in
the high half. -/
structure Parity where
  /-- The byte. -/
  u8 : ℕ
deriving DecidableEq, Repr

namespace Parity

/-- `Parity::dataBlocks`. -/
def dataBlocks (p : Parity) : ℕ := p.u8 % 16

/-- `Parity::parityBlocks`. -/
def parityBlocks (p : Parity) : ℕ := p.u8 / 16 % 16

/-- `Parity::blocks`. -/
def blocks (p : Parity) : ℕ := p.dataBlocks + p.parityBlocks

/-- `Parity::valid`. -/
def Valid (p : Parity) : Prop :=
  p.dataBlocks ≠ 0 ∧ p.dataBlocks ≤ 10 ∧ p.parityBlocks ≤ 6 ∧
    (p.dataBlocks = 1 ∨ p.parityBlocks ≠ 0)

instance (p : Parity) : Decidable p.Valid := inferInstanceAs (Decidable (_ ∧ _))

end Parity

/-- `EMPTY_STORAGE`. -/
def emptyStorage : ℕ := 0

/-- `INLINE_STORAGE`. -/
def inlineStorage : ℕ := 1

/-- `DEFAULT_LOCATION`. -/
def defaultLocation : ℕ := 0

/-- `MAX_STRIPES`. -/
def maxStripes : ℕ := 16

/-- `MAXIMUM_SPAN_SIZE`. -/
def maximumSpanSize : ℕ := 100 * 2 ^ 20

/-- `TERNFS_PAGE_SIZE`. -/
def ternfsPageSize : ℕ := 4096

/-- A name or another byte string. -/
abbrev Bytes := List ℕ

/-- `BincodeBytes::operator==`: the lengths are the same and `strncmp`, which stops at the first
zero byte, finds no difference. -/
def SameBytes (a b : Bytes) : Prop :=
  a.length = b.length ∧ a.takeWhile (· ≠ 0) = b.takeWhile (· ≠ 0)

instance (a b : Bytes) : Decidable (SameBytes a b) := inferInstanceAs (Decidable (_ ∧ _))

lemma SameBytes.refl (a : Bytes) : SameBytes a a := ⟨rfl, rfl⟩

end TernFS
