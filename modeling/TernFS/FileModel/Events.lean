/-
# Files, spans and the index as an abstract machine

What a log entry can do to the files of a shard, with everything that does not matter to
their contents left out: times, deadlines, notes, directories and edges.  A file is linked or
transient; it has a size, and, while it is transient, a state for its last span.  The index
counts blocks by block service and file, modulo the width of its counters.

Every log entry is one event of this machine (`TernFS.Shard.FileEvents`); the invariants of
files, spans and the index are then statements about fourteen events.
-/
import TernFS.Shard.Data
import Mathlib.Algebra.Group.Pi.Basic
import Mathlib.Data.Int.ModEq
import Mathlib.Logic.Function.Basic

namespace TernFS

open Lib Function SortedStore

/-- The files of a shard, as far as their contents are concerned. -/
structure FileView where
  /-- The sizes of the linked files. -/
  linked : InodeId → Option ℕ
  /-- The sizes of the transient files, and the states of their last spans. -/
  transient : InodeId → Option (ℕ × SpanState)
  /-- The spans of all files. -/
  spans : SortedStore SpanKey SpanBody
  /-- The counters of blocks, by block service and file. -/
  index : ℕ → InodeId → ℤ
  /-- The last id given to a file. -/
  nextFileId : InodeId
  /-- The last id given to a symlink. -/
  nextSymlinkId : InodeId

/-- The sizes of linked files. -/
def linkedView (files : SortedStore InodeId FileBody) : InodeId → Option ℕ := fun f =>
  (files.get f).map FileBody.fileSize

/-- The sizes and states of transient files. -/
def transientView (files : SortedStore InodeId TransientFileBody) :
    InodeId → Option (ℕ × SpanState) := fun f =>
  (files.get f).map fun t => (t.fileSize, t.lastSpanState)

/-- The counters of the index; a missing one reads as zero. -/
def indexView (index : SortedStore BlockServiceToFileKey ℤ) : ℕ → InodeId → ℤ := fun b f =>
  (index.get ⟨b, f⟩).getD 0

/-- The files in a database. -/
def ShardDB.fileView (db : ShardDB) : FileView where
  linked := linkedView db.files
  transient := transientView db.transientFiles
  spans := db.spans
  index := indexView db.blockServicesToFiles
  nextFileId := db.nextFileId
  nextSymlinkId := db.nextSymlinkId

/-- The files in a database, and the last block id given out. -/
def ShardDB.fileSide (db : ShardDB) : FileView × ℕ := (db.fileView, db.nextBlockId)

lemma ShardDB.fileView_eq_of_fileSide {db db' : ShardDB} (h : db'.fileSide = db.fileSide) :
    db'.fileView = db.fileView :=
  congrArg Prod.fst h

lemma linkedView_put (files : SortedStore InodeId FileBody) (f : InodeId) (body : FileBody) :
    linkedView (files.put f body) = update (linkedView files) f (some body.fileSize) :=
  map_get_put _ files f body

lemma linkedView_delete (files : SortedStore InodeId FileBody) (f : InodeId) :
    linkedView (files.delete f) = update (linkedView files) f none :=
  map_get_delete _ files f

lemma transientView_put (files : SortedStore InodeId TransientFileBody) (f : InodeId)
    (body : TransientFileBody) :
    transientView (files.put f body) =
      update (transientView files) f (some (body.fileSize, body.lastSpanState)) :=
  map_get_put _ files f body

lemma transientView_delete (files : SortedStore InodeId TransientFileBody) (f : InodeId) :
    transientView (files.delete f) = update (transientView files) f none :=
  map_get_delete _ files f

/-- The number of blocks of a list on each block service, as counts of the file `f`. -/
def blockCounts (blocks : List BlockBody) (f : InodeId) : ℕ → InodeId → ℤ := fun b f' =>
  if f' = f then blocks.countP fun block => block.blockService = b else 0

/-- The value fits a 64-bit counter. -/
def FitsI64 (x : ℤ) : Prop := -2 ^ 63 ≤ x ∧ x < 2 ^ 63

/-- The counters change by `delta`, modulo `2 ^ 64`, and stay in range. -/
def Posted (index index' delta : ℕ → InodeId → ℤ) : Prop :=
  ∀ b f, index' b f ≡ index b f + delta b f [ZMOD 2 ^ 64] ∧
    (FitsI64 (index b f) → FitsI64 (index' b f))

namespace Posted

variable {index index' index'' delta delta' : ℕ → InodeId → ℤ}

protected lemma refl (index : ℕ → InodeId → ℤ) : Posted index index 0 := fun b f =>
  ⟨by simp, id⟩

protected lemma trans (h : Posted index index' delta) (h' : Posted index' index'' delta') :
    Posted index index'' (delta + delta') := fun b f => by
  refine ⟨?_, fun hfit => (h' b f).2 ((h b f).2 hfit)⟩
  calc index'' b f ≡ index' b f + delta' b f [ZMOD 2 ^ 64] := (h' b f).1
    _ ≡ index b f + delta b f + delta' b f [ZMOD 2 ^ 64] := (h b f).1.add_right _
    _ = index b f + (delta + delta') b f := by simp [add_assoc]

lemma congr (h : Posted index index' delta) (hd : delta = delta') : Posted index index' delta' :=
  hd ▸ h

end Posted

namespace FileView

variable (v : FileView)

/-- The state of the span of `f` that ends at `spanEnd`, as the code reads it. -/
def spanStateAt (f : InodeId) (spanEnd : ℕ) : SpanState :=
  match v.linked f, v.transient f with
  | some _, _ => .clean
  | none, some (n, state) => if spanEnd = n then state else .clean
  | none, none => .clean

end FileView

/-- What can happen to the files of a shard. -/
inductive FileEvent
  /-- Nothing that concerns the contents of files. -/
  | quiet
  /-- An empty transient file is created. -/
  | construct (f : InodeId)
  /-- A transient file becomes a linked one. -/
  | link (f : InodeId)
  /-- A linked file becomes a transient one. -/
  | unlink (f : InodeId)
  /-- A transient file without spans is removed. -/
  | remove (f : InodeId)
  /-- A span is added at the end of a transient file. -/
  | append (f : InodeId) (offset : ℕ) (span : SpanBody)
  /-- The blocks of the last span have been written. -/
  | certify (f : InodeId)
  /-- The last span is about to be removed. -/
  | condemn (f : InodeId)
  /-- The last span, an inline one, is removed. -/
  | dropInline (f : InodeId) (offset : ℕ)
  /-- A span of blocks is removed, its blocks having been erased. -/
  | dropBlocks (f : InodeId) (offset : ℕ)
  /-- Two spans exchange a block. -/
  | swapBlocks (k₁ k₂ : SpanKey)
  /-- Two spans exchange all their blocks. -/
  | swapSpans (k₁ k₂ : SpanKey)
  /-- The last span of a transient file moves to the end of another. -/
  | move (k₁ k₂ : SpanKey)
  /-- The blocks of a span of a transient file become a location of a span of a linked one. -/
  | addLocation (source destination : SpanKey)

variable {v : FileView}

/-- How each event changes the files. -/
inductive FileStep (v : FileView) : FileEvent → FileView → Prop
  | quiet : FileStep v .quiet v
  | constructFile {f : InodeId} (hf : f.u64 = addU64 v.nextFileId.u64 0x100) (hvalid : f.Valid) :
    FileStep v (.construct f)
      { v with nextFileId := f, transient := update v.transient f (some (0, .clean)) }
  | constructSymlink {f : InodeId} (hf : f.u64 = addU64 v.nextSymlinkId.u64 0x100)
      (hvalid : f.Valid) :
    FileStep v (.construct f)
      { v with nextSymlinkId := f, transient := update v.transient f (some (0, .clean)) }
  | link {f : InodeId} {n : ℕ} (hf : v.transient f = some (n, .clean)) :
    FileStep v (.link f) { v with
        linked := update v.linked f (some n)
        transient := update v.transient f none }
  | unlink {f : InodeId} {n : ℕ} (hf : v.linked f = some n) :
    FileStep v (.unlink f) { v with
        linked := update v.linked f none
        transient := update v.transient f (some (n, .clean)) }
  | remove {f : InodeId} (hspans : ∀ o, v.spans.get ⟨f, o⟩ = none) :
    FileStep v (.remove f) { v with transient := update v.transient f none }
  | append {f : InodeId} {offset : ℕ} {span : SpanBody} {index' : ℕ → InodeId → ℤ}
      (hf : v.transient f = some (offset, .clean))
      (hindex : Posted v.index index' (blockCounts span.blocks f)) :
    FileStep v (.append f offset span) { v with
        transient := update v.transient f
          (some (addU64 offset span.spanSize, if span.IsInlineStorage then .clean else .dirty))
        spans := v.spans.put ⟨f, offset⟩ span
        index := index' }
  | certify {f : InodeId} {n : ℕ} (hf : v.transient f = some (n, .dirty)) :
    FileStep v (.certify f) { v with transient := update v.transient f (some (n, .clean)) }
  | condemn {f : InodeId} {n : ℕ} {state : SpanState} {key : SpanKey} {span : SpanBody}
      (hf : v.transient f = some (n, state)) (hlast : v.spans.seekForPrev ⟨f, n⟩ = some (key, span))
      (hkey : key.fileId = f) (hblocks : ¬ span.IsInlineStorage) :
    FileStep v (.condemn f) { v with transient := update v.transient f (some (n, .condemned)) }
  | dropInline {f : InodeId} {n offset : ℕ} {state : SpanState} {span : SpanBody}
      (hf : v.transient f = some (n, state)) (hn : n ≠ 0)
      (hlast : v.spans.seekForPrev ⟨f, n⟩ = some (⟨f, offset⟩, span))
      (hinline : span.IsInlineStorage) :
    FileStep v (.dropInline f offset) { v with
        transient := update v.transient f (some (offset, state))
        spans := v.spans.delete ⟨f, offset⟩ }
  | dropBlocks {f : InodeId} {n offset : ℕ} {span : SpanBody} {index' : ℕ → InodeId → ℤ}
      (hf : v.transient f = some (n, .condemned)) (hspan : v.spans.get ⟨f, offset⟩ = some span)
      (hblocks : ¬ span.IsInlineStorage)
      (hindex : Posted v.index index' (-blockCounts span.blocks f)) :
    FileStep v (.dropBlocks f offset) { v with
        transient := update v.transient f (some (offset, .clean))
        spans := v.spans.delete ⟨f, offset⟩
        index := index' }
  | swapBlocks {k₁ k₂ : SpanKey} {s₁ s₂ s₁' s₂' : SpanBody} {b₁ b₂ : BlockBody}
      {r₁ r₂ : List BlockBody} {index' : ℕ → InodeId → ℤ} (hne : k₁.fileId ≠ k₂.fileId)
      (hk₁ : v.spans.get k₁ = some s₁) (hk₂ : v.spans.get k₂ = some s₂)
      (hsize₁ : s₁'.spanSize = s₁.spanSize) (hsize₂ : s₂'.spanSize = s₂.spanSize)
      (hblocks₁ : s₁.blocks.Perm (b₁ :: r₁)) (hblocks₂ : s₂.blocks.Perm (b₂ :: r₂))
      (hblocks₁' : s₁'.blocks.Perm (b₂ :: r₁)) (hblocks₂' : s₂'.blocks.Perm (b₁ :: r₂))
      (hstate : v.spanStateAt k₁.fileId (addU64 k₁.offset s₁.size) =
        v.spanStateAt k₂.fileId (addU64 k₂.offset s₂.size))
      (hindex : Posted v.index index' (blockCounts [b₂] k₁.fileId - blockCounts [b₁] k₁.fileId +
          (blockCounts [b₁] k₂.fileId - blockCounts [b₂] k₂.fileId))) :
    FileStep v (.swapBlocks k₁ k₂)
      { v with spans := (v.spans.put k₁ s₁').put k₂ s₂', index := index' }
  | swapSpans {k₁ k₂ : SpanKey} {s₁ s₂ : SpanBody} {index' : ℕ → InodeId → ℤ}
      (hne : k₁.fileId ≠ k₂.fileId)
      (hk₁ : v.spans.get k₁ = some s₁) (hk₂ : v.spans.get k₂ = some s₂)
      (hsize : s₁.spanSize = s₂.spanSize)
      (hstate₁ : v.spanStateAt k₁.fileId (addU64 k₁.offset s₁.size) = .clean)
      (hstate₂ : v.spanStateAt k₂.fileId (addU64 k₂.offset s₂.size) = .clean)
      (hindex : Posted v.index index'
        (blockCounts s₁.blocks k₂.fileId - blockCounts s₁.blocks k₁.fileId +
          (blockCounts s₂.blocks k₁.fileId - blockCounts s₂.blocks k₂.fileId))) :
    FileStep v (.swapSpans k₁ k₂) { v with spans := (v.spans.put k₁ s₂).put k₂ s₁, index := index' }
  | move {k₁ k₂ : SpanKey} {n : ℕ} {span : SpanBody} {index' : ℕ → InodeId → ℤ}
      (hk₁ : v.spans.get k₁ = some span)
      (hn : n = addU64 k₁.offset span.spanSize)
      (hf₁ : v.transient k₁.fileId = some (n, .dirty))
      (hf₂ : v.transient k₂.fileId = some (k₂.offset, .clean))
      (hindex : Posted v.index index'
        (blockCounts span.blocks k₂.fileId - blockCounts span.blocks k₁.fileId)) :
    FileStep v (.move k₁ k₂) { v with
        transient :=
          update (update v.transient k₁.fileId (some (subU64 n span.spanSize, .clean))) k₂.fileId
            (some (addU64 k₂.offset span.spanSize, .dirty))
        spans := (v.spans.delete k₁).put k₂ span
        index := index' }
  | addLocation {k₁ k₂ : SpanKey} {n m : ℕ} {source destination destination' : SpanBody}
      {index' : ℕ → InodeId → ℤ} (hne : k₁.fileId ≠ k₂.fileId)
      (hk₁ : v.spans.get k₁ = some source) (hk₂ : v.spans.get k₂ = some destination)
      (hf₁ : v.transient k₁.fileId = some (n, .clean)) (hf₂ : v.linked k₂.fileId = some m)
      (hsize : destination'.spanSize = destination.spanSize)
      (hblocks : destination'.blocks = destination.blocks ++ source.blocks)
      (hindex : Posted v.index index'
        (blockCounts source.blocks k₂.fileId - blockCounts source.blocks k₁.fileId)) :
    FileStep v (.addLocation k₁ k₂) { v with
        transient :=
          update v.transient k₁.fileId (some (subU64 n source.spanSize, .clean))
        spans := (v.spans.put k₂ destination').delete k₁
        index := index' }

/-- A file becomes linked by being linked, from being transient. -/
lemma FileStep.transient_of_linked {ev : FileEvent} {v' : FileView} {f : InodeId}
    (h : FileStep v ev v') (hf : v.linked f = none) (hf' : v'.linked f ≠ none) :
    ev = .link f ∧ v.transient f ≠ none := by
  cases h with
  | @link g n hg =>
    by_cases hgf : f = g
    · subst hgf
      exact ⟨rfl, by simp [hg]⟩
    · exact absurd (update_of_ne hgf .. |>.trans hf) hf'
  | @unlink g =>
    by_cases hgf : f = g
    · subst hgf
      exact absurd (update_self ..) hf'
    · exact absurd (update_of_ne hgf .. |>.trans hf) hf'
  | _ => exact absurd hf hf'

end TernFS
