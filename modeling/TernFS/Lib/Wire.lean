/-
# Unpacking messages from a buffer

Messages are described by a grammar: little-endian words, byte strings, lists with a length in
front, records, and records whose first field says what follows.  `Format.unpack` reads a message of
a format from memory.  It moves a cursor towards the end of the buffer, checks before each read that
enough bytes are left, and fails with an exception if they are not.  Some words are checked after
they have been read, and such a check can also end in a failed assertion.

The results, for every format and every content of the memory: nothing outside the buffer is read,
the cursor ends up behind the bytes of the value, and unpacking fails an assertion exactly if a word
that it gets to does.
-/
import TernFS.Lib.Checked
import Mathlib.Data.Nat.Digits.Defs

namespace TernFS.Lib

open List

variable {n width a : ℕ}

/-- How unpacking can fail. -/
inductive UnpackError
  | exception
  | assertion
deriving DecidableEq

/-- The bytes at all addresses. -/
abbrev Memory := ℕ → ℕ

/-- The bytes from an address on. -/
def Memory.bytes (mem : Memory) (addr n : ℕ) : List ℕ := (range n).map fun i => mem (addr + i)

/-- A little-endian word. -/
def Memory.word (mem : Memory) (addr width : ℕ) : ℕ := Nat.ofDigits 256 (mem.bytes addr width)

/-- The grammar of messages, over the kinds `κ` of words that are checked. -/
inductive Format (κ : Type)
  /-- A word that can have any value. -/
  | scalar (width : ℕ)
  /-- A word with a check. -/
  | checked (width : ℕ) (kind : κ)
  /-- A given number of bytes. -/
  | fixed (n : ℕ)
  /-- Up to 255 bytes, after their number. -/
  | bytes
  /-- A list, after its length. -/
  | list (lenWidth : ℕ) (elem : Format κ)
  /-- Fields, with their names. -/
  | record (fields : List (String × Format κ))
  /-- A header whose tag chooses what follows, if anything can follow it. -/
  | tagged (header : Format κ) (choose : ℕ → Option ℕ) (alternatives : List (Format κ))

/-- What a message holds. -/
inductive Value
  | word (width x : ℕ)
  | fixed (bs : List ℕ)
  | bytes (bs : List ℕ)
  | list (lenWidth : ℕ) (vs : List Value)
  | record (vs : List Value)

namespace Value

/-- The tag of a header: a single word, or the last field of a record. -/
def tag : Value → ℕ
  | word _ x => x
  | record vs =>
    match vs.getLast? with
    | some (word _ x) => x
    | _ => 0
  | _ => 0

mutual

/-- The number of bytes of a value. -/
def packedSize : Value → ℕ
  | word width _ => width
  | fixed bs => bs.length
  | bytes bs => 1 + bs.length
  | list lenWidth vs => lenWidth + packedSizes vs
  | record vs => packedSizes vs

def packedSizes : List Value → ℕ
  | [] => 0
  | v :: vs => packedSize v + packedSizes vs

end

end Value

namespace Format

variable {κ : Type}

mutual

/-- The least number of bytes of a value of the format. -/
def minSize : Format κ → ℕ
  | scalar width | checked width _ => width
  | fixed n => n
  | bytes => 1
  | list lenWidth _ => lenWidth
  | record fields => minSizes fields
  | tagged header _ _ => minSize header

def minSizes : List (String × Format κ) → ℕ
  | [] => 0
  | (_, f) :: fields => minSize f + minSizes fields

end

end Format

/-! ## Unpacking -/

section

variable (mem : Memory) (fin : ℕ)

/-- Go on if there are enough bytes between the cursor and the end. -/
def ensureSize (cursor n : ℕ) : Except UnpackError PUnit := ensure (n ≤ fin - cursor) .exception

/-- Read a word. -/
def unpackScalar (width cursor : ℕ) : Except UnpackError (ℕ × ℕ) := do
  ensureSize fin cursor width
  return (mem.word cursor width, cursor + width)

/-- Unpack a number of values, one after the other. -/
def unpackTimes (unpack : ℕ → Except UnpackError (Value × ℕ)) :
    ℕ → ℕ → Except UnpackError (List Value × ℕ)
  | 0, cursor => return ([], cursor)
  | n + 1, cursor => do
    let (v, cursor) ← unpack cursor
    let (vs, cursor) ← unpackTimes unpack n cursor
    return (v :: vs, cursor)

variable {κ : Type} (judge : κ → ℕ → Except UnpackError PUnit)

namespace Format

mutual

/-- Unpack a value of the format; the result has the new cursor. -/
def unpack : Format κ → ℕ → Except UnpackError (Value × ℕ)
  | scalar width, cursor => do
    let (x, cursor) ← unpackScalar mem fin width cursor
    return (.word width x, cursor)
  | checked width kind, cursor => do
    let (x, cursor) ← unpackScalar mem fin width cursor
    judge kind x
    return (.word width x, cursor)
  | fixed n, cursor => do
    ensureSize fin cursor n
    return (.fixed (mem.bytes cursor n), cursor + n)
  | bytes, cursor => do
    let (n, cursor) ← unpackScalar mem fin 1 cursor
    ensureSize fin cursor n
    return (.bytes (mem.bytes cursor n), cursor + n)
  | list lenWidth elem, cursor => do
    let (count, cursor) ← unpackScalar mem fin lenWidth cursor
    ensure (count ≤ (fin - cursor) / elem.minSize) .exception
    match elem with
    | scalar width =>
      -- copied at once
      return (.list lenWidth ((range count).map fun i =>
        .word width (mem.word (cursor + width * i) width)), cursor + width * count)
    | elem =>
      let (vs, cursor) ← unpackTimes (unpack elem) count cursor
      return (.list lenWidth vs, cursor)
  | record fields, cursor => do
    let (vs, cursor) ← unpackFields fields cursor
    return (.record vs, cursor)
  | tagged header choose alternatives, cursor => do
    let (v, cursor) ← unpack header cursor
    let i ← orFail .exception (choose v.tag)
    let (body, cursor) ← unpackNth alternatives i cursor
    return (.record [v, body], cursor)

def unpackFields : List (String × Format κ) → ℕ → Except UnpackError (List Value × ℕ)
  | [], cursor => return ([], cursor)
  | (_, f) :: fields, cursor => do
    let (v, cursor) ← unpack f cursor
    let (vs, cursor) ← unpackFields fields cursor
    return (v :: vs, cursor)

def unpackNth : List (Format κ) → ℕ → ℕ → Except UnpackError (Value × ℕ)
  | [], _, _ => .error .exception
  | f :: _, 0, cursor => unpack f cursor
  | _ :: alternatives, i + 1, cursor => unpackNth alternatives i cursor

end

end Format

/-! ## The words that are checked -/

/-- Go on after a successful part. -/
def afterOk {α β : Type} (r : Except UnpackError (α × ℕ)) (next : α → ℕ → List β) : List β :=
  match r with
  | .ok (a, cursor) => next a cursor
  | .error _ => []

/-- The words that are checked while a number of values is unpacked. -/
def wordsTimes (unpack : ℕ → Except UnpackError (Value × ℕ)) (words : ℕ → List (κ × ℕ)) :
    ℕ → ℕ → List (κ × ℕ)
  | 0, _ => []
  | n + 1, cursor =>
    words cursor ++ afterOk (unpack cursor) fun _ cursor => wordsTimes unpack words n cursor

namespace Format

mutual

/-- The words that unpacking gets to check, with their kinds. -/
def words : Format κ → ℕ → List (κ × ℕ)
  | scalar _, _ | fixed _, _ | bytes, _ => []
  | checked width kind, cursor =>
    afterOk (unpackScalar mem fin width cursor) fun x _ => [(kind, x)]
  | list lenWidth elem, cursor =>
    afterOk (unpackScalar mem fin lenWidth cursor) fun count cursor =>
      if count ≤ (fin - cursor) / elem.minSize then
        wordsTimes (unpack mem fin judge elem) (words elem) count cursor
      else []
  | record fields, cursor => wordsOfFields fields cursor
  | tagged header choose alternatives, cursor =>
    words header cursor ++ afterOk (unpack mem fin judge header cursor) fun v cursor =>
      (choose v.tag).elim [] fun i => wordsOfNth alternatives i cursor

def wordsOfFields : List (String × Format κ) → ℕ → List (κ × ℕ)
  | [], _ => []
  | (_, f) :: fields, cursor =>
    words f cursor ++ afterOk (unpack mem fin judge f cursor) fun _ cursor =>
      wordsOfFields fields cursor

def wordsOfNth : List (Format κ) → ℕ → ℕ → List (κ × ℕ)
  | [], _, _ => []
  | f :: _, 0, cursor => words f cursor
  | _ :: alternatives, i + 1, cursor => wordsOfNth alternatives i cursor

end

end Format

end

/-! ## Inside the buffer -/

variable {unpack : ℕ → Except UnpackError (Value × ℕ)} {α β : Type}

section

variable {mem mem' : Memory} {fin cursor cursor' : ℕ}

lemma unpackScalar_eq_ok {x : ℕ} : unpackScalar mem fin width cursor = .ok (x, cursor') ↔
      width ≤ fin - cursor ∧ x = mem.word cursor width ∧ cursor' = cursor + width := by
  simp [unpackScalar, ensureSize, @eq_comm _ x, @eq_comm _ cursor']

lemma unpackTimes_eq_ok
    (hunpack : ∀ {cursor v cursor'}, cursor ≤ fin → unpack cursor = .ok (v, cursor') →
      cursor' = cursor + v.packedSize ∧ cursor' ≤ fin) :
    ∀ {n cursor vs cursor'}, cursor ≤ fin → unpackTimes unpack n cursor = .ok (vs, cursor') →
      cursor' = cursor + Value.packedSizes vs ∧ cursor' ≤ fin := by
  intro n
  induction n with
  | zero =>
    rintro cursor vs cursor' hcursor h
    cases h
    exact ⟨rfl, hcursor⟩
  | succ n ih =>
    rintro cursor vs cursor' hcursor h
    simp only [unpackTimes, bind_eq_ok, Prod.exists] at h
    obtain ⟨v, c₁, hv, vs, c₂, hvs, ⟨⟩⟩ := h
    obtain ⟨rfl, hle⟩ := hunpack hcursor hv
    obtain ⟨rfl, hle'⟩ := ih hle hvs
    exact ⟨by rw [Value.packedSizes, add_assoc], hle'⟩

variable {κ : Type} {judge : κ → ℕ → Except UnpackError PUnit}

lemma packedSizes_words (width : ℕ) (xs : List ℕ) :
    Value.packedSizes (xs.map (Value.word width)) = width * xs.length := by
  induction xs with
  | nil => rfl
  | cons x xs ih =>
    rw [map_cons, Value.packedSizes, ih, Value.packedSize, length_cons, mul_add_one, add_comm]

mutual

/-- Unpacking moves the cursor behind the value, and not beyond the end of the buffer. -/
theorem Format.unpack_eq_ok : ∀ (f : Format κ) {cursor v cursor'}, cursor ≤ fin →
    f.unpack mem fin judge cursor = .ok (v, cursor') →
      cursor' = cursor + v.packedSize ∧ cursor' ≤ fin := by
  intro f cursor v cursor' hcursor h
  cases f with
  | scalar =>
    simp only [Format.unpack, bind_eq_ok, unpackScalar_eq_ok, Prod.exists] at h
    obtain ⟨x, _, ⟨hle, rfl, rfl⟩, ⟨⟩⟩ := h
    exact ⟨rfl, by omega⟩
  | checked =>
    simp only [Format.unpack, bind_eq_ok, unpackScalar_eq_ok, Prod.exists] at h
    obtain ⟨x, _, ⟨hle, rfl, rfl⟩, _, -, ⟨⟩⟩ := h
    exact ⟨rfl, by omega⟩
  | fixed =>
    simp only [Format.unpack, ensureSize, bind_eq_ok, ensure_eq_ok, exists_const] at h
    obtain ⟨hle, ⟨⟩⟩ := h
    refine ⟨?_, by omega⟩
    simp [Value.packedSize, Memory.bytes]
  | bytes =>
    simp only [Format.unpack, ensureSize, bind_eq_ok, unpackScalar_eq_ok, ensure_eq_ok,
      exists_const, Prod.exists] at h
    obtain ⟨n, _, ⟨hle, rfl, rfl⟩, hle', ⟨⟩⟩ := h
    refine ⟨?_, by omega⟩
    simp [Value.packedSize, Memory.bytes, add_assoc]
  | list lenWidth elem =>
    simp only [Format.unpack, bind_eq_ok, unpackScalar_eq_ok, ensure_eq_ok, exists_const,
      Prod.exists] at h
    obtain ⟨count, _, ⟨hle, -, rfl⟩, hcount, h⟩ := h
    split at h
    · -- the length has been checked against the bytes that are left
      next width =>
      cases h
      have hbytes : count * width ≤ fin - (cursor + lenWidth) :=
        Nat.mul_le_of_le_div width count _ hcount
      rw [mul_comm] at hbytes
      refine ⟨?_, by omega⟩
      have hsizes := packedSizes_words width
        ((range count).map fun i => mem.word (cursor + lenWidth + width * i) width)
      rw [map_map, length_map, length_range] at hsizes
      rw [Value.packedSize, ← add_assoc]
      exact congrArg _ hsizes.symm
    · simp only [bind_eq_ok, Prod.exists] at h
      obtain ⟨vs, c, hvs, ⟨⟩⟩ := h
      obtain ⟨rfl, hle'⟩ := unpackTimes_eq_ok
        (fun hcursor h => Format.unpack_eq_ok elem hcursor h) (by omega) hvs
      exact ⟨by rw [Value.packedSize, add_assoc], hle'⟩
  | record fields =>
    simp only [Format.unpack, bind_eq_ok, Prod.exists] at h
    obtain ⟨vs, _, hvs, ⟨⟩⟩ := h
    exact Format.unpackFields_eq_ok fields hcursor hvs
  | tagged header choose alternatives =>
    simp only [Format.unpack, bind_eq_ok, orFail_eq_ok, Prod.exists] at h
    obtain ⟨v, c₁, hv, i, -, body, c₂, hbody, ⟨⟩⟩ := h
    obtain ⟨rfl, hle⟩ := Format.unpack_eq_ok header hcursor hv
    obtain ⟨rfl, hle'⟩ := Format.unpackNth_eq_ok alternatives hle hbody
    refine ⟨?_, hle'⟩
    simp [Value.packedSize, Value.packedSizes, add_assoc]

theorem Format.unpackFields_eq_ok : ∀ (fields : List (String × Format κ)) {cursor vs cursor'},
    cursor ≤ fin → unpackFields mem fin judge fields cursor = .ok (vs, cursor') →
      cursor' = cursor + Value.packedSizes vs ∧ cursor' ≤ fin := by
  intro fields cursor vs cursor' hcursor h
  match fields with
  | [] =>
    cases h
    exact ⟨rfl, hcursor⟩
  | (_, f) :: fields =>
    simp only [Format.unpackFields, bind_eq_ok, Prod.exists] at h
    obtain ⟨v, c₁, hv, vs, c₂, hvs, ⟨⟩⟩ := h
    obtain ⟨rfl, hle⟩ := Format.unpack_eq_ok f hcursor hv
    obtain ⟨rfl, hle'⟩ := Format.unpackFields_eq_ok fields hle hvs
    exact ⟨by rw [Value.packedSizes, add_assoc], hle'⟩

theorem Format.unpackNth_eq_ok : ∀ (alternatives : List (Format κ)) {i cursor v cursor'},
    cursor ≤ fin → unpackNth mem fin judge alternatives i cursor = .ok (v, cursor') →
      cursor' = cursor + v.packedSize ∧ cursor' ≤ fin := by
  intro alternatives i cursor v cursor' hcursor h
  match alternatives, i with
  | [], _ => cases h
  | f :: _, 0 => exact Format.unpack_eq_ok f hcursor h
  | _ :: alternatives, i + 1 => exact Format.unpackNth_eq_ok alternatives hcursor h

end

/-! ## Nothing else is read -/

/-- The memories have the same bytes between two addresses. -/
def Memory.AgreeOn (mem mem' : Memory) (a b : ℕ) : Prop := ∀ i, a ≤ i → i < b → mem i = mem' i

lemma Memory.AgreeOn.mono {a' b : ℕ} (h : mem.AgreeOn mem' a b) (hle : a ≤ a') :
    mem.AgreeOn mem' a' b :=
  fun i hi => h i (hle.trans hi)

lemma Memory.AgreeOn.bytes (h : mem.AgreeOn mem' cursor fin) (ha : cursor ≤ a) (hn : a + n ≤ fin) :
    mem.bytes a n = mem'.bytes a n := by
  refine map_congr_left fun i hi => h _ (by omega) ?_
  have := mem_range.mp hi
  omega

lemma Memory.AgreeOn.word (h : mem.AgreeOn mem' cursor fin) (ha : cursor ≤ a) (hn : a + n ≤ fin) :
    mem.word a n = mem'.word a n :=
  congrArg (Nat.ofDigits 256) (h.bytes ha hn)

lemma bind_congr_ok {x x' : Except UnpackError α} {f f' : α → Except UnpackError β}
    (hx : x = x') (hf : ∀ a, x = .ok a → f a = f' a) : (x >>= f) = (x' >>= f') := by
  subst hx
  cases x with
  | error => rfl
  | ok a => exact hf a rfl

lemma unpackScalar_congr (hcursor : cursor ≤ fin) (hagree : mem.AgreeOn mem' cursor fin) :
    unpackScalar mem fin width cursor = unpackScalar mem' fin width cursor := by
  refine bind_congr_ok rfl fun u hu => ?_
  have hle : width ≤ fin - cursor := ensure_eq_ok.mp hu
  rw [hagree.word le_rfl (by omega)]

lemma unpackTimes_congr {unpack' : ℕ → Except UnpackError (Value × ℕ)}
    (hinside : ∀ {cursor v cursor'}, cursor ≤ fin → unpack cursor = .ok (v, cursor') →
      cursor' = cursor + v.packedSize ∧ cursor' ≤ fin)
    (hunpack : ∀ {cursor}, cursor ≤ fin → mem.AgreeOn mem' cursor fin →
      unpack cursor = unpack' cursor) :
    ∀ {n cursor}, cursor ≤ fin → mem.AgreeOn mem' cursor fin →
      unpackTimes unpack n cursor = unpackTimes unpack' n cursor := by
  intro n
  induction n with
  | zero => exact fun _ _ => rfl
  | succ n ih =>
    intro cursor hcursor hagree
    refine bind_congr_ok (hunpack hcursor hagree) fun ⟨v, c⟩ hv => ?_
    obtain ⟨rfl, hle⟩ := hinside hcursor hv
    exact bind_congr_ok (ih hle (hagree.mono (Nat.le_add_right _ _))) fun _ _ => rfl

mutual

/-- The result depends on the bytes between the cursor and the end of the buffer only. -/
theorem Format.unpack_congr : ∀ (f : Format κ) {cursor}, cursor ≤ fin →
    mem.AgreeOn mem' cursor fin →
      f.unpack mem fin judge cursor = f.unpack mem' fin judge cursor := by
  intro f cursor hcursor hagree
  cases f with
  | scalar | checked => exact bind_congr_ok (unpackScalar_congr hcursor hagree) fun _ _ => rfl
  | fixed n =>
    refine bind_congr_ok rfl fun u hu => ?_
    have hle : n ≤ fin - cursor := ensure_eq_ok.mp hu
    rw [hagree.bytes le_rfl (by omega)]
  | bytes =>
    refine bind_congr_ok (unpackScalar_congr hcursor hagree) fun ⟨n, c⟩ hn => ?_
    obtain ⟨hle, -, rfl⟩ := unpackScalar_eq_ok.mp hn
    refine bind_congr_ok rfl fun u hu => ?_
    have hle' : n ≤ fin - (cursor + 1) := ensure_eq_ok.mp hu
    simp only [hagree.bytes (Nat.le_add_right cursor 1) (by omega : cursor + 1 + n ≤ fin)]
  | list lenWidth elem =>
    rw [Format.unpack, Format.unpack]
    refine bind_congr_ok (unpackScalar_congr hcursor hagree) fun ⟨count, c⟩ hcount => ?_
    obtain ⟨hle, -, rfl⟩ := unpackScalar_eq_ok.mp hcount
    refine bind_congr_ok rfl fun u hu => ?_
    have hbytes := Nat.mul_le_of_le_div _ count _ (ensure_eq_ok.mp hu)
    split
    · next width =>
      change count * width ≤ fin - (cursor + lenWidth) at hbytes
      refine congrArg (fun vs => pure (Value.list lenWidth vs, _)) (map_congr_left ?_)
      intro i hi
      have hend : width * (i + 1) ≤ width * count :=
        Nat.mul_le_mul_left width (mem_range.mp hi)
      rw [mul_comm] at hbytes
      rw [mul_add_one] at hend
      rw [hagree.word (by omega) (by omega)]
    · exact bind_congr_ok (unpackTimes_congr (fun hcursor h => Format.unpack_eq_ok elem hcursor h)
        (fun hcursor hagree => Format.unpack_congr elem hcursor hagree) (by omega)
        (hagree.mono (Nat.le_add_right _ _))) fun _ _ => rfl
  | record fields =>
    exact bind_congr_ok (Format.unpackFields_congr fields hcursor hagree) fun _ _ => rfl
  | tagged header choose alternatives =>
    refine bind_congr_ok (Format.unpack_congr header hcursor hagree) fun ⟨v, c⟩ hv => ?_
    obtain ⟨rfl, hle⟩ := Format.unpack_eq_ok header hcursor hv
    refine bind_congr_ok rfl fun i _ => ?_
    exact bind_congr_ok (Format.unpackNth_congr alternatives hle
      (hagree.mono (Nat.le_add_right _ _))) fun _ _ => rfl

theorem Format.unpackFields_congr : ∀ (fields : List (String × Format κ)) {cursor}, cursor ≤ fin →
    mem.AgreeOn mem' cursor fin →
      unpackFields mem fin judge fields cursor = unpackFields mem' fin judge fields cursor := by
  intro fields cursor hcursor hagree
  match fields with
  | [] => rfl
  | (_, f) :: fields =>
    refine bind_congr_ok (Format.unpack_congr f hcursor hagree) fun ⟨v, c⟩ hv => ?_
    obtain ⟨rfl, hle⟩ := Format.unpack_eq_ok f hcursor hv
    exact bind_congr_ok (Format.unpackFields_congr fields hle
      (hagree.mono (Nat.le_add_right _ _))) fun _ _ => rfl

theorem Format.unpackNth_congr : ∀ (alternatives : List (Format κ)) {i cursor}, cursor ≤ fin →
    mem.AgreeOn mem' cursor fin → unpackNth mem fin judge alternatives i cursor =
        unpackNth mem' fin judge alternatives i cursor := by
  intro alternatives i cursor hcursor hagree
  match alternatives, i with
  | [], _ => rfl
  | f :: _, 0 => exact Format.unpack_congr f hcursor hagree
  | _ :: alternatives, i + 1 => exact Format.unpackNth_congr alternatives hcursor hagree

end

/-! ## Failed assertions -/

lemma mem_afterOk {r : Except UnpackError (α × ℕ)} {next : α → ℕ → List β} {b : β} :
    b ∈ afterOk r next ↔ ∃ a cursor, r = .ok (a, cursor) ∧ b ∈ next a cursor := by
  cases r with
  | error => simp [afterOk]
  | ok => simp [afterOk, Prod.ext_iff]

/-- Some of the words fails an assertion. -/
def Fails (judge : κ → ℕ → Except UnpackError PUnit) (words : List (κ × ℕ)) : Prop :=
  ∃ w ∈ words, judge w.1 w.2 = .error .assertion

lemma fails_append {ws ws' : List (κ × ℕ)} :
    Fails judge (ws ++ ws') ↔ Fails judge ws ∨ Fails judge ws' := by
  simp [Fails, or_and_right, exists_or]

lemma fails_afterOk {r : Except UnpackError (α × ℕ)} {next : α → ℕ → List (κ × ℕ)} :
    Fails judge (afterOk r next) ↔ ∃ a cursor, r = .ok (a, cursor) ∧ Fails judge (next a cursor) := by
  simp only [Fails, mem_afterOk]
  constructor
  · rintro ⟨w, ⟨a, c, hr, hw⟩, hfails⟩
    exact ⟨a, c, hr, w, hw, hfails⟩
  · rintro ⟨a, c, hr, w, hw, hfails⟩
    exact ⟨w, ⟨a, c, hr, hw⟩, hfails⟩

lemma not_fails_nil : ¬ Fails judge [] := by
  rintro ⟨w, hw, -⟩
  cases hw

lemma fails_singleton {w : κ × ℕ} : Fails judge [w] ↔ judge w.1 w.2 = .error .assertion := by
  simp [Fails]

lemma unpackScalar_ne_assertion : unpackScalar mem fin width cursor ≠ .error .assertion := by
  simp only [unpackScalar, ensureSize, ne_eq, bind_eq_error, ensure_eq_error, pure_ne_error,
    reduceCtorEq, and_false, exists_const, or_self, not_false_eq_true]

lemma wordsTimes_eq_nil {words : ℕ → List (κ × ℕ)}
    (hwords : ∀ cursor, words cursor = []) : wordsTimes unpack words n cursor = [] := by
  induction n generalizing cursor with
  | zero => rfl
  | succ n ih =>
    rw [wordsTimes, hwords, nil_append]
    cases unpack cursor with
    | error => rfl
    | ok => exact ih

lemma unpackTimes_eq_assertion {words : ℕ → List (κ × ℕ)}
    (hunpack : ∀ {cursor}, unpack cursor = .error .assertion ↔ Fails judge (words cursor)) :
    ∀ {n cursor}, unpackTimes unpack n cursor = .error .assertion ↔
      Fails judge (wordsTimes unpack words n cursor) := by
  intro n
  induction n with
  | zero => exact fun {_} => iff_of_false pure_ne_error not_fails_nil
  | succ n ih =>
    intro cursor
    simp only [unpackTimes, wordsTimes, bind_eq_error, fails_append, fails_afterOk, hunpack, ih,
      pure_ne_error, and_false, exists_const, or_false, Prod.exists]

mutual

/-- Unpacking fails an assertion exactly if a word that it gets to does. -/
theorem Format.unpack_eq_assertion : ∀ (f : Format κ) {cursor},
    f.unpack mem fin judge cursor = .error .assertion ↔
      Fails judge (f.words mem fin judge cursor) := by
  intro f cursor
  cases f with
  | scalar =>
    simp only [Format.unpack, Format.words, bind_eq_error, unpackScalar_ne_assertion,
      pure_ne_error, not_fails_nil, and_false, exists_const, or_self]
  | checked =>
    simp only [Format.unpack, Format.words, bind_eq_error, unpackScalar_ne_assertion,
      pure_ne_error, fails_afterOk, fails_singleton, and_false, exists_const, or_false, false_or,
      Prod.exists]
  | fixed =>
    simp only [Format.unpack, Format.words, ensureSize, bind_eq_error, ensure_eq_error,
      pure_ne_error, not_fails_nil, reduceCtorEq, and_false, exists_const, or_self]
  | bytes =>
    simp only [Format.unpack, Format.words, ensureSize, bind_eq_error, ensure_eq_error,
      unpackScalar_ne_assertion, pure_ne_error, not_fails_nil, reduceCtorEq, and_false,
      exists_const, or_self]
  | list lenWidth elem =>
    rw [Format.unpack, Format.words, bind_eq_error, fails_afterOk,
      or_iff_right unpackScalar_ne_assertion, Prod.exists]
    refine exists_congr fun count => exists_congr fun c => and_congr_right fun _ => ?_
    by_cases hcount : count ≤ (fin - c) / elem.minSize
    swap
    · simp [bind_eq_error, ensure_eq_error, hcount, not_fails_nil]
    dsimp only
    rw [if_pos hcount, ensure_of hcount, ok_bind]
    split
    · next width =>
      have hnil : ∀ cursor, words mem fin judge (scalar width) cursor = [] := fun _ => rfl
      rw [wordsTimes_eq_nil hnil]
      exact iff_of_false pure_ne_error not_fails_nil
    · rw [bind_eq_error, ← unpackTimes_eq_assertion fun {_} => Format.unpack_eq_assertion elem]
      simp only [pure_ne_error, and_false, exists_const, or_false]
  | record fields =>
    simp only [Format.unpack, Format.words, bind_eq_error, Format.unpackFields_eq_assertion fields,
      pure_ne_error, and_false, exists_const, or_false]
  | tagged header choose alternatives =>
    simp only [Format.unpack, Format.words, bind_eq_error, Format.unpack_eq_assertion header,
      fails_append, fails_afterOk, orFail_eq_error, orFail_eq_ok, pure_ne_error, and_false,
      exists_const, false_or, reduceCtorEq, Prod.exists,
      Format.unpackNth_eq_assertion alternatives]
    refine or_congr_right (exists_congr fun v => exists_congr fun c => and_congr_right fun _ => ?_)
    cases choose v.tag with
    | none => simp [not_fails_nil]
    | some => simp

theorem Format.unpackFields_eq_assertion : ∀ (fields : List (String × Format κ)) {cursor},
    unpackFields mem fin judge fields cursor = .error .assertion ↔
      Fails judge (wordsOfFields mem fin judge fields cursor) := by
  intro fields cursor
  match fields with
  | [] => exact iff_of_false pure_ne_error not_fails_nil
  | (_, f) :: fields =>
    simp only [Format.unpackFields, Format.wordsOfFields, bind_eq_error, fails_append,
      fails_afterOk, Format.unpack_eq_assertion f, Format.unpackFields_eq_assertion fields,
      pure_ne_error, and_false, exists_const, or_false, Prod.exists]

theorem Format.unpackNth_eq_assertion : ∀ (alternatives : List (Format κ)) {i cursor},
    unpackNth mem fin judge alternatives i cursor = .error .assertion ↔
      Fails judge (wordsOfNth mem fin judge alternatives i cursor) := by
  intro alternatives i cursor
  match alternatives, i with
  | [], _ => exact iff_of_false (by simp [unpackNth]) not_fails_nil
  | f :: _, 0 => exact Format.unpack_eq_assertion f
  | _ :: alternatives, i + 1 => exact Format.unpackNth_eq_assertion alternatives

end

/-! ## Kinds of words -/

lemma mem_wordsTimes {words : ℕ → List (κ × ℕ)} {w : κ × ℕ}
    (h : w ∈ wordsTimes unpack words n cursor) : ∃ c, w ∈ words c := by
  induction n generalizing cursor with
  | zero => cases h
  | succ n ih =>
    rw [wordsTimes, mem_append, mem_afterOk] at h
    obtain h | ⟨v, c, -, h⟩ := h
    · exact ⟨cursor, h⟩
    · exact ih h

namespace Format

mutual

/-- The kinds of checked words of a format. -/
def kinds : Format κ → List κ
  | scalar _ | fixed _ | bytes => []
  | checked _ kind => [kind]
  | list _ elem => kinds elem
  | record fields => kindsOfFields fields
  | tagged header _ alternatives => kinds header ++ kindsOfAlternatives alternatives

def kindsOfFields : List (String × Format κ) → List κ
  | [] => []
  | (_, f) :: fields => kinds f ++ kindsOfFields fields

def kindsOfAlternatives : List (Format κ) → List κ
  | [] => []
  | f :: fs => kinds f ++ kindsOfAlternatives fs

end

mutual

/-- Only words of the kinds of the format are checked. -/
theorem mem_kinds : ∀ (f : Format κ) {cursor w}, w ∈ f.words mem fin judge cursor →
    w.1 ∈ f.kinds := by
  intro f cursor w h
  cases f with
  | scalar | fixed | bytes => cases h
  | checked width kind =>
    obtain ⟨x, c, -, h⟩ := mem_afterOk.mp h
    obtain rfl := mem_singleton.mp h
    exact mem_singleton_self kind
  | list lenWidth elem =>
    obtain ⟨count, c, -, h⟩ := mem_afterOk.mp h
    split_ifs at h
    · obtain ⟨c', h⟩ := mem_wordsTimes h
      exact mem_kinds elem h
    · cases h
  | record fields => exact mem_kindsOfFields fields h
  | tagged header choose alternatives =>
    rw [words, mem_append, mem_afterOk] at h
    rw [kinds, mem_append]
    obtain h | ⟨v, c, -, h⟩ := h
    · exact .inl (mem_kinds header h)
    cases hi : choose v.tag with
    | none =>
      rw [hi] at h
      cases h
    | some =>
      rw [hi] at h
      exact .inr (mem_kindsOfAlternatives alternatives h)

theorem mem_kindsOfFields : ∀ (fields : List (String × Format κ)) {cursor w},
    w ∈ wordsOfFields mem fin judge fields cursor → w.1 ∈ kindsOfFields fields := by
  intro fields cursor w h
  match fields with
  | [] => cases h
  | (_, f) :: fields =>
    rw [wordsOfFields, mem_append, mem_afterOk] at h
    rw [kindsOfFields, mem_append]
    obtain h | ⟨v, c, -, h⟩ := h
    · exact .inl (mem_kinds f h)
    · exact .inr (mem_kindsOfFields fields h)

theorem mem_kindsOfAlternatives : ∀ (alternatives : List (Format κ)) {i cursor w},
    w ∈ wordsOfNth mem fin judge alternatives i cursor → w.1 ∈ kindsOfAlternatives alternatives := by
  intro alternatives i cursor w h
  match alternatives, i with
  | [], _ => cases h
  | f :: _, 0 => exact mem_append_left _ (mem_kinds f h)
  | _ :: alternatives, i + 1 =>
    exact mem_append_right _ (mem_kindsOfAlternatives alternatives h)

end

end Format

end

end TernFS.Lib
