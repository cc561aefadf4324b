/-
# Writing a span

`CreateSpanWithParams` and `CreateSpanWithParamsAtLocation` (`client/span.go`) add an inline span,
or write the blocks of a span in up to six attempts.  An attempt that fails moves the bad span to a
new file and starts again without the failure domain of the block that failed.  What the shard and
the block services answer is an input.
-/
import TernFS.Core.Msgs

namespace TernFS.Client

open List

/-- `AddSpanInitiateBlockInfo`, as far as it is read. -/
structure SpanBlock where
  blockId : ℕ
  failureDomain : Bytes
deriving DecidableEq

/-- The answers of one attempt. Every block write that was started sends one completion, in some
order. -/
structure Attempt (ε : Type*) where
  /-- `AddSpanInitiate`, in its two forms. -/
  initiate : Except ε (List SpanBlock)
  /-- The completion: the error, or the proof. -/
  completion : ℕ → Except ε Bytes
  /-- The order in which the completions arrive. -/
  order : List ℕ
  order_perm : ∀ blocks, initiate = .ok blocks → order.Perm (range blocks.length)
  certify : Option ε
  constructFile : Option ε
  moveSpan : Option ε

/-- The requests that the shard accepted. -/
inductive Accepted
  | addInlineSpan (offset size : ℕ)
  | initiate (blacklist : List Bytes) (offset size : ℕ) (blocks : List SpanBlock)
  | certify (offset : ℕ) (proofs : List (ℕ × Bytes))
  | constructFile
  | moveSpan (offset size : ℕ)
deriving DecidableEq

/-- How the body of the loop ends. -/
inductive Ending (ε : Type*)
  /-- The span is written. -/
  | done (blocks : List ℕ)
  /-- The jump to `FailedAttempt`, with what `err` holds and the failure domain to avoid. -/
  | failedAttempt (err : Option ε) (failureDomain : Bytes)
  /-- A return with an error. -/
  | fail (err : ε)

/-- What the functions return, and what the shard accepted on the way. -/
structure Written (ε : Type*) where
  blocks : List ℕ
  err : Option ε
  accepted : List Accepted

variable {ε : Type*}

/-! ## The code -/

/-- The loop over the completions, which fills in the proofs. -/
def awaitBlocks (a : Attempt ε) (blocks : List SpanBlock) :
    List ℕ → List (ℕ × Bytes) → Except (ε × ℕ) (List (ℕ × Bytes))
  | [], proofs => .ok proofs
  | i :: order, proofs =>
    match a.completion i with
    | .error e => .error (e, i)
    | .ok proof =>
      awaitBlocks a blocks order (proofs.set i (((blocks[i]?).map (·.blockId)).getD 0, proof))

/-- The failure domain of a block. -/
def domainOf (blocks : List SpanBlock) (i : ℕ) : Bytes :=
  ((blocks[i]?).map (·.failureDomain)).getD []

/-- `StartWriteBlock`, for the index of the block: `blocksProcessors.send` hands the request to the
goroutine of the block service and returns nil on every exit.  What goes wrong later is in the
completion. -/
def Attempt.startWriteBlock (_ : Attempt ε) (_ : ℕ) : Option ε := none

/-- The body of the loop up to the label `FailedAttempt`. A write that does not start leaves `err`
as the successful `AddSpanInitiate` has set it. -/
def Attempt.body (a : Attempt ε) (blacklist : List Bytes) (offset size : ℕ) :
    List Accepted × Ending ε :=
  match a.initiate with
  | .error e => ([], .fail e)
  | .ok blocks =>
    let initiated := [Accepted.initiate blacklist offset size blocks]
    match (range blocks.length).find? (a.startWriteBlock · |>.isSome) with
    | some i => (initiated, .failedAttempt none (domainOf blocks i))
    | none =>
      match awaitBlocks a blocks a.order (replicate blocks.length (0, [])) with
      | .error (e, i) => (initiated, .failedAttempt (some e) (domainOf blocks i))
      | .ok proofs =>
        match a.certify with
        | some e => (initiated, .fail e)
        | none => (initiated ++ [.certify offset proofs], .done (blocks.map (·.blockId)))

/-- `writeSpanBlocks`, from an attempt on and with the number of attempts that may follow it. -/
def writeSpanBlocks (env : ℕ → Attempt ε) (offset size : ℕ) : ℕ → ℕ → List Bytes → Written ε
  | 0, attempt, blacklist =>
    let res := (env attempt).body blacklist offset size
    match res.2 with
    | .done blocks => ⟨blocks, none, res.1⟩
    | .fail e => ⟨[], some e, res.1⟩
    | .failedAttempt err _ => ⟨[], err, res.1⟩
  | more + 1, attempt, blacklist =>
    let res := (env attempt).body blacklist offset size
    match res.2 with
    | .done blocks => ⟨blocks, none, res.1⟩
    | .fail e => ⟨[], some e, res.1⟩
    | .failedAttempt _ failureDomain =>
      match (env attempt).constructFile, (env attempt).moveSpan with
      | some e, _ => ⟨[], some e, res.1⟩
      | none, some e => ⟨[], some e, res.1 ++ [.constructFile]⟩
      | none, none =>
        let w := writeSpanBlocks env offset size more (attempt + 1) (blacklist ++ [failureDomain])
        { w with accepted := res.1 ++ [.constructFile, .moveSpan offset size] ++ w.accepted }

/-- `maxAttempts`. -/
def maxAttempts : ℕ := 5

/-- `CreateSpanWithParams` and `CreateSpanWithParamsAtLocation`, which differ in the form of the
initiating request only. A span that is shorter than the data panics. -/
def createSpanWithParams (addInlineSpan : Option ε) (env : ℕ → Attempt ε) (blacklist : List Bytes)
    (offset size dataLength : ℕ) : Option (Written ε) :=
  if size < dataLength then none
  else if dataLength < 256 then
    match addInlineSpan with
    | some e => some ⟨[], some e, []⟩
    | none => some ⟨[], none, [.addInlineSpan offset size]⟩
  else some (writeSpanBlocks env offset size maxAttempts 0 blacklist)

/-! ## Durable spans -/

/-- The last request that the shard accepted is the certificate for the blocks that it gave for the
span just before, and these are the blocks that are returned. -/
def Written.Certified (offset size : ℕ) (w : Written ε) : Prop :=
  ∃ before blacklist blocks proofs,
    w.accepted = before ++ [.initiate blacklist offset size blocks, .certify offset proofs] ∧
    w.blocks = blocks.map (·.blockId) ∧ proofs.map (·.1) = w.blocks

/-- A result without an error: an inline span was added, or the span was certified. -/
def Written.Durable (offset size : ℕ) (w : Written ε) : Prop :=
  w.err = none →
    (w.blocks = [] ∧ w.accepted = [.addInlineSpan offset size]) ∨ w.Certified offset size

lemma awaitBlocks_ok {a : Attempt ε} {blocks : List SpanBlock} {order : List ℕ}
    {proofs proofs' : List (ℕ × Bytes)} (h : awaitBlocks a blocks order proofs = .ok proofs') :
    proofs'.length = proofs.length ∧
      ∀ (j : ℕ) (hj : j < proofs'.length) (block : SpanBlock), blocks[j]? = some block →
        j ∈ order ∨ (proofs[j]?).map (·.1) = some block.blockId → proofs'[j].1 = block.blockId := by
  induction order generalizing proofs with
  | nil =>
    obtain rfl := Except.ok.inj h
    refine ⟨rfl, fun j hj block _ hor => ?_⟩
    rcases hor with hmem | hset
    · exact absurd hmem not_mem_nil
    · rw [getElem?_eq_getElem hj] at hset
      exact Option.some.inj hset
  | cons i order ih =>
    rw [awaitBlocks] at h
    split at h
    · exact absurd h nofun
    obtain ⟨hlen, hset⟩ := ih h
    rw [length_set] at hlen
    refine ⟨hlen, fun j hj block hblock hor => ?_⟩
    refine hset j hj block hblock ?_
    by_cases hji : i = j
    · subst hji
      right
      rw [getElem?_set_self (hlen ▸ hj), hblock]
      rfl
    · rw [getElem?_set_ne hji]
      rcases hor with hmem | hold
      · exact Or.inl (mem_of_ne_of_mem (Ne.symm hji) hmem)
      · exact Or.inr hold

/-- The three ways in which the body of the loop ends.  An attempt that is given up leaves an error. -/
lemma Attempt.body_cases (a : Attempt ε) (blacklist : List Bytes) (offset size : ℕ) :
    (∃ accepted e, a.body blacklist offset size = (accepted, .fail e)) ∨
    (∃ blocks proofs, a.body blacklist offset size =
      ([.initiate blacklist offset size blocks, .certify offset proofs],
        .done (blocks.map (·.blockId))) ∧ proofs.map (·.1) = blocks.map (·.blockId)) ∨
    ∃ blocks e domain, a.body blacklist offset size =
      ([.initiate blacklist offset size blocks], .failedAttempt (some e) domain) := by
  rw [Attempt.body]
  cases hinit : a.initiate with
  | error e => exact Or.inl ⟨_, e, rfl⟩
  | ok blocks =>
    have hstarted : (range blocks.length).find? (a.startWriteBlock · |>.isSome) = none :=
      find?_eq_none.2 fun _ _ => Bool.false_ne_true
    dsimp only
    rw [hstarted]
    dsimp only
    split
    · next e i _ => exact Or.inr (Or.inr ⟨blocks, e, domainOf blocks i, rfl⟩)
    · next proofs hawait =>
      obtain ⟨hlen, hids⟩ := awaitBlocks_ok hawait
      split
      · next e _ => exact Or.inl ⟨_, e, rfl⟩
      refine Or.inr (Or.inl ⟨blocks, proofs, rfl, ?_⟩)
      refine ext_getElem (by simp [hlen]) fun j hj hj' => ?_
      rw [length_map] at hj hj'
      rw [getElem_map, getElem_map]
      refine hids j hj _ (getElem?_eq_getElem hj') (Or.inl ?_)
      exact (a.order_perm blocks hinit).mem_iff.2 (mem_range.2 hj')

/-- By induction on the attempts that may follow: a result without an error has the certificate at
its end. -/
lemma writeSpanBlocks_certified (env : ℕ → Attempt ε) (offset size more attempt : ℕ)
    (blacklist : List Bytes)
    (herr : (writeSpanBlocks env offset size more attempt blacklist).err = none) :
    (writeSpanBlocks env offset size more attempt blacklist).Certified offset size := by
  induction more generalizing attempt blacklist <;> rw [writeSpanBlocks] at herr ⊢ <;>
    rcases (env attempt).body_cases blacklist offset size with
      ⟨accepted, e, hbody⟩ | ⟨blocks, proofs, hbody, hids⟩ | ⟨blocks, e, domain, hbody⟩ <;>
    rw [hbody] at herr ⊢
  case zero.inl | zero.inr.inr | succ.inl => cases herr
  case zero.inr.inl | succ.inr.inl => exact ⟨[], _, blocks, proofs, rfl, rfl, hids⟩
  case succ.inr.inr more ih =>
    cases hc : (env attempt).constructFile with
    | some =>
      rw [hc] at herr
      cases herr
    | none =>
    cases hm : (env attempt).moveSpan with
    | some =>
      rw [hc, hm] at herr
      cases herr
    | none =>
      rw [hc, hm] at herr
      obtain ⟨before, bl, bs, proofs, hacc, hblocks, hids⟩ :=
        ih (attempt + 1) (blacklist ++ [domain]) herr
      refine ⟨.initiate blacklist offset size blocks ::
        .constructFile :: .moveSpan offset size :: before, bl, bs, proofs, ?_, hblocks, hids⟩
      dsimp only
      rw [hacc]
      rfl

/-- An attempt with one block. -/
def sampleAttempt (completion : Except ℕ Bytes) : Attempt ℕ where
  initiate := .ok [⟨7, [1]⟩]
  completion _ := completion
  order := [0]
  order_perm blocks h := by
    obtain rfl := Except.ok.inj h
    exact List.Perm.refl _
  certify := none
  constructFile := none
  moveSpan := none

end TernFS.Client
