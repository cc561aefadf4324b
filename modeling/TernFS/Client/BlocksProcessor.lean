/-
# Pipelined block requests

A `blocksProcessor` (`client.go`) writes requests to a connection and reads the responses from it.
The two sides only share a queue of what was written, so that the bytes from which a response is
read have to be those that answer the first entry of the queue.  Here every byte on a connection
carries the number of the request it answers; the code does not see it.  The interleaving, the
answers, the failures and the deadlines are inputs.
-/
import TernFS.Core.Crypto
import TernFS.Lib.Run

namespace TernFS.BlocksProcessor

open Lib List Option

inductive BlocksMessageKind
  | eraseBlock | fetchBlock | writeBlock | fetchBlockWithCrc | testWrite | checkBlock
deriving DecidableEq

def BlocksMessageKind.code : BlocksMessageKind → ℕ
  | eraseBlock => 1
  | fetchBlock => 2
  | writeBlock => 3
  | fetchBlockWithCrc => 4
  | testWrite => 5
  | checkBlock => 6

def BLOCKS_RESP_PROTOCOL_VERSION : ℕ := 0x14f4c42

def ERROR : ℕ := 0

/-- A request, with its number among those of the processor. -/
structure Req where
  number : ℕ
  kind : BlocksMessageKind
  /-- `Count` of a `FetchBlockWithCrcReq`. -/
  count : ℕ
deriving DecidableEq

/-- The bytes after the kind: the proof, or the pages with their CRCs. -/
def Req.respSize (q : Req) : ℕ :=
  match q.kind with
  | .eraseBlock | .writeBlock => 8
  | .fetchBlockWithCrc => q.count / 4096 * (4096 + 4)
  | _ => 0

/-- How reading a response ends, and how many bytes it has used. -/
inductive ReadEnd
  /-- There are not enough bytes; all of them are used. -/
  | short
  | error (used : ℕ)
  | ok (used : ℕ)

/-- `readBlocksResponse`, and the body that `processResponses` reads after it. -/
def readResponse (q : Req) : Bytes → ReadEnd
  | b₀ :: b₁ :: b₂ :: b₃ :: r =>
    if [b₀, b₁, b₂, b₃] ≠ leBytes 4 BLOCKS_RESP_PROTOCOL_VERSION then .error 4
    else
      match r with
      | [] => .short
      | kind :: r =>
        if kind = ERROR then if r.length < 2 then .short else .error 7
        else if kind ≠ q.kind.code then .error 5
        else if r.length < q.respSize then .short
        else .ok (q.respSize + 5)
  | _ => .short

/-- What `writeBlocksResponse` and `writeBlocksResponseError` send after the version. -/
structure Answer where
  kind : ℕ
  resp : Bytes

/-- The answer is one to the request. -/
def Answer.For (q : Req) (a : Answer) : Prop :=
  a.kind = ERROR ∧ a.resp.length = 2 ∨ a.kind = q.kind.code ∧ a.resp.length = q.respSize

instance (q : Req) (a : Answer) : Decidable (a.For q) :=
  inferInstanceAs (Decidable (_ ∧ _ ∨ _ ∧ _))

def Answer.bytes (a : Answer) : Bytes :=
  leBytes 4 BLOCKS_RESP_PROTOCOL_VERSION ++ a.kind :: a.resp

/-- The bytes, with the number of the request that they answer. -/
def Answer.tagged (q : Req) (a : Answer) : List (ℕ × ℕ) := a.bytes.map (Prod.mk q.number)

structure Sock where
  /-- The requests that the server has not answered. -/
  requests : List Req := []
  /-- What the server has sent and the client has not read. -/
  stream : List (ℕ × ℕ) := []
  /-- Nothing comes after the stream. -/
  eof : Bool := false
  /-- The deadline has passed. -/
  expired : Bool := false

structure Processor where
  generation : ℕ := 0
  conn : Option Sock := none
  /-- What `processResponses` has taken and `inFlightReqChan`, with the generations. -/
  inFlight : List (ℕ × Req) := []
  /-- `processResponses` has taken the first entry out of the channel. -/
  taken : Bool := false
  /-- The number of requests so far. -/
  next : ℕ := 0
  /-- The requests that are done: the bytes that were read, or nothing after an error. -/
  completed : List (Req × Option (List (ℕ × ℕ))) := []

inductive Event
  /-- A turn of `processRequests`: do `connect` and the writes succeed? -/
  | request (kind : BlocksMessageKind) (count : ℕ) (connects written : Bool)
  /-- The server answers the first request that it has not answered. -/
  | serve (a : Answer)
  /-- The connection breaks; so many bytes are still received. -/
  | disconnect (bytes : ℕ)
  /-- The deadline of the connection passes. -/
  | expire
  /-- `processResponses` takes the first entry out of the channel. -/
  | take
  /-- It reads the response; the deadline may pass when so many bytes have arrived. -/
  | read (deadline : Option ℕ)

namespace Processor

def done (p : Processor) (q : Req) (bytes : Option (List (ℕ × ℕ))) : Processor :=
  { p with completed := (q, bytes) :: p.completed }

/-- `inFlightReqChan` is empty, so that `connCheck` is called. -/
def Checks (p : Processor) : Prop := p.inFlight.length ≤ p.taken.toNat

instance (p : Processor) : Decidable p.Checks := inferInstanceAs (Decidable (_ ≤ _))

/-- A turn of `processRequests`.  `connCheck` fails at the end of the stream and after the deadline,
which is set anew for the request. -/
def request (p : Processor) (q : Req) (connects written : Bool) : Processor :=
  let conn := p.conn.filter fun sock =>
    !(decide p.Checks && (sock.expired || sock.eof && sock.stream.isEmpty))
  let p := if conn.isNone && connects then
    { p with conn := some {}, generation := p.generation + 1 } else { p with conn := conn }
  match p.conn, written with
  | some sock, true =>
    { p with
      conn := some { sock with requests := sock.requests ++ [q], expired := false }
      inFlight := p.inFlight ++ [(p.generation, q)] }
  | _, _ => { p with conn := none }.done q none

/-- A turn of `processResponses`, for an entry of the queue. -/
def read (p : Processor) (gen : ℕ) (q : Req) (deadline : Option ℕ) : Option Processor :=
  match p.conn.filter fun _ => gen = p.generation with
  | none => some (p.done q none)
  | some sock =>
    let deadline := if sock.expired then some 0 else deadline
    let arrived := deadline.elim sock.stream sock.stream.take
    -- an error does not close the connection
    let p := fun used expired =>
      { p with conn := some { sock with stream := sock.stream.drop used, expired := expired } }
    match readResponse q (arrived.map Prod.snd) with
    | .short =>
      if deadline.isSome ∨ sock.eof then some ((p arrived.length deadline.isSome).done q none)
      else none
    | .error used => some ((p used false).done q none)
    | .ok used => some ((p used false).done q (some (sock.stream.take used)))

end Processor

def step (p : Processor) : Event → Option Processor
  | .request kind count connects written =>
    some ({ p with next := p.next + 1 }.request ⟨p.next, kind, count⟩ connects written)
  | .serve a =>
    match p.conn with
    | some ⟨q :: requests, stream, false, expired⟩ =>
      if a.For q then
        some { p with conn := some ⟨requests, stream ++ a.tagged q, false, expired⟩ }
      else none
    | _ => none
  | .disconnect bytes =>
    p.conn.map fun sock =>
      { p with conn := some { sock with stream := sock.stream.take bytes, eof := true } }
  | .expire => some { p with conn := p.conn.map fun sock => { sock with expired := true } }
  | .take => if p.taken ∨ p.inFlight = [] then none else some { p with taken := true }
  | .read deadline =>
    match p.taken, p.inFlight with
    | true, (gen, q) :: inFlight =>
      { p with inFlight := inFlight, taken := false }.read gen q deadline
    | _, _ => none

/-- A request that is done without an error has read an answer to it, and bytes that were sent in
answer to it only. -/
def Processor.Unmixed (p : Processor) : Prop :=
  ∀ q bytes, (q, some bytes) ∈ p.completed → ∃ a : Answer, a.For q ∧ bytes = a.tagged q

/-- The condition: when a request is written without `connCheck`, because others are in flight, the
deadline of the connection has not passed. -/
def Event.DeadlineKept (p : Processor) : Event → Prop
  | request .. => p.Checks ∨ ∀ sock ∈ p.conn, sock.expired = false
  | _ => True

instance (p : Processor) : DecidablePred (Event.DeadlineKept p)
  | .request .. => inferInstanceAs (Decidable (_ ∨ ∀ sock ∈ p.conn, _))
  | .serve _ | .disconnect _ | .expire | .take | .read _ => isTrue trivial

variable {p p' : Processor} {q : Req} {a : Answer} {r rest : Bytes}

/-- Reading from the bytes of an answer, of which only some may have arrived. -/
lemma readResponse_of_answer (ha : a.For q) (hr : r <+: a.bytes ++ rest) :
    readResponse q r = .short ∨ a.bytes <+: r ∧
      (readResponse q r = .error a.bytes.length ∨ readResponse q r = .ok a.bytes.length) := by
  have hheader : readResponse q r = .short ∨
      ∃ r', r = leBytes 4 BLOCKS_RESP_PROTOCOL_VERSION ++ a.kind :: r' ∧ r' <+: a.resp ++ rest := by
    rcases r with _ | ⟨b₀, _ | ⟨b₁, _ | ⟨b₂, _ | ⟨b₃, _ | ⟨b₄, r⟩⟩⟩⟩⟩ <;>
      simp_all [readResponse, leBytes, Answer.bytes]
  rcases hheader with hshort | ⟨r', rfl, hr'⟩
  · exact .inl hshort
  have hcode : q.kind.code ≠ ERROR := by
    cases q.kind <;> decide
  by_cases hlength : r'.length < a.resp.length
  · rcases ha with ⟨hkind, hsize⟩ | ⟨hkind, hsize⟩ <;> simp_all [readResponse, leBytes]
  have hall := prefix_of_prefix_length_le (prefix_append ..) hr' (not_lt.1 hlength)
  refine .inr ⟨by simpa [Answer.bytes] using hall, ?_⟩
  rcases ha with ⟨hkind, hsize⟩ | ⟨hkind, hsize⟩ <;> rw [hsize] at hlength <;>
    simp [readResponse, leBytes, Answer.bytes, hkind, hsize, hlength, hcode]

/-- The stream holds the answers to what is waited for, in this order, as far as there are answers;
after a disconnect, the first bytes of them. -/
def Sock.Aligned (sock : Sock) (waiting : List Req) : Prop :=
  ∃ (answers : List (Req × Answer)) (others : List Req),
    waiting = answers.map Prod.fst ++ others ∧ (∀ a ∈ answers, a.2.For a.1) ∧
    sock.stream <+: answers.flatMap (fun a => a.2.tagged a.1) ∧
    (sock.eof = false → sock.stream = answers.flatMap (fun a => a.2.tagged a.1) ∧
      others = sock.requests)

/-- A response that is read to its end from what has arrived is an answer to the request, and the
rest stays aligned. -/
lemma Sock.Aligned.read {sock : Sock} {waiting : List Req} {arrived : List (ℕ × ℕ)} {used : ℕ}
    (h : sock.Aligned (q :: waiting)) (harrived : arrived <+: sock.stream)
    (hend : readResponse q (arrived.map Prod.snd) = .error used ∨
      readResponse q (arrived.map Prod.snd) = .ok used) :
    (∃ a : Answer, a.For q ∧ sock.stream.take used = a.tagged q) ∧
      { sock with stream := sock.stream.drop used }.Aligned waiting := by
  obtain ⟨answers, others, hanswers, hfor, hstream, hopen⟩ := h
  cases answers with
  | nil =>
    rw [prefix_nil.1 (harrived.trans hstream)] at hend
    simp [readResponse] at hend
  | cons a answers =>
    obtain ⟨q, a⟩ := a
    obtain ⟨rfl, rfl⟩ := cons.inj hanswers
    have hprefix := (harrived.trans hstream).map Prod.snd
    have hbytes : (a.tagged q).map Prod.snd = a.bytes := by simp [Answer.tagged, Function.comp_def]
    rw [flatMap_cons, map_append, hbytes] at hprefix
    have hused : used = (a.tagged q).length ∧ (a.tagged q).length ≤ sock.stream.length := by
      rw [← length_map Prod.snd, hbytes]
      rcases readResponse_of_answer (hfor _ mem_cons_self) hprefix with hshort | ⟨hall, hread⟩
      · simp [hshort] at hend
      · have hle := hall.length_le.trans_eq (length_map ..)
        refine ⟨?_, hle.trans harrived.length_le⟩
        rcases hread with hread | hread <;> simp_all
    obtain ⟨stream, heq⟩ :=
      prefix_of_prefix_length_le (prefix_append ..) hstream hused.2
    rw [← heq, flatMap_cons] at hstream hopen
    rw [prefix_append_right_inj] at hstream
    rw [← heq, hused.1, take_left, drop_left]
    refine ⟨⟨a, hfor _ mem_cons_self, rfl⟩, answers, others, rfl,
      fun a ha => hfor a (mem_cons_of_mem _ ha), hstream, fun heof => ?_⟩
    exact ⟨append_cancel_left (hopen heof).1, (hopen heof).2⟩

namespace Processor

/-- The entries of the queue that are read from the current connection. -/
def waiting (p : Processor) : List Req :=
  (p.inFlight.filter fun e => e.1 = p.generation).map Prod.snd

structure Inv (p : Processor) : Prop where
  unmixed : p.Unmixed
  generations : ∀ e ∈ p.inFlight, e.1 ≤ p.generation
  /-- After the deadline nothing more is read from the connection. -/
  aligned : ∀ sock ∈ p.conn, sock.expired = false → sock.Aligned p.waiting

lemma Unmixed.done (h : p.Unmixed) (q : Req) : (p.done q none).Unmixed :=
  fun q' bytes hq => h q' bytes (by simpa [Processor.done] using hq)

lemma Inv.request (h : p.Inv) (hok : p.Checks ∨ ∀ sock ∈ p.conn, sock.expired = false) (q : Req)
    (connects written : Bool) : (p.request q connects written).Inv := by
  unfold Processor.request
  extract_lets conn p₁
  have hp₁ : p₁.Inv ∧ ∀ sock ∈ p₁.conn, sock.expired = false := by
    simp only [p₁]
    split_ifs
    · refine ⟨⟨h.unmixed, fun e he => (h.generations e he).trans (Nat.le_succ _), ?_⟩, ?_⟩
      · rintro _ ⟨⟩ -
        refine ⟨[], [], ?_, by simp, nil_prefix, fun _ => ⟨rfl, rfl⟩⟩
        -- the entries of the queue are of old connections
        refine map_eq_nil_iff.2 (filter_eq_nil_iff.2 fun e he heq => ?_)
        exact absurd (h.generations e he) (by simp [of_decide_eq_true heq])
      · rintro _ ⟨⟩
        rfl
    · refine ⟨⟨h.unmixed, h.generations,
        fun sock hsock => h.aligned sock (filter_eq_some_iff.1 hsock).1⟩, fun sock hsock => ?_⟩
      -- a connection whose deadline has passed does not survive `connCheck`
      obtain ⟨hconn, hkept⟩ := filter_eq_some_iff.1 hsock
      rcases hok with hchecks | hfresh
      · by_contra hexpired
        simp [hchecks, hexpired] at hkept
      · exact hfresh sock hconn
  obtain ⟨hp₁, hfresh⟩ := hp₁
  split
  · next sock hsock =>
    obtain ⟨answers, others, hwaiting, hfor, hstream, hopen⟩ :=
      hp₁.aligned sock hsock (hfresh sock hsock)
    refine ⟨hp₁.unmixed, fun e he => ?_, ?_⟩
    · rcases mem_append.1 he with he | he
      · exact hp₁.generations e he
      · rw [mem_singleton.1 he]
    rintro _ ⟨⟩ -
    refine ⟨answers, others ++ [q], ?_, hfor, hstream, fun heof => ?_⟩
    · rw [← append_assoc, ← hwaiting]
      simp [waiting]
    · exact ⟨(hopen heof).1, congrArg (· ++ [q]) (hopen heof).2⟩
  · exact ⟨hp₁.unmixed.done q, hp₁.generations, nofun⟩

lemma Inv.read {gen : ℕ} {inFlight : List (ℕ × Req)} {deadline : Option ℕ} (h : p.Inv)
    (hinFlight : p.inFlight = (gen, q) :: inFlight)
    (hread : { p with inFlight := inFlight, taken := false }.read gen q deadline = some p') :
    p'.Inv := by
  have hgens : ∀ e ∈ inFlight, e.1 ≤ p.generation :=
    fun e he => h.generations e (hinFlight ▸ mem_cons_of_mem _ he)
  have haligned := h.aligned
  simp only [waiting, hinFlight, filter_cons] at haligned
  unfold Processor.read at hread
  split at hread
  · next hconn =>
    cases hread
    refine ⟨h.unmixed.done q, hgens, fun sock (hsock : p.conn = some sock) hfresh => ?_⟩
    have hold : ¬ gen = p.generation := by simpa [hsock] using hconn
    have hsame := haligned sock hsock hfresh
    rwa [if_neg (by simpa using hold)] at hsame
  · next sock hconn =>
    obtain ⟨hsock, hgen⟩ := filter_eq_some_iff.1 hconn
    have hsock := haligned sock hsock
    rw [if_pos hgen] at hsock
    extract_lets deadline' arrived p₁ at hread
    have harrived : arrived <+: sock.stream := by
      simp only [arrived]
      cases deadline' with
      | none => exact prefix_rfl
      | some => exact List.take_prefix ..
    -- what is read to its end is read before the deadline
    have hend : ∀ used, readResponse q (arrived.map Prod.snd) = .error used ∨
        readResponse q (arrived.map Prod.snd) = .ok used → sock.expired = false := by
      intro used hend
      cases hexpired : sock.expired with
      | false => rfl
      | true => simp [arrived, deadline', hexpired, readResponse] at hend
    split at hread
    · split_ifs at hread with hstop
      cases hread
      refine ⟨h.unmixed.done q, hgens, ?_⟩
      rintro _ ⟨⟩ (hfresh : deadline'.isSome = false)
      have hnone : deadline' = none := by simpa using hfresh
      have heof : sock.eof = true := hstop.resolve_left (by simp [hnone])
      exact ⟨[], _, rfl, by simp, by simp [arrived, hnone], by simp [heof]⟩
    · next used hread' =>
      cases hread
      refine ⟨h.unmixed.done q, hgens, ?_⟩
      rintro _ ⟨⟩ -
      exact ((hsock (hend used (.inl hread'))).read harrived (.inl hread')).2
    · next used hread' =>
      cases hread
      obtain ⟨hanswer, hdrop⟩ :=
        (hsock (hend used (.inr hread'))).read harrived (.inr hread')
      refine ⟨fun q' bytes hq => ?_, hgens, ?_⟩
      · rcases mem_cons.1 hq with heq | hq
        · cases heq
          exact hanswer
        · exact h.unmixed q' bytes hq
      · rintro _ ⟨⟩ -
        exact hdrop

lemma Inv.step {e : Event} (h : p.Inv) (he : e.DeadlineKept p) (hstep : step p e = some p') :
    p'.Inv := by
  cases e with
  | request =>
    cases hstep
    exact @Inv.request { p with next := p.next + 1 } ⟨h.unmixed, h.generations, h.aligned⟩ he ..
  | serve a =>
    simp only [BlocksProcessor.step] at hstep
    split at hstep
    · next q requests stream expired hconn =>
      split_ifs at hstep with hfor
      cases hstep
      refine ⟨h.unmixed, h.generations, ?_⟩
      rintro _ ⟨⟩ hfresh
      obtain ⟨answers, others, hwaiting, hanswers, -, hopen⟩ := h.aligned _ hconn hfresh
      obtain ⟨rfl, rfl⟩ := hopen rfl
      refine ⟨answers ++ [(q, a)], requests, ?_, ?_, by simp, by simp⟩
      · change p.waiting = _
        simp [hwaiting]
      intro b hb
      rcases mem_append.1 hb with hb | hb
      · exact hanswers b hb
      · exact mem_singleton.1 hb ▸ hfor
    · cases hstep
  | disconnect =>
    obtain ⟨sock, hconn, rfl⟩ := map_eq_some_iff.1 hstep
    refine ⟨h.unmixed, h.generations, ?_⟩
    rintro _ ⟨⟩ hfresh
    obtain ⟨answers, others, hwaiting, hfor, hstream, -⟩ := h.aligned sock hconn hfresh
    exact ⟨answers, others, hwaiting, hfor, (List.take_prefix ..).trans hstream, nofun⟩
  | expire =>
    cases hstep
    refine ⟨h.unmixed, h.generations, fun sock hsock hfresh => ?_⟩
    obtain ⟨_, -, rfl⟩ := map_eq_some_iff.1 hsock
    cases hfresh
  | take =>
    simp only [BlocksProcessor.step] at hstep
    split_ifs at hstep
    cases hstep
    exact ⟨h.unmixed, h.generations, h.aligned⟩
  | read deadline =>
    simp only [BlocksProcessor.step] at hstep
    split at hstep
    · next gen q inFlight htaken hinFlight =>
      exact h.read hinFlight hstep
    · cases hstep

end Processor

/-- Two blocks are erased on one connection, and the deadline passes before the second answer; the
third request is written to a new connection. -/
def samplePipeline : List Event :=
  [.request .eraseBlock 0 true true, .request .eraseBlock 0 true true,
    .serve ⟨1, [1, 2, 3, 4, 5, 6, 7, 8]⟩, .take, .read none, .take, .read (some 0),
    .serve ⟨1, [8, 7, 6, 5, 4, 3, 2, 1]⟩, .request .eraseBlock 0 true true,
    .serve ⟨ERROR, [80, 0]⟩, .take, .read none]

end TernFS.BlocksProcessor
