import Mathlib.Algebra.Order.Ring.Nat
import TonicH3.EventRun
import TonicH3.H3

/-!
# The send stream of the s2n-quic adapter

`SendStream` keeps at most one write buffer and at most one chunk copied out of
it, and hands the chunks to s2n-quic one after another.  h3 calls `send_data`,
`poll_ready`, `poll_finish` and `reset` on it in any order.  What has been
accepted is at every moment the bytes handed over followed by the chunk and the
rest of the buffer.
-/

namespace TonicH3

open EventRun

/-- `bytes::Buf`: the bytes left, and the contiguous slice at their front, which
is empty only if nothing is left. -/
class Buf (β : Type*) where
  contents : β → Bytes
  chunk : β → Bytes
  advance : β → ℕ → β
  chunk_front : ∀ b, chunk b <+: contents b
  contents_eq_nil : ∀ b, chunk b = [] → contents b = []
  contents_advance : ∀ b n, n ≤ (contents b).length →
    contents (advance b n) = (contents b).drop n

namespace Buf

variable {β : Type*} [Buf β]

theorem copyToBytes_chunk (b : β) :
    copyToBytes (contents b) (chunk b).length = chunk b := by
  obtain ⟨rest, hrest⟩ := chunk_front b
  simp [copyToBytes, ← hrest]

theorem chunk_append_advance (b : β) :
    chunk b ++ contents (advance b (chunk b).length) = contents b := by
  rw [contents_advance b _ (chunk_front b).length_le]
  obtain ⟨rest, hrest⟩ := chunk_front b
  simp [← hrest]

theorem length_advance_lt {b : β} (h : (chunk b).length ≠ 0) :
    (contents (advance b (chunk b).length)).length < (contents b).length := by
  have hlen := congrArg List.length (chunk_append_advance b)
  rw [List.length_append] at hlen
  omega

end Buf

/-- `h3::quic::WriteBuf` with a contiguous payload: the encoded frame header
first, then the payload. -/
structure WriteBuf where
  head : Bytes
  payload : Bytes
  deriving DecidableEq, Repr

instance : Buf WriteBuf where
  contents b := b.head ++ b.payload
  chunk b := if b.head = [] then b.payload else b.head
  advance b n := ⟨b.head.drop n, b.payload.drop (n - b.head.length)⟩
  chunk_front b := by
    by_cases hhead : b.head = [] <;> simp [hhead]
  contents_eq_nil b := by
    by_cases hhead : b.head = [] <;> simp [hhead]
  contents_advance b n _ := by
    simp [List.drop_append]

namespace S2n

abbrev VarInt := Fin (2 ^ 62)

/-- `application::Error` as it is given to s2n-quic: a code, or `UNKNOWN`. -/
inductive ApplicationError
  | code (c : VarInt)
  | unknown
  deriving DecidableEq, Repr

inductive ConnectionError
  | application (error : VarInt)
  | idleTimerExpired
  | closed
  | other (text : String)
  deriving DecidableEq, Repr

inductive StreamError
  | streamReset (error : VarInt)
  | connectionError (error : ConnectionError)
  | other (text : String)
  deriving DecidableEq, Repr

inductive ConnectionErrorIncoming
  | applicationClose (errorCode : UInt64)
  | timeout
  | internalError (text : String)
  | undefined (text : String)
  deriving DecidableEq, Repr

inductive StreamErrorIncoming
  | connectionErrorIncoming (connectionError : ConnectionErrorIncoming)
  | streamTerminated (errorCode : UInt64)
  | unknown (text : String)
  deriving DecidableEq, Repr

def convertConnectionError : ConnectionError → ConnectionErrorIncoming
  | .application error => .applicationClose (.ofNat error)
  | .idleTimerExpired => .timeout
  | .closed => .internalError "connection closed"
  | .other text => .undefined text

def convertStreamErrorToH3StreamErrorIncoming : StreamError → StreamErrorIncoming
  | .streamReset error => .streamTerminated (.ofNat error)
  | .connectionError error => .connectionErrorIncoming (convertConnectionError error)
  | .other text => .unknown text

/-- What the s2n-quic stream has been told to do. -/
inductive StreamOp
  | send (chunk : Bytes)
  | finish
  | reset (code : ApplicationError)
  deriving DecidableEq, Repr

def StreamOp.bytes : StreamOp → Bytes
  | .send chunk => chunk
  | _ => []

structure SendStream (β : Type*) where
  stream : List StreamOp
  chunk : Option Bytes
  buf : Option β
  deriving DecidableEq, Repr

abbrev PollSend := Poll (Except StreamError Unit)

abbrev PollSent := Poll (Except StreamErrorIncoming Unit)

namespace SendStream

variable {β : Type*}

def new : SendStream β := ⟨[], none, none⟩

/-- The bytes handed to s2n-quic. -/
def written (s : SendStream β) : Bytes := s.stream.flatMap StreamOp.bytes

/-- The first half of the loop body.  s2n-quic takes a chunk as a whole or not
at all; `none` lets the loop go on. -/
def flushChunk (s : SendStream β) (answer : PollSend) : SendStream β × Option PollSent :=
  match s.chunk with
  | none => (s, none)
  | some chunk =>
      match answer with
      | .pending => (s, some .pending)
      | .ready (.error e) =>
          (s, some (.ready (.error (convertStreamErrorToH3StreamErrorIncoming e))))
      | .ready (.ok _) => ({ s with stream := s.stream ++ [.send chunk], chunk := none }, none)

@[simp] theorem flushChunk_buf (s : SendStream β) (answer : PollSend) :
    (s.flushChunk answer).1.buf = s.buf := by
  unfold flushChunk
  split
  · rfl
  · split <;> rfl

variable [Buf β]

/-- The bytes accepted and not handed over yet. -/
def queued (s : SendStream β) : Bytes := s.chunk.getD [] ++ (s.buf.map Buf.contents).getD []

/-- The answers of `poll_send` are those of the successive iterations. -/
def pollReady (s : SendStream β) (answers : ℕ → PollSend) : SendStream β × PollSent :=
  let flushed := (s.flushChunk (answers 0)).1
  match (s.flushChunk (answers 0)).2 with
  | some r => (flushed, r)
  | none =>
      match hbuf : flushed.buf with
      | none => (flushed, .ready (.ok ()))
      | some data =>
          if hlen : (Buf.chunk data).length = 0 then ({ flushed with buf := none }, .ready (.ok ()))
          else
            -- loop back around to flush the chunk
            pollReady
              { flushed with
                chunk := some (copyToBytes (Buf.contents data) (Buf.chunk data).length)
                buf := some (Buf.advance data (Buf.chunk data).length) }
              fun n ↦ answers (n + 1)
termination_by ((s.buf.map Buf.contents).getD []).length
decreasing_by
  rw [flushChunk_buf] at hbuf
  simpa [hbuf] using Buf.length_advance_lt hlen

def sendData (s : SendStream β) (data : β) :
    SendStream β × Except StreamErrorIncoming Unit :=
  if s.buf.isSome then
    (s, .error (.connectionErrorIncoming (.internalError "internal error in the http stack")))
  else ({ s with buf := some data }, .ok ())

def pollFinish (s : SendStream β) (answers : ℕ → PollSend) (fin : Except StreamError Unit) :
    SendStream β × PollSent :=
  match s.pollReady answers with
  | (s', .pending) => (s', .pending)
  | (s', .ready (.error e)) => (s', .ready (.error e))
  | (s', .ready (.ok _)) =>
      match fin with
      | .error e => (s', .ready (.error (convertStreamErrorToH3StreamErrorIncoming e)))
      | .ok _ => ({ s' with stream := s'.stream ++ [.finish] }, .ready (.ok ()))

def reset (s : SendStream β) (code : UInt64) : SendStream β :=
  { s with
    stream := s.stream ++ [.reset (if h : code.toNat < 2 ^ 62 then .code ⟨code.toNat, h⟩
      else .unknown)] }

end SendStream

/-! ## What a poll can do -/

namespace SendStream

variable {β : Type*} {s : SendStream β}

theorem flushChunk_spec (s : SendStream β) (answer : PollSend) :
    (s.chunk.isSome ∧ ∃ r, r ≠ .ready (.ok ()) ∧ s.flushChunk answer = (s, some r)) ∨
      s.flushChunk answer =
        (⟨s.stream ++ s.chunk.toList.map .send, none, s.buf⟩, none) := by
  cases hchunk : s.chunk with
  | none =>
      obtain ⟨stream, chunk, buf⟩ := s
      obtain rfl : chunk = none := hchunk
      exact .inr (by simp [flushChunk])
  | some chunk =>
      cases answer with
      | pending => exact .inl ⟨rfl, .pending, by simp, by simp [flushChunk, hchunk]⟩
      | ready res =>
          cases res with
          | error e =>
              refine .inl ⟨rfl, .ready (.error _), ?_, by simp [flushChunk, hchunk]; rfl⟩
              simp
          | ok u => exact .inr (by simp [flushChunk, hchunk])

theorem flushChunk_returned {answer : PollSend} {r : PollSent}
    (h : (s.flushChunk answer).2 = some r) :
    (s.flushChunk answer).1 = s ∧ s.chunk.isSome ∧ r ≠ .ready (.ok ()) := by
  rcases s.flushChunk_spec answer with ⟨hsome, r', hne, heq⟩ | heq
  · rw [heq] at h ⊢
    obtain rfl : r' = r := Option.some.inj h
    exact ⟨rfl, hsome, hne⟩
  · rw [heq] at h
    cases h

theorem flushChunk_continued {answer : PollSend} (h : (s.flushChunk answer).2 = none) :
    (s.flushChunk answer).1 = ⟨s.stream ++ s.chunk.toList.map .send, none, s.buf⟩ := by
  rcases s.flushChunk_spec answer with ⟨-, r', -, heq⟩ | heq
  · rw [heq] at h
    cases h
  · rw [heq]

variable [Buf β]

/-- A chunk is not empty, and is only there beside the buffer it was taken from. -/
structure Inv (s : SendStream β) : Prop where
  chunk_ne_nil : ∀ c, s.chunk = some c → c ≠ []
  buf_of_chunk : s.chunk.isSome → s.buf.isSome

/-- The outcome of a poll: some chunks from the front of the queue have been
handed over, and all of the queue if the poll is ready. -/
structure Flushed (s s' : SendStream β) (r : PollSent) : Prop where
  inv : s'.Inv
  moved : ∃ chunks : List Bytes, s'.stream = s.stream ++ chunks.map .send ∧
    chunks.flatten ++ s'.queued = s.queued
  empty : r = .ready (.ok ()) → s'.chunk = none ∧ s'.buf = none
  stuck : r ≠ .ready (.ok ()) → s'.chunk.isSome

theorem Flushed.ready (hchunk : s.buf = none → s.chunk = none)
    (hempty : ∀ data, s.buf = some data → Buf.contents data = []) :
    Flushed s ⟨s.stream ++ s.chunk.toList.map .send, none, none⟩ (.ready (.ok ())) where
  inv := ⟨by simp, by simp⟩
  moved := by
    refine ⟨s.chunk.toList, rfl, ?_⟩
    cases hbuf : s.buf with
    | none => simp [queued, hbuf, hchunk hbuf]
    | some data =>
        have hnil := hempty data hbuf
        cases hc : s.chunk <;> simp [queued, hbuf, hc, hnil]
  empty _ := ⟨rfl, rfl⟩
  stuck hne := absurd rfl hne

theorem Flushed.loop {s' : SendStream β} {r : PollSent} {data : β} (hbuf : s.buf = some data)
    (h : Flushed ⟨s.stream ++ s.chunk.toList.map .send, some (Buf.chunk data),
      some (Buf.advance data (Buf.chunk data).length)⟩ s' r) : Flushed s s' r := by
  obtain ⟨chunks, hstream, hqueue⟩ := h.moved
  refine ⟨h.inv, ⟨s.chunk.toList ++ chunks, ?_, ?_⟩, h.empty, h.stuck⟩
  · rw [hstream]
    simp
  · calc
      (s.chunk.toList ++ chunks).flatten ++ s'.queued
          = s.chunk.toList.flatten ++ (chunks.flatten ++ s'.queued) := by simp
      _ = s.chunk.toList.flatten ++ (Buf.chunk data ++
            Buf.contents (Buf.advance data (Buf.chunk data).length)) := by
          rw [hqueue]
          rfl
      _ = s.queued := by
          rw [Buf.chunk_append_advance]
          cases hc : s.chunk <;> simp [queued, hc, hbuf]

theorem pollReady_spec (hs : s.Inv) (answers : ℕ → PollSend) :
    Flushed s (s.pollReady answers).1 (s.pollReady answers).2 := by
  -- the induction is on the bytes left in the buffer
  fun_induction pollReady s answers with
  | case1 s answers flushed r hret =>
      obtain ⟨hsame, hsome, hne⟩ := flushChunk_returned hret
      refine ⟨?_, ⟨[], ?_⟩, fun hr ↦ absurd hr hne, fun _ ↦ ?_⟩
      · exact hsame ▸ hs
      · simp [flushed, hsame]
      · exact hsame ▸ hsome
  | case2 s answers flushed hret hbuf =>
      have hflushed : flushed = _ := flushChunk_continued hret
      have hnone : s.buf = none := by simpa [flushed] using hbuf
      rw [hflushed, hnone]
      refine Flushed.ready (fun _ ↦ ?_) (by simp [hnone])
      simpa [hnone] using hs.buf_of_chunk
  | case3 s answers flushed hret data hbuf hlen =>
      have hflushed : flushed = _ := flushChunk_continued hret
      have hsome : s.buf = some data := by simpa [flushed] using hbuf
      rw [hflushed]
      refine Flushed.ready (by simp [hsome]) ?_
      intro data' hdata'
      obtain rfl : data = data' := Option.some.inj (hsome.symm.trans hdata')
      exact Buf.contents_eq_nil data (List.length_eq_zero_iff.mp hlen)
  | case4 s answers flushed hret data hbuf hlen ih =>
      have hflushed : flushed = _ := flushChunk_continued hret
      have hsome : s.buf = some data := by simpa [flushed] using hbuf
      rw [hflushed, Buf.copyToBytes_chunk] at ih ⊢
      exact (ih ⟨by simpa using hlen, by simp⟩).loop hsome

omit [Buf β] in
theorem flushChunk_ok (s : SendStream β) : (s.flushChunk (.ready (.ok ()))).2 = none := by
  cases hchunk : s.chunk <;> simp [flushChunk, hchunk]

/-- While s2n-quic takes every chunk, one poll is enough. -/
theorem pollReady_ok (s : SendStream β) {answers : ℕ → PollSend}
    (hok : ∀ n, answers n = .ready (.ok ())) : (s.pollReady answers).2 = .ready (.ok ()) := by
  fun_induction pollReady s answers with
  | case1 s answers flushed r hret =>
      rw [hok 0, flushChunk_ok] at hret
      cases hret
  | case2 s answers flushed hret hbuf => rfl
  | case3 s answers flushed hret data hbuf hlen => rfl
  | case4 s answers flushed hret data hbuf hlen ih => exact ih fun n ↦ hok (n + 1)

end SendStream

/-! ## Runs -/

inductive StreamEvent (β : Type*)
  | sendData (data : β)
  | pollReady (answers : ℕ → PollSend)
  | pollFinish (answers : ℕ → PollSend) (fin : Except StreamError Unit)
  | reset (code : UInt64)

inductive StreamOutput
  | sent (r : Except StreamErrorIncoming Unit)
  | polled (r : PollSent)
  | finished (r : PollSent)
  | quiet
  deriving DecidableEq, Repr

section Runs

variable {β : Type*} [Buf β]

namespace SendStream

def step (s : SendStream β) : StreamEvent β → SendStream β × StreamOutput
  | .sendData data =>
      let (s', r) := s.sendData data
      (s', .sent r)
  | .pollReady answers =>
      let (s', r) := s.pollReady answers
      (s', .polled r)
  | .pollFinish answers fin =>
      let (s', r) := s.pollFinish answers fin
      (s', .finished r)
  | .reset code => (s.reset code, .quiet)

abbrev Steps : SendStream β → StreamEvent β × StreamOutput → SendStream β → Prop := Fires step

end SendStream

/-- The bytes a call of `send_data` has been let in with. -/
def accepted : StreamEvent β × StreamOutput → Bytes
  | (.sendData data, .sent (.ok _)) => Buf.contents data
  | _ => []

def StreamOutput.isTaken : StreamOutput → Bool
  | .sent (.ok _) => true
  | _ => false

def StreamOutput.isReady : StreamOutput → Bool
  | .polled r | .finished r => r = .ready (.ok ())
  | _ => false

omit [Buf β] in
/-- Whether a poll has been ready since the last accepted `send_data`. -/
def readyAfter (tr : List (StreamEvent β × StreamOutput)) : Bool :=
  tr.foldl (fun ready l ↦ !l.2.isTaken && (l.2.isReady || ready)) true

omit [Buf β] in
theorem readyAfter_append (tr : List (StreamEvent β × StreamOutput))
    (l : StreamEvent β × StreamOutput) :
    readyAfter (tr ++ [l]) = (!l.2.isTaken && (l.2.isReady || readyAfter tr)) := by
  simp [readyAfter]

namespace SendStream

variable {s t : SendStream β} {l : StreamEvent β × StreamOutput}
  {tr : List (StreamEvent β × StreamOutput)}

/-- Everything a call on the stream can do. -/
inductive Move (s : SendStream β) : StreamEvent β × StreamOutput → SendStream β → Prop
  | taken (data : β) : s.buf = none →
      Move s (.sendData data, .sent (.ok ())) { s with buf := some data }
  | refused (data : β) (e : StreamErrorIncoming) : s.buf.isSome →
      Move s (.sendData data, .sent (.error e)) s
  | polled (answers : ℕ → PollSend) {t : SendStream β} {r : PollSent} : Flushed s t r →
      Move s (.pollReady answers, .polled r) t
  | unfinished (answers : ℕ → PollSend) (fin : Except StreamError Unit) {t : SendStream β}
      {r r' : PollSent} : r ≠ .ready (.ok ()) → Flushed s t r' →
      Move s (.pollFinish answers fin, .finished r) t
  | finished (answers : ℕ → PollSend) (fin : Except StreamError Unit) {t : SendStream β} :
      Flushed s t (.ready (.ok ())) →
      Move s (.pollFinish answers fin, .finished (.ready (.ok ())))
        { t with stream := t.stream ++ [.finish] }
  | reset (code : UInt64) (e : ApplicationError) :
      Move s (.reset code, .quiet) { s with stream := s.stream ++ [.reset e] }

theorem move_pollFinish (hs : s.Inv) (answers : ℕ → PollSend) (fin : Except StreamError Unit) :
    Move s (.pollFinish answers fin, .finished (s.pollFinish answers fin).2)
      (s.pollFinish answers fin).1 := by
  have hpoll := pollReady_spec hs answers
  generalize hres : s.pollReady answers = res at hpoll
  obtain ⟨t, r⟩ := res
  cases r with
  | pending =>
      simp only [pollFinish, hres]
      exact .unfinished _ _ (by simp) hpoll
  | ready res =>
      cases res with
      | error e =>
          simp only [pollFinish, hres]
          exact .unfinished _ _ (by simp) hpoll
      | ok u =>
          cases fin with
          | error e =>
              simp only [pollFinish, hres]
              exact .unfinished _ _ (by simp) hpoll
          | ok u =>
              simp only [pollFinish, hres]
              exact .finished _ _ hpoll

theorem move_of_steps (hs : s.Inv) (h : Steps s l t) : Move s l t := by
  obtain ⟨ev, out⟩ := l
  have hfires : s.step ev = (t, out) := h
  cases ev with
  | sendData data =>
      simp only [step, sendData] at hfires
      split at hfires
      · next hsome =>
          obtain ⟨rfl, rfl⟩ := Prod.mk.inj hfires
          exact .refused data _ hsome
      · next hnone =>
          obtain ⟨rfl, rfl⟩ := Prod.mk.inj hfires
          exact .taken data (by simpa using hnone)
  | pollReady answers =>
      obtain ⟨rfl, rfl⟩ := Prod.mk.inj hfires
      exact .polled answers (pollReady_spec hs answers)
  | pollFinish answers fin =>
      obtain ⟨rfl, rfl⟩ := Prod.mk.inj hfires
      exact move_pollFinish hs answers fin
  | reset code =>
      obtain ⟨rfl, rfl⟩ := Prod.mk.inj hfires
      exact .reset code _

theorem flatMap_bytes_send (chunks : List Bytes) :
    (chunks.map StreamOp.send).flatMap StreamOp.bytes = chunks.flatten := by
  induction chunks with
  | nil => rfl
  | cons chunk chunks ih => simp [ih, StreamOp.bytes]

theorem Flushed.conserved {r : PollSent} (h : Flushed s t r) :
    t.written ++ t.queued = s.written ++ s.queued := by
  obtain ⟨chunks, hstream, hqueue⟩ := h.moved
  have hwritten : t.written = s.written ++ chunks.flatten := by
    rw [written, hstream, List.flatMap_append, flatMap_bytes_send]
    rfl
  rw [hwritten, List.append_assoc, hqueue]

theorem Flushed.count_finish {r : PollSent} (h : Flushed s t r) :
    t.stream.count .finish = s.stream.count .finish := by
  obtain ⟨chunks, hstream, -⟩ := h.moved
  have hnone : (chunks.map StreamOp.send).count .finish = 0 := by
    simp [List.count_eq_zero]
  rw [hstream, List.count_append, hnone, Nat.add_zero]

theorem queued_eq_nil (hchunk : s.chunk = none) (hbuf : s.buf = none) : s.queued = [] := by
  simp [queued, hchunk, hbuf]

theorem Flushed.of_drained {r : PollSent} (h : Flushed s t r)
    (hs : s.chunk = none ∧ s.buf = none) : t.chunk = none ∧ t.buf = none := by
  apply h.empty
  by_contra hr
  obtain ⟨chunks, -, hqueue⟩ := h.moved
  obtain ⟨c, hc⟩ := Option.isSome_iff_exists.mp (h.stuck hr)
  rw [queued_eq_nil hs.1 hs.2] at hqueue
  have hnil : t.queued = [] := (List.append_eq_nil_iff.mp hqueue).2
  have hne := h.inv.chunk_ne_nil c hc
  simp [queued, hc, hne] at hnil

/-- What holds after every history of calls. -/
structure Accounted (tr : List (StreamEvent β × StreamOutput)) (s : SendStream β) : Prop where
  inv : s.Inv
  conserved : s.written ++ s.queued = tr.flatMap accepted
  drained : readyAfter tr = true → s.chunk = none ∧ s.buf = none

theorem Accounted.step (h : Accounted tr s) (hstep : Steps s l t) : Accounted (tr ++ [l]) t := by
  have hmove := move_of_steps h.inv hstep
  cases hmove with
  | taken data hnone =>
      have hchunk : s.chunk = none := by simpa [hnone] using h.inv.buf_of_chunk
      have hwritten : s.written = tr.flatMap accepted := by
        rw [← h.conserved, queued_eq_nil hchunk hnone, List.append_nil]
      refine ⟨⟨h.inv.chunk_ne_nil, fun _ ↦ rfl⟩, ?_, ?_⟩
      · rw [List.flatMap_append, ← hwritten]
        simp [written, queued, accepted, hchunk]
      · intro hready
        simp [readyAfter_append, StreamOutput.isTaken] at hready
  | refused data e hsome =>
      refine ⟨h.inv, by simpa [accepted] using h.conserved, ?_⟩
      simpa [readyAfter_append, StreamOutput.isTaken, StreamOutput.isReady] using h.drained
  | @polled answers _ r hflushed =>
      refine ⟨hflushed.inv, by simpa [accepted, hflushed.conserved] using h.conserved, ?_⟩
      intro hready
      by_cases hr : r = .ready (.ok ())
      · exact hflushed.empty hr
      · simp only [readyAfter_append, StreamOutput.isTaken, StreamOutput.isReady, hr] at hready
        exact hflushed.of_drained (h.drained (by simpa using hready))
  | @unfinished answers fin _ r r' hr hflushed =>
      refine ⟨hflushed.inv, by simpa [accepted, hflushed.conserved] using h.conserved, ?_⟩
      intro hready
      simp only [readyAfter_append, StreamOutput.isTaken, StreamOutput.isReady, hr] at hready
      exact hflushed.of_drained (h.drained (by simpa using hready))
  | @finished answers fin u hflushed =>
      obtain ⟨hchunk, hbuf⟩ := hflushed.empty rfl
      refine ⟨⟨by simp [hchunk], by simp [hchunk]⟩, ?_, fun _ ↦ ⟨hchunk, hbuf⟩⟩
      have hconserved := hflushed.conserved.trans h.conserved
      simpa [accepted, written, queued, StreamOp.bytes] using hconserved
  | reset code e =>
      refine ⟨⟨h.inv.chunk_ne_nil, h.inv.buf_of_chunk⟩, ?_, ?_⟩
      · simpa [accepted, written, queued, StreamOp.bytes] using h.conserved
      · simpa [readyAfter_append, StreamOutput.isTaken, StreamOutput.isReady] using h.drained

theorem accounted_of_run (h : Run Steps (new : SendStream β) tr s) : Accounted tr s :=
  h.history (fun _ _ _ _ hacc hstep ↦ hacc.step hstep)
    ⟨⟨by simp [new], by simp [new]⟩, rfl, fun _ ↦ ⟨rfl, rfl⟩⟩

end SendStream

open SendStream

variable {s : SendStream β} {tr : List (StreamEvent β × StreamOutput)}

/-- Whatever is called on the stream, and whatever s2n-quic answers, the bytes
let in are those handed over followed by those still queued.  A poll that is
ready has handed over all of them, and the stream is finished only then. -/
theorem s2n_stream_in_order (h : Run Steps (new : SendStream β) tr s) :
    s.written ++ s.queued = tr.flatMap accepted ∧
    (∀ answers t, Steps s (.pollReady answers, .polled (.ready (.ok ()))) t →
      t.written = tr.flatMap accepted) ∧
    (∀ answers fin t, Steps s (.pollFinish answers fin, .finished (.ready (.ok ()))) t →
      t.written = tr.flatMap accepted ∧ t.stream.getLast? = some .finish) ∧
    (∀ l t, Steps s l t → t.stream.count .finish ≠ s.stream.count .finish →
      l.2 = .finished (.ready (.ok ()))) := by
  have hacc := accounted_of_run h
  refine ⟨hacc.conserved, ?_, ?_, ?_⟩
  · intro answers t hstep
    have hnext := hacc.step hstep
    obtain ⟨hchunk, hbuf⟩ := hnext.drained (by
      simp [readyAfter_append, StreamOutput.isTaken, StreamOutput.isReady])
    simpa [queued_eq_nil hchunk hbuf, accepted] using hnext.conserved
  · intro answers fin t hstep
    have hnext := hacc.step hstep
    obtain ⟨hchunk, hbuf⟩ := hnext.drained (by
      simp [readyAfter_append, StreamOutput.isTaken, StreamOutput.isReady])
    refine ⟨by simpa [queued_eq_nil hchunk hbuf, accepted] using hnext.conserved, ?_⟩
    cases move_of_steps hacc.inv hstep with
    | unfinished _ _ hr _ => exact absurd rfl hr
    | finished _ _ hflushed => simp
  · intro l t hstep hcount
    cases move_of_steps hacc.inv hstep with
    | taken data hnone => exact absurd rfl hcount
    | refused data e hsome => exact absurd rfl hcount
    | polled answers hflushed => exact absurd hflushed.count_finish hcount
    | unfinished answers fin hr hflushed => exact absurd hflushed.count_finish hcount
    | finished answers fin hflushed => rfl
    | reset code e => simp at hcount

/-- The header of a frame is taken and its payload is not. -/
theorem s2n_stream_in_order_blocked :
    let answers : ℕ → PollSend := fun n ↦ if n = 1 then .ready (.ok ()) else .pending
    let s := exec step (new : SendStream WriteBuf) [.sendData ⟨[0, 2], [7, 8]⟩, .pollReady answers]
    s.written = [0, 2] ∧ s.written ++ s.queued = [0, 2, 7, 8] := by
  intro answers s
  refine ⟨?_, (s2n_stream_in_order (run_exec step new _)).1⟩
  simp [s, exec, step, new, sendData, pollReady, flushChunk, answers, Buf.chunk, Buf.advance,
    Buf.contents, copyToBytes, written, StreamOp.bytes]

/-- As h3 uses the stream, calling `send_data` only after a ready poll, it is
never refused, and a refused call has no effect.  Once s2n-quic takes every
chunk, a single poll makes the stream ready again. -/
theorem s2n_send_data_after_ready (h : Run Steps (new : SendStream β) tr s) :
    (readyAfter tr = true → ∀ data, (s.step (.sendData data)).2 = .sent (.ok ())) ∧
    (∀ data e t, Steps s (.sendData data, .sent (.error e)) t → t = s ∧ readyAfter tr = false) ∧
    (∀ answers, (∀ n, answers n = .ready (.ok ())) →
      ∃ t, Steps s (.pollReady answers, .polled (.ready (.ok ()))) t ∧
        t.written = tr.flatMap accepted ∧
        ∀ data, (t.step (.sendData data)).2 = .sent (.ok ())) := by
  have hacc := accounted_of_run h
  refine ⟨?_, ?_, ?_⟩
  · intro hready data
    simp [step, sendData, (hacc.drained hready).2]
  · intro data e t hstep
    cases move_of_steps hacc.inv hstep with
    | refused _ _ hsome =>
        refine ⟨rfl, ?_⟩
        by_contra hready
        simp [(hacc.drained (by simpa using hready)).2] at hsome
  · intro answers hok
    have hstep : Steps s (.pollReady answers, .polled (.ready (.ok ())))
        (s.pollReady answers).1 := by
      simp [Fires, step, ← pollReady_ok s hok]
    have hnext := hacc.step hstep
    obtain ⟨hchunk, hbuf⟩ := hnext.drained (by
      simp [readyAfter_append, StreamOutput.isTaken, StreamOutput.isReady])
    refine ⟨_, hstep, by simpa [queued_eq_nil hchunk hbuf, accepted] using hnext.conserved, ?_⟩
    intro data
    simp [step, sendData, hbuf]

/-- A second frame before the first one is flushed is refused, and let in after
the next poll. -/
theorem s2n_send_data_after_ready_twice :
    let s := exec step (new : SendStream WriteBuf) [.sendData ⟨[0, 1], [7]⟩]
    (s.step (.sendData ⟨[0, 1], [8]⟩)).1 = s ∧
      ∃ t, Steps s (.pollReady fun _ ↦ .ready (.ok ()), .polled (.ready (.ok ()))) t ∧
        t.written = [0, 1, 7] ∧ (t.step (.sendData ⟨[0, 1], [8]⟩)).2 = .sent (.ok ()) := by
  intro s
  have hspec := s2n_send_data_after_ready (run_exec step (new : SendStream WriteBuf)
    [.sendData ⟨[0, 1], [7]⟩])
  refine ⟨(hspec.2.1 ⟨[0, 1], [8]⟩ _ _ rfl).1, ?_⟩
  obtain ⟨t, hstep, hwritten, hready⟩ := hspec.2.2 (fun _ ↦ .ready (.ok ())) (fun _ ↦ rfl)
  exact ⟨t, hstep, hwritten, hready _⟩

end Runs

end S2n

end TonicH3
