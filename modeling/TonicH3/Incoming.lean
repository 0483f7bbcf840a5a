import TonicH3.H3

/-!
# Incoming bodies

`H3IncomingClient` and `H3IncomingServer` read a request stream through the
same frame machine: data until the inner stream reports its end, then trailers.
The machine is written once over an abstract receive half; the two bodies add
what they do when they are dropped.
-/

namespace TonicH3

/-- The receive half of an h3 `RequestStream`. -/
class RecvStream (σ : Type*) where
  pollRecvData : σ → Poll (Except StreamError (Option Bytes)) × σ
  pollRecvTrailers : σ → Poll (Except StreamError (Option HeaderMap)) × σ
  stopSending : Code → σ → σ

open RecvStream

structure Incoming (σ : Type*) where
  s : σ
  dataDone : Bool
  finished : Bool
  deriving DecidableEq, Repr

/-- The outcome of one `poll_frame`: its result, whether the task woke itself,
and the body afterwards. -/
structure FramePoll (σ : Type*) where
  result : Poll (Option (Except StreamError Frame))
  woken : Bool
  body : Incoming σ

namespace Incoming

variable {σ : Type*} [RecvStream σ]

def new (s : σ) : Incoming σ := ⟨s, false, false⟩

def pollFrame (b : Incoming σ) : FramePoll σ :=
  if !b.dataDone then
    match pollRecvData b.s with
    | (.pending, s) => ⟨.pending, false, { b with s := s }⟩
    | (.ready (.ok (some data)), s) =>
        ⟨.ready (some (.ok (.data (copyToBytes data (remaining data))))), false, { b with s := s }⟩
    -- the switch to trailers is a `Pending` that wakes the task itself
    | (.ready (.ok none), s) => ⟨.pending, true, { b with s := s, dataDone := true }⟩
    | (.ready (.error e), s) =>
        ⟨.ready (some (.error e)), false, { b with s := s, finished := true }⟩
  else
    match pollRecvTrailers b.s with
    | (.pending, s) => ⟨.pending, false, { b with s := s }⟩
    | (.ready (.ok (some tr)), s) =>
        ⟨.ready (some (.ok (.trailers tr))), false, { b with s := s }⟩
    | (.ready (.ok none), s) => ⟨.ready none, false, { b with s := s, finished := true }⟩
    | (.ready (.error e), s) =>
        ⟨.ready (some (.error e)), false, { b with s := s, finished := true }⟩

/-- `Drop::drop` with the code the body stops an unfinished stream with. -/
def dropWith (code : Code) (b : Incoming σ) : σ :=
  if !b.finished then stopSending code b.s else b.s

end Incoming

/-! ## Receive halves driven by the environment -/

structure RecvAnswer where
  data : Poll (Except StreamError (Option Bytes))
  trailers : Poll (Except StreamError (Option HeaderMap))
  deriving DecidableEq, Repr

def RecvAnswer.silent : RecvAnswer := ⟨.pending, .pending⟩

/-- A receive half whose answers are chosen by the environment.  It remembers
whether its end or a stream error has been observed, the codes it was stopped
with, and whether it has been dropped. -/
structure RecvHalf where
  answer : RecvAnswer
  ended : Bool
  stopped : List Code
  dropped : Bool
  deriving DecidableEq, Repr

namespace RecvHalf

def new : RecvHalf := ⟨.silent, false, [], false⟩

def endsData : Poll (Except StreamError (Option Bytes)) → Bool
  | .ready (.error _) => true
  | _ => false

def endsTrailers : Poll (Except StreamError (Option HeaderMap)) → Bool
  | .ready (.error _) | .ready (.ok none) => true
  | _ => false

instance : RecvStream RecvHalf where
  pollRecvData s := (s.answer.data, { s with ended := s.ended || endsData s.answer.data })
  pollRecvTrailers s :=
    (s.answer.trailers, { s with ended := s.ended || endsTrailers s.answer.trailers })
  stopSending code s := { s with stopped := s.stopped ++ [code] }

def drop (s : RecvHalf) : RecvHalf := { s with dropped := true }

end RecvHalf

end TonicH3
