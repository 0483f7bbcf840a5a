import TonicH3.ClientBody
import TonicH3.EventRun

/-!
# One exchange: `send_request_inner` and what outlives it

An exchange is the future of `send_request_inner`, the upload it may leave
behind in a background task, and the response body it hands to the caller.
The resources whose owner matters are explicit: the clone of the h3
`SendRequest`, the sender of the cancellation channel, and the receive half.
They move and are dropped where the source moves and drops them.

The environment answers every await.  The upload advances by single steps of
`send_h3_client_body`, so an exchange can be interleaved with its caller at
every await of the upload.
-/

namespace TonicH3

abbrev Conn := ℕ

abbrev Flag := ℕ

/-- Where the sender of the cancellation channel is: not created yet, a local
of the future, a field of the response body, or dropped. -/
inductive CancelTx
  | unborn
  | frame
  | body
  | gone
  deriving DecidableEq, Repr

inductive Site
  | sendRequest
  | bodySend
  | recvResponse
  deriving DecidableEq, Repr

inductive Phase
  | opening (bd : Body)
  | eager
  | receiving
  | responded (b : H3IncomingClient RecvHalf)
  | failed (site : Site) (e : Error)
  | abandoned
  | bodyDropped
  deriving DecidableEq, Repr

/-- `conn` is the connection whose sender `call` cloned; `sendRequest` is that
clone for as long as the future owns it. -/
structure Exchange where
  conn : Conn
  closing : Flag
  phase : Phase
  sendRequest : Option Conn
  bodyFut : Option SendFuture
  cancelTx : CancelTx
  r : Option RecvHalf
  deriving DecidableEq, Repr

inductive SendRequestAnswer
  | pending
  | ok
  | err (e : StreamError)
  deriving DecidableEq, Repr

/-- `streamOpen` says that the error left the receive half open, and not already
stopped by h3 itself. -/
inductive RecvResponseAnswer
  | pending
  | ok
  | err (e : StreamError) (streamOpen : Bool)
  deriving DecidableEq, Repr

inductive ExchangeEvent
  | sendRequest (a : SendRequestAnswer)
  | upload (a : Answers)
  | dropUpload
  | recvResponse (a : RecvResponseAnswer)
  | dropFuture
  | pollBody (a : RecvAnswer)
  | dropBody
  deriving DecidableEq, Repr

/-- What an event made visible: a store to the closing flag, the signal of an
upload step, the result of a `poll_frame`. -/
structure ExchangeOut where
  setClosing : Bool
  signal : Option Signal
  frame : Option (Poll (Option (Except StreamError Frame)))
  deriving DecidableEq, Repr

def ExchangeOut.quiet : ExchangeOut := ⟨false, none, none⟩

section Classify

variable [Http3]

def isConnectionClosing (e : StreamError) : Bool :=
  startsWith (Http3.display e) "Remote is closing the connection" ||
    startsWith (Http3.display e) "Connection error:"

theorem isConnectionClosing_eq_false {e : StreamError} {p : String}
    (hp : startsWith (Http3.display e) p = true)
    (h : (¬ p.toList <+: "Remote is closing the connection".toList ∧
        ¬ "Remote is closing the connection".toList <+: p.toList) ∧
      ¬ p.toList <+: "Connection error:".toList ∧ ¬ "Connection error:".toList <+: p.toList) :
    isConnectionClosing e = false := by
  have hgoaway := startsWith_eq_false hp h.1.1 h.1.2
  have hconn := startsWith_eq_false hp h.2.1 h.2.2
  simp [isConnectionClosing, hgoaway, hconn]

/-- The text-based classifier recognises exactly the connection-level kinds. -/
theorem isConnectionClosing_eq (e : StreamError) :
    isConnectionClosing e = e.isConnectionLevel := by
  cases e with
  | streamError r => exact isConnectionClosing_eq_false (Http3.display_streamError r) (by decide)
  | remoteReset r => exact isConnectionClosing_eq_false (Http3.display_remoteReset r) (by decide)
  | connectionError r =>
      simp [isConnectionClosing, StreamError.isConnectionLevel, Http3.display_connectionError r]
  | headerTooBig r =>
      exact isConnectionClosing_eq_false (Http3.display_headerTooBig r) (by decide)
  | remoteClosing =>
      simp [isConnectionClosing, StreamError.isConnectionLevel, Http3.display_remoteClosing]
  | undefined r => exact isConnectionClosing_eq_false (Http3.display_undefined r) (by decide)

end Classify

namespace Exchange

def new (conn : Conn) (closing : Flag) (sc : BodyScript) : Exchange :=
  ⟨conn, closing, .opening (.new sc), some conn, none, .unborn, none⟩

/-- The end of `send_request_inner`, or the drop of its suspended future: the
locals that have not been moved out are dropped. -/
def dropFrame (x : Exchange) : Exchange :=
  { x with
    sendRequest := none
    cancelTx := match x.cancelTx with
      | .frame => .gone
      | tx => tx
    r := x.r.map RecvHalf.drop }

def cancelResolved (x : Exchange) : Bool := x.cancelTx == .gone

/-- After the eager poll: a pending upload goes to the executor, a completed
one is done with, a failed one ends the request. -/
def afterEager (x : Exchange) : Signal → Exchange
  | .again => x
  | .pending | .cancelled | .finished => { x with phase := .receiving }
  | .failed e => { x with phase := .failed .bodySend e }.dropFrame

def onUpload (x : Exchange) (a : Answers) : Exchange × ExchangeOut :=
  match x.bodyFut with
  | none => (x, .quiet)
  | some fut =>
      if fut.isOver then (x, .quiet)
      else
        let (fut, signal) := sendH3ClientBody x.cancelResolved a fut
        let x := { x with bodyFut := some fut }
        (if x.phase = .eager then x.afterEager signal else x, ⟨false, some signal, none⟩)

def onDropUpload (x : Exchange) : Exchange :=
  if x.phase = .eager then x
  else { x with bodyFut := x.bodyFut.map (SendFuture.drop .owned) }

variable [Http3]

def onSendRequest (x : Exchange) (bd : Body) : SendRequestAnswer → Exchange × ExchangeOut
  | .pending => (x, .quiet)
  | .ok =>
      ({ x with
          phase := .eager
          bodyFut := some (.unpolled .new bd)
          cancelTx := .frame
          r := some .new }, .quiet)
  | .err e =>
      ({ x with phase := .failed .sendRequest (.stream e) }.dropFrame,
        ⟨isConnectionClosing e, none, none⟩)

def onRecvResponse (x : Exchange) (r : RecvHalf) : RecvResponseAnswer → Exchange × ExchangeOut
  | .pending => (x, .quiet)
  | .ok =>
      ({ x with
          phase := .responded (.new r true)
          cancelTx := .body
          r := none }.dropFrame, .quiet)
  | .err e streamOpen =>
      ({ x with
          phase := .failed .recvResponse (.stream e)
          r := some { r with ended := r.ended || !streamOpen } }.dropFrame,
        ⟨isConnectionClosing e, none, none⟩)

/-- One event of an exchange; an event its phase does not offer changes nothing. -/
def step (x : Exchange) : ExchangeEvent → Exchange × ExchangeOut
  | .sendRequest a =>
      match x.phase with
      | .opening bd => x.onSendRequest bd a
      | _ => (x, .quiet)
  | .upload a => x.onUpload a
  | .dropUpload => (x.onDropUpload, .quiet)
  | .recvResponse a =>
      match x.phase, x.r with
      | .receiving, some r => x.onRecvResponse r a
      | _, _ => (x, .quiet)
  | .dropFuture =>
      match x.phase with
      | .opening _ | .receiving => ({ x with phase := .abandoned }.dropFrame, .quiet)
      | _ => (x, .quiet)
  | .pollBody a =>
      match x.phase with
      | .responded b =>
          let p := H3IncomingClient.pollFrame { b with s := { b.s with answer := a } }
          ({ x with phase := .responded { b with toIncoming := p.body } },
            ⟨false, none, some p.result⟩)
      | _ => (x, .quiet)
  | .dropBody =>
      match x.phase with
      | .responded b =>
          ({ x with
              phase := .bodyDropped
              cancelTx := if b.cancelBodySend then .gone else x.cancelTx
              r := some b.drop.drop }, .quiet)
      | _ => (x, .quiet)

abbrev Steps : Exchange → ExchangeEvent × ExchangeOut → Exchange → Prop := EventRun.Fires step

end Exchange

namespace Phase

def inFlight : Phase → Bool
  | .opening _ | .eager | .receiving => true
  | _ => false

def isAbandoned : Phase → Bool
  | .failed _ _ | .abandoned | .bodyDropped => true
  | _ => false

end Phase

/-! ## What one event can do -/

namespace Exchange

@[simp] theorem dropFrame_conn (x : Exchange) : x.dropFrame.conn = x.conn := rfl

@[simp] theorem dropFrame_closing (x : Exchange) : x.dropFrame.closing = x.closing := rfl

@[simp] theorem dropFrame_phase (x : Exchange) : x.dropFrame.phase = x.phase := rfl

@[simp] theorem dropFrame_sendRequest (x : Exchange) : x.dropFrame.sendRequest = none := rfl

@[simp] theorem dropFrame_bodyFut (x : Exchange) : x.dropFrame.bodyFut = x.bodyFut := rfl

section Moves

variable [Http3]

inductive Move (x : Exchange) : Exchange → ExchangeOut → Prop
  | stutter : Move x x .quiet
  | opened (bd : Body) : x.phase = .opening bd →
      Move x { x with
        phase := .eager
        bodyFut := some (.unpolled .new bd)
        cancelTx := .frame
        r := some .new } .quiet
  | rejected (bd : Body) (e : StreamError) : x.phase = .opening bd →
      Move x { x with phase := .failed .sendRequest (.stream e) }.dropFrame
        ⟨isConnectionClosing e, none, none⟩
  | eagerly (a : Answers) (fut fut' : SendFuture) (signal : Signal) :
      x.bodyFut = some fut → fut.isOver = false → x.phase = .eager →
      sendH3ClientBody x.cancelResolved a fut = (fut', signal) →
      Move x ({ x with bodyFut := some fut' }.afterEager signal) ⟨false, some signal, none⟩
  | background (a : Answers) (fut fut' : SendFuture) (signal : Signal) :
      x.bodyFut = some fut → fut.isOver = false → x.phase ≠ .eager →
      sendH3ClientBody x.cancelResolved a fut = (fut', signal) →
      Move x { x with bodyFut := some fut' } ⟨false, some signal, none⟩
  | uploadDropped : x.phase ≠ .eager →
      Move x { x with bodyFut := x.bodyFut.map (SendFuture.drop .owned) } .quiet
  | responded (r : RecvHalf) : x.phase = .receiving → x.r = some r →
      Move x { x with phase := .responded (.new r true), cancelTx := .body, r := none }.dropFrame
        .quiet
  | refused (r : RecvHalf) (e : StreamError) (streamOpen : Bool) :
      x.phase = .receiving → x.r = some r →
      Move x { x with
        phase := .failed .recvResponse (.stream e)
        r := some { r with ended := r.ended || !streamOpen } }.dropFrame
        ⟨isConnectionClosing e, none, none⟩
  | futureDropped : (∃ bd, x.phase = .opening bd) ∨ x.phase = .receiving →
      Move x { x with phase := .abandoned }.dropFrame .quiet
  | bodyPolled (b : H3IncomingClient RecvHalf) (p : FramePoll RecvHalf) :
      x.phase = .responded b →
      Move x { x with phase := .responded { b with toIncoming := p.body } }
        ⟨false, none, some p.result⟩
  | bodyDropped (b : H3IncomingClient RecvHalf) : x.phase = .responded b →
      Move x { x with
        phase := .bodyDropped
        cancelTx := if b.cancelBodySend then .gone else x.cancelTx
        r := some b.drop.drop } .quiet

theorem onUpload_move (x : Exchange) (a : Answers) :
    Move x (x.onUpload a).1 (x.onUpload a).2 := by
  unfold onUpload
  cases hfut : x.bodyFut with
  | none => exact .stutter
  | some fut =>
      cases hover : fut.isOver with
      | true => simpa [hover] using Move.stutter
      | false =>
          generalize hstep : sendH3ClientBody x.cancelResolved a fut = res
          obtain ⟨fut', signal⟩ := res
          by_cases heager : x.phase = .eager
          · simpa [hover, hstep, heager] using
              Move.eagerly a fut fut' signal hfut hover heager hstep
          · simpa [hover, hstep, heager] using
              Move.background a fut fut' signal hfut hover heager hstep

theorem step_move (x : Exchange) (ev : ExchangeEvent) : Move x (x.step ev).1 (x.step ev).2 := by
  cases ev with
  | sendRequest a =>
      cases hphase : x.phase with
      | opening bd =>
          cases a with
          | pending => simpa [step, hphase, onSendRequest] using Move.stutter
          | ok => simpa [step, hphase, onSendRequest] using Move.opened bd hphase
          | err e => simpa [step, hphase, onSendRequest] using Move.rejected bd e hphase
      | _ => simpa [step, hphase] using Move.stutter
  | upload a => exact x.onUpload_move a
  | dropUpload =>
      by_cases heager : x.phase = .eager
      · simpa [step, onDropUpload, heager] using Move.stutter
      · simpa [step, onDropUpload, heager] using Move.uploadDropped heager
  | recvResponse a =>
      cases hphase : x.phase with
      | receiving =>
          cases hr : x.r with
          | none => simpa [step, hphase, hr] using Move.stutter
          | some r =>
              cases a with
              | pending => simpa [step, hphase, hr, onRecvResponse] using Move.stutter
              | ok => simpa [step, hphase, hr, onRecvResponse] using Move.responded r hphase hr
              | err e streamOpen =>
                  simpa [step, hphase, hr, onRecvResponse] using
                    Move.refused r e streamOpen hphase hr
      | _ => simpa [step, hphase] using Move.stutter
  | dropFuture =>
      cases hphase : x.phase with
      | opening bd => simpa [step, hphase] using Move.futureDropped (.inl ⟨bd, hphase⟩)
      | receiving => simpa [step, hphase] using Move.futureDropped (.inr hphase)
      | _ => simpa [step, hphase] using Move.stutter
  | pollBody a =>
      cases hphase : x.phase with
      | responded b =>
          simpa [step, hphase] using Move.bodyPolled b
            (H3IncomingClient.pollFrame { b with s := { b.s with answer := a } }) hphase
      | _ => simpa [step, hphase] using Move.stutter
  | dropBody =>
      cases hphase : x.phase with
      | responded b => simpa [step, hphase] using Move.bodyDropped b hphase
      | _ => simpa [step, hphase] using Move.stutter

variable {x x' : Exchange} {o : ExchangeOut}

theorem move_of_steps {l : ExchangeEvent × ExchangeOut} (h : Steps x l x') : Move x x' l.2 := by
  have hmove := x.step_move l.1
  rw [h] at hmove
  exact hmove

end Moves

end Exchange

end TonicH3
