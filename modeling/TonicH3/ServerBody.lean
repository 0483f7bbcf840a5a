import TonicH3.Incoming
import TonicH3.SendLoop

/-!
# Server bodies

`H3IncomingServer` and the response loop `send_h3_server_body`, a plain
`while let` over the frames of the body that borrows its send half.
-/

namespace TonicH3

structure H3IncomingServer (σ : Type*) extends Incoming σ
  deriving DecidableEq, Repr

namespace H3IncomingServer

variable {σ : Type*} [RecvStream σ]

def new (s : σ) : H3IncomingServer σ := ⟨.new s⟩

def pollFrame (b : H3IncomingServer σ) : FramePoll σ := b.toIncoming.pollFrame

def drop (b : H3IncomingServer σ) : σ := b.toIncoming.dropWith .h3NoError

end H3IncomingServer

/-- One step of `send_h3_server_body`, from one await to the next. -/
def sendH3ServerBody (a : Answers) : SendFuture → SendFuture × Signal
  | .unpolled w bd => (.running .nextFrame (.new w) bd, .again)
  | .running .nextFrame w bd =>
      match bd.pollFrame a.body with
      | (.pending, bd) => (.running .nextFrame w bd, .pending)
      | (.ready (some d), bd) =>
          match d with
          | .error e =>
              let w := w.setErrorCode .h3InternalError
              (.returned (Ownership.borrowed.release w.drop) bd (.error e), .failed e)
          | .ok d => (.running (.sending d (writeOf d)) w bd, .again)
      | (.ready none, bd) => (.running .finishing w bd, .again)
  | .running (.sending d rest) w bd =>
      match a.op with
      | .pending k =>
          (.running (.sending d (rest.drop k)) (w.onStream (·.put (rest.take k))) bd, .pending)
      | .ok =>
          (.running .nextFrame (w.onStream fun s ↦ (s.put rest).record (.write d true)) bd, .again)
      | .err k e =>
          let w := w.onStream fun s ↦ (s.put (rest.take k)).record (.write d false)
          let w := w.setErrorCode .h3InternalError
          (.returned (Ownership.borrowed.release w.drop) bd (.error (.stream e)),
            .failed (.stream e))
  | .running .finishing w bd =>
      match a.op with
      | .pending _ => (.running .finishing w bd, .pending)
      | .ok =>
          let w := (w.onStream SendStream.finish).disarm
          (.returned (Ownership.borrowed.release w.drop) bd (.ok ()), .finished)
      | .err _ e =>
          let w := w.onStream (·.record (.finish false))
          let w := w.setErrorCode .h3InternalError
          (.returned (Ownership.borrowed.release w.drop) bd (.error (.stream e)),
            .failed (.stream e))
  | fut => (fut, .pending)

theorem sendH3ServerBody_move (a : Answers) {fut : SendFuture} (hlive : fut.isOver = false) :
    SendMove .borrowed fut (sendH3ServerBody a fut).1 (sendH3ServerBody a fut).2 := by
  cases fut with
  | unpolled w bd => exact .start w bd
  | returned w bd res => cases hlive
  | dropped w bd => cases hlive
  | running pc g bd =>
      cases pc with
      | nextFrame =>
          rcases bd.pollFrame_cases a.body with h | ⟨f, fs, hrest, h⟩ | ⟨hrest, hend, h⟩ |
            ⟨e, hrest, hend, h⟩
          · simp only [sendH3ServerBody, h]
            exact .wait g bd
          · simp only [sendH3ServerBody, h, writeOf_eq]
            exact .take g bd f fs hrest
          · simp only [sendH3ServerBody, h]
            exact .sourceEnd g bd hrest hend
          · simp only [sendH3ServerBody, h]
            exact .sourceError g bd e hrest hend
      | sending f rest =>
          simp only [sendH3ServerBody]
          cases a.op with
          | pending k => exact .writePending f rest g bd k
          | ok => exact .writeOk f rest g bd
          | err k e => exact .writeErr f rest g bd k e
      | finishing =>
          simp only [sendH3ServerBody]
          cases a.op with
          | pending k => exact .finishPending g bd
          | ok => exact .finishOk g bd
          | err k e => exact .finishErr g bd e

end TonicH3
