import TonicH3.Incoming
import TonicH3.SendLoop

/-!
# Client bodies

`H3IncomingClient` and the upload loop `send_h3_client_body`.  The loop races
the next frame of the body against a cancellation receiver in a biased
`select!`, so a cancellation that has arrived is always taken first.
-/

namespace TonicH3

/-- The response body.  `cancelBodySend` says whether it still holds the
sender whose drop cancels the upload. -/
structure H3IncomingClient (σ : Type*) extends Incoming σ where
  cancelBodySend : Bool
  deriving DecidableEq, Repr

namespace H3IncomingClient

variable {σ : Type*} [RecvStream σ]

def new (s : σ) (cancelBodySend : Bool) : H3IncomingClient σ := ⟨.new s, cancelBodySend⟩

def pollFrame (b : H3IncomingClient σ) : FramePoll σ := b.toIncoming.pollFrame

def drop (b : H3IncomingClient σ) : σ := b.toIncoming.dropWith .h3RequestCancelled

end H3IncomingClient

/-- One step of `send_h3_client_body`, from one await to the next.  `cancel`
says that the cancellation receiver has resolved. -/
def sendH3ClientBody (cancel : Bool) (a : Answers) : SendFuture → SendFuture × Signal
  | .unpolled w bd => (.running .nextFrame (.new w) bd, .again)
  | .running .nextFrame w bd =>
      if cancel then
        -- the guard stays armed with H3_REQUEST_CANCELLED
        (.returned (Ownership.owned.release w.drop) bd (.ok ()), .cancelled)
      else
        match bd.pollFrame a.body with
        | (.pending, bd) => (.running .nextFrame w bd, .pending)
        | (.ready none, bd) => (.running .finishing w bd, .again)
        | (.ready (some (.error e)), bd) =>
            let w := w.setErrorCode .h3InternalError
            (.returned (Ownership.owned.release w.drop) bd (.error e), .failed e)
        | (.ready (some (.ok d)), bd) => (.running (.sending d (writeOf d)) w bd, .again)
  | .running (.sending d rest) w bd =>
      match a.op with
      | .pending k =>
          (.running (.sending d (rest.drop k)) (w.onStream (·.put (rest.take k))) bd, .pending)
      | .ok =>
          (.running .nextFrame (w.onStream fun s ↦ (s.put rest).record (.write d true)) bd, .again)
      | .err k e =>
          let w := w.onStream fun s ↦ (s.put (rest.take k)).record (.write d false)
          let w := w.setErrorCode .h3InternalError
          (.returned (Ownership.owned.release w.drop) bd (.error (.stream e)), .failed (.stream e))
  | .running .finishing w bd =>
      match a.op with
      | .pending _ => (.running .finishing w bd, .pending)
      | .ok =>
          let w := (w.onStream SendStream.finish).disarm
          (.returned (Ownership.owned.release w.drop) bd (.ok ()), .finished)
      | .err _ e =>
          let w := w.onStream (·.record (.finish false))
          let w := w.setErrorCode .h3InternalError
          (.returned (Ownership.owned.release w.drop) bd (.error (.stream e)), .failed (.stream e))
  | fut => (fut, .pending)

theorem sendH3ClientBody_move (cancel : Bool) (a : Answers) {fut : SendFuture}
    (hlive : fut.isOver = false) :
    SendMove .owned fut (sendH3ClientBody cancel a fut).1 (sendH3ClientBody cancel a fut).2 := by
  cases fut with
  | unpolled w bd => exact .start w bd
  | returned w bd res => cases hlive
  | dropped w bd => cases hlive
  | running pc g bd =>
      cases pc with
      | nextFrame =>
          cases cancel with
          | true => exact .cancel g bd
          | false =>
              rcases bd.pollFrame_cases a.body with h | ⟨f, fs, hrest, h⟩ | ⟨hrest, hend, h⟩ |
                ⟨e, hrest, hend, h⟩
              · simp only [sendH3ClientBody, h]
                exact .wait g bd
              · simp only [sendH3ClientBody, h, writeOf_eq]
                exact .take g bd f fs hrest
              · simp only [sendH3ClientBody, h]
                exact .sourceEnd g bd hrest hend
              · simp only [sendH3ClientBody, h]
                exact .sourceError g bd e hrest hend
      | sending f rest =>
          simp only [sendH3ClientBody]
          cases a.op with
          | pending k => exact .writePending f rest g bd k
          | ok => exact .writeOk f rest g bd
          | err k e => exact .writeErr f rest g bd k e
      | finishing =>
          simp only [sendH3ClientBody]
          cases a.op with
          | pending k => exact .finishPending g bd
          | ok => exact .finishOk g bd
          | err k e => exact .finishErr g bd e

theorem sendH3ClientBody_cancelled (a : Answers) (g : SendResetGuard) (bd : Body) :
    sendH3ClientBody true a (.running .nextFrame g bd) =
      (.returned (Ownership.owned.release g.drop) bd (.ok ()), .cancelled) := rfl

theorem sendH3ClientBody_not_cancelled (a : Answers) (fut : SendFuture) :
    (sendH3ClientBody false a fut).2 ≠ .cancelled := by
  cases hover : fut.isOver with
  | true => cases fut <;> simp_all [SendFuture.isOver, sendH3ClientBody]
  | false =>
      intro hcancelled
      have hmove := sendH3ClientBody_move false a hover
      generalize hres : sendH3ClientBody false a fut = res at hmove hcancelled
      obtain ⟨fut', sig⟩ := res
      simp only at hcancelled hmove
      subst hcancelled
      cases hmove with
      | cancel g bd =>
          rcases bd.pollFrame_cases a.body with h | ⟨f, fs, -, h⟩ | ⟨-, -, h⟩ | ⟨e, -, -, h⟩ <;>
            simp [sendH3ClientBody, h] at hres

/-- A poll whose await is answered goes on. -/
theorem sendH3ClientBody_ne_pending {cancel : Bool} {a : Answers} {fut : SendFuture}
    (ha : a.isReady = true) (hlive : fut.isOver = false)
    (hend : ∀ g bd, fut = .running .nextFrame g bd → bd.rest = [] → bd.ending = .never →
      cancel = true) : (sendH3ClientBody cancel a fut).2 ≠ .pending := by
  obtain ⟨body, op⟩ := a
  cases fut with
  | returned w bd res => cases hlive
  | dropped w bd => cases hlive
  | unpolled w bd => simp [sendH3ClientBody]
  | running pc g bd =>
      cases pc with
      | nextFrame =>
          have hbody : body = true := by
            cases op <;> simp_all [Answers.isReady]
          cases cancel with
          | true => simp [sendH3ClientBody]
          | false =>
              cases hrest : bd.rest with
              | cons f fs => simp [sendH3ClientBody, Body.pollFrame, hbody, hrest]
              | nil =>
                  cases hending : bd.ending with
                  | never => cases hend g bd rfl hrest hending
                  | done => simp [sendH3ClientBody, Body.pollFrame, hbody, hrest, hending]
                  | error e => simp [sendH3ClientBody, Body.pollFrame, hbody, hrest, hending]
      | sending f rest => cases op <;> simp_all [sendH3ClientBody, Answers.isReady]
      | finishing => cases op <;> simp_all [sendH3ClientBody, Answers.isReady]

/-- The error with which the source or the transport answers the await a body
send is suspended at. -/
def SendFuture.answeredError (a : Answers) : SendFuture → Option Error
  | .running .nextFrame _ bd =>
      match a.body, bd.rest, bd.ending with
      | true, [], .error e => some e
      | _, _, _ => none
  | .running _ _ _ =>
      match a.op with
      | .err _ e => some (.stream e)
      | _ => none
  | _ => none

theorem sendH3ClientBody_failed {cancel : Bool} {a : Answers} {fut fut' : SendFuture} {e : Error}
    (h : sendH3ClientBody cancel a fut = (fut', .failed e)) : fut.answeredError a = some e := by
  have hsignal : (sendH3ClientBody cancel a fut).2 = .failed e := congrArg Prod.snd h
  cases fut with
  | unpolled w bd => cases hsignal
  | returned w bd res => cases hsignal
  | dropped w bd => cases hsignal
  | running pc g bd =>
      cases pc with
      | nextFrame =>
          cases cancel with
          | true => cases hsignal
          | false =>
              rcases bd.pollFrame_cases a.body with hp | ⟨f, fs, hrest, hp⟩ | ⟨hrest, hend, hp⟩ |
                ⟨e', hrest, hend, hp⟩
              · simp [sendH3ClientBody, hp] at hsignal
              · simp [sendH3ClientBody, hp] at hsignal
              · simp [sendH3ClientBody, hp] at hsignal
              · obtain rfl : e' = e := by simpa [sendH3ClientBody, hp] using hsignal
                cases hbody : a.body with
                | false => simp [Body.pollFrame, hbody] at hp
                | true => simp [SendFuture.answeredError, hbody, hrest, hend]
      | sending f rest =>
          simp only [sendH3ClientBody] at hsignal
          cases hop : a.op <;> rw [hop] at hsignal <;> simp_all [SendFuture.answeredError]
      | finishing =>
          simp only [sendH3ClientBody] at hsignal
          cases hop : a.op <;> rw [hop] at hsignal <;> simp_all [SendFuture.answeredError]

theorem sendH3ClientBody_of_answeredError {a : Answers} {fut : SendFuture} {e : Error}
    (h : fut.answeredError a = some e) : (sendH3ClientBody false a fut).2 = .failed e := by
  cases fut with
  | unpolled w bd => cases h
  | returned w bd res => cases h
  | dropped w bd => cases h
  | running pc g bd =>
      cases pc with
      | nextFrame =>
          simp only [SendFuture.answeredError] at h
          split at h
          · next hbody hrest hend =>
              obtain rfl := Option.some.inj h
              simp [sendH3ClientBody, Body.pollFrame, hbody, hrest, hend]
          · cases h
      | sending f rest => cases hop : a.op <;> simp_all [SendFuture.answeredError, sendH3ClientBody]
      | finishing => cases hop : a.op <;> simp_all [SendFuture.answeredError, sendH3ClientBody]

end TonicH3
