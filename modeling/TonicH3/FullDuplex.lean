import TonicH3.Rpc

/-!
# The two directions of a request do not wait for each other

Once the eager poll is over the upload runs in a task of its own.  Whether it
makes progress, stalls, fails or is dropped, the caller sees the response the
server sends; and until the caller gives up or `recv_response` fails, nothing in
the direction of the response reaches the upload.  Giving up does reach it: that
is what the cancellation channel is for.
-/

namespace TonicH3

open EventRun

/-- The upload, and what the service reads of it. -/
def RpcEvent.isRequest : RpcEvent → Bool
  | .client (.upload _) | .client .dropUpload | .readRequest _ => true
  | _ => false

/-- The caller gives up, or `recv_response` fails. -/
def RpcEvent.cancels : RpcEvent → Bool
  | .client .dropFuture | .client .dropBody | .client (.recvResponse (.err _ _)) => true
  | _ => false

/-- One step of the upload in its own task. -/
def SendFuture.advance (cancel : Bool) (a : Answers) (fut : SendFuture) : SendFuture :=
  if fut.isOver then fut else (sendH3ClientBody cancel a fut).1

namespace Exchange

def withoutUpload (x : Exchange) : Exchange := { x with bodyFut := none }

/-- The stream is open and the eager poll of the upload is over. -/
def isOpened (x : Exchange) : Bool :=
  match x.phase with
  | .opening _ | .eager => false
  | _ => true

variable {x : Exchange}

theorem ne_opening (h : x.isOpened = true) (bd : Body) : x.phase ≠ .opening bd := by
  intro hphase
  simp [isOpened, hphase] at h

theorem ne_eager (h : x.isOpened = true) : x.phase ≠ .eager := by
  intro hphase
  simp [isOpened, hphase] at h

/-- In the background the upload touches nothing but itself. -/
theorem onUpload_opened (h : x.isOpened = true) (a : Answers) :
    (x.onUpload a).1 =
      { x with bodyFut := x.bodyFut.map (SendFuture.advance x.cancelResolved a) } := by
  have heager := ne_eager h
  obtain ⟨conn, closing, phase, sender, fut, tx, r⟩ := x
  cases fut with
  | none => rfl
  | some fut =>
      cases hover : fut.isOver with
      | true => simp [onUpload, SendFuture.advance, hover]
      | false => simp_all [onUpload, SendFuture.advance, cancelResolved]

theorem onDropUpload_opened (h : x.isOpened = true) :
    x.onDropUpload = { x with bodyFut := x.bodyFut.map (SendFuture.drop .owned) } := by
  simp [onDropUpload, ne_eager h]

variable [Http3]

/-- The other events of the exchange do not look at the upload. -/
theorem step_withoutUpload {ev : ExchangeEvent} (h : x.isOpened = true)
    (hev : (RpcEvent.client ev).isRequest = false) :
    (x.step ev).1 = { (x.withoutUpload.step ev).1 with bodyFut := x.bodyFut } ∧
      (x.step ev).2 = (x.withoutUpload.step ev).2 := by
  obtain ⟨conn, closing, phase, sender, fut, tx, r⟩ := x
  cases ev with
  | upload a => cases hev
  | dropUpload => cases hev
  | sendRequest a =>
      cases phase with
      | opening bd => exact absurd rfl (ne_opening h bd)
      | _ => exact ⟨rfl, rfl⟩
  | recvResponse a =>
      cases phase with
      | receiving =>
          cases r with
          | none => exact ⟨rfl, rfl⟩
          | some r => cases a <;> exact ⟨rfl, rfl⟩
      | _ => exact ⟨rfl, rfl⟩
  | dropFuture => cases phase <;> exact ⟨rfl, rfl⟩
  | pollBody a => cases phase <;> exact ⟨rfl, rfl⟩
  | dropBody => cases phase <;> exact ⟨rfl, rfl⟩

theorem isOpened_step (h : x.isOpened = true) (ev : ExchangeEvent) :
    (x.step ev).1.isOpened = true := by
  cases hev : (RpcEvent.client ev).isRequest with
  | false =>
      rw [(step_withoutUpload h hev).1]
      obtain ⟨conn, closing, phase, sender, fut, tx, r⟩ := x
      cases ev with
      | upload a => cases hev
      | dropUpload => cases hev
      | sendRequest a =>
          cases phase with
          | opening bd => cases h
          | _ => exact h
      | recvResponse a =>
          cases phase with
          | receiving => cases r <;> cases a <;> rfl
          | _ => exact h
      | dropFuture =>
          cases phase with
          | opening bd => cases h
          | receiving => rfl
          | _ => exact h
      | pollBody a => cases phase <;> exact h
      | dropBody => cases phase <;> exact h
  | true =>
      cases ev with
      | upload a =>
          simp only [step, onUpload_opened h]
          exact h
      | dropUpload =>
          simp only [step, onDropUpload_opened h]
          exact h
      | _ => cases hev

theorem cancelResolved_step (h : x.isOpened = true) (hx : x.cancelResolved = false)
    (ev : ExchangeEvent) (hev : (RpcEvent.client ev).cancels = false) :
    (x.step ev).1.cancelResolved = false := by
  cases ev with
  | upload a =>
      simp only [step, onUpload_opened h]
      exact hx
  | dropUpload =>
      simp only [step, onDropUpload_opened h]
      exact hx
  | sendRequest a =>
      cases hphase : x.phase with
      | opening bd => exact absurd hphase (ne_opening h bd)
      | _ => simpa [step, hphase] using hx
  | recvResponse a =>
      cases hphase : x.phase with
      | receiving =>
          cases hr : x.r with
          | none => simpa [step, hphase, hr] using hx
          | some r =>
              cases a with
              | pending => simpa [step, hphase, hr, onRecvResponse] using hx
              | ok => simp [step, hphase, hr, onRecvResponse, dropFrame, cancelResolved]
              | err e streamOpen => cases hev
      | _ => simpa [step, hphase] using hx
  | dropFuture => cases hev
  | pollBody a => cases hphase : x.phase <;> simpa [step, hphase, cancelResolved] using hx
  | dropBody => cases hev

end Exchange

namespace Rpc

/-- The direction of the request: the upload and the body the service reads. -/
def requestSide (m : Rpc) : Tunnel (Option SendFuture) (H3IncomingServer Pipe) :=
  ⟨m.request.sender.bodyFut, m.request.reader, m.request.received, m.request.ended⟩

/-- The direction of the response: the server, and the exchange without its upload. -/
def responseSide (m : Rpc) : Exchange × Tunnel (Option ServeRequest) Pipe :=
  (m.request.sender.withoutUpload, m.response)

theorem Inv.cancelResolved_eq_false {sc : BodyScript} {tr : List RpcEvent} {m : Rpc}
    (h : Inv sc tr m) (hphase : m.request.sender.phase = .receiving ∨
      ∃ b, m.request.sender.phase = .responded b) : m.request.sender.cancelResolved = false := by
  have hinv := h.exchange.phase
  rcases hphase with hphase | ⟨b, hphase⟩
  · rw [hphase] at hinv
    simp [Exchange.cancelResolved, hinv.1]
  · rw [hphase] at hinv
    simp [Exchange.cancelResolved, hinv.1]

variable [Http3]

/-- An event that is not offered changes nothing. -/
def next (m : Rpc) (ev : RpcEvent) : Rpc := (m.step ev).getD m

/-- The request is being served and its upload is in the background. -/
def Served (m : Rpc) : Prop :=
  m.request.sender.isOpened = true ∧ m.response.sender.isSome = true

theorem next_client {m : Rpc} {ev : ExchangeEvent} :
    m.next (.client ev) =
      if m.offers ev then m.withClient (m.request.sender.step ev).1 else m := by
  simp only [next, step]
  split <;> rfl

theorem next_upload {m : Rpc} (h : m.Served) (a : Answers) :
    m.next (.client (.upload a)) = m.withClient { m.request.sender with
      bodyFut := m.request.sender.bodyFut.map
        (SendFuture.advance m.request.sender.cancelResolved a) } := by
  simp [next_client, offers, Exchange.step, Exchange.onUpload_opened h.1]

theorem next_dropUpload {m : Rpc} (h : m.Served) :
    m.next (.client .dropUpload) = m.withClient { m.request.sender with
      bodyFut := m.request.sender.bodyFut.map (SendFuture.drop .owned) } := by
  simp [next_client, offers, Exchange.step, Exchange.onDropUpload_opened h.1]

theorem next_accept {m : Rpc} (h : m.Served) : m.next .accept = m := by
  obtain ⟨s, hs⟩ := Option.isSome_iff_exists.mp h.2
  simp [next, step, hs]

theorem next_readRequest {m : Rpc} (h : m.Served) (d : Delivery) :
    m.next (.readRequest d) =
      { m with request := m.request.read Exchange.uploadStream d } := by
  simp [next, step, h.2]

theorem next_eq_or (m : Rpc) (ev : RpcEvent) : m.next ev = m ∨ Steps m ev (m.next ev) := by
  cases hstep : m.step ev with
  | none => exact .inl (by simp [next, hstep])
  | some m' => exact .inr (by simp [next, Steps, hstep])

theorem Served.next {m : Rpc} (h : m.Served) (ev : RpcEvent) : (m.next ev).Served := by
  rcases m.next_eq_or ev with hstay | hstep
  · rw [hstay]
    exact h
  · obtain ⟨cev, rfl, -, hm⟩ | ⟨-, -, hm⟩ | ⟨sev, s, s', -, -, -, hm⟩ | ⟨d, -, hm⟩ |
      ⟨d, b, -, -, hm⟩ := steps_cases hstep
    · rw [hm]
      exact ⟨Exchange.isOpened_step h.1 cev, h.2⟩
    · rw [hm]
      exact ⟨h.1, rfl⟩
    · rw [hm]
      exact ⟨h.1, rfl⟩
    · rw [hm]
      exact h
    · rw [hm]
      exact ⟨Exchange.isOpened_step h.1 (.pollBody _), h.2⟩

/-! ## The response does not depend on the upload -/

theorem responseSide_other {m : Rpc} (h : m.Served) {ev : RpcEvent} (hev : ev.isRequest = true) :
    (m.next ev).responseSide = m.responseSide := by
  cases ev with
  | readRequest d =>
      rw [next_readRequest h]
      rfl
  | client cev =>
      cases cev with
      | upload a =>
          rw [next_upload h]
          rfl
      | dropUpload =>
          rw [next_dropUpload h]
          rfl
      | _ => cases hev
  | _ => cases hev

theorem responseSide_own {m n : Rpc} (hm : m.Served) (hn : n.Served) {ev : RpcEvent}
    (hev : ev.isRequest = false) (h : m.responseSide = n.responseSide) :
    (m.next ev).responseSide = (n.next ev).responseSide := by
  obtain ⟨hexchange, hresponse⟩ := Prod.mk.inj h
  cases ev with
  | accept => rw [next_accept hm, next_accept hn, h]
  | readRequest d => cases hev
  | client cev =>
      have hoffers : m.offers cev = n.offers cev := by
        unfold offers headersSent
        rw [hresponse]
      rw [next_client, next_client, hoffers]
      split
      · simp only [responseSide, withClient, (Exchange.step_withoutUpload hm.1 hev).1,
          (Exchange.step_withoutUpload hn.1 hev).1, hexchange, hresponse]
        rfl
      · exact h
  | server sev =>
      simp only [next, step, hresponse]
      cases n.response.sender.bind (·.step sev) with
      | none => exact h
      | some s => simp [responseSide, withServer, hexchange, hresponse]
  | readResponse d =>
      have hphase : m.request.sender.phase = n.request.sender.phase := by
        simpa [Exchange.withoutUpload] using congrArg Exchange.phase hexchange
      simp only [next, step, hphase]
      cases n.request.sender.phase with
      | responded b =>
          simp only [Option.getD_some, responseSide, onReadResponse, withClient, hresponse]
          rw [(Exchange.step_withoutUpload hm.1 rfl).1, (Exchange.step_withoutUpload hm.1 rfl).2,
            (Exchange.step_withoutUpload hn.1 rfl).1, (Exchange.step_withoutUpload hn.1 rfl).2,
            hexchange]
          rfl
      | _ => exact h

/-! ## The upload does not depend on the response -/

/-- The caller still waits for the response or reads it. -/
def Attended (m : Rpc) : Prop :=
  m.Served ∧ m.request.sender.cancelResolved = false

theorem requestSide_own {m n : Rpc} (hm : m.Attended) (hn : n.Attended) {ev : RpcEvent}
    (hev : ev.isRequest = true) (h : m.requestSide = n.requestSide) :
    (m.next ev).requestSide = (n.next ev).requestSide := by
  obtain ⟨hfut, hreader, hreceived, hended⟩ := Tunnel.mk.inj h
  cases ev with
  | readRequest d =>
      rw [next_readRequest hm.1, next_readRequest hn.1]
      have hstream : m.request.sender.uploadStream = n.request.sender.uploadStream := by
        simp [Exchange.uploadStream, hfut]
      simp only [requestSide, Tunnel.read, hfut, hreader, hreceived, hended, hstream]
  | client cev =>
      cases cev with
      | upload a =>
          rw [next_upload hm.1, next_upload hn.1, hm.2, hn.2]
          simp only [requestSide, withClient, hfut, hreader, hreceived, hended]
      | dropUpload =>
          rw [next_dropUpload hm.1, next_dropUpload hn.1]
          simp only [requestSide, withClient, hfut, hreader, hreceived, hended]
      | _ => cases hev
  | _ => cases hev

theorem requestSide_other {m : Rpc} (hm : m.Served) {ev : RpcEvent}
    (hev : ev.isRequest = false) : (m.next ev).requestSide = m.requestSide := by
  cases ev with
  | accept => rw [next_accept hm]
  | readRequest d => cases hev
  | client cev =>
      rw [next_client]
      split
      · simp only [requestSide, withClient, (Exchange.step_withoutUpload hm.1 hev).1]
      · rfl
  | server sev =>
      simp only [next, step]
      cases m.response.sender.bind (·.step sev) <;> rfl
  | readResponse d =>
      simp only [next, step]
      split
      · simp only [Option.getD_some, requestSide, onReadResponse, withClient]
        rw [(Exchange.step_withoutUpload hm.1 rfl).1]
      · rfl

theorem Attended.next {m : Rpc} (h : m.Attended) {ev : RpcEvent} (hev : ev.cancels = false) :
    (m.next ev).Attended := by
  refine ⟨h.1.next ev, ?_⟩
  rcases m.next_eq_or ev with hstay | hstep
  · rw [hstay]
    exact h.2
  · obtain ⟨cev, rfl, -, hm⟩ | ⟨-, -, hm⟩ | ⟨sev, s, s', -, -, -, hm⟩ | ⟨d, -, hm⟩ |
      ⟨d, b, -, -, hm⟩ := steps_cases hstep
    · rw [hm]
      exact Exchange.cancelResolved_step h.1.1 h.2 cev hev
    · rw [hm]
      exact h.2
    · rw [hm]
      exact h.2
    · rw [hm]
      exact h.2
    · rw [hm]
      exact Exchange.cancelResolved_step h.1.1 h.2 (.pollBody _) rfl

end Rpc

/-- From every reachable state in which a request is being served, after any
sequence of events: the direction of the response is where its own events alone
would have brought it, whatever has become of the upload; and if the caller
has not given up and `recv_response` has not failed, the direction of the
request is where its own events alone would have brought it. -/
theorem rpc_full_duplex [Http3] {conn : Conn} {closing : Flag} {sc : BodyScript}
    {tr : List RpcEvent} {m : Rpc} (h : Run Rpc.Steps (.new conn closing sc) tr m)
    (hserved : m.Served) (es : List RpcEvent) :
    (es.foldl Rpc.next m).responseSide =
        ((es.filter (!·.isRequest)).foldl Rpc.next m).responseSide ∧
      ((m.request.sender.phase = .receiving ∨ ∃ b, m.request.sender.phase = .responded b) →
        (∀ ev ∈ es, ev.cancels = false) →
        (es.foldl Rpc.next m).requestSide =
          ((es.filter RpcEvent.isRequest).foldl Rpc.next m).requestSide) := by
  have hinv : Rpc.Inv sc tr m :=
    h.history (fun _ _ _ _ hI hstep ↦ hI.step hstep) (Rpc.inv_new conn closing sc)
  constructor
  · refine view_foldl_filter (J := Rpc.Served) (fun n ev hn ↦ hn.next ev) ?_ ?_ hserved es
    · intro m n ev hm hn hev heq
      exact Rpc.responseSide_own hm hn (by simpa using hev) heq
    · intro n ev hn hev
      exact Rpc.responseSide_other hn (by simpa using hev)
  · intro hphase hes
    have hattended : m.Attended := ⟨hserved, hinv.cancelResolved_eq_false hphase⟩
    refine view_foldl_filter_of (P := fun ev ↦ ev.cancels = false) (J := Rpc.Attended)
      (fun n ev hev hn ↦ hn.next hev) ?_ ?_ hattended hattended rfl hes
    · intro m n ev hm hn hev heq
      exact Rpc.requestSide_own hm hn hev heq
    · intro n ev _ hn hev
      exact Rpc.requestSide_other hn.1 hev

def stalledUpload : List RpcEvent :=
  [.client (.sendRequest .ok), .client (.upload ⟨false, .ok⟩), .client (.upload ⟨false, .ok⟩),
    .accept]

/-- The upload never gets its first frame, and then fails; the caller reads the
whole response. -/
def answerDuringUpload : List RpcEvent :=
  [.server (.service (.returns ⟨[], .done⟩)), .server (.sendResponse .ok),
    .client (.upload ⟨true, .ok⟩), .client (.recvResponse .ok),
    .client (.upload ⟨true, .err 0 .remoteClosing⟩)] ++
    List.replicate 3 (.server (.body ⟨true, .ok⟩)) ++
    [.readResponse .advance, .readRequest .advance, .readResponse .advance]

theorem rpc_full_duplex_stalled :
    letI := documentedHttp3
    ∃ m, Run Rpc.Steps (.new 0 0 ⟨[.data [1]], .done⟩) stalledUpload m ∧
      (answerDuringUpload.foldl Rpc.next m).response.ended = true ∧
      (answerDuringUpload.foldl Rpc.next m).responseSide =
        ((answerDuringUpload.filter (!·.isRequest)).foldl Rpc.next m).responseSide := by
  let _ := documentedHttp3
  have hread : (stalledUpload.foldlM Rpc.step (.new 0 0 ⟨[.data [1]], .done⟩)).map
      (fun m ↦ (m.request.sender.isOpened, m.response.sender.isSome,
        (answerDuringUpload.foldl Rpc.next m).response.ended)) = some (true, true, true) := by
    decide +kernel
  obtain ⟨m, hm, hread⟩ := Option.map_eq_some_iff.mp hread
  simp only [Prod.mk.injEq] at hread
  obtain ⟨hopened, hsome, hended⟩ := hread
  have hrun : Run Rpc.Steps (.new 0 0 ⟨[.data [1]], .done⟩) stalledUpload m := run_foldlM hm
  exact ⟨m, hrun, hended, (rpc_full_duplex hrun ⟨hopened, hsome⟩ _).1⟩

end TonicH3
