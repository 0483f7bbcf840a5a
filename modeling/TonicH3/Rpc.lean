import TonicH3.Truncation

/-!
# One request from end to end

A client exchange and the server task that serves it, with the two directions
of the stream between them.  The server task starts once the request headers
were sent; `recv_response` succeeds only once the server has sent the response
headers; the service reads the request body through `H3IncomingServer`, and the
caller reads the response body through the `H3IncomingClient` the exchange has
handed out.  Everything else is interleaved freely: both ends may fail, panic or
be dropped at any await, and the transport may delay, re-chunk or lose what is
in flight.
-/

namespace TonicH3

open EventRun

/-! ## What a body send can leave on its stream -/

section BodySend

variable {o : Ownership} {sc : BodyScript} {fut fut' : SendFuture} {signal : Signal}
  {w₀ : SendStream}

theorem flatten_yielded_le (bd : Body) :
    Frame.flatten bd.yielded <+: Frame.flatten bd.script.frames := by
  simp [Body.script]

theorem PcInv.wire_le {pc : SendPc} {w : SendStream} {bd : Body} (h : PcInv w₀ pc w bd) :
    w.wire <+: Frame.flatten bd.script.frames := by
  refine List.IsPrefix.trans ?_ (flatten_yielded_le bd)
  cases pc with
  | nextFrame => exact h.1.1 ▸ List.prefix_refl _
  | sending f items =>
      obtain ⟨-, fs, -, hwire, -⟩ := h
      exact ⟨items, hwire⟩
  | finishing => exact h.1.1 ▸ List.prefix_refl _

theorem PcInv.put_le {f : Frame} {items : List WireItem} {w : SendStream} {bd : Body}
    (h : PcInv w₀ (.sending f items) w bd) (k : ℕ) :
    w.wire ++ items.take k <+: Frame.flatten bd.script.frames := by
  obtain ⟨-, fs, -, hwire, -⟩ := h
  refine List.IsPrefix.trans ⟨items.drop k, ?_⟩ (flatten_yielded_le bd)
  rw [List.append_assoc, List.take_append_drop, hwire]

theorem SendInv.wire_le_of_live (h : SendInv w₀ sc fut) (hw₀ : w₀.Fresh)
    (hlive : fut.isOver = false) : fut.stream.wire <+: Frame.flatten sc.frames := by
  cases fut with
  | unpolled w bd =>
      obtain ⟨rfl, -⟩ := h
      simp [SendFuture.stream, hw₀.1]
  | running pc g bd =>
      obtain ⟨-, -, -, hscript, hpc⟩ := h
      rw [← hscript]
      exact hpc.wire_le
  | returned w bd res => cases hlive
  | dropped w bd => cases hlive

/-- However a body send goes on or ends, its stream carries a prefix of the body. -/
theorem SendMove.wire_le (h : SendMove o fut fut' signal) (hinv : SendInv w₀ sc fut)
    (hw₀ : w₀.Fresh) : fut'.stream.wire <+: Frame.flatten sc.frames := by
  have hfut := hinv.wire_le_of_live hw₀ h.isOver_eq
  cases h with
  | start w bd => exact hfut
  | cancel g bd => simpa [SendFuture.stream] using hfut
  | wait g bd => exact hfut
  | take g bd f fs hrest => exact hfut
  | sourceEnd g bd hrest hend => exact hfut
  | sourceError g bd e hrest hend =>
      simpa [SendFuture.stream, SendResetGuard.setErrorCode] using hfut
  | writePending f rest g bd k =>
      obtain ⟨-, -, -, rfl, hpc⟩ := hinv
      exact hpc.put_le k
  | writeOk f rest g bd =>
      obtain ⟨-, -, -, rfl, hpc⟩ := hinv
      simpa [SendFuture.stream, SendResetGuard.onStream] using hpc.put_le rest.length
  | writeErr f rest g bd k e =>
      obtain ⟨-, -, -, rfl, hpc⟩ := hinv
      simpa [SendFuture.stream, SendResetGuard.onStream, SendResetGuard.setErrorCode] using
        hpc.put_le k
  | finishPending g bd => exact hfut
  | finishOk g bd =>
      simpa [SendFuture.stream, SendResetGuard.onStream, SendResetGuard.disarm] using hfut
  | finishErr g bd e =>
      simpa [SendFuture.stream, SendResetGuard.onStream, SendResetGuard.setErrorCode] using hfut

@[simp] theorem SendFuture.drop_stream_wire (fut : SendFuture) (o : Ownership) :
    (fut.drop o).stream.wire = fut.stream.wire := by
  cases fut <;> simp [SendFuture.drop, SendFuture.stream]

end BodySend

/-! ## The two senders -/

theorem Exchange.Move.wire_le [Http3] {sc : BodyScript} {x x' : Exchange} {o : ExchangeOut}
    (h : Exchange.Move x x' o) (hinv : Exchange.Inv sc x)
    (hwire : x.uploadStream.wire <+: Frame.flatten sc.frames) :
    x'.uploadStream.wire <+: Frame.flatten sc.frames := by
  have hupload : ∀ {a fut fut' signal}, x.bodyFut = some fut → fut.isOver = false →
      sendH3ClientBody x.cancelResolved a fut = (fut', signal) →
      fut'.stream.wire <+: Frame.flatten sc.frames := by
    intro a fut fut' signal hfut hlive hstep
    have hmove := sendH3ClientBody_move x.cancelResolved a hlive
    rw [hstep] at hmove
    exact hmove.wire_le (hinv.sendInv hfut) SendStream.new_fresh
  cases h with
  | stutter => exact hwire
  | opened bd hp => exact List.nil_prefix
  | rejected bd e hp => exact hwire
  | eagerly a fut fut' signal hfut hlive hp hstep =>
      have hgrow := hupload hfut hlive hstep
      cases signal <;> exact hgrow
  | background a fut fut' signal hfut hlive hp hstep => exact hupload hfut hlive hstep
  | uploadDropped hp =>
      cases hfut : x.bodyFut with
      | none => simp [Exchange.uploadStream, SendStream.new]
      | some fut => simpa [Exchange.uploadStream, hfut] using hwire
  | responded r hp hr => exact hwire
  | refused r e streamOpen hp hr => exact hwire
  | futureDropped hp => exact hwire
  | bodyPolled b p hp => exact hwire
  | bodyDropped b hp => exact hwire

namespace ServeRequest

theorem afterBody_stream_wire (fut : SendFuture) :
    (afterBody fut).stream.wire = fut.stream.wire := by
  cases fut <;> rfl

theorem guarded_wire_le {sc : BodyScript} {s s' : ServeRequest} {ev : ServeEvent}
    (h : Steps s ev s') (hs : Guarded sc s) (hwire : s.stream.wire <+: Frame.flatten sc.frames) :
    s'.stream.wire <+: Frame.flatten sc.frames := by
  obtain ⟨fut, rfl, hsend, ⟨a, hlive, rfl⟩ | ⟨-, rfl⟩⟩ := steps_of_guarded h hs
  · rw [afterBody_stream_wire]
    exact (sendH3ServerBody_move a hlive).wire_le hsend withHeaders_fresh
  · simpa [stream] using hwire

end ServeRequest

/-! ## The composed system -/

/-- `request.reader` is the body the service reads, and `response.reader` the
receive half of the body the caller reads. -/
structure Rpc where
  request : Tunnel Exchange (H3IncomingServer Pipe)
  response : Tunnel (Option ServeRequest) Pipe

inductive RpcEvent
  | client (ev : ExchangeEvent)
  | accept
  | server (ev : ServeEvent)
  | readRequest (d : Delivery)
  | readResponse (d : Delivery)

/-- The stream of the response; nothing is on it before the task has started. -/
def responseStream : Option ServeRequest → SendStream
  | some s => s.stream
  | none => .new

namespace ExchangeOut

def frames (o : ExchangeOut) : List Frame :=
  match o.frame with
  | some (.ready (some (.ok f))) => [f]
  | _ => []

def isEnd (o : ExchangeOut) : Bool :=
  match o.frame with
  | some (.ready none) => true
  | _ => false

end ExchangeOut

namespace Rpc

def new (conn : Conn) (closing : Flag) (sc : BodyScript) : Rpc :=
  ⟨.start (.new conn closing sc) (.new .new), ⟨none, .new, [], false⟩⟩

def headersSent (m : Rpc) : Bool := (responseStream m.response.sender).ops.contains (.headers true)

/-- The events of the exchange that need nothing from the server.  The body is
read by `readResponse`. -/
def offers (m : Rpc) : ExchangeEvent → Bool
  | .recvResponse .ok => m.headersSent
  | .pollBody _ => false
  | _ => true

def withClient (m : Rpc) (x : Exchange) : Rpc :=
  { m with request := { m.request with sender := x } }

def withServer (m : Rpc) (s : ServeRequest) : Rpc :=
  { m with response := { m.response with sender := some s } }

variable [Http3]

/-- One poll of the response body.  The answers of its receive half are those of
the pipe; the half that was polled is the one that moves. -/
def onReadResponse (m : Rpc) (b : H3IncomingClient RecvHalf) (d : Delivery) : Rpc :=
  let p := m.response.reader.load (responseStream m.response.sender) d
  let (x, o) := m.request.sender.step (.pollBody ⟨p.recvData.1, p.recvTrailers.1⟩)
  { m.withClient x with
    response :=
      { m.response with
        reader := if b.dataDone then p.recvTrailers.2 else p.recvData.2
        received := m.response.received ++ o.frames
        ended := m.response.ended || o.isEnd } }

def step (m : Rpc) : RpcEvent → Option Rpc
  | .client ev =>
      if m.offers ev then some (m.withClient (m.request.sender.step ev).1) else none
  | .accept =>
      if m.response.sender.isNone && m.request.sender.bodyFut.isSome then some (m.withServer .new)
      else none
  | .server ev => (m.response.sender.bind (·.step ev)).map m.withServer
  | .readRequest d =>
      if m.response.sender.isSome then
        some { m with request := m.request.read Exchange.uploadStream d }
      else none
  | .readResponse d =>
      match m.request.sender.phase with
      | .responded b => some (m.onReadResponse b d)
      | _ => none

def Steps (m : Rpc) (ev : RpcEvent) (m' : Rpc) : Prop := m.step ev = some m'

/-! ## Reading the response -/

/-- The caller has seen something of the response: it holds the body, or has
read from it. -/
def Heard (m : Rpc) : Prop :=
  (∃ b, m.request.sender.phase = .responded b) ∨ m.response.received ≠ [] ∨
    m.response.ended = true

end Rpc

/-- A body whose receive half answers as the pipe does behaves as a body over
the pipe does. -/
theorem pollFrame_relay (b : H3IncomingClient RecvHalf) (p : Pipe) :
    let i : Incoming Pipe := ⟨p, b.dataDone, b.finished⟩
    let q := H3IncomingClient.pollFrame { b with
      s := { b.s with answer := ⟨p.recvData.1, p.recvTrailers.1⟩ } }
    q.result = i.pollFrame.result ∧ q.body.dataDone = i.pollFrame.body.dataDone ∧
      i.pollFrame.body.s = if b.dataDone then p.recvTrailers.2 else p.recvData.2 := by
  cases hdone : b.dataDone with
  | false =>
      rcases p.recvData_cases with hp | ⟨e, hp⟩ | hp | ⟨n, hp⟩ <;>
        simp [H3IncomingClient.pollFrame, Incoming.pollFrame, RecvStream.pollRecvData, hp]
  | true =>
      rcases p.recvTrailers_cases with hp | ⟨e, hp⟩ | ⟨-, -, hp⟩ | ⟨t, rest, -, hp⟩ <;>
        simp [H3IncomingClient.pollFrame, Incoming.pollFrame, RecvStream.pollRecvTrailers, hp]

theorem frames_of_result {σ τ : Type*} {p : FramePoll σ} {q : FramePoll τ}
    (h : p.result = q.result) :
    (ExchangeOut.mk false none (some p.result)).frames = q.frames ∧
      (ExchangeOut.mk false none (some p.result)).isEnd = q.isEnd := by
  rw [h]
  cases hq : q.result with
  | pending => simp [ExchangeOut.frames, ExchangeOut.isEnd, FramePoll.frames, FramePoll.isEnd, hq]
  | ready r =>
      rcases r with _ | (e | f) <;>
        simp [ExchangeOut.frames, ExchangeOut.isEnd, FramePoll.frames, FramePoll.isEnd, hq]

namespace Rpc

def ResponseFaithful (m : Rpc) : Prop :=
  Faithful (responseStream m.response.sender) (.new m.response.reader) m.response.received
    m.response.ended

variable [Http3]

/-- A poll of the response body is a poll of a body over the pipe. -/
theorem onReadResponse_spec {m : Rpc} {b : H3IncomingClient RecvHalf}
    (hphase : m.request.sender.phase = .responded b) (d : Delivery) :
    let i : Incoming Pipe :=
      ⟨m.response.reader.load (responseStream m.response.sender) d, b.dataDone, b.finished⟩
    (∃ b', (m.onReadResponse b d).request.sender.phase = .responded b' ∧
      b'.dataDone = i.pollFrame.body.dataDone) ∧
    (m.onReadResponse b d).response = ⟨m.response.sender, i.pollFrame.body.s,
      m.response.received ++ i.pollFrame.frames, m.response.ended || i.pollFrame.isEnd⟩ := by
  intro i
  obtain ⟨hresult, hdone, hbody⟩ :=
    pollFrame_relay b (m.response.reader.load (responseStream m.response.sender) d)
  obtain ⟨hframes, hend⟩ := frames_of_result hresult
  simp only [onReadResponse, Exchange.step, hphase, withClient]
  refine ⟨⟨_, rfl, hdone⟩, ?_⟩
  rw [hframes, hend, ← hbody]

theorem responseFaithful_read {m : Rpc} {b : H3IncomingClient RecvHalf}
    (h : m.ResponseFaithful) (hphase : m.request.sender.phase = .responded b) (d : Delivery) :
    (m.onReadResponse b d).ResponseFaithful := by
  have hi : Faithful (responseStream m.response.sender)
      ⟨m.response.reader, b.dataDone, b.finished⟩ m.response.received m.response.ended :=
    h.stay rfl
  rw [ResponseFaithful, (onReadResponse_spec hphase d).2]
  exact (hi.pollFrame d).stay rfl

end Rpc

/-! ## The server's side of the history -/

/-- The response the service returns in an event. -/
def RpcEvent.response : RpcEvent → Option BodyScript
  | .server (.service (.returns sc)) => some sc
  | _ => none

def responses (tr : List RpcEvent) : List BodyScript := tr.filterMap RpcEvent.response

/-- The service returned this one response, and its headers were sent. -/
def Answered (tr : List RpcEvent) (sc : BodyScript) : Prop :=
  responses tr = [sc] ∧ .server (.sendResponse .ok) ∈ tr

/-- No response headers have been sent. -/
inductive Quiet (tr : List RpcEvent) : Option ServeRequest → Prop
  | idle : responses tr = [] → Quiet tr none
  | calling : responses tr = [] → Quiet tr (some (.calling .new))
  | responding (sc : BodyScript) : responses tr = [sc] →
      Quiet tr (some (.responding .new (.new sc)))
  | left (w : SendStream) (res : Option Body) (exit : ServeExit) : w.wire = [] →
      .headers true ∉ w.ops → Quiet tr (some (.exited w res exit))

def Answering (tr : List RpcEvent) (server : Option ServeRequest) : Prop :=
  ∃ s sc, server = some s ∧ Answered tr sc ∧ s.Guarded sc ∧
    s.stream.wire <+: Frame.flatten sc.frames

section History

variable {tr : List RpcEvent} {ev : RpcEvent} {server : Option ServeRequest}

theorem Quiet.not_sent (h : Quiet tr server) : .headers true ∉ (responseStream server).ops := by
  cases h with
  | idle htr => exact List.not_mem_nil
  | calling htr => exact List.not_mem_nil
  | responding sc htr => exact List.not_mem_nil
  | left w res exit hwire hops => exact hops

theorem responses_append (h : ev.response = none) :
    responses (tr ++ [ev]) = responses tr := by
  simp [responses, h]

theorem Quiet.snoc (h : Quiet tr server) (hev : ev.response = none) :
    Quiet (tr ++ [ev]) server := by
  have htr : responses (tr ++ [ev]) = responses tr := responses_append hev
  cases h with
  | idle hr => exact .idle (htr.trans hr)
  | calling hr => exact .calling (htr.trans hr)
  | responding sc hr => exact .responding sc (htr.trans hr)
  | left w res exit hwire hops => exact .left w res exit hwire hops

theorem Answered.snoc {sc : BodyScript} (h : Answered tr sc)
    (hev : ev.response = none) : Answered (tr ++ [ev]) sc :=
  ⟨(responses_append hev).trans h.1, List.mem_append_left _ h.2⟩

theorem Answering.snoc (h : Answering tr server)
    (hev : ev.response = none) : Answering (tr ++ [ev]) server := by
  obtain ⟨s, sc, hs, hanswered, hguarded, hwire⟩ := h
  exact ⟨s, sc, hs, hanswered.snoc hev, hguarded, hwire⟩

/-- What an event of the server does before the headers are sent. -/
theorem Quiet.server_step {s s' : ServeRequest} {sev : ServeEvent} (h : Quiet tr (some s))
    (hstep : s.Steps sev s') :
    Evolves s.stream s'.stream ∧
      (Quiet (tr ++ [.server sev]) (some s') ∨ Answering (tr ++ [.server sev]) (some s')) := by
  cases h with
  | calling hr =>
      cases sev with
      | service a =>
          cases a with
          | pending =>
              obtain rfl := Option.some.inj hstep
              exact ⟨.refl _, .inl (.calling ((responses_append rfl).trans hr))⟩
          | returns sc =>
              obtain rfl := Option.some.inj hstep
              refine ⟨.refl _, .inl (.responding sc ?_)⟩
              simpa [responses, RpcEvent.response] using hr
          | panics =>
              obtain rfl := Option.some.inj hstep
              exact ⟨.drop _, .inl (.left _ _ _ rfl List.not_mem_nil)⟩
      | sendResponse a => cases hstep
      | body a => cases hstep
      | drop =>
          obtain rfl := Option.some.inj hstep
          exact ⟨.drop _, .inl (.left _ _ _ rfl List.not_mem_nil)⟩
  | responding sc hr =>
      have hkeep {ev : RpcEvent} (hev : ev.response = none) :
          responses (tr ++ [ev]) = [sc] := (responses_append hev).trans hr
      cases sev with
      | service a => cases hstep
      | body a => cases hstep
      | drop =>
          obtain rfl := Option.some.inj hstep
          exact ⟨.drop _, .inl (.left _ _ _ rfl List.not_mem_nil)⟩
      | sendResponse a =>
          cases a with
          | pending =>
              obtain rfl := Option.some.inj hstep
              exact ⟨.refl _, .inl (.responding sc (hkeep rfl))⟩
          | err e =>
              obtain rfl := Option.some.inj hstep
              refine ⟨.of_active rfl List.nil_prefix, .inl (.left _ _ _ rfl ?_)⟩
              simp [SendStream.new, SendStream.record]
          | ok =>
              obtain rfl := Option.some.inj hstep
              refine ⟨.of_active rfl List.nil_prefix, .inr ⟨_, sc, rfl, ?_, ⟨rfl, rfl⟩, ?_⟩⟩
              · exact ⟨hkeep rfl, by simp⟩
              · exact List.nil_prefix
  | left w res exit hwire hops => cases sev <;> cases hstep

theorem Answering.server_step {s s' : ServeRequest} {sev : ServeEvent}
    (h : Answering tr (some s)) (hstep : s.Steps sev s') :
    Evolves s.stream s'.stream ∧ Answering (tr ++ [.server sev]) (some s') := by
  obtain ⟨s, sc, hs, hanswered, hguarded, hwire⟩ := h
  obtain rfl := Option.some.inj hs
  refine ⟨ServeRequest.guarded_evolves hstep hguarded, s', sc, rfl, ?_,
    ServeRequest.guarded_step hstep hguarded, ServeRequest.guarded_wire_le hstep hguarded hwire⟩
  apply hanswered.snoc
  -- the service is not asked again once the headers are out
  obtain ⟨fut, rfl, -⟩ := ServeRequest.steps_of_guarded hstep hguarded
  cases sev with
  | service a => cases hstep
  | sendResponse a => rfl
  | body a => rfl
  | drop => rfl

end History

/-! ## The invariant -/

theorem Exchange.onUpload_responded {x : Exchange} {a : Answers} {b : H3IncomingClient RecvHalf}
    (h : (x.onUpload a).1.phase = .responded b) : x.phase = .responded b := by
  unfold onUpload at h
  split at h
  · exact h
  · split at h
    · exact h
    · simp only at h
      split at h
      · next signal heager =>
          generalize (sendH3ClientBody x.cancelResolved a _).2 = signal at h
          cases signal <;> simp_all [afterEager]
      · exact h

/-- Only `recv_response` and reading keep a response body in the caller's hands. -/
theorem Exchange.responded_of_step [Http3] {x : Exchange} {ev : ExchangeEvent}
    {b : H3IncomingClient RecvHalf} (h : (x.step ev).1.phase = .responded b) :
    ev = .recvResponse .ok ∨ ∃ b', x.phase = .responded b' := by
  cases ev with
  | sendRequest a =>
      cases hphase : x.phase <;> cases a <;> simp_all [step, onSendRequest]
  | upload a => exact .inr ⟨b, onUpload_responded h⟩
  | dropUpload =>
      refine .inr ⟨b, ?_⟩
      simp only [step, onDropUpload] at h
      split at h
      · exact h
      · exact h
  | recvResponse a =>
      cases a with
      | ok => exact .inl rfl
      | pending =>
        cases hphase : x.phase <;> cases hr : x.r <;> simp_all [step, onRecvResponse]
      | err e o =>
        cases hphase : x.phase <;> cases hr : x.r <;> simp_all [step, onRecvResponse]
  | dropFuture => cases hphase : x.phase <;> simp_all [step]
  | pollBody a => cases hphase : x.phase <;> simp_all [step]
  | dropBody => cases hphase : x.phase <;> simp_all [step]

namespace Rpc

structure Inv (sc : BodyScript) (tr : List RpcEvent) (m : Rpc) : Prop where
  exchange : Exchange.Inv sc m.request.sender
  upload : m.request.sender.uploadStream.wire <+: Frame.flatten sc.frames
  request : m.request.IsFaithful Exchange.uploadStream
  response : m.ResponseFaithful
  server : (Quiet tr m.response.sender ∧ ¬ m.Heard) ∨ Answering tr m.response.sender

theorem inv_new (conn : Conn) (closing : Flag) (sc : BodyScript) :
    Inv sc [] (new conn closing sc) where
  exchange := Exchange.inv_new conn closing sc
  upload := List.nil_prefix
  request := Tunnel.isFaithful_start rfl
  response := ⟨Nat.le_refl _, rfl, nofun⟩
  server := by
    refine .inl ⟨.idle rfl, ?_⟩
    rintro (⟨b, hphase⟩ | hread | hend)
    · cases hphase
    · exact hread rfl
    · cases hend

variable {sc : BodyScript} {tr : List RpcEvent} {m m' : Rpc} {ev : RpcEvent}

theorem Inv.serverStep (h : Inv sc tr m) {sev : ServeEvent} {s s' : ServeRequest}
    (hs : m.response.sender = some s) (hstep : s.Steps sev s') :
    Inv sc (tr ++ [.server sev]) (m.withServer s') := by
  have hresponse := h.response
  have hserver := h.server
  rw [ResponseFaithful, hs] at hresponse
  rw [hs] at hserver
  rcases hserver with ⟨hquiet, hheard⟩ | hanswering
  · obtain ⟨hevolves, hnext⟩ := hquiet.server_step hstep
    refine ⟨h.exchange, h.upload, h.request, hresponse.evolves hevolves, ?_⟩
    exact hnext.imp (fun hquiet' ↦ ⟨hquiet', hheard⟩) id
  · obtain ⟨hevolves, hnext⟩ := hanswering.server_step hstep
    exact ⟨h.exchange, h.upload, h.request, hresponse.evolves hevolves, .inr hnext⟩

section

variable [Http3]

theorem steps_cases (h : Steps m ev m') :
    (∃ cev, ev = .client cev ∧ m.offers cev = true ∧
      m' = m.withClient (m.request.sender.step cev).1) ∨
    (ev = .accept ∧ m.response.sender = none ∧ m' = m.withServer .new) ∨
    (∃ sev s s', ev = .server sev ∧ m.response.sender = some s ∧ s.Steps sev s' ∧
      m' = m.withServer s') ∨
    (∃ d, ev = .readRequest d ∧
      m' = { m with request := m.request.read Exchange.uploadStream d }) ∨
    ∃ d b, ev = .readResponse d ∧ m.request.sender.phase = .responded b ∧
      m' = m.onReadResponse b d := by
  cases ev with
  | client cev =>
      simp only [Steps, step] at h
      split at h
      · next hoffers => exact .inl ⟨cev, rfl, hoffers, (Option.some.inj h).symm⟩
      · cases h
  | accept =>
      simp only [Steps, step] at h
      split at h
      · next hnone =>
          simp only [Bool.and_eq_true, Option.isNone_iff_eq_none] at hnone
          exact .inr (.inl ⟨rfl, hnone.1, (Option.some.inj h).symm⟩)
      · cases h
  | server sev =>
      cases hs : m.response.sender with
      | none => simp [Steps, step, hs] at h
      | some s =>
          simp only [Steps, step, hs, Option.bind_some, Option.map_eq_some_iff] at h
          obtain ⟨s', hstep, rfl⟩ := h
          exact .inr (.inr (.inl ⟨sev, s, s', rfl, rfl, hstep, rfl⟩))
  | readRequest d =>
      simp only [Steps, step] at h
      split at h
      · exact .inr (.inr (.inr (.inl ⟨d, rfl, (Option.some.inj h).symm⟩)))
      · cases h
  | readResponse d =>
      simp only [Steps, step] at h
      split at h
      · next b hphase =>
          exact .inr (.inr (.inr (.inr ⟨d, b, rfl, hphase, (Option.some.inj h).symm⟩)))
      · cases h

theorem Inv.client (h : Inv sc tr m) {cev : ExchangeEvent} (hoffers : m.offers cev = true) :
    Inv sc (tr ++ [.client cev]) (m.withClient (m.request.sender.step cev).1) := by
  have hmove := m.request.sender.step_move cev
  refine ⟨hmove.inv h.exchange, hmove.wire_le h.exchange h.upload,
    Faithful.evolves h.request (hmove.evolves h.exchange), h.response, ?_⟩
  rcases h.server with ⟨hquiet, hheard⟩ | hanswering
  · refine .inl ⟨hquiet.snoc rfl, ?_⟩
    rintro (⟨b, hphase⟩ | hread | hend)
    · rcases Exchange.responded_of_step hphase with rfl | hheld
      · -- `recv_response` succeeds only after the headers
        exact hquiet.not_sent (by simpa [offers, headersSent] using hoffers)
      · exact hheard (.inl hheld)
    · exact hheard (.inr (.inl hread))
    · exact hheard (.inr (.inr hend))
  · exact .inr (hanswering.snoc rfl)

theorem Inv.readResponse (h : Inv sc tr m) {b : H3IncomingClient RecvHalf}
    (hphase : m.request.sender.phase = .responded b) (d : Delivery) :
    Inv sc (tr ++ [.readResponse d]) (m.onReadResponse b d) := by
  have hmove := m.request.sender.step_move (.pollBody
    ⟨(m.response.reader.load (responseStream m.response.sender) d).recvData.1,
      (m.response.reader.load (responseStream m.response.sender) d).recvTrailers.1⟩)
  refine ⟨hmove.inv h.exchange, hmove.wire_le h.exchange h.upload,
    Faithful.evolves h.request (hmove.evolves h.exchange),
    responseFaithful_read h.response hphase d, ?_⟩
  rcases h.server with ⟨-, hheard⟩ | hanswering
  · exact absurd (.inl ⟨b, hphase⟩) hheard
  · exact .inr (hanswering.snoc rfl)

theorem Inv.step (h : Inv sc tr m) (hstep : Steps m ev m') : Inv sc (tr ++ [ev]) m' := by
  obtain ⟨cev, rfl, hoffers, rfl⟩ | ⟨rfl, hnone, rfl⟩ | ⟨sev, s, s', rfl, hs, hs', rfl⟩ |
    ⟨d, rfl, rfl⟩ | ⟨d, b, rfl, hphase, rfl⟩ := steps_cases hstep
  · exact h.client hoffers
  · have hresponse := h.response
    have hserver := h.server
    rw [ResponseFaithful, hnone] at hresponse
    rw [hnone] at hserver
    refine ⟨h.exchange, h.upload, h.request, hresponse, ?_⟩
    rcases hserver with ⟨hquiet, hheard⟩ | ⟨s, -, hs, -⟩
    · cases hquiet with
      | idle hr => exact .inl ⟨.calling ((responses_append rfl).trans hr), hheard⟩
    · cases hs
  · exact h.serverStep hs hs'
  · refine ⟨h.exchange, h.upload, Tunnel.isFaithful_read h.request d, h.response, ?_⟩
    exact h.server.imp (fun hquiet ↦ ⟨hquiet.1.snoc rfl, hquiet.2⟩) (·.snoc rfl)
  · exact h.readResponse hphase d

end

end Rpc

/-! ## End to end -/

theorem Faithful.received_le {w : SendStream} {b : Incoming Pipe} {received : List Frame}
    {ended : Bool} (h : Faithful w b received ended) : Frame.flatten received <+: w.wire := by
  rw [h.received]
  exact List.take_prefix _ _

theorem Faithful.received_of_ended {w : SendStream} {b : Incoming Pipe} {received : List Frame}
    {ended : Bool} (h : Faithful w b received ended) (hended : ended = true) :
    w.status = .finished ∧ Frame.flatten received = w.wire := by
  obtain ⟨hfin, hall⟩ := h.ended hended
  refine ⟨hfin, ?_⟩
  rw [h.received, hall, List.take_length]

/-- At every moment of every run: what the service has read of the request body
is an initial part of it, and the whole of a body that ended normally once the
end has been reported.  The caller sees a response only if the service returned
exactly one and its headers were sent, and what it has read is an initial part
of that response, complete once the end has been reported. -/
theorem rpc_integrity [Http3] {conn : Conn} {closing : Flag} {sc : BodyScript}
    {tr : List RpcEvent} {m : Rpc} (h : Run Rpc.Steps (.new conn closing sc) tr m) :
    (Frame.flatten m.request.received <+: Frame.flatten sc.frames ∧
      (m.request.ended = true →
        sc.ending = .done ∧ Frame.flatten m.request.received = Frame.flatten sc.frames)) ∧
    (m.Heard → ∃ sc', responses tr = [sc'] ∧ .server (.sendResponse .ok) ∈ tr ∧
      Frame.flatten m.response.received <+: Frame.flatten sc'.frames ∧
      (m.response.ended = true →
        sc'.ending = .done ∧ Frame.flatten m.response.received = Frame.flatten sc'.frames)) := by
  have hinv : Rpc.Inv sc tr m :=
    h.history (fun _ _ _ _ hI hstep ↦ hI.step hstep) (Rpc.inv_new conn closing sc)
  refine ⟨⟨(Faithful.received_le hinv.request).trans hinv.upload, ?_⟩, ?_⟩
  · intro hended
    obtain ⟨hfin, hreceived⟩ := Faithful.received_of_ended hinv.request hended
    obtain ⟨hend, hwire⟩ := hinv.exchange.whole_of_finished hfin
    exact ⟨hend, hreceived.trans hwire⟩
  · intro hheard
    rcases hinv.server with ⟨-, hnot⟩ | ⟨s, sc', hs, hanswered, hguarded, hwire⟩
    · exact absurd hheard hnot
    have hresponse := hinv.response
    rw [Rpc.ResponseFaithful, hs] at hresponse
    refine ⟨sc', hanswered.1, hanswered.2, hresponse.received_le.trans hwire, ?_⟩
    intro hended
    obtain ⟨hfin, hreceived⟩ := hresponse.received_of_ended hended
    obtain ⟨hend, hwhole⟩ := ServeRequest.whole_of_guarded hguarded hfin
    exact ⟨hend, hreceived.trans hwhole⟩

def echoRpc : List RpcEvent :=
  let step : Answers := ⟨true, .ok⟩
  .client (.sendRequest .ok) :: List.replicate 5 (.client (.upload step)) ++
    [.accept, .readRequest (.data 4), .readRequest .advance, .readRequest .advance,
      .server (.service (.returns ⟨[.data [7, 8]], .done⟩)), .server (.sendResponse .ok),
      .client (.recvResponse .ok)] ++
    List.replicate 5 (.server (.body step)) ++
    [.readResponse (.data 1), .readResponse (.data 4), .readResponse .advance,
      .readResponse .advance]

theorem rpc_integrity_echo :
    letI := documentedHttp3
    ∃ m, Run Rpc.Steps (.new 0 0 ⟨[.data [7, 8]], .done⟩) echoRpc m ∧
      m.request.ended = true ∧ m.response.ended = true ∧
      m.response.received = [.data [7], .data [8]] ∧
      ∃ sc', responses echoRpc = [sc'] ∧
        Frame.flatten m.response.received = Frame.flatten sc'.frames := by
  let _ := documentedHttp3
  have hread : (echoRpc.foldlM Rpc.step (.new 0 0 ⟨[.data [7, 8]], .done⟩)).map
      (fun m ↦ (m.request.ended, m.response.ended, m.response.received)) =
      some (true, true, [.data [7], .data [8]]) := by decide +kernel
  obtain ⟨m, hm, hread⟩ := Option.map_eq_some_iff.mp hread
  simp only [Prod.mk.injEq] at hread
  obtain ⟨hrequest, hresponse, hreceived⟩ := hread
  have hrun : Run Rpc.Steps (.new 0 0 ⟨[.data [7, 8]], .done⟩) echoRpc m := run_foldlM hm
  obtain ⟨sc', hsc', -, -, hend⟩ := (rpc_integrity hrun).2 (.inr (.inr hresponse))
  exact ⟨m, hrun, hrequest, hresponse, hreceived, sc', hsc', (hend hresponse).2⟩

end TonicH3
