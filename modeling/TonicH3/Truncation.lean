import TonicH3.ExchangeInvariant
import TonicH3.ServeRequest
import TonicH3.Transport

/-!
# No truncated message looks complete

The two directions of an exchange, each as a tunnel: the upload of
`send_request_inner` read by `H3IncomingServer`, and the body send of
`serve_request` read by `H3IncomingClient`.  A reader that is told the end of
the stream has read the whole body of a source that ended normally, wherever
the sender was interrupted.
-/

namespace TonicH3

open EventRun

namespace Evolves

theorem refl (w : SendStream) : Evolves w w := ⟨List.prefix_refl _, fun _ ↦ rfl⟩

theorem trans {u v w : SendStream} (h : Evolves u v) (h' : Evolves v w) : Evolves u w := by
  refine ⟨h.1.trans h'.1, ?_⟩
  intro hfin
  have hv := h.2 hfin
  rw [hv] at h'
  exact h'.2 hfin

theorem of_active {w w' : SendStream} (hactive : w.status = .active)
    (hwire : w.wire <+: w'.wire) : Evolves w w' := by
  refine ⟨hwire, ?_⟩
  intro hfin
  rw [hactive] at hfin
  cases hfin

theorem drop (w : SendStream) : Evolves w w.drop := by
  refine ⟨List.prefix_refl _, ?_⟩
  intro hfin
  exact w.drop_eq_self (by rw [hfin]; nofun)

end Evolves

section BodySend

variable {o : Ownership} {w₀ : SendStream} {sc : BodyScript} {fut fut' : SendFuture}
  {signal : Signal}

theorem SendInv.active (hinv : SendInv w₀ sc fut) (hw₀ : w₀.Fresh) (hlive : fut.isOver = false) :
    fut.stream.status = .active := by
  cases fut with
  | unpolled w bd =>
      obtain ⟨rfl, -⟩ := hinv
      exact hw₀.2
  | running pc g bd => exact hinv.2.2.1
  | returned w bd res => cases hlive
  | dropped w bd => cases hlive

theorem SendMove.wire_prefix (h : SendMove o fut fut' signal) :
    fut.stream.wire <+: fut'.stream.wire := by
  cases h <;> simp [SendFuture.stream, SendResetGuard.new, SendResetGuard.onStream,
    SendResetGuard.setErrorCode, SendResetGuard.disarm]

theorem SendMove.isOver_eq (h : SendMove o fut fut' signal) : fut.isOver = false := by
  cases h <;> rfl

theorem SendMove.evolves (h : SendMove o fut fut' signal) (hinv : SendInv w₀ sc fut)
    (hw₀ : w₀.Fresh) : Evolves fut.stream fut'.stream :=
  .of_active (hinv.active hw₀ h.isOver_eq) h.wire_prefix

theorem SendInv.evolves_drop (hinv : SendInv w₀ sc fut) (hw₀ : w₀.Fresh) :
    Evolves fut.stream (fut.drop o).stream := by
  cases hover : fut.isOver with
  | true =>
      cases fut with
      | unpolled w bd => cases hover
      | running pc g bd => cases hover
      | returned w bd res => exact .refl _
      | dropped w bd => exact .refl _
  | false =>
      apply Evolves.of_active (hinv.active hw₀ hover)
      cases fut <;> simp [SendFuture.drop, SendFuture.stream]

end BodySend

/-! ## The upload -/

namespace Exchange

/-- The stream of the upload; nothing is on it before the upload exists. -/
def uploadStream (x : Exchange) : SendStream :=
  match x.bodyFut with
  | some fut => fut.stream
  | none => .new

variable {sc : BodyScript} {x x' : Exchange} {o : ExchangeOut}

theorem Move.evolves [Http3] (h : Move x x' o) (hinv : Inv sc x) :
    Evolves x.uploadStream x'.uploadStream := by
  have hupload : ∀ {a fut fut' signal}, x.bodyFut = some fut → fut.isOver = false →
      sendH3ClientBody x.cancelResolved a fut = (fut', signal) →
      Evolves x.uploadStream fut'.stream := by
    intro a fut fut' signal hfut hlive hstep
    have hmove := sendH3ClientBody_move x.cancelResolved a hlive
    rw [hstep] at hmove
    simpa [uploadStream, hfut] using hmove.evolves (hinv.sendInv hfut) SendStream.new_fresh
  cases h with
  | stutter => exact .refl _
  | opened bd hp =>
      have hphase := hinv.phase
      rw [hp] at hphase
      simpa [uploadStream, hphase.2.1, SendFuture.stream] using Evolves.refl SendStream.new
  | rejected bd e hp => exact .refl _
  | eagerly a fut fut' signal hfut hlive hp hstep =>
      have hgrow := hupload hfut hlive hstep
      cases signal <;> exact hgrow
  | background a fut fut' signal hfut hlive hp hstep => exact hupload hfut hlive hstep
  | uploadDropped hp =>
      cases hfut : x.bodyFut with
      | none => simpa [uploadStream, hfut] using Evolves.refl SendStream.new
      | some fut =>
          simpa [uploadStream, hfut] using
            (hinv.sendInv hfut).evolves_drop (o := .owned) SendStream.new_fresh
  | responded r hp hr => exact .refl _
  | refused r e streamOpen hp hr => exact .refl _
  | futureDropped hp => exact .refl _
  | bodyPolled b p hp => exact .refl _
  | bodyDropped b hp => exact .refl _

theorem Inv.whole_of_finished (hinv : Inv sc x) (hfin : x.uploadStream.status = .finished) :
    sc.ending = .done ∧ x.uploadStream.wire = Frame.flatten sc.frames := by
  cases hfut : x.bodyFut with
  | none => simp [uploadStream, hfut, SendStream.new] at hfin
  | some fut =>
      have hstream : x.uploadStream = fut.stream := by simp [uploadStream, hfut]
      rw [hstream] at hfin ⊢
      obtain ⟨w, bd, rfl, hscript, -, -, hend, hwire, -⟩ :=
        (hinv.sendInv hfut).complete_of_finished rfl hfin
      rw [← hscript]
      exact ⟨hend, hwire⟩

end Exchange

/-! ## The response body -/

namespace ServeRequest

def stream : ServeRequest → SendStream
  | .calling w => w
  | .responding w _ => w
  | .sendingBody fut => fut.stream
  | .exited w _ _ => w

theorem stream_afterBody (fut : SendFuture) : Evolves fut.stream (afterBody fut).stream := by
  cases fut with
  | unpolled w bd => exact .refl _
  | running pc g bd => exact .refl _
  | returned w bd res => exact .drop w
  | dropped w bd => exact .refl _

theorem guarded_evolves {sc : BodyScript} {s s' : ServeRequest} {ev : ServeEvent}
    (h : Steps s ev s') (hs : Guarded sc s) : Evolves s.stream s'.stream := by
  obtain ⟨fut, rfl, hsend, ⟨a, hlive, rfl⟩ | ⟨-, rfl⟩⟩ := steps_of_guarded h hs
  · have hmove := sendH3ServerBody_move a hlive
    exact (hmove.evolves hsend withHeaders_fresh).trans (stream_afterBody _)
  · exact (hsend.evolves_drop withHeaders_fresh).trans (.drop _)

theorem whole_of_guarded {sc : BodyScript} {s : ServeRequest} (hs : Guarded sc s)
    (hfin : s.stream.status = .finished) :
    sc.ending = .done ∧ s.stream.wire = Frame.flatten sc.frames := by
  cases s with
  | calling w => exact hs.elim
  | responding w bd => exact hs.elim
  | sendingBody fut =>
      have hsend : SendInv withHeaders sc fut := hs
      obtain ⟨w, bd, rfl, hscript, -, -, hend, hwire, -⟩ := hsend.complete_of_finished rfl hfin
      rw [← hscript]
      exact ⟨hend, hwire⟩
  | exited w res exit =>
      obtain ⟨⟨code, hreset⟩ | ⟨-, hsent⟩, bd, rfl, hscript⟩ := hs
      · rw [show (exited w (some bd) exit).stream = w from rfl, hreset] at hfin
        cases hfin
      · obtain ⟨bd', rest, hbd, -, -, hend, hwire, -⟩ := hsent
        obtain rfl := Option.some.inj hbd
        rw [← hscript]
        exact ⟨hend, hwire⟩

end ServeRequest

/-! ## End to end -/

theorem Tunnel.received_of_ended {σ β : Type*} [BodyReader β] {stream : σ → SendStream}
    {t : Tunnel σ β} (h : t.IsFaithful stream) (hended : t.ended = true) :
    (stream t.sender).status = .finished ∧
      Frame.flatten t.received = (stream t.sender).wire := by
  obtain ⟨hfin, hall⟩ := h.ended hended
  refine ⟨hfin, ?_⟩
  rw [h.received, hall, List.take_length]

/-- In every run of an upload and its reader, and of a response body and its
reader: if `poll_frame` has returned `None`, the body source ended normally and
what the reader got is the whole body, up to re-chunking. -/
theorem truncation_safety [Http3] :
    (∀ (conn : Conn) (closing : Flag) (sc : BodyScript) (tr : List (TunnelEvent _))
      (t : Tunnel Exchange (H3IncomingServer Pipe)),
      Run (Tunnel.Step Exchange.uploadStream Exchange.Steps)
        (.start (Exchange.new conn closing sc) (.new .new)) tr t →
      t.ended = true → sc.ending = .done ∧ Frame.flatten t.received = Frame.flatten sc.frames) ∧
    (∀ (sc : BodyScript) (cancelBodySend : Bool) (tr : List (TunnelEvent _))
      (t : Tunnel ServeRequest (H3IncomingClient Pipe)),
      Run (Tunnel.Step ServeRequest.stream ServeRequest.Steps)
        (.start (.sendingBody (.unpolled ServeRequest.withHeaders (.new sc)))
          (.new .new cancelBodySend)) tr t →
      t.ended = true → sc.ending = .done ∧ Frame.flatten t.received = Frame.flatten sc.frames) := by
  constructor
  · intro conn closing sc tr t hrun hended
    obtain ⟨hinv, hfaithful⟩ := Tunnel.isFaithful_of_run (I := Exchange.Inv sc)
      (fun _ _ _ hI hstep ↦ (Exchange.move_of_steps hstep).inv hI)
      (fun _ _ _ hI hstep ↦ (Exchange.move_of_steps hstep).evolves hI)
      hrun (Exchange.inv_new conn closing sc) (Tunnel.isFaithful_start rfl)
    obtain ⟨hfin, hreceived⟩ := Tunnel.received_of_ended hfaithful hended
    obtain ⟨hend, hwire⟩ := hinv.whole_of_finished hfin
    exact ⟨hend, hreceived.trans hwire⟩
  · intro sc cancelBodySend tr t hrun hended
    obtain ⟨hguarded, hfaithful⟩ := Tunnel.isFaithful_of_run (I := ServeRequest.Guarded sc)
      (fun _ _ _ hI hstep ↦ ServeRequest.guarded_step hstep hI)
      (fun _ _ _ hI hstep ↦ ServeRequest.guarded_evolves hstep hI)
      hrun ⟨rfl, rfl⟩ (Tunnel.isFaithful_start rfl)
    obtain ⟨hfin, hreceived⟩ := Tunnel.received_of_ended hfaithful hended
    obtain ⟨hend, hwire⟩ := ServeRequest.whole_of_guarded hguarded hfin
    exact ⟨hend, hreceived.trans hwire⟩

def trailed : BodyScript := ⟨[.data [7, 8], .trailers [("grpc-status", "0")]], .done⟩

/-- The data in two parts, its end, the trailers, and the end of the stream. -/
def readAll {ε : Type*} : List (TunnelEvent ε) :=
  [.read (.data 1), .read (.data 4), .read .advance, .read .advance, .read .advance]

def uploadAll : List (TunnelEvent (ExchangeEvent × ExchangeOut)) :=
  [.send (.sendRequest .ok, .quiet), .send (.upload ⟨true, .ok⟩, ⟨false, some .again, none⟩),
    .send (.upload ⟨true, .ok⟩, ⟨false, some .again, none⟩),
    .send (.upload ⟨true, .ok⟩, ⟨false, some .again, none⟩),
    .send (.upload ⟨true, .ok⟩, ⟨false, some .again, none⟩),
    .send (.upload ⟨true, .ok⟩, ⟨false, some .again, none⟩),
    .send (.upload ⟨true, .ok⟩, ⟨false, some .again, none⟩),
    .send (.upload ⟨true, .ok⟩, ⟨false, some .finished, none⟩)]

def respondAll : List (TunnelEvent ServeEvent) :=
  List.replicate 7 (.send (.body ⟨true, .ok⟩))

/-- A message with trailers in each direction, re-chunked on the way. -/
theorem truncation_safety_withTrailers :
    letI := documentedHttp3
    (∃ t : Tunnel Exchange (H3IncomingServer Pipe),
      Run (Tunnel.Step Exchange.uploadStream Exchange.Steps)
        (.start (Exchange.new 0 0 trailed) (.new .new)) (uploadAll ++ readAll) t ∧
      t.ended = true ∧ t.received = [.data [7], .data [8], .trailers [("grpc-status", "0")]] ∧
      Frame.flatten t.received = Frame.flatten trailed.frames) ∧
    (∃ t : Tunnel ServeRequest (H3IncomingClient Pipe),
      Run (Tunnel.Step ServeRequest.stream ServeRequest.Steps)
        (.start (.sendingBody (.unpolled ServeRequest.withHeaders (.new trailed)))
          (.new .new true)) (respondAll ++ readAll) t ∧
      t.ended = true ∧ t.received = [.data [7], .data [8], .trailers [("grpc-status", "0")]] ∧
      Frame.flatten t.received = Frame.flatten trailed.frames) := by
  let _ := documentedHttp3
  constructor
  · have hrun : Run (Tunnel.Step Exchange.uploadStream Exchange.Steps)
        (Tunnel.start (Exchange.new 0 0 trailed) (H3IncomingServer.new Pipe.new))
        (uploadAll ++ readAll) _ :=
      .cons (.send rfl) (.cons (.send rfl) (.cons (.send rfl) (.cons (.send rfl) (.cons (.send rfl)
        (.cons (.send rfl) (.cons (.send rfl) (.cons (.send rfl) (.cons (.read _ _)
        (.cons (.read _ _) (.cons (.read _ _) (.cons (.read _ _) (.cons (.read _ _)
        (.nil _)))))))))))))
    exact ⟨_, hrun, rfl, rfl, (truncation_safety.1 _ _ _ _ _ hrun rfl).2⟩
  · have hrun : Run (Tunnel.Step ServeRequest.stream ServeRequest.Steps)
        (Tunnel.start (.sendingBody (.unpolled ServeRequest.withHeaders (.new trailed)))
          (H3IncomingClient.new Pipe.new true)) (respondAll ++ readAll) _ :=
      .cons (.send rfl) (.cons (.send rfl) (.cons (.send rfl) (.cons (.send rfl) (.cons (.send rfl)
        (.cons (.send rfl) (.cons (.send rfl) (.cons (.read _ _)
        (.cons (.read _ _) (.cons (.read _ _) (.cons (.read _ _) (.cons (.read _ _)
        (.nil _))))))))))))
    exact ⟨_, hrun, rfl, rfl, (truncation_safety.2 _ _ _ _ hrun rfl).2⟩

end TonicH3
