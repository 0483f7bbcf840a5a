import TonicH3.ExchangeInvariant

/-!
# Cancellation reaches the upload

Once the caller has given an exchange up, its upload takes no further frame
and can only end in a reset.  The argument follows the upload through the rest
of the run: a write in progress may still complete, but the next `select!`
takes the cancel branch, because the cancellation sender is gone for good.
-/

namespace TonicH3

open EventRun

/-- The error with which the transport answers the write in progress. -/
def SendFuture.writeError (a : Answers) : SendFuture → Option StreamError
  | .running (.sending _ _) _ _ =>
      match a.op with
      | .err _ e => some e
      | _ => none
  | _ => none

/-- The code an abandoned upload resets its stream with, by the errors its
writes have been answered with. -/
def resetCode (errors : List StreamError) : Code :=
  if errors = [] then .h3RequestCancelled else .h3InternalError

theorem resetCode_eq_iff (errors : List StreamError) :
    resetCode errors = .h3RequestCancelled ↔ errors = [] := by
  cases errors <;> simp [resetCode]

/-- The upload has not seen the end of its source and no write has failed, or
it has reset its stream with the code its writes call for. -/
def Doomed (errors : List StreamError) : SendFuture → Prop
  | .unpolled _ _ => False
  | .running .finishing _ _ => False
  | .running _ _ bd => bd.ended = false ∧ errors = []
  | .returned w _ _ => w.status = .reset (resetCode errors)
  | .dropped w _ => w.status = .reset (resetCode errors)

section

variable {errors : List StreamError} {sc : BodyScript} {fut fut' : SendFuture} {a : Answers}
  {signal : Signal}

theorem doomed_of_source_open (hinv : SendInv .new sc fut) (hpolled : fut.isPolled = true)
    (hlive : fut.isOver = false) (hopen : fut.source.ended = false) : Doomed [] fut := by
  cases fut with
  | unpolled w bd => cases hpolled
  | returned w bd res => cases hlive
  | dropped w bd => cases hlive
  | running pc g bd =>
      cases pc with
      | nextFrame => exact ⟨hopen, rfl⟩
      | sending f rest => exact ⟨hopen, rfl⟩
      | finishing =>
          obtain ⟨-, -, -, -, -, hover, -⟩ := hinv
          simp [SendFuture.source, hover] at hopen

/-- A cancelled upload stays doomed through one of its own steps, whatever its
write in progress is answered with. -/
theorem doomed_upload (hinv : SendInv .new sc fut) (hlive : fut.isOver = false)
    (hstep : sendH3ClientBody true a fut = (fut', signal)) (hdoomed : Doomed errors fut) :
    Doomed (errors ++ (fut.writeError a).toList) fut' := by
  cases fut with
  | unpolled w bd => exact hdoomed.elim
  | returned w bd res => cases hlive
  | dropped w bd => cases hlive
  | running pc g bd =>
      cases pc with
      | nextFrame =>
          obtain ⟨-, rfl⟩ := hdoomed
          rw [sendH3ClientBody_cancelled] at hstep
          obtain ⟨rfl, -⟩ := Prod.mk.inj hstep
          exact hinv.reset_of_drop
      | sending f rest =>
          obtain ⟨hopen, rfl⟩ := hdoomed
          simp only [sendH3ClientBody] at hstep
          cases hop : a.op with
          | pending k =>
              rw [hop] at hstep
              obtain ⟨rfl, -⟩ := Prod.mk.inj hstep
              simpa [SendFuture.writeError, hop] using ⟨hopen, rfl⟩
          | ok =>
              rw [hop] at hstep
              obtain ⟨rfl, -⟩ := Prod.mk.inj hstep
              simpa [SendFuture.writeError, hop] using ⟨hopen, rfl⟩
          | err k e =>
              rw [hop] at hstep
              obtain ⟨rfl, -⟩ := Prod.mk.inj hstep
              have hcode : resetCode ([] ++ (SendFuture.writeError a
                  (.running (.sending f rest) g bd)).toList) = .h3InternalError := by
                simp [SendFuture.writeError, hop, resetCode]
              rw [Doomed, hcode]
              exact hinv.reset_of_error rfl
      | finishing => exact hdoomed.elim

theorem doomed_drop (hinv : SendInv .new sc fut) (hdoomed : Doomed errors fut) :
    Doomed errors (fut.drop .owned) := by
  cases fut with
  | unpolled w bd => exact hdoomed.elim
  | returned w bd res => exact hdoomed
  | dropped w bd => exact hdoomed
  | running pc g bd =>
      cases pc with
      | nextFrame =>
          obtain ⟨-, rfl⟩ := hdoomed
          exact hinv.reset_of_drop
      | sending f rest =>
          obtain ⟨-, rfl⟩ := hdoomed
          exact hinv.reset_of_drop
      | finishing => exact hdoomed.elim

theorem writeError_of_isOver (hover : fut.isOver = true) : fut.writeError a = none := by
  cases fut with
  | unpolled w bd => cases hover
  | running pc g bd => cases hover
  | returned w bd res => rfl
  | dropped w bd => rfl

theorem yielded_upload_cancelled (hpolled : fut.isPolled = true)
    (hstep : sendH3ClientBody true a fut = (fut', signal)) :
    fut'.source.yielded = fut.source.yielded := by
  cases fut with
  | unpolled w bd => cases hpolled
  | returned w bd res =>
      obtain ⟨rfl, -⟩ := Prod.mk.inj hstep
      rfl
  | dropped w bd =>
      obtain ⟨rfl, -⟩ := Prod.mk.inj hstep
      rfl
  | running pc g bd =>
      cases pc with
      | nextFrame =>
          obtain ⟨rfl, -⟩ := Prod.mk.inj hstep
          rfl
      | sending f rest =>
          simp only [sendH3ClientBody] at hstep
          cases hop : a.op <;> rw [hop] at hstep <;> obtain ⟨rfl, -⟩ := Prod.mk.inj hstep <;> rfl
      | finishing =>
          simp only [sendH3ClientBody] at hstep
          cases hop : a.op <;> rw [hop] at hstep <;> obtain ⟨rfl, -⟩ := Prod.mk.inj hstep <;> rfl

end

namespace Exchange

def UploadDoomed (errors : List StreamError) (x : Exchange) : Prop :=
  ∃ fut, x.bodyFut = some fut ∧ Doomed errors fut

/-- The errors an event answers the upload's write in progress with. -/
def writeErrors (x : Exchange) : ExchangeEvent → List StreamError
  | .upload a => (x.bodyFut.bind (SendFuture.writeError a)).toList
  | _ => []

variable [Http3] {errors : List StreamError} {sc : BodyScript} {x x' : Exchange} {o : ExchangeOut}

/-- The errors the upload's writes are answered with in a sequence of events. -/
def failures (x : Exchange) (es : List ExchangeEvent) : List StreamError :=
  observed (fun x ev ↦ (x.step ev).1) writeErrors x es

/-- The caller's own events find nothing left to do. -/
theorem step_of_isAbandoned (hab : x.phase.isAbandoned = true) {ev : ExchangeEvent}
    (hupload : ∀ a, ev ≠ .upload a) (hdrop : ev ≠ .dropUpload) : x.step ev = (x, .quiet) := by
  cases ev with
  | upload a => exact absurd rfl (hupload a)
  | dropUpload => exact absurd rfl hdrop
  | sendRequest a => cases hp : x.phase <;> simp_all [step, Phase.isAbandoned]
  | recvResponse a => cases hp : x.phase <;> simp_all [step, Phase.isAbandoned]
  | dropFuture => cases hp : x.phase <;> simp_all [step, Phase.isAbandoned]
  | pollBody a => cases hp : x.phase <;> simp_all [step, Phase.isAbandoned]
  | dropBody => cases hp : x.phase <;> simp_all [step, Phase.isAbandoned]

/-- What an event does to an exchange that has been given up. -/
theorem step_uploadDoomed (hinv : Inv sc x) (hab : x.phase.isAbandoned = true)
    (hdoomed : x.UploadDoomed errors) (ev : ExchangeEvent) :
    (x.step ev).1.UploadDoomed (errors ++ x.writeErrors ev) := by
  obtain ⟨fut, hfut, hd⟩ := hdoomed
  obtain ⟨hcancel, hsend, -⟩ := hinv.cancelResolved_of_isAbandoned hab hfut
  have hne : x.phase ≠ .eager := by
    intro hp
    rw [hp] at hab
    cases hab
  have hquiet : ∀ ev : ExchangeEvent, (∀ a, ev ≠ .upload a) → ev ≠ .dropUpload →
      x.writeErrors ev = [] → (x.step ev).1.UploadDoomed (errors ++ x.writeErrors ev) := by
    intro ev hupload hdrop hnone
    rw [step_of_isAbandoned hab hupload hdrop, hnone, List.append_nil]
    exact ⟨fut, hfut, hd⟩
  cases ev with
  | upload a =>
      cases hover : fut.isOver with
      | true =>
          refine ⟨fut, by simp [step, onUpload, hfut, hover], ?_⟩
          simpa [writeErrors, hfut, writeError_of_isOver hover] using hd
      | false =>
          refine ⟨(sendH3ClientBody true a fut).1, ?_, ?_⟩
          · simp [step, onUpload, hfut, hover, hcancel, hne]
          · simp only [writeErrors, hfut, Option.bind_some]
            exact doomed_upload hsend hover rfl hd
  | dropUpload =>
      refine ⟨fut.drop .owned, by simp [step, onDropUpload, hne, hfut], ?_⟩
      simpa [writeErrors] using doomed_drop hsend hd
  | sendRequest a => exact hquiet _ (by simp) (by simp) rfl
  | recvResponse a => exact hquiet _ (by simp) (by simp) rfl
  | dropFuture => exact hquiet _ (by simp) (by simp) rfl
  | pollBody a => exact hquiet _ (by simp) (by simp) rfl
  | dropBody => exact hquiet _ (by simp) (by simp) rfl

theorem uploadDoomed_of_run {tr : List (ExchangeEvent × ExchangeOut)} (h : Run Steps x tr x')
    (hinv : Inv sc x) (hab : x.phase.isAbandoned = true) (hdoomed : x.UploadDoomed []) :
    x'.UploadDoomed (x.failures (tr.map Prod.fst)) := by
  have hkeep : ∀ errors (y : Exchange) (ev : ExchangeEvent),
      Inv sc y ∧ y.phase.isAbandoned = true ∧ y.UploadDoomed errors →
      Inv sc (y.step ev).1 ∧ (y.step ev).1.phase.isAbandoned = true ∧
        (y.step ev).1.UploadDoomed (errors ++ y.writeErrors ev) := by
    rintro errors y ev ⟨hy, habY, hdY⟩
    have hmove := y.step_move ev
    refine ⟨hmove.inv hy, ?_, step_uploadDoomed hy habY hdY ev⟩
    rw [hmove.isAbandoned habY]
    exact habY
  have hend := h.events.observe
    (I := fun errors y ↦ Inv sc y ∧ y.phase.isAbandoned = true ∧ y.UploadDoomed errors) hkeep
    ⟨hinv, hab, hdoomed⟩
  exact hend.2.2

/-- The upload reports every write that is answered with an error. -/
theorem failed_of_mem_writeErrors {e : StreamError} {ev : ExchangeEvent}
    (h : e ∈ x.writeErrors ev) : (x.step ev).2.signal = some (.failed (.stream e)) := by
  cases ev with
  | upload a =>
      cases hfut : x.bodyFut with
      | none => simp [writeErrors, hfut] at h
      | some fut =>
          have herr : fut.writeError a = some e := by simpa [writeErrors, hfut] using h
          cases fut with
          | unpolled w bd => cases herr
          | returned w bd res => cases herr
          | dropped w bd => cases herr
          | running pc g bd =>
              cases pc with
              | nextFrame => cases herr
              | finishing => cases herr
              | sending f rest =>
                  cases hop : a.op <;>
                    simp_all [SendFuture.writeError, step, onUpload, sendH3ClientBody,
                      SendFuture.isOver]
  | _ => simp [writeErrors] at h

theorem failures_eq_nil {tr : List (ExchangeEvent × ExchangeOut)} (h : Run Steps x tr x')
    (hquiet : ∀ l ∈ tr, ∀ e, l.2.signal ≠ some (.failed e)) :
    x.failures (tr.map Prod.fst) = [] := by
  rw [List.eq_nil_iff_forall_not_mem]
  intro e he
  obtain ⟨l, hl, hsignal⟩ := h.of_mem_observed
    (P := fun l ↦ l.2.signal = some (.failed (.stream e)))
    (fun _ _ ↦ failed_of_mem_writeErrors) he
  exact hquiet l hl _ hsignal

theorem Move.isAbandoned_of_cancelled (h : Move x x' o) (hinv : Inv sc x)
    (hsignal : o.signal = some .cancelled) : x.phase.isAbandoned = true := by
  have hresolved : ∀ (a : Answers) (fut fut' : SendFuture) (signal : Signal),
      sendH3ClientBody x.cancelResolved a fut = (fut', signal) → signal = .cancelled →
      x.phase.isAbandoned = true := by
    rintro a fut fut' signal hstep rfl
    apply hinv.isAbandoned_of_cancelResolved
    by_contra hnot
    have hfalse : x.cancelResolved = false := by simpa using hnot
    rw [hfalse] at hstep
    exact sendH3ClientBody_not_cancelled a fut (congrArg Prod.snd hstep)
  cases h with
  | eagerly a fut fut' signal hfut hlive hp hstep =>
      exact hresolved a fut fut' signal hstep (Option.some.inj hsignal)
  | background a fut fut' signal hfut hlive hp hstep =>
      exact hresolved a fut fut' signal hstep (Option.some.inj hsignal)
  | stutter => cases hsignal
  | opened bd hp => cases hsignal
  | rejected bd e hp => cases hsignal
  | uploadDropped hp => cases hsignal
  | responded r hp hr => cases hsignal
  | refused r e streamOpen hp hr => cases hsignal
  | futureDropped hp => cases hsignal
  | bodyPolled b p hp => cases hsignal
  | bodyDropped b hp => cases hsignal

/-- A later step of an abandoned upload takes no frame; at the `select!` it
takes the cancel branch and resets the stream. -/
theorem upload_of_isAbandoned (hinv : Inv sc x) (hab : x.phase.isAbandoned = true)
    {fut : SendFuture} (hfut : x.bodyFut = some fut) {a : Answers}
    (hstep : x.step (.upload a) = (x', o)) :
    ∃ fut', x'.bodyFut = some fut' ∧ fut'.source.yielded = fut.source.yielded ∧
      ∀ g bd, fut = .running .nextFrame g bd →
        o.signal = some .cancelled ∧ fut'.isOver = true ∧
          fut'.stream.status = .reset .h3RequestCancelled := by
  obtain ⟨hcancel, hsend, hpolled⟩ := hinv.cancelResolved_of_isAbandoned hab hfut
  have hne : x.phase ≠ .eager := by
    intro hp
    rw [hp] at hab
    cases hab
  cases hover : fut.isOver with
  | true =>
      obtain ⟨rfl, -⟩ := Prod.mk.inj (show (x, ExchangeOut.quiet) = (x', o) by
        simpa [step, onUpload, hfut, hover] using hstep)
      refine ⟨fut, hfut, rfl, ?_⟩
      rintro g bd rfl
      cases hover
  | false =>
      generalize hsend' : sendH3ClientBody true a fut = res
      obtain ⟨fut', signal⟩ := res
      obtain ⟨rfl, rfl⟩ := Prod.mk.inj
        (show ({ x with bodyFut := some fut' }, ⟨false, some signal, none⟩) = (x', o) by
          simpa [step, onUpload, hfut, hover, hcancel, hsend', hne] using hstep)
      refine ⟨fut', rfl, yielded_upload_cancelled hpolled hsend', ?_⟩
      rintro g bd rfl
      rw [sendH3ClientBody_cancelled] at hsend'
      obtain ⟨rfl, rfl⟩ := Prod.mk.inj hsend'
      exact ⟨rfl, rfl, hsend.reset_of_drop (o := .owned)⟩

end Exchange

open Exchange

/-- For every reachable exchange.  Once the caller has given it up, no later
step of the upload takes a frame, and one that reaches the `select!` resets the
stream with `H3_REQUEST_CANCELLED`; unless the source was already over, the
upload never ends by `finish`, and it ends with that reset exactly if no write
is answered with an error on the way.  While the caller holds the future or the
response body, the cancel branch is never taken. -/
theorem cancellation_reaches_upload [Http3] (conn : Conn) (closing : Flag) (sc : BodyScript)
    {x : Exchange} (hx : Reachable Steps (Exchange.new conn closing sc) x) :
    (x.phase.isAbandoned = true → ∀ fut, x.bodyFut = some fut →
      (∀ a x' o, x.step (.upload a) = (x', o) →
        ∃ fut', x'.bodyFut = some fut' ∧ fut'.source.yielded = fut.source.yielded ∧
          ∀ g bd, fut = .running .nextFrame g bd →
            o.signal = some .cancelled ∧ fut'.isOver = true ∧
              fut'.stream.status = .reset .h3RequestCancelled) ∧
      (fut.isOver = false → fut.source.ended = false →
        ∀ tr x', Run Steps x tr x' → ∀ fut', x'.bodyFut = some fut' → fut'.isOver = true →
          fut'.stream.status ≠ .finished ∧
          (fut'.stream.status = .reset .h3RequestCancelled ↔
            x.failures (tr.map Prod.fst) = []) ∧
          ((∀ l ∈ tr, ∀ e, l.2.signal ≠ some (.failed e)) →
            fut'.stream.status = .reset .h3RequestCancelled))) ∧
    (x.phase.isAbandoned = false →
      ∀ ev x' o, x.step ev = (x', o) → o.signal ≠ some .cancelled) := by
  have hinv := inv_of_reachable hx
  refine ⟨?_, ?_⟩
  · intro hab fut hfut
    obtain ⟨-, hsend, hpolled⟩ := hinv.cancelResolved_of_isAbandoned hab hfut
    refine ⟨fun a x' o hstep ↦ upload_of_isAbandoned hinv hab hfut hstep, ?_⟩
    intro hlive hopen tr x' hrun fut' hfut' hover
    obtain ⟨fut₁, hfut₁, hd⟩ := uploadDoomed_of_run hrun hinv hab
      ⟨fut, hfut, doomed_of_source_open hsend hpolled hlive hopen⟩
    rw [hfut'] at hfut₁
    obtain rfl := Option.some.inj hfut₁
    have hstatus : fut'.stream.status =
        .reset (resetCode (x.failures (tr.map Prod.fst))) := by
      cases fut' with
      | unpolled w bd => cases hover
      | running pc g bd => cases hover
      | returned w bd res => exact hd
      | dropped w bd => exact hd
    have hcode : fut'.stream.status = .reset .h3RequestCancelled ↔
        x.failures (tr.map Prod.fst) = [] := by
      rw [hstatus, SendStatus.reset.injEq, resetCode_eq_iff]
    refine ⟨by simp [hstatus], hcode, ?_⟩
    exact fun hquiet ↦ hcode.mpr (failures_eq_nil hrun hquiet)
  · intro hab ev x' o hstep hsignal
    have habandoned := (move_of_steps (l := (ev, o)) hstep).isAbandoned_of_cancelled hinv hsignal
    rw [hab] at habandoned
    cases habandoned

/-- The events up to a caller that goes away while the upload waits for its
second frame. -/
def abandonedUpload : List ExchangeEvent :=
  [.sendRequest .ok, .upload ⟨true, .ok⟩, .upload ⟨true, .ok⟩, .upload ⟨true, .ok⟩,
    .upload ⟨false, .ok⟩, .dropFuture]

theorem cancellation_reaches_waiting_upload :
    letI := documentedHttp3
    let x := exec Exchange.step (Exchange.new 0 0 ⟨[.data [1], .data [2]], .done⟩) abandonedUpload
    x.phase = .abandoned ∧ ∃ fut x',
      x.step (.upload ⟨true, .ok⟩) = (x', ⟨false, some .cancelled, none⟩) ∧
      x'.bodyFut = some fut ∧ fut.source.yielded = [.data [1]] ∧
      fut.stream.status = .reset .h3RequestCancelled := by
  let _ := documentedHttp3
  intro x
  have hspec := cancellation_reaches_upload 0 0 ⟨[.data [1], .data [2]], .done⟩
    (x := x) (reachable_exec _ _ _)
  obtain ⟨fut, hfut, hyield, hselect⟩ := (hspec.1 rfl _ rfl).1 ⟨true, .ok⟩ _ _ rfl
  exact ⟨rfl, fut, _, rfl, hfut, hyield, (hselect _ _ rfl).2.2⟩

end TonicH3
