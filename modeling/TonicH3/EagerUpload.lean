import TonicH3.BodySend
import TonicH3.ExchangeInvariant

/-!
# The eager poll and the background task

`send_request_inner` polls the upload once itself and spawns it if that poll
returns `Pending`.  The results of the send operations are fixed here, and only
the placement of `Pending` is left to the environment.  The operations on the
send half are then a function of the body and the results, whoever drives the
upload.  The result of the request is not: the eager poll returns the error of
the upload, the background task logs it.
-/

namespace TonicH3

open EventRun

/-- What a send operation returns in the end. -/
inductive OpResult
  | ok
  | err (sent : ℕ) (e : StreamError)
  deriving DecidableEq, Repr

def OpResult.answer : OpResult → OpAnswer
  | .ok => .ok
  | .err sent e => .err sent e

section Outcome

variable (results : ℕ → OpResult)

/-- What a body send that is neither cancelled nor dropped performs and
returns, after `ops`, for the frames left; `none` if its source never ends. -/
def bodySendOutcome (ending : Ending) (ops : List SendOp) :
    List Frame → Option (List SendOp × Except Error Unit)
  | [] =>
      match ending with
      | .never => none
      | .error e => some (ops ++ [.stopStream .h3InternalError], .error e)
      | .done =>
          match results ops.length with
          | .ok => some (ops ++ [.finish true], .ok ())
          | .err _ e =>
              some (ops ++ [.finish false, .stopStream .h3InternalError], .error (.stream e))
  | f :: fs =>
      match results ops.length with
      | .ok => bodySendOutcome ending (ops ++ [.write f true]) fs
      | .err _ e =>
          some (ops ++ [.write f false, .stopStream .h3InternalError], .error (.stream e))

/-- The body ends without an error, and every operation it needs succeeds. -/
def Succeeds (sc : BodyScript) : Prop :=
  (∀ i < sc.frames.length, results i = .ok) ∧ (∀ e, sc.ending ≠ .error e) ∧
    (sc.ending = .done → results sc.frames.length = .ok)

variable {results}

/-- A body send fails exactly if its source or one of its operations does. -/
theorem bodySendOutcome_error_iff {ending : Ending} {ops : List SendOp} {fs : List Frame} :
    (∃ ops' e, bodySendOutcome results ending ops fs = some (ops', .error e)) ↔
      ¬ ((∀ i < fs.length, results (ops.length + i) = .ok) ∧ (∀ e, ending ≠ .error e) ∧
        (ending = .done → results (ops.length + fs.length) = .ok)) := by
  induction fs generalizing ops with
  | nil =>
      cases ending with
      | never => simp [bodySendOutcome]
      | error e => simp [bodySendOutcome]
      | done => cases hres : results ops.length <;> simp [bodySendOutcome, hres]
  | cons f fs ih =>
      cases hres : results ops.length with
      | err k e =>
          refine iff_of_true ⟨_, _, by simp only [bodySendOutcome, hres]; rfl⟩ ?_
          rintro ⟨hops, -⟩
          have hzero := hops 0 (by simp)
          simp [hres] at hzero
      | ok =>
          have hindex : (∀ i < (f :: fs).length, results (ops.length + i) = .ok) ↔
              ∀ i < fs.length, results (ops.length + 1 + i) = .ok := by
            rw [List.length_cons, Nat.forall_lt_succ_left]
            simp [hres, Nat.add_assoc, Nat.add_comm 1]
          have hlast : ops.length + (f :: fs).length = ops.length + 1 + fs.length := by
            rw [List.length_cons]
            omega
          have hrest := @ih (ops ++ [.write f true])
          rw [List.length_append, List.length_singleton] at hrest
          rw [hindex, hlast, ← hrest]
          simp only [bodySendOutcome, hres]

theorem bodySendOutcome_error_iff_not_succeeds {sc : BodyScript} :
    (∃ ops e, bodySendOutcome results sc.ending [] sc.frames = some (ops, .error e)) ↔
      ¬ Succeeds results sc := by
  rw [bodySendOutcome_error_iff]
  simp [Succeeds]

end Outcome

/-! ## One step of an upload that is fed its results -/

section Fed

variable (results : ℕ → OpResult)

/-- The operation in progress is suspended, or returns its result. -/
def feeds (fut : SendFuture) (a : Answers) : Bool :=
  match a.op with
  | .pending _ => true
  | op => op = (results fut.stream.ops.length).answer

/-- What is left of the upload leads to the outcome `out`. -/
def LeadsTo (out : Option (List SendOp × Except Error Unit)) : SendFuture → Prop
  | .unpolled w bd => bodySendOutcome results bd.ending w.ops bd.rest = out
  | .running .nextFrame g bd => bodySendOutcome results bd.ending g.w.ops bd.rest = out
  | .running (.sending f _) g bd =>
      bodySendOutcome results bd.ending g.w.ops (f :: bd.rest) = out
  | .running .finishing g _ => bodySendOutcome results .done g.w.ops [] = out
  | .returned w _ res => out = some (w.ops, res)
  | .dropped _ _ => False

variable {results} {out : Option (List SendOp × Except Error Unit)} {fut fut' : SendFuture}
  {sc : BodyScript} {a : Answers} {signal : Signal}

theorem feeds_cases (h : feeds results fut a = true) :
    (∃ k, a.op = .pending k) ∨ a.op = (results fut.stream.ops.length).answer := by
  cases hop : a.op <;> simp_all [feeds]

section Steps

variable {g : SendResetGuard} {bd : Body} (harmed : g.armed = true)

include harmed

theorem LeadsTo.step_nextFrame (h : LeadsTo results out (.running .nextFrame g bd))
    (hstep : sendH3ClientBody false a (.running .nextFrame g bd) = (fut', signal)) :
    LeadsTo results out fut' := by
  rcases bd.pollFrame_cases a.body with hp | ⟨f, fs, hrest, hp⟩ | ⟨hrest, hend, hp⟩ |
    ⟨e, hrest, hend, hp⟩
  · simp only [sendH3ClientBody, hp] at hstep
    obtain ⟨rfl, rfl⟩ := Prod.mk.inj hstep
    exact h
  · simp only [sendH3ClientBody, hp] at hstep
    obtain ⟨rfl, rfl⟩ := Prod.mk.inj hstep
    simpa [LeadsTo, hrest] using h
  · simp only [sendH3ClientBody, hp] at hstep
    obtain ⟨rfl, rfl⟩ := Prod.mk.inj hstep
    simpa [LeadsTo, hrest, hend] using h
  · simp only [sendH3ClientBody, hp] at hstep
    obtain ⟨rfl, rfl⟩ := Prod.mk.inj hstep
    have hops := release_error_ops .owned harmed id
    simp only [LeadsTo, bodySendOutcome, hrest, hend] at h
    rw [LeadsTo, ← h]
    exact congrArg (fun ops ↦ some (ops, _)) hops.symm

theorem LeadsTo.step_sending {f : Frame} {rest : List WireItem}
    (h : LeadsTo results out (.running (.sending f rest) g bd))
    (hfeed : feeds results (.running (.sending f rest) g bd) a = true)
    (hstep : sendH3ClientBody false a (.running (.sending f rest) g bd) = (fut', signal)) :
    LeadsTo results out fut' := by
  simp only [LeadsTo, bodySendOutcome] at h
  rcases feeds_cases hfeed with ⟨k, hk⟩ | hk
  · simp only [sendH3ClientBody, hk] at hstep
    obtain ⟨rfl, rfl⟩ := Prod.mk.inj hstep
    exact h
  · simp only [SendFuture.stream] at hk
    cases hres : results g.w.ops.length with
    | ok =>
        rw [hres] at h hk
        simp only [sendH3ClientBody, hk, OpResult.answer] at hstep
        obtain ⟨rfl, rfl⟩ := Prod.mk.inj hstep
        exact h
    | err k e =>
        rw [hres] at h hk
        simp only [sendH3ClientBody, hk, OpResult.answer] at hstep
        obtain ⟨rfl, rfl⟩ := Prod.mk.inj hstep
        rw [LeadsTo, ← h, release_error_ops .owned harmed]
        simp

theorem LeadsTo.step_finishing (h : LeadsTo results out (.running .finishing g bd))
    (hfeed : feeds results (.running .finishing g bd) a = true)
    (hstep : sendH3ClientBody false a (.running .finishing g bd) = (fut', signal)) :
    LeadsTo results out fut' := by
  simp only [LeadsTo, bodySendOutcome] at h
  rcases feeds_cases hfeed with ⟨k, hk⟩ | hk
  · simp only [sendH3ClientBody, hk] at hstep
    obtain ⟨rfl, rfl⟩ := Prod.mk.inj hstep
    exact h
  · simp only [SendFuture.stream] at hk
    cases hres : results g.w.ops.length with
    | ok =>
        rw [hres] at h hk
        simp only [sendH3ClientBody, hk, OpResult.answer] at hstep
        obtain ⟨rfl, rfl⟩ := Prod.mk.inj hstep
        rw [LeadsTo, ← h, release_finish]
        rfl
    | err k e =>
        rw [hres] at h hk
        simp only [sendH3ClientBody, hk, OpResult.answer] at hstep
        obtain ⟨rfl, rfl⟩ := Prod.mk.inj hstep
        rw [LeadsTo, ← h, release_error_ops .owned harmed]
        simp

end Steps

theorem LeadsTo.step (h : LeadsTo results out fut) (hinv : SendInv .new sc fut)
    (hlive : fut.isOver = false) (hfeed : feeds results fut a = true)
    (hstep : sendH3ClientBody false a fut = (fut', signal)) : LeadsTo results out fut' := by
  cases fut with
  | returned w bd res => cases hlive
  | dropped w bd => cases hlive
  | unpolled w bd =>
      obtain ⟨rfl, rfl⟩ := Prod.mk.inj hstep
      exact h
  | running pc g bd =>
      have harmed : g.armed = true := hinv.1
      cases pc with
      | nextFrame => exact step_nextFrame harmed h hstep
      | sending f rest => exact step_sending harmed h hfeed hstep
      | finishing => exact step_finishing harmed h hfeed hstep

/-- An upload that has ended performed the operations it was to lead to. -/
theorem LeadsTo.of_isOver (h : LeadsTo results out fut)
    (hover : fut.isOver = true) :
    ∃ res, fut.result = some res ∧ out = some (fut.stream.ops, res) := by
  cases fut with
  | unpolled w bd => cases hover
  | running pc g bd => cases hover
  | dropped w bd => exact h.elim
  | returned w bd res => exact ⟨res, rfl, h⟩

variable (results) in
def promptly (fut : SendFuture) : Answers := ⟨true, (results fut.stream.ops.length).answer⟩

theorem feeds_promptly (fut : SendFuture) : feeds results fut (promptly results fut) = true := by
  cases hres : results fut.stream.ops.length <;> simp [feeds, promptly, hres, OpResult.answer]

theorem isReady_promptly (fut : SendFuture) : (promptly results fut).isReady = true := by
  cases hres : results fut.stream.ops.length <;>
    simp [Answers.isReady, promptly, hres, OpResult.answer]

theorem LeadsTo.progress {res : List SendOp × Except Error Unit}
    (h : LeadsTo results (some res) fut) (hlive : fut.isOver = false) :
    (sendH3ClientBody false (promptly results fut) fut).2 ≠ .pending := by
  refine sendH3ClientBody_ne_pending (isReady_promptly fut) hlive ?_
  rintro g bd rfl hrest hend
  simp [LeadsTo, bodySendOutcome, hrest, hend] at h

end Fed

/-! ## Exchanges with fixed results -/

/-- What a step that signals `signal` has made the future return. -/
def Signal.result : Signal → Option (Except Error Unit)
  | .again | .pending => none
  | .cancelled | .finished => some (.ok ())
  | .failed e => some (.error e)

theorem SendMove.result_eq {o : Ownership} {fut fut' : SendFuture} {signal : Signal}
    (h : SendMove o fut fut' signal) :
    fut'.result = signal.result ∧ fut'.isOver = signal.result.isSome := by
  cases h <;> exact ⟨rfl, rfl⟩

/-- The result of `send_request_inner` once it has returned, for the response
`resp` of the peer. -/
def Phase.returned {ρ : Type*} (resp : ρ) : Phase → Option (Except Error ρ)
  | .responded _ | .bodyDropped => some (.ok resp)
  | .failed _ e => some (.error e)
  | _ => none

@[simp] theorem ExchangeOut.quiet_signal : quiet.signal = none := rfl

/-- The upload returned `Pending` at least once. -/
def uploadPended (tr : List (ExchangeEvent × ExchangeOut)) : Bool :=
  tr.any fun l ↦ l.2.signal = some .pending

theorem uploadPended_append (tr tr' : List (ExchangeEvent × ExchangeOut)) :
    uploadPended (tr ++ tr') = (uploadPended tr || uploadPended tr') :=
  List.any_append

namespace Exchange

def uploadOps (x : Exchange) : Option (List SendOp) := x.bodyFut.map fun fut ↦ fut.stream.ops

/-- The upload has ended and the request has returned. -/
def Completed (x : Exchange) : Prop :=
  x.phase.inFlight = false ∧ ∃ fut, x.bodyFut = some fut ∧ fut.isOver = true

variable (results : ℕ → OpResult)

/-- The events of the runs that are compared: the stream opens, the upload is
fed its results, the peer returns a response, and the caller keeps it until
the upload has ended. -/
def permitted (x : Exchange) : ExchangeEvent → Bool
  | .sendRequest a => a = .pending ∨ a = .ok
  | .upload a => x.bodyFut.all fun fut ↦ feeds results fut a
  | .recvResponse a => a = .pending ∨ a = .ok
  | .pollBody _ => true
  | .dropBody => x.bodyFut.all SendFuture.isOver
  | .dropUpload | .dropFuture => false

/-- Where the upload stands in each phase, `pended` saying whether it has
returned `Pending` before. -/
def FedPhase (out : Option (List SendOp × Except Error Unit)) (pended : Bool) (x : Exchange) :
    Phase → Prop
  | .opening _ => pended = false
  | .eager => pended = false ∧
      ∃ fut, x.bodyFut = some fut ∧ LeadsTo results out fut ∧ fut.isOver = false
  | .receiving | .responded _ =>
      ∃ fut, x.bodyFut = some fut ∧ LeadsTo results out fut ∧
        (pended = false → fut.result = some (.ok ()))
  | .failed _ e => pended = false ∧
      ∃ fut, x.bodyFut = some fut ∧ LeadsTo results out fut ∧ fut.result = some (.error e)
  | .bodyDropped =>
      ∃ fut, x.bodyFut = some fut ∧ LeadsTo results out fut ∧
        (pended = false → fut.result = some (.ok ())) ∧ fut.isOver = true
  | .abandoned => False

def scriptOutcome (sc : BodyScript) : Option (List SendOp × Except Error Unit) :=
  bodySendOutcome results sc.ending [] sc.frames

theorem fedPhase_new (conn : Conn) (closing : Flag) (sc : BodyScript) :
    FedPhase results (scriptOutcome results sc) false (new conn closing sc)
      (new conn closing sc).phase :=
  rfl

variable {results} {sc : BodyScript} {x x' : Exchange} {pended : Bool}
  {out : Option (List SendOp × Except Error Unit)}

theorem fedPhase_afterEager {fut' : SendFuture} {signal : Signal} (hphase : x.phase = .eager)
    (hlead : LeadsTo results out fut') (hresult : fut'.result = signal.result)
    (hover : fut'.isOver = signal.result.isSome) :
    let x' := { x with bodyFut := some fut' }.afterEager signal
    FedPhase results out (signal = .pending) x' x'.phase := by
  cases signal with
  | again =>
      simp only [afterEager, hphase]
      exact ⟨rfl, fut', rfl, hlead, hover⟩
  | pending => exact ⟨fut', rfl, hlead, by simp⟩
  | cancelled => exact ⟨fut', rfl, hlead, fun _ ↦ hresult⟩
  | finished => exact ⟨fut', rfl, hlead, fun _ ↦ hresult⟩
  | failed e => exact ⟨rfl, fut', rfl, hlead, hresult⟩

/-- A live upload outside the eager poll has pended, and the request is waiting
for its response or the caller holds it. -/
theorem FedPhase.of_live {fut : SendFuture} (h : FedPhase results out pended x x.phase)
    (hinv : Inv sc x) (hne : x.phase ≠ .eager) (hfut : x.bodyFut = some fut)
    (hlive : fut.isOver = false) :
    pended = true ∧ LeadsTo results out fut ∧
      (x.phase = .receiving ∨ ∃ b, x.phase = .responded b) := by
  have hrunning : ∀ {r}, fut.result ≠ some r := by
    intro r hr
    obtain ⟨w, bd, rfl⟩ := SendFuture.of_result hr
    cases hlive
  have hpended : (pended = false → fut.result = some (.ok ())) → pended = true := by
    intro hok
    by_contra hnot
    exact hrunning (hok (by simpa using hnot))
  cases hp : x.phase with
  | opening bd =>
      have hphase := hinv.phase
      rw [hp] at hphase
      rw [hphase.2.1] at hfut
      cases hfut
  | eager => exact absurd hp hne
  | abandoned =>
      rw [hp] at h
      exact h.elim
  | receiving =>
      rw [hp] at h
      obtain ⟨fut₀, hfut₀, hlead, hok⟩ := h
      obtain rfl := Option.some.inj (hfut.symm.trans hfut₀)
      exact ⟨hpended hok, hlead, .inl rfl⟩
  | responded b =>
      rw [hp] at h
      obtain ⟨fut₀, hfut₀, hlead, hok⟩ := h
      obtain rfl := Option.some.inj (hfut.symm.trans hfut₀)
      exact ⟨hpended hok, hlead, .inr ⟨b, rfl⟩⟩
  | failed site e =>
      rw [hp] at h
      obtain ⟨-, fut₀, hfut₀, -, herr⟩ := h
      obtain rfl := Option.some.inj (hfut.symm.trans hfut₀)
      exact absurd herr hrunning
  | bodyDropped =>
      rw [hp] at h
      obtain ⟨fut₀, hfut₀, -, -, hover⟩ := h
      obtain rfl := Option.some.inj (hfut.symm.trans hfut₀)
      rw [hlive] at hover
      cases hover

theorem leadsTo_upload {a : Answers} {fut fut' : SendFuture} {signal : Signal}
    (h : LeadsTo results out fut) (hinv : SendInv .new sc fut) (hlive : fut.isOver = false)
    (hfeed : feeds results fut a = true) (hopen : x.cancelResolved = false)
    (hstep : sendH3ClientBody x.cancelResolved a fut = (fut', signal)) :
    LeadsTo results out fut' ∧ fut'.result = signal.result ∧
      fut'.isOver = signal.result.isSome := by
  have hmove := sendH3ClientBody_move x.cancelResolved a hlive
  rw [hstep] at hmove
  rw [hopen] at hstep
  exact ⟨LeadsTo.step h hinv hlive hfeed hstep, hmove.result_eq⟩

variable (results) in
inductive FedMove (x : Exchange) : Exchange → Option Signal → Prop
  | stutter : FedMove x x none
  | opened (bd : Body) : x.phase = .opening bd →
      FedMove x { x with
        phase := .eager
        bodyFut := some (.unpolled .new bd)
        cancelTx := .frame
        r := some .new } none
  | eagerly (a : Answers) (fut fut' : SendFuture) (signal : Signal) :
      x.bodyFut = some fut → fut.isOver = false → x.phase = .eager → feeds results fut a = true →
      sendH3ClientBody x.cancelResolved a fut = (fut', signal) →
      FedMove x ({ x with bodyFut := some fut' }.afterEager signal) (some signal)
  | background (a : Answers) (fut fut' : SendFuture) (signal : Signal) :
      x.bodyFut = some fut → fut.isOver = false → x.phase ≠ .eager → feeds results fut a = true →
      sendH3ClientBody x.cancelResolved a fut = (fut', signal) →
      FedMove x { x with bodyFut := some fut' } (some signal)
  | responded (r : RecvHalf) : x.phase = .receiving →
      FedMove x
        { x with phase := .responded (.new r true), cancelTx := .body, r := none }.dropFrame none
  | bodyPolled (b b' : H3IncomingClient RecvHalf) : x.phase = .responded b →
      FedMove x { x with phase := .responded b' } none
  | bodyDropped (b : H3IncomingClient RecvHalf) (tx : CancelTx) (r : Option RecvHalf) :
      x.phase = .responded b → (∀ fut, x.bodyFut = some fut → fut.isOver = true) →
      FedMove x { x with phase := .bodyDropped, cancelTx := tx, r := r } none

theorem FedMove.fedPhase {signal : Option Signal} (h : FedMove results x x' signal)
    (hinv : Inv sc x) (hfed : FedPhase results (scriptOutcome results sc) pended x x.phase) :
    FedPhase results (scriptOutcome results sc) (pended || (signal = some .pending : Bool)) x'
      x'.phase := by
  cases h with
  | stutter => simpa using hfed
  | opened bd hp =>
      have hphase := hinv.phase
      rw [hp] at hfed hphase
      obtain ⟨rfl, -, -⟩ := hphase
      simp only [FedPhase] at hfed
      exact ⟨by simp [hfed], _, rfl, rfl, rfl⟩
  | eagerly a fut fut' signal hfut hlive hp hfeed hstep =>
      rw [hp] at hfed
      obtain ⟨rfl, fut₀, hfut₀, hlead, -⟩ := hfed
      obtain rfl := Option.some.inj (hfut.symm.trans hfut₀)
      have hopen := hinv.cancelResolved_eq_false (by rw [hp]; rfl)
      obtain ⟨hlead', hresult, hover⟩ :=
        leadsTo_upload hlead (hinv.sendInv hfut) hlive hfeed hopen hstep
      simpa using fedPhase_afterEager hp hlead' hresult hover
  | background a fut fut' signal hfut hlive hp hfeed hstep =>
      obtain ⟨rfl, hlead, hwaiting⟩ := hfed.of_live hinv hp hfut hlive
      have hopen : x.cancelResolved = false := by
        apply hinv.cancelResolved_eq_false
        rcases hwaiting with hr | ⟨b, hr⟩
        · rw [hr]
          rfl
        · rw [hr]
          rfl
      obtain ⟨hlead', -, -⟩ := leadsTo_upload hlead (hinv.sendInv hfut) hlive hfeed hopen hstep
      rcases hwaiting with hr | ⟨b, hr⟩
      · simp only [hr]
        exact ⟨fut', rfl, hlead', by simp⟩
      · simp only [hr]
        exact ⟨fut', rfl, hlead', by simp⟩
  | responded r hp =>
      rw [hp] at hfed
      obtain ⟨fut, hfut, hlead, hok⟩ := hfed
      exact ⟨fut, hfut, hlead, by simpa using hok⟩
  | bodyPolled b b' hp =>
      rw [hp] at hfed
      obtain ⟨fut, hfut, hlead, hok⟩ := hfed
      exact ⟨fut, hfut, hlead, by simpa using hok⟩
  | bodyDropped b tx r hp hover =>
      rw [hp] at hfed
      obtain ⟨fut, hfut, hlead, hok⟩ := hfed
      exact ⟨fut, hfut, hlead, by simpa using hok, hover fut hfut⟩

theorem fedMove_onUpload {a : Answers}
    (hfeed : ∀ fut, x.bodyFut = some fut → feeds results fut a = true) :
    FedMove results x (x.onUpload a).1 (x.onUpload a).2.signal := by
  unfold onUpload
  cases hfut : x.bodyFut with
  | none => exact .stutter
  | some fut =>
      cases hover : fut.isOver with
      | true => simpa [hover] using FedMove.stutter
      | false =>
          generalize hstep : sendH3ClientBody x.cancelResolved a fut = res
          obtain ⟨fut', signal⟩ := res
          have hfed := hfeed fut hfut
          by_cases heager : x.phase = .eager
          · simpa [hover, hstep, heager] using
              FedMove.eagerly a fut fut' signal hfut hover heager hfed hstep
          · simpa [hover, hstep, heager] using
              FedMove.background a fut fut' signal hfut hover heager hfed hstep

section Machine

variable [Http3] (results)

def fedStep (x : Exchange) (ev : ExchangeEvent) : Exchange × ExchangeOut :=
  if x.permitted results ev then x.step ev else (x, .quiet)

abbrev FedSteps : Exchange → ExchangeEvent × ExchangeOut → Exchange → Prop :=
  Fires (fedStep results)

theorem inv_of_fedSteps {results : ℕ → OpResult} {l : ExchangeEvent × ExchangeOut}
    (hinv : Inv sc x) (h : FedSteps results x l x') : Inv sc x' := by
  obtain ⟨ev, o⟩ := l
  simp only [FedSteps, Fires, fedStep] at h
  split at h
  · exact (move_of_steps (l := (ev, o)) h).inv hinv
  · obtain ⟨rfl, -⟩ := Prod.mk.inj h
    exact hinv

theorem fedStep_move (x : Exchange) (ev : ExchangeEvent) :
    FedMove results x (x.fedStep results ev).1 (x.fedStep results ev).2.signal := by
  by_cases hperm : x.permitted results ev = true
  · simp only [fedStep, hperm, if_true]
    cases ev with
    | dropUpload => cases hperm
    | dropFuture => cases hperm
    | sendRequest a =>
        cases hphase : x.phase with
        | opening bd =>
            cases a with
            | pending => simpa [step, hphase, onSendRequest] using FedMove.stutter
            | ok => simpa [step, hphase, onSendRequest] using FedMove.opened bd hphase
            | err e => simp [permitted] at hperm
        | _ => simpa [step, hphase] using FedMove.stutter
    | recvResponse a =>
        cases hphase : x.phase with
        | receiving =>
            cases hr : x.r with
            | none => simpa [step, hphase, hr] using FedMove.stutter
            | some r =>
                cases a with
                | pending => simpa [step, hphase, hr, onRecvResponse] using FedMove.stutter
                | ok => simpa [step, hphase, hr, onRecvResponse] using FedMove.responded r hphase
                | err e o => simp [permitted] at hperm
        | _ => simpa [step, hphase] using FedMove.stutter
    | upload a =>
        refine fedMove_onUpload ?_
        intro fut hfut
        simpa [permitted, hfut] using hperm
    | pollBody a =>
        cases hphase : x.phase with
        | responded b => simpa [step, hphase] using FedMove.bodyPolled b _ hphase
        | _ => simpa [step, hphase] using FedMove.stutter
    | dropBody =>
        cases hphase : x.phase with
        | responded b =>
            have hover : ∀ fut, x.bodyFut = some fut → fut.isOver = true := by
              intro fut hfut
              simpa [permitted, hfut] using hperm
            simpa [step, hphase] using FedMove.bodyDropped b _ _ hphase hover
        | _ => simpa [step, hphase] using FedMove.stutter
  · simp only [fedStep, hperm]
    exact .stutter

variable {results} {conn : Conn} {closing : Flag} {tr : List (ExchangeEvent × ExchangeOut)}

theorem fedPhase_of_run (h : Run (FedSteps results) x tr x') (hinv : Inv sc x)
    (hfed : FedPhase results (scriptOutcome results sc) pended x x.phase) :
    Inv sc x' ∧
      FedPhase results (scriptOutcome results sc) (pended || uploadPended tr) x' x'.phase := by
  induction h generalizing pended with
  | nil x => exact ⟨hinv, by simpa [uploadPended] using hfed⟩
  | @cons x y x' l tr hstep hrest ih =>
      have hmove := fedStep_move results x l.1
      rw [hstep] at hmove
      simpa [uploadPended, Bool.or_assoc] using
        ih (inv_of_fedSteps hinv hstep) (hmove.fedPhase hinv hfed)

/-- The operations of a completed exchange, and its result for the response
`resp`. -/
def CompletedSpec {ρ : Type*} (resp : ρ) (out : Option (List SendOp × Except Error Unit))
    (pended : Bool) (x : Exchange) : Prop :=
  ∃ ops res, out = some (ops, res) ∧ x.uploadOps = some ops ∧
    x.phase.returned resp = some (if pended then .ok resp else res.map fun _ ↦ resp)

omit [Http3] in
/-- The response was returned, so an upload that never pended has succeeded. -/
theorem completedSpec_of_response {ρ : Type*} {resp : ρ} {fut : SendFuture}
    (hret : x.phase.returned resp = some (.ok resp)) (hfut : x.bodyFut = some fut)
    (hover : fut.isOver = true) (hlead : LeadsTo results out fut)
    (hok : pended = false → fut.result = some (.ok ())) : CompletedSpec resp out pended x := by
  obtain ⟨res, hres, hout⟩ := hlead.of_isOver hover
  refine ⟨_, res, hout, by simp [uploadOps, hfut], ?_⟩
  cases hpended : pended with
  | true => simpa using hret
  | false =>
      rw [hok hpended] at hres
      obtain rfl := Option.some.inj hres
      simpa [Except.map] using hret

omit [Http3] in
theorem FedPhase.completed {ρ : Type*} (resp : ρ) (h : FedPhase results out pended x x.phase)
    (hc : x.Completed) : CompletedSpec resp out pended x := by
  obtain ⟨hreturned, fut, hfut, hover⟩ := hc
  have hsame : ∀ {fut₀}, x.bodyFut = some fut₀ → fut₀ = fut :=
    fun hfut₀ ↦ Option.some.inj (hfut₀.symm.trans hfut)
  cases hp : x.phase with
  | opening bd => simp [hp, Phase.inFlight] at hreturned
  | eager => simp [hp, Phase.inFlight] at hreturned
  | receiving => simp [hp, Phase.inFlight] at hreturned
  | abandoned =>
      rw [hp] at h
      exact h.elim
  | responded b =>
      rw [hp] at h
      obtain ⟨fut₀, hfut₀, hlead, hok⟩ := h
      obtain rfl := hsame hfut₀
      exact completedSpec_of_response (by rw [hp]; rfl) hfut hover hlead hok
  | bodyDropped =>
      rw [hp] at h
      obtain ⟨fut₀, hfut₀, hlead, hok, -⟩ := h
      obtain rfl := hsame hfut₀
      exact completedSpec_of_response (by rw [hp]; rfl) hfut hover hlead hok
  | failed site e =>
      rw [hp] at h
      obtain ⟨rfl, fut₀, hfut₀, hlead, herr⟩ := h
      obtain rfl := hsame hfut₀
      obtain ⟨res, hres, hout⟩ := hlead.of_isOver hover
      rw [herr] at hres
      obtain rfl := Option.some.inj hres
      refine ⟨_, _, hout, by simp [uploadOps, hfut], ?_⟩
      simp [hp, Phase.returned, Except.map]

/-- A completed exchange performed the operations the body and the results
determine.  Its result is that of the upload if the eager poll completed it,
and the response otherwise. -/
theorem completed_spec {ρ : Type*} (resp : ρ)
    (h : Run (FedSteps results) (new conn closing sc) tr x) (hc : x.Completed) :
    CompletedSpec resp (scriptOutcome results sc) (uploadPended tr) x := by
  obtain ⟨-, hfed⟩ := fedPhase_of_run h (inv_new conn closing sc)
    (fedPhase_new results conn closing sc)
  rw [Bool.false_or] at hfed
  exact hfed.completed resp hc

/-- A live upload that is bound to fail, in the eager poll or in the background
task. -/
def Failing (results : ℕ → OpResult) (sc : BodyScript) (x : Exchange) (fut : SendFuture) : Prop :=
  Inv sc x ∧ (x.phase = .eager ∨ ∃ b, x.phase = .responded b) ∧ x.bodyFut = some fut ∧
    fut.isOver = false ∧ ∃ ops e, LeadsTo results (some (ops, .error e)) fut

/-- Answered at once, such an upload comes closer to its end, and the exchange
is completed when it gets there. -/
theorem Failing.step {fut : SendFuture} (h : Failing results sc x fut) :
    ∃ l y, FedSteps results x l y ∧ uploadPended [l] = false ∧
      (y.Completed ∨ ∃ fut', Failing results sc y fut' ∧ fut'.weight < fut.weight) := by
  obtain ⟨hinv, hp, hfut, hlive, ops, e, hlead⟩ := h
  have hopen : x.cancelResolved = false := by
    apply hinv.cancelResolved_eq_false
    rcases hp with hp | ⟨b, hp⟩
    · rw [hp]
      rfl
    · rw [hp]
      rfl
  have hne := hlead.progress hlive
  have hmove := sendH3ClientBody_move false (promptly results fut) hlive
  generalize hstep : sendH3ClientBody false (promptly results fut) fut = res at hne hmove
  obtain ⟨fut', signal⟩ := res
  obtain ⟨hlead', hresult, hover⟩ := leadsTo_upload hlead (hinv.sendInv hfut) hlive
    (feeds_promptly fut) hopen (by rw [hopen, hstep])
  have hy : FedSteps results x (.upload (promptly results fut), ⟨false, some signal, none⟩)
      (if x.phase = .eager then { x with bodyFut := some fut' }.afterEager signal
        else { x with bodyFut := some fut' }) := by
    simp [Fires, fedStep, permitted, hfut, feeds_promptly, Exchange.step, onUpload, hlive, hopen,
      hstep]
  refine ⟨_, _, hy, by simpa [uploadPended] using hne, ?_⟩
  have hinv' := inv_of_fedSteps hinv hy
  cases hsig : signal.result with
  | none =>
      -- the poll goes on
      obtain rfl : signal = .again := by
        cases signal <;> simp_all [Signal.result]
      refine .inr ⟨fut', ⟨hinv', ?_, ?_, ?_, ops, e, hlead'⟩, hmove.weight_lt (by simp)⟩
      · split
        · exact .inl ‹_›
        · exact hp
      · split <;> rfl
      · simpa [hsig] using hover
  | some res =>
      obtain ⟨w, bd, rfl⟩ := SendFuture.of_result (hresult.trans hsig)
      obtain ⟨-, rfl⟩ := Prod.mk.inj (Option.some.inj hlead')
      obtain rfl : signal = .failed e := by
        cases signal <;> simp_all [Signal.result]
      refine .inl ⟨?_, .returned w bd (.error e), ?_, rfl⟩
      · rcases hp with hp | ⟨b, hp⟩
        · simp [hp, afterEager, Phase.inFlight]
        · simp [hp, Phase.inFlight]
      · split <;> rfl

theorem Failing.exists_completed {fut : SendFuture} (h : Failing results sc x fut) :
    ∃ tr y, Run (FedSteps results) x tr y ∧ uploadPended tr = false ∧ y.Completed := by
  induction hn : fut.weight using Nat.strongRecOn generalizing x fut with
  | _ n ih =>
      obtain ⟨l, y, hstep, hquiet, hdone | ⟨fut', hfail, hlt⟩⟩ := h.step
      · exact ⟨[l], y, .single hstep, hquiet, hdone⟩
      · obtain ⟨tr, z, hrun, hquiet', hdone⟩ := ih _ (hn ▸ hlt) hfail rfl
        refine ⟨l :: tr, z, .cons hstep hrun, ?_, hdone⟩
        rw [show l :: tr = [l] ++ tr from rfl, uploadPended_append, hquiet, hquiet']
        rfl

omit [Http3] in
theorem failing_of_outcome {fut : SendFuture} {ops : List SendOp} {e : Error} (hinv : Inv sc x)
    (hp : x.phase = .eager ∨ ∃ b, x.phase = .responded b) (hfut : x.bodyFut = some fut)
    (hlive : fut.isOver = false) (hlead : LeadsTo results (scriptOutcome results sc) fut)
    (hout : scriptOutcome results sc = some (ops, .error e)) : Failing results sc x fut := by
  rw [hout] at hlead
  exact ⟨hinv, hp, hfut, hlive, ops, e, hlead⟩

/-- The events up to a response that arrives while the upload is pending. -/
def respondedEarly : List ExchangeEvent :=
  [.sendRequest .ok, .upload ⟨false, .pending 0⟩, .upload ⟨false, .pending 0⟩, .recvResponse .ok]

theorem exists_eager_run {ops : List SendOp} {e : Error} (conn : Conn) (closing : Flag)
    (hout : scriptOutcome results sc = some (ops, .error e)) :
    ∃ tr x, Run (FedSteps results) (new conn closing sc) tr x ∧ uploadPended tr = false ∧
      x.Completed := by
  have hrun := run_exec (fedStep results) (new conn closing sc) [.sendRequest .ok]
  obtain ⟨hinv, -⟩ := fedPhase_of_run hrun (inv_new conn closing sc)
    (fedPhase_new results conn closing sc)
  have hfail := failing_of_outcome hinv (.inl rfl) rfl rfl rfl hout
  obtain ⟨tr, x, hrest, hquiet, hdone⟩ := hfail.exists_completed
  refine ⟨_, x, hrun.append hrest, ?_, hdone⟩
  rw [uploadPended_append, hquiet]
  rfl

theorem exists_background_run {ops : List SendOp} {e : Error} (conn : Conn) (closing : Flag)
    (hout : scriptOutcome results sc = some (ops, .error e)) :
    ∃ tr x, Run (FedSteps results) (new conn closing sc) tr x ∧ uploadPended tr = true ∧
      x.Completed := by
  have hrun := run_exec (fedStep results) (new conn closing sc) respondedEarly
  obtain ⟨hinv, -⟩ := fedPhase_of_run hrun (inv_new conn closing sc)
    (fedPhase_new results conn closing sc)
  have hfail := failing_of_outcome hinv (.inr ⟨_, rfl⟩) rfl rfl rfl hout
  obtain ⟨tr, x, hrest, -, hdone⟩ := hfail.exists_completed
  refine ⟨_, x, hrun.append hrest, ?_, hdone⟩
  rw [uploadPended_append]
  rfl

/-- Every exchange whose upload completes within the eager poll ends like every
exchange whose upload goes to the background. -/
def PathsAgree {ρ : Type*} (results : ℕ → OpResult) (conn : Conn) (closing : Flag)
    (sc : BodyScript) (resp : ρ) : Prop :=
  ∀ tr x tr' x', Run (FedSteps results) (new conn closing sc) tr x →
    Run (FedSteps results) (new conn closing sc) tr' x' →
    uploadPended tr = false → uploadPended tr' = true → x.Completed → x'.Completed →
    x.uploadOps = x'.uploadOps ∧ x.phase.returned resp = x'.phase.returned resp

end Machine

end Exchange

open Exchange

/-- The two paths agree exactly for the uploads that succeed: the error of a
failing one replaces the response if it strikes in the eager poll. -/
theorem eager_upload_agrees_iff [Http3] {ρ : Type*} (results : ℕ → OpResult) (conn : Conn)
    (closing : Flag) (sc : BodyScript) (resp : ρ) :
    PathsAgree results conn closing sc resp ↔ Succeeds results sc := by
  constructor
  · intro hagree
    by_contra hfails
    obtain ⟨ops, e, hout⟩ := bodySendOutcome_error_iff_not_succeeds.mpr hfails
    obtain ⟨tr, x, hrun, hquiet, hdone⟩ := exists_eager_run conn closing hout
    obtain ⟨tr', x', hrun', hpended, hdone'⟩ := exists_background_run conn closing hout
    obtain ⟨-, hsame⟩ := hagree tr x tr' x' hrun hrun' hquiet hpended hdone hdone'
    obtain ⟨_, res, hout₁, -, hret⟩ := completed_spec resp hrun hdone
    obtain ⟨_, _, -, -, hret'⟩ := completed_spec resp hrun' hdone'
    obtain ⟨-, rfl⟩ := Prod.mk.inj (Option.some.inj (hout.symm.trans hout₁))
    rw [hret, hret', hquiet, hpended] at hsame
    simp [Except.map] at hsame
  · intro hok tr x tr' x' hrun hrun' hquiet hpended hdone hdone'
    obtain ⟨ops, res, hout, hops, hret⟩ := completed_spec resp hrun hdone
    obtain ⟨ops', res', hout', hops', hret'⟩ := completed_spec resp hrun' hdone'
    obtain ⟨rfl, rfl⟩ := Prod.mk.inj (Option.some.inj (hout.symm.trans hout'))
    refine ⟨hops.trans hops'.symm, ?_⟩
    rw [hret, hret', hquiet, hpended]
    cases res with
    | ok u => rfl
    | error e => exact absurd hok (bodySendOutcome_error_iff_not_succeeds.mp ⟨ops, e, hout⟩)

/-- A server that stops reading with `H3_NO_ERROR` and has a response ready: the
response is lost if the write fails in the eager poll. -/
theorem eager_upload_loses_response :
    letI := documentedHttp3
    ¬ PathsAgree (fun _ ↦ .err 0 (.remoteReset "H3_NO_ERROR")) 0 0 ⟨[.data [1]], .done⟩ () := by
  let _ := documentedHttp3
  intro hagree
  have hsame := hagree _ _ _ _
    (run_exec (fedStep _) _ [.sendRequest .ok, .upload ⟨true, .pending 0⟩,
      .upload ⟨true, .pending 0⟩, .upload ⟨true, .err 0 (.remoteReset "H3_NO_ERROR")⟩])
    (run_exec (fedStep _) _ (respondedEarly ++ [.upload ⟨true, .pending 0⟩,
      .upload ⟨true, .err 0 (.remoteReset "H3_NO_ERROR")⟩]))
    (by decide +kernel) (by decide +kernel) ⟨rfl, _, rfl, rfl⟩ ⟨rfl, _, rfl, rfl⟩
  cases hsame.2

end TonicH3
