import TonicH3.ExchangeInvariant

/-!
# How the client lets go of the receive half

The receive half of a request stream is a local of `send_request_inner` until
the response has arrived, and belongs to the response body from then on.  The
body stops an unfinished stream when it is dropped.  The future does not: it
drops the half as it is, at its early returns and where it is itself dropped.
Those exits are listed by `dropsSilently`, and they are the only ones.
-/

namespace TonicH3

open EventRun

/-- The half was dropped with its stream open and without a proper
`STOP_SENDING`. -/
def RecvHalf.Silent (r : RecvHalf) : Prop :=
  r.dropped = true ∧ r.ended = false ∧ .h3RequestCancelled ∉ r.stopped

theorem RecvHalf.silent_drop_new : RecvHalf.new.drop.Silent :=
  ⟨rfl, rfl, List.not_mem_nil⟩

namespace Exchange

/-- The receive half of the exchange has been dropped silently. -/
def Silent (x : Exchange) : Prop := ∃ r, x.r = some r ∧ r.Silent

/-- The exits of `send_request_inner` that drop an open receive half: the upload
is answered with an error in the eager poll, `recv_response` fails and leaves
the stream open, or the future is dropped while it waits for the response. -/
def dropsSilently (x : Exchange) : ExchangeEvent → Bool
  | .upload a => x.phase = .eager ∧ (x.bodyFut.bind (SendFuture.answeredError a)).isSome
  | .recvResponse (.err _ streamOpen) => x.phase = .receiving ∧ streamOpen
  | .dropFuture => x.phase = .receiving
  | _ => false

/-- The receive half by phase: fresh while the future owns it; in the response
body, `finished` only after the end or an error of the stream. -/
def HalfPhase (r : Option RecvHalf) : Phase → Prop
  | .opening _ => r = none
  | .eager | .receiving => r = some .new
  | .responded b => r = none ∧ (b.finished = true → b.s.ended = true)
  | .failed _ _ | .abandoned | .bodyDropped => True

def HalfInv (x : Exchange) : Prop := HalfPhase x.r x.phase

theorem halfInv_new (conn : Conn) (closing : Flag) (sc : BodyScript) :
    HalfInv (new conn closing sc) := rfl

end Exchange

/-- `poll_frame` sets `finished` only when the stream has ended. -/
theorem Incoming.ended_of_finished {b : Incoming RecvHalf}
    (h : b.finished = true → b.s.ended = true) :
    b.pollFrame.body.finished = true → b.pollFrame.body.s.ended = true := by
  obtain ⟨⟨⟨data, trailers⟩, ended, stopped, dropped⟩, dataDone, finished⟩ := b
  cases dataDone with
  | false =>
      rcases data with _ | (e | _ | d) <;>
        simp_all [pollFrame, RecvStream.pollRecvData, RecvHalf.endsData]
  | true =>
      rcases trailers with _ | (e | _ | t) <;>
        simp_all [pollFrame, RecvStream.pollRecvTrailers, RecvHalf.endsTrailers]

/-- A response body that is dropped has stopped its stream, or the stream is
over. -/
theorem H3IncomingClient.not_silent_drop {b : H3IncomingClient RecvHalf}
    (h : b.finished = true → b.s.ended = true) : ¬ b.drop.drop.Silent := by
  rintro ⟨-, hopen, hstopped⟩
  cases hfin : b.finished with
  | true =>
      have hended := h hfin
      simp [drop, Incoming.dropWith, hfin, RecvHalf.drop, hended] at hopen
  | false =>
      simp [drop, Incoming.dropWith, hfin, RecvHalf.drop, RecvStream.stopSending] at hstopped

namespace Exchange

variable {sc : BodyScript} {x x' : Exchange} {ev : ExchangeEvent}

theorem HalfInv.not_silent (h : HalfInv x) (hlive : x.phase.isAbandoned = false) : ¬ Silent x := by
  rintro ⟨r, hr, hdropped, -⟩
  rw [HalfInv, hr] at h
  cases hp : x.phase with
  | opening bd =>
      rw [hp] at h
      cases h
  | eager =>
      rw [hp] at h
      obtain rfl := Option.some.inj h
      cases hdropped
  | receiving =>
      rw [hp] at h
      obtain rfl := Option.some.inj h
      cases hdropped
  | responded b =>
      rw [hp] at h
      cases h.1
  | failed site e => simp [hp, Phase.isAbandoned] at hlive
  | abandoned => simp [hp, Phase.isAbandoned] at hlive
  | bodyDropped => simp [hp, Phase.isAbandoned] at hlive

/-- The upload fails in the eager poll exactly if it is answered with an error. -/
theorem answeredError_isSome_iff {a : Answers} {fut fut' : SendFuture} {signal : Signal}
    (hstep : sendH3ClientBody false a fut = (fut', signal)) :
    (fut.answeredError a).isSome = true ↔ ∃ e, signal = .failed e := by
  constructor
  · intro h
    obtain ⟨e, he⟩ := Option.isSome_iff_exists.mp h
    refine ⟨e, ?_⟩
    rw [← sendH3ClientBody_of_answeredError he, hstep]
  · rintro ⟨e, rfl⟩
    rw [sendH3ClientBody_failed hstep]
    rfl

theorem halfInv_of_fresh (hr : x.r = some .new) (hp : x.phase = .eager ∨ x.phase = .receiving) :
    HalfInv x ∧ ¬ Silent x := by
  have hhalf : HalfInv x := by
    rw [HalfInv, hr]
    rcases hp with hp | hp
    · rw [hp]
      rfl
    · rw [hp]
      rfl
  refine ⟨hhalf, hhalf.not_silent ?_⟩
  rcases hp with hp | hp
  · rw [hp]
    rfl
  · rw [hp]
    rfl

theorem halfInv_afterEager (fut' : SendFuture) (signal : Signal) (hp : x.phase = .eager)
    (hr : x.r = some .new) :
    let x' := { x with bodyFut := some fut' }.afterEager signal
    HalfInv x' ∧ (Silent x' ↔ ∃ e, signal = .failed e) := by
  intro x'
  cases signal with
  | again =>
      obtain ⟨hhalf, hnot⟩ := halfInv_of_fresh (x := x') hr (.inl hp)
      exact ⟨hhalf, iff_of_false hnot (by simp)⟩
  | pending =>
      obtain ⟨hhalf, hnot⟩ := halfInv_of_fresh (x := x') hr (.inr rfl)
      exact ⟨hhalf, iff_of_false hnot (by simp)⟩
  | cancelled =>
      obtain ⟨hhalf, hnot⟩ := halfInv_of_fresh (x := x') hr (.inr rfl)
      exact ⟨hhalf, iff_of_false hnot (by simp)⟩
  | finished =>
      obtain ⟨hhalf, hnot⟩ := halfInv_of_fresh (x := x') hr (.inr rfl)
      exact ⟨hhalf, iff_of_false hnot (by simp)⟩
  | failed e =>
      refine ⟨trivial, iff_of_true ⟨_, ?_, RecvHalf.silent_drop_new⟩ ⟨e, rfl⟩⟩
      simp [x', afterEager, dropFrame, hr]

theorem halfInv_of_same (h : HalfInv x) (hlive : x.phase.isAbandoned = false) {y : Exchange}
    (hr : y.r = x.r) (hp : y.phase = x.phase) : HalfInv y ∧ ¬ Silent y := by
  have hhalf : HalfInv y := by rwa [HalfInv, hr, hp]
  exact ⟨hhalf, hhalf.not_silent (by rw [hp]; exact hlive)⟩

theorem halfInv_onUpload (hinv : Inv sc x) (h : HalfInv x) (hlive : x.phase.isAbandoned = false)
    (a : Answers) : HalfInv (x.onUpload a).1 ∧
      (Silent (x.onUpload a).1 ↔ x.dropsSilently (.upload a) = true) := by
  have hsame := fun y hr hp ↦ halfInv_of_same (y := y) h hlive hr hp
  have hopen := hinv.cancelResolved_eq_false hlive
  unfold onUpload
  cases hfut : x.bodyFut with
  | none => simpa [dropsSilently, hfut] using hsame x rfl rfl
  | some fut =>
      cases hover : fut.isOver with
      | true =>
          have hnone : fut.answeredError a = none := by cases fut <;> first | rfl | cases hover
          simpa [dropsSilently, hfut, hover, hnone] using hsame x rfl rfl
      | false =>
          generalize hstep : sendH3ClientBody x.cancelResolved a fut = res
          obtain ⟨fut', signal⟩ := res
          by_cases hp : x.phase = .eager
          · rw [HalfInv, hp] at h
            have hfails := answeredError_isSome_iff (hopen ▸ hstep)
            simpa [dropsSilently, hp, hfut, hfails, hover, hstep] using
              halfInv_afterEager fut' signal hp h
          · simpa [dropsSilently, hp, hover, hstep] using
              hsame { x with bodyFut := some fut' } rfl rfl

variable [Http3]

section Events

variable (h : HalfInv x) (hlive : x.phase.isAbandoned = false)

/-- The event keeps the invariant, and drops the half silently only if it is one
of the listed exits. -/
def Settles (x : Exchange) (ev : ExchangeEvent) : Prop :=
  HalfInv (x.step ev).1 ∧ (Silent (x.step ev).1 ↔ x.dropsSilently ev = true)

include h hlive

theorem settles_of_stutter (hstep : (x.step ev).1 = x) (hquiet : x.dropsSilently ev = false) :
    Settles x ev := by
  rw [Settles, hstep, hquiet]
  exact ⟨h, iff_of_false (h.not_silent hlive) Bool.false_ne_true⟩

theorem settles_dropUpload : Settles x .dropUpload := by
  by_cases hp : x.phase = .eager
  · exact settles_of_stutter h hlive (by simp [step, onDropUpload, hp]) rfl
  · have hsame : ({ x with bodyFut := x.bodyFut.map (SendFuture.drop .owned) } : Exchange) =
        (x.step .dropUpload).1 := by simp [step, onDropUpload, hp]
    obtain ⟨hhalf, hnot⟩ := halfInv_of_same h hlive
      (y := { x with bodyFut := x.bodyFut.map (SendFuture.drop .owned) }) rfl rfl
    rw [Settles, ← hsame]
    exact ⟨hhalf, iff_of_false hnot Bool.false_ne_true⟩

theorem settles_sendRequest (a : SendRequestAnswer) : Settles x (.sendRequest a) := by
  cases hp : x.phase with
  | opening bd =>
      have hnone : x.r = none := by rwa [HalfInv, hp] at h
      cases a with
      | pending => exact settles_of_stutter h hlive (by simp [step, hp, onSendRequest]) rfl
      | ok =>
          simp only [Settles, step, hp, dropsSilently]
          exact ⟨rfl, iff_of_false (halfInv_of_fresh rfl (.inl rfl)).2 Bool.false_ne_true⟩
      | err e =>
          simp only [Settles, step, hp, dropsSilently]
          refine ⟨trivial, iff_of_false ?_ Bool.false_ne_true⟩
          rintro ⟨r, hr, -⟩
          simp [onSendRequest, dropFrame, hnone] at hr
  | _ => exact settles_of_stutter h hlive (by simp [step, hp]) rfl

theorem settles_recvResponse (a : RecvResponseAnswer) : Settles x (.recvResponse a) := by
  cases hp : x.phase with
  | receiving =>
      have hr : x.r = some .new := by rwa [HalfInv, hp] at h
      cases a with
      | pending =>
          exact settles_of_stutter h hlive (by simp [step, hp, hr, onRecvResponse]) rfl
      | ok =>
          simp only [Settles, step, hp, hr, onRecvResponse, dropsSilently]
          refine ⟨⟨rfl, fun hfin ↦ absurd hfin Bool.false_ne_true⟩,
            iff_of_false ?_ Bool.false_ne_true⟩
          rintro ⟨r, hr, -⟩
          cases hr
      | err e streamOpen =>
          simp only [Settles, step, hp, hr, onRecvResponse, dropsSilently]
          refine ⟨trivial, ?_⟩
          cases streamOpen with
          | true => exact iff_of_true ⟨_, rfl, RecvHalf.silent_drop_new⟩ (by simp)
          | false =>
              refine iff_of_false ?_ (by simp)
              rintro ⟨r, hr, -, hopen, -⟩
              obtain rfl := Option.some.inj hr
              cases hopen
  | _ =>
      refine settles_of_stutter h hlive (by simp [step, hp]) ?_
      cases a <;> simp [dropsSilently, hp]

theorem settles_dropFuture : Settles x .dropFuture := by
  cases hp : x.phase with
  | opening bd =>
      have hnone : x.r = none := by rwa [HalfInv, hp] at h
      simp only [Settles, step, hp, dropsSilently]
      refine ⟨trivial, iff_of_false ?_ (by simp)⟩
      rintro ⟨r, hr, -⟩
      simp [dropFrame, hnone] at hr
  | receiving =>
      have hr : x.r = some .new := by rwa [HalfInv, hp] at h
      simp only [Settles, step, hp, dropsSilently]
      refine ⟨trivial, iff_of_true ⟨_, ?_, RecvHalf.silent_drop_new⟩ (by simp)⟩
      simp [dropFrame, hr]
  | _ =>
      exact settles_of_stutter h hlive (by simp [step, hp]) (by simp [dropsSilently, hp])

theorem settles_pollBody (a : RecvAnswer) : Settles x (.pollBody a) := by
  cases hp : x.phase with
  | responded b =>
      rw [HalfInv, hp] at h
      obtain ⟨hnone, hfin⟩ := h
      simp only [Settles, step, hp, dropsSilently]
      refine ⟨⟨hnone, Incoming.ended_of_finished hfin⟩, iff_of_false ?_ Bool.false_ne_true⟩
      rintro ⟨r, hr, -⟩
      rw [hnone] at hr
      cases hr
  | _ => exact settles_of_stutter h hlive (by simp [step, hp]) rfl

theorem settles_dropBody : Settles x .dropBody := by
  cases hp : x.phase with
  | responded b =>
      rw [HalfInv, hp] at h
      simp only [Settles, step, hp, dropsSilently]
      refine ⟨trivial, iff_of_false ?_ Bool.false_ne_true⟩
      rintro ⟨r, hr, hsilent⟩
      obtain rfl := Option.some.inj hr
      exact H3IncomingClient.not_silent_drop h.2 hsilent
  | _ => exact settles_of_stutter h hlive (by simp [step, hp]) rfl

theorem halfInv_step (hinv : Inv sc x) (ev : ExchangeEvent) : Settles x ev := by
  cases ev with
  | upload a => exact halfInv_onUpload hinv h hlive a
  | dropUpload => exact settles_dropUpload h hlive
  | sendRequest a => exact settles_sendRequest h hlive a
  | recvResponse a => exact settles_recvResponse h hlive a
  | dropFuture => exact settles_dropFuture h hlive
  | pollBody a => exact settles_pollBody h hlive a
  | dropBody => exact settles_dropBody h hlive

end Events

/-- A half dropped silently stays so, and only the exits of `dropsSilently`
bring that about. -/
theorem silent_step {l : ExchangeEvent × ExchangeOut} (hinv : Inv sc x) (h : HalfInv x)
    (hstep : Steps x l x') :
    HalfInv x' ∧ (Silent x' ↔ Silent x ∨ x.dropsSilently l.1 = true) := by
  cases hab : x.phase.isAbandoned with
  | false =>
      have hsettles := halfInv_step h hab hinv l.1
      rw [Settles, hstep] at hsettles
      simpa [h.not_silent hab] using hsettles
  | true =>
      have hmove := move_of_steps hstep
      have hphase := hmove.isAbandoned hab
      have hr : x'.r = x.r := by
        rcases hmove.cases_of_isAbandoned hab with
          ⟨rfl, -⟩ | ⟨a, fut, fut', signal, -, -, -, rfl, -⟩ | ⟨rfl, -⟩
        · rfl
        · rfl
        · rfl
      have hquiet : x.dropsSilently l.1 = false := by
        have hne : x.phase ≠ .eager ∧ x.phase ≠ .receiving := by
          constructor <;> (intro hp; rw [hp] at hab; cases hab)
        unfold dropsSilently
        split <;> simp [hne]
      refine ⟨by rwa [HalfInv, hr, hphase], ?_⟩
      rw [Silent, Silent, hr, hquiet]
      simp

/-- The steps that take none of the silent exits. -/
def SafeSteps (x : Exchange) (l : ExchangeEvent × ExchangeOut) (x' : Exchange) : Prop :=
  Steps x l x' ∧ x.dropsSilently l.1 = false

theorem silent_of_run {tr : List (ExchangeEvent × ExchangeOut)} (h : Run Steps x tr x')
    (hinv : Inv sc x) (hhalf : HalfInv x) (hsilent : Silent x) : Silent x' := by
  induction h with
  | nil x => exact hsilent
  | cons hstep hrest ih =>
      obtain ⟨hhalf', hiff⟩ := silent_step hinv hhalf hstep
      exact ih ((move_of_steps hstep).inv hinv) hhalf' (hiff.mpr (.inl hsilent))

theorem not_silent_iff_of_run {tr : List (ExchangeEvent × ExchangeOut)} (h : Run Steps x tr x')
    (hinv : Inv sc x) (hhalf : HalfInv x) (hnot : ¬ Silent x) :
    ¬ Silent x' ↔ Run SafeSteps x tr x' := by
  induction h with
  | nil x => exact iff_of_true hnot (.nil x)
  | @cons x y x' l tr hstep hrest ih =>
      obtain ⟨hhalf', hiff⟩ := silent_step hinv hhalf hstep
      have hinv' := (move_of_steps hstep).inv hinv
      cases hdrop : x.dropsSilently l.1 with
      | true =>
          have hsilent := silent_of_run hrest hinv' hhalf' (hiff.mpr (.inr hdrop))
          refine iff_of_false (not_not_intro hsilent) ?_
          intro hsafe
          cases hsafe with
          | cons hstep' hrest' =>
              rw [hstep'.2] at hdrop
              cases hdrop
      | false =>
          rw [ih hinv' hhalf' (by simp [hiff, hnot, hdrop])]
          constructor
          · exact .cons ⟨hstep, hdrop⟩
          · intro hsafe
            cases hsafe with
            | @cons _ z _ _ _ hstep' hrest' =>
                -- the machine is a function, so the two runs share their states
                obtain rfl : z = y := (Prod.mk.inj (hstep'.1.symm.trans hstep)).1
                exact hrest'

end Exchange

open Exchange

/-- The runs of an exchange that never abandon the receive half silently are
exactly those that take none of the three exits. -/
theorem receive_half_dropped_properly_iff [Http3] (conn : Conn) (closing : Flag) (sc : BodyScript)
    {tr : List (ExchangeEvent × ExchangeOut)} {x : Exchange}
    (h : Run Steps (new conn closing sc) tr x) :
    ¬ x.Silent ↔ Run SafeSteps (new conn closing sc) tr x := by
  have hhalf := halfInv_new conn closing sc
  exact not_silent_iff_of_run h (inv_new conn closing sc) hhalf (hhalf.not_silent rfl)

/-- A response whose body is dropped before it is read. -/
theorem receive_half_dropped_properly_unread :
    letI := documentedHttp3
    let es := [.sendRequest .ok, .upload ⟨true, .ok⟩, .upload ⟨true, .ok⟩, .upload ⟨true, .ok⟩,
      .recvResponse .ok, .dropBody]
    let start := Exchange.new 0 0 ⟨[], .done⟩
    (exec Exchange.step start es).r.map RecvHalf.stopped = some [.h3RequestCancelled] ∧
      Run SafeSteps start (labels Exchange.step start es) (exec Exchange.step start es) := by
  let _ := documentedHttp3
  intro es start
  refine ⟨rfl, (receive_half_dropped_properly_iff 0 0 _ (run_exec Exchange.step _ es)).mp ?_⟩
  rintro ⟨r, hr, -, -, hstopped⟩
  obtain rfl := Option.some.inj hr
  exact hstopped (by decide)

/-- A call that is given up before its response arrives. -/
theorem receive_half_dropped_silently :
    letI := documentedHttp3
    ¬ ∀ x, Reachable Steps (Exchange.new 0 0 ⟨[], .done⟩) x → ¬ x.Silent := by
  let _ := documentedHttp3
  intro hclaim
  refine hclaim _ (reachable_exec Exchange.step _ [.sendRequest .ok, .upload ⟨true, .ok⟩,
    .upload ⟨true, .ok⟩, .upload ⟨true, .ok⟩, .dropFuture]) ?_
  exact ⟨_, rfl, RecvHalf.silent_drop_new⟩

end TonicH3
