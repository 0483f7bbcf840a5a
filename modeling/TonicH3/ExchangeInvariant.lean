import TonicH3.SendRequestInner

/-!
# Who owns what during an exchange

The invariant of an exchange, by phase.  The future owns its clone of the h3
sender exactly until it completes or is dropped.  The cancellation sender is a
local of the future once the stream has been opened, moves into the response
body, and is gone in every phase in which the caller has given up.  The upload
satisfies the invariant of body sends throughout, and has been polled at least
once before anybody else can drop it.
-/

namespace TonicH3

open EventRun

namespace Exchange

/-- The upload exists, is in order, and its guard has been built. -/
def Uploaded (sc : BodyScript) (x : Exchange) : Prop :=
  ∃ fut, x.bodyFut = some fut ∧ SendInv .new sc fut ∧ fut.isPolled = true

/-- No stream was opened, or the upload has lost its cancellation sender. -/
def GivenUp (sc : BodyScript) (x : Exchange) : Prop :=
  (x.bodyFut = none ∧ x.cancelTx = .unborn) ∨ (x.cancelTx = .gone ∧ x.Uploaded sc)

def PhaseInv (sc : BodyScript) (x : Exchange) : Phase → Prop
  | .opening bd => bd = .new sc ∧ x.bodyFut = none ∧ x.cancelTx = .unborn
  | .eager => x.cancelTx = .frame ∧ ∃ fut, x.bodyFut = some fut ∧ SendInv .new sc fut
  | .receiving => x.cancelTx = .frame ∧ x.Uploaded sc
  | .responded b => x.cancelTx = .body ∧ b.cancelBodySend = true ∧ x.Uploaded sc
  | .failed _ _ | .abandoned | .bodyDropped => x.GivenUp sc

structure Inv (sc : BodyScript) (x : Exchange) : Prop where
  sender : x.sendRequest = if x.phase.inFlight then some x.conn else none
  phase : PhaseInv sc x x.phase

theorem inv_new (conn : Conn) (closing : Flag) (sc : BodyScript) :
    Inv sc (new conn closing sc) :=
  ⟨rfl, rfl, rfl, rfl⟩

variable {sc : BodyScript} {x x' : Exchange} {o : ExchangeOut}

theorem phaseInv_of_isAbandoned {p : Phase} (h : p.isAbandoned = true) :
    PhaseInv sc x p = GivenUp sc x := by
  cases p <;> first | rfl | cases h

theorem sendInv_upload {cancel : Bool} {a : Answers} {fut fut' : SendFuture} {signal : Signal}
    (hlive : fut.isOver = false) (hstep : sendH3ClientBody cancel a fut = (fut', signal))
    (hinv : SendInv .new sc fut) : SendInv .new sc fut' ∧ fut'.isPolled = true := by
  have hmove := sendH3ClientBody_move cancel a hlive
  rw [hstep] at hmove
  exact ⟨hmove.inv SendStream.new_fresh hinv, hmove.isPolled⟩

theorem givenUp_dropFrame (hframe : x.cancelTx = .frame) (hup : x.Uploaded sc) :
    GivenUp sc x.dropFrame := by
  refine Or.inr ⟨?_, ?_⟩
  · simp [dropFrame, hframe]
  · exact hup

theorem inv_afterEager {fut' : SendFuture} {signal : Signal} (hphase : x.phase = .eager)
    (hsender : x.sendRequest = some x.conn) (hframe : x.cancelTx = .frame)
    (hfut : SendInv .new sc fut' ∧ fut'.isPolled = true) :
    Inv sc ({ x with bodyFut := some fut' }.afterEager signal) := by
  have hup : Uploaded sc { x with bodyFut := some fut' } := ⟨fut', rfl, hfut⟩
  cases signal with
  | again =>
      refine ⟨by simp [afterEager, hphase, Phase.inFlight, hsender], ?_⟩
      simp only [afterEager, hphase]
      exact ⟨hframe, fut', rfl, hfut.1⟩
  | pending => exact ⟨hsender, hframe, hup⟩
  | cancelled => exact ⟨hsender, hframe, hup⟩
  | finished => exact ⟨hsender, hframe, hup⟩
  | failed e =>
      refine ⟨rfl, ?_⟩
      exact givenUp_dropFrame (x := { x with bodyFut := some fut', phase := _ }) hframe hup

theorem GivenUp.uploaded (h : GivenUp sc x) {fut : SendFuture} (hfut : x.bodyFut = some fut) :
    x.cancelTx = .gone ∧ x.Uploaded sc := by
  rcases h with ⟨hnone, -⟩ | hgone
  · rw [hnone] at hfut
    cases hfut
  · exact hgone

theorem uploaded_of_phase {p : Phase} (hphase : PhaseInv sc x p) (hne : p ≠ .eager)
    {fut : SendFuture} (hfut : x.bodyFut = some fut) : x.Uploaded sc := by
  cases p with
  | opening bd =>
      rw [hphase.2.1] at hfut
      cases hfut
  | eager => exact absurd rfl hne
  | receiving => exact hphase.2
  | responded b => exact hphase.2.2
  | failed site e => exact (GivenUp.uploaded hphase hfut).2
  | abandoned => exact (GivenUp.uploaded hphase hfut).2
  | bodyDropped => exact (GivenUp.uploaded hphase hfut).2

/-- The phase invariant only looks at the upload through `Uploaded`, so a
background step of the upload keeps it. -/
theorem phaseInv_bodyFut {p : Phase} (hphase : PhaseInv sc x p) (hne : p ≠ .eager)
    {fut fut' : SendFuture} (hfut : x.bodyFut = some fut)
    (hfut' : SendInv .new sc fut' ∧ fut'.isPolled = true) :
    PhaseInv sc { x with bodyFut := some fut' } p := by
  have hup : Uploaded sc { x with bodyFut := some fut' } := ⟨fut', rfl, hfut'⟩
  cases p with
  | opening bd =>
      rw [hphase.2.1] at hfut
      cases hfut
  | eager => exact absurd rfl hne
  | receiving => exact ⟨hphase.1, hup⟩
  | responded b => exact ⟨hphase.1, hphase.2.1, hup⟩
  | failed site e => exact Or.inr ⟨(GivenUp.uploaded hphase hfut).1, hup⟩
  | abandoned => exact Or.inr ⟨(GivenUp.uploaded hphase hfut).1, hup⟩
  | bodyDropped => exact Or.inr ⟨(GivenUp.uploaded hphase hfut).1, hup⟩

theorem Inv.sendInv (hinv : Inv sc x) {fut : SendFuture} (hfut : x.bodyFut = some fut) :
    SendInv .new sc fut := by
  have hphase := hinv.phase
  by_cases heager : x.phase = .eager
  · rw [heager] at hphase
    obtain ⟨-, fut', hfut', hsend⟩ := hphase
    rw [hfut] at hfut'
    obtain rfl := Option.some.inj hfut'
    exact hsend
  · obtain ⟨fut', hfut', hsend, -⟩ := uploaded_of_phase hphase heager hfut
    rw [hfut] at hfut'
    obtain rfl := Option.some.inj hfut'
    exact hsend

theorem Inv.isAbandoned_of_cancelResolved (hinv : Inv sc x) (h : x.cancelResolved = true) :
    x.phase.isAbandoned = true := by
  have hgone : x.cancelTx = .gone := by simpa [cancelResolved] using h
  have hphase := hinv.phase
  cases hp : x.phase with
  | opening bd =>
      rw [hp] at hphase
      simp [hphase.2.2] at hgone
  | eager =>
      rw [hp] at hphase
      simp [hphase.1] at hgone
  | receiving =>
      rw [hp] at hphase
      simp [hphase.1] at hgone
  | responded b =>
      rw [hp] at hphase
      simp [hphase.1] at hgone
  | failed site e => rfl
  | abandoned => rfl
  | bodyDropped => rfl

theorem Inv.cancelResolved_eq_false (hinv : Inv sc x) (h : x.phase.isAbandoned = false) :
    x.cancelResolved = false := by
  by_contra hresolved
  have hab := hinv.isAbandoned_of_cancelResolved (by simpa using hresolved)
  rw [h] at hab
  cases hab

theorem Inv.cancelResolved_of_isAbandoned (hinv : Inv sc x) (h : x.phase.isAbandoned = true)
    {fut : SendFuture} (hfut : x.bodyFut = some fut) :
    x.cancelResolved = true ∧ SendInv .new sc fut ∧ fut.isPolled = true := by
  have hphase := hinv.phase
  rw [phaseInv_of_isAbandoned h] at hphase
  obtain ⟨hgone, fut₀, hfut₀, hsend⟩ := hphase.uploaded hfut
  rw [hfut] at hfut₀
  obtain rfl := Option.some.inj hfut₀
  exact ⟨by simp [cancelResolved, hgone], hsend⟩

variable [Http3]

theorem Move.inv (h : Move x x' o) (hinv : Inv sc x) : Inv sc x' := by
  obtain ⟨hsender, hphase⟩ := hinv
  cases h with
  | stutter => exact ⟨hsender, hphase⟩
  | opened bd hp =>
      rw [hp] at hphase hsender
      obtain ⟨rfl, -, -⟩ := hphase
      exact ⟨hsender, rfl, _, rfl, rfl, rfl⟩
  | rejected bd e hp =>
      rw [hp] at hphase
      obtain ⟨-, hnone, hunborn⟩ := hphase
      refine ⟨rfl, Or.inl ⟨hnone, ?_⟩⟩
      simp [dropFrame, hunborn]
  | eagerly a fut fut' signal hfut hlive hp hstep =>
      rw [hp] at hphase hsender
      obtain ⟨hframe, fut₀, hfut₀, hsend⟩ := hphase
      obtain rfl : fut = fut₀ := by
        rw [hfut] at hfut₀
        exact Option.some.inj hfut₀
      exact inv_afterEager hp hsender hframe (sendInv_upload hlive hstep hsend)
  | background a fut fut' signal hfut hlive hp hstep =>
      refine ⟨hsender, ?_⟩
      obtain ⟨fut₀, hfut₀, hsend, -⟩ := uploaded_of_phase hphase hp hfut
      obtain rfl : fut = fut₀ := by
        rw [hfut] at hfut₀
        exact Option.some.inj hfut₀
      exact phaseInv_bodyFut hphase hp hfut (sendInv_upload hlive hstep hsend)
  | uploadDropped hp =>
      refine ⟨hsender, ?_⟩
      cases hfut : x.bodyFut with
      | none =>
          have hsame : ({ x with bodyFut := none } : Exchange) = x := by
            cases x
            simp_all
          simpa [hsame] using hphase
      | some fut =>
          obtain ⟨fut₀, hfut₀, hsend, hpolled⟩ := uploaded_of_phase hphase hp hfut
          obtain rfl : fut = fut₀ := by
            rw [hfut] at hfut₀
            exact Option.some.inj hfut₀
          have hdrop := hsend.drop (o := .owned) (SendFuture.ne_unpolled hpolled)
          have hpolled' : (fut.drop .owned).isPolled = true := by cases fut <;> rfl
          exact phaseInv_bodyFut hphase hp hfut ⟨hdrop, hpolled'⟩
  | responded r hp hr =>
      rw [hp] at hphase
      exact ⟨rfl, rfl, rfl, hphase.2⟩
  | refused r e streamOpen hp hr =>
      rw [hp] at hphase
      refine ⟨rfl, ?_⟩
      exact givenUp_dropFrame (x := { x with phase := _, r := _ }) hphase.1 hphase.2
  | futureDropped hp =>
      refine ⟨rfl, ?_⟩
      rcases hp with ⟨bd, hp⟩ | hp
      · rw [hp] at hphase
        obtain ⟨-, hnone, hunborn⟩ := hphase
        refine Or.inl ⟨hnone, ?_⟩
        simp [dropFrame, hunborn]
      · rw [hp] at hphase
        exact givenUp_dropFrame (x := { x with phase := _ }) hphase.1 hphase.2
  | bodyPolled b p hp =>
      rw [hp] at hphase hsender
      exact ⟨hsender, hphase⟩
  | bodyDropped b hp =>
      rw [hp] at hphase hsender
      obtain ⟨-, hcancel, hup⟩ := hphase
      refine ⟨hsender, Or.inr ⟨?_, hup⟩⟩
      simp [hcancel]

theorem inv_of_reachable {conn : Conn} {closing : Flag}
    (h : Reachable Steps (new conn closing sc) x) : Inv sc x :=
  h.invariant (fun _ _ _ hinv hstep ↦ (move_of_steps hstep).inv hinv) (inv_new conn closing sc)

/-- Of an exchange that has been given up only the upload goes on. -/
theorem Move.cases_of_isAbandoned (h : Move x x' o) (hab : x.phase.isAbandoned = true) :
    (x' = x ∧ o = .quiet) ∨
    (∃ a fut fut' signal, x.bodyFut = some fut ∧ fut.isOver = false ∧
      sendH3ClientBody x.cancelResolved a fut = (fut', signal) ∧
      x' = { x with bodyFut := some fut' } ∧ o = ⟨false, some signal, none⟩) ∨
    (x' = { x with bodyFut := x.bodyFut.map (SendFuture.drop .owned) } ∧ o = .quiet) := by
  cases h with
  | stutter => exact .inl ⟨rfl, rfl⟩
  | background a fut fut' signal hfut hlive hp hstep =>
      exact .inr (.inl ⟨a, fut, fut', signal, hfut, hlive, hstep, rfl, rfl⟩)
  | uploadDropped hp => exact .inr (.inr ⟨rfl, rfl⟩)
  | opened bd hp => rw [hp] at hab; cases hab
  | rejected bd e hp => rw [hp] at hab; cases hab
  | eagerly a fut fut' signal hfut hlive hp hstep => rw [hp] at hab; cases hab
  | responded r hp hr => rw [hp] at hab; cases hab
  | refused r e streamOpen hp hr => rw [hp] at hab; cases hab
  | futureDropped hp =>
      rcases hp with ⟨bd, hp⟩ | hp
      · rw [hp] at hab; cases hab
      · rw [hp] at hab; cases hab
  | bodyPolled b p hp => rw [hp] at hab; cases hab
  | bodyDropped b hp => rw [hp] at hab; cases hab

theorem Move.isAbandoned (h : Move x x' o) (hab : x.phase.isAbandoned = true) :
    x'.phase = x.phase := by
  rcases h.cases_of_isAbandoned hab with ⟨rfl, -⟩ | ⟨a, fut, fut', signal, -, -, -, rfl, -⟩ |
    ⟨rfl, -⟩
  · rfl
  · rfl
  · rfl

end Exchange

end TonicH3
