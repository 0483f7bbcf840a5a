import TonicH3.SenderInvariant

/-!
# The states of the reconnecting sender

The connection state is one slot spread over four `Option`s.  Consequences:
the assertions of `poll_ready` never fail, a completed connect future is never
polled, and a `call` after a ready `poll_ready` finds a sender or an error.

Readiness itself is not stable: `poll_ready` looks at the driver signal and at
the closing flag on every poll, and a cached sender whose connection is known
to be going away is retired before the call that readiness was granted for.
-/

namespace TonicH3

open EventRun

def Event.isOutside : Event → Bool
  | .driver _ _ | .exchange _ _ => true
  | _ => false

def Event.isCall : Event → Bool
  | .call _ => true
  | _ => false

namespace World

/-! ## What later events leave in place -/

/-- Drivers do not restart and flags are not cleared. -/
structure Later (w w' : World) : Prop where
  drivers : w.drivers.length ≤ w'.drivers.length
  stopped : ∀ g, g < w.drivers.length → w.driverRunning g = false → w'.driverRunning g = false
  set : ∀ f, w.flagSet f = true → w'.flagSet f = true

theorem Later.refl (w : World) : w.Later w := ⟨Nat.le_refl _, fun _ _ h ↦ h, fun _ h ↦ h⟩

theorem Later.trans {u v w : World} (h : u.Later v) (h' : v.Later w) : u.Later w where
  drivers := Nat.le_trans h.drivers h'.drivers
  stopped g hg hs := h'.stopped g (Nat.lt_of_lt_of_le hg h.drivers) (h.stopped g hg hs)
  set f hf := h'.set f (h.set f hf)

theorem later_retireConnection (w : World) : w.Later w.retireConnection.1 where
  drivers := Nat.le_refl _
  stopped _ _ h := h
  set f hf := by rwa [flagSet_retireConnection]

section

variable {w w' : World} {r : PollReadyResult} {acts : List SlotAction}

theorem Connected.later (h : Connected w w' r acts) : w.Later w' := by
  cases h with
  | pending fut hne => exact ⟨Nat.le_refl _, fun _ _ h ↦ h, fun _ h ↦ h⟩
  | deferred e => exact ⟨Nat.le_refl _, fun _ _ h ↦ h, fun _ h ↦ h⟩
  | installed =>
      refine ⟨?_, ?_, fun _ h ↦ h⟩
      · simp [install]
      · intro g hg hs
        have hsame : (w.drivers ++ [Driver.running])[g]? = w.drivers[g]? :=
          List.getElem?_append_left hg
        simpa [driverRunning, install, hsame] using hs

theorem Polled.later (h : Polled w w' r acts) : w.Later w' := by
  cases h with
  | deferred e hslot => exact .refl w
  | cached g hslot hrun hset => exact .refl w
  | connecting hslot hconn => exact hconn.later
  | reconnecting g hslot hcause hconn => exact w.later_retireConnection.trans hconn.later

theorem later_onDriver (w : World) (g : Conn) (d : Driver) : w.Later (w.onDriver g d) := by
  unfold onDriver
  split
  · next hrun =>
      refine ⟨by simp, ?_, fun _ h ↦ h⟩
      intro g' hg' hs
      have hne : g ≠ g' := by
        rintro rfl
        rw [hrun] at hs
        cases hs
      simpa [driverRunning, List.getElem?_set_ne hne] using hs
  · exact .refl w

theorem Polled.exchanges_eq (h : Polled w w' r acts) : w'.exchanges = w.exchanges := by
  cases h with
  | deferred e hslot => rfl
  | cached g hslot hrun hset => rfl
  | connecting hslot hconn => cases hconn <;> rfl
  | reconnecting g hslot hcause hconn => cases hconn <;> rfl

theorem Polled.slot_of_ready {res : Except Error Unit} (h : Polled w w' (.ready res) acts) :
    res = .ok () ∧ (w'.sender.connectError.isSome ∨ w'.sender.sendRequest.isSome) := by
  generalize hr : (Poll.ready res : PollReadyResult) = r at h
  have hconnected : ∀ {v v' acts'}, Connected v v' r acts' →
      res = .ok () ∧ (v'.sender.connectError.isSome ∨ v'.sender.sendRequest.isSome) := by
    intro v v' acts' hconn
    cases hconn with
    | pending fut hne => cases hr
    | installed =>
        cases hr
        exact ⟨rfl, .inr rfl⟩
    | deferred e =>
        cases hr
        exact ⟨rfl, .inl rfl⟩
  cases h with
  | deferred e hslot =>
      cases hr
      exact ⟨rfl, .inl (by simp [RequestSender.connectError_of_slot hslot])⟩
  | cached g hslot hrun hset =>
      cases hr
      exact ⟨rfl, .inr (by simp [RequestSender.sendRequest_of_slot hslot])⟩
  | connecting hslot hconn => exact hconnected hconn
  | reconnecting g hslot hcause hconn => exact hconnected hconn

end

section

variable [Http3] {w w' : World}

theorem Inv.step_pollReady (hinv : w.Inv) (a : ConnectAnswers) :
    ∃ r acts, (w.step (.pollReady a)).2 = .polled r acts ∧
      Polled w (w.step (.pollReady a)).1 r acts := by
  obtain ⟨w', r, acts, hpoll, hspec⟩ := hinv.pollReady_spec a
  refine ⟨r, acts, ?_, ?_⟩
  · simp [World.step, hpoll]
  · simpa [World.step, hpoll] using hspec

theorem Inv.not_panicked (hinv : w.Inv) (ev : Event) (p : Panic) :
    (w.step ev).2 ≠ .panicked p := by
  intro hpanic
  cases ev with
  | pollReady a =>
      obtain ⟨r, acts, hout, -⟩ := hinv.step_pollReady a
      rw [hout] at hpanic
      cases hpanic
  | call req => cases hpanic
  | driver g d => cases hpanic
  | exchange i ev =>
      simp only [World.step, World.onExchange] at hpanic
      split at hpanic <;> cases hpanic

theorem Inv.polled_of_steps (hinv : w.Inv) {a : ConnectAnswers} {out : Output}
    (h : Steps w (.pollReady a, out) w') :
    ∃ r acts, out = .polled r acts ∧ Polled w w' r acts := by
  obtain ⟨r, acts, hout, hspec⟩ := hinv.step_pollReady a
  rw [show w.step (.pollReady a) = (w', out) from h] at hout hspec
  exact ⟨r, acts, hout, hspec⟩

theorem Inv.polled_of_step (hinv : w.Inv) {a : ConnectAnswers} {r : PollReadyResult}
    {acts : List SlotAction} (h : w.step (.pollReady a) = (w', .polled r acts)) :
    Polled w w' r acts := by
  obtain ⟨r', acts', hout, hspec⟩ := hinv.polled_of_steps h
  obtain ⟨rfl, rfl⟩ := Output.polled.inj hout
  exact hspec

theorem called_of_steps {req : Request} {out : Output} (h : Steps w (.call req, out) w') :
    ∃ f acts, out = .called f acts ∧ Called w req w' f acts := by
  obtain ⟨rfl, rfl⟩ := Prod.mk.inj h
  exact ⟨_, _, rfl, w.call_spec req⟩

theorem flagSet_onExchange (hinv : w.Inv) (i : ℕ) (ev : ExchangeEvent) {f : Flag}
    (hf : w.flagSet f = true) : (w.onExchange i ev).1.flagSet f = true := by
  cases hi : w.exchanges[i]? with
  | none =>
      rw [onExchange_none hi]
      exact hf
  | some x =>
      generalize hstep : x.step ev = res
      obtain ⟨x', o⟩ := res
      rw [onExchange_eq hi hstep]
      have hlt := (hinv.older x (List.mem_of_getElem? hi)).1
      cases o.setClosing with
      | false => exact hf
      | true => exact (flagSet_store hlt).trans (by simp [hf])

theorem sender_of_steps {l : Event × Output} (h : Steps w l w') (hout : l.1.isOutside = true) :
    w'.sender = w.sender := by
  obtain ⟨ev, out⟩ := l
  obtain ⟨rfl, -⟩ := Prod.mk.inj h
  cases ev with
  | pollReady a => cases hout
  | call req => cases hout
  | driver g d =>
      simp only [onDriver]
      split <;> rfl
  | exchange i ev =>
      simp only [onExchange]
      cases w.exchanges[i]? <;> rfl

theorem exchange_drivers (w : World) (i : ℕ) (ev : ExchangeEvent) :
    (w.onExchange i ev).1.drivers = w.drivers := by
  unfold onExchange
  cases w.exchanges[i]? <;> rfl

omit [Http3] in
theorem Called.later {req : Request} {f : CallFuture} {acts : List SlotAction}
    (h : Called w req w' f acts) : w.Later w' := by
  cases h <;> exact ⟨Nat.le_refl _, fun _ _ h ↦ h, fun _ h ↦ h⟩

theorem Inv.later_step (hinv : w.Inv) (ev : Event) : w.Later (w.step ev).1 := by
  cases ev with
  | pollReady a =>
      obtain ⟨r, acts, -, hspec⟩ := hinv.step_pollReady a
      exact hspec.later
  | call req => exact (w.call_spec req).later
  | driver g d => exact w.later_onDriver g d
  | exchange i ev =>
      refine ⟨?_, ?_, fun f hf ↦ flagSet_onExchange hinv i ev hf⟩
      · simp [World.step, exchange_drivers]
      · simp [World.step, driverRunning, exchange_drivers]

theorem sender_of_run {tr : List (Event × Output)} (h : Run Steps w tr w')
    (hout : ∀ l ∈ tr, l.1.isOutside = true) : w'.sender = w.sender :=
  h.invariant_of (P := fun l ↦ l.1.isOutside = true) (I := fun v ↦ v.sender = w.sender)
    (fun _ _ _ hl hs hstep ↦ (sender_of_steps hstep hl).trans hs) hout rfl

omit [Http3] in
theorem Called.ne_notReady {req : Request} {f : CallFuture} {acts : List SlotAction}
    (h : Called w req w' f acts)
    (hready : w.sender.connectError.isSome ∨ w.sender.sendRequest.isSome) : f ≠ .notReady := by
  cases h with
  | delivered e herr => nofun
  | started g uri herr hsr => nofun
  | refused f herr hf =>
      rcases hf with rfl | rfl | ⟨e, rfl⟩ | ⟨rfl, hsr⟩
      · nofun
      · nofun
      · nofun
      · simp [herr, hsr] at hready

end

end World

open World

/-- In every reachable state the fields of the sender are exclusive.  Hence no
event panics, a stored connect future has not completed, and a call after a
ready `poll_ready` does not take the not-ready branch, whatever in-flight
requests and drivers do in between. -/
theorem sender_fields_exclusive [Http3] (uri : Uri) {w : World}
    (h : Reachable Steps (World.new uri) w) :
    (w.sender.sendRequest.isSome ↔ w.sender.driverRx.isSome) ∧
    ¬ (w.sender.sendRequest.isSome ∧ w.sender.makeSendRequestFut.isSome) ∧
    ¬ (w.sender.sendRequest.isSome ∧ w.sender.connectError.isSome) ∧
    ¬ (w.sender.makeSendRequestFut.isSome ∧ w.sender.connectError.isSome) ∧
    (∀ ev p, (w.step ev).2 ≠ .panicked p) ∧
    w.sender.makeSendRequestFut ≠ some .complete ∧
    (∀ a w₁ acts tr w₂, w.step (.pollReady a) = (w₁, .polled (.ready (.ok ())) acts) →
      Run Steps w₁ tr w₂ → (∀ l ∈ tr, l.1.isOutside = true) →
      ∀ req acts', (w₂.step (.call req)).2 ≠ .called .notReady acts') := by
  have hinv := inv_of_reachable h
  have hex := hinv.exclusive
  refine ⟨?_, ?_, ?_, ?_, ?_, ?_, ?_⟩
  · cases hslot : w.sender.slot <;> rw [hslot] at hex <;> simp [hex.1, hex.2.1]
  · cases hslot : w.sender.slot <;> rw [hslot] at hex <;> simp [hex.1, hex.2.2.1]
  · cases hslot : w.sender.slot <;> rw [hslot] at hex <;> simp [hex.1, hex.2.2.2]
  · cases hslot : w.sender.slot <;> rw [hslot] at hex <;> simp [hex.2.2.1, hex.2.2.2]
  · exact hinv.not_panicked
  · intro hfut
    cases hslot : w.sender.slot with
    | acquiring =>
        rw [hslot] at hex
        obtain ⟨-, -, ⟨fut, hsome, hne⟩, -⟩ := hex
        rw [hfut] at hsome
        exact hne (Option.some.inj hsome).symm
    | _ =>
        rw [hslot] at hex
        simp [hex.2.2.1] at hfut
  · intro a w₁ acts tr w₂ hready hrun hout req acts' hcall
    have hslot := (hinv.polled_of_step hready).slot_of_ready.2
    rw [← sender_of_run hrun hout] at hslot
    have hnot := (w₂.call_spec req).ne_notReady hslot
    simp only [World.step, Output.called.injEq] at hcall
    exact hnot hcall.1

def localUri : Uri := ⟨some "https", some "localhost:4433", none⟩

def connects : ConnectAnswers := ⟨.ready (.ok ()), .ready (.ok ())⟩

theorem sender_fields_exclusive_connected :
    letI := documentedHttp3
    let w := exec World.step (World.new localUri) [.pollReady connects]
    w.sender.sendRequest = some 0 ∧ w.sender.driverRx.isSome ∧
      ∀ acts, ((w.step (.driver 0 .ended)).1.step (.call ⟨localUri, ⟨[], .done⟩⟩)).2 ≠
        .called .notReady acts := by
  let _ := documentedHttp3
  intro w
  have hreach : Reachable Steps (World.new localUri) w := reachable_exec _ _ _
  have hspec := sender_fields_exclusive localUri hreach
  refine ⟨rfl, hspec.1.mp rfl, ?_⟩
  have hrun : Run Steps w [(.driver 0 .ended, .quiet)] (w.step (.driver 0 .ended)).1 :=
    .single rfl
  exact hspec.2.2.2.2.2.2 connects w [] _ _ rfl hrun (by simp [Event.isOutside]) _

/-! ## Readiness between two polls -/

section Readiness

variable [Http3]

/-- `w.KeptOrLost s`: since `w` the sender has kept its fields, or the connection
it cached has been found ended or closing. -/
def World.KeptOrLost (w s : World) : Prop :=
  s.sender = w.sender ∨ ∃ g, w.sender.sendRequest = some g ∧
    (s.driverRunning g = false ∨ s.flagSet w.sender.closing = true)

section KeptOrLost

variable {w s t : World} (hs : s.Inv)

include hs

/-- A `poll_ready` that changes the fields has found the connection lost. -/
theorem keptOrLost_pollReady {a : ConnectAnswers} {out : Output}
    (hready : w.sender.connectError.isSome ∨ w.sender.sendRequest.isSome)
    (hsame : s.sender = w.sender) (hstep : Steps s (.pollReady a, out) t) (hnext : s.Later t) :
    w.KeptOrLost t := by
  obtain ⟨r, acts, -, hspec⟩ := hs.polled_of_steps hstep
  have hex := hs.exclusive
  cases hspec with
  | deferred e hslot => exact .inl hsame
  | cached g hslot hrun hset => exact .inl hsame
  | connecting hslot hconn =>
      obtain ⟨hsr, -, herr⟩ := hs.encodes_connecting hslot
      rw [hsame] at hsr herr
      simp [hsr, herr] at hready
  | reconnecting g hslot hcause hconn =>
      rw [hslot] at hex
      refine .inr ⟨g, ?_, ?_⟩
      · rw [← hsame]
        exact hex.1
      · have hg : g < s.drivers.length := Nat.le_of_eq (hs.conn_last g hex.1)
        rcases hcause with hrun | hset
        · exact .inl (hnext.stopped g hg hrun)
        · rw [hsame] at hset
          exact .inr (hnext.set _ hset)

theorem World.KeptOrLost.step {l : Event × Output} (hinv : w.Inv)
    (hready : w.sender.connectError.isSome ∨ w.sender.sendRequest.isSome)
    (hcall : l.1.isCall = false) (hlater : w.Later s) (h : w.KeptOrLost s) (hstep : Steps s l t) :
    w.Later t ∧ w.KeptOrLost t := by
  obtain ⟨ev, out⟩ := l
  have hnext : s.Later t := by
    have hlater' := hs.later_step ev
    rwa [show s.step ev = (t, out) from hstep] at hlater'
  refine ⟨hlater.trans hnext, ?_⟩
  rcases h with hsame | ⟨g, hg, hlost⟩
  · cases ev with
    | call req => cases hcall
    | driver g d => exact .inl ((sender_of_steps hstep rfl).trans hsame)
    | exchange i ev => exact .inl ((sender_of_steps hstep rfl).trans hsame)
    | pollReady a => exact keptOrLost_pollReady hs hready hsame hstep hnext
  · have hglt : g < s.drivers.length :=
      Nat.lt_of_lt_of_le (Nat.le_of_eq (hinv.conn_last g hg)) hlater.drivers
    refine .inr ⟨g, hg, ?_⟩
    rcases hlost with hrun | hset
    · exact .inl (hnext.stopped g hglt hrun)
    · exact .inr (hnext.set _ hset)

end KeptOrLost

/-- From a ready state, without a call, the sender keeps its fields until the
cached connection is found ended or closing. -/
theorem ready_until_lost {w w' : World} {tr : List (Event × Output)} (hinv : w.Inv)
    (hready : w.sender.connectError.isSome ∨ w.sender.sendRequest.isSome)
    (hrun : Run Steps w tr w') (hcall : ∀ l ∈ tr, l.1.isCall = false) : w.KeptOrLost w' := by
  have hend := hrun.invariant_given (J := World.Inv) (I := fun s ↦ w.Later s ∧ w.KeptOrLost s)
    (P := fun l ↦ l.1.isCall = false) (fun _ _ _ hI hstep ↦ inv_of_steps hI hstep)
    (fun _ _ _ hl hs hkept hstep ↦ hkept.2.step hs hinv hready hl hkept.1 hstep) hcall hinv
    ⟨.refl w, .inl rfl⟩
  exact hend.2.2

/-- After a ready `poll_ready`, and without a call, every further `poll_ready`
is ready as well, unless the sender that made it ready belongs to a connection
whose driver has ended or whose closing flag has been set by then.  With a
deferred error it is ready in any case. -/
theorem readiness_stable_unless_retired (uri : Uri) {w w₁ w₂ w₃ : World}
    (h : Reachable Steps (World.new uri) w) {a a' : ConnectAnswers} {acts acts' : List SlotAction}
    (hready : w.step (.pollReady a) = (w₁, .polled (.ready (.ok ())) acts))
    {tr : List (Event × Output)} (hrun : Run Steps w₁ tr w₂)
    (hcall : ∀ l ∈ tr, l.1.isCall = false) {r : PollReadyResult}
    (hpoll : w₂.step (.pollReady a') = (w₃, .polled r acts')) :
    (r = .ready (.ok ()) ∨ ∃ g, w₁.sender.sendRequest = some g ∧
      (w₂.driverRunning g = false ∨ w₂.flagSet w₁.sender.closing = true)) ∧
    (w₁.sender.connectError.isSome → r = .ready (.ok ())) := by
  have hinv := inv_of_reachable h
  have hinv₁ := inv_of_steps (l := (.pollReady a, _)) hinv hready
  have hinv₂ := inv_of_run hinv₁ hrun
  have hslot := (hinv.polled_of_step hready).slot_of_ready.2
  have hstable : r = .ready (.ok ()) ∨ ∃ g, w₁.sender.sendRequest = some g ∧
      (w₂.driverRunning g = false ∨ w₂.flagSet w₁.sender.closing = true) := by
    rcases ready_until_lost hinv₁ hslot hrun hcall with hsame | hlost
    · have hex := hinv₂.exclusive
      cases hinv₂.polled_of_step hpoll with
      | deferred e hs => exact .inl rfl
      | cached g hs hdriver hset => exact .inl rfl
      | connecting hs hconn =>
          obtain ⟨hsr, -, herr⟩ := hinv₂.encodes_connecting hs
          rw [hsame] at hsr herr
          simp [hsr, herr] at hslot
      | reconnecting g hs hcause hconn =>
          rw [hs] at hex
          rw [← hsame]
          exact .inr ⟨g, hex.1, hcause⟩
    · exact .inr hlost
  refine ⟨hstable, ?_⟩
  intro herr
  rcases hstable with hr | ⟨g, hg, -⟩
  · exact hr
  · -- a sender is never cached beside a deferred error
    obtain ⟨e, he⟩ := Option.isSome_iff_exists.mp herr
    have hfailed : w₁.sender.slot = .failed e := by simp [RequestSender.slot, he]
    have hex := hinv₁.exclusive
    rw [hfailed] at hex
    rw [hex.1] at hg
    cases hg

end Readiness

/-- A readiness poll is followed by the end of the driver, and the next poll
is pending. -/
theorem readiness_lost_with_driver :
    letI := documentedHttp3
    ∃ w w₁ w₂ : World, ∃ acts acts', Reachable Steps (World.new localUri) w ∧
      w.step (.pollReady connects) = (w₁, .polled (.ready (.ok ())) acts) ∧
      Run Steps w₁ [(.driver 0 .ended, .quiet)] w₂ ∧
      (w₂.step (.pollReady ⟨.pending, .pending⟩)).2 = .polled .pending acts' := by
  let _ := documentedHttp3
  let w₁ := exec World.step (World.new localUri) [.pollReady connects]
  exact ⟨World.new localUri, w₁, (w₁.step (.driver 0 .ended)).1, _, _,
    .refl _, rfl, .single rfl, rfl⟩

/-- Up to a request whose upload waits for the rest of its body. -/
def requestUnderway : List Event :=
  [.pollReady connects, .call ⟨localUri, ⟨[.data [1]], .done⟩⟩, .exchange 0 (.sendRequest .ok),
    .exchange 0 (.upload ⟨true, .ok⟩), .exchange 0 (.upload ⟨false, .ok⟩)]

/-- Between the two polls a request fails on its own stream. -/
theorem readiness_stable_running :
    letI := documentedHttp3
    let reset : ExchangeEvent := .recvResponse (.err (.remoteReset "0x102") true)
    let w := exec World.step (World.new localUri) requestUnderway
    let w₁ := (w.step (.pollReady connects)).1
    let w₂ := (w₁.step (.exchange 0 reset)).1
    (w.step (.pollReady connects)).2 = .polled (.ready (.ok ())) [] ∧
      w₂.exchanges.map Exchange.phase =
        [.failed .recvResponse (.stream (.remoteReset "0x102"))] ∧
      (w₂.step (.pollReady ⟨.pending, .pending⟩)).2 = .polled (.ready (.ok ())) [] ∧
      ∀ r acts, (w₂.step (.pollReady ⟨.pending, .pending⟩)).2 = .polled r acts →
        r = .ready (.ok ()) := by
  let _ := documentedHttp3
  intro reset w w₁ w₂
  refine ⟨rfl, rfl, rfl, ?_⟩
  intro r acts hout
  have hstep : w₂.step (.pollReady ⟨.pending, .pending⟩) =
      ((w₂.step (.pollReady ⟨.pending, .pending⟩)).1, .polled r acts) := by
    rw [← hout]
  have hrun : Run Steps w₁ [(.exchange 0 reset, (w₁.step (.exchange 0 reset)).2)] w₂ :=
    .single rfl
  rcases (readiness_stable_unless_retired localUri (w := w) (reachable_exec _ _ _)
    (a := connects) rfl hrun (by simp [Event.isCall]) hstep).1 with hready | ⟨g, hg, hlost⟩
  · exact hready
  · obtain rfl : 0 = g := Option.some.inj hg
    rcases hlost with hdriver | hset
    · cases hdriver
    · cases hset

end TonicH3
