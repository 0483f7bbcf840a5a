import TonicH3.Reconnects

/-!
# `H3Client::send`

`send` borrows the client mutably, waits for `poll_ready`, and calls in the
same poll in which it was ready.  So although a connect error is deferred from
`poll_ready` to `call`, it is never left behind for another request, not even
if sends are dropped while they wait.
-/

namespace TonicH3

open EventRun

/-- The future of `send`, as far as it borrows the client. -/
inductive SendCall
  | none
  | waiting (req : Request)
  | calling (i : ℕ)
  deriving DecidableEq, Repr

structure H3Client where
  channel : World
  send : SendCall
  deriving DecidableEq, Repr

inductive H3ClientEvent
  | send (req : Request)
  | poll (a : ConnectAnswers)
  | drop
  | driver (g : Conn) (d : Driver)
  | exchange (i : ℕ) (ev : ExchangeEvent)
  deriving DecidableEq, Repr

/-- `notReady` is the error of `poll_ready`, `refused` an immediate error of
`call`, `completed` the end of the exchange. -/
inductive SendOutcome
  | pending
  | notReady (e : Error)
  | refused (f : CallFuture)
  | completed (p : Phase)
  | panicked (p : Panic)
  | quiet
  deriving DecidableEq, Repr

namespace H3Client

def new (uri : Uri) : H3Client := ⟨.new uri, .none⟩

def afterCall (w : World) : CallFuture → H3Client × SendOutcome
  | .started i _ => (⟨w, .calling i⟩, .pending)
  | f => (⟨w, .none⟩, .refused f)

variable [Http3]

def pollWaiting (c : H3Client) (req : Request) (a : ConnectAnswers) : H3Client × SendOutcome :=
  match c.channel.pollReady a with
  | .error p => (⟨c.channel, .none⟩, .panicked p)
  | .ok (w, .pending, _) => (⟨w, .waiting req⟩, .pending)
  | .ok (w, .ready (.error e), _) => (⟨w, .none⟩, .notReady e)
  | .ok (w, .ready (.ok _), _) => afterCall (w.call req).1 (w.call req).2.1

def pollCalling (c : H3Client) (i : ℕ) : H3Client × SendOutcome :=
  match c.channel.exchanges[i]? with
  | some x =>
      if x.phase.inFlight then (c, .pending) else ({ c with send := .none }, .completed x.phase)
  | none => (c, .quiet)

/-- The future can be dropped where it is suspended; the eager poll of the
upload does not suspend. -/
def dropCalling (c : H3Client) (i : ℕ) : H3Client :=
  if c.channel.exchanges[i]?.any (·.phase = .eager) then c
  else ⟨(c.channel.step (.exchange i .dropFuture)).1, .none⟩

def step (c : H3Client) : H3ClientEvent → H3Client × SendOutcome
  | .send req =>
      match c.send with
      | .none => ({ c with send := .waiting req }, .quiet)
      | _ => (c, .quiet)
  | .poll a =>
      match c.send with
      | .none => (c, .quiet)
      | .waiting req => c.pollWaiting req a
      | .calling i => c.pollCalling i
  | .drop =>
      match c.send with
      | .none => (c, .quiet)
      | .waiting _ => ({ c with send := .none }, .quiet)
      | .calling i => (c.dropCalling i, .quiet)
  | .driver g d => ({ c with channel := (c.channel.step (.driver g d)).1 }, .quiet)
  | .exchange _ .dropFuture => (c, .quiet)
  | .exchange i ev => ({ c with channel := (c.channel.step (.exchange i ev)).1 }, .quiet)

abbrev Steps : H3Client → H3ClientEvent × SendOutcome → H3Client → Prop := Fires step

end H3Client

/-! ## What a poll of `send` can do -/

section Alive

variable {w w' : World} {r : PollReadyResult} {acts : List SlotAction}

theorem World.Polled.connectError_of_pending (h : World.Polled w w' .pending acts) :
    w'.sender.connectError = w.sender.connectError := by
  cases h with
  | connecting hslot hconn =>
      cases hconn with
      | pending fut hne => rfl
  | reconnecting g hslot hcause hconn =>
      cases hconn with
      | pending fut hne => rfl

variable [Http3]

/-- The cached sender belongs to a connection whose driver runs and which
nobody has reported as closing. -/
def World.Alive (w : World) : Prop :=
  ∃ g, w.sender.sendRequest = some g ∧ w.driverRunning g = true ∧
    w.flagSet w.sender.closing = false

theorem World.Connected.alive (hinv : w.Inv)
    (hslot : w.sender.slot = .idle ∨ w.sender.slot = .acquiring)
    (h : World.Connected w w' (.ready (.ok ())) acts) :
    w'.sender.connectError.isSome ∨ w'.Alive := by
  cases h with
  | deferred e => exact .inl rfl
  | installed =>
      refine .inr ⟨w.drivers.length, rfl, ?_, ?_⟩
      · simp [World.driverRunning, World.install]
      · exact hinv.flagSet_eq_false (hinv.encodes_connecting hslot).1

/-- After a ready `poll_ready` there is an error to deliver, or a connection
that has just been found alive. -/
theorem World.Polled.alive (hinv : w.Inv) (h : World.Polled w w' (.ready (.ok ())) acts) :
    w'.sender.connectError.isSome ∨ w'.Alive := by
  cases h with
  | deferred e hslot => exact .inl (by simp [RequestSender.connectError_of_slot hslot])
  | cached g hslot hrun hset =>
      exact .inr ⟨g, RequestSender.sendRequest_of_slot hslot, hrun, hset⟩
  | connecting hslot hconn => exact hconn.alive hinv hslot
  | reconnecting g hslot hcause hconn =>
      obtain ⟨hretired, hidle⟩ := hinv.retireConnection hslot
      exact hconn.alive hretired (.inl hidle)

omit [Http3] in
theorem World.connect_of_error {a : ConnectAnswers} {e : Error} {fut' : ConnectFut}
    (hpoll : (w.sender.makeSendRequestFut.getD .connecting).poll a =
      .ok (.ready (.error e), fut')) :
    ∃ w' acts, w.connect a = .ok (w', .ready (.ok ()), acts) ∧
      w'.sender.connectError = some e := by
  cases hfut : w.sender.makeSendRequestFut with
  | none =>
      simp only [hfut, Option.getD_none] at hpoll
      simp [World.connect, World.startConnect, hfut, World.setFut, hpoll, World.resolve,
        World.defer]
  | some fut =>
      simp only [hfut, Option.getD_some] at hpoll
      simp [World.connect, World.startConnect, hfut, hpoll, World.resolve, World.defer]

/-- Without an error to deliver and without a connection alive, `poll_ready`
goes on to its connect future. -/
theorem World.Inv.pollReady_of_not_alive (hinv : w.Inv) (herr : w.sender.connectError = none)
    (hlost : ¬ w.Alive) (a : ConnectAnswers) :
    ∃ (w₀ : World) (acts₀ : List SlotAction),
      w₀.sender.makeSendRequestFut = w.sender.makeSendRequestFut ∧
      ∀ w' r acts, w₀.connect a = .ok (w', r, acts) →
        w.pollReady a = .ok (w', r, acts₀ ++ acts) := by
  have hex := hinv.exclusive
  cases hsr : w.sender.sendRequest with
  | none =>
      have hrx : w.sender.driverRx = none := by
        cases hslot : w.sender.slot <;> rw [hslot] at hex <;> simp_all [RequestSender.Encodes]
      obtain ⟨hdriver, hclosing⟩ := hinv.checks_of_none hsr hrx
      refine ⟨w, [], rfl, ?_⟩
      intro w' r acts hconn
      simp [World.pollReady, hdriver, hclosing, World.readiness, herr, hsr, hconn]
  | some g =>
      have hrx : w.sender.driverRx = some g := by
        cases hslot : w.sender.slot <;> rw [hslot] at hex <;> simp_all [RequestSender.Encodes]
      have hdriver := World.checkDriver_of_some hrx
      refine ⟨w.retireConnection.1, w.retireConnection.2, rfl, ?_⟩
      intro w' r acts hconn
      have hready : w.retireConnection.1.readiness a = .ok (w', r, acts) := by
        rw [← hconn]
        simp [World.readiness, World.retireConnection, herr]
      cases hrun : w.driverRunning g with
      | false =>
          rw [hrun] at hdriver
          simp [World.pollReady, hdriver, World.checkClosing_retireConnection, hready]
      | true =>
          rw [hrun] at hdriver
          have hset : w.flagSet w.sender.closing = true := by
            by_contra hnot
            exact hlost ⟨g, hsr, hrun, by simpa using hnot⟩
          simp [World.pollReady, hdriver, World.checkClosing, hset, hready]

end Alive

namespace H3Client

variable [Http3] {c c' : H3Client} {req : Request} {a : ConnectAnswers} {out : SendOutcome}

inductive Waited (w : World) (req : Request) (a : ConnectAnswers) :
    SendOutcome → H3Client → Prop
  | pending (w₁ : World) (acts : List SlotAction) :
      World.Steps w (.pollReady a, .polled .pending acts) w₁ →
      Waited w req a .pending ⟨w₁, .waiting req⟩
  | refused (w₁ w₂ : World) (acts acts' : List SlotAction) (f : CallFuture) :
      World.Steps w (.pollReady a, .polled (.ready (.ok ())) acts) w₁ →
      World.Steps w₁ (.call req, .called f acts') w₂ → f.error.isSome →
      Waited w req a (.refused f) ⟨w₂, .none⟩
  | started (w₁ w₂ : World) (acts acts' : List SlotAction) (i : ℕ) (uri : Uri) :
      World.Steps w (.pollReady a, .polled (.ready (.ok ())) acts) w₁ →
      World.Steps w₁ (.call req, .called (.started i uri) acts') w₂ →
      Waited w req a .pending ⟨w₂, .calling i⟩

theorem waited_of_pollWaiting (hinv : c.channel.Inv) (req : Request) (a : ConnectAnswers) :
    Waited c.channel req a (c.pollWaiting req a).2 (c.pollWaiting req a).1 := by
  obtain ⟨w₁, r, acts, hpoll, hspec⟩ := hinv.pollReady_spec a
  have hstep : World.Steps c.channel (.pollReady a, .polled r acts) w₁ := by
    simp [Fires, World.step, hpoll]
  cases r with
  | pending =>
      simp only [pollWaiting, hpoll]
      exact .pending w₁ acts hstep
  | ready res =>
      obtain rfl := hspec.slot_of_ready.1
      simp only [pollWaiting, hpoll]
      generalize hcall : w₁.call req = res
      obtain ⟨w₂, f, acts'⟩ := res
      have hcalled : World.Steps w₁ (.call req, .called f acts') w₂ := by
        simp [Fires, World.step, hcall]
      cases f with
      | started i uri => exact .started w₁ w₂ acts acts' i uri hstep hcalled
      | _ => exact .refused w₁ w₂ acts acts' _ hstep hcalled rfl

theorem Waited.reachable {uri : Uri} {w : World} (h : Waited w req a out c')
    (hw : Reachable World.Steps (World.new uri) w) :
    Reachable World.Steps (World.new uri) c'.channel := by
  cases h with
  | pending w₁ acts hpoll => exact hw.step hpoll
  | refused w₁ w₂ acts acts' f hpoll hcall hf => exact (hw.step hpoll).step hcall
  | started w₁ w₂ acts acts' i uri hpoll hcall => exact (hw.step hpoll).step hcall

/-- An error that `poll_ready` has deferred is taken by `call` in the same poll. -/
theorem Waited.connectError_eq {w : World} (hinv : w.Inv) (h : Waited w req a out c')
    (herr : w.sender.connectError = none) : c'.channel.sender.connectError = none := by
  have hcalled : ∀ {w₁ w₂ f acts'}, World.Steps w₁ (.call req, .called f acts') w₂ →
      w₂.sender.connectError = none := by
    intro w₁ w₂ f acts' hcall
    obtain ⟨f', acts'', -, hspec⟩ := World.called_of_steps hcall
    cases hspec with
    | delivered e he => rfl
    | refused f he hf => exact he
    | started g u he hsr => exact he
  cases h with
  | pending w₁ acts hpoll =>
      exact ((hinv.polled_of_step hpoll).connectError_of_pending).trans herr
  | refused w₁ w₂ acts acts' f hpoll hcall hf => exact hcalled hcall
  | started w₁ w₂ acts acts' i uri hpoll hcall => exact hcalled hcall

/-- What a step does that is not a poll of a waiting send. -/
structure Elsewhere (c : H3Client) (out : SendOutcome) (c' : H3Client) : Prop where
  channel : c'.channel = c.channel ∨
    ∃ ev, ev.isOutside = true ∧ c'.channel = (c.channel.step ev).1
  outcome : out = .quiet ∨ out = .pending ∨ ∃ p, out = .completed p
  send : ∀ i, c'.send = .calling i → c.send = .calling i

theorem Elsewhere.stay (c : H3Client) : Elsewhere c .quiet c :=
  ⟨.inl rfl, .inl rfl, fun _ h ↦ h⟩

theorem elsewhere_pollCalling (c : H3Client) (i : ℕ) :
    Elsewhere c (c.pollCalling i).2 (c.pollCalling i).1 := by
  unfold pollCalling
  split
  · split
    · exact ⟨.inl rfl, .inr (.inl rfl), fun _ h ↦ h⟩
    · exact ⟨.inl rfl, .inr (.inr ⟨_, rfl⟩), by simp⟩
  · exact .stay c

theorem elsewhere_dropCalling (c : H3Client) (i : ℕ) : Elsewhere c .quiet (c.dropCalling i) := by
  unfold dropCalling
  split
  · exact .stay c
  · exact ⟨.inr ⟨_, rfl, rfl⟩, .inl rfl, by simp⟩

theorem step_cases (hinv : c.channel.Inv) {ev : H3ClientEvent} (h : Steps c (ev, out) c') :
    (∃ req a, ev = .poll a ∧ c.send = .waiting req ∧ Waited c.channel req a out c') ∨
      Elsewhere c out c' := by
  have hstep : c.step ev = (c', out) := h
  obtain ⟨rfl, rfl⟩ : c' = (c.step ev).1 ∧ out = (c.step ev).2 := by simp [hstep]
  cases ev with
  | send req =>
      refine .inr ?_
      cases hsend : c.send with
      | none => exact ⟨.inl (by simp [step, hsend]), .inl (by simp [step, hsend]), by
          simp [step, hsend]⟩
      | _ => simpa [step, hsend] using Elsewhere.stay c
  | poll a =>
      cases hsend : c.send with
      | none => exact .inr (by simpa [step, hsend] using Elsewhere.stay c)
      | waiting req =>
          refine .inl ⟨req, a, rfl, rfl, ?_⟩
          simpa [step, hsend] using waited_of_pollWaiting hinv req a
      | calling i => exact .inr (by simpa [step, hsend] using c.elsewhere_pollCalling i)
  | drop =>
      refine .inr ?_
      cases hsend : c.send with
      | none => simpa [step, hsend] using Elsewhere.stay c
      | waiting req => exact ⟨.inl (by simp [step, hsend]), .inl (by simp [step, hsend]), by
          simp [step, hsend]⟩
      | calling i => simpa [step, hsend] using c.elsewhere_dropCalling i
  | driver g d => exact .inr ⟨.inr ⟨_, rfl, rfl⟩, .inl rfl, fun _ h ↦ h⟩
  | exchange i ev =>
      refine .inr ?_
      by_cases hdrop : ev = .dropFuture
      · subst hdrop
        exact .stay c
      · have heq : c.step (.exchange i ev) =
            ({ c with channel := (c.channel.step (.exchange i ev)).1 }, .quiet) := by
          cases ev <;> first | rfl | exact absurd rfl hdrop
        rw [heq]
        exact ⟨.inr ⟨_, rfl, rfl⟩, .inl rfl, fun _ h ↦ h⟩

/-- Between its steps the client is reachable as a sender, with no error left
behind. -/
theorem channel_of_reachable {uri : Uri} (h : Reachable Steps (new uri) c) :
    Reachable World.Steps (World.new uri) c.channel ∧ c.channel.sender.connectError = none := by
  refine h.invariant (I := fun d ↦ Reachable World.Steps (World.new uri) d.channel ∧
    d.channel.sender.connectError = none) ?_ ⟨.refl _, rfl⟩
  rintro d ⟨ev, o⟩ d' ⟨hreach, herr⟩ hstep
  have hinv := World.inv_of_reachable hreach
  rcases step_cases hinv hstep with ⟨req, a, -, -, hwaited⟩ | ⟨hsame | ⟨wev, hout, hchannel⟩, -, -⟩
  · exact ⟨hwaited.reachable hreach, hwaited.connectError_eq hinv herr⟩
  · rw [hsame]
    exact ⟨hreach, herr⟩
  · have hworld : World.Steps d.channel (wev, (d.channel.step wev).2) d'.channel := by
      rw [hchannel]
      rfl
    refine ⟨hreach.step hworld, ?_⟩
    rw [World.sender_of_steps hworld hout]
    exact herr

/-- A connect error is returned by the send that was polled when it came up. -/
theorem Waited.gives {w : World} (herr : w.sender.connectError = none)
    (h : Waited w req a out c') {e : Error} (hout : out = .refused (.connectError e)) :
    a.Gives (.ready (.error e)) := by
  cases h with
  | pending w₁ acts hpoll => cases hout
  | started w₁ w₂ acts acts' i uri hpoll hcall => cases hout
  | refused w₁ w₂ acts acts' f hpoll hcall hf =>
      obtain rfl : f = .connectError e := by simpa using hout
      obtain ⟨f', acts'', hcalled, hspec⟩ := World.called_of_steps hcall
      obtain ⟨rfl, rfl⟩ := Output.called.inj hcalled
      have hdeferred : w₁.sender.connectError = some e := by
        cases hspec with
        | delivered e he => exact he
        | refused f he hf => rcases hf with hf | hf | ⟨e, hf⟩ | ⟨hf, -⟩ <;> cases hf
      rcases (World.answered_of_steps hpoll).error with hsame | ⟨e', hgives, he'⟩
      · rw [hdeferred, herr] at hsame
        cases hsame
      · rw [hdeferred] at he'
        obtain rfl := Option.some.inj he'
        exact hgives

/-- An error the connect future yields is what the poll of the send returns. -/
theorem pollWaiting_of_error (req : Request) (hinv : c.channel.Inv)
    (herr : c.channel.sender.connectError = none)
    (hlost : ¬ c.channel.Alive) {e : Error} {fut' : ConnectFut}
    (hpoll : (c.channel.sender.makeSendRequestFut.getD .connecting).poll a =
      .ok (.ready (.error e), fut')) :
    (c.pollWaiting req a).2 = .refused (.connectError e) := by
  obtain ⟨w₀, acts₀, hfut, hgo⟩ := hinv.pollReady_of_not_alive herr hlost a
  rw [← hfut] at hpoll
  obtain ⟨w₁, acts, hconn, hdeferred⟩ := World.connect_of_error hpoll
  simp [pollWaiting, hgo _ _ _ hconn, World.call, hdeferred, afterCall]

theorem Waited.ne_notReady {w : World} (hinv : w.Inv) (h : Waited w req a out c') :
    out ≠ .refused .notReady := by
  rintro rfl
  cases h with
  | refused w₁ w₂ acts acts' f hpoll hcall hf =>
      obtain ⟨f', acts'', hcalled, hspec⟩ := World.called_of_steps hcall
      obtain ⟨rfl, rfl⟩ := Output.called.inj hcalled
      exact hspec.ne_notReady (hinv.polled_of_step hpoll).slot_of_ready.2 rfl

/-- The exchange a send starts is one on a connection found alive in this poll. -/
theorem Waited.started_alive {w : World} (hinv : w.Inv) (h : Waited w req a out c') {i : ℕ}
    (hsend : c'.send = .calling i) :
    ∃ g, c'.channel.exchanges[i]? = some (.new g c'.channel.sender.closing req.body) ∧
      c'.channel.driverRunning g = true ∧
      c'.channel.flagSet c'.channel.sender.closing = false := by
  cases h with
  | pending w₁ acts hpoll => cases hsend
  | refused w₁ w₂ acts acts' f hpoll hcall hf => cases hsend
  | started w₁ w₂ acts acts' j uri hpoll hcall =>
      cases hsend
      obtain ⟨f', acts'', hcalled, hspec⟩ := World.called_of_steps hcall
      obtain ⟨rfl, rfl⟩ := Output.called.inj hcalled
      have halive := (hinv.polled_of_step hpoll).alive hinv
      cases hspec with
      | refused f he hf => rcases hf with hf | hf | ⟨e, hf⟩ | ⟨hf, -⟩ <;> cases hf
      | started g uri he hsr =>
          obtain ⟨g', hsr', hrun, hset⟩ := halive.resolve_left (by simp [he])
          obtain rfl : g = g' := Option.some.inj (hsr.symm.trans hsr')
          exact ⟨g, by simp, hrun, hset⟩

end H3Client

open H3Client

/-- In every run of a client, with sends dropped at any await: no error is left
behind by a send, `poll_ready` neither fails nor panics, no send finds the
sender not ready, a connect error is the connector's answer in the poll that
returns it and is returned by the poll in which the connect future yields it,
and a request is sent on a connection found alive in that poll. -/
theorem h3_client_send [Http3] (uri : Uri) {c : H3Client}
    (h : Reachable H3Client.Steps (H3Client.new uri) c) :
    c.channel.sender.connectError = none ∧
    ∀ ev out c', H3Client.Steps c (ev, out) c' →
      (∀ e, out ≠ .notReady e) ∧ (∀ p, out ≠ .panicked p) ∧ out ≠ .refused .notReady ∧
      (∀ e, out = .refused (.connectError e) →
        ∃ a, ev = .poll a ∧ a.Gives (.ready (.error e))) ∧
      (∀ req i, c.send = .waiting req → c'.send = .calling i →
        ∃ g, c'.channel.exchanges[i]? = some (.new g c'.channel.sender.closing req.body) ∧
          c'.channel.driverRunning g = true ∧
          c'.channel.flagSet c'.channel.sender.closing = false) ∧
      (∀ req a e fut', c.send = .waiting req → ev = .poll a → ¬ c.channel.Alive →
        (c.channel.sender.makeSendRequestFut.getD .connecting).poll a =
          .ok (.ready (.error e), fut') →
        out = .refused (.connectError e)) := by
  obtain ⟨hreach, herr⟩ := channel_of_reachable h
  have hinv := World.inv_of_reachable hreach
  refine ⟨herr, ?_⟩
  intro ev out c' hstep
  have hforward : ∀ req a e fut', c.send = .waiting req → ev = .poll a → ¬ c.channel.Alive →
      (c.channel.sender.makeSendRequestFut.getD .connecting).poll a =
        .ok (.ready (.error e), fut') → out = .refused (.connectError e) := by
    rintro req a e fut' hsend rfl hlost hpoll
    have hout : (c.step (.poll a)).2 = out := congrArg Prod.snd hstep
    rw [← hout]
    simpa [step, hsend] using pollWaiting_of_error req hinv herr hlost hpoll
  rcases step_cases hinv hstep with ⟨req, a, rfl, hsend, hwaited⟩ | ⟨-, hout, hkept⟩
  · refine ⟨?_, ?_, hwaited.ne_notReady hinv, ?_, ?_, hforward⟩
    · rintro e rfl
      cases hwaited
    · rintro p rfl
      cases hwaited
    · intro e hrefused
      exact ⟨a, rfl, hwaited.gives herr hrefused⟩
    · intro req' i hsend' hcalling
      obtain rfl : req = req' := by simpa using hsend.symm.trans hsend'
      exact hwaited.started_alive hinv hcalling
  · refine ⟨?_, ?_, ?_, ?_, ?_, hforward⟩
    · rintro e rfl
      simp at hout
    · rintro p rfl
      simp at hout
    · rintro rfl
      simp at hout
    · rintro e rfl
      simp at hout
    · intro req i hsend hcalling
      rw [hkept i hcalling] at hsend
      cases hsend

/-- A send is dropped while it connects, and the attempt fails in the next one. -/
theorem h3_client_send_dropped :
    letI := documentedHttp3
    let c := exec H3Client.step (H3Client.new localUri)
      [.send emptyRequest, .poll ⟨.pending, .pending⟩, .drop, .send emptyRequest]
    let refused : ConnectAnswers := ⟨.ready (.error (.other "refused")), .pending⟩
    (c.step (.poll refused)).2 = .refused (.connectError (.other "refused")) ∧
      (c.step (.poll refused)).1.channel.sender.connectError = none ∧
      refused.Gives (.ready (.error (.other "refused"))) := by
  let _ := documentedHttp3
  intro c refused
  have hreach : Reachable H3Client.Steps (H3Client.new localUri) c := reachable_exec _ _ _
  have hstep : H3Client.Steps c (.poll refused, (c.step (.poll refused)).2)
      (c.step (.poll refused)).1 := rfl
  obtain ⟨-, -, -, hgives, -, hforward⟩ := (h3_client_send localUri hreach).2 _ _ _ hstep
  have hlost : ¬ c.channel.Alive := by
    rintro ⟨g, hsr, -⟩
    cases hsr
  have hrefused := hforward emptyRequest refused _ _ rfl rfl hlost rfl
  refine ⟨hrefused, (h3_client_send localUri (hreach.step hstep)).1, ?_⟩
  obtain ⟨a, ha, hgives⟩ := hgives _ hrefused
  obtain rfl : refused = a := by simpa using ha
  exact hgives

end TonicH3
