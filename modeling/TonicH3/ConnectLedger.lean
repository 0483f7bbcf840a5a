import TonicH3.SenderStates

/-!
# Accounting for connect attempts

Every event of the sender does to its fields what its actions do to the slot,
so the ledger of the slot holds for whole runs of the sender: attempts, senders
and connect errors are all accounted for, and a connect error that has been
deferred stays where it is until the next call returns it.
-/

namespace TonicH3

open EventRun

def Output.acts : Output → List SlotAction
  | .polled _ acts => acts
  | .called _ acts => acts
  | _ => []

def Output.returnedError : Output → List Error
  | .called (.connectError e) _ => [e]
  | _ => []

def Event.isPoll : Event → Bool
  | .pollReady _ => true
  | _ => false

namespace World

section Slot

variable {w w' : World} {r : PollReadyResult} {acts : List SlotAction}

theorem run_started (hsr : w.sender.sendRequest = none) (herr : w.sender.connectError = none) :
    Run Slot.Step w.sender.slot w.started .acquiring := by
  cases hfut : w.sender.makeSendRequestFut with
  | none =>
      have hidle : w.sender.slot = .idle := by simp [RequestSender.slot, hsr, herr, hfut]
      simpa [hidle, started, hfut] using Run.single Slot.Step.start
  | some fut =>
      have hacquiring : w.sender.slot = .acquiring := by
        simp [RequestSender.slot, hsr, herr, hfut]
      simpa [hacquiring, started, hfut] using Run.nil _

theorem started_delivered (w : World) : w.started.flatMap Slot.Action.delivered = [] := by
  unfold started
  split <;> rfl

theorem Connected.delivered_eq (h : Connected w w' r acts) :
    acts.flatMap Slot.Action.delivered = [] := by
  cases h <;> simp [started_delivered, Slot.Action.delivered]

theorem Polled.delivered_eq (h : Polled w w' r acts) :
    acts.flatMap Slot.Action.delivered = [] := by
  cases h with
  | deferred e hslot => rfl
  | cached g hslot hrun hset => rfl
  | connecting hslot hconn => exact hconn.delivered_eq
  | reconnecting g hslot hcause hconn => exact hconn.delivered_eq

theorem Called.delivered_eq {req : Request} {f : CallFuture} (h : Called w req w' f acts) :
    acts.flatMap Slot.Action.delivered = (Output.called f acts).returnedError := by
  cases h with
  | delivered e herr => rfl
  | started g uri herr hsr => rfl
  | refused f herr hf =>
      rcases hf with rfl | rfl | ⟨e, rfl⟩ | ⟨rfl, -⟩ <;> rfl

variable [Http3]

theorem onExchange_quiet {i : ℕ} {ev : ExchangeEvent} {out : Output}
    (h : w.onExchange i ev = (w', out)) : out.acts = [] ∧ out.returnedError = [] := by
  unfold onExchange at h
  split at h <;> obtain ⟨-, rfl⟩ := Prod.mk.inj h <;> exact ⟨rfl, rfl⟩

theorem Inv.slot_connected (hinv : w.Inv)
    (hslot : w.sender.slot = .idle ∨ w.sender.slot = .acquiring)
    (h : Connected w w' r acts) : Run Slot.Step w.sender.slot acts w'.sender.slot := by
  obtain ⟨hsr, hrx, herr⟩ := hinv.encodes_connecting hslot
  have hstart := run_started hsr herr
  cases h with
  | pending fut hne =>
      have hend : (w.setFut (some fut)).sender.slot = .acquiring := by
        simp [RequestSender.slot, setFut, hsr, herr]
      rw [hend]
      exact hstart
  | installed =>
      have hend : w.install.sender.slot = .held w.drivers.length := by
        simp [RequestSender.slot, install, herr]
      rw [hend]
      exact hstart.snoc (.acquire _)
  | deferred e =>
      have hend : (w.defer e).sender.slot = .failed e := by
        simp [RequestSender.slot, defer]
      rw [hend]
      exact hstart.snoc (.fail e)

theorem Inv.slot_polled (hinv : w.Inv) (h : Polled w w' r acts) :
    Run Slot.Step w.sender.slot acts w'.sender.slot := by
  cases h with
  | deferred e hslot => exact .nil _
  | cached g hslot hrun hset => exact .nil _
  | connecting hslot hconn => exact hinv.slot_connected hslot hconn
  | reconnecting g hslot hcause hconn =>
      obtain ⟨hretired, hidle⟩ := hinv.retireConnection hslot
      have hrest := hretired.slot_connected (.inl hidle) hconn
      rw [hidle] at hrest
      rw [hslot]
      exact .cons (.release g) hrest

theorem Inv.slot_taken (hinv : w.Inv) {e : Error} (herr : w.sender.connectError = some e) :
    w.sender.slot = .failed e ∧
      ({ w.sender with connectError := none } : RequestSender).slot = .idle := by
  have hslot : w.sender.slot = .failed e := by simp [RequestSender.slot, herr]
  have hex := hinv.exclusive
  rw [hslot] at hex
  obtain ⟨hsr, -, hfut, -⟩ := hex
  exact ⟨hslot, by simp [RequestSender.slot, hsr, hfut]⟩

theorem Inv.slot_called (hinv : w.Inv) {req : Request} {f : CallFuture}
    (h : Called w req w' f acts) : Run Slot.Step w.sender.slot acts w'.sender.slot := by
  cases h with
  | refused f herr hf => exact .nil _
  | started g uri herr hsr => exact .nil _
  | delivered e herr =>
      obtain ⟨hslot, hend⟩ := hinv.slot_taken herr
      rw [hslot, hend]
      exact .single (.deliver e)

theorem Inv.slot_steps (hinv : w.Inv) {l : Event × Output} (h : Steps w l w') :
    Run Slot.Step w.sender.slot l.2.acts w'.sender.slot := by
  obtain ⟨ev, out⟩ := l
  cases ev with
  | pollReady a =>
      obtain ⟨r, acts, rfl, hspec⟩ := hinv.polled_of_steps h
      exact hinv.slot_polled hspec
  | call req =>
      obtain ⟨f, acts, rfl, hspec⟩ := called_of_steps h
      exact hinv.slot_called hspec
  | driver g d =>
      rw [sender_of_steps h rfl]
      obtain ⟨-, rfl⟩ := Prod.mk.inj h
      exact .nil _
  | exchange i ev =>
      have hacts : out.acts = [] := (onExchange_quiet h).1
      rw [sender_of_steps h rfl, hacts]
      exact .nil _

/-- A run of the sender is a run of the slot. -/
theorem Inv.slot_of_run (hinv : w.Inv) {tr : List (Event × Output)} (h : Run Steps w tr w') :
    Run Slot.Step w.sender.slot (tr.flatMap fun l ↦ l.2.acts) w'.sender.slot :=
  (h.simulate (I := World.Inv) (g := fun v ↦ v.sender.slot) (f := fun l ↦ l.2.acts)
    (fun _ _ _ hI hstep ↦ ⟨inv_of_steps hI hstep, hI.slot_steps hstep⟩) hinv).2

theorem Inv.delivered_eq (hinv : w.Inv) {l : Event × Output} (h : Steps w l w') :
    l.2.acts.flatMap Slot.Action.delivered = l.2.returnedError := by
  obtain ⟨ev, out⟩ := l
  cases ev with
  | pollReady a =>
      obtain ⟨r, acts, rfl, hspec⟩ := hinv.polled_of_steps h
      exact hspec.delivered_eq
  | call req =>
      obtain ⟨f, acts, rfl, hspec⟩ := called_of_steps h
      exact hspec.delivered_eq
  | driver g d =>
      obtain ⟨-, rfl⟩ := Prod.mk.inj h
      rfl
  | exchange i ev =>
      obtain ⟨hacts, herror⟩ := onExchange_quiet h
      simp [hacts, herror]

theorem Inv.delivered_of_run (hinv : w.Inv) {tr : List (Event × Output)}
    (h : Run Steps w tr w') :
    (tr.flatMap fun l ↦ l.2.acts).flatMap Slot.Action.delivered =
      tr.flatMap fun l ↦ l.2.returnedError := by
  induction h with
  | nil s => rfl
  | cons hstep hrest ih =>
      simp only [List.flatMap_cons, List.flatMap_append]
      rw [hinv.delivered_eq hstep, ih (inv_of_steps hinv hstep)]

end Slot

/-! ## A deferred error, and the slot after it was returned -/

section Deferred

variable [Http3] {w w' : World}

/-- Until the next call a deferred error is neither lost nor overwritten, and
nothing happens to the slot. -/
theorem Inv.deferred_step (hinv : w.Inv) {e : Error} (herr : w.sender.connectError = some e)
    {l : Event × Output} (h : Steps w l w') (hcall : l.1.isCall = false) :
    w'.sender.connectError = some e ∧ l.2.acts = [] := by
  have hslot : w.sender.slot = .failed e := by simp [RequestSender.slot, herr]
  obtain ⟨ev, out⟩ := l
  cases ev with
  | call req => cases hcall
  | driver g d =>
      have hsame := sender_of_steps h rfl
      obtain ⟨-, rfl⟩ := Prod.mk.inj h
      exact ⟨(congrArg _ hsame).trans herr, rfl⟩
  | exchange i ev =>
      exact ⟨(congrArg _ (sender_of_steps h rfl)).trans herr, (onExchange_quiet h).1⟩
  | pollReady a =>
      obtain ⟨r, acts, rfl, hspec⟩ := hinv.polled_of_steps h
      cases hspec with
      | deferred e' hslot' => exact ⟨herr, rfl⟩
      | cached g hslot' hrun hset =>
          rw [hslot] at hslot'
          cases hslot'
      | connecting hslot' hconn =>
          rw [hslot] at hslot'
          rcases hslot' with hslot' | hslot' <;> cases hslot'
      | reconnecting g hslot' hcause hconn =>
          rw [hslot] at hslot'
          cases hslot'

theorem Inv.deferred_of_run (hinv : w.Inv) {e : Error} (herr : w.sender.connectError = some e)
    {tr : List (Event × Output)} (h : Run Steps w tr w')
    (hcall : ∀ l ∈ tr, l.1.isCall = false) :
    w'.sender.connectError = some e ∧ ∀ l ∈ tr, l.2.acts = [] := by
  induction h with
  | nil s => exact ⟨herr, by simp⟩
  | cons hstep hrest ih =>
      obtain ⟨herr', hacts⟩ := hinv.deferred_step herr hstep (hcall _ (by simp))
      obtain ⟨hend, htail⟩ := ih (inv_of_steps hinv hstep) herr'
        (fun l hl ↦ hcall l (List.mem_cons_of_mem _ hl))
      refine ⟨hend, ?_⟩
      intro l hl
      rcases List.mem_cons.mp hl with rfl | hl
      · exact hacts
      · exact htail l hl

theorem Inv.idle_step (hinv : w.Inv) (hidle : w.sender.slot = .idle) {l : Event × Output}
    (h : Steps w l w') (hpoll : l.1.isPoll = false) : w'.sender.slot = .idle := by
  obtain ⟨ev, out⟩ := l
  have hex := hinv.exclusive
  rw [hidle] at hex
  obtain ⟨hsr, -, -, herr⟩ := hex
  cases ev with
  | pollReady a => cases hpoll
  | driver g d => exact (congrArg _ (sender_of_steps h rfl)).trans hidle
  | exchange i ev => exact (congrArg _ (sender_of_steps h rfl)).trans hidle
  | call req =>
      obtain ⟨f, acts, -, hspec⟩ := called_of_steps h
      cases hspec with
      | delivered e herr' =>
          rw [herr] at herr'
          cases herr'
      | refused f herr' hf => exact hidle
      | started g uri herr' hsr' =>
          rw [hsr] at hsr'
          cases hsr'

theorem Inv.idle_of_run (hinv : w.Inv) (hidle : w.sender.slot = .idle)
    {tr : List (Event × Output)} (h : Run Steps w tr w')
    (hpoll : ∀ l ∈ tr, l.1.isPoll = false) : w'.Inv ∧ w'.sender.slot = .idle :=
  h.invariant_given (P := fun l ↦ l.1.isPoll = false) (J := World.Inv)
    (I := fun v ↦ v.sender.slot = .idle) (fun _ _ _ hI hstep ↦ inv_of_steps hI hstep)
    (fun _ _ _ hl hI hs hstep ↦ hI.idle_step hs hstep hl) hpoll hinv hidle

theorem Inv.start_of_idle (hinv : w.Inv) (hidle : w.sender.slot = .idle)
    {r : PollReadyResult} {acts : List SlotAction} (h : Polled w w' r acts) : .start ∈ acts := by
  have hex := hinv.exclusive
  rw [hidle] at hex
  obtain ⟨-, -, hfut, -⟩ := hex
  have hstarted : w.started = [.start] := by simp [started, hfut]
  cases h with
  | deferred e hslot =>
      rw [hidle] at hslot
      cases hslot
  | cached g hslot hrun hset =>
      rw [hidle] at hslot
      cases hslot
  | reconnecting g hslot hcause hconn =>
      rw [hidle] at hslot
      cases hslot
  | connecting hslot hconn => cases hconn <;> simp [hstarted]

omit [Http3] in
theorem Connected.fut_of_start {r : PollReadyResult} {acts : List SlotAction}
    (h : Connected w w' r acts) (hstart : .start ∈ acts) :
    w.sender.makeSendRequestFut = none := by
  have hmem : .start ∈ w.started := by
    cases h with
    | pending fut hne => exact hstart
    | installed => simpa using hstart
    | deferred e => simpa using hstart
  unfold started at hmem
  split at hmem
  · next hnone => simpa using hnone
  · cases hmem

theorem Inv.resolved_of_start (hinv : w.Inv) {l : Event × Output} (h : Steps w l w')
    (hstart : .start ∈ l.2.acts) :
    w.sender.makeSendRequestFut = none ∧ w.sender.connectError = none := by
  obtain ⟨ev, out⟩ := l
  cases ev with
  | driver g d =>
      obtain ⟨-, rfl⟩ := Prod.mk.inj h
      cases hstart
  | exchange i ev =>
      have hacts : out.acts = [] := (onExchange_quiet h).1
      simp [hacts] at hstart
  | call req =>
      obtain ⟨f, acts, rfl, hspec⟩ := called_of_steps h
      cases hspec <;> simp [Output.acts] at hstart
  | pollReady a =>
      obtain ⟨r, acts, rfl, hspec⟩ := hinv.polled_of_steps h
      have hex := hinv.exclusive
      cases hspec with
      | deferred e hslot => cases hstart
      | cached g hslot hrun hset => cases hstart
      | connecting hslot hconn =>
          exact ⟨hconn.fut_of_start hstart, (hinv.encodes_connecting hslot).2.2⟩
      | reconnecting g hslot hcause hconn =>
          rw [hslot] at hex
          exact ⟨hex.2.2.1, hex.2.2.2⟩

theorem Inv.slot_fields (hinv : w.Inv) :
    w.sender.slot.pending.length = (if w.sender.makeSendRequestFut.isSome then 1 else 0) ∧
      w.sender.slot.resource = w.sender.sendRequest.toList ∧
      w.sender.slot.error = w.sender.connectError.toList := by
  have hex := hinv.exclusive
  cases hslot : w.sender.slot with
  | idle =>
      rw [hslot] at hex
      obtain ⟨hsr, -, hfut, herr⟩ := hex
      simp [Slot.State.pending, Slot.State.resource, Slot.State.error, hsr, hfut, herr]
  | acquiring =>
      rw [hslot] at hex
      obtain ⟨hsr, -, ⟨fut, hfut, -⟩, herr⟩ := hex
      simp [Slot.State.pending, Slot.State.resource, Slot.State.error, hsr, hfut, herr]
  | held g =>
      rw [hslot] at hex
      obtain ⟨hsr, -, hfut, herr⟩ := hex
      simp [Slot.State.pending, Slot.State.resource, Slot.State.error, hsr, hfut, herr]
  | failed e =>
      rw [hslot] at hex
      obtain ⟨hsr, -, hfut, herr⟩ := hex
      simp [Slot.State.pending, Slot.State.resource, Slot.State.error, hsr, hfut, herr]

end Deferred

end World

open World

/-- The books of every run.  Attempts started are resolved or in progress,
senders installed are retired or cached, and the connect errors are exactly
those that calls have returned, in order, and the one still deferred.  A
deferred error survives every event but a call, no attempt is started
meanwhile, and the next call returns it; `poll_ready` itself never fails, and
the first one after that call starts a fresh attempt. -/
theorem connect_accounting [Http3] (uri : Uri) {tr : List (Event × Output)} {w : World}
    (h : Run Steps (World.new uri) tr w) :
    let acts := tr.flatMap fun l ↦ l.2.acts
    (acts.flatMap Slot.Action.started).length = (acts.flatMap Slot.Action.acquired).length +
      (acts.flatMap Slot.Action.failed).length +
      (if w.sender.makeSendRequestFut.isSome then 1 else 0) ∧
    acts.flatMap Slot.Action.acquired =
      acts.flatMap Slot.Action.released ++ w.sender.sendRequest.toList ∧
    acts.flatMap Slot.Action.failed =
      (tr.flatMap fun l ↦ l.2.returnedError) ++ w.sender.connectError.toList ∧
    (∀ a r acts', (w.step (.pollReady a)).2 = .polled r acts' → ∀ e, r ≠ .ready (.error e)) ∧
    (∀ ev w' out, w.step ev = (w', out) → .start ∈ out.acts →
      w.sender.makeSendRequestFut = none ∧ w.sender.connectError = none) ∧
    (∀ e, w.sender.connectError = some e → ∀ tr' w', Run Steps w tr' w' →
      (∀ l ∈ tr', l.1.isCall = false) →
      w'.sender.connectError = some e ∧ (∀ l ∈ tr', l.2.acts = []) ∧
        ∀ req, (w'.step (.call req)).2 = .called (.connectError e) [.deliver e]) ∧
    (∀ req w₁ e acts', w.step (.call req) = (w₁, .called (.connectError e) acts') →
      ∀ tr' w₂, Run Steps w₁ tr' w₂ → (∀ l ∈ tr', l.1.isPoll = false) →
      ∀ a, ∃ r acts', (w₂.step (.pollReady a)).2 = .polled r acts' ∧ .start ∈ acts') := by
  intro acts
  have hinv := inv_of_run (inv_new uri) h
  have hslot : Run Slot.Step .idle acts w.sender.slot := (inv_new uri).slot_of_run h
  obtain ⟨hpending, hresource, herror⟩ := hinv.slot_fields
  refine ⟨?_, ?_, ?_, ?_, ?_, ?_, ?_⟩
  · rw [← hpending]
    exact Slot.started_eq hslot
  · rw [← hresource]
    exact Slot.acquired_eq hslot
  · rw [← herror, ← (inv_new uri).delivered_of_run h]
    exact Slot.failed_eq hslot
  · rintro a r acts' hout e rfl
    have hspec := hinv.polled_of_step (Prod.ext rfl hout)
    have hok := hspec.slot_of_ready.1
    cases hok
  · intro ev w' out hstep hstart
    exact hinv.resolved_of_start (l := (ev, out)) hstep hstart
  · intro e herr tr' w' hrun hcall
    obtain ⟨hend, hacts⟩ := hinv.deferred_of_run herr hrun hcall
    refine ⟨hend, hacts, ?_⟩
    intro req
    simp [World.step, World.call, hend]
  · intro req w₁ e acts' hcall tr' w₂ hrun hpoll a
    have hinv₁ := inv_of_steps (l := (.call req, _)) hinv hcall
    obtain ⟨f, acts'', hout, hspec⟩ := called_of_steps hcall
    have hidle : w₁.sender.slot = .idle := by
      obtain ⟨rfl, rfl⟩ := Output.called.inj hout
      cases hspec with
      | delivered e herr => exact (hinv.slot_taken herr).2
      | refused f herr hf =>
          rcases hf with hf | hf | ⟨e, hf⟩ | ⟨hf, -⟩ <;> cases hf
    obtain ⟨hinv₂, hidle₂⟩ := hinv₁.idle_of_run hidle hrun hpoll
    obtain ⟨r, acts₂, hout₂, hspec₂⟩ := hinv₂.step_pollReady a
    exact ⟨r, acts₂, hout₂, hinv₂.start_of_idle hidle₂ hspec₂⟩

theorem connect_accounting_refused :
    letI := documentedHttp3
    let w := exec World.step (World.new localUri)
      [.pollReady ⟨.ready (.error (.other "refused")), .pending⟩]
    ((w.step (.pollReady connects)).1.step (.call ⟨localUri, ⟨[], .done⟩⟩)).2 =
      .called (.connectError (.other "refused")) [.deliver (.other "refused")] := by
  let _ := documentedHttp3
  intro w
  have hspec := connect_accounting localUri
    (run_exec World.step _ [.pollReady ⟨.ready (.error (.other "refused")), .pending⟩])
  have hkept := hspec.2.2.2.2.2.1 _ rfl _ _ (run_exec World.step w [.pollReady connects])
    (by simp [labels, Event.isCall])
  exact hkept.2.2 _

end TonicH3
