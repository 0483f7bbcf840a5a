import TonicH3.ClientUri
import TonicH3.ConnectLedger
import TonicH3.Generations

/-!
# How often the sender connects, and how it recovers

`poll_ready` is called as often as the caller likes.  Attempts to connect are
paid for by what happened to earlier ones: an error that a call has returned,
or a connection that was lost, because its driver ended or because a request
of its own reported that it is closing.  Once the connector does not fail any
more, no request fails for want of a connection, except for the one that is
told about the last failure.
-/

namespace TonicH3

open EventRun

namespace World

section Lost

variable [Http3] {w w' : World}

/-- The connection has gone: its driver is over, or one of its exchanges has
reported it as closing. -/
def lost (w : World) (g : Conn) : Bool :=
  !w.driverRunning g || w.exchanges.any fun x ↦ x.conn == g && x.phase.reported

theorem lost_iff {g : Conn} : w.lost g = true ↔
    w.driverRunning g = false ∨ ∃ x ∈ w.exchanges, x.conn = g ∧ x.phase.reported = true := by
  simp [lost]

theorem Inv.lost_step (hinv : w.Inv) {l : Event × Output} (h : Steps w l w') {g : Conn}
    (hg : g < w.drivers.length) (hlost : w.lost g = true) : w'.lost g = true := by
  have hlater := hinv.later_step l.1
  rw [h] at hlater
  rcases lost_iff.mp hlost with hrun | ⟨x, hx, hconn, hrep⟩
  · exact lost_iff.mpr (.inl (hlater.stopped g hg hrun))
  · obtain ⟨y, hy, hyconn, hyrep⟩ := hinv.reported_step h hx hrep
    exact lost_iff.mpr (.inr ⟨y, hy, hyconn.trans hconn, hyrep⟩)

/-- Every connection is cached or lost. -/
def CachedOrLost (w : World) : Prop :=
  ∀ g < w.drivers.length, w.sender.sendRequest = some g ∨ w.lost g = true

omit [Http3] in
theorem Connected.drivers_eq {r : PollReadyResult} {acts : List SlotAction}
    (h : Connected w w' r acts) :
    (w'.drivers.length = w.drivers.length ∧ w'.sender.sendRequest = w.sender.sendRequest ∧
        acts.flatMap Slot.Action.acquired = []) ∨
      (w'.drivers.length = w.drivers.length + 1 ∧
        w'.sender.sendRequest = some w.drivers.length ∧
        acts.flatMap Slot.Action.acquired = [w.drivers.length]) := by
  have hstarted : w.started.flatMap Slot.Action.acquired = [] := by
    unfold started
    split <;> rfl
  cases h with
  | pending fut hne => exact .inl ⟨rfl, rfl, hstarted⟩
  | installed =>
      refine .inr ⟨by simp [install], rfl, ?_⟩
      simp [hstarted, Slot.Action.acquired]
  | deferred e =>
      refine .inl ⟨rfl, rfl, ?_⟩
      simp [hstarted, Slot.Action.acquired]

/-- A step opens at most one connection, which is the next number and the one
that is cached. -/
theorem Inv.opened_step (hinv : w.Inv) {l : Event × Output} (h : Steps w l w') :
    (w'.drivers.length = w.drivers.length ∧ l.2.acts.flatMap Slot.Action.acquired = []) ∨
      (w'.drivers.length = w.drivers.length + 1 ∧
        w'.sender.sendRequest = some w.drivers.length ∧
        l.2.acts.flatMap Slot.Action.acquired = [w.drivers.length]) := by
  have hopened : ∀ {v : World} {r acts}, v.drivers.length = w.drivers.length →
      Connected v w' r acts →
      (w'.drivers.length = w.drivers.length ∧ acts.flatMap Slot.Action.acquired = []) ∨
        (w'.drivers.length = w.drivers.length + 1 ∧
          w'.sender.sendRequest = some w.drivers.length ∧
          acts.flatMap Slot.Action.acquired = [w.drivers.length]) := by
    intro v r acts hv hconn
    rcases hconn.drivers_eq with ⟨hlen, -, hacts⟩ | hnew
    · exact .inl ⟨hlen.trans hv, hacts⟩
    · rw [hv] at hnew
      exact .inr hnew
  obtain ⟨ev, out⟩ := l
  cases ev with
  | pollReady a =>
      obtain ⟨r, acts, rfl, hspec⟩ := hinv.polled_of_steps h
      cases hspec with
      | deferred e hslot => exact .inl ⟨rfl, rfl⟩
      | cached g hslot hrun hset => exact .inl ⟨rfl, rfl⟩
      | connecting hslot hconn => exact hopened rfl hconn
      | reconnecting g hslot hcause hconn =>
          have hnew := hopened (v := w.retireConnection.1) rfl hconn
          simpa [Output.acts, Slot.Action.acquired] using hnew
  | call req =>
      obtain ⟨f, acts, rfl, hspec⟩ := called_of_steps h
      cases hspec <;> exact .inl ⟨rfl, rfl⟩
  | driver g d =>
      obtain ⟨rfl, rfl⟩ := Prod.mk.inj h
      refine .inl ⟨?_, rfl⟩
      simp only [World.onDriver]
      split <;> simp
  | exchange i ev =>
      have hdrivers : w'.drivers = w.drivers := by
        rw [← exchange_drivers w i ev]
        exact congrArg (fun res ↦ res.1.drivers) h.symm
      refine .inl ⟨by rw [hdrivers], ?_⟩
      have hacts : out.acts = [] := (onExchange_quiet h).1
      simp [hacts]

/-- A sender leaves the cache only when its connection is lost. -/
theorem Inv.cached_step (hinv : w.Inv) {l : Event × Output} (h : Steps w l w') {g : Conn}
    (hsr : w.sender.sendRequest = some g) :
    w'.sender.sendRequest = some g ∨ w'.lost g = true := by
  obtain ⟨ev, out⟩ := l
  cases ev with
  | driver g' d => exact .inl ((congrArg _ (sender_of_steps h rfl)).trans hsr)
  | exchange i ev => exact .inl ((congrArg _ (sender_of_steps h rfl)).trans hsr)
  | call req =>
      obtain ⟨f, acts, -, hspec⟩ := called_of_steps h
      cases hspec <;> exact .inl hsr
  | pollReady a =>
      obtain ⟨r, acts, -, hspec⟩ := hinv.polled_of_steps h
      have hg : g < w.drivers.length := Nat.le_of_eq (hinv.conn_last g hsr)
      rcases hinv.polled_held hsr hspec with ⟨rfl, -, -⟩ | hrun | hset
      · exact .inl hsr
      · exact .inr (hinv.lost_step h hg (lost_iff.mpr (.inl hrun)))
      · exact .inr (hinv.lost_step h hg (lost_iff.mpr (.inr (hinv.cause_of_flagSet hsr hset))))

theorem Inv.cachedOrLost_step (hinv : w.Inv) (hcl : w.CachedOrLost) {l : Event × Output}
    (h : Steps w l w') : w'.CachedOrLost := by
  intro g hg
  by_cases hold : g < w.drivers.length
  · rcases hcl g hold with hsr | hlost
    · exact hinv.cached_step h hsr
    · exact .inr (hinv.lost_step h hold hlost)
  · rcases hinv.opened_step h with ⟨hlen, -⟩ | ⟨hlen, hsr, -⟩
    · omega
    · have heq : g = w.drivers.length := by omega
      rw [heq]
      exact .inl hsr

/-- The connections of a run, in the order in which they were opened. -/
theorem connections_of_run {uri : Uri} {tr : List (Event × Output)}
    (h : Run Steps (new uri) tr w) :
    w.Inv ∧ w.CachedOrLost ∧
      (tr.flatMap fun l ↦ l.2.acts).flatMap Slot.Action.acquired =
        List.range w.drivers.length := by
  refine h.history (I := fun tr s ↦ s.Inv ∧ s.CachedOrLost ∧
    (tr.flatMap fun l ↦ l.2.acts).flatMap Slot.Action.acquired = List.range s.drivers.length)
    ?_ ⟨inv_new uri, by simp [CachedOrLost, new], rfl⟩
  rintro tr s l t ⟨hinv, hcl, hrange⟩ hstep
  refine ⟨inv_of_steps hinv hstep, hinv.cachedOrLost_step hcl hstep, ?_⟩
  have hacts : ((tr ++ [l]).flatMap fun l ↦ l.2.acts).flatMap Slot.Action.acquired =
      List.range s.drivers.length ++ l.2.acts.flatMap Slot.Action.acquired := by
    simp [hrange]
  rcases hinv.opened_step hstep with ⟨hlen, hnone⟩ | ⟨hlen, -, hone⟩
  · rw [hacts, hnone, hlen, List.append_nil]
  · rw [hacts, hone, hlen, List.range_succ]

def lostConnections (w : World) : List Conn := (List.range w.drivers.length).filter w.lost

theorem CachedOrLost.length_le (h : w.CachedOrLost) :
    w.drivers.length ≤ w.lostConnections.length + w.sender.sendRequest.toList.length := by
  have hnodup : ((List.range w.drivers.length).filter (! w.lost ·)).Nodup :=
    List.nodup_range.filter _
  have hsubset : (List.range w.drivers.length).filter (! w.lost ·) ⊆
      w.sender.sendRequest.toList := by
    intro g hg
    obtain ⟨hmem, hkept⟩ := List.mem_filter.mp hg
    rcases h g (List.mem_range.mp hmem) with hsr | hlost
    · simp [hsr]
    · simp [hlost] at hkept
  calc
    w.drivers.length = (List.range w.drivers.length).length := List.length_range.symm
    _ = w.lostConnections.length +
          ((List.range w.drivers.length).filter (! w.lost ·)).length :=
        List.length_eq_length_filter_add w.lost
    _ ≤ w.lostConnections.length + w.sender.sendRequest.toList.length :=
        Nat.add_le_add_left (hnodup.length_le_of_subset hsubset) _

end Lost

end World

/-- What the connector and the handshake have to answer for a poll of the
connect future to have the given result. -/
def ConnectAnswers.Gives (a : ConnectAnswers) : PollReadyResult → Prop
  | .pending => a.connect = .pending ∨ a.handshake = .pending
  | .ready (.ok _) => True
  | .ready (.error e) => a.connect = .ready (.error e) ∨ a.handshake = .ready (.error e)

theorem ConnectFut.gives_pollHandshake (a : ConnectAnswers) :
    a.Gives (ConnectFut.pollHandshake a).1 := by
  unfold ConnectFut.pollHandshake
  split
  · next hans => exact .inr hans
  · next res hans =>
      cases res with
      | ok u => trivial
      | error e => exact .inr hans

theorem ConnectFut.gives_of_poll {a : ConnectAnswers} {fut fut' : ConnectFut}
    {r : PollReadyResult} (h : fut.poll a = .ok (r, fut')) : a.Gives r := by
  have hhandshake : ConnectFut.pollHandshake a = (r, fut') → a.Gives r := by
    intro hres
    have hgives := ConnectFut.gives_pollHandshake a
    rwa [hres] at hgives
  cases fut with
  | complete => cases h
  | handshaking => exact hhandshake (Except.ok.inj h)
  | connecting =>
      simp only [ConnectFut.poll] at h
      split at h
      · next hans =>
          obtain ⟨rfl, -⟩ := Prod.mk.inj (Except.ok.inj h)
          exact .inl hans
      · next e hans =>
          obtain ⟨rfl, -⟩ := Prod.mk.inj (Except.ok.inj h)
          exact .inl hans
      · exact hhandshake (Except.ok.inj h)

namespace World

/-- A pending poll, and a newly deferred error, come from the answers given
during this poll. -/
structure Answered (a : ConnectAnswers) (w w' : World) (r : PollReadyResult) : Prop where
  pending : r = .pending → a.Gives .pending
  error : w'.sender.connectError = w.sender.connectError ∨
    ∃ e, a.Gives (.ready (.error e)) ∧ w'.sender.connectError = some e

section Answered

variable {a : ConnectAnswers} {w w' : World} {r : PollReadyResult} {acts : List SlotAction}

theorem answered_connect (h : w.connect a = .ok (w', r, acts)) : Answered a w w' r := by
  have hstart : w.startConnect.1.sender.connectError = w.sender.connectError := by
    unfold startConnect
    split <;> rfl
  unfold connect at h
  dsimp only at h
  split at h
  · cases h
  · split at h
    · cases h
    · next res fut hpoll =>
        have hgives := ConnectFut.gives_of_poll hpoll
        obtain ⟨rfl, rfl, -⟩ := by simpa using h
        rcases res with _ | e | u
        · exact ⟨fun _ ↦ hgives, .inl hstart⟩
        · exact ⟨fun hr ↦ (by cases hr), .inr ⟨e, hgives, rfl⟩⟩
        · exact ⟨fun hr ↦ (by cases hr), .inl hstart⟩

theorem answered_readiness (h : w.readiness a = .ok (w', r, acts)) : Answered a w w' r := by
  unfold readiness at h
  split at h
  · obtain ⟨rfl, rfl, -⟩ := by simpa using h
    exact ⟨fun hr ↦ (by cases hr), .inl rfl⟩
  · split at h
    · split at h
      · cases h
      · split at h
        · cases h
        · obtain ⟨rfl, rfl, -⟩ := by simpa using h
          exact ⟨fun hr ↦ (by cases hr), .inl rfl⟩
    · exact answered_connect h

theorem answered_pollReady (h : w.pollReady a = .ok (w', r, acts)) : Answered a w w' r := by
  have hdriver : w.checkDriver.1.sender.connectError = w.sender.connectError := by
    unfold checkDriver
    split
    · split <;> rfl
    · rfl
  have hclosing : w.checkDriver.1.checkClosing.1.sender.connectError =
      w.sender.connectError := by
    rw [← hdriver]
    unfold checkClosing
    split <;> rfl
  unfold pollReady at h
  dsimp only at h
  split at h
  · cases h
  · next hready =>
      obtain ⟨rfl, rfl, -⟩ := by simpa using h
      obtain ⟨hpending, herror⟩ := answered_readiness hready
      rw [hclosing] at herror
      exact ⟨hpending, herror⟩

theorem answered_of_steps [Http3] (h : Steps w (.pollReady a, .polled r acts) w') :
    Answered a w w' r := by
  have hstep : w.step (.pollReady a) = (w', .polled r acts) := h
  simp only [step] at hstep
  split at hstep
  · cases hstep
  · next hpoll =>
      obtain ⟨rfl, hout⟩ := Prod.mk.inj hstep
      obtain ⟨rfl, -⟩ := Output.polled.inj hout
      exact answered_pollReady hpoll

end Answered

end World

open World

/-- However often `poll_ready` is polled, attempts to connect are at most one
more than the connect errors that calls have returned and the connections that
have been lost. -/
theorem connect_attempts_bounded [Http3] (uri : Uri) {tr : List (Event × Output)} {w : World}
    (h : Run Steps (World.new uri) tr w) :
    ((tr.flatMap fun l ↦ l.2.acts).flatMap Slot.Action.started).length ≤
      1 + (tr.flatMap fun l ↦ l.2.returnedError).length + w.lostConnections.length := by
  obtain ⟨hinv, hcl, hacquired⟩ := connections_of_run h
  have hslot : Run Slot.Step .idle (tr.flatMap fun l ↦ l.2.acts) w.sender.slot :=
    (inv_new uri).slot_of_run h
  have hstarted := Slot.started_eq hslot
  have hfailed := congrArg List.length (Slot.failed_eq hslot)
  rw [List.length_append, (inv_new uri).delivered_of_run h] at hfailed
  rw [hacquired, List.length_range] at hstarted
  have hconns := hcl.length_le
  rw [← hinv.slot_fields.2.1] at hconns
  -- the slot is in one state at a time
  have hone : w.sender.slot.pending.length + w.sender.slot.resource.length +
      w.sender.slot.error.length ≤ 1 := by
    cases w.sender.slot <;> simp [Slot.State.pending, Slot.State.resource, Slot.State.error]
  omega

/-- Two polls of a connector that fails, with no call in between, and one after
the call: two attempts for one returned error. -/
theorem connect_attempts_bounded_refused :
    letI := documentedHttp3
    let refused : ConnectAnswers := ⟨.ready (.error (.other "refused")), .pending⟩
    let tr := labels World.step (World.new localUri)
      [.pollReady refused, .pollReady refused, .call emptyRequest, .pollReady refused]
    ((tr.flatMap fun l ↦ l.2.acts).flatMap Slot.Action.started).length = 2 ∧
      ((tr.flatMap fun l ↦ l.2.acts).flatMap Slot.Action.started).length ≤
        1 + (tr.flatMap fun l ↦ l.2.returnedError).length + 0 := by
  let _ := documentedHttp3
  intro refused tr
  exact ⟨rfl, connect_attempts_bounded localUri (run_exec World.step _ _)⟩

/-! ## Recovery -/

def Output.isReady : Output → Bool
  | .polled (.ready (.ok _)) _ => true
  | _ => false

def Output.calls : Output → List CallFuture
  | .called f _ => [f]
  | _ => []

def readyNext (ready : Bool) : Event × Output → Bool
  | (.pollReady _, out) => out.isReady
  | (.call _, _) => false
  | _ => ready

/-- The contract of `tower::Service`: every call spends one ready `poll_ready`. -/
def FollowsContract : Bool → List (Event × Output) → Prop
  | _, [] => True
  | ready, l :: tr => (l.1.isCall = true → ready = true) ∧ FollowsContract (readyNext ready l) tr

/-- The connector makes progress or waits, but does not fail. -/
def Event.Healthy : Event → Prop
  | .pollReady a => ∀ e, ¬ a.Gives (.ready (.error e))
  | _ => True

section Recovery

variable [Http3] {w w' : World} {l : Event × Output}

/-- The calls of a run, from a state with the given deferred error, under a
connector that does not fail: only the first of them can be answered with the
error. -/
def Recovers (deferred : Option Error) (calls : List CallFuture) : Prop :=
  ∃ fs, (∀ f ∈ fs, ∃ i uri, f = CallFuture.started i uri) ∧
    (calls = fs ∨ ∃ e, deferred = some e ∧ calls = .connectError e :: fs)

omit [Http3] in
theorem CallFuture.started_of_error {f : CallFuture} (h : f.error = none) :
    ∃ i uri, f = .started i uri := by
  cases f with
  | started i uri => exact ⟨i, uri, rfl⟩
  | _ => cases h

theorem World.connectError_of_healthy (hinv : w.Inv) (hhealthy : l.1.Healthy)
    (hcall : l.1.isCall = false) (h : Steps w l w') :
    w'.sender.connectError = w.sender.connectError := by
  obtain ⟨ev, out⟩ := l
  cases ev with
  | call req => cases hcall
  | driver g d => exact congrArg _ (sender_of_steps h rfl)
  | exchange i ev => exact congrArg _ (sender_of_steps h rfl)
  | pollReady a =>
      obtain ⟨r, acts, rfl, -⟩ := hinv.polled_of_steps h
      rcases (answered_of_steps h).error with hsame | ⟨e, hgives, -⟩
      · exact hsame
      · exact absurd hgives (hhealthy e)

omit [Http3] in
theorem Recovers.started {calls : List CallFuture} (h : Recovers none calls) {f : CallFuture}
    (hf : ∃ i uri, f = .started i uri) (deferred : Option Error) :
    Recovers deferred (f :: calls) := by
  obtain ⟨fs, hfs, hcalls⟩ := h
  obtain rfl : calls = fs := by simpa using hcalls
  refine ⟨f :: calls, ?_, .inl rfl⟩
  intro f' hf'
  rcases List.mem_cons.mp hf' with rfl | hf'
  · exact hf
  · exact hfs f' hf'

omit [Http3] in
theorem Recovers.delivered {calls : List CallFuture} (h : Recovers none calls) (e : Error) :
    Recovers (some e) (.connectError e :: calls) := by
  obtain ⟨fs, hfs, hcalls⟩ := h
  obtain rfl : calls = fs := by simpa using hcalls
  exact ⟨calls, hfs, .inr ⟨e, rfl, rfl⟩⟩

variable {uri : Uri} {scheme authority : String}

theorem World.call_recovers (hreach : Reachable Steps (World.new uri) w)
    (hbuild : ∀ s a p, Http3.buildUri s a p = .ok ⟨some s, some a, some p⟩)
    (hscheme : uri.scheme = some scheme) (hauth : uri.authority = some authority)
    (hready : w.sender.connectError.isSome ∨ w.sender.sendRequest.isSome) (req : Request)
    {calls : List CallFuture}
    (h : Recovers (w.call req).1.sender.connectError calls) :
    Recovers w.sender.connectError ((w.call req).2.1 :: calls) := by
  have hbase := base_of_reachable hreach
  rw [World.base, hscheme, hauth] at hbase
  obtain ⟨hbs, hba⟩ := Prod.mk.inj hbase
  cases herr : w.sender.connectError with
  | some e =>
      have hcall : w.call req = ({ w with sender := { w.sender with connectError := none } },
          .connectError e, [.deliver e]) := by
        simp [World.call, herr]
      rw [hcall] at h ⊢
      exact h.delivered e
  | none =>
      have hsr : w.sender.sendRequest.isSome := by simpa [herr] using hready
      have herror := ((call_of_base req hbuild hbs hba).1).mpr ⟨herr, hsr⟩
      have hsame : (w.call req).1.sender.connectError = none := by
        generalize hres : w.call req = res
        have hspec := w.call_spec req
        rw [hres] at hspec
        obtain ⟨v, f, acts⟩ := res
        cases hspec with
        | delivered e' herr' => rfl
        | refused f herr' hf => exact herr
        | started g u herr' hg => exact herr
      rw [hsame] at h
      exact h.started (CallFuture.started_of_error herror) none

theorem World.ready_step (hinv : w.Inv) (h : Steps w l w') {ready : Bool}
    (hready : ready = true → w.sender.connectError.isSome ∨ w.sender.sendRequest.isSome)
    (hnext : readyNext ready l = true) :
    w'.sender.connectError.isSome ∨ w'.sender.sendRequest.isSome := by
  obtain ⟨ev, out⟩ := l
  cases ev with
  | call req => cases hnext
  | driver g d =>
      rw [sender_of_steps h rfl]
      exact hready hnext
  | exchange i ev =>
      rw [sender_of_steps h rfl]
      exact hready hnext
  | pollReady a =>
      obtain ⟨r, acts, rfl, hspec⟩ := hinv.polled_of_steps h
      cases r with
      | pending => cases hnext
      | ready res => exact hspec.slot_of_ready.2

theorem World.calls_of_steps (hinv : w.Inv) (h : Steps w l w') (hcall : l.1.isCall = false) :
    l.2.calls = [] := by
  obtain ⟨ev, out⟩ := l
  cases ev with
  | call req => cases hcall
  | driver g d =>
      obtain ⟨-, rfl⟩ := Prod.mk.inj h
      rfl
  | pollReady a =>
      obtain ⟨r, acts, rfl, -⟩ := hinv.polled_of_steps h
      rfl
  | exchange i ev =>
      have hstep : w.onExchange i ev = (w', out) := h
      unfold World.onExchange at hstep
      split at hstep <;> obtain ⟨-, rfl⟩ := Prod.mk.inj hstep <;> rfl

section

variable (hbuild : ∀ s a p, Http3.buildUri s a p = .ok ⟨some s, some a, some p⟩)
  (hscheme : uri.scheme = some scheme) (hauth : uri.authority = some authority)

include hbuild hscheme hauth

theorem World.recovers_step (hreach : Reachable Steps (World.new uri) w) (h : Steps w l w')
    (hready : l.1.isCall = true → w.sender.connectError.isSome ∨ w.sender.sendRequest.isSome)
    (hhealthy : l.1.Healthy) {calls : List CallFuture}
    (hrest : Recovers w'.sender.connectError calls) :
    Recovers w.sender.connectError (l.2.calls ++ calls) := by
  have hinv := inv_of_reachable hreach
  cases hcall : l.1.isCall with
  | false =>
      rw [calls_of_steps hinv h hcall, ← connectError_of_healthy hinv hhealthy hcall h]
      exact hrest
  | true =>
      obtain ⟨ev, out⟩ := l
      cases ev with
      | call req =>
          obtain ⟨rfl, rfl⟩ := Prod.mk.inj h
          exact call_recovers hreach hbuild hscheme hauth (hready rfl) req hrest
      | _ => cases hcall

theorem World.recovers_of_run {tr : List (Event × Output)} (hrun : Run Steps w tr w')
    {ready : Bool} (hreach : Reachable Steps (World.new uri) w)
    (hcontract : FollowsContract ready tr)
    (hready : ready = true → w.sender.connectError.isSome ∨ w.sender.sendRequest.isSome)
    (hhealthy : ∀ l ∈ tr, l.1.Healthy) :
    Recovers w.sender.connectError (tr.flatMap fun l ↦ l.2.calls) := by
  -- the deferred error can only go from `some e` to `none` along the run
  induction hrun generalizing ready with
  | nil s => exact ⟨[], by simp, .inl rfl⟩
  | @cons s t u l tr hstep hrest ih =>
      obtain ⟨hnow, hlater⟩ := hcontract
      have hrecovers := ih (hreach.step hstep) hlater
        (ready_step (inv_of_reachable hreach) hstep hready)
        (fun l' hl' ↦ hhealthy l' (List.mem_cons_of_mem l hl'))
      exact recovers_step hbuild hscheme hauth hreach hstep (fun hcall ↦ hready (hnow hcall))
        (hhealthy l (by simp)) hrecovers

end

end Recovery

/-- From every reachable state, once the connector does not fail any more and
whatever drivers and requests do, every call is sent, except that the first
one may return the connect error that was deferred before.  And as soon as the
connector does not wait either, `poll_ready` is ready at once. -/
theorem recovery_after_outage [Http3] (uri : Uri) {scheme authority : String}
    (hbuild : ∀ s a p, Http3.buildUri s a p = .ok ⟨some s, some a, some p⟩)
    (hscheme : uri.scheme = some scheme) (hauth : uri.authority = some authority)
    {w w' : World} {tr : List (Event × Output)} (h : Reachable Steps (World.new uri) w)
    (hrun : Run Steps w tr w') (hcontract : FollowsContract false tr)
    (hhealthy : ∀ l ∈ tr, l.1.Healthy) :
    Recovers w.sender.connectError (tr.flatMap fun l ↦ l.2.calls) ∧
    ∀ a : ConnectAnswers, ¬ a.Gives .pending →
      ∃ w₁ acts, w'.step (.pollReady a) = (w₁, .polled (.ready (.ok ())) acts) := by
  refine ⟨recovers_of_run hbuild hscheme hauth hrun h hcontract (by simp) hhealthy, ?_⟩
  intro a ha
  have hinv := inv_of_reachable (h.extend hrun)
  obtain ⟨r, acts, hout, hspec⟩ := hinv.step_pollReady a
  have hstep : w'.step (.pollReady a) = ((w'.step (.pollReady a)).1, .polled r acts) :=
    Prod.ext rfl hout
  refine ⟨(w'.step (.pollReady a)).1, acts, ?_⟩
  cases r with
  | pending => exact absurd ((answered_of_steps hstep).pending rfl) ha
  | ready res =>
      rw [hspec.slot_of_ready.1] at hstep
      exact hstep

/-- The connector refuses once: the first request is told, the second is sent. -/
theorem recovery_after_outage_refused :
    letI := documentedHttp3
    let w := exec World.step (World.new localUri)
      [.pollReady ⟨.ready (.error (.other "refused")), .pending⟩]
    let tr := labels World.step w
      [.pollReady connects, .call emptyRequest, .pollReady connects, .call emptyRequest]
    w.sender.connectError = some (.other "refused") ∧
      (tr.flatMap fun l ↦ l.2.calls).length = 2 ∧
      Recovers w.sender.connectError (tr.flatMap fun l ↦ l.2.calls) := by
  let _ := documentedHttp3
  intro w tr
  refine ⟨rfl, rfl, (recovery_after_outage localUri (fun _ _ _ ↦ rfl) rfl rfl
    (reachable_exec _ _ _) (run_exec World.step w _) ?_ ?_).1⟩
  · simp [labels, FollowsContract, readyNext, Event.isCall]
    decide
  · simp [labels, Event.Healthy, ConnectAnswers.Gives, connects]

end TonicH3
