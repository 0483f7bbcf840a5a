import TonicH3.SenderStates

/-!
# Connection generations

A closing flag belongs to the exchanges that were started while it was
installed, and these are the exchanges of one connection.  So a flag raised
late, by an exchange of a retired connection, cannot retire a later one.

The flag is raised by errors of `send_request` and of `recv_response`.  An
error of the eagerly polled body send does not raise it, and a connection that
died there stays cached until its driver has ended.
-/

namespace TonicH3

open EventRun

namespace Phase

def Dead [Http3] (p : Phase) : Prop :=
  ∃ site e, p = .failed site (.stream e) ∧ isConnectionClosing e = true

end Phase

namespace World

/-- The call is answered by an exchange that owns a clone of the sender of `g`. -/
def CallUses [Http3] (w : World) (req : Request) (g : Conn) : Prop :=
  ∃ w' i uri acts y, w.step (.call req) = (w', .called (.started i uri) acts) ∧
    w'.exchanges[i]? = some y ∧ y.sendRequest = some g

section Retired

variable {w w' : World} {r : PollReadyResult} {acts : List SlotAction}

theorem Connected.sendRequest_eq (h : Connected w w' r acts) :
    w'.sender.sendRequest = w.sender.sendRequest ∨
      w'.sender.sendRequest = some w.drivers.length := by
  cases h with
  | pending fut hne => exact .inl rfl
  | installed => exact .inr rfl
  | deferred e => exact .inl rfl

theorem Polled.sendRequest_eq (h : Polled w w' r acts) :
    w'.sender.sendRequest = w.sender.sendRequest ∨ w'.sender.sendRequest = none ∨
      w'.sender.sendRequest = some w.drivers.length := by
  cases h with
  | deferred e hslot => exact .inl rfl
  | cached g hslot hrun hset => exact .inl rfl
  | connecting hslot hconn =>
      rcases hconn.sendRequest_eq with hsame | hnew
      · exact .inl hsame
      · exact .inr (.inr hnew)
  | reconnecting g hslot hcause hconn => exact .inr hconn.sendRequest_eq

variable [Http3]

theorem Inv.retired_step (hinv : w.Inv) {g : Conn} (hg : g < w.drivers.length)
    (hretired : w.sender.sendRequest ≠ some g) {l : Event × Output} (h : Steps w l w') :
    w'.sender.sendRequest ≠ some g := by
  obtain ⟨ev, out⟩ := l
  cases ev with
  | driver g' d =>
      rw [sender_of_steps h rfl]
      exact hretired
  | exchange i ev =>
      rw [sender_of_steps h rfl]
      exact hretired
  | call req =>
      obtain ⟨f, acts, -, hspec⟩ := called_of_steps h
      cases hspec <;> exact hretired
  | pollReady a =>
      obtain ⟨r, acts, -, hspec⟩ := hinv.polled_of_steps h
      rcases hspec.sendRequest_eq with hsame | hnone | hnew
      · rw [hsame]
        exact hretired
      · rw [hnone]
        nofun
      · rw [hnew]
        intro heq
        exact Nat.ne_of_gt hg (Option.some.inj heq)

theorem Inv.retired_of_run (hinv : w.Inv) {g : Conn} (hg : g < w.drivers.length)
    (hretired : w.sender.sendRequest ≠ some g) {tr : List (Event × Output)}
    (h : Run Steps w tr w') : w'.sender.sendRequest ≠ some g := by
  have hkeep : ∀ s (l : Event × Output) t, True → s.Inv →
      (g < s.drivers.length ∧ s.sender.sendRequest ≠ some g) → Steps s l t →
      g < t.drivers.length ∧ t.sender.sendRequest ≠ some g := by
    rintro s l t - hs ⟨hlt, hne⟩ hstep
    refine ⟨?_, hs.retired_step hlt hne hstep⟩
    have hlater := hs.later_step l.1
    rw [hstep] at hlater
    exact Nat.lt_of_lt_of_le hlt hlater.drivers
  have hend := h.invariant_given (fun _ _ _ hI hstep ↦ inv_of_steps hI hstep) hkeep
    (fun _ _ ↦ trivial) hinv ⟨hg, hretired⟩
  exact hend.2.2

theorem sendRequest_of_callUses {req : Request} {g : Conn} (h : w.CallUses req g) :
    w.sender.sendRequest = some g := by
  obtain ⟨w', i, uri, acts, y, hstep, hy, hg⟩ := h
  obtain ⟨f, acts', hout, hspec⟩ := called_of_steps hstep
  obtain ⟨rfl, rfl⟩ := Output.called.inj hout
  cases hspec with
  | refused f herr hf =>
      rcases hf with hf | hf | ⟨e, hf⟩ | ⟨hf, -⟩ <;> cases hf
  | started g' uri' herr hsr =>
      have hnew : y = Exchange.new g' w.sender.closing req.body := by simpa using hy.symm
      rw [hnew] at hg
      rw [hsr]
      exact hg

/-- With a cached sender `poll_ready` changes nothing, or its connection was
found ended or closing. -/
theorem Inv.polled_held (hinv : w.Inv) {g : Conn} (hsr : w.sender.sendRequest = some g)
    (h : Polled w w' r acts) :
    (w' = w ∧ r = .ready (.ok ()) ∧ acts = []) ∨
      w.driverRunning g = false ∨ w.flagSet w.sender.closing = true := by
  cases h with
  | deferred e hslot => exact .inl ⟨rfl, rfl, rfl⟩
  | cached g' hslot hrun hset => exact .inl ⟨rfl, rfl, rfl⟩
  | connecting hslot hconn =>
      rw [(hinv.encodes_connecting hslot).1] at hsr
      cases hsr
  | reconnecting g' hslot hcause hconn =>
      rw [RequestSender.sendRequest_of_slot hslot] at hsr
      obtain rfl := Option.some.inj hsr
      exact .inr hcause

theorem Inv.cause_of_flagSet (hinv : w.Inv) {g : Conn} (hsr : w.sender.sendRequest = some g)
    (hset : w.flagSet w.sender.closing = true) :
    ∃ x ∈ w.exchanges, x.conn = g ∧ x.phase.reported = true := by
  obtain ⟨x, hx, hclosing, hrep⟩ := hinv.flag_set _ hset
  have hcached := (hinv.generation x hx).mp hclosing
  rw [hsr] at hcached
  exact ⟨x, hx, (Option.some.inj hcached).symm, hrep⟩

end Retired

end World

open World

/-- In every reachable state, `poll_ready` drops the cached sender of `g` only
if the driver of `g` has ended or an exchange of `g` itself got a connection-level
error at one of the two reporting places.  Errors of other connections and
stream-level errors leave the cached sender as it is, and an exchange in flight
holds the installed flag exactly when it holds a clone of the cached sender. -/
theorem generation_isolation [Http3] (uri : Uri) {w : World}
    (h : Reachable Steps (World.new uri) w) :
    (∀ g a w' out, w.sender.sendRequest = some g → w.step (.pollReady a) = (w', out) →
      w'.sender.sendRequest ≠ some g → w.driverRunning g = false ∨
        ∃ x ∈ w.exchanges, x.conn = g ∧ ∃ site e, x.phase = .failed site (.stream e) ∧
          (site = .sendRequest ∨ site = .recvResponse) ∧ isConnectionClosing e = true) ∧
    (∀ g, w.sender.sendRequest = some g → w.driverRunning g = true →
      (∀ x ∈ w.exchanges, x.conn = g → ∀ site e, x.phase = .failed site (.stream e) →
        site = .bodySend ∨ e.isConnectionLevel = false) →
      ∀ a, w.step (.pollReady a) = (w, .polled (.ready (.ok ())) [])) ∧
    (∀ x ∈ w.exchanges, x.phase.inFlight = true →
      (x.closing = w.sender.closing ↔
        ∃ g, x.sendRequest = some g ∧ w.sender.sendRequest = some g)) := by
  have hinv := inv_of_reachable h
  refine ⟨?_, ?_, ?_⟩
  · intro g a w' out hsr hstep hdropped
    obtain ⟨r, acts, -, hspec⟩ := hinv.polled_of_steps hstep
    rcases hinv.polled_held hsr hspec with ⟨rfl, -, -⟩ | hrun | hset
    · exact absurd hsr hdropped
    · exact .inl hrun
    · obtain ⟨x, hx, hconn, hrep⟩ := hinv.cause_of_flagSet hsr hset
      obtain ⟨site, e, hphase, hsite, he⟩ := Phase.reported_iff.mp hrep
      refine .inr ⟨x, hx, hconn, site, e, hphase, ?_, he⟩
      cases site with
      | sendRequest => exact .inl rfl
      | recvResponse => exact .inr rfl
      | bodySend => exact absurd rfl hsite
  · intro g hsr hrun hquiet a
    generalize hstep : w.step (.pollReady a) = res
    obtain ⟨w', out⟩ := res
    obtain ⟨r, acts, rfl, hspec⟩ := hinv.polled_of_steps hstep
    rcases hinv.polled_held hsr hspec with ⟨rfl, rfl, rfl⟩ | hended | hset
    · rfl
    · rw [hrun] at hended
      cases hended
    · -- the flag was raised by an exchange of `g`, against the hypothesis
      obtain ⟨x, hx, hconn, hrep⟩ := hinv.cause_of_flagSet hsr hset
      obtain ⟨site, e, hphase, hsite, he⟩ := Phase.reported_iff.mp hrep
      rw [isConnectionClosing_eq] at he
      rcases hquiet x hx hconn site e hphase with hbody | hlevel
      · exact absurd hbody hsite
      · rw [he] at hlevel
        cases hlevel
  · intro x hx hflight
    obtain ⟨sc, hxinv⟩ := hinv.exchange x hx
    have hclone : x.sendRequest = some x.conn := by simpa [hflight] using hxinv.sender
    rw [hinv.generation x hx, hclone]
    constructor
    · intro hcached
      exact ⟨x.conn, rfl, hcached⟩
    · rintro ⟨g, hg, hcached⟩
      obtain rfl := Option.some.inj hg
      exact hcached

def emptyRequest : Request := ⟨localUri, ⟨[], .done⟩⟩

theorem generation_isolation_stream_error :
    letI := documentedHttp3
    let w := exec World.step (World.new localUri) [.pollReady connects, .call emptyRequest,
      .exchange 0 (.sendRequest (.err (.streamError "unknown frame")))]
    w.step (.pollReady connects) = (w, .polled (.ready (.ok ())) []) := by
  let _ := documentedHttp3
  intro w
  have hspec := generation_isolation localUri (w := w) (reachable_exec _ _ _)
  refine hspec.2.1 0 rfl rfl ?_ connects
  intro x hx hconn site e hphase
  obtain rfl := List.mem_singleton.mp hx
  cases hphase
  exact .inr rfl

/-! ## Dead connections -/

namespace Exchange

variable [Http3]

/-- The upload is still polled inline, and its await is answered with a
connection-level error. -/
def eagerDeath (x : Exchange) : ExchangeEvent → Bool
  | .upload a =>
      match x.phase, x.bodyFut.bind (SendFuture.answeredError a) with
      | .eager, some (.stream e) => isConnectionClosing e
      | _, _ => false
  | _ => false

variable {x x' : Exchange} {ev : ExchangeEvent} {o : ExchangeOut} {e : Error}

theorem Move.bodySend_failed (h : Move x x' o) (hfailed : x'.phase = .failed .bodySend e) :
    x.phase = .failed .bodySend e ∨ (x.phase = .eager ∧ o.signal = some (.failed e)) := by
  cases h with
  | stutter => exact .inl hfailed
  | background a fut fut' signal hfut hlive hp hstep => exact .inl hfailed
  | uploadDropped hp => exact .inl hfailed
  | eagerly a fut fut' signal hfut hlive hp hstep =>
      cases signal with
      | failed e' =>
          have heq : e' = e := by simpa [afterEager] using hfailed
          rw [heq]
          exact .inr ⟨hp, rfl⟩
      | again =>
          have hp' : x.phase = .failed .bodySend e := hfailed
          rw [hp] at hp'
          cases hp'
      | pending => cases hfailed
      | cancelled => cases hfailed
      | finished => cases hfailed
  | opened bd hp => cases hfailed
  | rejected bd e' hp => cases hfailed
  | responded r hp hr => cases hfailed
  | refused r e' streamOpen hp hr => cases hfailed
  | futureDropped hp => cases hfailed
  | bodyPolled b p hp => cases hfailed
  | bodyDropped b hp => cases hfailed

theorem signal_eq_none (x : Exchange) (hev : ∀ a, ev ≠ .upload a) :
    (x.step ev).2.signal = none := by
  cases ev with
  | upload a => exact absurd rfl (hev a)
  | sendRequest a =>
      cases hp : x.phase <;> cases a <;> simp [step, hp, onSendRequest, ExchangeOut.quiet]
  | dropUpload => rfl
  | recvResponse a =>
      cases hp : x.phase <;> cases hr : x.r <;> cases a <;>
        simp [step, hp, hr, onRecvResponse, ExchangeOut.quiet]
  | dropFuture => cases hp : x.phase <;> simp [step, hp, ExchangeOut.quiet]
  | pollBody a => cases hp : x.phase <;> simp [step, hp, ExchangeOut.quiet]
  | dropBody => cases hp : x.phase <;> simp [step, hp, ExchangeOut.quiet]

theorem answeredError_of_signal (h : x.step ev = (x', o)) (hsignal : o.signal = some (.failed e)) :
    ∃ a, ev = .upload a ∧ x.bodyFut.bind (SendFuture.answeredError a) = some e := by
  have hout : (x.step ev).2.signal = some (.failed e) := by
    rw [h]
    exact hsignal
  by_cases hev : ∀ a, ev ≠ .upload a
  · rw [signal_eq_none x hev] at hout
    cases hout
  · obtain ⟨a, rfl⟩ : ∃ a, ev = .upload a := by simpa using hev
    refine ⟨a, rfl, ?_⟩
    simp only [step, onUpload] at hout
    cases hfut : x.bodyFut with
    | none => simp [hfut, ExchangeOut.quiet] at hout
    | some fut =>
        generalize hstep : sendH3ClientBody x.cancelResolved a fut = res
        obtain ⟨fut', signal⟩ := res
        cases hover : fut.isOver with
        | true => simp [hfut, hover, ExchangeOut.quiet] at hout
        | false =>
            have hfailed : signal = .failed e := by simpa [hfut, hover, hstep] using hout
            rw [hfailed] at hstep
            exact sendH3ClientBody_failed hstep

theorem bodySend_failed_of_safe (h : x.step ev = (x', o)) (hsafe : x.eagerDeath ev = false)
    {e : StreamError} (hclosing : isConnectionClosing e = true)
    (hfailed : x'.phase = .failed .bodySend (.stream e)) :
    x.phase = .failed .bodySend (.stream e) := by
  rcases (move_of_steps (l := (ev, o)) h).bodySend_failed hfailed with hsame | ⟨heager, hsignal⟩
  · exact hsame
  · obtain ⟨a, rfl, herror⟩ := answeredError_of_signal h hsignal
    simp [eagerDeath, heager, herror, hclosing] at hsafe

end Exchange

namespace World

variable [Http3]

def safe (w : World) : Event → Bool
  | .exchange i ev =>
      match w.exchanges[i]? with
      | some x => !x.eagerDeath ev
      | none => true
  | _ => true

def SafeSteps (w : World) (l : Event × Output) (w' : World) : Prop :=
  Steps w l w' ∧ w.safe l.1 = true

def Reporting (w : World) : Prop :=
  ∀ x ∈ w.exchanges, ∀ e, isConnectionClosing e = true →
    x.phase ≠ .failed .bodySend (.stream e)

variable {w w' : World}

theorem reporting_onExchange {i : ℕ} {ev : ExchangeEvent} {out : Output}
    (h : w.onExchange i ev = (w', out)) (hsafe : w.safe (.exchange i ev) = true)
    (hrep : w.Reporting) : w'.Reporting := by
  cases hi : w.exchanges[i]? with
  | none =>
      obtain ⟨rfl, -⟩ := Prod.mk.inj ((onExchange_none hi ev).symm.trans h)
      exact hrep
  | some x =>
      generalize hstep : x.step ev = res
      obtain ⟨x', o⟩ := res
      rw [onExchange_eq hi hstep] at h
      obtain ⟨rfl, -⟩ := Prod.mk.inj h
      have hnot : x.eagerDeath ev = false := by simpa [safe, hi] using hsafe
      intro y hy e he hfailed
      rcases List.mem_or_eq_of_mem_set hy with hy | rfl
      · exact hrep y hy e he hfailed
      · exact hrep x (List.mem_of_getElem? hi) e he
          (Exchange.bodySend_failed_of_safe hstep hnot he hfailed)

theorem reporting_steps {l : Event × Output} (hinv : w.Inv) (h : SafeSteps w l w')
    (hrep : w.Reporting) : w'.Reporting := by
  obtain ⟨ev, out⟩ := l
  obtain ⟨hstep, hsafe⟩ := h
  cases ev with
  | exchange i ev => exact reporting_onExchange hstep hsafe hrep
  | driver g d =>
      obtain ⟨rfl, -⟩ := Prod.mk.inj hstep
      simp only [Reporting, onDriver]
      split <;> exact hrep
  | pollReady a =>
      obtain ⟨r, acts, -, hspec⟩ := hinv.polled_of_steps hstep
      simp only [Reporting, hspec.exchanges_eq]
      exact hrep
  | call req =>
      obtain ⟨f, acts, -, hspec⟩ := called_of_steps hstep
      cases hspec with
      | delivered e herr => exact hrep
      | refused f herr hf => exact hrep
      | started g uri herr hsr =>
          intro y hy e he hfailed
          rcases List.mem_append.mp hy with hy | hy
          · exact hrep y hy e he hfailed
          · obtain rfl := List.mem_singleton.mp hy
            cases hfailed

theorem reporting_of_run {uri : Uri} {tr : List (Event × Output)}
    (h : Run SafeSteps (World.new uri) tr w) : w.Inv ∧ w.Reporting :=
  h.invariant (I := fun v ↦ v.Inv ∧ v.Reporting)
    (fun _ _ _ hI hstep ↦ ⟨inv_of_steps hI.1 hstep.1, reporting_steps hI.1 hstep hI.2⟩)
    ⟨inv_new uri, by simp [Reporting, World.new]⟩

theorem Inv.reported_step (hinv : w.Inv) {l : Event × Output} (h : Steps w l w')
    {x : Exchange} (hx : x ∈ w.exchanges) (hrep : x.phase.reported = true) :
    ∃ y ∈ w'.exchanges, y.conn = x.conn ∧ y.phase.reported = true := by
  obtain ⟨ev, out⟩ := l
  cases ev with
  | driver g d =>
      obtain ⟨rfl, -⟩ := Prod.mk.inj h
      refine ⟨x, ?_, rfl, hrep⟩
      simp only [World.onDriver]
      split <;> exact hx
  | pollReady a =>
      obtain ⟨r, acts, -, hspec⟩ := hinv.polled_of_steps h
      exact ⟨x, hspec.exchanges_eq ▸ hx, rfl, hrep⟩
  | call req =>
      obtain ⟨f, acts, -, hspec⟩ := called_of_steps h
      cases hspec with
      | delivered e herr => exact ⟨x, hx, rfl, hrep⟩
      | refused f herr hf => exact ⟨x, hx, rfl, hrep⟩
      | started g uri herr hsr => exact ⟨x, List.mem_append_left _ hx, rfl, hrep⟩
  | exchange i ev =>
      cases hi : w.exchanges[i]? with
      | none =>
          obtain ⟨rfl, -⟩ := Prod.mk.inj ((onExchange_none hi ev).symm.trans h)
          exact ⟨x, hx, rfl, hrep⟩
      | some z =>
          generalize hstep : z.step ev = res
          obtain ⟨z', o⟩ := res
          have hmove := Exchange.move_of_steps (l := (ev, o)) hstep
          obtain ⟨rfl, -⟩ := Prod.mk.inj ((onExchange_eq hi hstep).symm.trans h)
          rcases mem_or_eq_of_mem_set (y := z') hi hx with rfl | hx'
          · have hlt := (List.getElem?_eq_some_iff.mp hi).1
            refine ⟨z', List.mem_set hlt z', hmove.conn_eq.1, ?_⟩
            rw [hmove.reported_eq, hrep]
            rfl
          · exact ⟨x, hx', rfl, hrep⟩

theorem Inv.reported_of_run (hinv : w.Inv) {tr : List (Event × Output)} (h : Run Steps w tr w')
    {x : Exchange} (hx : x ∈ w.exchanges) (hrep : x.phase.reported = true) :
    w'.Inv ∧ ∃ y ∈ w'.exchanges, y.conn = x.conn ∧ y.phase.reported = true := by
  have hkeep : ∀ s (l : Event × Output) t, True → s.Inv →
      (∃ y ∈ s.exchanges, y.conn = x.conn ∧ y.phase.reported = true) → Steps s l t →
      ∃ y ∈ t.exchanges, y.conn = x.conn ∧ y.phase.reported = true := by
    rintro s l t - hs ⟨y, hy, hconn, hyrep⟩ hstep
    obtain ⟨z, hz, hzconn, hzrep⟩ := hs.reported_step hstep hy hyrep
    exact ⟨z, hz, hzconn.trans hconn, hzrep⟩
  exact h.invariant_given (J := World.Inv) (I := fun v ↦ ∃ y ∈ v.exchanges, _)
    (fun _ _ _ hI hstep ↦ inv_of_steps hI hstep) hkeep (fun _ _ ↦ trivial) hinv
    ⟨x, hx, rfl, hrep⟩

theorem Inv.polled_reported (hinv : w.Inv) {x : Exchange} (hx : x ∈ w.exchanges)
    (hrep : x.phase.reported = true) {r : PollReadyResult} {acts : List SlotAction}
    (h : Polled w w' r acts) : w'.sender.sendRequest ≠ some x.conn := by
  have hlt := (hinv.older x hx).2
  intro hcached
  cases h with
  | deferred e hslot =>
      have hex := hinv.exclusive
      rw [hslot] at hex
      rw [hex.1] at hcached
      cases hcached
  | cached g hslot hrun hset =>
      have hflag := hinv.flag_of x hx hrep
      rw [(hinv.generation x hx).mpr hcached, hset] at hflag
      cases hflag
  | connecting hslot hconn =>
      rcases hconn.sendRequest_eq with hsame | hnew
      · rw [hsame, (hinv.encodes_connecting hslot).1] at hcached
        cases hcached
      · rw [hnew] at hcached
        exact Nat.ne_of_gt hlt (Option.some.inj hcached)
  | reconnecting g hslot hcause hconn =>
      rcases hconn.sendRequest_eq with hsame | hnew
      · rw [hsame] at hcached
        cases hcached
      · rw [hnew] at hcached
        exact Nat.ne_of_gt hlt (Option.some.inj hcached)

end World

/-- In a run in which no eagerly polled body send fails with a connection-level
error, a request that completed with such an error, wherever it came from, is
the end of its connection: after the next `poll_ready` no call uses it.  In every
run, a connection that is no longer cached is never used again. -/
theorem dead_connection_unused [Http3] (uri : Uri) :
    (∀ tr w, Run SafeSteps (World.new uri) tr w →
      ∀ x ∈ w.exchanges, x.phase.Dead →
      ∀ tr₁ w₁ a out w₂ tr₂ w₃, Run Steps w tr₁ w₁ → w₁.step (.pollReady a) = (w₂, out) →
        Run Steps w₂ tr₂ w₃ → ∀ req, ¬ w₃.CallUses req x.conn) ∧
    (∀ w, Reachable Steps (World.new uri) w →
      ∀ g, g < w.drivers.length → w.sender.sendRequest ≠ some g →
      ∀ tr w', Run Steps w tr w' → ∀ req, ¬ w'.CallUses req g) := by
  constructor
  · rintro tr w h x hx ⟨site, e, hphase, he⟩ tr₁ w₁ a out w₂ tr₂ w₃ hrun₁ hpoll hrun₂ req huses
    obtain ⟨hinv, hreporting⟩ := reporting_of_run h
    have hrep : x.phase.reported = true := by
      apply Phase.reported_iff.mpr
      refine ⟨site, e, hphase, ?_, he⟩
      rintro rfl
      exact hreporting x hx e he hphase
    obtain ⟨hinv₁, y, hy, hconn, hyrep⟩ := hinv.reported_of_run hrun₁ hx hrep
    obtain ⟨r, acts, -, hspec⟩ := hinv₁.polled_of_steps hpoll
    have hretired := hinv₁.polled_reported hy hyrep hspec
    have hinv₂ := inv_of_steps (l := (.pollReady a, out)) hinv₁ hpoll
    have hlt := Nat.lt_of_lt_of_le (hinv₁.older y hy).2 hspec.later.drivers
    apply hinv₂.retired_of_run hlt hretired hrun₂
    rw [hconn]
    exact sendRequest_of_callUses huses
  · intro w h g hg hretired tr w' hrun req huses
    exact (inv_of_reachable h).retired_of_run hg hretired hrun (sendRequest_of_callUses huses)

/-- A request whose first write fails with a connection error, before the
response is waited for. -/
def lostEagerly : List Event :=
  [.pollReady connects, .call ⟨localUri, ⟨[.data [1]], .done⟩⟩, .exchange 0 (.sendRequest .ok),
    .exchange 0 (.upload ⟨true, .ok⟩), .exchange 0 (.upload ⟨true, .ok⟩),
    .exchange 0 (.upload ⟨true, .err 0 (.connectionError "timed out")⟩)]

/-- The request has failed with a connection-level error, the next `poll_ready`
is ready, and the next call is sent on the same connection. -/
theorem dead_connection_used_again :
    letI := documentedHttp3
    let w := exec World.step (World.new localUri) lostEagerly
    (∃ x ∈ w.exchanges, x.conn = 0 ∧ x.phase.Dead) ∧
      ∃ w', w.step (.pollReady connects) = (w', .polled (.ready (.ok ())) []) ∧
        w'.CallUses emptyRequest 0 := by
  let _ := documentedHttp3
  intro w
  constructor
  · refine ⟨_, List.mem_singleton.mpr rfl, rfl, .bodySend, .connectionError "timed out", rfl, ?_⟩
    exact isConnectionClosing_eq _
  · exact ⟨w, rfl, _, _, _, _, _, rfl, rfl, rfl⟩

def goaway : List Event :=
  [.pollReady connects, .call emptyRequest, .exchange 0 (.sendRequest (.err .remoteClosing))]

theorem dead_connection_unused_goaway :
    letI := documentedHttp3
    let w := exec World.step (World.new localUri) goaway
    ∀ req, ¬ (w.step (.pollReady connects)).1.CallUses req 0 := by
  let _ := documentedHttp3
  intro w req
  have hsafe : Run SafeSteps (World.new localUri)
      (labels World.step (World.new localUri) goaway) w :=
    .cons ⟨rfl, rfl⟩ (.cons ⟨rfl, rfl⟩ (.cons ⟨rfl, rfl⟩ (.nil w)))
  have hdead : ∃ x ∈ w.exchanges, x.conn = 0 ∧ x.phase.Dead :=
    ⟨_, List.mem_singleton.mpr rfl, rfl, .sendRequest, .remoteClosing, rfl,
      isConnectionClosing_eq _⟩
  obtain ⟨x, hx, hconn, hdead⟩ := hdead
  have hunused := (dead_connection_unused localUri).1 _ w hsafe x hx hdead _ _ connects _ _ _ _
    (.nil w) rfl (.nil _) req
  rwa [hconn] at hunused

end TonicH3
