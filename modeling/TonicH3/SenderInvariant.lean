import TonicH3.RequestSender

/-!
# The invariant of the reconnecting sender

The four coupled `Option`s of `RequestSender` encode the state of one slot.
Around it, the closing flags and the connections are numbered in the order in
which they were created: an exchange holds the installed flag exactly when it
was started on the cached connection, and a flag is set exactly when an
exchange of its generation has reported a connection-level error.

`pollReady_spec` says once what `poll_ready` can do in such a state.
-/

namespace TonicH3

open EventRun

/-- The fields encode a slot: they are those of the given state and no others. -/
def RequestSender.Encodes (s : RequestSender) : Slot.State Conn Error → Prop
  | .idle => s.sendRequest = none ∧ s.driverRx = none ∧ s.makeSendRequestFut = none ∧
      s.connectError = none
  | .acquiring => s.sendRequest = none ∧ s.driverRx = none ∧
      (∃ fut, s.makeSendRequestFut = some fut ∧ fut ≠ .complete) ∧ s.connectError = none
  | .held g => s.sendRequest = some g ∧ s.driverRx = some g ∧ s.makeSendRequestFut = none ∧
      s.connectError = none
  | .failed e => s.sendRequest = none ∧ s.driverRx = none ∧ s.makeSendRequestFut = none ∧
      s.connectError = some e

def RequestSender.slot (s : RequestSender) : Slot.State Conn Error :=
  match s.connectError, s.sendRequest, s.makeSendRequestFut with
  | some e, _, _ => .failed e
  | none, some g, _ => .held g
  | none, none, some _ => .acquiring
  | none, none, none => .idle

theorem RequestSender.Encodes.slot_eq {s : RequestSender} {st : Slot.State Conn Error}
    (h : s.Encodes st) : s.slot = st := by
  cases st with
  | idle =>
      obtain ⟨hsr, -, hfut, herr⟩ := h
      simp [slot, hsr, hfut, herr]
  | acquiring =>
      obtain ⟨hsr, -, ⟨fut, hfut, -⟩, herr⟩ := h
      simp [slot, hsr, hfut, herr]
  | held g =>
      obtain ⟨hsr, -, hfut, herr⟩ := h
      simp [slot, hsr, herr]
  | failed e =>
      obtain ⟨-, -, -, herr⟩ := h
      simp [slot, herr]

theorem RequestSender.connectError_of_slot {s : RequestSender} {e : Error}
    (h : s.slot = .failed e) : s.connectError = some e := by
  unfold slot at h
  split at h <;> simp_all

theorem RequestSender.sendRequest_of_slot {s : RequestSender} {g : Conn}
    (h : s.slot = .held g) : s.sendRequest = some g := by
  unfold slot at h
  split at h <;> simp_all

/-- The exchange has set its closing flag: it failed with a connection-level
error at one of the two places that report it. -/
def Phase.reported [Http3] : Phase → Bool
  | .failed .bodySend _ => false
  | .failed _ (.stream e) => isConnectionClosing e
  | _ => false

theorem Phase.reported_iff [Http3] {p : Phase} :
    p.reported = true ↔
      ∃ site e, p = .failed site (.stream e) ∧ site ≠ .bodySend ∧
        isConnectionClosing e = true := by
  constructor
  · intro h
    cases p with
    | failed site e =>
        cases e with
        | other msg => cases site <;> cases h
        | stream e =>
            cases site with
            | bodySend => cases h
            | sendRequest => exact ⟨_, e, rfl, nofun, h⟩
            | recvResponse => exact ⟨_, e, rfl, nofun, h⟩
    | _ => cases h
  · rintro ⟨site, e, rfl, hsite, he⟩
    cases site with
    | bodySend => exact absurd rfl hsite
    | sendRequest => exact he
    | recvResponse => exact he

namespace Exchange

variable {x x' : Exchange} {o : ExchangeOut}

theorem afterEager_eq (x : Exchange) (signal : Signal) :
    (x.afterEager signal).conn = x.conn ∧ (x.afterEager signal).closing = x.closing := by
  cases signal <;> exact ⟨rfl, rfl⟩

variable [Http3]

theorem Move.conn_eq (h : Move x x' o) : x'.conn = x.conn ∧ x'.closing = x.closing := by
  cases h with
  | eagerly a fut fut' signal hfut hlive hp hstep =>
      exact afterEager_eq { x with bodyFut := some fut' } signal
  | _ => exact ⟨rfl, rfl⟩

/-- The flag is stored to exactly when the exchange becomes one that reported.
An eager step never does: the body send is no reporting place. -/
theorem Move.reported_eq (h : Move x x' o) :
    x'.phase.reported = (x.phase.reported || o.setClosing) := by
  cases h with
  | stutter => simp [ExchangeOut.quiet]
  | opened bd hp => simp [hp, Phase.reported, ExchangeOut.quiet]
  | rejected bd e hp => simp [hp, Phase.reported]
  | eagerly a fut fut' signal hfut hlive hp hstep =>
      cases signal <;> simp [hp, afterEager, Phase.reported]
  | background a fut fut' signal hfut hlive hp hstep => simp
  | uploadDropped hp => simp [ExchangeOut.quiet]
  | responded r hp hr => simp [hp, Phase.reported, ExchangeOut.quiet]
  | refused r e streamOpen hp hr => simp [hp, Phase.reported]
  | futureDropped hp =>
      rcases hp with ⟨bd, hp⟩ | hp
      · simp [hp, Phase.reported, ExchangeOut.quiet]
      · simp [hp, Phase.reported, ExchangeOut.quiet]
  | bodyPolled b p hp => simp [hp, Phase.reported]
  | bodyDropped b hp => simp [hp, Phase.reported, ExchangeOut.quiet]

end Exchange

theorem ConnectFut.poll_spec {fut : ConnectFut} (h : fut ≠ .complete) (a : ConnectAnswers) :
    (∃ fut', fut' ≠ .complete ∧ fut.poll a = .ok (.pending, fut')) ∨
      ∃ res, fut.poll a = .ok (.ready res, .complete) := by
  have hhandshake : (∃ fut', fut' ≠ .complete ∧ pollHandshake a = (.pending, fut')) ∨
      ∃ res, pollHandshake a = (.ready res, .complete) := by
    cases hans : a.handshake with
    | pending => exact .inl ⟨.handshaking, nofun, by simp [pollHandshake, hans]⟩
    | ready res => exact .inr ⟨res, by simp [pollHandshake, hans]⟩
  cases fut with
  | complete => exact absurd rfl h
  | handshaking => simpa [poll] using hhandshake
  | connecting =>
      cases hans : a.connect with
      | pending => exact .inl ⟨.connecting, nofun, by simp [poll, hans]⟩
      | ready res =>
          cases res with
          | error e => exact .inr ⟨.error e, by simp [poll, hans]⟩
          | ok u => simpa [poll, hans] using hhandshake

/-! ## What `poll_ready` can do -/

namespace World

def started (w : World) : List SlotAction :=
  if w.sender.makeSendRequestFut.isNone then [.start] else []

inductive Connected (w : World) : World → PollReadyResult → List SlotAction → Prop
  | pending (fut : ConnectFut) : fut ≠ .complete →
      Connected w (w.setFut (some fut)) .pending w.started
  | installed :
      Connected w w.install (.ready (.ok ())) (w.started ++ [.acquire w.drivers.length])
  | deferred (e : Error) :
      Connected w (w.defer e) (.ready (.ok ())) (w.started ++ [.fail e])

/-- The outcomes of `poll_ready`: the deferred error or the cached sender makes
it ready, or it goes on connecting, after retiring a cached sender whose driver
has ended or whose flag is set. -/
inductive Polled (w : World) : World → PollReadyResult → List SlotAction → Prop
  | deferred (e : Error) : w.sender.slot = .failed e → Polled w w (.ready (.ok ())) []
  | cached (g : Conn) : w.sender.slot = .held g → w.driverRunning g = true →
      w.flagSet w.sender.closing = false → Polled w w (.ready (.ok ())) []
  | connecting {w' : World} {r : PollReadyResult} {acts : List SlotAction} :
      w.sender.slot = .idle ∨ w.sender.slot = .acquiring → Connected w w' r acts →
      Polled w w' r acts
  | reconnecting {w' : World} {r : PollReadyResult} {acts : List SlotAction} (g : Conn) :
      w.sender.slot = .held g →
      w.driverRunning g = false ∨ w.flagSet w.sender.closing = true →
      Connected w.retireConnection.1 w' r acts → Polled w w' r (.release g :: acts)

theorem connect_spec {w : World} (a : ConnectAnswers)
    (hlive : ∀ fut, w.sender.makeSendRequestFut = some fut → fut ≠ .complete) :
    ∃ w' r acts, w.connect a = .ok (w', r, acts) ∧ Connected w w' r acts := by
  have hstart : ∃ fut, fut ≠ .complete ∧
      w.startConnect = (w.setFut (some fut), w.started) := by
    cases hfut : w.sender.makeSendRequestFut with
    | none => exact ⟨.connecting, nofun, by simp [startConnect, started, hfut]⟩
    | some fut =>
        have hsame : w.setFut (some fut) = w := by
          rw [setFut, ← hfut]
        exact ⟨fut, hlive fut hfut, by simp [startConnect, started, hfut, hsame]⟩
  obtain ⟨fut, hne, hstart⟩ := hstart
  rcases fut.poll_spec hne a with ⟨fut', hne', hpoll⟩ | ⟨res, hpoll⟩
  · refine ⟨w.setFut (some fut'), .pending, w.started, ?_, .pending fut' hne'⟩
    simp [connect, hstart, setFut, hpoll, resolve]
  · cases res with
    | ok u =>
        refine ⟨w.install, .ready (.ok ()), w.started ++ [.acquire w.drivers.length], ?_,
          .installed⟩
        simp [connect, hstart, setFut, hpoll, resolve, install]
    | error e =>
        refine ⟨w.defer e, .ready (.ok ()), w.started ++ [.fail e], ?_, .deferred e⟩
        simp [connect, hstart, setFut, hpoll, resolve, defer]

/-- The outcomes of `call`: the deferred error, an error that changes nothing,
or an exchange on the cached connection under the installed flag. -/
inductive Called (w : World) (req : Request) : World → CallFuture → List SlotAction → Prop
  | delivered (e : Error) : w.sender.connectError = some e →
      Called w req { w with sender := { w.sender with connectError := none } }
        (.connectError e) [.deliver e]
  | refused (f : CallFuture) : w.sender.connectError = none →
      f = .missingScheme ∨ f = .missingAuthority ∨ (∃ e, f = .invalidUri e) ∨
        (f = .notReady ∧ w.sender.sendRequest = none) →
      Called w req w f []
  | started (g : Conn) (uri : Uri) : w.sender.connectError = none →
      w.sender.sendRequest = some g →
      Called w req { w with exchanges := w.exchanges ++ [.new g w.sender.closing req.body] }
        (.started w.exchanges.length uri) []

theorem call_spec [Http3] (w : World) (req : Request) :
    Called w req (w.call req).1 (w.call req).2.1 (w.call req).2.2 := by
  cases herr : w.sender.connectError with
  | some e => simpa [call, herr] using Called.delivered e herr
  | none =>
      unfold call
      rw [herr]
      dsimp only
      split
      · split
        · next e hbuild => exact .refused _ herr (.inr (.inr (.inl ⟨e, rfl⟩)))
        · next uri hbuild =>
            split
            · next hsr => exact .refused _ herr (.inr (.inr (.inr ⟨rfl, hsr⟩)))
            · next g hsr => exact .started g uri herr hsr
      · exact .refused _ herr (.inl rfl)
      · exact .refused _ herr (.inr (.inl rfl))

theorem checkDriver_of_none {w : World} (hrx : w.sender.driverRx = none) :
    w.checkDriver = (w, []) := by
  simp [checkDriver, hrx]

theorem checkDriver_of_some {w : World} {g : Conn} (hrx : w.sender.driverRx = some g) :
    w.checkDriver = if w.driverRunning g then (w, []) else w.retireConnection := by
  cases hd : w.drivers[g]? with
  | none => simp [checkDriver, hrx, tryRecv, driverRunning, hd]
  | some d => cases d <;> simp [checkDriver, hrx, tryRecv, driverRunning, hd]

theorem checkClosing_retireConnection (w : World) :
    w.retireConnection.1.checkClosing = (w.retireConnection.1, []) := by
  simp [checkClosing, flagSet, retireConnection]

/-! ## The invariant -/

variable [Http3]

structure Inv (w : World) : Prop where
  exclusive : w.sender.Encodes w.sender.slot
  flag_last : w.sender.closing + 1 = w.flags.length
  conn_last : ∀ g, w.sender.sendRequest = some g → g + 1 = w.drivers.length
  older : ∀ x ∈ w.exchanges, x.closing < w.flags.length ∧ x.conn < w.drivers.length
  generation : ∀ x ∈ w.exchanges,
    x.closing = w.sender.closing ↔ w.sender.sendRequest = some x.conn
  flag_set : ∀ f, w.flagSet f = true → ∃ x ∈ w.exchanges, x.closing = f ∧ x.phase.reported = true
  flag_of : ∀ x ∈ w.exchanges, x.phase.reported = true → w.flagSet x.closing = true
  exchange : ∀ x ∈ w.exchanges, ∃ sc, x.Inv sc

theorem inv_new (uri : Uri) : (new uri).Inv where
  exclusive := ⟨rfl, rfl, rfl, rfl⟩
  flag_last := rfl
  conn_last := by
    intro g hg
    cases hg
  older := by simp [new]
  generation := by simp [new]
  flag_set := by
    intro f hf
    cases f <;> simp [new, flagSet] at hf
  flag_of := by simp [new]
  exchange := by simp [new]

namespace Inv

variable {w : World}

theorem flagSet_eq_false (hinv : w.Inv) (hsr : w.sender.sendRequest = none) :
    w.flagSet w.sender.closing = false := by
  by_contra hset
  obtain ⟨x, hx, hclosing, -⟩ := hinv.flag_set _ (by simpa using hset)
  have hcached := (hinv.generation x hx).mp hclosing
  rw [hsr] at hcached
  cases hcached

theorem checks_of_none (hinv : w.Inv) (hsr : w.sender.sendRequest = none)
    (hrx : w.sender.driverRx = none) :
    w.checkDriver = (w, []) ∧ w.checkClosing = (w, []) := by
  refine ⟨checkDriver_of_none hrx, ?_⟩
  simp [checkClosing, hinv.flagSet_eq_false hsr]

theorem pollReady_spec (hinv : w.Inv) (a : ConnectAnswers) :
    ∃ w' r acts, w.pollReady a = .ok (w', r, acts) ∧ Polled w w' r acts := by
  have hex := hinv.exclusive
  cases hslot : w.sender.slot with
  | failed e =>
      rw [hslot] at hex
      obtain ⟨hsr, hrx, hfut, herr⟩ := hex
      obtain ⟨hdriver, hclosing⟩ := hinv.checks_of_none hsr hrx
      refine ⟨w, _, [], ?_, .deferred e hslot⟩
      simp [pollReady, hdriver, hclosing, readiness, herr]
  | idle =>
      rw [hslot] at hex
      obtain ⟨hsr, hrx, hfut, herr⟩ := hex
      obtain ⟨hdriver, hclosing⟩ := hinv.checks_of_none hsr hrx
      obtain ⟨w', r, acts, hconn, hspec⟩ := connect_spec (w := w) a (by simp [hfut])
      refine ⟨w', r, acts, ?_, .connecting (.inl hslot) hspec⟩
      simp [pollReady, hdriver, hclosing, readiness, herr, hsr, hconn]
  | acquiring =>
      rw [hslot] at hex
      obtain ⟨hsr, hrx, ⟨fut, hfut, hne⟩, herr⟩ := hex
      obtain ⟨hdriver, hclosing⟩ := hinv.checks_of_none hsr hrx
      obtain ⟨w', r, acts, hconn, hspec⟩ := connect_spec (w := w) a (by simpa [hfut] using hne)
      refine ⟨w', r, acts, ?_, .connecting (.inr hslot) hspec⟩
      simp [pollReady, hdriver, hclosing, readiness, herr, hsr, hconn]
  | held g =>
      rw [hslot] at hex
      obtain ⟨hsr, hrx, hfut, herr⟩ := hex
      have hdriver := checkDriver_of_some hrx
      obtain ⟨w', r, acts, hconn, hspec⟩ :=
        connect_spec (w := w.retireConnection.1) a (by simp [retireConnection, hfut])
      have hready : w.retireConnection.1.readiness a = .ok (w', r, acts) := by
        rw [← hconn]
        simp [readiness, retireConnection, herr]
      have hacts : w.retireConnection.2 = [.release g] := by simp [retireConnection, hsr]
      cases hrun : w.driverRunning g with
      | false =>
          rw [hrun] at hdriver
          refine ⟨w', r, .release g :: acts, ?_, .reconnecting g hslot (.inl hrun) hspec⟩
          simp [pollReady, hdriver, checkClosing_retireConnection, hready, hacts]
      | true =>
          rw [hrun] at hdriver
          cases hset : w.flagSet w.sender.closing with
          | true =>
              refine ⟨w', r, .release g :: acts, ?_, .reconnecting g hslot (.inr hset) hspec⟩
              simp [pollReady, hdriver, checkClosing, hset, hready, hacts]
          | false =>
              refine ⟨w, _, [], ?_, .cached g hslot hrun hset⟩
              simp [pollReady, hdriver, checkClosing, hset, readiness, herr, hsr, hfut, hrx]

end Inv

/-! ## Every event keeps the invariant -/

section Preservation

variable {w w' : World} {r : PollReadyResult} {acts : List SlotAction}

omit [Http3] in
theorem flagSet_retireConnection (w : World) (f : Flag) :
    w.retireConnection.1.flagSet f = w.flagSet f := by
  simp only [flagSet, retireConnection, List.getElem?_append]
  split
  · rfl
  · next hf =>
      have hnone : w.flags[f]? = none := List.getElem?_eq_none (Nat.le_of_not_lt hf)
      rw [hnone]
      cases f - w.flags.length <;> simp

theorem Inv.retireConnection (hinv : w.Inv) {g : Conn} (hslot : w.sender.slot = .held g) :
    w.retireConnection.1.Inv ∧ w.retireConnection.1.sender.slot = .idle := by
  have hex := hinv.exclusive
  rw [hslot] at hex
  obtain ⟨-, -, hfut, herr⟩ := hex
  have hidle : w.retireConnection.1.sender.Encodes .idle := ⟨rfl, rfl, hfut, herr⟩
  refine ⟨?_, hidle.slot_eq⟩
  constructor
  · rw [hidle.slot_eq]
    exact hidle
  · simp [World.retireConnection]
  · intro g' hg'
    cases hg'
  · intro x hx
    obtain ⟨hflag, hconn⟩ := hinv.older x hx
    refine ⟨?_, hconn⟩
    simpa [World.retireConnection] using Nat.lt_succ_of_lt hflag
  · intro x hx
    have hne : x.closing ≠ w.flags.length := Nat.ne_of_lt (hinv.older x hx).1
    simpa [World.retireConnection] using hne
  · intro f hf
    rw [flagSet_retireConnection] at hf
    exact hinv.flag_set f hf
  · intro x hx hrep
    rw [flagSet_retireConnection]
    exact hinv.flag_of x hx hrep
  · exact hinv.exchange

theorem Inv.encodes_connecting (hinv : w.Inv)
    (hslot : w.sender.slot = .idle ∨ w.sender.slot = .acquiring) :
    w.sender.sendRequest = none ∧ w.sender.driverRx = none ∧ w.sender.connectError = none := by
  have hex := hinv.exclusive
  rcases hslot with hslot | hslot
  · rw [hslot] at hex
    exact ⟨hex.1, hex.2.1, hex.2.2.2⟩
  · rw [hslot] at hex
    exact ⟨hex.1, hex.2.1, hex.2.2.2⟩

theorem Inv.connected (hinv : w.Inv)
    (hslot : w.sender.slot = .idle ∨ w.sender.slot = .acquiring)
    (h : Connected w w' r acts) : w'.Inv := by
  obtain ⟨hsr, hrx, herr⟩ := hinv.encodes_connecting hslot
  cases h with
  | pending fut hne =>
      have henc : (w.setFut (some fut)).sender.Encodes .acquiring :=
        ⟨hsr, hrx, ⟨fut, rfl, hne⟩, herr⟩
      exact { hinv with exclusive := henc.slot_eq.symm ▸ henc }
  | deferred e =>
      have henc : (w.defer e).sender.Encodes (.failed e) := ⟨hsr, hrx, rfl, rfl⟩
      exact { hinv with exclusive := henc.slot_eq.symm ▸ henc }
  | installed =>
      have henc : w.install.sender.Encodes (.held w.drivers.length) := ⟨rfl, rfl, rfl, herr⟩
      refine { hinv with
        exclusive := henc.slot_eq.symm ▸ henc
        conn_last := ?_
        older := ?_
        generation := ?_ }
      · intro g hg
        obtain rfl := Option.some.inj hg
        simp [install]
      · intro x hx
        obtain ⟨hflag, hconn⟩ := hinv.older x hx
        refine ⟨hflag, ?_⟩
        simpa [install] using Nat.lt_succ_of_lt hconn
      · intro x hx
        -- the new connection is younger than every exchange
        have hold : ¬ x.closing = w.sender.closing := by
          intro hclosing
          have hcached := (hinv.generation x hx).mp hclosing
          rw [hsr] at hcached
          cases hcached
        have hnew : x.conn ≠ w.drivers.length := Nat.ne_of_lt (hinv.older x hx).2
        simp only [install, hold, Option.some.injEq, false_iff]
        exact hnew.symm

theorem Inv.polled (hinv : w.Inv) (h : Polled w w' r acts) : w'.Inv := by
  cases h with
  | deferred e hslot => exact hinv
  | cached g hslot hrun hset => exact hinv
  | connecting hslot hconn => exact hinv.connected hslot hconn
  | reconnecting g hslot hcause hconn =>
      obtain ⟨hretired, hidle⟩ := hinv.retireConnection hslot
      exact hretired.connected (.inl hidle) hconn

theorem Inv.called {req : Request} {f : CallFuture} (hinv : w.Inv) (h : Called w req w' f acts) :
    w'.Inv := by
  cases h with
  | refused f herr hf => exact hinv
  | delivered e herr =>
      have hslot : w.sender.slot = .failed e := by simp [RequestSender.slot, herr]
      have hex := hinv.exclusive
      rw [hslot] at hex
      obtain ⟨hsr, hrx, hfut, -⟩ := hex
      have henc : ({ w.sender with connectError := none } : RequestSender).Encodes .idle :=
        ⟨hsr, hrx, hfut, rfl⟩
      exact { hinv with exclusive := henc.slot_eq.symm ▸ henc }
  | started g uri herr hsr =>
      have hconn := hinv.conn_last g hsr
      have hflag := hinv.flag_last
      refine { hinv with
        older := ?_
        generation := ?_
        flag_set := ?_
        flag_of := ?_
        exchange := ?_ }
      · intro x hx
        rcases List.mem_append.mp hx with hx | hx
        · exact hinv.older x hx
        · obtain rfl := List.mem_singleton.mp hx
          exact ⟨Nat.le_of_eq hflag, Nat.le_of_eq hconn⟩
      · intro x hx
        rcases List.mem_append.mp hx with hx | hx
        · exact hinv.generation x hx
        · obtain rfl := List.mem_singleton.mp hx
          simp [Exchange.new, hsr]
      · intro f hf
        obtain ⟨x, hx, hrep⟩ := hinv.flag_set f hf
        exact ⟨x, List.mem_append_left _ hx, hrep⟩
      · intro x hx hrep
        rcases List.mem_append.mp hx with hx | hx
        · exact hinv.flag_of x hx hrep
        · obtain rfl := List.mem_singleton.mp hx
          cases hrep
      · intro x hx
        rcases List.mem_append.mp hx with hx | hx
        · exact hinv.exchange x hx
        · obtain rfl := List.mem_singleton.mp hx
          exact ⟨req.body, Exchange.inv_new _ _ _⟩

theorem Inv.onDriver (hinv : w.Inv) (g : Conn) (d : Driver) : (w.onDriver g d).Inv := by
  unfold World.onDriver
  split
  · refine { hinv with conn_last := ?_, older := ?_ }
    · simpa using hinv.conn_last
    · simpa using hinv.older
  · exact hinv

omit [Http3] in
theorem flagSet_store {w : World} {f f' : Flag} (hf : f < w.flags.length) :
    ({ w with flags := w.flags.set f true } : World).flagSet f' =
      (decide (f = f') || w.flagSet f') := by
  by_cases heq : f = f'
  · subst heq
    simp [flagSet, hf]
  · simp [flagSet, heq]

omit [Http3] in
theorem mem_or_eq_of_mem_set {x y z : Exchange} {l : List Exchange} {i : ℕ}
    (hi : l[i]? = some x) (hz : z ∈ l) : z = x ∨ z ∈ l.set i y := by
  obtain ⟨j, hj⟩ := List.mem_iff_getElem?.mp hz
  by_cases hij : i = j
  · subst hij
    exact Or.inl (Option.some.inj (hj.symm.trans hi))
  · refine Or.inr (List.mem_iff_getElem?.mpr ⟨j, ?_⟩)
    rw [List.getElem?_set_ne hij]
    exact hj

theorem onExchange_none {i : ℕ} (hi : w.exchanges[i]? = none) (ev : ExchangeEvent) :
    w.onExchange i ev = (w, .quiet) := by
  simp [World.onExchange, hi]

theorem onExchange_eq {x x' : Exchange} {i : ℕ} {ev : ExchangeEvent} {o : ExchangeOut}
    (hi : w.exchanges[i]? = some x) (hstep : x.step ev = (x', o)) :
    w.onExchange i ev = ({ w with
      flags := if o.setClosing then w.flags.set x.closing true else w.flags
      exchanges := w.exchanges.set i x' }, .exchanged o) := by
  simp [World.onExchange, hi, hstep]

section Exchanged

variable {x x' : Exchange} {o : ExchangeOut} {i : ℕ} (hinv : w.Inv)
  (hi : w.exchanges[i]? = some x)

omit [Http3] in
theorem length_exchanged :
    (if o.setClosing then w.flags.set x.closing true else w.flags).length = w.flags.length := by
  split <;> simp

include hinv hi

theorem flagSet_exchanged (f : Flag) :
    World.flagSet { w with
      flags := if o.setClosing then w.flags.set x.closing true else w.flags } f =
    ((o.setClosing && decide (x.closing = f)) || w.flagSet f) := by
  cases hset : o.setClosing with
  | false => simp [flagSet]
  | true => simpa using flagSet_store (hinv.older x (List.mem_of_getElem? hi)).1

variable (hmove : Exchange.Move x x' o)

include hmove

/-- A flag that is set was set by the exchange now, or had been set before. -/
theorem Inv.exchanged_flag_set {f : Flag} (hf : World.flagSet { w with
      flags := if o.setClosing then w.flags.set x.closing true else w.flags } f = true) :
    ∃ y ∈ w.exchanges.set i x', y.closing = f ∧ y.phase.reported = true := by
  obtain ⟨-, hclosing⟩ := hmove.conn_eq
  have hrep := hmove.reported_eq
  have hx' : x' ∈ w.exchanges.set i x' :=
    List.mem_set (by simpa using (List.getElem?_eq_some_iff.mp hi).1) x'
  rw [flagSet_exchanged hinv hi, Bool.or_eq_true] at hf
  rcases hf with hnew | hold
  · obtain ⟨hset, hfx⟩ := (Bool.and_eq_true _ _).mp hnew
    refine ⟨x', hx', ?_, ?_⟩
    · rw [hclosing]
      exact of_decide_eq_true hfx
    · simp [hrep, hset]
  · obtain ⟨y, hy, hyf, hyrep⟩ := hinv.flag_set f hold
    rcases mem_or_eq_of_mem_set (y := x') hi hy with rfl | hy'
    · refine ⟨x', hx', ?_, ?_⟩
      · rw [hclosing]
        exact hyf
      · simp [hrep, hyrep]
    · exact ⟨y, hy', hyf, hyrep⟩

theorem Inv.exchanged_flag_of {y : Exchange} (hy : y ∈ w.exchanges.set i x')
    (hyrep : y.phase.reported = true) : World.flagSet { w with
      flags := if o.setClosing then w.flags.set x.closing true else w.flags } y.closing = true := by
  obtain ⟨-, hclosing⟩ := hmove.conn_eq
  have hrep := hmove.reported_eq
  rw [flagSet_exchanged hinv hi]
  rcases List.mem_or_eq_of_mem_set hy with hy | rfl
  · simp [hinv.flag_of y hy hyrep]
  · rw [hrep, Bool.or_eq_true] at hyrep
    rw [hclosing]
    rcases hyrep with hold | hset
    · simp [hinv.flag_of x (List.mem_of_getElem? hi) hold]
    · simp [hset]

theorem Inv.exchanged : World.Inv { w with
    flags := if o.setClosing then w.flags.set x.closing true else w.flags
    exchanges := w.exchanges.set i x' } := by
  have hx : x ∈ w.exchanges := List.mem_of_getElem? hi
  obtain ⟨hconn, hclosing⟩ := hmove.conn_eq
  refine { hinv with
    flag_last := by simpa [length_exchanged] using hinv.flag_last
    older := ?_
    generation := ?_
    flag_set := fun f ↦ hinv.exchanged_flag_set hi hmove
    flag_of := fun y ↦ hinv.exchanged_flag_of hi hmove
    exchange := ?_ }
  · intro y hy
    simp only [length_exchanged]
    rcases List.mem_or_eq_of_mem_set hy with hy | rfl
    · exact hinv.older y hy
    · rw [hconn, hclosing]
      exact hinv.older x hx
  · intro y hy
    rcases List.mem_or_eq_of_mem_set hy with hy | rfl
    · exact hinv.generation y hy
    · rw [hconn, hclosing]
      exact hinv.generation x hx
  · intro y hy
    rcases List.mem_or_eq_of_mem_set hy with hy | rfl
    · exact hinv.exchange y hy
    · obtain ⟨sc, hsc⟩ := hinv.exchange x hx
      exact ⟨sc, hmove.inv hsc⟩

end Exchanged

theorem Inv.onExchange (hinv : w.Inv) (i : ℕ) (ev : ExchangeEvent) :
    (w.onExchange i ev).1.Inv := by
  cases hi : w.exchanges[i]? with
  | none =>
      rw [onExchange_none hi]
      exact hinv
  | some x =>
      generalize hstep : x.step ev = res
      obtain ⟨x', o⟩ := res
      rw [onExchange_eq hi hstep]
      exact hinv.exchanged hi (Exchange.move_of_steps (l := (ev, o)) hstep)

theorem Inv.step (hinv : w.Inv) (ev : Event) : (w.step ev).1.Inv := by
  cases ev with
  | pollReady a =>
      obtain ⟨w', r, acts, hpoll, hspec⟩ := hinv.pollReady_spec a
      simp only [World.step, hpoll]
      exact hinv.polled hspec
  | call req => exact hinv.called (w.call_spec req)
  | driver g d => exact hinv.onDriver g d
  | exchange i ev => exact hinv.onExchange i ev

theorem inv_of_steps {l : Event × Output} (hinv : w.Inv) (h : Steps w l w') : w'.Inv := by
  have hstep := hinv.step l.1
  rw [h] at hstep
  exact hstep

theorem inv_of_run {tr : List (Event × Output)} (hinv : w.Inv) (h : Run Steps w tr w') :
    w'.Inv :=
  h.invariant (fun _ _ _ hI hstep ↦ inv_of_steps hI hstep) hinv

theorem inv_of_reachable {uri : Uri} (h : Reachable Steps (new uri) w) : w.Inv :=
  h.invariant (fun _ _ _ hI hstep ↦ inv_of_steps hI hstep) (inv_new uri)

end Preservation

end World

end TonicH3
