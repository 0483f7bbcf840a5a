import TonicH3.Connectors
import TonicH3.SenderStates

/-!
# URIs on the client request path

A client is a sender with the connector it connects through; the two are given
their URIs independently.  The components of a URI are consumed in three
places: the base URI in `call`, the authority of the connector's URI in
`dns_resolve`, and its host and port in the msquic connector.  The first two
answer a missing component with an error.
-/

namespace TonicH3

open EventRun

/-- `Authority::host` and `Authority::port_u16`. -/
structure AuthorityParts where
  host : String → String
  portU16 : String → Option UInt16

def Uri.host (parts : AuthorityParts) (uri : Uri) : Option String := uri.authority.map parts.host

def Uri.portU16 (parts : AuthorityParts) (uri : Uri) : Option UInt16 :=
  uri.authority.bind parts.portU16

/-- The two unwraps of the msquic connector. -/
inductive ConnectPanic
  | unwrapHost
  | unwrapPort
  deriving DecidableEq, Repr

inductive Backend
  | quinn
  | s2n
  | quiche
  | msquic
  deriving DecidableEq, Repr

structure Connector where
  backend : Backend
  uri : Uri
  deriving DecidableEq, Repr

/-- What the network has in store for a `connect` that runs to its end. -/
structure Net (α : Type) where
  resolver : Resolver α
  quinn : Attempt α → QuinnSteps Unit
  s2n : Attempt α → S2nSteps Unit
  quiche : Attempt α → QuicheSteps Unit
  msquic : String → UInt16 → Except Error Unit

namespace Connector

variable {α : Type}

/-- `connect` of a backend that resolves its address.  `none` keeps it waiting,
but without an authority `dns_resolve` fails before its first await. -/
def resolving (uri : Uri) (net : Option (Net α)) (connect : Net α → Except Error Unit) :
    Poll (Except Error Unit) :=
  match net, uri.authority with
  | some net, _ => .ready (connect net)
  | none, some _ => .pending
  | none, none => .ready (.error .invalidInput)

def connectMsquic (parts : AuthorityParts) (uri : Uri) (net : Option (Net α)) :
    Except ConnectPanic (Poll (Except Error Unit)) :=
  match uri.host parts with
  | none => .error .unwrapHost
  | some host =>
      match uri.portU16 parts with
      | none => .error .unwrapPort
      | some port =>
          match net with
          | none => .ok .pending
          | some net => .ok (.ready (net.msquic host port))

/-- One poll of the future of `connect`. -/
def pollConnect (parts : AuthorityParts) (c : Connector) (net : Option (Net α)) :
    Except ConnectPanic (Poll (Except Error Unit)) :=
  match c.backend with
  | .quinn => .ok (resolving c.uri net fun n ↦
      (H3QuinnConnector.connect n.resolver n.quinn ⟨c.uri⟩).2)
  | .s2n => .ok (resolving c.uri net fun n ↦
      (H3S2nConnector.connect n.resolver n.s2n ⟨c.uri⟩).2)
  | .quiche => .ok (resolving c.uri net fun n ↦
      (H3QuicheConnector.connect n.resolver n.quiche ⟨c.uri⟩).2)
  | .msquic => connectMsquic parts c.uri net

/-- The backend can take its URI: it resolves it, or finds host and port in it. -/
def Reaches (parts : AuthorityParts) (c : Connector) : Prop :=
  c.backend = .msquic → (c.uri.host parts).isSome ∧ (c.uri.portU16 parts).isSome

variable {parts : AuthorityParts} {c : Connector}

theorem pollConnect_ok (h : c.Reaches parts) (net : Option (Net α)) :
    ∃ res, c.pollConnect parts net = .ok res := by
  unfold pollConnect
  cases hb : c.backend with
  | quinn => exact ⟨_, rfl⟩
  | s2n => exact ⟨_, rfl⟩
  | quiche => exact ⟨_, rfl⟩
  | msquic =>
      obtain ⟨hhost, hport⟩ := h hb
      obtain ⟨host, hhost⟩ := Option.isSome_iff_exists.mp hhost
      obtain ⟨port, hport⟩ := Option.isSome_iff_exists.mp hport
      simp only [connectMsquic, hhost, hport]
      cases net with
      | none => exact ⟨_, rfl⟩
      | some net => exact ⟨_, rfl⟩

theorem pollConnect_panics (h : ¬ c.Reaches parts) (net : Option (Net α)) :
    ∃ p, c.pollConnect parts net = .error p := by
  simp only [Reaches, Classical.not_imp] at h
  obtain ⟨hb, hmissing⟩ := h
  simp only [pollConnect, hb, connectMsquic]
  cases hhost : c.uri.host parts with
  | none => exact ⟨_, rfl⟩
  | some host =>
      cases hport : c.uri.portU16 parts with
      | none => exact ⟨_, rfl⟩
      | some port => exact absurd ⟨by simp [hhost], by simp [hport]⟩ hmissing

theorem pollConnect_of_no_authority (hb : c.backend ≠ .msquic) (huri : c.uri.authority = none)
    (net : Option (Net α)) : c.pollConnect parts net = .ok (.ready (.error .invalidInput)) := by
  have hdns : ∀ {β : Type} (r : Resolver β), dnsResolve r c.uri = .error .invalidInput := by
    intro β r
    simp [dnsResolve, huri]
  cases hbackend : c.backend with
  | msquic => exact absurd hbackend hb
  | quinn =>
      cases net <;>
        simp [pollConnect, hbackend, resolving, huri, H3QuinnConnector.connect, hdns]
  | s2n =>
      cases net <;> simp [pollConnect, hbackend, resolving, huri, H3S2nConnector.connect, hdns]
  | quiche =>
      cases net <;>
        simp [pollConnect, hbackend, resolving, huri, H3QuicheConnector.connect, hdns]

end Connector

/-! ## The client -/

namespace World

/-- The sender as `poll_ready` finds it after the checks that can retire. -/
def checked (w : World) : World := w.checkDriver.1.checkClosing.1

/-- The next `poll_ready` polls a connect future that is still in `connect()`. -/
def pollsConnect (w : World) : Bool :=
  w.checked.sender.connectError.isNone && w.checked.sender.sendRequest.isNone &&
    w.checked.sender.makeSendRequestFut.all (· = .connecting)

variable [Http3] {w w' : World} {r : PollReadyResult} {acts : List SlotAction}

def base (w : World) : Option String × Option String :=
  (w.sender.baseScheme, w.sender.baseAuthority)

omit [Http3] in
theorem Polled.base_eq (h : Polled w w' r acts) : w'.base = w.base := by
  cases h with
  | deferred e hslot => rfl
  | cached g hslot hrun hset => rfl
  | connecting hslot hconn => cases hconn <;> rfl
  | reconnecting g hslot hdead hconn => cases hconn <;> rfl

theorem base_of_reachable {uri : Uri} (h : Reachable Steps (World.new uri) w) :
    w.base = (uri.scheme, uri.authority) := by
  have hkeep : ∀ v (l : Event × Output) v', v.Inv ∧ v.base = (uri.scheme, uri.authority) →
      Steps v l v' → v'.Inv ∧ v'.base = (uri.scheme, uri.authority) := by
    rintro v ⟨ev, out⟩ v' ⟨hinv, hbase⟩ hstep
    refine ⟨inv_of_steps hinv hstep, ?_⟩
    rw [← hbase]
    cases ev with
    | pollReady a =>
        obtain ⟨_, _, -, hpolled⟩ := hinv.polled_of_steps hstep
        exact hpolled.base_eq
    | call req =>
        obtain ⟨_, _, -, hcalled⟩ := called_of_steps hstep
        cases hcalled <;> rfl
    | driver g d =>
        rw [base, sender_of_steps hstep rfl]
        rfl
    | exchange i ev =>
        rw [base, sender_of_steps hstep rfl]
        rfl
  exact (h.invariant hkeep ⟨inv_new uri, rfl⟩).2

theorem Inv.pollsConnect_of_idle (hinv : w.Inv) (hslot : w.sender.slot = .idle) :
    w.pollsConnect = true := by
  have hex := hinv.exclusive
  rw [hslot] at hex
  obtain ⟨hsr, hrx, hfut, herr⟩ := hex
  obtain ⟨hdriver, hclosing⟩ := hinv.checks_of_none hsr hrx
  have hchecked : w.checked = w := by rw [checked, hdriver, hclosing]
  simp [pollsConnect, hchecked, hsr, hfut, herr]

theorem call_error_of_missing (req : Request)
    (h : w.sender.baseScheme = none ∨ w.sender.baseAuthority = none) :
    ∃ e, (w.call req).2.1.error = some e := by
  cases herr : w.sender.connectError with
  | some e => exact ⟨e, by simp [call, herr, CallFuture.error]⟩
  | none =>
      cases hscheme : w.sender.baseScheme with
      | none => exact ⟨_, by simp only [call, herr, hscheme]; rfl⟩
      | some scheme =>
          have hauth : w.sender.baseAuthority = none := by simpa [hscheme] using h
          exact ⟨_, by simp only [call, herr, hscheme, hauth]; rfl⟩

omit [Http3] in
theorem Called.world_of_error {req : Request} {f : CallFuture} {e : Error}
    (h : Called w req w' f acts) (herror : f.error = some e) :
    w' = { w with sender := { w.sender with connectError := none } } := by
  cases h with
  | delivered e' herr => rfl
  | refused f herr hcases => rw [← herr]
  | started g uri herr hsr => cases herror

/-- Only `http::Uri::builder` is between a request and its URI. -/
theorem call_of_base {scheme authority : String} (req : Request)
    (hbuild : ∀ s a p, Http3.buildUri s a p = .ok ⟨some s, some a, some p⟩)
    (hscheme : w.sender.baseScheme = some scheme)
    (hauth : w.sender.baseAuthority = some authority) :
    ((w.call req).2.1.error = none ↔
      w.sender.connectError = none ∧ w.sender.sendRequest.isSome) ∧
    ∀ i uri, (w.call req).2.1 = .started i uri →
      uri = ⟨some scheme, some authority, some (req.uri.pathAndQuery.getD "/")⟩ := by
  cases herr : w.sender.connectError with
  | some e => simp [call, herr, CallFuture.error]
  | none =>
      cases hsr : w.sender.sendRequest with
      | none => simp [call, herr, hscheme, hauth, hbuild, hsr, CallFuture.error]
      | some g => simp [call, herr, hscheme, hauth, hbuild, hsr, CallFuture.error]

omit [Http3] in
/-- An error of `connect()` makes the sender ready, and is kept for the next
request. -/
theorem pollReady_of_connectError (h : w.pollsConnect = true) (e : Error)
    (handshake : Poll (Except Error Unit)) :
    ∃ acts, w.pollReady ⟨.ready (.error e), handshake⟩ =
      .ok (w.checked.defer e, .ready (.ok ()), acts) := by
  simp only [pollsConnect, Bool.and_eq_true, Option.isNone_iff_eq_none] at h
  obtain ⟨⟨herr, hsr⟩, hfut⟩ := h
  have hconnect : ∃ acts, w.checked.connect ⟨.ready (.error e), handshake⟩ =
      .ok (w.checked.defer e, .ready (.ok ()), acts) := by
    cases hmake : w.checked.sender.makeSendRequestFut with
    | none =>
        refine ⟨[.start, .fail e], ?_⟩
        simp [connect, startConnect, hmake, setFut, ConnectFut.poll, resolve, defer]
    | some fut =>
        obtain rfl : fut = .connecting := by simpa [hmake] using hfut
        refine ⟨[.fail e], ?_⟩
        simp [connect, startConnect, hmake, ConnectFut.poll, resolve]
  obtain ⟨acts, hconnect⟩ := hconnect
  have hready : w.checkDriver.1.checkClosing.1.readiness ⟨.ready (.error e), handshake⟩ =
      .ok (w.checked.defer e, .ready (.ok ()), acts) := by
    rw [← hconnect, readiness]
    simp [← checked.eq_def, herr, hsr]
  refine ⟨w.checkDriver.2 ++ w.checkDriver.1.checkClosing.2 ++ acts, ?_⟩
  simp only [pollReady, hready]

end World

structure Client where
  connector : Connector
  world : World
  deriving DecidableEq, Repr

inductive ClientEvent (α : Type)
  | pollReady (net : Option (Net α)) (handshake : Poll (Except Error Unit))
  | call (req : Request)
  | driver (g : Conn) (d : Driver)
  | exchange (i : ℕ) (ev : ExchangeEvent)

inductive ClientOut
  | out (o : Output)
  | connectPanicked (p : ConnectPanic)
  deriving DecidableEq, Repr

namespace Client

def new (connector : Connector) (base : Uri) : Client := ⟨connector, .new base⟩

variable {α : Type} [Http3]

def onWorld (c : Client) (ev : Event) : Client × ClientOut :=
  ({ c with world := (c.world.step ev).1 }, .out (c.world.step ev).2)

def step (parts : AuthorityParts) (c : Client) : ClientEvent α → Client × ClientOut
  | .pollReady net handshake =>
      if c.world.pollsConnect then
        match c.connector.pollConnect parts net with
        | .error p => (c, .connectPanicked p)
        | .ok res => c.onWorld (.pollReady ⟨res, handshake⟩)
      else c.onWorld (.pollReady ⟨.pending, handshake⟩)
  | .call req => c.onWorld (.call req)
  | .driver g d => c.onWorld (.driver g d)
  | .exchange i ev => c.onWorld (.exchange i ev)

abbrev Steps (parts : AuthorityParts) : Client → ClientEvent α × ClientOut → Client → Prop :=
  Fires (step parts)

variable {parts : AuthorityParts} {c c' : Client} {connector : Connector} {base : Uri}

/-- A client step is a step of its sender, or a panic of its connector. -/
theorem step_cases (parts : AuthorityParts) (c : Client) (ev : ClientEvent α) :
    (∃ wev, c.step parts ev = c.onWorld wev) ∨
      ∃ net p, c.connector.pollConnect (α := α) parts net = .error p ∧
        c.step parts ev = (c, .connectPanicked p) := by
  cases ev with
  | call req => exact .inl ⟨_, rfl⟩
  | driver g d => exact .inl ⟨_, rfl⟩
  | exchange i ev => exact .inl ⟨_, rfl⟩
  | pollReady net handshake =>
      cases hpolls : c.world.pollsConnect with
      | false => exact .inl ⟨.pollReady ⟨.pending, handshake⟩, by simp [step, hpolls]⟩
      | true =>
          cases hconnect : c.connector.pollConnect parts net with
          | ok res =>
              exact .inl ⟨.pollReady ⟨res, handshake⟩, by simp [step, hpolls, hconnect]⟩
          | error p => exact .inr ⟨net, p, hconnect, by simp [step, hpolls, hconnect]⟩

/-- Every state of the client has its connector and a reachable sender. -/
theorem world_of_reachable (h : Reachable (Steps (α := α) parts) (new connector base) c) :
    c.connector = connector ∧ Reachable World.Steps (World.new base) c.world := by
  refine h.invariant (I := fun d ↦ d.connector = connector ∧
    Reachable World.Steps (World.new base) d.world) ?_ ⟨rfl, .refl _⟩
  rintro d ⟨ev, o⟩ d' ⟨hconn, hreach⟩ hstep
  rcases step_cases parts d ev with ⟨wev, hworld⟩ | ⟨net, p, -, hpanic⟩
  · obtain ⟨rfl, -⟩ := Prod.mk.inj (hworld.symm.trans hstep)
    exact ⟨hconn, hreach.step (a := (wev, (d.world.step wev).2)) rfl⟩
  · obtain ⟨rfl, -⟩ := Prod.mk.inj (hpanic.symm.trans hstep)
    exact ⟨hconn, hreach⟩

/-- The client deals with whatever is missing from its URIs. -/
structure UriSafe (α : Type) (parts : AuthorityParts) (connector : Connector) (base : Uri) :
    Prop where
  noPanic : ∀ c, Reachable (Steps (α := α) parts) (new connector base) c → ∀ ev : ClientEvent α,
    (∀ p, (c.step parts ev).2 ≠ .connectPanicked p) ∧ ∀ p, (c.step parts ev).2 ≠ .out (.panicked p)
  /-- Without a base scheme or authority every request gets an error. -/
  missing : ∀ c, Reachable (Steps (α := α) parts) (new connector base) c →
    base.scheme = none ∨ base.authority = none → ∀ req, ∃ f acts e,
      (c.step (α := α) parts (.call req)).2 = .out (.called f acts) ∧ f.error = some e
  /-- A request that gets an error leaves the sender as it was, but for a deferred
  error that it takes with it. -/
  usable : ∀ c, Reachable (Steps (α := α) parts) (new connector base) c → ∀ req f acts e,
    (c.step (α := α) parts (.call req)).2 = .out (.called f acts) → f.error = some e →
    (c.step (α := α) parts (.call req)).1.world =
      { c.world with sender := { c.world.sender with connectError := none } }
  /-- The connector misses an authority: its error goes to the next request, after
  which the sender connects anew. -/
  unresolved : connector.backend ≠ .msquic → connector.uri.authority = none →
    ∀ net : Option (Net α), connector.pollConnect parts net = .ok (.ready (.error .invalidInput))
  deferred : ∀ c, Reachable (Steps (α := α) parts) (new connector base) c →
    c.world.pollsConnect = true → ∀ (net : Option (Net α)) handshake e,
    connector.pollConnect parts net = .ok (.ready (.error e)) → ∀ req, ∃ c₁ c₂ acts acts',
      c.step parts (.pollReady net handshake) = (c₁, .out (.polled (.ready (.ok ())) acts)) ∧
      c₁.step (α := α) parts (.call req) = (c₂, .out (.called (.connectError e) acts')) ∧
      c₂.world.pollsConnect = true
  /-- A request that is sent carries the base scheme and authority and its own
  path and query. -/
  outgoing : ∀ c, Reachable (Steps (α := α) parts) (new connector base) c → ∀ scheme authority,
    base.scheme = some scheme → base.authority = some authority → ∀ req, ∃ f acts,
      (c.step (α := α) parts (.call req)).2 = .out (.called f acts) ∧
      (f.error = none ↔
        c.world.sender.connectError = none ∧ c.world.sender.sendRequest.isSome) ∧
      ∀ i uri, f = .started i uri →
        uri = ⟨some scheme, some authority, some (req.uri.pathAndQuery.getD "/")⟩

theorem deferred_connectError {net : Option (Net α)} {handshake : Poll (Except Error Unit)}
    {e : Error} (hinv : c.world.Inv) (hpolls : c.world.pollsConnect = true)
    (hconnect : c.connector.pollConnect parts net = .ok (.ready (.error e))) (req : Request) :
    ∃ c₁ c₂ acts acts',
      c.step parts (.pollReady net handshake) = (c₁, .out (.polled (.ready (.ok ())) acts)) ∧
      c₁.step (α := α) parts (.call req) = (c₂, .out (.called (.connectError e) acts')) ∧
      c₂.world.pollsConnect = true := by
  obtain ⟨acts, hpoll⟩ := World.pollReady_of_connectError hpolls e handshake
  have hready : c.world.step (.pollReady ⟨.ready (.error e), handshake⟩) =
      (c.world.checked.defer e, .polled (.ready (.ok ())) acts) := by
    simp [World.step, hpoll]
  refine ⟨{ c with world := c.world.checked.defer e }, _, acts, [.deliver e], ?_, rfl, ?_⟩
  · simp only [step, hpolls, hconnect, onWorld, hready, if_true]
  · -- after the request the slot is idle again
    have hinv₁ := hinv.step (.pollReady ⟨.ready (.error e), handshake⟩)
    rw [hready] at hinv₁
    refine (hinv₁.step (.call req)).pollsConnect_of_idle ?_
    simp only [World.pollsConnect, Bool.and_eq_true, Option.isNone_iff_eq_none] at hpolls
    simp [World.step, World.call, World.defer, RequestSender.slot, hpolls.1.2]

theorem uriSafe_of_reaches (h : connector.Reaches parts)
    (hbuild : ∀ s a p, Http3.buildUri s a p = .ok ⟨some s, some a, some p⟩) :
    UriSafe α parts connector base where
  noPanic := by
    intro c hc ev
    obtain ⟨rfl, hworld⟩ := world_of_reachable hc
    rcases step_cases parts c ev with ⟨wev, hstep⟩ | ⟨net, p, hpanic, -⟩
    · rw [hstep]
      refine ⟨nofun, ?_⟩
      intro p hp
      exact (World.inv_of_reachable hworld).not_panicked wev p (ClientOut.out.inj hp)
    · obtain ⟨res, hres⟩ := Connector.pollConnect_ok h net
      rw [hres] at hpanic
      cases hpanic
  missing := by
    intro c hc hmissing req
    have hbase := World.base_of_reachable (world_of_reachable hc).2
    obtain ⟨hscheme, hauth⟩ := Prod.mk.inj hbase
    rw [← hscheme, ← hauth] at hmissing
    obtain ⟨e, he⟩ := World.call_error_of_missing req hmissing
    exact ⟨_, _, e, rfl, he⟩
  usable := by
    intro c hc req f acts e hcall herror
    obtain ⟨rfl, rfl⟩ := Output.called.inj (ClientOut.out.inj hcall)
    exact (c.world.call_spec req).world_of_error herror
  unresolved := fun hb huri net ↦ Connector.pollConnect_of_no_authority hb huri net
  deferred := by
    intro c hc hpolls net handshake e hconnect req
    obtain ⟨rfl, hworld⟩ := world_of_reachable hc
    exact deferred_connectError (World.inv_of_reachable hworld) hpolls hconnect req
  outgoing := by
    intro c hc scheme authority hscheme hauth req
    have hbase := World.base_of_reachable (world_of_reachable hc).2
    obtain ⟨hs, ha⟩ := Prod.mk.inj hbase
    have hcall := World.call_of_base req hbuild (hs.trans hscheme) (ha.trans hauth)
    exact ⟨_, _, rfl, hcall⟩

end Client

open Client

/-- The client path copes with every base URI, request URI and connector URI,
except an msquic connector whose URI lacks a host or a port. -/
theorem client_uri_safe_iff [Http3]
    (hbuild : ∀ s a p, Http3.buildUri s a p = .ok ⟨some s, some a, some p⟩) (α : Type)
    (parts : AuthorityParts) (connector : Connector) (base : Uri) :
    UriSafe α parts connector base ↔
      (connector.backend = .msquic →
        (connector.uri.host parts).isSome ∧ (connector.uri.portU16 parts).isSome) := by
  constructor
  · intro hsafe
    by_contra hnot
    obtain ⟨p, hp⟩ := Connector.pollConnect_panics (α := α) hnot none
    have hquiet := hsafe.noPanic _ (.refl _) (.pollReady none .pending)
    refine hquiet.1 p ?_
    have hpolls : (Client.new connector base).world.pollsConnect = true := rfl
    have hconnect : (Client.new connector base).connector.pollConnect (α := α) parts none =
        .error p := hp
    simp only [Client.step, hpolls, hconnect, if_true]
  · intro h
    exact uriSafe_of_reaches h hbuild

/-- The parts of the authorities `localhost:4433` and `localhost`. -/
def localParts : AuthorityParts :=
  ⟨fun _ ↦ "localhost", fun authority ↦ if authority = "localhost:4433" then some 4433 else none⟩

theorem client_uri_safe_local :
    letI := documentedHttp3
    UriSafe ℕ localParts ⟨.msquic, localUri⟩ ⟨none, none, none⟩ ∧
      UriSafe ℕ localParts ⟨.quinn, ⟨none, none, some "/"⟩⟩ localUri := by
  let _ := documentedHttp3
  constructor
  · exact (client_uri_safe_iff (fun _ _ _ ↦ rfl) ℕ localParts _ _).mpr fun _ ↦ by decide
  · exact (client_uri_safe_iff (fun _ _ _ ↦ rfl) ℕ localParts _ _).mpr nofun

/-- An msquic connector for `https://localhost`, which names no port. -/
theorem msquic_uri_panics :
    letI := documentedHttp3
    ¬ UriSafe ℕ localParts ⟨.msquic, ⟨some "https", some "localhost", some "/"⟩⟩ localUri := by
  let _ := documentedHttp3
  intro hsafe
  exact (hsafe.noPanic _ (.refl _) (.pollReady none .pending)).1 .unwrapPort rfl

end TonicH3
