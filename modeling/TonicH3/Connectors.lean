import TonicH3.FirstSuccess
import TonicH3.H3

/-!
# Connectors and address failover

The backends that resolve their addresses loop over them and keep the last
error.  What the steps of an attempt return is chosen by the environment, for
each attempt anew, so the attempts are numbered; the loops also return the
attempts they made.  Each loop is compared with `FirstSuccess.tryAll` over the
combined outcome of an attempt's steps.
-/

namespace TonicH3

open FirstSuccess

/-- `io::ErrorKind::AddrNotAvailable` and `io::ErrorKind::InvalidInput`, by
their texts. -/
def Error.addrNotAvailable : Error := .other "address not available"

def Error.invalidInput : Error := .other "invalid input parameter"

/-- `str::parse::<SocketAddr>` and `tokio::net::lookup_host`. -/
structure Resolver (α : Type) where
  parse : String → Option α
  lookupHost : String → Except Error (List α)

section Connect

variable {α γ : Type}

def dnsResolve (net : Resolver α) (uri : Uri) : Except Error (List α) :=
  match uri.authority with
  | none => .error .invalidInput
  | some hostPort =>
      match net.parse hostPort with
      | some addr => .ok [addr]
      | none => net.lookupHost hostPort

/-- An address, and the number of the attempt. -/
abbrev Attempt (α : Type) := α × ℕ

/-- The attempt at the head of the loop, then those of the rest. -/
def andThen (a : Attempt α) (r : List (Attempt α) × Except Error γ) :
    List (Attempt α) × Except Error γ :=
  (a :: r.1, r.2)

/-! ### quinn -/

/-- `Endpoint::connect` validates synchronously, the handshake is awaited. -/
structure QuinnSteps (γ : Type) where
  connect : Except Error Unit
  handshake : Except Error γ

def QuinnSteps.outcome (s : QuinnSteps γ) : Except Error γ := do
  s.connect
  s.handshake

structure H3QuinnConnector where
  uri : Uri

def H3QuinnConnector.connectLoop (steps : Attempt α → QuinnSteps γ) (connErr : Error) :
    List (Attempt α) → List (Attempt α) × Except Error γ
  | [] => ([], .error connErr)
  | a :: addrs =>
      match (steps a).connect with
      | .ok _ =>
          match (steps a).handshake with
          | .ok x => ([a], .ok x)
          | .error e => andThen a (connectLoop steps e addrs)
      | .error e => andThen a (connectLoop steps e addrs)

def H3QuinnConnector.connect (net : Resolver α) (steps : Attempt α → QuinnSteps γ)
    (c : H3QuinnConnector) : List (Attempt α) × Except Error γ :=
  match dnsResolve net c.uri with
  | .error e => ([], .error e)
  | .ok addrs => connectLoop steps .addrNotAvailable addrs.zipIdx

/-! ### s2n -/

structure S2nSteps (γ : Type) where
  connect : Except Error γ
  keepAlive : Except Error Unit

def S2nSteps.outcome (s : S2nSteps γ) : Except Error γ := do
  let conn ← s.connect
  s.keepAlive
  return conn

structure H3S2nConnector where
  uri : Uri

def H3S2nConnector.connectLoop (steps : Attempt α → S2nSteps γ) (connErr : Error) :
    List (Attempt α) → List (Attempt α) × Except Error γ
  | [] => ([], .error connErr)
  | a :: addrs =>
      match (steps a).connect with
      | .ok conn =>
          -- `conn.keep_alive(true)?` leaves the function, not the iteration
          match (steps a).keepAlive with
          | .error e => ([a], .error e)
          | .ok _ => ([a], .ok conn)
      | .error e => andThen a (connectLoop steps e addrs)

def H3S2nConnector.connect (net : Resolver α) (steps : Attempt α → S2nSteps γ)
    (c : H3S2nConnector) : List (Attempt α) × Except Error γ :=
  match dnsResolve net c.uri with
  | .error e => ([], .error e)
  | .ok addrs => connectLoop steps .addrNotAvailable addrs.zipIdx

/-! ### quiche -/

/-- `InnerConnector::new` and the `connect` it offers. -/
structure QuicheSteps (γ : Type) where
  new : Except Error Unit
  connect : Except Error γ

def QuicheSteps.outcome (s : QuicheSteps γ) : Except Error γ := do
  s.new
  s.connect

structure H3QuicheConnector where
  uri : Uri

def H3QuicheConnector.connectLoop (steps : Attempt α → QuicheSteps γ) (connErr : Error) :
    List (Attempt α) → List (Attempt α) × Except Error γ
  | [] => ([], .error connErr)
  | a :: addrs =>
      match (steps a).new with
      | .error e => andThen a (connectLoop steps e addrs)
      | .ok _ =>
          match (steps a).connect with
          | .ok conn => ([a], .ok conn)
          | .error e => andThen a (connectLoop steps e addrs)

def H3QuicheConnector.connect (net : Resolver α) (steps : Attempt α → QuicheSteps γ)
    (c : H3QuicheConnector) : List (Attempt α) × Except Error γ :=
  match dnsResolve net c.uri with
  | .error e => ([], .error e)
  | .ok addrs => connectLoop steps .addrNotAvailable addrs.zipIdx

/-! ## The loops and `tryAll` -/

theorem H3QuinnConnector.connectLoop_eq (steps : Attempt α → QuinnSteps γ) (connErr : Error)
    (addrs : List (Attempt α)) :
    connectLoop steps connErr addrs = tryAll (fun a ↦ (steps a).outcome) connErr addrs := by
  induction addrs generalizing connErr with
  | nil => rfl
  | cons a addrs ih =>
      cases hconnect : (steps a).connect with
      | error e =>
          simp [connectLoop, tryAll, QuinnSteps.outcome, hconnect, andThen, ih, bind, Except.bind]
      | ok u =>
          cases hshake : (steps a).handshake <;>
            simp [connectLoop, tryAll, QuinnSteps.outcome, hconnect, hshake, andThen, ih, bind,
              Except.bind]

theorem H3QuicheConnector.connectLoop_eq (steps : Attempt α → QuicheSteps γ) (connErr : Error)
    (addrs : List (Attempt α)) :
    connectLoop steps connErr addrs = tryAll (fun a ↦ (steps a).outcome) connErr addrs := by
  induction addrs generalizing connErr with
  | nil => rfl
  | cons a addrs ih =>
      cases hnew : (steps a).new with
      | error e =>
          simp [connectLoop, tryAll, QuicheSteps.outcome, hnew, andThen, ih, bind, Except.bind]
      | ok u =>
          cases hconnect : (steps a).connect <;>
            simp [connectLoop, tryAll, QuicheSteps.outcome, hnew, hconnect, andThen, ih, bind,
              Except.bind]

/-- The first address s2n can connect to passes `keep_alive`, or is the last. -/
def KeepAliveSettles (steps : Attempt α → S2nSteps γ) (addrs : List (Attempt α)) : Prop :=
  ∀ pre a post conn e, addrs = pre ++ a :: post →
    (∀ b ∈ pre, ∃ e, (steps b).connect = .error e) →
    (steps a).connect = .ok conn → (steps a).keepAlive = .error e → post = []

theorem H3S2nConnector.connectLoop_eq {steps : Attempt α → S2nSteps γ} {addrs : List (Attempt α)}
    (h : KeepAliveSettles steps addrs) (connErr : Error) :
    connectLoop steps connErr addrs = tryAll (fun a ↦ (steps a).outcome) connErr addrs := by
  induction addrs generalizing connErr with
  | nil => rfl
  | cons a addrs ih =>
      cases hconnect : (steps a).connect with
      | ok conn =>
          cases halive : (steps a).keepAlive with
          | ok u =>
              simp [connectLoop, tryAll, S2nSteps.outcome, hconnect, halive, bind, Except.bind,
                pure, Except.pure]
          | error e =>
              -- the loop stops here, so there must be nothing left to try
              obtain rfl := h [] a addrs conn e rfl (by simp) hconnect halive
              simp [connectLoop, tryAll, S2nSteps.outcome, hconnect, halive, bind, Except.bind]
      | error e =>
          have hrest : KeepAliveSettles steps addrs := by
            intro pre b post conn e' hsplit hpre
            refine h (a :: pre) b post conn e' (by rw [hsplit, List.cons_append]) ?_
            intro c hc
            rcases List.mem_cons.mp hc with rfl | hc
            · exact ⟨e, hconnect⟩
            · exact hpre c hc
          simp [connectLoop, tryAll, S2nSteps.outcome, hconnect, andThen, ih hrest, bind,
            Except.bind]

/-- Where the first connection fails its `keep_alive`, the loop is left with
that error. -/
theorem H3S2nConnector.connectLoop_append {steps : Attempt α → S2nSteps γ}
    {pre post : List (Attempt α)} {a : Attempt α} {conn : γ} {e : Error}
    (hpre : ∀ b ∈ pre, ∃ e, (steps b).connect = .error e) (hconnect : (steps a).connect = .ok conn)
    (halive : (steps a).keepAlive = .error e) (connErr : Error) :
    connectLoop steps connErr (pre ++ a :: post) = (pre ++ [a], .error e) := by
  induction pre generalizing connErr with
  | nil => simp [connectLoop, hconnect, halive]
  | cons b pre ih =>
      obtain ⟨e', hb⟩ := hpre b List.mem_cons_self
      have hrest := ih (fun c hc ↦ hpre c (List.mem_cons_of_mem b hc))
      simp [connectLoop, hb, andThen, hrest]

/-- What a connector that resolves its address should do: return the error of
the resolution, or try the addresses up to the first success. -/
def ConnectSpec (net : Resolver α) (uri : Uri) (outcome : Attempt α → Except Error γ)
    (r : List (Attempt α) × Except Error γ) : Prop :=
  match dnsResolve net uri with
  | .error e => r = ([], .error e)
  | .ok addrs => Outcome outcome .addrNotAvailable addrs.zipIdx r.1 r.2

theorem ConnectSpec.eq {net : Resolver α} {uri : Uri} {outcome : Attempt α → Except Error γ}
    {r r' : List (Attempt α) × Except Error γ} (h : ConnectSpec net uri outcome r)
    (h' : ConnectSpec net uri outcome r') : r = r' := by
  cases hdns : dnsResolve net uri with
  | error e =>
      simp only [ConnectSpec, hdns] at h h'
      exact h.trans h'.symm
  | ok addrs =>
      simp only [ConnectSpec, hdns] at h h'
      exact h.eq_tryAll.trans h'.eq_tryAll.symm

variable (net : Resolver α) (uri : Uri)

theorem H3QuinnConnector.connect_spec (steps : Attempt α → QuinnSteps γ) :
    ConnectSpec net uri (fun a ↦ (steps a).outcome) (connect net steps ⟨uri⟩) := by
  cases hdns : dnsResolve net uri with
  | error e => simp [ConnectSpec, connect, hdns]
  | ok addrs =>
      simp only [ConnectSpec, connect, hdns, connectLoop_eq]
      exact tryAll_outcome _ _ _

theorem H3QuicheConnector.connect_spec (steps : Attempt α → QuicheSteps γ) :
    ConnectSpec net uri (fun a ↦ (steps a).outcome) (connect net steps ⟨uri⟩) := by
  cases hdns : dnsResolve net uri with
  | error e => simp [ConnectSpec, connect, hdns]
  | ok addrs =>
      simp only [ConnectSpec, connect, hdns, connectLoop_eq]
      exact tryAll_outcome _ _ _

theorem H3S2nConnector.connect_spec_iff (steps : Attempt α → S2nSteps γ) :
    ConnectSpec net uri (fun a ↦ (steps a).outcome) (connect net steps ⟨uri⟩) ↔
      ∀ addrs, dnsResolve net uri = .ok addrs → KeepAliveSettles steps addrs.zipIdx := by
  cases hdns : dnsResolve net uri with
  | error e => simp [ConnectSpec, connect, hdns]
  | ok addrs =>
      simp only [ConnectSpec, connect, hdns, Except.ok.injEq, forall_eq']
      constructor
      · intro h pre a post conn e hsplit hpre hconnect halive
        rw [hsplit, connectLoop_append hpre hconnect halive] at h
        simpa using h.tried_of_error
      · intro h
        rw [connectLoop_eq h]
        exact tryAll_outcome _ _ _

end Connect

/-- Address failover of the three backends on the same addresses: each meets its
specification, and they agree on equal outcomes, exactly if s2n is never left
by a failing `keep_alive` with addresses still to try. -/
theorem address_failover_iff {α γ : Type} (net : Resolver α) (uri : Uri)
    (quinn : Attempt α → QuinnSteps γ) (s2n : Attempt α → S2nSteps γ)
    (quiche : Attempt α → QuicheSteps γ) :
    (ConnectSpec net uri (fun a ↦ (quinn a).outcome) (H3QuinnConnector.connect net quinn ⟨uri⟩) ∧
      ConnectSpec net uri (fun a ↦ (s2n a).outcome) (H3S2nConnector.connect net s2n ⟨uri⟩) ∧
      ConnectSpec net uri (fun a ↦ (quiche a).outcome)
        (H3QuicheConnector.connect net quiche ⟨uri⟩) ∧
      ((∀ a, (quinn a).outcome = (s2n a).outcome ∧ (quinn a).outcome = (quiche a).outcome) →
        H3QuinnConnector.connect net quinn ⟨uri⟩ = H3S2nConnector.connect net s2n ⟨uri⟩ ∧
        H3QuinnConnector.connect net quinn ⟨uri⟩ =
          H3QuicheConnector.connect net quiche ⟨uri⟩)) ↔
    ∀ addrs, dnsResolve net uri = .ok addrs → KeepAliveSettles s2n addrs.zipIdx := by
  rw [← H3S2nConnector.connect_spec_iff]
  constructor
  · rintro ⟨-, h, -⟩
    exact h
  · intro h
    have hquinn := H3QuinnConnector.connect_spec net uri quinn
    have hquiche := H3QuicheConnector.connect_spec net uri quiche
    refine ⟨hquinn, h, hquiche, ?_⟩
    intro hsame
    have hs2n : (fun a ↦ (quinn a).outcome) = fun a ↦ (s2n a).outcome :=
      funext fun a ↦ (hsame a).1
    have hquiche' : (fun a ↦ (quinn a).outcome) = fun a ↦ (quiche a).outcome :=
      funext fun a ↦ (hsame a).2
    constructor
    · rw [hs2n] at hquinn
      exact hquinn.eq h
    · rw [hquiche'] at hquinn
      exact hquinn.eq hquiche

/-- Two addresses, of which the first closes the connection before `keep_alive`
is set: the second is never tried. -/
theorem s2n_failover_aborted :
    let net : Resolver ℕ := ⟨fun _ ↦ none, fun _ ↦ .ok [6, 4]⟩
    let uri : Uri := ⟨some "https", some "localhost:443", none⟩
    let s2n : Attempt ℕ → S2nSteps ℕ := fun a ↦
      ⟨.ok a.1, if a.1 = 6 then .error (.other "connection closed") else .ok ()⟩
    H3S2nConnector.connect net s2n ⟨uri⟩ = ([(6, 0)], .error (.other "connection closed")) ∧
      ¬ ConnectSpec net uri (fun a ↦ (s2n a).outcome) (H3S2nConnector.connect net s2n ⟨uri⟩) := by
  intro net uri s2n
  refine ⟨rfl, ?_⟩
  intro h
  have htried := Outcome.tried_of_error h
  cases htried

end TonicH3
