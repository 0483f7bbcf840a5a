import TonicH3.QuinnServer
import TonicH3.ServeRequest

/-!
# The server

`serve_inner` races `accept` against the shutdown signal, hands every
connection to a task of its own, and every request resolver of a connection to
another one.  Failures stay inside the task they happen in.

The acceptor advances by single turns of its loop, so that everything else can
happen between two turns.
-/

namespace TonicH3

open EventRun

inductive ConnPhase
  | settingUp
  | accepting
  | ended
  deriving DecidableEq, Repr

structure ConnTask where
  id : ℕ
  phase : ConnPhase
  deriving DecidableEq, Repr

inductive ConnEvent
  | setUp (ok : Bool)
  | resolver (r : ℕ)
  | noMore
  | acceptErr
  | crash
  deriving DecidableEq, Repr

inductive RequestPhase
  | resolving
  | serving (s : ServeRequest)
  | ended
  deriving DecidableEq, Repr

structure RequestTask where
  resolver : ℕ
  conn : ℕ
  phase : RequestPhase
  deriving DecidableEq, Repr

inductive RequestEvent
  | resolve (ok : Bool)
  | serve (ev : ServeEvent)
  | crash
  deriving DecidableEq, Repr

inductive Return
  | acceptNone
  | acceptErr (e : Error)
  | signal
  deriving DecidableEq, Repr

inductive ServerOutcome
  | running
  | returned (r : Return)
  | panicked (p : AcceptPanic)
  deriving DecidableEq, Repr

structure Server where
  acceptor : H3QuinnAcceptor
  signal : Bool
  outcome : ServerOutcome
  conns : List ConnTask
  requests : List RequestTask
  deriving DecidableEq, Repr

inductive ServerEvent
  | arrive
  | closeEndpoint
  | loseDriver
  | handshake (i : ℕ) (res : HandshakeResult)
  | fireSignal
  | pollAccept (c : Choice)
  | pollSignal
  | conn (j : ℕ) (ev : ConnEvent)
  | request (j : ℕ) (ev : RequestEvent)
  deriving DecidableEq, Repr

namespace RequestTask

/-- A request that cannot be resolved, and every exit of `serve_request`, end
the task and nothing else. -/
def step (t : RequestTask) (ev : RequestEvent) : RequestTask :=
  match t.phase, ev with
  | .resolving, .resolve true => { t with phase := .serving .new }
  | .resolving, .resolve false => { t with phase := .ended }
  | .serving s, .serve ev =>
      match s.step ev with
      | some (.exited _ _ _) => { t with phase := .ended }
      | some s => { t with phase := .serving s }
      | none => t
  | _, .crash => { t with phase := .ended }
  | _, _ => t

/-- What the task was given: a resolver, and the connection it is of. -/
def origin (t : RequestTask) : ℕ × ℕ := (t.conn, t.resolver)

theorem step_origin (t : RequestTask) (ev : RequestEvent) : (t.step ev).origin = t.origin := by
  unfold step
  split
  · rfl
  · rfl
  · split <;> rfl
  · rfl
  · rfl

end RequestTask

namespace Server

def new : Server := ⟨.new .new, false, .running, [], []⟩

/-- Returning drops the acceptor, and with it the handshakes in progress. -/
def ret (s : Server) (r : Return) : Server :=
  { s with outcome := .returned r, acceptor := { s.acceptor with tasks := [] } }

def onAccept (s : Server) : Except Error (Option ℕ) → Server
  | .error e => s.ret (.acceptErr e)
  | .ok none => s.ret .acceptNone
  | .ok (some i) => { s with conns := s.conns ++ [⟨i, .settingUp⟩] }

def pollAccept (s : Server) (c : Choice) : Server :=
  match s.acceptor.accept c with
  | .error p => { s with outcome := .panicked p }
  | .ok (.ready res, a) => { s with acceptor := a }.onAccept res
  | .ok (_, a) => { s with acceptor := a }

theorem requests_pollAccept (s : Server) (c : Choice) :
    (s.pollAccept c).requests = s.requests := by
  unfold pollAccept
  split
  · rfl
  · next res a haccept => rcases res with e | _ | i <;> rfl
  · rfl

def setConn (s : Server) (j : ℕ) (t : ConnTask) (phase : ConnPhase) : Server :=
  { s with conns := s.conns.set j { t with phase := phase } }

def spawnRequest (s : Server) (t : ConnTask) (r : ℕ) : Server :=
  { s with requests := s.requests ++ [⟨r, t.id, .resolving⟩] }

def onConn (s : Server) (j : ℕ) (t : ConnTask) (ev : ConnEvent) : Server :=
  match t.phase, ev with
  | .settingUp, .setUp true => s.setConn j t .accepting
  | .settingUp, .setUp false => s.setConn j t .ended
  | .accepting, .resolver r => s.spawnRequest t r
  | .accepting, .noMore => s.setConn j t .ended
  | .accepting, .acceptErr => s.setConn j t .ended
  | _, .crash => s.setConn j t .ended
  | _, _ => s

def step (s : Server) : ServerEvent → Server
  | .arrive => { s with acceptor := { s.acceptor with ep := s.acceptor.ep.arrive } }
  | .closeEndpoint =>
      { s with acceptor := { s.acceptor with ep := { s.acceptor.ep with closed := true } } }
  | .loseDriver =>
      { s with acceptor := { s.acceptor with ep := { s.acceptor.ep with driverLost := true } } }
  | .handshake i res => { s with acceptor := s.acceptor.finish i res }
  | .fireSignal => { s with signal := true }
  | .pollAccept c => if s.outcome = .running then s.pollAccept c else s
  | .pollSignal => if s.outcome = .running ∧ s.signal then s.ret .signal else s
  | .conn j ev =>
      match s.conns[j]? with
      | some t => s.onConn j t ev
      | none => s
  | .request j ev =>
      match s.requests[j]? with
      | some t => { s with requests := s.requests.set j (t.step ev) }
      | none => s

abbrev Steps (s : Server) (ev : ServerEvent) (s' : Server) : Prop := s.step ev = s'

/-! ## What is seen of a run

Both are read off the events alone, with the task that an event is for. -/

/-- A connection yields a resolver to its task, while that is in its accept
loop. -/
def yieldsOf (t : ConnTask) : ConnEvent → List (ℕ × ℕ)
  | .resolver r => if t.phase = .accepting then [(t.id, r)] else []
  | _ => []

def yields (s : Server) : ServerEvent → List (ℕ × ℕ)
  | .conn j ev => s.conns[j]?.toList.flatMap (yieldsOf · ev)
  | _ => []

/-- A handshake in progress ends. -/
def verdicts (s : Server) : ServerEvent → List (ℕ × HandshakeResult)
  | .handshake i res => if ⟨i, none⟩ ∈ s.acceptor.tasks then [(i, res)] else []
  | _ => []

/-! ## The invariant -/

def Justified (s : Server) : ServerOutcome → Prop
  | .running => True
  | .returned .acceptNone => s.acceptor.ep.ended = true
  | .returned (.acceptErr _) => False
  | .returned .signal => s.signal = true
  | .panicked _ => False

/-- While the server runs its acceptor is in order, with the connection tasks
as the connections it has returned. -/
structure Inv (s : Server) : Prop where
  accepting : s.outcome = .running → s.acceptor.Inv (s.conns.map ConnTask.id)
  justified : s.Justified s.outcome

theorem inv_new : new.Inv where
  accepting _ := H3QuinnAcceptor.inv_new
  justified := trivial

variable {s s' : Server}

theorem Justified.mono {out : ServerOutcome} (h : s.Justified out)
    (hended : s.acceptor.ep.ended = true → s'.acceptor.ep.ended = true)
    (hsignal : s.signal = true → s'.signal = true) : s'.Justified out := by
  cases out with
  | running => trivial
  | panicked p => exact h
  | returned r =>
      cases r with
      | acceptNone => exact hended h
      | acceptErr e => exact h
      | signal => exact hsignal h

/-- A poll of `accept` while the server runs: a turn of the acceptor, and then
a new connection task, the return, or neither. -/
theorem Inv.pollAccept_spec (hinv : s.Inv) (hrun : s.outcome = .running) (c : Choice) :
    ∃ p a', s.acceptor.accept c = .ok (p, a') ∧ s.acceptor.Turn p a' ∧
      ((p = .ready (.ok none) ∧ a'.ep.ended = true ∧
          s.pollAccept c = ({ s with acceptor := a' } : Server).ret .acceptNone) ∨
        (s.pollAccept c).outcome = .running ∧
          s.pollAccept c = { s with
            acceptor := a'
            conns := s.conns ++ p.returned.map (⟨·, .settingUp⟩) }) := by
  obtain ⟨p, a', haccept, hturn⟩ := (hinv.accepting hrun).accept_spec c
  refine ⟨p, a', haccept, hturn, ?_⟩
  simp only [Server.pollAccept, haccept]
  cases hturn with
  | pending mode hmode => exact .inr ⟨hrun, by simp [AcceptPoll.returned]⟩
  | took i rest hqueue => exact .inr ⟨hrun, by simp [AcceptPoll.returned]⟩
  | failed t res ht hres hne => exact .inr ⟨hrun, by simp [AcceptPoll.returned]⟩
  | connected t ht hres => exact .inr ⟨hrun, by simp [onAccept, AcceptPoll.returned]⟩
  | ended hended => exact .inl ⟨rfl, hended, rfl⟩

theorem Inv.pollAccept (hinv : s.Inv) (hrun : s.outcome = .running) (c : Choice) :
    (s.pollAccept c).Inv := by
  obtain ⟨p, a', -, hturn, ⟨-, hended, heq⟩ | ⟨hrun', heq⟩⟩ := hinv.pollAccept_spec hrun c
  · rw [heq]
    exact ⟨nofun, hended⟩
  · refine ⟨fun _ ↦ ?_, by rw [hrun']; trivial⟩
    rw [heq]
    simpa [Function.comp_def] using hturn.inv (hinv.accepting hrun)

theorem onConn_spec (s : Server) (j : ℕ) (t : ConnTask) (ev : ConnEvent) :
    (∃ ph, s.onConn j t ev = s.setConn j t ph) ∨
      (∃ r, t.phase = .accepting ∧ ev = .resolver r ∧ s.onConn j t ev = s.spawnRequest t r) ∨
      s.onConn j t ev = s := by
  unfold onConn
  split
  · exact .inl ⟨_, rfl⟩
  · exact .inl ⟨_, rfl⟩
  · next r hphase => exact .inr (.inl ⟨r, hphase, rfl, rfl⟩)
  · exact .inl ⟨_, rfl⟩
  · exact .inl ⟨_, rfl⟩
  · exact .inl ⟨_, rfl⟩
  · exact .inr (.inr rfl)

theorem map_set_of_eq {α β : Type*} {f : α → β} {l : List α} {j : ℕ} {x y : α}
    (hj : l[j]? = some x) (hf : f y = f x) : (l.set j y).map f = l.map f := by
  apply List.ext_getElem?
  intro i
  by_cases hij : j = i
  · subst hij
    obtain ⟨hlt, hget⟩ := List.getElem?_eq_some_iff.mp hj
    simp [hlt, hget, hf]
  · simp [hij]

/-- The connections and the requests leave `serve_inner` alone, and no
connection task appears or disappears with them. -/
theorem step_task {ev : ServerEvent}
    (hev : (∃ j cev, ev = .conn j cev) ∨ ∃ j rev, ev = .request j rev) :
    (s.step ev).acceptor = s.acceptor ∧ (s.step ev).signal = s.signal ∧
      (s.step ev).outcome = s.outcome ∧
      (s.step ev).conns.map ConnTask.id = s.conns.map ConnTask.id := by
  rcases hev with ⟨j, cev, rfl⟩ | ⟨j, rev, rfl⟩
  · cases hj : s.conns[j]? with
    | none => simp [step, hj]
    | some t =>
        simp only [step, hj]
        rcases s.onConn_spec j t cev with ⟨ph, heq⟩ | ⟨r, -, -, heq⟩ | heq <;> rw [heq]
        · exact ⟨rfl, rfl, rfl, map_set_of_eq hj rfl⟩
        · exact ⟨rfl, rfl, rfl, rfl⟩
        · exact ⟨rfl, rfl, rfl, rfl⟩
  · cases hj : s.requests[j]? with
    | none => simp [step, hj]
    | some t => simp [step, hj]

theorem Inv.task (hinv : s.Inv) {ev : ServerEvent}
    (hev : (∃ j cev, ev = .conn j cev) ∨ ∃ j rev, ev = .request j rev) : (s.step ev).Inv := by
  obtain ⟨hacceptor, hsignal, houtcome, hids⟩ := step_task (s := s) hev
  constructor
  · rw [houtcome, hacceptor, hids]
    exact hinv.accepting
  · rw [houtcome]
    exact hinv.justified.mono (by rw [hacceptor]; exact id) (by rw [hsignal]; exact id)

theorem Inv.endpoint (hinv : s.Inv) {ep : Endpoint} (hqueue : ep.queue = s.acceptor.ep.queue)
    (harrived : ep.arrived = s.acceptor.ep.arrived)
    (hended : s.acceptor.ep.ended = true → ep.ended = true) :
    ({ s with acceptor := { s.acceptor with ep := ep } } : Server).Inv := by
  refine ⟨?_, hinv.justified.mono hended id⟩
  intro hrun
  obtain ⟨hledger, hmode⟩ := hinv.accepting hrun
  refine ⟨?_, hmode⟩
  rw [hqueue, harrived]
  exact hledger

theorem Inv.step (hinv : s.Inv) (ev : ServerEvent) : (s.step ev).Inv := by
  cases ev with
  | arrive => exact ⟨fun hrun ↦ (hinv.accepting hrun).arrive, hinv.justified.mono id id⟩
  | closeEndpoint => exact hinv.endpoint rfl rfl (fun _ ↦ by simp [Endpoint.ended])
  | loseDriver => exact hinv.endpoint rfl rfl (fun _ ↦ by simp [Endpoint.ended])
  | handshake i res =>
      exact ⟨fun hrun ↦ (hinv.accepting hrun).finish i res, hinv.justified.mono id id⟩
  | fireSignal => exact ⟨hinv.accepting, hinv.justified.mono id (fun _ ↦ rfl)⟩
  | pollAccept c =>
      simp only [Server.step]
      split
      · next hrun => exact hinv.pollAccept hrun c
      · exact hinv
  | pollSignal =>
      simp only [Server.step]
      split
      · next hfired => exact ⟨by simp [ret], hfired.2⟩
      · exact hinv
  | conn j cev => exact hinv.task (.inl ⟨j, cev, rfl⟩)
  | request j rev => exact hinv.task (.inr ⟨j, rev, rfl⟩)

theorem inv_of_reachable (h : Reachable Steps new s) : s.Inv := by
  refine h.invariant ?_ inv_new
  rintro u ev v hu rfl
  exact hu.step ev

theorem Inv.outcome_step (hinv : s.Inv) (hrun : s.outcome = .running) {ev : ServerEvent}
    (hleft : (s.step ev).outcome ≠ .running) :
    (∃ c, ev = .pollAccept c ∧ s.acceptor.ep.ended = true ∧
        (s.step ev).outcome = .returned .acceptNone) ∨
      (ev = .pollSignal ∧ s.signal = true ∧ (s.step ev).outcome = .returned .signal) := by
  cases ev with
  | arrive => exact absurd hrun hleft
  | closeEndpoint => exact absurd hrun hleft
  | loseDriver => exact absurd hrun hleft
  | handshake i res => exact absurd hrun hleft
  | fireSignal => exact absurd hrun hleft
  | request j rev =>
      rw [(step_task (.inr ⟨j, rev, rfl⟩)).2.2.1] at hleft
      exact absurd hrun hleft
  | conn j cev =>
      rw [(step_task (.inl ⟨j, cev, rfl⟩)).2.2.1] at hleft
      exact absurd hrun hleft
  | pollSignal =>
      simp only [Server.step] at hleft
      split at hleft
      · next hfired => exact .inr ⟨rfl, hfired.2, by simp [Server.step, hfired, ret]⟩
      · exact absurd hrun hleft
  | pollAccept c =>
      have hstep : s.step (.pollAccept c) = s.pollAccept c := by simp [Server.step, hrun]
      rw [hstep] at hleft ⊢
      obtain ⟨p, a', -, hturn, ⟨rfl, -, heq⟩ | ⟨hrun', -⟩⟩ := hinv.pollAccept_spec hrun c
      · cases hturn with
        | ended hended => exact .inl ⟨c, rfl, hended, by rw [heq]; rfl⟩
      · exact absurd hrun' hleft

/-! ## Resolvers and verdicts -/

theorem requests_onConn (s : Server) (j : ℕ) (t : ConnTask) (ev : ConnEvent) :
    (s.onConn j t ev).requests.map RequestTask.origin =
      s.requests.map RequestTask.origin ++ yieldsOf t ev := by
  obtain ⟨i, phase⟩ := t
  cases ev with
  | resolver r =>
      cases phase with
      | accepting => simp [onConn, yieldsOf, spawnRequest, RequestTask.origin]
      | settingUp => simp [onConn, yieldsOf]
      | ended => simp [onConn, yieldsOf]
  | setUp ok => cases phase <;> cases ok <;> simp [onConn, yieldsOf, setConn]
  | noMore => cases phase <;> simp [onConn, yieldsOf, setConn]
  | acceptErr => cases phase <;> simp [onConn, yieldsOf, setConn]
  | crash => simp [onConn, yieldsOf, setConn]

/-- Every step hands the resolvers that are yielded to new request tasks. -/
theorem requests_step (s : Server) (ev : ServerEvent) :
    (s.step ev).requests.map RequestTask.origin =
      s.requests.map RequestTask.origin ++ s.yields ev := by
  cases ev with
  | conn j cev =>
      cases hj : s.conns[j]? with
      | none => simp [step, yields, hj]
      | some t => simpa [step, yields, hj] using s.requests_onConn j t cev
  | request j rev =>
      cases hj : s.requests[j]? with
      | none => simp [step, yields, hj]
      | some t =>
          simp only [step, hj, yields, List.append_nil]
          exact map_set_of_eq hj (t.step_origin rev)
  | pollAccept c =>
      simp only [step, yields, List.append_nil]
      split
      · rw [requests_pollAccept]
      · rfl
  | pollSignal =>
      simp only [step, yields, List.append_nil]
      split <;> rfl
  | _ => simp [step, yields]

/-- The endpoint has given the attempt away. -/
def Taken (s : Server) (i : ℕ) : Prop := i < s.acceptor.ep.arrived ∧ i ∉ s.acceptor.ep.queue

/-- The verdicts `seen` so far: no attempt has two, those in the `JoinSet` agree
with them, an attempt is dropped for a failure and handed on for a success. -/
structure Decided (seen : List (ℕ × HandshakeResult)) (s : Server) : Prop where
  nodup : (seen.map Prod.fst).Nodup
  taken : ∀ i ∈ seen.map Prod.fst, s.Taken i
  tasks_taken : ∀ t ∈ s.acceptor.tasks, s.Taken t.id
  unfinished : ∀ t ∈ s.acceptor.tasks, t.result = none → t.id ∉ seen.map Prod.fst
  finished : ∀ t ∈ s.acceptor.tasks, ∀ res, t.result = some res → (t.id, res) ∈ seen
  dropped : ∀ i ∈ s.acceptor.dropped, ∃ res, res ≠ .ok ∧ (i, res) ∈ seen
  connected : ∀ i ∈ s.conns.map ConnTask.id, (i, .ok) ∈ seen

variable {seen : List (ℕ × HandshakeResult)}

theorem decided_new : Decided [] new := by
  constructor <;> simp [new, H3QuinnAcceptor.new]

theorem Decided.of_subset (h : Decided seen s)
    (htasks : s'.acceptor.tasks ⊆ s.acceptor.tasks) (htaken : ∀ i, s.Taken i → s'.Taken i)
    (hdropped : s'.acceptor.dropped = s.acceptor.dropped)
    (hconns : s'.conns.map ConnTask.id = s.conns.map ConnTask.id) : Decided seen s' where
  nodup := h.nodup
  taken i hi := htaken i (h.taken i hi)
  tasks_taken t ht := htaken t.id (h.tasks_taken t (htasks ht))
  unfinished t ht := h.unfinished t (htasks ht)
  finished t ht := h.finished t (htasks ht)
  dropped := by
    rw [hdropped]
    exact h.dropped
  connected := by
    rw [hconns]
    exact h.connected

theorem Decided.erase (h : Decided seen s) (t : HandshakeTask) :
    Decided seen { s with acceptor := { s.acceptor with tasks := s.acceptor.tasks.erase t } } :=
  h.of_subset List.erase_subset (fun _ hi ↦ hi) rfl rfl

/-- Every outcome of a turn of `accept` agrees with the verdicts. -/
theorem Decided.turn (h : Decided seen s) {handed : List ℕ} (hinv : s.acceptor.Inv handed)
    {p : AcceptPoll} {a' : H3QuinnAcceptor} (hturn : s.acceptor.Turn p a') :
    Decided seen { s with
      acceptor := a'
      conns := s.conns ++ p.returned.map (⟨·, .settingUp⟩) } := by
  cases hturn with
  | pending mode hmode => exact h.of_subset (List.Subset.refl _) (fun _ hi ↦ hi) rfl (by
      simp [AcceptPoll.returned])
  | ended hended => exact h.of_subset (List.Subset.refl _) (fun _ hi ↦ hi) rfl (by
      simp [AcceptPoll.returned])
  | took i rest hqueue =>
      have hi : i < s.acceptor.ep.arrived ∧ i ∉ rest := by
        have hledger := hinv.ledger i
        rw [hqueue, List.count_cons_self] at hledger
        refine ⟨by by_contra hlt; simp [hlt] at hledger, ?_⟩
        intro hmem
        have hpos := List.count_pos_iff.mpr hmem
        split at hledger <;> omega
      have htaken : ∀ j, s.Taken j → j < s.acceptor.ep.arrived ∧ j ∉ rest := by
        rintro j ⟨hlt, hj⟩
        rw [hqueue] at hj
        exact ⟨hlt, fun hmem ↦ hj (List.mem_cons_of_mem i hmem)⟩
      obtain ⟨hnodup, hseen, htasks, hunfinished, hfinished, hdropped, hconnected⟩ := h
      refine ⟨hnodup, fun j hj ↦ htaken j (hseen j hj), ?_, ?_, ?_, hdropped, ?_⟩
      · intro t ht
        rcases List.mem_append.mp ht with ht | ht
        · exact htaken t.id (htasks t ht)
        · rw [List.mem_singleton.mp ht]
          exact hi
      · intro t ht hnone
        rcases List.mem_append.mp ht with ht | ht
        · exact hunfinished t ht hnone
        · rw [List.mem_singleton.mp ht]
          intro hmem
          exact (hseen i hmem).2 (by simp [hqueue])
      · intro t ht res hres
        rcases List.mem_append.mp ht with ht | ht
        · exact hfinished t ht res hres
        · rw [List.mem_singleton.mp ht] at hres
          cases hres
      · simpa [AcceptPoll.returned] using hconnected
  | failed t res ht hres hne =>
      have hrest := h.erase t
      refine ⟨hrest.nodup, hrest.taken, hrest.tasks_taken, hrest.unfinished, hrest.finished, ?_,
        by simpa [AcceptPoll.returned] using h.connected⟩
      intro i hi
      rcases List.mem_append.mp hi with hi | hi
      · exact h.dropped i hi
      · rw [List.mem_singleton.mp hi]
        exact ⟨res, hne, h.finished t ht res hres⟩
  | connected t ht hres =>
      have hrest := h.erase t
      refine ⟨hrest.nodup, hrest.taken, hrest.tasks_taken, hrest.unfinished, hrest.finished,
        h.dropped, ?_⟩
      intro i hi
      rw [List.map_append, List.mem_append] at hi
      rcases hi with hi | hi
      · exact h.connected i hi
      · obtain rfl : i = t.id := by simpa [AcceptPoll.returned] using hi
        exact h.finished t ht .ok hres

theorem Decided.handshake (h : Decided seen s) (i : ℕ) (res : HandshakeResult) :
    Decided (seen ++ s.verdicts (.handshake i res)) (s.step (.handshake i res)) := by
  have hmem : ∀ t ∈ (s.acceptor.finish i res).tasks, ∃ t' ∈ s.acceptor.tasks, t.id = t'.id ∧
      ((t = t' ∧ ¬ (t'.id = i ∧ t'.result = none)) ∨
        (t'.id = i ∧ t'.result = none ∧ t.result = some res)) := by
    intro t ht
    obtain ⟨t', ht', heq⟩ := List.mem_map.mp ht
    refine ⟨t', ht', ?_⟩
    split at heq
    · next hcond =>
        subst heq
        exact ⟨rfl, .inr ⟨hcond.1, hcond.2, rfl⟩⟩
    · next hcond =>
        subst heq
        exact ⟨rfl, .inl ⟨rfl, hcond⟩⟩
  obtain ⟨hnodup, hseen, htasks, hunfinished, hfinished, hdropped, hconnected⟩ := h
  by_cases hrunning : (⟨i, none⟩ : HandshakeTask) ∈ s.acceptor.tasks
  · have hverdict : s.verdicts (.handshake i res) = [(i, res)] := by simp [verdicts, hrunning]
    rw [hverdict]
    refine ⟨?_, ?_, ?_, ?_, ?_, ?_, ?_⟩
    · rw [List.map_append, List.nodup_append]
      refine ⟨hnodup, by simp, ?_⟩
      rintro a ha b hb rfl
      obtain rfl : a = i := by simpa using hb
      exact hunfinished _ hrunning rfl ha
    · intro j hj
      rw [List.map_append, List.mem_append] at hj
      rcases hj with hj | hj
      · exact hseen j hj
      · obtain rfl : j = i := by simpa using hj
        exact htasks _ hrunning
    · intro t ht
      obtain ⟨t', ht', hid, -⟩ := hmem t ht
      rw [hid]
      exact htasks t' ht'
    · intro t ht hnone
      obtain ⟨t', ht', hid, ⟨rfl, hne⟩ | ⟨-, -, hsome⟩⟩ := hmem t ht
      · have hother : t.id ≠ i := fun heq ↦ hne ⟨heq, hnone⟩
        simpa [hother] using hunfinished t ht' hnone
      · rw [hnone] at hsome
        cases hsome
    · intro t ht res' hres
      obtain ⟨t', ht', hid, ⟨rfl, -⟩ | ⟨heq, -, hsome⟩⟩ := hmem t ht
      · exact List.mem_append_left _ (hfinished t ht' res' hres)
      · rw [hres] at hsome
        obtain rfl := Option.some.inj hsome
        simp [hid, heq]
    · intro j hj
      obtain ⟨res', hne, hin⟩ := hdropped j hj
      exact ⟨res', hne, List.mem_append_left _ hin⟩
    · intro j hj
      exact List.mem_append_left _ (hconnected j hj)
  · have hverdict : s.verdicts (.handshake i res) = [] := by simp [verdicts, hrunning]
    rw [hverdict, List.append_nil]
    -- no task is changed
    refine Decided.of_subset ⟨hnodup, hseen, htasks, hunfinished, hfinished, hdropped, hconnected⟩
      ?_ (fun _ hj ↦ hj) rfl rfl
    intro t ht
    obtain ⟨t', ht', -, ⟨rfl, -⟩ | ⟨hid, hnone, -⟩⟩ := hmem t ht
    · exact ht'
    · obtain ⟨j, r⟩ := t'
      obtain rfl : j = i := hid
      obtain rfl : r = none := hnone
      exact absurd ht' hrunning

theorem Decided.step (h : Decided seen s) (hinv : s.Inv) (ev : ServerEvent) :
    Decided (seen ++ s.verdicts ev) (s.step ev) := by
  cases ev with
  | handshake i res => exact h.handshake i res
  | arrive =>
      simp only [verdicts, List.append_nil]
      refine h.of_subset (List.Subset.refl _) ?_ rfl rfl
      rintro i ⟨hlt, hi⟩
      refine ⟨Nat.lt_succ_of_lt hlt, ?_⟩
      intro hmem
      rcases List.mem_append.mp hmem with hmem | hmem
      · exact hi hmem
      · rw [List.mem_singleton.mp hmem] at hlt
        exact Nat.lt_irrefl _ hlt
  | closeEndpoint =>
      simp only [verdicts, List.append_nil]
      exact h.of_subset (List.Subset.refl _) (fun _ hi ↦ hi) rfl rfl
  | loseDriver =>
      simp only [verdicts, List.append_nil]
      exact h.of_subset (List.Subset.refl _) (fun _ hi ↦ hi) rfl rfl
  | fireSignal =>
      simp only [verdicts, List.append_nil]
      exact h.of_subset (List.Subset.refl _) (fun _ hi ↦ hi) rfl rfl
  | pollSignal =>
      simp only [verdicts, List.append_nil, Server.step]
      split
      · exact h.of_subset (List.nil_subset _) (fun _ hi ↦ hi) rfl rfl
      · exact h
  | pollAccept c =>
      simp only [verdicts, List.append_nil, Server.step]
      split
      · next hrun =>
          obtain ⟨p, a', -, hturn, ⟨rfl, -, heq⟩ | ⟨-, heq⟩⟩ := hinv.pollAccept_spec hrun c
          · rw [heq]
            refine (h.turn (hinv.accepting hrun) hturn).of_subset (List.nil_subset _)
              (fun _ hi ↦ hi) rfl ?_
            simp [ret, AcceptPoll.returned]
          · rw [heq]
            exact h.turn (hinv.accepting hrun) hturn
      · exact h
  | conn j cev =>
      obtain ⟨hacceptor, -, -, hids⟩ := step_task (s := s) (.inl ⟨j, cev, rfl⟩)
      simp only [verdicts, List.append_nil]
      refine h.of_subset ?_ ?_ (by rw [hacceptor]) hids
      · rw [hacceptor]
        exact List.Subset.refl _
      · simp only [Taken, hacceptor]
        exact fun _ hi ↦ hi
  | request j rev =>
      obtain ⟨hacceptor, -, -, hids⟩ := step_task (s := s) (.inr ⟨j, rev, rfl⟩)
      simp only [verdicts, List.append_nil]
      refine h.of_subset ?_ ?_ (by rw [hacceptor]) hids
      · rw [hacceptor]
        exact List.Subset.refl _
      · simp only [Taken, hacceptor]
        exact fun _ hi ↦ hi

variable {tr : List ServerEvent}

theorem decided_of_run (h : Run Steps new tr s) :
    s.Inv ∧ Decided (observed Server.step verdicts new tr) s := by
  refine h.observe (I := fun seen s ↦ s.Inv ∧ Decided seen s) ?_ ⟨inv_new, decided_new⟩
  rintro seen u ev ⟨hinv, hdecided⟩
  exact ⟨hinv.step ev, hdecided.step hinv ev⟩

theorem requests_of_run (h : Run Steps new tr s) :
    s.requests.map RequestTask.origin = observed Server.step yields new tr := by
  refine h.observe (I := fun seen s ↦ s.requests.map RequestTask.origin = seen) ?_ rfl
  intro seen u ev hseen
  rw [requests_step, hseen]

end Server

open Server

/-- In every run of the server.  While it runs, every connection attempt that
the endpoint has given away is in exactly one place: the `JoinSet`, dropped, or
a connection task; it is dropped only because its handshake failed or panicked,
and handed on only because it succeeded.  The resolvers that the connections
have yielded are, one by one, those of the request tasks.  `accept` neither
fails nor panics, and `serve_inner` returns only because the endpoint has ended
or the signal fired. -/
theorem no_connection_lost {tr : List ServerEvent} {s : Server} (h : Run Steps Server.new tr s) :
    (s.outcome = .running → ∀ i,
      (s.acceptor.tasks.map HandshakeTask.id).count i + s.acceptor.dropped.count i +
        (s.conns.map ConnTask.id).count i =
          if i < s.acceptor.ep.arrived ∧ i ∉ s.acceptor.ep.queue then 1 else 0) ∧
    ((observed Server.step verdicts Server.new tr).map Prod.fst).Nodup ∧
    (∀ i ∈ s.acceptor.dropped, ∃ res, res ≠ .ok ∧
      (i, res) ∈ observed Server.step verdicts Server.new tr) ∧
    (∀ i ∈ s.conns.map ConnTask.id, (i, .ok) ∈ observed Server.step verdicts Server.new tr) ∧
    s.requests.map RequestTask.origin = observed Server.step yields Server.new tr ∧
    (∀ c, s.outcome = .running → ∃ p a, s.acceptor.accept c = .ok (p, a) ∧
      ∀ e, p ≠ .ready (.error e)) ∧
    (∀ p, s.outcome ≠ .panicked p) ∧
    (∀ ev, s.outcome = .running → (s.step ev).outcome ≠ .running →
      (∃ c, ev = .pollAccept c ∧ s.acceptor.ep.ended = true ∧
        (s.step ev).outcome = .returned .acceptNone) ∨
      (ev = .pollSignal ∧ s.signal = true ∧ (s.step ev).outcome = .returned .signal)) := by
  obtain ⟨hinv, hdecided⟩ := decided_of_run h
  refine ⟨?_, hdecided.nodup, hdecided.dropped, hdecided.connected, requests_of_run h, ?_, ?_, ?_⟩
  · intro hrun i
    exact (hinv.accepting hrun).count_eq i
  · intro c hrun
    obtain ⟨p, a, haccept, hturn⟩ := (hinv.accepting hrun).accept_spec c
    refine ⟨p, a, haccept, ?_⟩
    rintro e rfl
    cases hturn
  · intro p hpanicked
    have hleft := hinv.justified
    rw [hpanicked] at hleft
    exact hleft
  · intro ev hrun hleft
    exact hinv.outcome_step hrun hleft

/-- Of two attempts the first fails.  The connection of the second yields two
requests, one of which panics, and then ends with an error. -/
def oneFailure : List ServerEvent :=
  [.arrive, .arrive, .pollAccept ⟨true, 0⟩, .pollAccept ⟨true, 0⟩,
    .handshake 0 (.err (.other "timed out")), .handshake 1 .ok, .pollAccept ⟨false, 0⟩,
    .pollAccept ⟨false, 0⟩, .conn 0 (.setUp true), .conn 0 (.resolver 7), .request 0 .crash,
    .conn 0 (.resolver 8), .request 1 (.resolve true), .conn 0 .acceptErr]

theorem no_connection_lost_oneFailure :
    ∃ s, Run Steps Server.new oneFailure s ∧ s.outcome = .running ∧
      s.acceptor.dropped = [0] ∧ s.conns = [⟨1, .ended⟩] ∧
      s.requests.map RequestTask.origin = [(1, 7), (1, 8)] ∧
      (s.acceptor.tasks.map HandshakeTask.id).count 0 + s.acceptor.dropped.count 0 +
        (s.conns.map ConnTask.id).count 0 = 1 ∧
      (1, .ok) ∈ observed Server.step verdicts Server.new oneFailure := by
  have hrun : Run Steps Server.new oneFailure (oneFailure.foldl Server.step Server.new) :=
    run_foldl Server.step Server.new oneFailure
  obtain ⟨hcount, -, -, hconnected, hrequests, -⟩ := no_connection_lost hrun
  refine ⟨_, hrun, rfl, rfl, rfl, ?_, hcount rfl 0, hconnected 1 (by decide)⟩
  rw [hrequests]
  rfl

end TonicH3
