import Mathlib.Data.List.Nodup
import TonicH3.H3

/-!
# The quinn acceptor

`H3QuinnAcceptor` takes connection attempts from an endpoint, runs their
handshakes in a `JoinSet`, and returns the connections that are ready.  Each
turn of its loop is one `select_conn`, which waits for the endpoint alone while
the `JoinSet` is empty and races both otherwise.  A branch that loses the race
has consumed nothing.

The attempts whose error has been logged are recorded, so that every attempt can
be accounted for at each moment.
-/

namespace TonicH3

/-- `h3_quinn::Endpoint`: the attempts waiting to be taken, the number of all
attempts so far, and the two ways in which `accept` comes to its end. -/
structure Endpoint where
  queue : List ℕ
  arrived : ℕ
  closed : Bool
  driverLost : Bool
  deriving DecidableEq, Repr

namespace Endpoint

def new : Endpoint := ⟨[], 0, false, false⟩

def ended (ep : Endpoint) : Bool := ep.closed || ep.driverLost

def accept (ep : Endpoint) : Poll (Option ℕ) × Endpoint :=
  if ep.driverLost then (.ready none, ep)
  else
    match ep.queue with
    | i :: rest => (.ready (some i), { ep with queue := rest })
    | [] => if ep.closed then (.ready none, ep) else (.pending, ep)

def arrive (ep : Endpoint) : Endpoint :=
  { ep with queue := ep.queue ++ [ep.arrived], arrived := ep.arrived + 1 }

end Endpoint

inductive HandshakeResult
  | ok
  | err (e : Error)
  | panicked
  deriving DecidableEq, Repr

structure HandshakeTask where
  id : ℕ
  result : Option HandshakeResult
  deriving DecidableEq, Repr

inductive ConnError
  | handshake (e : Error)
  | join
  deriving DecidableEq, Repr

inductive SelectOutputConn
  | newIncoming (i : ℕ)
  | newConn (i : ℕ)
  | connErr (i : ℕ) (e : ConnError)
  | done
  deriving DecidableEq, Repr

/-- What the random choices of one turn are: which branch of the `select!` is
polled first, and which of the finished tasks is joined. -/
structure Choice where
  incomingFirst : Bool
  joined : ℕ
  deriving DecidableEq, Repr

/-- What `select_conn` waits for, fixed when it is called. -/
inductive Mode
  | incomingOnly
  | both
  deriving DecidableEq, Repr

inductive AcceptPanic
  | joinSetEnded
  deriving DecidableEq, Repr

def finishedTasks (tasks : List HandshakeTask) : List (HandshakeTask × HandshakeResult) :=
  tasks.filterMap fun t ↦ t.result.map (t, ·)

/-- `JoinSet::join_next`: `None` of an empty set, any one of the finished tasks. -/
def joinNext (k : ℕ) (tasks : List HandshakeTask) :
    Poll (Option (ℕ × HandshakeResult)) × List HandshakeTask :=
  if tasks.isEmpty then (.ready none, tasks)
  else
    match ((finishedTasks tasks).drop k ++ finishedTasks tasks).head? with
    | some (t, res) => (.ready (some (t.id, res)), tasks.erase t)
    | none => (.pending, tasks)

def pollIncoming (ep : Endpoint) : Poll SelectOutputConn × Endpoint :=
  match ep.accept with
  | (.pending, ep) => (.pending, ep)
  | (.ready (some i), ep) => (.ready (.newIncoming i), ep)
  | (.ready none, ep) => (.ready .done, ep)

def pollJoin (k : ℕ) (tasks : List HandshakeTask) :
    Except AcceptPanic (Poll SelectOutputConn × List HandshakeTask) :=
  match joinNext k tasks with
  | (.pending, tasks) => .ok (.pending, tasks)
  | (.ready none, _) => .error .joinSetEnded
  | (.ready (some (i, .ok)), tasks) => .ok (.ready (.newConn i), tasks)
  | (.ready (some (i, .err e)), tasks) => .ok (.ready (.connErr i (.handshake e)), tasks)
  | (.ready (some (i, .panicked)), tasks) => .ok (.ready (.connErr i .join), tasks)

def Mode.start (tasks : List HandshakeTask) : Mode :=
  if tasks.isEmpty then .incomingOnly else .both

/-- One poll of `select_conn`.  The second branch is polled only if the first
is pending. -/
def selectConn (c : Choice) (ep : Endpoint) (tasks : List HandshakeTask) :
    Mode → Except AcceptPanic (Poll SelectOutputConn × Endpoint × List HandshakeTask)
  | .incomingOnly =>
      let (out, ep) := pollIncoming ep
      .ok (out, ep, tasks)
  | .both =>
      if c.incomingFirst then
        match pollIncoming ep with
        | (.ready out, ep) => .ok (.ready out, ep, tasks)
        | (.pending, ep) => (pollJoin c.joined tasks).map fun (out, tasks) ↦ (out, ep, tasks)
      else
        match pollJoin c.joined tasks with
        | .error p => .error p
        | .ok (.ready out, tasks) => .ok (.ready out, ep, tasks)
        | .ok (.pending, tasks) =>
            let (out, ep) := pollIncoming ep
            .ok (out, ep, tasks)

/-- The acceptor with the `accept` future in progress: before its next
`select_conn`, or suspended in one.  An attempt is `dropped` when its error is
logged. -/
structure H3QuinnAcceptor where
  ep : Endpoint
  tasks : List HandshakeTask
  waiting : Option Mode
  dropped : List ℕ
  deriving DecidableEq, Repr

inductive AcceptPoll
  | again
  | pending
  | ready (res : Except Error (Option ℕ))
  deriving DecidableEq, Repr

namespace H3QuinnAcceptor

def new (ep : Endpoint) : H3QuinnAcceptor := ⟨ep, [], none, []⟩

def onSelected (a : H3QuinnAcceptor) : SelectOutputConn → AcceptPoll × H3QuinnAcceptor
  | .newIncoming i => (.again, { a with tasks := a.tasks ++ [⟨i, none⟩] })
  | .newConn i => (.ready (.ok (some i)), a)
  | .connErr i _ => (.again, { a with dropped := a.dropped ++ [i] })
  | .done => (.ready (.ok none), a)

def accept (a : H3QuinnAcceptor) (c : Choice) :
    Except AcceptPanic (AcceptPoll × H3QuinnAcceptor) :=
  let mode := a.waiting.getD (.start a.tasks)
  match selectConn c a.ep a.tasks mode with
  | .error p => .error p
  | .ok (.pending, ep, tasks) =>
      .ok (.pending, { a with ep := ep, tasks := tasks, waiting := some mode })
  | .ok (.ready out, ep, tasks) =>
      .ok ({ a with ep := ep, tasks := tasks, waiting := none }.onSelected out)

def finish (a : H3QuinnAcceptor) (i : ℕ) (res : HandshakeResult) : H3QuinnAcceptor :=
  { a with tasks := a.tasks.map fun t ↦
      if t.id = i ∧ t.result = none then { t with result := some res } else t }

end H3QuinnAcceptor

/-! ## What one turn can do -/

/-- The outcomes of one poll of `select_conn` over a `JoinSet` that is not
empty if it is raced. -/
inductive Selected (ep : Endpoint) (tasks : List HandshakeTask) :
    Poll SelectOutputConn → Endpoint → List HandshakeTask → Prop
  | pending : Selected ep tasks .pending ep tasks
  | incoming (i : ℕ) (rest : List ℕ) : ep.queue = i :: rest →
      Selected ep tasks (.ready (.newIncoming i)) { ep with queue := rest } tasks
  | ended : ep.ended = true → Selected ep tasks (.ready .done) ep tasks
  | connected (t : HandshakeTask) : t ∈ tasks → t.result = some .ok →
      Selected ep tasks (.ready (.newConn t.id)) ep (tasks.erase t)
  | failed (t : HandshakeTask) (res : HandshakeResult) (e : ConnError) :
      t ∈ tasks → t.result = some res → res ≠ .ok →
      Selected ep tasks (.ready (.connErr t.id e)) ep (tasks.erase t)

theorem pollIncoming_spec (ep : Endpoint) (tasks : List HandshakeTask) :
    Selected ep tasks (pollIncoming ep).1 (pollIncoming ep).2 tasks := by
  cases hlost : ep.driverLost with
  | true =>
      have hpoll : pollIncoming ep = (.ready .done, ep) := by
        simp [pollIncoming, Endpoint.accept, hlost]
      rw [hpoll]
      exact .ended (by simp [Endpoint.ended, hlost])
  | false =>
      cases hqueue : ep.queue with
      | cons i rest =>
          have hpoll : pollIncoming ep = (.ready (.newIncoming i), { ep with queue := rest }) := by
            simp [pollIncoming, Endpoint.accept, hlost, hqueue]
          rw [hpoll]
          exact .incoming i rest hqueue
      | nil =>
          cases hclosed : ep.closed with
          | true =>
              have hpoll : pollIncoming ep = (.ready .done, ep) := by
                simp [pollIncoming, Endpoint.accept, hlost, hqueue, hclosed]
              rw [hpoll]
              exact .ended (by simp [Endpoint.ended, hclosed])
          | false =>
              have hpoll : pollIncoming ep = (.pending, ep) := by
                simp [pollIncoming, Endpoint.accept, hlost, hqueue, hclosed]
              rw [hpoll]
              exact .pending

theorem mem_finishedTasks {tasks : List HandshakeTask} {t : HandshakeTask} {res : HandshakeResult}
    (h : (t, res) ∈ finishedTasks tasks) : t ∈ tasks ∧ t.result = some res := by
  obtain ⟨t', ht', hsome⟩ := List.mem_filterMap.mp h
  obtain ⟨res', hres, heq⟩ := Option.map_eq_some_iff.mp hsome
  cases heq
  exact ⟨ht', hres⟩

theorem pollJoin_spec (k : ℕ) {tasks : List HandshakeTask} (hne : tasks ≠ []) (ep : Endpoint) :
    ∃ out tasks', pollJoin k tasks = .ok (out, tasks') ∧ Selected ep tasks out ep tasks' := by
  have hempty : tasks.isEmpty = false := by simpa using hne
  cases hhead : ((finishedTasks tasks).drop k ++ finishedTasks tasks).head? with
  | none =>
      refine ⟨.pending, tasks, ?_, .pending⟩
      simp only [pollJoin, joinNext, hempty, hhead, Bool.false_eq_true, if_false]
  | some found =>
      obtain ⟨t, res⟩ := found
      have hmem : (t, res) ∈ finishedTasks tasks := by
        rcases List.mem_append.mp (List.mem_of_head? hhead) with hdrop | hall
        · exact List.mem_of_mem_drop hdrop
        · exact hall
      obtain ⟨ht, hres⟩ := mem_finishedTasks hmem
      cases res with
      | ok =>
          refine ⟨.ready (.newConn t.id), tasks.erase t, ?_, .connected t ht hres⟩
          simp only [pollJoin, joinNext, hempty, hhead, Bool.false_eq_true, if_false]
      | err e =>
          refine ⟨.ready (.connErr t.id (.handshake e)), tasks.erase t, ?_,
            .failed t _ _ ht hres nofun⟩
          simp only [pollJoin, joinNext, hempty, hhead, Bool.false_eq_true, if_false]
      | panicked =>
          refine ⟨.ready (.connErr t.id .join), tasks.erase t, ?_, .failed t _ _ ht hres nofun⟩
          simp only [pollJoin, joinNext, hempty, hhead, Bool.false_eq_true, if_false]

theorem selectConn_spec (c : Choice) (ep : Endpoint) {tasks : List HandshakeTask} {mode : Mode}
    (hmode : mode = .both → tasks ≠ []) :
    ∃ out ep' tasks', selectConn c ep tasks mode = .ok (out, ep', tasks') ∧
      Selected ep tasks out ep' tasks' := by
  have hincoming := pollIncoming_spec ep tasks
  generalize hpoll : pollIncoming ep = res at hincoming
  obtain ⟨out, ep'⟩ := res
  cases mode with
  | incomingOnly => exact ⟨out, ep', tasks, by simp [selectConn, hpoll], hincoming⟩
  | both =>
      obtain ⟨out', tasks', hjoin, hjoined⟩ := pollJoin_spec c.joined (hmode rfl) ep
      cases hfirst : c.incomingFirst with
      | true =>
          cases out with
          | ready o => exact ⟨.ready o, ep', tasks, by simp [selectConn, hfirst, hpoll], hincoming⟩
          | pending =>
              cases hincoming
              exact ⟨out', _, tasks', by simp [selectConn, hfirst, hpoll, hjoin, Except.map],
                hjoined⟩
      | false =>
          cases out' with
          | ready o => exact ⟨.ready o, ep, tasks', by simp [selectConn, hfirst, hjoin], hjoined⟩
          | pending =>
              cases hjoined
              exact ⟨out, ep', tasks, by simp [selectConn, hfirst, hjoin, hpoll], hincoming⟩

/-- The connection a turn of `accept` returned. -/
def AcceptPoll.returned : AcceptPoll → List ℕ
  | .ready (.ok (some i)) => [i]
  | _ => []

/-! ## Accounting for connection attempts -/

namespace H3QuinnAcceptor

/-- Every attempt that has arrived is in one place: queued at the endpoint, in
the `JoinSet`, dropped, or `handed` on by `accept`. -/
structure Inv (handed : List ℕ) (a : H3QuinnAcceptor) : Prop where
  ledger : ∀ i, a.ep.queue.count i + (a.tasks.map HandshakeTask.id).count i +
    a.dropped.count i + handed.count i = if i < a.ep.arrived then 1 else 0
  mode : a.waiting = some .both → a.tasks ≠ []

/-- What one turn of `accept` can do. -/
inductive Turn (a : H3QuinnAcceptor) : AcceptPoll → H3QuinnAcceptor → Prop
  | pending (mode : Mode) : (mode = .both → a.tasks ≠ []) →
      Turn a .pending { a with waiting := some mode }
  | took (i : ℕ) (rest : List ℕ) : a.ep.queue = i :: rest →
      Turn a .again
        { a with
          ep := { a.ep with queue := rest }
          tasks := a.tasks ++ [⟨i, none⟩]
          waiting := none }
  | failed (t : HandshakeTask) (res : HandshakeResult) :
      t ∈ a.tasks → t.result = some res → res ≠ .ok →
      Turn a .again
        { a with tasks := a.tasks.erase t, waiting := none, dropped := a.dropped ++ [t.id] }
  | connected (t : HandshakeTask) : t ∈ a.tasks → t.result = some .ok →
      Turn a (.ready (.ok (some t.id))) { a with tasks := a.tasks.erase t, waiting := none }
  | ended : a.ep.ended = true → Turn a (.ready (.ok none)) { a with waiting := none }

variable {handed : List ℕ} {a a' : H3QuinnAcceptor} {p : AcceptPoll}

theorem inv_new : Inv [] (new .new) where
  ledger := by simp [new, Endpoint.new]
  mode := nofun

theorem Inv.mode_start (hinv : Inv handed a) :
    a.waiting.getD (.start a.tasks) = .both → a.tasks ≠ [] := by
  cases hwaiting : a.waiting with
  | none =>
      intro hmode hempty
      simp [Mode.start, hempty] at hmode
  | some mode =>
      rintro rfl
      exact hinv.mode hwaiting

theorem count_erase_task {tasks : List HandshakeTask} {t : HandshakeTask} (ht : t ∈ tasks) (i : ℕ) :
    (tasks.map HandshakeTask.id).count i =
      ((tasks.erase t).map HandshakeTask.id).count i + [t.id].count i := by
  have hperm := ((List.perm_cons_erase ht).map HandshakeTask.id).count_eq i
  rw [hperm, List.map_cons, ← List.singleton_append, List.count_append, Nat.add_comm]

theorem Inv.accept_spec (hinv : Inv handed a) (c : Choice) :
    ∃ p a', a.accept c = .ok (p, a') ∧ Turn a p a' := by
  obtain ⟨out, ep', tasks', hselect, hspec⟩ := selectConn_spec c a.ep hinv.mode_start
  simp only [accept, hselect]
  cases hspec with
  | pending => exact ⟨_, _, rfl, .pending _ hinv.mode_start⟩
  | incoming i rest hqueue => exact ⟨_, _, rfl, .took i rest hqueue⟩
  | ended hended => exact ⟨_, _, rfl, .ended hended⟩
  | connected t ht hres => exact ⟨_, _, rfl, .connected t ht hres⟩
  | failed t res e ht hres hne => exact ⟨_, _, rfl, .failed t res ht hres hne⟩

/-- A turn moves one attempt from the endpoint to the `JoinSet`, or from there
to the attempts dropped or handed on. -/
theorem Turn.inv (h : Turn a p a') (hinv : Inv handed a) : Inv (handed ++ p.returned) a' := by
  cases h with
  | pending mode hmode =>
      refine ⟨by simpa [AcceptPoll.returned] using hinv.ledger, ?_⟩
      intro hwaiting
      exact hmode (Option.some.inj hwaiting)
  | ended hended => exact ⟨by simpa [AcceptPoll.returned] using hinv.ledger, nofun⟩
  | took i rest hqueue =>
      refine ⟨?_, nofun⟩
      intro j
      have hledger := hinv.ledger j
      rw [hqueue, ← List.singleton_append, List.count_append] at hledger
      simp only [List.map_append, List.map_singleton, List.count_append, AcceptPoll.returned,
        List.count_nil]
      omega
  | failed t res ht hres hne =>
      refine ⟨?_, nofun⟩
      intro j
      have hledger := hinv.ledger j
      rw [count_erase_task ht j] at hledger
      simp only [List.count_append, AcceptPoll.returned, List.count_nil]
      omega
  | connected t ht hres =>
      refine ⟨?_, nofun⟩
      intro j
      have hledger := hinv.ledger j
      rw [count_erase_task ht j] at hledger
      simp only [List.count_append, AcceptPoll.returned]
      omega

theorem Inv.finish (hinv : Inv handed a) (i : ℕ) (res : HandshakeResult) :
    Inv handed (a.finish i res) := by
  have hids : (a.finish i res).tasks.map HandshakeTask.id = a.tasks.map HandshakeTask.id := by
    simp only [H3QuinnAcceptor.finish, List.map_map]
    apply List.map_congr_left
    intro t _
    simp only [Function.comp_apply]
    split <;> rfl
  constructor
  · rw [hids]
    exact hinv.ledger
  · intro hwaiting hempty
    apply hinv.mode hwaiting
    simpa [H3QuinnAcceptor.finish] using hempty

theorem Inv.arrive (hinv : Inv handed a) : Inv handed { a with ep := a.ep.arrive } := by
  refine ⟨?_, hinv.mode⟩
  intro i
  have hledger := hinv.ledger i
  simp only [Endpoint.arrive, List.count_append]
  by_cases hi : i = a.ep.arrived
  · subst hi
    simp at hledger ⊢
    omega
  · have hnew : [a.ep.arrived].count i = 0 := by simp [Ne.symm hi]
    have hlt : i < a.ep.arrived + 1 ↔ i < a.ep.arrived := by omega
    rw [hnew]
    simp only [hlt]
    omega

/-- An attempt that the endpoint has given away is in one place. -/
theorem Inv.count_eq (hinv : Inv handed a) (i : ℕ) :
    (a.tasks.map HandshakeTask.id).count i + a.dropped.count i + handed.count i =
      if i < a.ep.arrived ∧ i ∉ a.ep.queue then 1 else 0 := by
  have hledger := hinv.ledger i
  by_cases hqueued : i ∈ a.ep.queue
  · have hpos := List.count_pos_iff.mpr hqueued
    rw [if_neg (fun h ↦ h.2 hqueued)]
    split at hledger <;> omega
  · rw [List.count_eq_zero_of_not_mem hqueued] at hledger
    simp only [hqueued, not_false_eq_true, and_true]
    omega

end H3QuinnAcceptor

end TonicH3
