import TonicH3.ServeInner

/-!
# The accept loop makes progress

`select_conn` races the endpoint against the handshakes in an unbiased
`select!`, so either branch may win every time.  Still no work is left waiting:
`accept` is pending only when no attempt is queued and no handshake has
finished, and every turn that is not pending does one piece of the work.  After
as many turns as there is work, each connection whose handshake had succeeded
has its task, and each attempt that was queued is in its handshake.
-/

namespace TonicH3

open EventRun

/-! ## One turn -/

/-- The outcomes of one poll of `select_conn` at an open endpoint: it is pending
only if there is nothing to do. -/
inductive Work (ep : Endpoint) (tasks : List HandshakeTask) :
    Poll SelectOutputConn → Endpoint → List HandshakeTask → Prop
  | idle : ep.queue = [] → finishedTasks tasks = [] → Work ep tasks .pending ep tasks
  | incoming (i : ℕ) (rest : List ℕ) : ep.queue = i :: rest →
      Work ep tasks (.ready (.newIncoming i)) { ep with queue := rest } tasks
  | connected (t : HandshakeTask) : (t, .ok) ∈ finishedTasks tasks →
      Work ep tasks (.ready (.newConn t.id)) ep (tasks.erase t)
  | failed (t : HandshakeTask) (res : HandshakeResult) (e : ConnError) :
      (t, res) ∈ finishedTasks tasks → res ≠ .ok →
      Work ep tasks (.ready (.connErr t.id e)) ep (tasks.erase t)

section Turn

variable {ep : Endpoint} {tasks : List HandshakeTask}

theorem pollIncoming_work (hopen : ep.ended = false) :
    (ep.queue = [] ∧ pollIncoming ep = (.pending, ep)) ∨
      ∃ i rest, ep.queue = i :: rest ∧
        pollIncoming ep = (.ready (.newIncoming i), { ep with queue := rest }) := by
  obtain ⟨hclosed, hlost⟩ : ep.closed = false ∧ ep.driverLost = false := by
    simpa [Endpoint.ended] using hopen
  cases hqueue : ep.queue with
  | nil => exact .inl ⟨rfl, by simp [pollIncoming, Endpoint.accept, hlost, hqueue, hclosed]⟩
  | cons i rest =>
      exact .inr ⟨i, rest, rfl, by simp [pollIncoming, Endpoint.accept, hlost, hqueue]⟩

theorem pollJoin_work (k : ℕ) (hne : tasks.isEmpty = false) (ep : Endpoint) :
    (finishedTasks tasks = [] ∧ pollJoin k tasks = .ok (.pending, tasks)) ∨
      ∃ out tasks', pollJoin k tasks = .ok (.ready out, tasks') ∧
        Work ep tasks (.ready out) ep tasks' := by
  cases hhead : ((finishedTasks tasks).drop k ++ finishedTasks tasks).head? with
  | none =>
      refine .inl ⟨?_, ?_⟩
      · have hnil := List.head?_eq_none_iff.mp hhead
        exact (List.append_eq_nil_iff.mp hnil).2
      · simp only [pollJoin, joinNext, hne, hhead, Bool.false_eq_true, if_false]
  | some found =>
      obtain ⟨t, res⟩ := found
      have hmem : (t, res) ∈ finishedTasks tasks := by
        rcases List.mem_append.mp (List.mem_of_head? hhead) with hdrop | hall
        · exact List.mem_of_mem_drop hdrop
        · exact hall
      refine .inr ?_
      simp only [pollJoin, joinNext, hne, hhead, Bool.false_eq_true, if_false]
      cases res with
      | ok => exact ⟨_, _, rfl, .connected t hmem⟩
      | err e => exact ⟨_, _, rfl, .failed t _ _ hmem (by simp)⟩
      | panicked => exact ⟨_, _, rfl, .failed t _ _ hmem (by simp)⟩

theorem selectConn_work (c : Choice) (tasks : List HandshakeTask) (hopen : ep.ended = false) :
    ∃ out ep' tasks', selectConn c ep tasks (.start tasks) = .ok (out, ep', tasks') ∧
      Work ep tasks out ep' tasks' := by
  cases hempty : tasks.isEmpty with
  | true =>
      have hnil : tasks = [] := by simpa using hempty
      subst hnil
      rcases pollIncoming_work hopen with ⟨hqueue, hpoll⟩ | ⟨i, rest, hqueue, hpoll⟩
      · exact ⟨_, _, _, by simp [selectConn, Mode.start, hpoll], .idle hqueue rfl⟩
      · exact ⟨_, _, _, by simp [selectConn, Mode.start, hpoll], .incoming i rest hqueue⟩
  | false =>
      have hincoming := pollIncoming_work hopen
      have hjoining := pollJoin_work c.joined hempty ep
      cases hfirst : c.incomingFirst with
      | true =>
          simp only [selectConn, Mode.start, hempty, hfirst, Bool.false_eq_true, if_false, if_true]
          rcases hincoming with ⟨hqueue, hpoll⟩ | ⟨i, rest, hqueue, hpoll⟩
          · rw [hpoll]
            rcases hjoining with ⟨hnone, hjoin⟩ | ⟨out, tasks', hjoin, hwork⟩
            · exact ⟨_, _, _, by simp [hjoin, Except.map], .idle hqueue hnone⟩
            · exact ⟨_, _, _, by simp [hjoin, Except.map], hwork⟩
          · rw [hpoll]
            exact ⟨_, _, _, rfl, .incoming i rest hqueue⟩
      | false =>
          simp only [selectConn, Mode.start, hempty, hfirst, Bool.false_eq_true, if_false]
          rcases hjoining with ⟨hnone, hjoin⟩ | ⟨out, tasks', hjoin, hwork⟩
          · rw [hjoin]
            rcases hincoming with ⟨hqueue, hpoll⟩ | ⟨i, rest, hqueue, hpoll⟩
            · exact ⟨_, _, _, by simp [hpoll], .idle hqueue hnone⟩
            · exact ⟨_, _, _, by simp [hpoll], .incoming i rest hqueue⟩
          · rw [hjoin]
            exact ⟨_, _, _, rfl, hwork⟩

theorem length_finishedTasks_erase {t : HandshakeTask} {res : HandshakeResult}
    (h : (t, res) ∈ finishedTasks tasks) :
    (finishedTasks tasks).length = (finishedTasks (tasks.erase t)).length + 1 := by
  obtain ⟨ht, hres⟩ := mem_finishedTasks h
  have hperm := ((List.perm_cons_erase ht).filterMap fun t ↦ t.result.map (t, ·)).length_eq
  simpa [finishedTasks, hres] using hperm

end Turn

namespace H3QuinnAcceptor

/-- What can be done without waiting: attempts to take, handshakes to join. -/
def backlog (a : H3QuinnAcceptor) : ℕ := a.ep.queue.length + (finishedTasks a.tasks).length

theorem idle_of_backlog {a : H3QuinnAcceptor} (h : a.backlog = 0) :
    a.ep.queue = [] ∧ ∀ t ∈ a.tasks, t.result = none := by
  obtain ⟨hqueue, hfinished⟩ : a.ep.queue = [] ∧ finishedTasks a.tasks = [] := by
    simpa [backlog] using h
  refine ⟨hqueue, ?_⟩
  intro t ht
  cases hres : t.result with
  | none => rfl
  | some res =>
      have hmem : (t, res) ∈ finishedTasks a.tasks :=
        List.mem_filterMap.mpr ⟨t, ht, by simp [hres]⟩
      rw [hfinished] at hmem
      cases hmem

/-- A suspended `select_conn` waits for what a new one would wait for. -/
def Settled (a : H3QuinnAcceptor) : Prop := ∀ mode, a.waiting = some mode → mode = .start a.tasks

variable {a : H3QuinnAcceptor}

theorem Settled.getD (h : a.Settled) : a.waiting.getD (.start a.tasks) = .start a.tasks := by
  cases hwaiting : a.waiting with
  | none => rfl
  | some mode => exact h mode hwaiting

/-- One turn of `accept` at an open endpoint, by what it did. -/
inductive Advance (a : H3QuinnAcceptor) : AcceptPoll → H3QuinnAcceptor → Prop
  | idle {a' : H3QuinnAcceptor} : a.backlog = 0 → a'.ep = a.ep → a'.tasks = a.tasks →
      Advance a .pending a'
  | took {a' : H3QuinnAcceptor} (i : ℕ) (rest : List ℕ) : a.ep.queue = i :: rest →
      a'.ep = { a.ep with queue := rest } → a'.tasks = a.tasks ++ [⟨i, none⟩] →
      Advance a .again a'
  | connected {a' : H3QuinnAcceptor} (t : HandshakeTask) : (t, .ok) ∈ finishedTasks a.tasks →
      a'.ep = a.ep → a'.tasks = a.tasks.erase t → Advance a (.ready (.ok (some t.id))) a'
  | failed {a' : H3QuinnAcceptor} (t : HandshakeTask) (res : HandshakeResult) :
      (t, res) ∈ finishedTasks a.tasks → res ≠ .ok → a'.ep = a.ep →
      a'.tasks = a.tasks.erase t → Advance a .again a'

theorem Settled.accept_advance (h : a.Settled) (hopen : a.ep.ended = false) (c : Choice) :
    ∃ p a', a.accept c = .ok (p, a') ∧ Advance a p a' := by
  obtain ⟨out, ep', tasks', hselect, hwork⟩ := selectConn_work c a.tasks hopen
  simp only [accept, h.getD, hselect]
  cases hwork with
  | idle hqueue hnone => exact ⟨_, _, rfl, .idle (by simp [backlog, hqueue, hnone]) rfl rfl⟩
  | incoming i rest hqueue => exact ⟨_, _, rfl, .took i rest hqueue rfl rfl⟩
  | connected t ht => exact ⟨_, _, rfl, .connected t ht rfl rfl⟩
  | failed t res e ht hres => exact ⟨_, _, rfl, .failed t res ht hres rfl rfl⟩

theorem onSelected_waiting (a : H3QuinnAcceptor) (out : SelectOutputConn) :
    (a.onSelected out).2.waiting = a.waiting := by
  cases out <;> rfl

theorem Settled.accept (h : a.Settled) {c : Choice} {p : AcceptPoll} {a' : H3QuinnAcceptor}
    (haccept : a.accept c = .ok (p, a')) : a'.Settled := by
  have hmode : Mode.start a.tasks = .both → a.tasks ≠ [] := by
    intro hmode hempty
    simp [Mode.start, hempty] at hmode
  obtain ⟨out, ep', tasks', hselect, hspec⟩ := selectConn_spec c a.ep hmode
  simp only [H3QuinnAcceptor.accept, h.getD, hselect] at haccept
  intro mode hwaiting
  cases out with
  | pending =>
      cases hspec
      obtain ⟨-, rfl⟩ := Prod.mk.inj (Except.ok.inj haccept)
      exact (Option.some.inj hwaiting).symm
  | ready out =>
      obtain rfl : _ = a' := congrArg Prod.snd (Except.ok.inj haccept)
      rw [onSelected_waiting] at hwaiting
      cases hwaiting

theorem Settled.finish (h : a.Settled) (i : ℕ) (res : HandshakeResult) :
    (a.finish i res).Settled := by
  intro mode hmode
  rw [h mode hmode]
  simp [Mode.start, H3QuinnAcceptor.finish]

theorem Advance.backlog_le {p : AcceptPoll} {a' : H3QuinnAcceptor} (h : Advance a p a') {n : ℕ}
    (hn : a.backlog ≤ n + 1) : a'.backlog ≤ n := by
  unfold backlog at hn ⊢
  cases h with
  | idle hzero hep htasks =>
      rw [hep, htasks]
      unfold backlog at hzero
      omega
  | took i rest hqueue hep htasks =>
      have hfinished : (finishedTasks (a.tasks ++ [⟨i, none⟩])).length =
          (finishedTasks a.tasks).length := by simp [finishedTasks]
      rw [hqueue, List.length_cons] at hn
      rw [hep, htasks, hfinished]
      simp only
      omega
  | connected t ht hep htasks =>
      have hlength := length_finishedTasks_erase ht
      rw [hep, htasks]
      omega
  | failed t res ht hres hep htasks =>
      have hlength := length_finishedTasks_erase ht
      rw [hep, htasks]
      omega

end H3QuinnAcceptor

/-! ## The server -/

namespace Server

variable {s : Server}

theorem settled_step {ev : ServerEvent} (h : s.outcome = .running → s.acceptor.Settled)
    (hrun : (s.step ev).outcome = .running) : (s.step ev).acceptor.Settled := by
  cases ev with
  | arrive => exact h hrun
  | closeEndpoint => exact h hrun
  | loseDriver => exact h hrun
  | fireSignal => exact h hrun
  | handshake i res => exact (h hrun).finish i res
  | pollSignal =>
      simp only [step] at hrun ⊢
      split at hrun
      · cases hrun
      · next hnot =>
          rw [if_neg hnot]
          exact h hrun
  | conn j cev =>
      obtain ⟨hacceptor, -, houtcome, -⟩ := step_task (s := s) (.inl ⟨j, cev, rfl⟩)
      rw [hacceptor]
      exact h (houtcome ▸ hrun)
  | request j rev =>
      obtain ⟨hacceptor, -, houtcome, -⟩ := step_task (s := s) (.inr ⟨j, rev, rfl⟩)
      rw [hacceptor]
      exact h (houtcome ▸ hrun)
  | pollAccept c =>
      simp only [step] at hrun ⊢
      split at hrun
      · next hs =>
          rw [if_pos hs]
          simp only [pollAccept] at hrun ⊢
          cases haccept : s.acceptor.accept c with
          | error p => simp [haccept] at hrun
          | ok res =>
              obtain ⟨p, a'⟩ := res
              have ha' := (h hs).accept haccept
              cases p with
              | again => simpa [haccept] using ha'
              | pending => simpa [haccept] using ha'
              | ready res =>
                  rcases res with e | _ | i
                  · simp [haccept, onAccept, ret] at hrun
                  · simp [haccept, onAccept, ret] at hrun
                  · simpa [haccept, onAccept] using ha'
      · next hs => exact absurd hrun hs

theorem settled_of_reachable (h : Reachable Steps new s) (hrun : s.outcome = .running) :
    s.acceptor.Settled := by
  refine h.invariant (I := fun s ↦ s.outcome = .running → s.acceptor.Settled) ?_ ?_ hrun
  · rintro u ev v hu rfl hv
    exact settled_step hu hv
  · rintro - mode hmode
    cases hmode

/-- The accept loop is running at an open endpoint. -/
structure Accepting (s : Server) : Prop where
  running : s.outcome = .running
  opened : s.acceptor.ep.ended = false
  settled : s.acceptor.Settled

/-- How the work of a state has been done in a later one: nothing is left to
do, no task was lost, connected attempts have their task, and queued attempts
are in their handshake. -/
structure Drained (s s' : Server) : Prop where
  accepting : s'.Accepting
  backlog : s'.acceptor.backlog = 0
  conns : s.conns.map ConnTask.id <+: s'.conns.map ConnTask.id
  unfinished : ∀ t ∈ s.acceptor.tasks, t.result = none → t ∈ s'.acceptor.tasks
  connected : ∀ t ∈ s.acceptor.tasks, t.result = some .ok → t.id ∈ s'.conns.map ConnTask.id
  queued : ∀ i ∈ s.acceptor.ep.queue, ⟨i, none⟩ ∈ s'.acceptor.tasks

theorem Drained.refl (h : s.Accepting) (hzero : s.acceptor.backlog = 0) : Drained s s := by
  obtain ⟨hqueue, hnone⟩ := H3QuinnAcceptor.idle_of_backlog hzero
  refine ⟨h, hzero, List.prefix_refl _, fun _ ht _ ↦ ht, ?_, ?_⟩
  · intro t ht hok
    rw [hnone t ht] at hok
    cases hok
  · intro i hi
    rw [hqueue] at hi
    cases hi

/-- A step that leaves the work and the connections alone. -/
theorem Drained.of_same {s' u : Server} (h : Drained u s')
    (hqueue : u.acceptor.ep.queue = s.acceptor.ep.queue)
    (htasks : u.acceptor.tasks = s.acceptor.tasks)
    (hconns : u.conns.map ConnTask.id = s.conns.map ConnTask.id) : Drained s s' := by
  obtain ⟨haccepting, hzero, hpre, hunfinished, hconnected, hqueued⟩ := h
  rw [htasks] at hunfinished hconnected
  rw [hqueue] at hqueued
  rw [hconns] at hpre
  exact ⟨haccepting, hzero, hpre, hunfinished, hconnected, hqueued⟩

/-- A turn of `accept`, and then the rest of the work. -/
theorem Drained.of_advance {s' u : Server} {p : AcceptPoll} (h : Drained u s')
    (hadvance : s.acceptor.Advance p u.acceptor)
    (hconns : u.conns.map ConnTask.id = s.conns.map ConnTask.id ++ p.returned) : Drained s s' := by
  have hpre : s.conns.map ConnTask.id <+: s'.conns.map ConnTask.id :=
    List.IsPrefix.trans ⟨p.returned, hconns.symm⟩ h.conns
  generalize ha : u.acceptor = a' at hadvance
  cases hadvance with
  | idle hzero hep htasks =>
      subst ha
      exact h.of_same (congrArg Endpoint.queue hep) htasks
        (by simpa [AcceptPoll.returned] using hconns)
  | took i rest hqueue hep htasks =>
      subst ha
      have hmem : ∀ t ∈ s.acceptor.tasks, t ∈ u.acceptor.tasks := by
        intro t ht
        rw [htasks]
        exact List.mem_append_left _ ht
      refine ⟨h.accepting, h.backlog, hpre, fun t ht ↦ h.unfinished t (hmem t ht),
        fun t ht ↦ h.connected t (hmem t ht), ?_⟩
      intro j hj
      rw [hqueue] at hj
      rcases List.mem_cons.mp hj with rfl | hj
      · exact h.unfinished _ (by simp [htasks]) rfl
      · exact h.queued j (by simpa [hep] using hj)
  | connected t ht hep htasks =>
      subst ha
      have hres := (mem_finishedTasks ht).2
      refine ⟨h.accepting, h.backlog, hpre, ?_, ?_, ?_⟩
      · intro t' ht' hnone
        apply h.unfinished t' _ hnone
        rw [htasks]
        refine (List.mem_erase_of_ne ?_).mpr ht'
        rintro rfl
        simp [hres] at hnone
      · intro t' ht' hok
        by_cases heq : t' = t
        · subst heq
          apply h.conns.subset
          simp [hconns, AcceptPoll.returned]
        · apply h.connected t' _ hok
          rw [htasks]
          exact (List.mem_erase_of_ne heq).mpr ht'
      · rw [← hep]
        exact h.queued
  | failed t res ht hres hep htasks =>
      subst ha
      have hresult := (mem_finishedTasks ht).2
      have hkeep : ∀ t' ∈ s.acceptor.tasks, t'.result ≠ some res → t' ∈ u.acceptor.tasks := by
        intro t' ht' hne
        rw [htasks]
        refine (List.mem_erase_of_ne ?_).mpr ht'
        rintro rfl
        exact hne hresult
      refine ⟨h.accepting, h.backlog, hpre, ?_, ?_, ?_⟩
      · intro t' ht' hnone
        exact h.unfinished t' (hkeep t' ht' (by simp [hnone])) hnone
      · intro t' ht' hok
        refine h.connected t' (hkeep t' ht' ?_) hok
        rw [hok]
        simpa using hres.symm
      · rw [← hep]
        exact h.queued

end Server

namespace ServerEvent

/-- The events of the accept loop and of what it waits for. -/
def isAccept : ServerEvent → Bool
  | .conn _ _ | .request _ _ => false
  | _ => true

def isPoll : ServerEvent → Bool
  | .pollAccept _ => true
  | _ => false

/-- Turns of `accept`, and whatever the connections and the requests do. -/
def isTurn (ev : ServerEvent) : Bool := ev.isPoll || !ev.isAccept

end ServerEvent

namespace Server

variable {s : Server}

theorem pollAccept_advance (h : s.Accepting) (c : Choice) :
    (s.step (.pollAccept c)).Accepting ∧
      ∃ p, s.acceptor.Advance p (s.step (.pollAccept c)).acceptor ∧
        (s.step (.pollAccept c)).conns.map ConnTask.id =
          s.conns.map ConnTask.id ++ p.returned := by
  obtain ⟨p, a', haccept, hadvance⟩ := h.settled.accept_advance h.opened c
  have hstep : s.step (.pollAccept c) = s.pollAccept c := by simp [step, h.running]
  have hsettled := h.settled.accept haccept
  rw [hstep]
  simp only [pollAccept, haccept]
  cases hadvance with
  | idle hzero hep htasks =>
      exact ⟨⟨h.running, hep ▸ h.opened, hsettled⟩, _, .idle hzero hep htasks,
        by simp [AcceptPoll.returned]⟩
  | took i rest hqueue hep htasks =>
      refine ⟨⟨h.running, ?_, hsettled⟩, _, .took i rest hqueue hep htasks,
        by simp [AcceptPoll.returned]⟩
      simpa [hep, Endpoint.ended] using h.opened
  | connected t ht hep htasks =>
      exact ⟨⟨h.running, hep ▸ h.opened, hsettled⟩, _, .connected t ht hep htasks,
        by simp [AcceptPoll.returned, onAccept]⟩
  | failed t res ht hres hep htasks =>
      exact ⟨⟨h.running, hep ▸ h.opened, hsettled⟩, _, .failed t res ht hres hep htasks,
        by simp [AcceptPoll.returned]⟩

theorem of_not_isAccept {ev : ServerEvent} (hev : ev.isAccept = false) :
    (∃ j cev, ev = .conn j cev) ∨ ∃ j rev, ev = .request j rev := by
  cases ev with
  | conn j cev => exact .inl ⟨j, cev, rfl⟩
  | request j rev => exact .inr ⟨j, rev, rfl⟩
  | _ => cases hev

theorem drained_foldl (h : s.Accepting) {evs : List ServerEvent}
    (hevs : ∀ ev ∈ evs, ev.isTurn = true)
    (hpolls : s.acceptor.backlog ≤ evs.countP ServerEvent.isPoll) :
    Drained s (evs.foldl step s) := by
  induction evs generalizing s with
  | nil => exact .refl h (Nat.le_zero.mp hpolls)
  | cons ev evs ih =>
      have hrest : ∀ ev ∈ evs, ev.isTurn = true := fun e he ↦ hevs e (List.mem_cons_of_mem _ he)
      cases haccept : ev.isAccept with
      | false =>
          obtain ⟨hacceptor, -, houtcome, hconns⟩ := step_task (s := s) (of_not_isAccept haccept)
          have hpoll : ev.isPoll = false := by cases ev <;> first | rfl | cases haccept
          have hnext : (s.step ev).Accepting :=
            ⟨houtcome ▸ h.running, hacceptor ▸ h.opened, hacceptor ▸ h.settled⟩
          have hdrained := ih hnext hrest (by simpa [hacceptor, hpoll] using hpolls)
          exact hdrained.of_same (by rw [hacceptor]) (by rw [hacceptor]) hconns
      | true =>
          have hpoll : ev.isPoll = true := by
            simpa [ServerEvent.isTurn, haccept] using hevs ev (by simp)
          cases ev with
          | pollAccept c =>
              obtain ⟨hnext, p, hadvance, hconns⟩ := pollAccept_advance h c
              rw [List.countP_cons_of_pos rfl] at hpolls
              exact (ih hnext hrest (hadvance.backlog_le hpolls)).of_advance hadvance hconns
          | _ => cases hpoll

end Server

/-- From every reachable state of the server that is accepting at an open
endpoint: `accept` is pending only if no attempt is queued and no handshake has
finished; and in every sequence of turns of `accept` and of events of the
connections and the requests, whichever branch wins each `select!`, that has as
many turns as there was work, all of it has been done and the server accepts on. -/
theorem accept_drains {s : Server} (h : Reachable Server.Steps Server.new s)
    (hrun : s.outcome = .running) (hopen : s.acceptor.ep.ended = false) :
    (∀ c a', s.acceptor.accept c = .ok (.pending, a') →
      s.acceptor.ep.queue = [] ∧ ∀ t ∈ s.acceptor.tasks, t.result = none) ∧
    ∀ evs : List ServerEvent, (∀ ev ∈ evs, ev.isTurn = true) →
      s.acceptor.backlog ≤ evs.countP ServerEvent.isPoll →
      (evs.foldl Server.step s).outcome = .running ∧
        (evs.foldl Server.step s).acceptor.ep.queue = [] ∧
        (∀ t ∈ (evs.foldl Server.step s).acceptor.tasks, t.result = none) ∧
        (∀ i ∈ s.acceptor.ep.queue, ⟨i, none⟩ ∈ (evs.foldl Server.step s).acceptor.tasks) ∧
        ∀ t ∈ s.acceptor.tasks, t.result = some .ok →
          t.id ∈ (evs.foldl Server.step s).conns.map ConnTask.id := by
  have haccepting : s.Accepting := ⟨hrun, hopen, Server.settled_of_reachable h hrun⟩
  constructor
  · intro c a' hpending
    obtain ⟨p, a'', haccept, hadvance⟩ := haccepting.settled.accept_advance hopen c
    rw [hpending] at haccept
    cases haccept
    cases hadvance with
    | idle hzero hep htasks => exact H3QuinnAcceptor.idle_of_backlog hzero
  · intro evs hevs hpolls
    have hdrained := Server.drained_foldl haccepting hevs hpolls
    obtain ⟨hqueue, hnone⟩ := H3QuinnAcceptor.idle_of_backlog hdrained.backlog
    exact ⟨hdrained.accepting.running, hqueue, hnone, hdrained.queued, hdrained.connected⟩

def oneConnected : List ServerEvent :=
  [.arrive, .pollAccept ⟨true, 0⟩, .pollAccept ⟨true, 0⟩, .handshake 0 .ok, .arrive]

theorem accept_drains_oneConnected :
    ∃ s, Run Server.Steps Server.new oneConnected s ∧ s.acceptor.backlog = 2 ∧ s.conns = [] ∧
      0 ∈ ([ServerEvent.pollAccept ⟨true, 0⟩, .pollAccept ⟨true, 0⟩].foldl
        Server.step s).conns.map ConnTask.id := by
  have hrun : Run Server.Steps Server.new oneConnected
      (oneConnected.foldl Server.step Server.new) := run_foldl Server.step Server.new oneConnected
  have hdrained := (accept_drains ⟨_, hrun⟩ rfl rfl).2
    [.pollAccept ⟨true, 0⟩, .pollAccept ⟨true, 0⟩] (by decide) (by decide)
  exact ⟨_, hrun, rfl, rfl, hdrained.2.2.2.2 ⟨0, some .ok⟩ (by decide) rfl⟩

end TonicH3
