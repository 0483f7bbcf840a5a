import TonicH3.EventRun
import TonicH3.ServerBody

/-!
# Serving one request

`serve_request` calls the service, sends the response headers and then the
response body.  The send half of the stream is a local of the function, so it is
dropped on every exit: an error, a panic of the service, or the drop of the
future at an await.  Only the body send is covered by a `SendResetGuard`.
-/

namespace TonicH3

open EventRun

inductive ServiceAnswer
  | pending
  | returns (response : BodyScript)
  | panics
  deriving DecidableEq, Repr

inductive SendResponseAnswer
  | pending
  | ok
  | err (e : StreamError)
  deriving DecidableEq, Repr

inductive ServeExit
  | returned (res : Except Error Unit)
  | panicked
  | dropped
  deriving DecidableEq, Repr

/-- The awaits of `serve_request`, each with the send half it holds. -/
inductive ServeRequest
  | calling (w : SendStream)
  | responding (w : SendStream) (res : Body)
  | sendingBody (fut : SendFuture)
  | exited (w : SendStream) (res : Option Body) (exit : ServeExit)
  deriving DecidableEq, Repr

inductive ServeEvent
  | service (a : ServiceAnswer)
  | sendResponse (a : SendResponseAnswer)
  | body (a : Answers)
  | drop
  deriving DecidableEq, Repr

namespace ServeRequest

def new : ServeRequest := .calling .new

def afterBody : SendFuture → ServeRequest
  | .returned w bd res => .exited w.drop (some bd) (.returned res)
  | fut => .sendingBody fut

/-- One event; an event the await does not offer has no outcome.  The body send
is polled as soon as it exists, so it is not dropped before its first poll.  A
panic of the body source unwinds through the guard as a drop at its await does. -/
def step : ServeRequest → ServeEvent → Option ServeRequest
  | .calling w, .service .pending => some (.calling w)
  | .calling w, .service (.returns res) => some (.responding w (.new res))
  | .calling w, .service .panics => some (.exited w.drop none .panicked)
  | .calling w, .drop => some (.exited w.drop none .dropped)
  | .responding w bd, .sendResponse .pending => some (.responding w bd)
  | .responding w bd, .sendResponse .ok =>
      some (.sendingBody (.unpolled (w.record (.headers true)) bd))
  | .responding w bd, .sendResponse (.err e) =>
      some (.exited (w.record (.headers false)).drop (some bd) (.returned (.error (.stream e))))
  | .responding w bd, .drop => some (.exited w.drop (some bd) .dropped)
  | .sendingBody fut, .body a =>
      if fut.isOver then none else some (afterBody (sendH3ServerBody a fut).1)
  | .sendingBody fut, .drop =>
      if fut.isPolled then
        some (.exited (fut.drop .borrowed).stream.drop (some fut.source) .dropped)
      else none
  | _, _ => none

def Steps (s : ServeRequest) (ev : ServeEvent) (s' : ServeRequest) : Prop := s.step ev = some s'

def withHeaders : SendStream := SendStream.new.record (.headers true)

theorem withHeaders_fresh : withHeaders.Fresh := ⟨rfl, rfl⟩

/-! ## The body send -/

/-- The headers and every frame of the response were sent, and the source of
the body had ended. -/
def Sent (w : SendStream) (res : Option Body) : Prop :=
  ∃ bd rest, res = some bd ∧ bd.ended = true ∧ bd.rest = [] ∧ bd.ending = .done ∧
    w.wire = Frame.flatten bd.script.frames ∧
    w.ops = .headers true :: bd.script.frames.map (SendOp.write · true) ++ rest

def CompleteOrReset (w : SendStream) (res : Option Body) : Prop :=
  (∃ code, w.status = .reset code) ∨ (w.status = .finished ∧ Sent w res)

/-- From the body send on: its invariant, or an exit that is complete or reset. -/
def Guarded (sc : BodyScript) : ServeRequest → Prop
  | .calling _ | .responding _ _ => False
  | .sendingBody fut => SendInv withHeaders sc fut
  | .exited w res _ => CompleteOrReset w res ∧ ∃ bd, res = some bd ∧ bd.script = sc

theorem completeOrReset_of_status {w : SendStream} {code : Code} (h : w.status = .reset code)
    (res : Option Body) : CompleteOrReset w.drop res := by
  rw [w.drop_eq_self (by rw [h]; nofun)]
  exact .inl ⟨code, h⟩

theorem sent_of_complete {w : SendStream} {bd : Body} (h : Complete withHeaders w bd) :
    Sent w (some bd) := by
  obtain ⟨hover, hrest, hend, hwire, hops⟩ := h
  refine ⟨bd, [.finish true], rfl, hover, hrest, hend, hwire, ?_⟩
  rw [hops]
  rfl

theorem guarded_afterBody {sc : BodyScript} {fut : SendFuture} (h : SendInv withHeaders sc fut) :
    Guarded sc (afterBody fut) := by
  cases fut with
  | unpolled w bd => exact h
  | running pc g bd => exact h
  | dropped w bd => exact h
  | returned w bd res =>
      obtain ⟨hscript, hret⟩ := h
      refine ⟨?_, bd, rfl, hscript⟩
      cases res with
      | error e => exact completeOrReset_of_status hret _
      | ok u =>
          rcases hret with ⟨hfin, hcomplete⟩ | hreset
          · refine .inr ?_
            rw [w.drop_eq_self (by rw [hfin]; nofun)]
            exact ⟨hfin, sent_of_complete hcomplete⟩
          · exact completeOrReset_of_status hreset _

/-- What can still happen once the body send has started. -/
theorem steps_of_guarded {sc : BodyScript} {s s' : ServeRequest} {ev : ServeEvent}
    (h : Steps s ev s') (hs : Guarded sc s) :
    ∃ fut, s = .sendingBody fut ∧ SendInv withHeaders sc fut ∧
      ((∃ a, fut.isOver = false ∧ s' = afterBody (sendH3ServerBody a fut).1) ∨
        (fut.isPolled = true ∧
          s' = .exited (fut.drop .borrowed).stream.drop (some fut.source) .dropped)) := by
  cases s with
  | calling w => exact hs.elim
  | responding w bd => exact hs.elim
  | exited w res exit => cases ev <;> cases h
  | sendingBody fut =>
      refine ⟨fut, rfl, hs, ?_⟩
      cases ev with
      | service a => cases h
      | sendResponse a => cases h
      | body a =>
          simp only [Steps, step] at h
          split at h
          · cases h
          · next hlive => exact .inl ⟨a, by simpa using hlive, (Option.some.inj h).symm⟩
      | drop =>
          simp only [Steps, step] at h
          split at h
          · next hpolled => exact .inr ⟨hpolled, (Option.some.inj h).symm⟩
          · cases h

theorem guarded_step {sc : BodyScript} {s s' : ServeRequest} {ev : ServeEvent}
    (h : Steps s ev s') (hs : Guarded sc s) : Guarded sc s' := by
  obtain ⟨fut, rfl, hsend, ⟨a, hlive, rfl⟩ | ⟨hpolled, rfl⟩⟩ := steps_of_guarded h hs
  · have hmove := sendH3ServerBody_move a hlive
    exact guarded_afterBody (hmove.inv withHeaders_fresh hsend)
  · refine ⟨?_, fut.source, rfl, hsend.source_script⟩
    have hdrop := hsend.drop (o := .borrowed) (SendFuture.ne_unpolled hpolled)
    cases fut with
    | unpolled w bd => cases hpolled
    | running pc g bd => exact completeOrReset_of_status hdrop.2 _
    | returned w bd res => exact (guarded_afterBody hsend).1
    | dropped w bd => exact completeOrReset_of_status hdrop.2 _

/-! ## Every exit -/

def Unsent (s : ServeRequest) : Prop :=
  s = .calling .new ∨ ∃ res, s = .responding .new (.new res)

theorem run_exited {w w' : SendStream} {res res' : Option Body} {exit exit' : ServeExit}
    {tr : List ServeEvent} (h : Run Steps (.exited w res exit) tr (.exited w' res' exit')) :
    tr = [] ∧ w' = w ∧ res' = res := by
  cases h with
  | nil => exact ⟨rfl, rfl, rfl⟩
  | @cons _ _ _ ev _ hstep hrest => cases ev <;> cases hstep

/-- An exit before the headers were sent finishes the stream without them. -/
theorem not_completeOrReset {w : SendStream} {res : Option Body} (hstatus : w.status = .active)
    (hops : .headers true ∉ w.ops) : ¬ CompleteOrReset w.drop res := by
  rintro (⟨code, hreset⟩ | ⟨-, bd, rest, -, -, -, -, -, hsent⟩)
  · simp [SendStream.drop, hstatus] at hreset
  · apply hops
    rw [← w.drop_ops, hsent]
    exact List.mem_cons_self

/-- What one event does before the headers are sent: they still are not, the
function is left without them, or they are. -/
theorem steps_of_unsent {s s' : ServeRequest} {ev : ServeEvent} (h : Steps s ev s')
    (hs : Unsent s) :
    (ev ≠ .sendResponse .ok ∧
      (Unsent s' ∨ ∃ w res exit, s' = .exited w res exit ∧ ¬ CompleteOrReset w res)) ∨
    (ev = .sendResponse .ok ∧ ∃ sc, s' = .sendingBody (.unpolled withHeaders (.new sc))) := by
  have hexit : ¬ CompleteOrReset SendStream.new.drop none :=
    not_completeOrReset rfl (by simp [SendStream.new])
  rcases hs with rfl | ⟨sc, rfl⟩
  · cases ev with
    | service a =>
        cases a with
        | pending =>
            obtain rfl := Option.some.inj h
            exact .inl ⟨nofun, .inl (.inl rfl)⟩
        | returns sc =>
            obtain rfl := Option.some.inj h
            exact .inl ⟨nofun, .inl (.inr ⟨sc, rfl⟩)⟩
        | panics =>
            obtain rfl := Option.some.inj h
            exact .inl ⟨nofun, .inr ⟨_, _, _, rfl, hexit⟩⟩
    | drop =>
        obtain rfl := Option.some.inj h
        exact .inl ⟨nofun, .inr ⟨_, _, _, rfl, hexit⟩⟩
    | sendResponse a => cases h
    | body a => cases h
  · cases ev with
    | service a => cases h
    | body a => cases h
    | drop =>
        obtain rfl := Option.some.inj h
        refine .inl ⟨nofun, .inr ⟨_, _, _, rfl, ?_⟩⟩
        exact not_completeOrReset rfl (by simp [SendStream.new])
    | sendResponse a =>
        cases a with
        | pending =>
            obtain rfl := Option.some.inj h
            exact .inl ⟨nofun, .inl (.inr ⟨sc, rfl⟩)⟩
        | err e =>
            obtain rfl := Option.some.inj h
            refine .inl ⟨nofun, .inr ⟨_, _, _, rfl, not_completeOrReset rfl ?_⟩⟩
            simp [SendStream.new, SendStream.record]
        | ok =>
            obtain rfl := Option.some.inj h
            exact .inr ⟨rfl, sc, rfl⟩

theorem exit_of_unsent {s : ServeRequest} {tr : List ServeEvent} {w : SendStream}
    {res : Option Body} {exit : ServeExit} (h : Run Steps s tr (.exited w res exit))
    (hs : Unsent s) : CompleteOrReset w res ↔ .sendResponse .ok ∈ tr := by
  generalize hend : ServeRequest.exited w res exit = t at h
  induction h with
  | nil s =>
      subst hend
      rcases hs with hs | ⟨sc, hs⟩ <;> cases hs
  | @cons s s' t ev tr hstep hrest ih =>
      subst hend
      rcases steps_of_unsent hstep hs with ⟨hev, hs' | ⟨w', res', exit', rfl, hnot⟩⟩ |
        ⟨rfl, sc, rfl⟩
      · rw [ih hs' rfl]
        simp [hev.symm]
      · -- an event that leaves the function ends the run
        obtain ⟨rfl, rfl, rfl⟩ := run_exited hrest
        simp [hnot, hev.symm]
      · have hstart : Guarded sc (.sendingBody (.unpolled withHeaders (.new sc))) := ⟨rfl, rfl⟩
        have hkept : Guarded sc (.exited w res exit) :=
          hrest.invariant (fun _ _ _ hI h ↦ guarded_step h hI) hstart
        simpa using hkept.1

end ServeRequest

open ServeRequest

/-- Whatever the service, the transport and the caller do: an exit of
`serve_request` leaves the response stream complete or reset exactly if the
response headers had been sent.  The exits before that, by a panic of the
service, a drop while it or the headers are pending, or a failure to send the
headers, finish a stream with no response on it. -/
theorem serve_request_exit {tr : List ServeEvent} {w : SendStream} {res : Option Body}
    {exit : ServeExit} (h : Run Steps ServeRequest.new tr (.exited w res exit)) :
    ((w.status = .finished → Sent w res) ∧
      (w.status ≠ .finished → ∃ code, w.status = .reset code)) ↔ .sendResponse .ok ∈ tr := by
  rw [← exit_of_unsent h (.inl rfl)]
  constructor
  · rintro ⟨hgraceful, hother⟩
    by_cases hfin : w.status = .finished
    · exact .inr ⟨hfin, hgraceful hfin⟩
    · exact .inl (hother hfin)
  · rintro (⟨code, hreset⟩ | ⟨hfin, hsent⟩)
    · refine ⟨?_, fun _ ↦ ⟨code, hreset⟩⟩
      intro hfin
      rw [hreset] at hfin
      cases hfin
    · exact ⟨fun _ ↦ hsent, fun hne ↦ absurd hfin hne⟩

theorem serve_request_panic_finishes :
    ∃ w, Run Steps ServeRequest.new [.service .panics] (.exited w none .panicked) ∧
      w.status = .finished ∧ w.ops = [] ∧ ¬ Sent w none :=
  ⟨SendStream.new.drop, .single rfl, rfl, rfl, by rintro ⟨bd, rest, hnone, -⟩; cases hnone⟩

def servedWithTrailers : List ServeEvent :=
  [.service (.returns ⟨[.data [7, 8], .trailers [("grpc-status", "0")]], .done⟩),
    .sendResponse .ok] ++ List.replicate 7 (.body ⟨true, .ok⟩)

theorem serve_request_exit_served :
    ∃ w res exit, Run Steps ServeRequest.new servedWithTrailers (.exited w res exit) ∧
      w.status = .finished ∧ w.wire = [.byte 7, .byte 8, .trailers [("grpc-status", "0")]] ∧
      Sent w res := by
  have hrun : Run Steps ServeRequest.new servedWithTrailers (.exited _ _ _) :=
    .cons rfl (.cons rfl (.cons rfl (.cons rfl (.cons rfl (.cons rfl (.cons rfl (.cons rfl
      (.cons rfl (.nil _)))))))))
  exact ⟨_, _, _, hrun, rfl, rfl, ((serve_request_exit hrun).mpr (by decide)).1 rfl⟩

end TonicH3
