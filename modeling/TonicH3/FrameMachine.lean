import Mathlib.Data.List.Forall2
import TonicH3.ClientBody
import TonicH3.EventRun
import TonicH3.ServerBody

/-!
# The frame machine of incoming bodies

An incoming body over a receive half that logs the calls made on it.  Each
`poll_frame` makes one call of the inner stream, and what it returns is a
function of what that call returned; the calls are those of `poll_recv_data` up
to its first `None`, and of `poll_recv_trailers` from then on.  What the
consumer sees, and what a drop does, is read off the log.
-/

namespace TonicH3

open EventRun

abbrev DataPoll := Poll (Except StreamError (Option Bytes))

abbrev TrailersPoll := Poll (Except StreamError (Option HeaderMap))

/-- A call on the inner stream, with what it returned. -/
inductive RecvCall
  | data (r : DataPoll)
  | trailers (r : TrailersPoll)
  | stopSending (code : Code)
  deriving DecidableEq, Repr

structure RecvLog where
  answer : RecvAnswer
  calls : List RecvCall
  deriving DecidableEq, Repr

namespace RecvLog

def new : RecvLog := ⟨.silent, []⟩

instance : RecvStream RecvLog where
  pollRecvData s := (s.answer.data, { s with calls := s.calls ++ [.data s.answer.data] })
  pollRecvTrailers s :=
    (s.answer.trailers, { s with calls := s.calls ++ [.trailers s.answer.trailers] })
  stopSending code s := { s with calls := s.calls ++ [.stopSending code] }

/-- The codes of the calls of `stop_sending`. -/
def stops (s : RecvLog) : List Code :=
  s.calls.filterMap fun
    | .stopSending code => some code
    | _ => none

end RecvLog

structure FrameOut where
  result : Poll (Option (Except StreamError Frame))
  woken : Bool
  deriving DecidableEq, Repr

namespace Incoming

def poll (b : Incoming RecvLog) (a : RecvAnswer) : Incoming RecvLog × FrameOut :=
  let p := pollFrame { b with s := { b.s with answer := a } }
  (p.body, ⟨p.result, p.woken⟩)

end Incoming

def H3IncomingClient.poll (b : H3IncomingClient RecvLog) (a : RecvAnswer) :
    H3IncomingClient RecvLog × FrameOut :=
  let p := H3IncomingClient.pollFrame { b with s := { b.s with answer := a } }
  ({ b with toIncoming := p.body }, ⟨p.result, p.woken⟩)

def H3IncomingServer.poll (b : H3IncomingServer RecvLog) (a : RecvAnswer) :
    H3IncomingServer RecvLog × FrameOut :=
  let p := H3IncomingServer.pollFrame { b with s := { b.s with answer := a } }
  (⟨p.body⟩, ⟨p.result, p.woken⟩)

/-! ## One call for each poll -/

namespace RecvCall

/-- What `poll_frame` makes of a call. -/
def out : RecvCall → FrameOut
  | .data (.ready (.ok (some d))) => ⟨.ready (some (.ok (.data d))), false⟩
  | .data (.ready (.ok none)) => ⟨.pending, true⟩
  | .data (.ready (.error e)) => ⟨.ready (some (.error e)), false⟩
  | .trailers (.ready (.ok (some t))) => ⟨.ready (some (.ok (.trailers t))), false⟩
  | .trailers (.ready (.ok none)) => ⟨.ready none, false⟩
  | .trailers (.ready (.error e)) => ⟨.ready (some (.error e)), false⟩
  | .data .pending | .trailers .pending | .stopSending _ => ⟨.pending, false⟩

/-- The end of the stream, or a stream error. -/
def isTerminal : RecvCall → Bool
  | .data (.ready (.error _)) | .trailers (.ready (.error _)) | .trailers (.ready (.ok none)) =>
      true
  | _ => false

def isPending : RecvCall → Bool
  | .data .pending | .trailers .pending => true
  | _ => false

/-- The chunk a call of `poll_recv_data` produced. -/
def chunk : RecvCall → Option Bytes
  | .data (.ready (.ok d)) => d
  | _ => none

end RecvCall

namespace Incoming

/-- The call the next poll makes. -/
def nextCall (b : Incoming RecvLog) (a : RecvAnswer) : RecvCall :=
  if b.dataDone then .trailers a.trailers else .data a.data

/-- The calls made so far, before and after the switch to trailers. -/
def Shape (calls : List RecvCall) : Bool → Prop
  | false => ∃ ds : List DataPoll, calls = ds.map .data ∧ .ready (.ok none) ∉ ds
  | true => ∃ (ds : List DataPoll) (ts : List TrailersPoll),
      calls = ds.map .data ++ .data (.ready (.ok none)) :: ts.map .trailers ∧
        .ready (.ok none) ∉ ds

structure Inv (b : Incoming RecvLog) : Prop where
  finished : b.finished = b.s.calls.any RecvCall.isTerminal
  shape : Shape b.s.calls b.dataDone

theorem inv_new : Inv (new .new) := ⟨rfl, [], rfl, by simp⟩

variable {b b' : Incoming RecvLog} {a : RecvAnswer}

theorem poll_spec (b : Incoming RecvLog) (a : RecvAnswer) :
    (b.poll a).1.s.calls = b.s.calls ++ [b.nextCall a] ∧
    (b.poll a).2 = (b.nextCall a).out ∧
    (b.poll a).1.dataDone = (b.dataDone || b.nextCall a = .data (.ready (.ok none))) ∧
    (b.poll a).1.finished = (b.finished || (b.nextCall a).isTerminal) := by
  obtain ⟨s, dataDone, finished⟩ := b
  obtain ⟨data, trailers⟩ := a
  cases dataDone with
  | false =>
      rcases data with _ | (e | _ | d) <;>
        simp [poll, pollFrame, RecvStream.pollRecvData, nextCall, RecvCall.out,
          RecvCall.isTerminal]
  | true =>
      rcases trailers with _ | (e | _ | t) <;>
        simp [poll, pollFrame, RecvStream.pollRecvTrailers, nextCall, RecvCall.out,
          RecvCall.isTerminal]

theorem Shape.next (h : Shape b.s.calls b.dataDone) (a : RecvAnswer) :
    Shape (b.s.calls ++ [b.nextCall a])
      (b.dataDone || b.nextCall a = .data (.ready (.ok none))) := by
  cases hdone : b.dataDone with
  | false =>
      rw [hdone] at h
      obtain ⟨ds, hcalls, hds⟩ := h
      have hcall : b.nextCall a = .data a.data := by simp [nextCall, hdone]
      rw [hcall, hcalls, Bool.false_or]
      by_cases hend : a.data = .ready (.ok none)
      · rw [hend, decide_eq_true rfl]
        exact ⟨ds, [], rfl, hds⟩
      · rw [decide_eq_false (by simpa using hend)]
        refine ⟨ds ++ [a.data], by simp, ?_⟩
        simp [hds, Ne.symm hend]
  | true =>
      rw [hdone] at h
      obtain ⟨ds, ts, hcalls, hds⟩ := h
      have hcall : b.nextCall a = .trailers a.trailers := by simp [nextCall, hdone]
      rw [hcall, hcalls]
      exact ⟨ds, ts ++ [a.trailers], by simp, hds⟩

theorem Inv.poll (h : Inv b) (a : RecvAnswer) : Inv (b.poll a).1 := by
  obtain ⟨hcalls, -, hdone, hfinished⟩ := b.poll_spec a
  constructor
  · rw [hfinished, hcalls, h.finished]
    simp
  · rw [hcalls, hdone]
    exact h.shape.next a

/-- After any number of polls: the invariant, and the results are those of the
calls, one for one. -/
theorem exec_spec (h : Inv b) (as : List RecvAnswer) :
    Inv (exec poll b as) ∧ ∃ cs, (exec poll b as).s.calls = b.s.calls ++ cs ∧
      (labels poll b as).map Prod.snd = cs.map RecvCall.out := by
  induction as generalizing b with
  | nil => exact ⟨h, [], by simp [exec], rfl⟩
  | cons a as ih =>
      obtain ⟨hcalls, hout, -, -⟩ := b.poll_spec a
      obtain ⟨hinv, cs, hrest, houts⟩ := ih (h.poll a)
      refine ⟨hinv, b.nextCall a :: cs, ?_, ?_⟩
      · rw [exec, hrest, hcalls]
        simp
      · rw [labels, List.map_cons, List.map_cons, hout, houts]

/-- The results of a body that was polled from its creation on. -/
def outs (as : List RecvAnswer) : List FrameOut := (labels poll (new .new) as).map Prod.snd

theorem outs_eq (as : List RecvAnswer) :
    outs as = (exec poll (new .new) as).s.calls.map RecvCall.out := by
  obtain ⟨-, cs, hcalls, houts⟩ := exec_spec inv_new as
  rw [outs, houts, hcalls]
  rfl

theorem inv_exec (as : List RecvAnswer) : Inv (exec poll (new .new) as) :=
  (exec_spec inv_new as).1

end Incoming

theorem H3IncomingClient.exec_poll (b : H3IncomingClient RecvLog) (as : List RecvAnswer) :
    (exec H3IncomingClient.poll b as).toIncoming = exec Incoming.poll b.toIncoming as ∧
      labels H3IncomingClient.poll b as = labels Incoming.poll b.toIncoming as := by
  refine exec_lockstep (f := H3IncomingClient.poll) (g := Incoming.poll)
    (R := fun c i ↦ c.toIncoming = i) (P := fun _ ↦ True) ?_ (fun _ _ ↦ trivial) rfl
  rintro c _ a - rfl
  exact ⟨rfl, rfl⟩

theorem H3IncomingServer.exec_poll (b : H3IncomingServer RecvLog) (as : List RecvAnswer) :
    (exec H3IncomingServer.poll b as).toIncoming = exec Incoming.poll b.toIncoming as ∧
      labels H3IncomingServer.poll b as = labels Incoming.poll b.toIncoming as := by
  refine exec_lockstep (f := H3IncomingServer.poll) (g := Incoming.poll)
    (R := fun c i ↦ c.toIncoming = i) (P := fun _ ↦ True) ?_ (fun _ _ ↦ trivial) rfl
  rintro c _ a - rfl
  exact ⟨rfl, rfl⟩

/-! ## Dropping a body -/

/-- The consumer has seen the trailers, the end of the stream, or an error. -/
def Received (outs : List FrameOut) : Prop :=
  ∃ o ∈ outs, o.result = .ready none ∨ (∃ t, o.result = .ready (some (.ok (.trailers t)))) ∨
    ∃ e, o.result = .ready (some (.error e))

/-- Of a stream on which a body was dropped: it was stopped with `code` exactly
if the consumer had not received everything. -/
def StoppedWhenAbandoned (outs : List FrameOut) (s : RecvLog) (code : Code) : Prop :=
  (Received outs → s.stops = []) ∧ (¬ Received outs → s.stops = [code])

section Answers

variable (as : List RecvAnswer)

/-- What `poll_recv_data` returns up to its first `None`. -/
def dataAnswers : List DataPoll :=
  (as.takeWhile (·.data ≠ .ready (.ok none))).map RecvAnswer.data

/-- What `poll_recv_trailers` returns after that. -/
def trailersAnswers : List TrailersPoll :=
  (as.dropWhile (·.data ≠ .ready (.ok none))).tail.map RecvAnswer.trailers

/-- The stream has returned trailers, but neither its end nor an error. -/
def LeftAtTrailers : Prop :=
  (∃ t, .ready (.ok (some t)) ∈ trailersAnswers as) ∧
    (∀ e, .ready (.error e) ∉ dataAnswers as) ∧ (∀ e, .ready (.error e) ∉ trailersAnswers as) ∧
    .ready (.ok none) ∉ trailersAnswers as

end Answers

theorem RecvCall.isTerminal_data (r : DataPoll) :
    (RecvCall.data r).isTerminal = false ↔ ∀ e, r ≠ .ready (.error e) := by
  rcases r with _ | (e | _ | d) <;> simp [isTerminal]

theorem RecvCall.isTerminal_trailers (r : TrailersPoll) :
    (RecvCall.trailers r).isTerminal = false ↔
      (∀ e, r ≠ .ready (.error e)) ∧ r ≠ .ready (.ok none) := by
  rcases r with _ | (e | _ | t) <;> simp [isTerminal]

theorem RecvCall.received_iff (c : RecvCall) :
    (c.out.result = .ready none ∨ (∃ t, c.out.result = .ready (some (.ok (.trailers t)))) ∨
      ∃ e, c.out.result = .ready (some (.error e))) ↔
    c.isTerminal = true ∨ ∃ t, c = .trailers (.ready (.ok (some t))) := by
  rcases c with (_ | (e | _ | d)) | (_ | (e | _ | t)) | code <;> simp [out, isTerminal]

theorem received_iff (calls : List RecvCall) :
    Received (calls.map RecvCall.out) ↔
      (∃ c ∈ calls, c.isTerminal = true) ∨ ∃ t, .trailers (.ready (.ok (some t))) ∈ calls := by
  simp only [Received, List.mem_map, exists_exists_and_eq_and, RecvCall.received_iff]
  constructor
  · rintro ⟨c, hc, hterm | ⟨t, rfl⟩⟩
    · exact .inl ⟨c, hc, hterm⟩
    · exact .inr ⟨t, hc⟩
  · rintro (⟨c, hc, hterm⟩ | ⟨t, hc⟩)
    · exact ⟨c, hc, .inl hterm⟩
    · exact ⟨_, hc, .inr ⟨t, rfl⟩⟩

namespace Incoming

theorem Shape.stops_eq {s : RecvLog} {done : Bool} (h : Shape s.calls done) : s.stops = [] := by
  cases done with
  | false =>
      obtain ⟨ds, hcalls, -⟩ := h
      simp [RecvLog.stops, hcalls, List.filterMap_map]
  | true =>
      obtain ⟨ds, ts, hcalls, -⟩ := h
      simp [RecvLog.stops, hcalls, List.filterMap_map]

theorem stops_dropWith (as : List RecvAnswer) (code : Code) :
    let b := exec poll (new .new) as
    (b.dropWith code).stops = if b.s.calls.any RecvCall.isTerminal then [] else [code] := by
  intro b
  have hinv : Inv b := inv_exec as
  have hnone := hinv.shape.stops_eq
  rw [← hinv.finished, dropWith]
  cases b.finished with
  | true => exact hnone
  | false => simpa [RecvLog.stops, RecvStream.stopSending] using hnone

theorem calls_exec_of_dataDone {b : Incoming RecvLog} (h : b.dataDone = true)
    (as : List RecvAnswer) :
    (exec poll b as).s.calls = b.s.calls ++ as.map fun a ↦ .trailers a.trailers := by
  induction as generalizing b with
  | nil => simp [exec]
  | cons a as ih =>
      obtain ⟨hcalls, -, hdone, -⟩ := b.poll_spec a
      rw [exec, ih (by rw [hdone, h, Bool.true_or]), hcalls]
      simp [nextCall, h]

/-- The calls made, as a function of the answers. -/
theorem calls_exec {b : Incoming RecvLog} (h : b.dataDone = false) (as : List RecvAnswer) :
    (exec poll b as).s.calls = b.s.calls ++ (dataAnswers as).map .data ++
      match as.dropWhile (·.data ≠ .ready (.ok none)) with
      | [] => []
      | _ :: rest => .data (.ready (.ok none)) :: rest.map fun a ↦ .trailers a.trailers := by
  induction as generalizing b with
  | nil => simp [exec, dataAnswers]
  | cons a as ih =>
      obtain ⟨hcalls, -, hdone, -⟩ := b.poll_spec a
      have hcall : b.nextCall a = .data a.data := by simp [nextCall, h]
      rw [h, hcall, Bool.false_or] at hdone
      rw [hcall] at hcalls
      by_cases hend : a.data = .ready (.ok none)
      · rw [exec, calls_exec_of_dataDone (by simpa [hend] using hdone), hcalls]
        simp [dataAnswers, hend]
      · rw [exec, ih (by simpa [hend] using hdone), hcalls]
        simp [dataAnswers, hend]

theorem leftAtTrailers_iff (as : List RecvAnswer) :
    LeftAtTrailers as ↔
      (∃ t, .trailers (.ready (.ok (some t))) ∈ (exec poll (new .new) as).s.calls) ∧
      ∀ c ∈ (exec poll (new .new) as).s.calls, c.isTerminal = false := by
  rw [calls_exec rfl, LeftAtTrailers, trailersAnswers]
  cases as.dropWhile (·.data ≠ .ready (.ok none)) with
  | nil => simp [new, RecvLog.new]
  | cons a rest =>
      have hdata : (∀ e, .ready (.error e) ∉ dataAnswers as) ↔
          ∀ r ∈ dataAnswers as, (RecvCall.data r).isTerminal = false := by
        simp only [RecvCall.isTerminal_data]
        exact ⟨fun h r hr e he ↦ h e (he ▸ hr), fun h e he ↦ h _ he e rfl⟩
      have htrailers : ((∀ e, .ready (.error e) ∉ rest.map RecvAnswer.trailers) ∧
            .ready (.ok none) ∉ rest.map RecvAnswer.trailers) ↔
          ∀ r ∈ rest.map RecvAnswer.trailers, (RecvCall.trailers r).isTerminal = false := by
        simp only [RecvCall.isTerminal_trailers]
        constructor
        · rintro ⟨herror, hend⟩ r hr
          exact ⟨fun e he ↦ herror e (he ▸ hr), fun he ↦ hend (he ▸ hr)⟩
        · intro h
          exact ⟨fun e he ↦ (h _ he).1 e rfl, fun he ↦ (h _ he).2 rfl⟩
      rw [List.tail_cons, hdata, htrailers]
      simp [new, RecvLog.new, RecvCall.isTerminal_data, or_imp, forall_and]

theorem stoppedWhenAbandoned_iff (as : List RecvAnswer) (code : Code) :
    let b := exec poll (new .new) as
    StoppedWhenAbandoned (outs as) (b.dropWith code) code ↔ ¬ LeftAtTrailers as := by
  intro b
  rw [StoppedWhenAbandoned, outs_eq, received_iff, stops_dropWith, leftAtTrailers_iff]
  by_cases hterm : ∃ c ∈ b.s.calls, c.isTerminal = true
  · have hany : b.s.calls.any RecvCall.isTerminal = true := List.any_eq_true.mpr hterm
    obtain ⟨c, hc, hend⟩ := hterm
    refine iff_of_true ?_ ?_
    · rw [hany]
      exact ⟨fun _ ↦ rfl, fun hnot ↦ absurd (.inl ⟨c, hc, hend⟩) hnot⟩
    · rintro ⟨-, hopen⟩
      rw [hopen c hc] at hend
      cases hend
  · have hany : b.s.calls.any RecvCall.isTerminal = false := by
      rw [← Bool.not_eq_true, List.any_eq_true]
      exact hterm
    have hopen : ∀ c ∈ b.s.calls, c.isTerminal = false := by simpa using hterm
    rw [hany]
    constructor
    · rintro ⟨hreceived, -⟩ ⟨htrailers, -⟩
      cases hreceived (.inr htrailers)
    · intro hleft
      have hnot : ¬ ∃ t, .trailers (.ready (.ok (some t))) ∈ b.s.calls :=
        fun htrailers ↦ hleft ⟨htrailers, hopen⟩
      exact ⟨fun hreceived ↦ absurd (hreceived.resolve_left hterm) hnot, fun _ ↦ rfl⟩

end Incoming

/-- The client stops a response body it drops exactly as it should, and so does
the server with a request body, unless the drop comes right after the
trailers. -/
theorem incoming_stopped_when_abandoned_iff (as : List RecvAnswer) (cancelBodySend : Bool) :
    (let start := H3IncomingClient.new .new cancelBodySend
     let b := exec H3IncomingClient.poll start as
     StoppedWhenAbandoned ((labels H3IncomingClient.poll start as).map Prod.snd) b.drop
       .h3RequestCancelled ↔ ¬ LeftAtTrailers as) ∧
    (let start := H3IncomingServer.new .new
     let b := exec H3IncomingServer.poll start as
     StoppedWhenAbandoned ((labels H3IncomingServer.poll start as).map Prod.snd) b.drop
       .h3NoError ↔ ¬ LeftAtTrailers as) := by
  constructor
  · obtain ⟨hexec, hlabels⟩ := (H3IncomingClient.new .new cancelBodySend).exec_poll as
    simp only [H3IncomingClient.drop, hexec, hlabels]
    exact Incoming.stoppedWhenAbandoned_iff as .h3RequestCancelled
  · obtain ⟨hexec, hlabels⟩ := (H3IncomingServer.new .new).exec_poll as
    simp only [H3IncomingServer.drop, hexec, hlabels]
    exact Incoming.stoppedWhenAbandoned_iff as .h3NoError

/-- A unary call: one message, the end of the data, the trailers, and the
consumer lets go. -/
def unaryAnswers : List RecvAnswer :=
  [⟨.ready (.ok (some [1])), .pending⟩, ⟨.ready (.ok none), .pending⟩,
    ⟨.pending, .ready (.ok (some []))⟩]

theorem incoming_stopped_after_trailers :
    ¬ StoppedWhenAbandoned
        ((labels H3IncomingClient.poll (.new .new true) unaryAnswers).map Prod.snd)
        (exec H3IncomingClient.poll (.new .new true) unaryAnswers).drop .h3RequestCancelled ∧
      ¬ StoppedWhenAbandoned ((labels H3IncomingServer.poll (.new .new) unaryAnswers).map Prod.snd)
        (exec H3IncomingServer.poll (.new .new) unaryAnswers).drop .h3NoError := by
  constructor
  · rintro ⟨hreceived, -⟩
    cases hreceived ⟨⟨.ready (some (.ok (.trailers []))), false⟩, by decide, .inr (.inl ⟨_, rfl⟩)⟩
  · rintro ⟨hreceived, -⟩
    cases hreceived ⟨⟨.ready (some (.ok (.trailers []))), false⟩, by decide, .inr (.inl ⟨_, rfl⟩)⟩

/-! ## Frames and wake-ups -/

namespace FrameOut

def data : FrameOut → Option Bytes
  | ⟨.ready (some (.ok (.data d))), _⟩ => some d
  | _ => none

def isTrailers : FrameOut → Bool
  | ⟨.ready (some (.ok (.trailers _))), _⟩ => true
  | _ => false

end FrameOut

/-- What the consumer of a body gets, against the calls on the inner stream. -/
structure FrameSpec (calls : List RecvCall) (outs : List FrameOut) : Prop where
  /-- The chunks of the stream, in order and whole. -/
  chunks : outs.filterMap FrameOut.data = calls.filterMap RecvCall.chunk
  /-- Data up to the first `None`, trailers only from then on. -/
  order : ∃ done, Incoming.Shape calls done
  /-- No data after trailers. -/
  trailersLast : outs.Pairwise fun o o' ↦ o.isTrailers = true → o'.data = none
  /-- The end comes from the end of the trailers, and a `Pending` from the
  stream or after waking the task. -/
  answered : List.Forall₂ (fun c o ↦
    (o.result = .ready none → c = .trailers (.ready (.ok none))) ∧
    (o.result = .pending → c.isPending = true ∨ o.woken = true)) calls outs
  wokenOnce : (outs.filter FrameOut.woken).length ≤ 1

namespace RecvCall

theorem data_out (c : RecvCall) : c.out.data = c.chunk := by
  rcases c with (_ | (e | _ | d)) | (_ | (e | _ | t)) | code <;> rfl

theorem isTrailers_out_data (r : DataPoll) : (RecvCall.data r).out.isTrailers = false := by
  rcases r with _ | (e | _ | d) <;> rfl

theorem chunk_trailers (r : TrailersPoll) : (RecvCall.trailers r).chunk = none := rfl

theorem woken_out_data (r : DataPoll) :
    (RecvCall.data r).out.woken = true ↔ r = .ready (.ok none) := by
  rcases r with _ | (e | _ | d) <;> simp [out]

theorem woken_out_trailers (r : TrailersPoll) : (RecvCall.trailers r).out.woken = false := by
  rcases r with _ | (e | _ | t) <;> rfl

theorem answered_data (r : DataPoll) : (RecvCall.data r).out.result ≠ .ready none ∧
    ((RecvCall.data r).out.result = .pending →
      (RecvCall.data r).isPending = true ∨ (RecvCall.data r).out.woken = true) := by
  rcases r with _ | (e | _ | d) <;> simp [out, isPending]

theorem answered_trailers (r : TrailersPoll) :
    ((RecvCall.trailers r).out.result = .ready none → r = .ready (.ok none)) ∧
    ((RecvCall.trailers r).out.result = .pending → (RecvCall.trailers r).isPending = true) := by
  rcases r with _ | (e | _ | t) <;> simp [out, isPending]

end RecvCall

section Spec

variable {calls : List RecvCall} {done : Bool}

theorem Incoming.Shape.mem_cases (h : Shape calls done) {c : RecvCall} (hc : c ∈ calls) :
    (∃ r, c = .data r) ∨ ∃ r, c = .trailers r := by
  cases done with
  | false =>
      obtain ⟨ds, rfl, -⟩ := h
      obtain ⟨r, -, rfl⟩ := List.mem_map.mp hc
      exact .inl ⟨r, rfl⟩
  | true =>
      obtain ⟨ds, ts, rfl, -⟩ := h
      simp only [List.mem_append, List.mem_cons, List.mem_map] at hc
      rcases hc with ⟨r, -, rfl⟩ | rfl | ⟨r, -, rfl⟩
      · exact .inl ⟨r, rfl⟩
      · exact .inl ⟨_, rfl⟩
      · exact .inr ⟨r, rfl⟩

theorem pairwise_out_data (ds : List DataPoll) :
    (ds.map RecvCall.data).Pairwise fun c c' ↦
      c.out.isTrailers = true → c'.out.data = none := by
  rw [List.pairwise_map]
  apply List.pairwise_of_forall
  intro r r' htrailers
  rw [RecvCall.isTrailers_out_data] at htrailers
  cases htrailers

theorem Incoming.Shape.trailersLast (h : Shape calls done) :
    (calls.map RecvCall.out).Pairwise fun o o' ↦ o.isTrailers = true → o'.data = none := by
  rw [List.pairwise_map]
  cases done with
  | false =>
      obtain ⟨ds, rfl, -⟩ := h
      exact pairwise_out_data ds
  | true =>
      obtain ⟨ds, ts, rfl, -⟩ := h
      -- the calls up to the end of the data, then those of the trailers
      have hsplit : ds.map RecvCall.data ++ RecvCall.data (.ready (.ok none)) ::
          ts.map RecvCall.trailers =
          List.map RecvCall.data (ds ++ [.ready (.ok none)]) ++ ts.map RecvCall.trailers := by
        simp
      rw [hsplit, List.pairwise_append]
      refine ⟨pairwise_out_data _, ?_, ?_⟩
      · rw [List.pairwise_map]
        apply List.pairwise_of_forall
        rintro r r' -
        rw [RecvCall.data_out, RecvCall.chunk_trailers]
      · rintro c - c' hc' -
        obtain ⟨r, -, rfl⟩ := List.mem_map.mp hc'
        rw [RecvCall.data_out, RecvCall.chunk_trailers]

theorem woken_data_eq_nil {ds : List DataPoll} (h : .ready (.ok none) ∉ ds) :
    ((ds.map RecvCall.data).map RecvCall.out).filter FrameOut.woken = [] := by
  rw [List.filter_eq_nil_iff]
  simp only [List.mem_map, forall_exists_index, and_imp]
  rintro _ _ r hr rfl rfl
  rw [RecvCall.woken_out_data]
  rintro rfl
  exact h hr

theorem Incoming.Shape.wokenOnce (h : Shape calls done) :
    ((calls.map RecvCall.out).filter FrameOut.woken).length ≤ 1 := by
  cases done with
  | false =>
      obtain ⟨ds, rfl, hds⟩ := h
      rw [woken_data_eq_nil hds]
      exact Nat.zero_le 1
  | true =>
      obtain ⟨ds, ts, rfl, hds⟩ := h
      have htrailers :
          ((ts.map RecvCall.trailers).map RecvCall.out).filter FrameOut.woken = [] := by
        simp [List.filter_eq_nil_iff, RecvCall.woken_out_trailers]
      have hend : FrameOut.woken (RecvCall.data (.ready (.ok none))).out = true := rfl
      rw [List.map_append, List.filter_append, woken_data_eq_nil hds, List.map_cons,
        List.nil_append, List.filter_cons_of_pos hend, htrailers]
      exact Nat.le_refl 1

theorem frameSpec_of_shape (h : Incoming.Shape calls done) :
    FrameSpec calls (calls.map RecvCall.out) where
  chunks := by
    rw [List.filterMap_map]
    exact List.filterMap_congr fun c _ ↦ c.data_out
  order := ⟨done, h⟩
  trailersLast := h.trailersLast
  answered := by
    rw [List.forall₂_map_right_iff, List.forall₂_same]
    intro c hc
    rcases h.mem_cases hc with ⟨r, rfl⟩ | ⟨r, rfl⟩
    · obtain ⟨hnone, hpending⟩ := RecvCall.answered_data r
      exact ⟨fun hready ↦ absurd hready hnone, hpending⟩
    · obtain ⟨hnone, hpending⟩ := RecvCall.answered_trailers r
      exact ⟨fun hready ↦ by rw [hnone hready], fun hwait ↦ .inl (hpending hwait)⟩
  wokenOnce := h.wokenOnce

end Spec

theorem Incoming.frameSpec (as : List RecvAnswer) :
    FrameSpec (exec poll (new .new) as).s.calls (outs as) := by
  rw [outs_eq]
  exact frameSpec_of_shape (inv_exec as).shape

/-- The frame machine of both bodies, over every sequence of answers of the
inner stream. -/
theorem incoming_frame_machine (as : List RecvAnswer) (cancelBodySend : Bool) :
    (let start := H3IncomingClient.new .new cancelBodySend
     FrameSpec (exec H3IncomingClient.poll start as).s.calls
       ((labels H3IncomingClient.poll start as).map Prod.snd)) ∧
    (let start := H3IncomingServer.new .new
     FrameSpec (exec H3IncomingServer.poll start as).s.calls
       ((labels H3IncomingServer.poll start as).map Prod.snd)) := by
  constructor
  · obtain ⟨hexec, hlabels⟩ := (H3IncomingClient.new .new cancelBodySend).exec_poll as
    simp only [hexec, hlabels]
    exact Incoming.frameSpec as
  · obtain ⟨hexec, hlabels⟩ := (H3IncomingServer.new .new).exec_poll as
    simp only [hexec, hlabels]
    exact Incoming.frameSpec as

end TonicH3
