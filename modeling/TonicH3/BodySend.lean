import TonicH3.ClientBody
import TonicH3.EventRun

/-!
# What a body send does to its stream

A body-send future on its own: it is polled from one await to the next, its
cancellation sender may be dropped at any time, and it may itself be dropped.
`Exit` lists the ways in which it can be over, each with the operations that
come after the successful writes, and `Shape` says what its operations are in
every state of a run.
-/

namespace TonicH3

open EventRun

inductive SendEvent
  | poll (a : Answers)
  | cancel
  | drop
  deriving DecidableEq, Repr

/-- A body-send future, and whether its cancellation receiver has resolved. -/
structure SendTask where
  fut : SendFuture
  cancelled : Bool
  deriving DecidableEq, Repr

/-- What the future returned. -/
def SendFuture.result : SendFuture → Option (Except Error Unit)
  | .returned _ _ res => some res
  | _ => none

theorem SendFuture.of_result {fut : SendFuture} {res : Except Error Unit}
    (h : fut.result = some res) : ∃ w bd, fut = .returned w bd res := by
  cases fut with
  | returned w bd r =>
      cases h
      exact ⟨w, bd, rfl⟩
  | unpolled w bd => cases h
  | running pc g bd => cases h
  | dropped w bd => cases h

theorem SendFuture.result_of_live {fut : SendFuture} (hlive : fut.isOver = false) :
    fut.result = none := by
  cases fut with
  | unpolled w bd => rfl
  | running pc g bd => rfl
  | returned w bd res => cases hlive
  | dropped w bd => cases hlive

namespace SendOp

def sent : SendOp → Option Frame
  | .write f true => some f
  | _ => none

def stopCode : SendOp → Option Code
  | .stopStream code => some code
  | _ => none

def isWrite : SendOp → Bool
  | .write _ _ => true
  | _ => false

def failed : SendOp → Bool
  | .write _ false | .finish false => true
  | _ => false

theorem filterMap_sent_write (fs : List Frame) :
    (fs.map (SendOp.write · true)).filterMap sent = fs := by
  simp [List.filterMap_map, Function.comp_def, sent]

theorem filterMap_stopCode_write (fs : List Frame) :
    (fs.map (SendOp.write · true)).filterMap stopCode = [] := by
  simp [List.filterMap_map, Function.comp_def, stopCode]

end SendOp

namespace SendTask

def start (w : SendStream) (sc : BodyScript) : SendTask := ⟨.unpolled w (.new sc), false⟩

def ops (t : SendTask) : List SendOp := t.fut.stream.ops

/-- The frames written successfully, in order. -/
def written (t : SendTask) : List Frame := t.ops.filterMap SendOp.sent

/-- The codes of the calls of `stop_stream`. -/
def stops (t : SendTask) : List Code := t.ops.filterMap SendOp.stopCode

/-- The body source or an operation on the stream has returned an error. -/
def Errored (t : SendTask) : Prop :=
  (∃ op ∈ t.ops, op.failed = true) ∨
    (t.fut.source.ended = true ∧ ∃ e, t.fut.source.ending = .error e)

def stepWith (o : Ownership) (loop : Bool → Answers → SendFuture → SendFuture × Signal)
    (t : SendTask) : SendEvent → SendTask × Option Signal
  | .poll a =>
      if t.fut.isOver then (t, none)
      else
        let (fut, signal) := loop t.cancelled a t.fut
        ({ t with fut := fut }, some signal)
  | .cancel => ({ t with cancelled := true }, none)
  | .drop => ({ t with fut := t.fut.drop o }, none)

/-- The client loop.  `send_request_inner` polls the future as soon as it
exists, so it is not dropped before its first poll. -/
def clientStep (t : SendTask) (ev : SendEvent) : SendTask × Option Signal :=
  if ev = .drop ∧ t.fut.isPolled = false then (t, none)
  else t.stepWith .owned sendH3ClientBody ev

abbrev ClientSteps : SendTask → SendEvent × Option Signal → SendTask → Prop := Fires clientStep

end SendTask

/-! ## How a body send can be over -/

/-- The operations after the successful writes `fs`, with what the future
returned: `none` if it was dropped. -/
inductive Exit (bd : Body) (fs : List Frame) : Option (Except Error Unit) → List SendOp → Prop
  | finished : bd.yielded = fs → bd.ended = true → bd.rest = [] → bd.ending = .done →
      Exit bd fs (some (.ok ())) [.finish true]
  | cancelled : bd.yielded = fs → bd.ended = false →
      Exit bd fs (some (.ok ())) [.stopStream .h3RequestCancelled]
  | sourceError (e : Error) : bd.yielded = fs → bd.ended = true → bd.ending = .error e →
      Exit bd fs (some (.error e)) [.stopStream .h3InternalError]
  | writeError (f : Frame) (e : StreamError) : bd.yielded = fs ++ [f] → bd.ended = false →
      Exit bd fs (some (.error (.stream e))) [.write f false, .stopStream .h3InternalError]
  | finishError (e : StreamError) : bd.yielded = fs → bd.ended = true → bd.rest = [] →
      bd.ending = .done →
      Exit bd fs (some (.error (.stream e))) [.finish false, .stopStream .h3InternalError]
  | dropped : fs <+: bd.yielded → (bd.ended = true → bd.ending = .done) →
      Exit bd fs none [.stopStream .h3RequestCancelled]

/-- Every successful write is on the stream in full, and nothing but frames of
the body is. -/
def Carries (w : SendStream) (bd : Body) (fs : List Frame) : Prop :=
  Frame.flatten fs <+: w.wire ∧ w.wire <+: Frame.flatten bd.yielded

def Left (w₀ w : SendStream) (bd : Body) (res : Option (Except Error Unit)) : Prop :=
  ∃ fs tail, w.ops = w₀.ops ++ fs.map (SendOp.write · true) ++ tail ∧ Exit bd fs res tail ∧
    Carries w bd fs

/-- What `SendInv` leaves open: how much of a frame is still to be written, and
which operations a body send that is over has performed. -/
def ExitInv (w₀ : SendStream) : SendFuture → Prop
  | .running (.sending f rest) _ _ => rest <:+ f.items
  | .returned w bd res => Left w₀ w bd (some res)
  | .dropped w bd => Left w₀ w bd none
  | _ => True

@[simp] theorem Ownership.release_ops (o : Ownership) (w : SendStream) :
    (o.release w).ops = w.ops := by
  cases o <;> rfl

theorem release_drop_ops (o : Ownership) {g : SendResetGuard} (harmed : g.armed = true) :
    (o.release g.drop).ops = g.w.ops ++ [.stopStream g.code] := by
  simp [SendResetGuard.drop, harmed]

theorem release_error_ops (o : Ownership) {g : SendResetGuard} (harmed : g.armed = true)
    (f : SendStream → SendStream) :
    (o.release ((g.onStream f).setErrorCode .h3InternalError).drop).ops =
      (f g.w).ops ++ [.stopStream .h3InternalError] :=
  release_drop_ops o harmed

section Exits

variable {o : Ownership} {w₀ : SendStream} {sc : BodyScript} {fut fut' : SendFuture}
  {signal : Signal}

theorem carries_of_written {w w' : SendStream} {bd : Body} (h : Written w₀ w bd.yielded)
    (hwire : w'.wire = w.wire) : Carries w' bd bd.yielded := by
  rw [Carries, hwire, h.1]
  exact ⟨List.prefix_refl _, List.prefix_refl _⟩

/-- A write in progress has put a part of its frame on the stream. -/
theorem carries_of_sending {w w' : SendStream} {bd : Body} {fs : List Frame} {f : Frame}
    {rest sent : List WireItem} (hyielded : bd.yielded = fs ++ [f])
    (hwire : w.wire ++ rest = Frame.flatten bd.yielded) (hrest : rest <:+ f.items)
    (hsent : w'.wire = w.wire ++ sent) (hpart : sent <+: rest) : Carries w' bd fs := by
  obtain ⟨done, hdone⟩ := hrest
  obtain ⟨left, hleft⟩ := hpart
  have hstart : w.wire = Frame.flatten fs ++ done := by
    rw [hyielded, Frame.flatten_append, Frame.flatten_singleton, ← hdone,
      ← List.append_assoc] at hwire
    exact List.append_cancel_right hwire
  constructor
  · rw [hsent, hstart, List.append_assoc]
    exact List.prefix_append _ _
  · rw [hsent, ← hwire, ← hleft, ← List.append_assoc]
    exact List.prefix_append _ _

theorem left_of_written {g : SendResetGuard} {bd : Body} {res : Option (Except Error Unit)}
    {tail : List SendOp} {w : SendStream} (h : Written w₀ g.w bd.yielded)
    (hops : w.ops = g.w.ops ++ tail) (hwire : w.wire = g.w.wire)
    (hexit : Exit bd bd.yielded res tail) : Left w₀ w bd res := by
  refine ⟨bd.yielded, tail, ?_, hexit, carries_of_written h hwire⟩
  rw [hops, h.2]

/-- One step of a body send. -/
theorem SendMove.exitInv (h : SendMove o fut fut' signal) (hinv : SendInv w₀ sc fut)
    (hexit : ExitInv w₀ fut) : ExitInv w₀ fut' := by
  cases h with
  | start w bd => trivial
  | wait g bd => trivial
  | take g bd f fs hrest => exact List.suffix_refl _
  | sourceEnd g bd hrest hend => trivial
  | writePending f rest g bd k => exact (List.drop_suffix k rest).trans hexit
  | writeOk f rest g bd => trivial
  | finishPending g bd => trivial
  | cancel g bd =>
      obtain ⟨harmed, hcode, -, -, hwritten, hopen⟩ := hinv
      refine left_of_written hwritten (release_drop_ops o harmed) (by simp) ?_
      rw [hcode]
      exact .cancelled rfl hopen
  | sourceError g bd e hrest hend =>
      obtain ⟨harmed, -, -, -, hwritten, -⟩ := hinv
      have hwritten' : Written w₀ g.w ({ bd with ended := true } : Body).yielded := hwritten
      refine left_of_written hwritten' (release_drop_ops o harmed)
        (by simp [SendResetGuard.setErrorCode]) ?_
      exact .sourceError e rfl rfl hend
  | writeErr f rest g bd k e =>
      obtain ⟨harmed, -, -, -, hopen, fs, hyielded, hwire, hops⟩ := hinv
      refine ⟨fs, _, ?_, .writeError f e hyielded hopen, ?_⟩
      · rw [release_error_ops o harmed]
        simp [hops]
      · refine carries_of_sending hyielded hwire hexit ?_ (List.take_prefix k rest)
        simp [SendResetGuard.setErrorCode, SendResetGuard.onStream]
  | finishOk g bd =>
      obtain ⟨-, -, -, -, hwritten, hended, hrest, hend⟩ := hinv
      refine left_of_written hwritten ?_ ?_ (.finished rfl hended hrest hend)
      · simp [release_finish]
      · simp [release_finish]
  | finishErr g bd e =>
      obtain ⟨harmed, -, -, -, hwritten, hended, hrest, hend⟩ := hinv
      refine left_of_written hwritten ?_ ?_ (.finishError e rfl hended hrest hend)
      · rw [release_error_ops o harmed]
        simp
      · simp [SendResetGuard.setErrorCode, SendResetGuard.onStream]

theorem SendInv.exitInv_drop (hinv : SendInv w₀ sc fut) (hexit : ExitInv w₀ fut)
    (hpolled : fut.isPolled = true) : ExitInv w₀ (fut.drop o) := by
  cases fut with
  | unpolled w bd => cases hpolled
  | returned w bd res => exact hexit
  | dropped w bd => exact hexit
  | running pc g bd =>
      obtain ⟨harmed, hcode, -, -, hpc⟩ := hinv
      have hops := release_drop_ops o harmed
      rw [hcode] at hops
      cases pc with
      | nextFrame =>
          refine left_of_written hpc.1 hops (by simp) (.dropped (List.prefix_refl _) ?_)
          simp [hpc.2]
      | finishing =>
          refine left_of_written hpc.1 hops (by simp) (.dropped (List.prefix_refl _) ?_)
          exact fun _ ↦ hpc.2.2.2
      | sending f rest =>
          obtain ⟨hopen, fs, hyielded, hwire, hwops⟩ := hpc
          refine ⟨fs, _, by rw [hops, hwops], .dropped ?_ (by simp [hopen]), ?_⟩
          · rw [hyielded]
            exact List.prefix_append _ _
          · exact carries_of_sending hyielded hwire hexit (by simp) List.nil_prefix

/-- The cancel branch is the one way to return `Ok` without a `finish`. -/
theorem SendMove.cancelled_iff (h : SendMove o fut fut' signal) (hinv : SendInv .new sc fut) :
    signal = .cancelled ↔ ∃ w bd, fut' = .returned w bd (.ok ()) ∧ .finish true ∉ w.ops := by
  cases h with
  | cancel g bd =>
      obtain ⟨harmed, -, -, -, ⟨-, hops⟩, -⟩ := hinv
      refine iff_of_true rfl ⟨_, _, rfl, ?_⟩
      rw [release_drop_ops _ harmed, hops]
      simp [SendStream.new]
  | finishOk g bd => simp [release_finish]
  | start w bd => simp
  | wait g bd => simp
  | take g bd f fs hr => simp
  | sourceEnd g bd hr he => simp
  | sourceError g bd e hr he => simp
  | writePending f rest g bd k => simp
  | writeOk f rest g bd => simp
  | writeErr f rest g bd k e => simp
  | finishPending g bd => simp
  | finishErr g bd e => simp

end Exits

/-! ## Runs of the client loop -/

namespace SendTask

variable {sc : BodyScript} {t t' : SendTask}

def Inv (sc : BodyScript) (t : SendTask) : Prop := SendInv .new sc t.fut ∧ ExitInv .new t.fut

theorem inv_start (sc : BodyScript) : Inv sc (start .new sc) := ⟨⟨rfl, rfl⟩, trivial⟩

/-- Everything one event can do to a client body send. -/
theorem clientStep_cases {l : SendEvent × Option Signal} (h : ClientSteps t l t') :
    (t'.fut = t.fut ∧ l.2 = none) ∨
    (∃ signal, t.fut.isOver = false ∧ SendMove .owned t.fut t'.fut signal ∧ l.2 = some signal) ∨
    (t.fut.isPolled = true ∧ t'.fut = t.fut.drop .owned ∧ l.2 = none) := by
  obtain ⟨ev, out⟩ := l
  simp only [ClientSteps, Fires, clientStep] at h
  split at h
  · obtain ⟨rfl, rfl⟩ := Prod.mk.inj h
    exact .inl ⟨rfl, rfl⟩
  · next hact =>
      cases ev with
      | cancel =>
          obtain ⟨rfl, rfl⟩ := Prod.mk.inj h
          exact .inl ⟨rfl, rfl⟩
      | drop =>
          obtain ⟨rfl, rfl⟩ := Prod.mk.inj h
          exact .inr (.inr ⟨by simpa using hact, rfl, rfl⟩)
      | poll a =>
          simp only [stepWith] at h
          split at h
          · obtain ⟨rfl, rfl⟩ := Prod.mk.inj h
            exact .inl ⟨rfl, rfl⟩
          · next hlive =>
              have hlive' : t.fut.isOver = false := by simpa using hlive
              obtain ⟨rfl, rfl⟩ := Prod.mk.inj h
              exact .inr (.inl ⟨_, hlive', sendH3ClientBody_move t.cancelled a hlive', rfl⟩)

theorem Inv.step {l : SendEvent × Option Signal} (hinv : Inv sc t) (h : ClientSteps t l t') :
    Inv sc t' := by
  obtain ⟨hsend, hexit⟩ := hinv
  rcases clientStep_cases h with ⟨hsame, -⟩ | ⟨signal, -, hmove, -⟩ | ⟨hpolled, hdrop, -⟩
  · rw [Inv, hsame]
    exact ⟨hsend, hexit⟩
  · exact ⟨hmove.inv SendStream.new_fresh hsend, hmove.exitInv hsend hexit⟩
  · rw [Inv, hdrop]
    exact ⟨hsend.drop (SendFuture.ne_unpolled hpolled), hsend.exitInv_drop hexit hpolled⟩

/-- Nothing happens to a future that is over. -/
theorem fut_of_isOver {l : SendEvent × Option Signal} (h : ClientSteps t l t')
    (hover : t.fut.isOver = true) : t'.fut = t.fut ∧ l.2 = none := by
  rcases clientStep_cases h with hsame | ⟨signal, hlive, -, -⟩ | ⟨-, hdrop, hnone⟩
  · exact hsame
  · rw [hover] at hlive
    cases hlive
  · refine ⟨?_, hnone⟩
    rw [hdrop]
    cases hfut : t.fut with
    | unpolled w bd => simp [hfut, SendFuture.isOver] at hover
    | running pc g bd => simp [hfut, SendFuture.isOver] at hover
    | returned w bd res => rfl
    | dropped w bd => rfl

theorem frozen {tr : List (SendEvent × Option Signal)} (h : Run ClientSteps t tr t')
    (hover : t.fut.isOver = true) : t'.fut = t.fut ∧ ∀ l ∈ tr, l.2 = none := by
  induction h with
  | nil t => exact ⟨rfl, by simp⟩
  | cons hstep hrest ih =>
      obtain ⟨hfut, hnone⟩ := fut_of_isOver hstep hover
      obtain ⟨hend, hquiet⟩ := ih (by rw [hfut]; exact hover)
      refine ⟨hend.trans hfut, ?_⟩
      intro l hl
      rcases List.mem_cons.mp hl with rfl | hl
      · exact hnone
      · exact hquiet l hl

/-- A poll that is answered brings a body send nearer to its end. -/
theorem Inv.weight_poll_lt (hinv : Inv sc t) (hend : sc.ending ≠ .never ∨ t.cancelled = true)
    {a : Answers} (ha : a.isReady = true) (hlive : t.fut.isOver = false) :
    (t.clientStep (.poll a)).1.fut.weight < t.fut.weight := by
  have hne : (sendH3ClientBody t.cancelled a t.fut).2 ≠ .pending := by
    apply sendH3ClientBody_ne_pending ha hlive
    rintro g bd hfut - hnever
    have hscript := hinv.1.source_script
    rw [hfut] at hscript
    subst hscript
    exact hend.resolve_left (fun hopen ↦ hopen hnever)
  have hlt := (sendH3ClientBody_move t.cancelled a hlive).weight_lt hne
  simpa [clientStep, stepWith, hlive] using hlt

theorem Inv.isOver_exec (hinv : Inv sc t) (hend : sc.ending ≠ .never ∨ t.cancelled = true)
    {as : List Answers} (has : ∀ a ∈ as, a.isReady = true) (hlen : t.fut.weight ≤ as.length) :
    (exec clientStep t (as.map .poll)).fut.isOver = true := by
  induction as generalizing t with
  | nil => exact SendFuture.isOver_of_weight (Nat.le_zero.mp hlen)
  | cons a as ih =>
      have hnext : Inv sc (t.clientStep (.poll a)).1 :=
        hinv.step (l := (.poll a, (t.clientStep (.poll a)).2)) rfl
      have hsame : (t.clientStep (.poll a)).1.cancelled = t.cancelled := by
        cases hover : t.fut.isOver <;> simp [clientStep, stepWith, hover]
      apply ih hnext
      · rwa [hsame]
      · exact fun b hb ↦ has b (List.mem_cons_of_mem a hb)
      · cases hover : t.fut.isOver with
        | true =>
            have hstay : (t.clientStep (.poll a)).1 = t := by simp [clientStep, stepWith, hover]
            rw [hstay, SendFuture.weight_of_isOver hover]
            exact Nat.zero_le _
        | false =>
            have hlt := hinv.weight_poll_lt hend (has a List.mem_cons_self) hover
            rw [List.length_cons] at hlen
            omega

/-- The cancel branch was taken exactly in the runs that return `Ok` without a
successful `finish`. -/
theorem cancelled_iff {tr : List (SendEvent × Option Signal)} (h : Run ClientSteps t tr t')
    (hinv : Inv sc t) (hlive : t.fut.isOver = false) :
    (∃ l ∈ tr, l.2 = some .cancelled) ↔
      ∃ w bd, t'.fut = .returned w bd (.ok ()) ∧ .finish true ∉ w.ops := by
  induction h with
  | nil t =>
      constructor
      · simp
      · rintro ⟨w, bd, hfut, -⟩
        rw [hfut] at hlive
        cases hlive
  | @cons t u t' l tr hstep hrest ih =>
      have hone : l.2 = some .cancelled ↔
          ∃ w bd, u.fut = .returned w bd (.ok ()) ∧ .finish true ∉ w.ops := by
        rcases clientStep_cases hstep with ⟨hsame, hnone⟩ | ⟨signal, -, hmove, hsignal⟩ |
          ⟨-, hdrop, hnone⟩
        · rw [hsame, hnone]
          cases hfut : t.fut <;> simp_all [SendFuture.isOver]
        · rw [hsignal, ← hmove.cancelled_iff hinv.1]
          simp
        · rw [hdrop, hnone]
          cases hfut : t.fut <;> simp_all [SendFuture.isOver, SendFuture.drop]
      cases hover : u.fut.isOver with
      | false =>
          have hne : l.2 ≠ some .cancelled := by
            rw [Ne, hone]
            rintro ⟨w, bd, hfut, -⟩
            rw [hfut] at hover
            cases hover
          simpa [hne] using ih (hinv.step hstep) hover
      | true =>
          -- the rest of the run is silent
          obtain ⟨hend, hquiet⟩ := frozen hrest hover
          rw [hend, ← hone]
          constructor
          · rintro ⟨l', hl', hsignal⟩
            rcases List.mem_cons.mp hl' with rfl | hl'
            · exact hsignal
            · rw [hquiet l' hl'] at hsignal
              cases hsignal
          · intro hsignal
            exact ⟨l, by simp, hsignal⟩

/-- The operations of a body send: the successful writes `fs`, then nothing while
it runs, and one of the exits once it is over. -/
structure Shape (t : SendTask) (fs : List Frame) (tail : List SendOp) : Prop where
  ops_eq : t.ops = fs.map (SendOp.write · true) ++ tail
  carries : Carries t.fut.stream t.fut.source fs
  state : (t.fut.isOver = false ∧ tail = [] ∧ fs <+: t.fut.source.yielded ∧
      (t.fut.source.ended = true → t.fut.source.ending = .done)) ∨
    (t.fut.isOver = true ∧ Exit t.fut.source fs t.fut.result tail)

theorem Inv.shape (hinv : Inv sc t) : ∃ fs tail, Shape t fs tail := by
  obtain ⟨fut, cancelled⟩ := t
  obtain ⟨hsend, hexit⟩ := hinv
  cases fut with
  | unpolled w bd =>
      obtain ⟨rfl, rfl⟩ := hsend
      exact ⟨[], [], rfl, ⟨List.nil_prefix, List.nil_prefix⟩,
        .inl ⟨rfl, rfl, List.nil_prefix, nofun⟩⟩
  | returned w bd res =>
      obtain ⟨fs, tail, hops, hex, hcarries⟩ := hexit
      exact ⟨fs, tail, hops, hcarries, .inr ⟨rfl, hex⟩⟩
  | dropped w bd =>
      obtain ⟨fs, tail, hops, hex, hcarries⟩ := hexit
      exact ⟨fs, tail, hops, hcarries, .inr ⟨rfl, hex⟩⟩
  | running pc g bd =>
      obtain ⟨-, -, -, -, hpc⟩ := hsend
      cases pc with
      | nextFrame =>
          refine ⟨bd.yielded, [], ?_, carries_of_written hpc.1 rfl,
            .inl ⟨rfl, rfl, List.prefix_refl _, by simp [SendFuture.source, hpc.2]⟩⟩
          simpa [ops, SendFuture.stream, SendStream.new] using hpc.1.2
      | finishing =>
          refine ⟨bd.yielded, [], ?_, carries_of_written hpc.1 rfl,
            .inl ⟨rfl, rfl, List.prefix_refl _, fun _ ↦ hpc.2.2.2⟩⟩
          simpa [ops, SendFuture.stream, SendStream.new] using hpc.1.2
      | sending f rest =>
          obtain ⟨hopen, fs, hyielded, hwire, hops⟩ := hpc
          refine ⟨fs, [], ?_,
            carries_of_sending hyielded hwire hexit (List.append_nil _).symm List.nil_prefix,
            .inl ⟨rfl, rfl, ?_, by simp [SendFuture.source, hopen]⟩⟩
          · simpa [ops, SendFuture.stream, SendStream.new] using hops
          · rw [SendFuture.source, hyielded]
            exact List.prefix_append _ _

end SendTask

section ExitFacts

variable {bd : Body} {fs : List Frame} {res : Option (Except Error Unit)} {tail : List SendOp}

theorem Exit.sent_eq (h : Exit bd fs res tail) : tail.filterMap SendOp.sent = [] := by
  cases h <;> rfl

theorem Exit.prefix_yielded (h : Exit bd fs res tail) : fs <+: bd.yielded := by
  cases h with
  | finished hy => exact hy ▸ List.prefix_refl _
  | cancelled hy => exact hy ▸ List.prefix_refl _
  | sourceError e hy => exact hy ▸ List.prefix_refl _
  | writeError f e hy =>
      rw [hy]
      exact List.prefix_append _ _
  | finishError e hy => exact hy ▸ List.prefix_refl _
  | dropped hpre => exact hpre

/-- The stream is stopped once, or finished. -/
theorem Exit.stops_eq (h : Exit bd fs res tail) :
    (tail.filterMap SendOp.stopCode = [] ∧ .finish true ∈ tail) ∨
      ((∃ code, tail.filterMap SendOp.stopCode = [code]) ∧ .finish true ∉ tail) := by
  cases h with
  | finished => exact .inl ⟨rfl, by simp⟩
  | cancelled => exact .inr ⟨⟨_, rfl⟩, by simp⟩
  | sourceError => exact .inr ⟨⟨_, rfl⟩, by simp⟩
  | writeError => exact .inr ⟨⟨_, rfl⟩, by simp⟩
  | finishError => exact .inr ⟨⟨_, rfl⟩, by simp⟩
  | dropped => exact .inr ⟨⟨_, rfl⟩, by simp⟩

/-- The code tells an error from an interruption. -/
theorem Exit.code_eq (h : Exit bd fs res tail) {code : Code}
    (hcode : code ∈ tail.filterMap SendOp.stopCode) :
    (code = .h3InternalError ∧
      ((∃ op ∈ tail, op.failed = true) ∨ (bd.ended = true ∧ ∃ e, bd.ending = .error e))) ∨
    (code = .h3RequestCancelled ∧ (∀ op ∈ tail, op.failed = false) ∧
      ¬ (bd.ended = true ∧ ∃ e, bd.ending = .error e)) := by
  cases h with
  | finished => simp [SendOp.stopCode] at hcode
  | cancelled hy hopen =>
      exact .inr ⟨by simpa [SendOp.stopCode] using hcode, by simp [SendOp.failed], by simp [hopen]⟩
  | sourceError e hy hended hend =>
      exact .inl ⟨by simpa [SendOp.stopCode] using hcode, .inr ⟨hended, e, hend⟩⟩
  | writeError f e hy hopen =>
      exact .inl ⟨by simpa [SendOp.stopCode, eq_comm] using hcode,
        .inl ⟨_, List.mem_cons_self, rfl⟩⟩
  | finishError e hy =>
      exact .inl ⟨by simpa [SendOp.stopCode, eq_comm] using hcode,
        .inl ⟨_, List.mem_cons_self, rfl⟩⟩
  | dropped hpre hdone =>
      refine .inr ⟨by simpa [SendOp.stopCode] using hcode, by simp [SendOp.failed], ?_⟩
      rintro ⟨hended, e, hend⟩
      rw [hdone hended] at hend
      cases hend

theorem Exit.pairwise (h : Exit bd fs res tail) :
    tail.Pairwise (fun a b ↦ a.failed = true → b.isWrite = false) := by
  cases h <;> simp [SendOp.isWrite]

theorem Exit.written_of_finish (h : Exit bd fs res tail) {ok : Bool} (hfin : .finish ok ∈ tail) :
    fs = bd.yielded ∧ bd.rest = [] := by
  cases h with
  | finished hy _ hrest => exact ⟨hy.symm, hrest⟩
  | finishError e hy _ hrest => exact ⟨hy.symm, hrest⟩
  | cancelled => simp at hfin
  | sourceError => simp at hfin
  | writeError => simp at hfin
  | dropped => simp at hfin

theorem Exit.ok_of_finish (h : Exit bd fs res tail) (hfin : .finish true ∈ tail) :
    res = some (.ok ()) := by
  cases h with
  | finished => rfl
  | cancelled => rfl
  | sourceError => simp at hfin
  | writeError => simp at hfin
  | finishError => simp at hfin
  | dropped => simp at hfin

theorem Exit.error_iff (h : Exit bd fs res tail) :
    (∃ e, res = some (.error e)) ↔
      (∃ op ∈ tail, op.failed = true) ∨ (bd.ended = true ∧ ∃ e, bd.ending = .error e) := by
  cases h with
  | finished hy hended hrest hend => simp [SendOp.failed, hend]
  | cancelled hy hopen => simp [SendOp.failed, hopen]
  | sourceError e hy hended hend => simp [hended, hend]
  | writeError f e hy hopen => simp [SendOp.failed]
  | finishError e hy => simp [SendOp.failed]
  | dropped hpre hdone =>
      simp only [SendOp.failed, List.mem_singleton, exists_eq_left, Bool.false_eq_true, false_or,
        reduceCtorEq, exists_false, false_iff, not_and, not_exists]
      intro hended e hend
      rw [hdone hended] at hend
      cases hend

end ExitFacts

/-! ### What the shape says -/

namespace SendTask

variable {sc : BodyScript} {t : SendTask} {fs : List Frame} {tail : List SendOp}

theorem Shape.written_eq (h : Shape t fs tail) : t.written = fs := by
  have hsent : tail.filterMap SendOp.sent = [] := by
    rcases h.state with ⟨-, rfl, -⟩ | ⟨-, hexit⟩
    · rfl
    · exact hexit.sent_eq
  rw [written, h.ops_eq, List.filterMap_append, SendOp.filterMap_sent_write, hsent,
    List.append_nil]

theorem Shape.stops_eq (h : Shape t fs tail) : t.stops = tail.filterMap SendOp.stopCode := by
  rw [stops, h.ops_eq, List.filterMap_append, SendOp.filterMap_stopCode_write, List.nil_append]

theorem Shape.finish_mem_iff (h : Shape t fs tail) (ok : Bool) :
    .finish ok ∈ t.ops ↔ .finish ok ∈ tail := by
  simp [h.ops_eq]

theorem Shape.failed_iff (h : Shape t fs tail) :
    (∃ op ∈ t.ops, op.failed = true) ↔ ∃ op ∈ tail, op.failed = true := by
  simp [h.ops_eq, SendOp.failed, or_and_right, exists_or]

theorem Shape.exit_of_isOver (h : Shape t fs tail) (hover : t.fut.isOver = true) :
    Exit t.fut.source fs t.fut.result tail := by
  rcases h.state with ⟨hlive, -⟩ | ⟨-, hexit⟩
  · rw [hover] at hlive
    cases hlive
  · exact hexit

theorem Shape.tail_of_live (h : Shape t fs tail) (hlive : t.fut.isOver = false) : tail = [] := by
  rcases h.state with ⟨-, hnil, -⟩ | ⟨hover, -⟩
  · exact hnil
  · rw [hlive] at hover
    cases hover

theorem Shape.prefix_yielded (h : Shape t fs tail) : t.written <+: t.fut.source.yielded := by
  rw [h.written_eq]
  rcases h.state with ⟨-, -, hpre, -⟩ | ⟨-, hexit⟩
  · exact hpre
  · exact hexit.prefix_yielded

theorem Inv.written_of_finishing {g : SendResetGuard} {bd : Body} (hinv : Inv sc t)
    (hfut : t.fut = .running .finishing g bd) :
    t.written = t.fut.source.yielded ∧ t.fut.source.rest = [] := by
  have hsend := hinv.1
  rw [hfut] at hsend
  obtain ⟨-, -, -, -, ⟨-, hwops⟩, -, hrest, -⟩ := hsend
  refine ⟨?_, by rw [hfut]; exact hrest⟩
  rw [written, ops, hfut, SendFuture.stream, hwops, List.filterMap_append,
    SendOp.filterMap_sent_write]
  rfl

theorem Shape.written_of_finish (h : Shape t fs tail) {ok : Bool} (hfin : .finish ok ∈ t.ops) :
    t.written = t.fut.source.yielded ∧ t.fut.source.rest = [] := by
  rw [h.finish_mem_iff] at hfin
  rw [h.written_eq]
  rcases h.state with ⟨-, rfl, -⟩ | ⟨-, hexit⟩
  · cases hfin
  · exact hexit.written_of_finish hfin

theorem Shape.length_stops (h : Shape t fs tail) : t.stops.length ≤ 1 := by
  rw [h.stops_eq]
  rcases h.state with ⟨-, rfl, -⟩ | ⟨-, hexit⟩
  · simp
  · rcases hexit.stops_eq with ⟨hnil, -⟩ | ⟨⟨code, hone⟩, -⟩
    · simp [hnil]
    · simp [hone]

theorem Shape.stops_iff (h : Shape t fs tail) (hover : t.fut.isOver = true) :
    t.stops ≠ [] ↔ .finish true ∉ t.ops := by
  rw [h.stops_eq, h.finish_mem_iff]
  rcases (h.exit_of_isOver hover).stops_eq with ⟨hnil, hfin⟩ | ⟨⟨code, hone⟩, hfin⟩
  · simp [hnil, hfin]
  · simp [hone, hfin]

theorem Shape.code_eq (h : Shape t fs tail) {code : Code} (hcode : code ∈ t.stops) :
    (t.Errored → code = .h3InternalError) ∧ (¬ t.Errored → code = .h3RequestCancelled) := by
  rw [h.stops_eq] at hcode
  rw [Errored, h.failed_iff]
  rcases h.state with ⟨-, rfl, -⟩ | ⟨-, hexit⟩
  · cases hcode
  · rcases hexit.code_eq hcode with ⟨rfl, herr⟩ | ⟨rfl, hnone, hsource⟩
    · exact ⟨fun _ ↦ rfl, fun hnot ↦ absurd herr hnot⟩
    · refine ⟨?_, fun _ ↦ rfl⟩
      rintro (⟨op, hop, hfail⟩ | herr)
      · rw [hnone op hop] at hfail
        cases hfail
      · exact absurd herr hsource

theorem Shape.pairwise (h : Shape t fs tail) :
    t.ops.Pairwise (fun a b ↦ a.failed = true → b.isWrite = false) := by
  have htail : tail.Pairwise (fun a b ↦ a.failed = true → b.isWrite = false) := by
    rcases h.state with ⟨-, rfl, -⟩ | ⟨-, hexit⟩
    · exact .nil
    · exact hexit.pairwise
  rw [h.ops_eq, List.pairwise_append]
  refine ⟨?_, htail, by simp [SendOp.failed]⟩
  rw [List.pairwise_map]
  exact List.pairwise_of_forall (by simp [SendOp.failed])

/-- An error ends the body send. -/
theorem Shape.isOver_of_errored (h : Shape t fs tail) (herr : t.Errored) :
    t.fut.isOver = true := by
  rcases h.state with ⟨-, rfl, -, hdone⟩ | ⟨hover, -⟩
  · rcases herr with hop | ⟨hended, e, hend⟩
    · simp [h.failed_iff] at hop
    · rw [hdone hended] at hend
      cases hend
  · exact hover

theorem Shape.ok_of_finish (h : Shape t fs tail) (hfin : .finish true ∈ t.ops) :
    t.fut.result = some (.ok ()) := by
  rw [h.finish_mem_iff] at hfin
  rcases h.state with ⟨-, rfl, -⟩ | ⟨-, hexit⟩
  · cases hfin
  · exact hexit.ok_of_finish hfin

theorem Shape.error_iff (h : Shape t fs tail) :
    (∃ e, t.fut.result = some (.error e)) ↔ t.Errored := by
  rcases h.state with ⟨hlive, -⟩ | ⟨-, hexit⟩
  · have hopen : ¬ t.Errored := fun herr ↦ by
      rw [h.isOver_of_errored herr] at hlive
      cases hlive
    simp [SendFuture.result_of_live hlive, hopen]
  · rw [hexit.error_iff, Errored, h.failed_iff]

theorem result_ok_iff {tr : List (SendEvent × Option Signal)}
    (h : Run ClientSteps (start .new sc) tr t) :
    t.fut.result = some (.ok ()) ↔ .finish true ∈ t.ops ∨ ∃ l ∈ tr, l.2 = some .cancelled := by
  have hinv : Inv sc t := h.invariant (fun _ _ _ hI hstep ↦ hI.step hstep) (inv_start sc)
  obtain ⟨fs, tail, hshape⟩ := hinv.shape
  rw [cancelled_iff h (inv_start sc) rfl]
  constructor
  · intro hres
    obtain ⟨w, bd, hfut⟩ := SendFuture.of_result hres
    by_cases hfin : .finish true ∈ t.ops
    · exact .inl hfin
    · refine .inr ⟨w, bd, hfut, ?_⟩
      simpa [SendTask.ops, hfut, SendFuture.stream] using hfin
  · rintro (hfin | ⟨w, bd, hok, -⟩)
    · exact hshape.ok_of_finish hfin
    · rw [hok]
      rfl

end SendTask

end TonicH3
