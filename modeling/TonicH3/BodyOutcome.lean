import TonicH3.BodySend
import TonicH3.ServerBody

/-!
# The outcome of a body send

What the awaits of a body send have brought it is a list of notices: the
cancellation, the answers of the source, and those of the transport.  What it
has done and returned is compared with these, and not with the loop's own
account.  Then the client and the server loop are compared event by event.
-/

namespace TonicH3

open EventRun

/-! ## Notices -/

/-- The operations the transport answers; `stop_stream` returns nothing. -/
def SendOp.answered : SendOp → Bool
  | .stopStream _ => false
  | _ => true

/-- What reaches a body send at the await it is suspended at: the cancellation,
an answer of the body source, or an answer of the transport. -/
inductive Notice
  | cancelled
  | frame (f : Frame)
  | sourceEnd
  | sourceError (e : Error)
  | operation (op : SendOp)
  deriving DecidableEq, Repr

namespace Notice

def yielded : Notice → Option Frame
  | .frame f => some f
  | _ => none

def performed : Notice → Option SendOp
  | .operation op => some op
  | _ => none

def isError : Notice → Bool
  | .sourceError _ => true
  | .operation op => op.failed
  | _ => false

end Notice

def OpAnswer.notices (op : Bool → SendOp) : OpAnswer → List Notice
  | .pending _ => []
  | .ok => [.operation (op true)]
  | .err _ _ => [.operation (op false)]

/-- The `select!` looks at the cancellation before it polls the source. -/
def SendFuture.notices (cancel : Bool) (a : Answers) : SendFuture → List Notice
  | .running .nextFrame _ bd =>
      if cancel then [.cancelled]
      else
        match (bd.pollFrame a.body).1 with
        | .pending => []
        | .ready none => [.sourceEnd]
        | .ready (some (.error e)) => [.sourceError e]
        | .ready (some (.ok f)) => [.frame f]
  | .running (.sending f _) _ _ => a.op.notices (.write f)
  | .running .finishing _ _ => a.op.notices .finish
  | _ => []

/-- It waits for the answer to `finish`, or is over. -/
def SendFuture.isClosing : SendFuture → Bool
  | .running .finishing _ _ => true
  | fut => fut.isOver

namespace SendTask

def notices (t : SendTask) : SendEvent → List Notice
  | .poll a => t.fut.notices t.cancelled a
  | _ => []

/-- Everything the environment has told a client body send. -/
def heard (t : SendTask) (es : List SendEvent) : List Notice :=
  observed (fun t ev ↦ (clientStep t ev).1) notices t es

end SendTask

/-! ## What a run is told -/

namespace SendTask

variable {sc : BodyScript} {t t' : SendTask} {rs : List Notice}

/-- The operations performed, the frames read and the error of the source are
those of the notices. -/
structure Told (rs : List Notice) (t : SendTask) : Prop where
  performed : t.ops.filter SendOp.answered = rs.filterMap Notice.performed
  yielded : t.fut.source.yielded = rs.filterMap Notice.yielded
  sourceError : ∀ e, t.fut.source.ended = true ∧ t.fut.source.ending = .error e ↔
    .sourceError e ∈ rs

theorem told_start (sc : BodyScript) : Told [] (start .new sc) :=
  ⟨rfl, rfl, by simp [start, SendFuture.source, Body.new]⟩

theorem filter_answered_drop (g : SendResetGuard) :
    g.drop.ops.filter SendOp.answered = g.w.ops.filter SendOp.answered := by
  unfold SendResetGuard.drop
  split <;> simp [SendOp.answered]

/-- The operations a poll performs are those the transport has answered in it. -/
theorem ops_sendH3ClientBody (cancel : Bool) (a : Answers) (fut : SendFuture) :
    (sendH3ClientBody cancel a fut).1.stream.ops.filter SendOp.answered =
      fut.stream.ops.filter SendOp.answered ++
        (fut.notices cancel a).filterMap Notice.performed := by
  cases fut with
  | unpolled w bd => simp [sendH3ClientBody, SendFuture.notices, SendFuture.stream,
      SendResetGuard.new]
  | returned w bd res => simp [sendH3ClientBody, SendFuture.notices]
  | dropped w bd => simp [sendH3ClientBody, SendFuture.notices]
  | running pc g bd =>
      cases pc with
      | nextFrame =>
          cases cancel with
          | true =>
              simp [sendH3ClientBody, SendFuture.notices, SendFuture.stream,
                filter_answered_drop, Notice.performed]
          | false =>
              rcases bd.pollFrame_cases a.body with h | ⟨f, fs, -, h⟩ | ⟨-, -, h⟩ | ⟨e, -, -, h⟩
              all_goals simp [sendH3ClientBody, SendFuture.notices, SendFuture.stream, h,
                filter_answered_drop, SendResetGuard.setErrorCode, Notice.performed]
      | sending f rest =>
          cases hop : a.op
          all_goals simp [sendH3ClientBody, SendFuture.notices, SendFuture.stream, hop,
            OpAnswer.notices, filter_answered_drop, SendResetGuard.setErrorCode,
            SendResetGuard.onStream, Notice.performed, SendOp.answered]
      | finishing =>
          cases hop : a.op
          all_goals simp [sendH3ClientBody, SendFuture.notices, SendFuture.stream, hop,
            OpAnswer.notices, filter_answered_drop, SendResetGuard.setErrorCode,
            SendResetGuard.onStream, SendResetGuard.disarm, Notice.performed, SendOp.answered]

theorem source_sendH3ClientBody (cancel : Bool) (a : Answers) (fut : SendFuture) :
    (sendH3ClientBody cancel a fut).1.source.yielded =
      fut.source.yielded ++ (fut.notices cancel a).filterMap Notice.yielded ∧
    ∀ e, (sendH3ClientBody cancel a fut).1.source.ended = true ∧
        (sendH3ClientBody cancel a fut).1.source.ending = .error e ↔
      (fut.source.ended = true ∧ fut.source.ending = .error e) ∨
        .sourceError e ∈ fut.notices cancel a := by
  cases fut with
  | unpolled w bd => simp [sendH3ClientBody, SendFuture.notices, SendFuture.source]
  | returned w bd res => simp [sendH3ClientBody, SendFuture.notices]
  | dropped w bd => simp [sendH3ClientBody, SendFuture.notices]
  | running pc g bd =>
      cases pc with
      | nextFrame =>
          cases cancel with
          | true => simp [sendH3ClientBody, SendFuture.notices, SendFuture.source, Notice.yielded]
          | false =>
              rcases bd.pollFrame_cases a.body with h | ⟨f, fs, -, h⟩ | ⟨-, hend, h⟩ |
                ⟨e, -, hend, h⟩
              · simp [sendH3ClientBody, SendFuture.notices, SendFuture.source, h]
              · simp [sendH3ClientBody, SendFuture.notices, SendFuture.source, h, Notice.yielded]
              · simp [sendH3ClientBody, SendFuture.notices, SendFuture.source, h, hend,
                  Notice.yielded]
              · simp [sendH3ClientBody, SendFuture.notices, SendFuture.source, h, hend,
                  Notice.yielded, eq_comm (a := e)]
      | sending f rest =>
          cases hop : a.op
          all_goals simp [sendH3ClientBody, SendFuture.notices, SendFuture.source, hop,
            OpAnswer.notices, Notice.yielded]
      | finishing =>
          cases hop : a.op
          all_goals simp [sendH3ClientBody, SendFuture.notices, SendFuture.source, hop,
            OpAnswer.notices, Notice.yielded]

theorem clientStep_drop (t : SendTask) :
    (t.clientStep .drop).1.ops.filter SendOp.answered = t.ops.filter SendOp.answered ∧
      (t.clientStep .drop).1.fut.source = t.fut.source := by
  obtain ⟨fut, cancelled⟩ := t
  cases fut with
  | unpolled w bd => exact ⟨rfl, rfl⟩
  | returned w bd res => exact ⟨rfl, rfl⟩
  | dropped w bd => exact ⟨rfl, rfl⟩
  | running pc g bd =>
      refine ⟨?_, rfl⟩
      calc
        (Ownership.owned.release g.drop).ops.filter SendOp.answered =
            g.drop.ops.filter SendOp.answered := by rw [Ownership.release_ops]
        _ = g.w.ops.filter SendOp.answered := filter_answered_drop g

theorem notices_of_isOver {fut : SendFuture} (hover : fut.isOver = true) (cancel : Bool)
    (a : Answers) : fut.notices cancel a = [] := by
  cases fut with
  | returned w bd res => rfl
  | dropped w bd => rfl
  | unpolled w bd => cases hover
  | running pc g bd => cases hover

/-- Everything one event adds to what a body send has done and has been told. -/
theorem clientStep_notices (t : SendTask) (ev : SendEvent) :
    (t.clientStep ev).1.ops.filter SendOp.answered =
        t.ops.filter SendOp.answered ++ (t.notices ev).filterMap Notice.performed ∧
      (t.clientStep ev).1.fut.source.yielded =
        t.fut.source.yielded ++ (t.notices ev).filterMap Notice.yielded ∧
      ∀ e, (t.clientStep ev).1.fut.source.ended = true ∧
          (t.clientStep ev).1.fut.source.ending = .error e ↔
        (t.fut.source.ended = true ∧ t.fut.source.ending = .error e) ∨
          .sourceError e ∈ t.notices ev := by
  cases ev with
  | cancel => simp [clientStep, stepWith, notices, ops]
  | drop =>
      obtain ⟨hops, hsource⟩ := clientStep_drop t
      simp [hops, hsource, notices]
  | poll a =>
      cases hover : t.fut.isOver with
      | true => simp [clientStep, stepWith, hover, notices, notices_of_isOver hover]
      | false =>
          have hops := ops_sendH3ClientBody t.cancelled a t.fut
          have hsource := source_sendH3ClientBody t.cancelled a t.fut
          simpa [clientStep, stepWith, hover, notices, ops] using ⟨hops, hsource⟩

theorem Told.step (h : Told rs t) (ev : SendEvent) :
    Told (rs ++ t.notices ev) (t.clientStep ev).1 := by
  obtain ⟨hops, hyielded, herr⟩ := clientStep_notices t ev
  constructor
  · rw [hops, h.performed, List.filterMap_append]
  · rw [hyielded, h.yielded, List.filterMap_append]
  · intro e
    rw [herr, h.sourceError, List.mem_append]

theorem told_of_run {tr : List (SendEvent × Option Signal)}
    (h : Run ClientSteps (start .new sc) tr t) :
    Told ((start .new sc).heard (tr.map Prod.fst)) t :=
  h.events.observe (fun _ _ ev hI ↦ hI.step ev) (told_start sc)

theorem Told.operation_mem_iff (h : Told rs t) (op : SendOp) :
    .operation op ∈ rs ↔ op ∈ t.ops ∧ op.answered = true := by
  rw [← List.mem_filter, h.performed, List.mem_filterMap]
  constructor
  · exact fun hr ↦ ⟨_, hr, rfl⟩
  · rintro ⟨r, hr, hop⟩
    cases r <;> simp_all [Notice.performed]

theorem Told.failed_iff (h : Told rs t) :
    (∃ op ∈ t.ops, op.failed = true) ↔ ∃ op, .operation op ∈ rs ∧ op.failed = true := by
  simp only [h.operation_mem_iff]
  constructor
  · rintro ⟨op, hop, hfail⟩
    refine ⟨op, ⟨hop, ?_⟩, hfail⟩
    cases op <;> simp_all [SendOp.failed, SendOp.answered]
  · rintro ⟨op, ⟨hop, -⟩, hfail⟩
    exact ⟨op, hop, hfail⟩

theorem Told.errored_iff (h : Told rs t) : t.Errored ↔ ∃ r ∈ rs, r.isError = true := by
  have hsource : (t.fut.source.ended = true ∧ ∃ e, t.fut.source.ending = .error e) ↔
      ∃ e, .sourceError e ∈ rs := by
    simp [← h.sourceError]
  rw [Errored, h.failed_iff, hsource]
  constructor
  · rintro (⟨op, hop, hfail⟩ | ⟨e, he⟩)
    · exact ⟨_, hop, hfail⟩
    · exact ⟨_, he, rfl⟩
  · rintro ⟨r, hr, herr⟩
    cases r with
    | operation op => exact .inl ⟨op, hr, herr⟩
    | sourceError e => exact .inr ⟨e, hr⟩
    | cancelled => cases herr
    | frame f => cases herr
    | sourceEnd => cases herr

theorem Told.finish_iff (h : Told rs t) :
    .operation (.finish true) ∈ rs ↔ .finish true ∈ t.ops := by
  simp [h.operation_mem_iff, SendOp.answered]

theorem isClosing_step {l : SendEvent × Option Signal} (hclosing : t.fut.isClosing = true)
    (h : ClientSteps t l t') : t'.fut.isClosing = true := by
  rcases clientStep_cases h with ⟨hsame, -⟩ | ⟨signal, hlive, hmove, -⟩ | ⟨-, hdrop, -⟩
  · rw [hsame]
    exact hclosing
  · generalize t.fut = fut at hclosing hlive hmove
    generalize t'.fut = fut' at hmove
    cases hmove with
    | finishPending g bd => rfl
    | finishOk g bd => rfl
    | finishErr g bd e => rfl
    | cancel g bd => rfl
    | sourceError g bd e hrest hend => rfl
    | writeErr f rest g bd k e => rfl
    | sourceEnd g bd hrest hend => rfl
    | start w bd => cases hclosing
    | wait g bd => cases hclosing
    | take g bd f fs hrest => cases hclosing
    | writePending f rest g bd k => cases hclosing
    | writeOk f rest g bd => cases hclosing
  · rw [hdrop]
    cases t.fut <;> rfl

theorem isClosing_of_sourceEnd {cancel : Bool} {a : Answers} {fut : SendFuture}
    (h : .sourceEnd ∈ fut.notices cancel a) :
    (sendH3ClientBody cancel a fut).1.isClosing = true := by
  cases fut with
  | unpolled w bd => cases h
  | returned w bd res => cases h
  | dropped w bd => cases h
  | running pc g bd =>
      cases pc with
      | nextFrame =>
          cases cancel with
          | true => simp [SendFuture.notices] at h
          | false =>
              rcases bd.pollFrame_cases a.body with h' | ⟨f, fs, -, h'⟩ | ⟨-, -, h'⟩ |
                ⟨e, -, -, h'⟩
              · simp [SendFuture.notices, h'] at h
              · simp [SendFuture.notices, h'] at h
              · simp [sendH3ClientBody, h', SendFuture.isClosing]
              · simp [SendFuture.notices, h'] at h
      | sending f rest => cases hop : a.op <;> simp [SendFuture.notices, OpAnswer.notices, hop] at h
      | finishing => cases hop : a.op <;> simp [SendFuture.notices, OpAnswer.notices, hop] at h

/-- The end of the source is followed by `finish`. -/
theorem isClosing_of_run {tr : List (SendEvent × Option Signal)}
    (h : Run ClientSteps (start .new sc) tr t)
    (hend : .sourceEnd ∈ (start .new sc).heard (tr.map Prod.fst)) : t.fut.isClosing = true := by
  refine h.events.observe
    (I := fun rs u ↦ Notice.sourceEnd ∈ rs → u.fut.isClosing = true) ?_ (by simp) hend
  intro rs u ev hpast hmem
  rcases List.mem_append.mp hmem with hmem | hnow
  · exact isClosing_step (l := (ev, (u.clientStep ev).2)) (hpast hmem) rfl
  · cases ev with
    | cancel => cases hnow
    | drop => cases hnow
    | poll a =>
        have hlive : u.fut.isOver = false := by
          by_contra hover
          simp [notices, notices_of_isOver (by simpa using hover)] at hnow
        simpa [clientStep, stepWith, hlive] using isClosing_of_sourceEnd hnow

theorem cancelled_mem_notices (cancel : Bool) (a : Answers) (fut : SendFuture) :
    .cancelled ∈ fut.notices cancel a ↔ cancel = true ∧ ∃ g bd, fut = .running .nextFrame g bd := by
  cases fut with
  | unpolled w bd => simp [SendFuture.notices]
  | returned w bd res => simp [SendFuture.notices]
  | dropped w bd => simp [SendFuture.notices]
  | running pc g bd =>
      cases pc with
      | nextFrame =>
          cases cancel with
          | true => simp [SendFuture.notices]
          | false =>
              rcases bd.pollFrame_cases a.body with h | ⟨f, fs, -, h⟩ | ⟨-, -, h⟩ | ⟨e, -, -, h⟩
              all_goals simp [SendFuture.notices, h]
      | sending f rest => cases hop : a.op <;> simp [SendFuture.notices, OpAnswer.notices, hop]
      | finishing => cases hop : a.op <;> simp [SendFuture.notices, OpAnswer.notices, hop]

theorem signal_cancelled_iff (cancel : Bool) (a : Answers) {fut : SendFuture}
    (hlive : fut.isOver = false) : (sendH3ClientBody cancel a fut).2 = .cancelled ↔
      cancel = true ∧ ∃ g bd, fut = .running .nextFrame g bd := by
  constructor
  · intro hsignal
    cases cancel with
    | false => exact absurd hsignal (sendH3ClientBody_not_cancelled a fut)
    | true =>
        have hmove := sendH3ClientBody_move true a hlive
        rw [hsignal] at hmove
        generalize (sendH3ClientBody true a fut).1 = fut' at hmove
        cases hmove with
        | cancel g bd => exact ⟨rfl, g, bd, rfl⟩
  · rintro ⟨rfl, g, bd, rfl⟩
    rfl

/-- The cancel branch is taken exactly when the future is told of the cancellation. -/
theorem told_cancelled_iff (t : SendTask) (ev : SendEvent) :
    .cancelled ∈ t.notices ev ↔ (t.clientStep ev).2 = some .cancelled := by
  cases ev with
  | cancel => simp [notices, clientStep, stepWith]
  | drop =>
      by_cases hpolled : t.fut.isPolled = false
      · simp [notices, clientStep, hpolled]
      · simp [notices, clientStep, stepWith, hpolled]
  | poll a =>
      cases hover : t.fut.isOver with
      | true => simp [notices, notices_of_isOver hover, clientStep, stepWith, hover]
      | false =>
          have hiff := (cancelled_mem_notices t.cancelled a t.fut).trans
            (signal_cancelled_iff t.cancelled a hover).symm
          simpa [notices, clientStep, stepWith, hover] using hiff

theorem cancelled_heard_iff {tr : List (SendEvent × Option Signal)}
    (h : Run ClientSteps (start .new sc) tr t) :
    .cancelled ∈ (start .new sc).heard (tr.map Prod.fst) ↔ ∃ l ∈ tr, l.2 = some .cancelled := by
  constructor
  · exact h.of_mem_observed (P := fun l ↦ l.2 = some .cancelled)
      (fun t ev ↦ (told_cancelled_iff t ev).mp)
  · rintro ⟨l, hl, hsignal⟩
    exact h.mem_observed (P := fun l ↦ l.2 = some .cancelled)
      (fun t ev ↦ (told_cancelled_iff t ev).mpr) hl hsignal

/-- The receiver resolves when the sender is dropped, and not before. -/
theorem cancelled_of_run {tr : List (SendEvent × Option Signal)}
    (h : Run ClientSteps (start .new sc) tr t) :
    t.cancelled = true ↔ .cancel ∈ tr.map Prod.fst := by
  refine h.history (I := fun past u ↦ u.cancelled = true ↔ .cancel ∈ past.map Prod.fst) ?_
    (by simp [start])
  rintro past u ⟨ev, out⟩ v hiff hstep
  have hnext : v = (u.clientStep ev).1 := (congrArg Prod.fst hstep).symm
  rw [hnext]
  cases ev with
  | cancel => simp [clientStep, stepWith]
  | drop =>
      by_cases hpolled : u.fut.isPolled = false
      · simp [clientStep, hpolled, hiff]
      · simp [clientStep, stepWith, hpolled, hiff]
  | poll a =>
      cases hover : u.fut.isOver with
      | true => simp [clientStep, stepWith, hover, hiff]
      | false => simp [clientStep, stepWith, hover, hiff]

/-- A cancel branch taken is preceded by the drop of the sender. -/
theorem cancel_mem_of_signal {tr past rest : List (SendEvent × Option Signal)}
    {l : SendEvent × Option Signal} (h : Run ClientSteps (start .new sc) tr t)
    (htr : tr = past ++ l :: rest) (hl : l.2 = some .cancelled) : .cancel ∈ past.map Prod.fst := by
  subst htr
  obtain ⟨u, hpast, hrest⟩ := h.of_append
  rw [← cancelled_of_run hpast]
  cases hrest with
  | cons hstep _ =>
      have hsignal : (u.clientStep l.1).2 = some .cancelled :=
        (congrArg Prod.snd hstep).trans hl
      have hnotice := (told_cancelled_iff u l.1).mpr hsignal
      cases hev : l.1 with
      | cancel => simp [hev, notices] at hnotice
      | drop => simp [hev, notices] at hnotice
      | poll a =>
          rw [hev] at hnotice
          exact ((cancelled_mem_notices u.cancelled a u.fut).mp hnotice).1

end SendTask

open SendTask

/-- The exact outcome of `send_h3_client_body`, in every state of every run,
from the notices it has been given.  If its polls are answered it is over after
two for each frame and three more. -/
theorem client_body_outcome (sc : BodyScript) {tr : List (SendEvent × Option Signal)}
    {t : SendTask} (h : Run ClientSteps (start .new sc) tr t) :
    (t.written <+: t.fut.source.yielded ∧ t.fut.source.yielded <+: sc.frames ∧
      Carries t.fut.stream t.fut.source t.written) ∧
    ((∃ g bd, t.fut = .running .finishing g bd) ∨ (∃ ok, .finish ok ∈ t.ops) →
      t.written = t.fut.source.yielded ∧ t.fut.source.rest = []) ∧
    t.stops.length ≤ 1 ∧
    (t.fut.isOver = false → t.stops = []) ∧
    (t.fut.isOver = true → (t.stops ≠ [] ↔ .finish true ∉ t.ops)) ∧
    (∀ code ∈ t.stops, (t.Errored → code = .h3InternalError) ∧
      (¬ t.Errored → code = .h3RequestCancelled)) ∧
    t.ops.Pairwise (fun a b ↦ a.failed = true → b.isWrite = false) ∧
    (t.Errored → ∀ tr' t', Run ClientSteps t tr' t' → t'.ops = t.ops) ∧
    (sc.ending ≠ .never ∨ t.cancelled = true → ∀ as : List Answers,
      (∀ a ∈ as, a.isReady = true) → 2 * sc.frames.length + 3 ≤ as.length →
        (exec clientStep t (as.map .poll)).fut.isOver = true) ∧
    (t.fut.result = some (.ok ()) ↔ .finish true ∈ t.ops ∨ ∃ l ∈ tr, l.2 = some .cancelled) ∧
    ((∃ e, t.fut.result = some (.error e)) ↔ t.Errored) ∧
    (∀ past l rest, tr = past ++ l :: rest → l.2 = some .cancelled →
      .cancel ∈ past.map Prod.fst) ∧
    let rs := (start .new sc).heard (tr.map Prod.fst)
    Told rs t ∧
    (t.Errored ↔ ∃ r ∈ rs, r.isError = true) ∧
    (.sourceEnd ∈ rs → t.fut.isClosing = true) ∧
    (t.fut.result = some (.ok ()) ↔ .operation (.finish true) ∈ rs ∨ .cancelled ∈ rs) := by
  have hinv : Inv sc t := h.invariant (fun _ _ _ hI hstep ↦ hI.step hstep) (inv_start sc)
  obtain ⟨fs, tail, hshape⟩ := hinv.shape
  have htold := told_of_run h
  refine ⟨⟨hshape.prefix_yielded, ?_, ?_⟩, ?_, hshape.length_stops, ?_, hshape.stops_iff,
    fun code ↦ hshape.code_eq, hshape.pairwise, ?_, ?_, result_ok_iff h, hshape.error_iff,
    fun past l rest htr ↦ cancel_mem_of_signal h htr, htold, htold.errored_iff,
    isClosing_of_run h, ?_⟩
  · rw [← hinv.1.source_script]
    exact List.prefix_append _ _
  · rw [hshape.written_eq]
    exact hshape.carries
  · rintro (⟨g, bd, hfut⟩ | ⟨ok, hfin⟩)
    · exact hinv.written_of_finishing hfut
    · exact hshape.written_of_finish hfin
  · intro hlive
    rw [hshape.stops_eq, hshape.tail_of_live hlive]
    rfl
  · intro herr tr' t' hrun
    have hfrozen := frozen hrun (hshape.isOver_of_errored herr)
    rw [SendTask.ops, SendTask.ops, hfrozen.1]
  · intro hend as has hlen
    exact hinv.isOver_exec hend has (Nat.le_trans hinv.1.weight_le hlen)
  · rw [result_ok_iff h, htold.finish_iff, cancelled_heard_iff h]

/-- An upload whose second write fails after one byte, while the sender is dropped. -/
theorem client_body_outcome_of_failed_write :
    let es : List SendEvent := [.poll ⟨true, .ok⟩, .poll ⟨true, .ok⟩, .poll ⟨true, .ok⟩,
      .poll ⟨true, .ok⟩, .cancel, .poll ⟨true, .err 1 (.remoteReset "0x10c")⟩]
    let t := exec clientStep (start .new ⟨[.data [1], .data [2, 3]], .done⟩) es
    t.written = [.data [1]] ∧ t.stops = [.h3InternalError] ∧
      t.fut.result = some (.error (.stream (.remoteReset "0x10c"))) ∧
      .cancelled ∉ (start .new ⟨[.data [1], .data [2, 3]], .done⟩).heard es ∧
      (∀ tr' t', Run ClientSteps t tr' t' → t'.ops = t.ops) := by
  intro es t
  obtain ⟨-, -, -, -, -, -, -, hsilent, -, -, -, -, -, -, -, hreturned⟩ :=
    client_body_outcome ⟨[.data [1], .data [2, 3]], .done⟩ (t := t) (run_exec clientStep _ es)
  have hres : t.fut.result = some (.error (.stream (.remoteReset "0x10c"))) := rfl
  refine ⟨rfl, rfl, hres, ?_, hsilent (.inl ⟨.write (.data [2, 3]) false, by decide, rfl⟩)⟩
  intro hcancelled
  have hok := hreturned.mpr (.inr hcancelled)
  rw [hres] at hok
  cases hok

/-! ## The two loops -/

namespace SendTask

def serverStep (t : SendTask) (ev : SendEvent) : SendTask × Option Signal :=
  t.stepWith .borrowed (fun _ ↦ sendH3ServerBody) ev

/-- Equal up to what becomes of a send half that is released: the client
drops it, the server gives it back. -/
def Agree : SendFuture → SendFuture → Prop
  | .returned w bd res, .returned w' bd' res' =>
      w.ops = w'.ops ∧ w.wire = w'.wire ∧ bd = bd' ∧ res = res'
  | .dropped w bd, .dropped w' bd' => w.ops = w'.ops ∧ w.wire = w'.wire ∧ bd = bd'
  | fut, fut' => fut = fut' ∧ fut.isOver = false

theorem agree_returned (w : SendStream) (bd : Body) (res : Except Error Unit) :
    Agree (.returned (Ownership.borrowed.release w) bd res)
      (.returned (Ownership.owned.release w) bd res) := by
  simp [Agree]

/-- One step of the `while let` loop against one step of the `select!` loop. -/
theorem agree_loop (a : Answers) {fut : SendFuture} (hlive : fut.isOver = false) :
    (sendH3ServerBody a fut).2 = (sendH3ClientBody false a fut).2 ∧
      Agree (sendH3ServerBody a fut).1 (sendH3ClientBody false a fut).1 := by
  cases fut with
  | returned w bd res => cases hlive
  | dropped w bd => cases hlive
  | unpolled w bd => exact ⟨rfl, rfl, rfl⟩
  | running pc g bd =>
      cases pc with
      | nextFrame =>
          rcases bd.pollFrame_cases a.body with h | ⟨f, fs, -, h⟩ | ⟨-, -, h⟩ | ⟨e, -, -, h⟩
          · simp only [sendH3ServerBody, sendH3ClientBody, h]
            exact ⟨rfl, rfl, rfl⟩
          · simp only [sendH3ServerBody, sendH3ClientBody, h]
            exact ⟨rfl, rfl, rfl⟩
          · simp only [sendH3ServerBody, sendH3ClientBody, h]
            exact ⟨rfl, rfl, rfl⟩
          · simp only [sendH3ServerBody, sendH3ClientBody, h]
            exact ⟨rfl, agree_returned _ _ _⟩
      | sending f rest =>
          simp only [sendH3ServerBody, sendH3ClientBody]
          cases a.op with
          | pending k => exact ⟨rfl, rfl, rfl⟩
          | ok => exact ⟨rfl, rfl, rfl⟩
          | err k e => exact ⟨rfl, agree_returned _ _ _⟩
      | finishing =>
          simp only [sendH3ServerBody, sendH3ClientBody]
          cases a.op with
          | pending k => exact ⟨rfl, rfl, rfl⟩
          | ok => exact ⟨rfl, agree_returned _ _ _⟩
          | err k e => exact ⟨rfl, agree_returned _ _ _⟩

theorem Agree.isOver {fut fut' : SendFuture} (h : Agree fut fut') : fut.isOver = fut'.isOver := by
  cases fut <;> cases fut' <;> simp_all [Agree, SendFuture.isOver]

theorem Agree.eq_of_live {fut fut' : SendFuture} (h : Agree fut fut')
    (hlive : fut.isOver = false) : fut = fut' := by
  cases fut <;> cases fut' <;> simp_all [Agree, SendFuture.isOver]

theorem Agree.drop {fut fut' : SendFuture} (h : Agree fut fut') :
    Agree (fut.drop .borrowed) (fut'.drop .owned) := by
  cases hover : fut.isOver with
  | false =>
      obtain rfl := h.eq_of_live hover
      cases fut <;> simp_all [Agree, SendFuture.drop, SendFuture.isOver]
  | true =>
      have hover' := h.isOver.symm.trans hover
      cases fut <;> cases fut' <;> simp_all [SendFuture.drop, SendFuture.isOver]

def Together (t t' : SendTask) : Prop := Agree t.fut t'.fut ∧ t'.cancelled = false

theorem Together.step {t t' : SendTask} {ev : SendEvent} (hev : ev ≠ .cancel)
    (h : Together t t') : (t.serverStep ev).2 = (t'.stepWith .owned sendH3ClientBody ev).2 ∧
      Together (t.serverStep ev).1 (t'.stepWith .owned sendH3ClientBody ev).1 := by
  obtain ⟨hagree, hopen⟩ := h
  cases ev with
  | cancel => exact absurd rfl hev
  | drop => exact ⟨rfl, hagree.drop, hopen⟩
  | poll a =>
      cases hover : t.fut.isOver with
      | true =>
          have hover' := hagree.isOver.symm.trans hover
          simp only [serverStep, stepWith, hover, hover']
          exact ⟨rfl, hagree, hopen⟩
      | false =>
          have hloop := agree_loop a hover
          simp only [serverStep, stepWith, hover, hopen, ← hagree.eq_of_live hover]
          exact ⟨congrArg some hloop.1, hloop.2, rfl⟩

theorem Agree.observed {fut fut' : SendFuture} (h : Agree fut fut') :
    fut.stream.ops = fut'.stream.ops ∧ fut.stream.wire = fut'.stream.wire ∧
      fut.source = fut'.source ∧ fut.result = fut'.result := by
  cases hover : fut.isOver with
  | false =>
      obtain rfl := h.eq_of_live hover
      exact ⟨rfl, rfl, rfl, rfl⟩
  | true =>
      have hover' := h.isOver.symm.trans hover
      cases fut <;> cases fut' <;>
        simp_all [Agree, SendFuture.stream, SendFuture.source, SendFuture.result,
          SendFuture.isOver]

end SendTask

/-- The server loop and a client loop that is never cancelled, under the same
polls, answers and drops. -/
theorem server_body_agrees (w₀ : SendStream) (sc : BodyScript) {es : List SendEvent}
    (hcancel : .cancel ∉ es) :
    let server := exec serverStep (start w₀ sc) es
    let client := exec (stepWith .owned sendH3ClientBody) (start w₀ sc) es
    server.ops = client.ops ∧ server.fut.stream.wire = client.fut.stream.wire ∧
    server.fut.source = client.fut.source ∧ server.fut.result = client.fut.result ∧
    server.fut.isOver = client.fut.isOver ∧
    labels serverStep (start w₀ sc) es =
      labels (stepWith .owned sendH3ClientBody) (start w₀ sc) es := by
  intro server client
  have hstart : Together (start w₀ sc) (start w₀ sc) := ⟨⟨rfl, rfl⟩, rfl⟩
  obtain ⟨⟨hagree, -⟩, hlabels⟩ := exec_lockstep (f := serverStep)
    (g := stepWith .owned sendH3ClientBody) (R := Together) (P := (· ≠ .cancel))
    (fun _ _ _ hev h ↦ h.step hev)
    (fun e he ↦ ne_of_mem_of_not_mem he hcancel) hstart
  obtain ⟨hops, hwire, hsource, hresult⟩ := hagree.observed
  exact ⟨hops, hwire, hsource, hresult, hagree.isOver, hlabels⟩

/-- Both loops dropped in the middle of a write. -/
theorem server_body_agrees_when_dropped :
    let es : List SendEvent :=
      [.poll ⟨true, .ok⟩, .poll ⟨true, .ok⟩, .poll ⟨true, .pending 1⟩, .drop]
    let client := exec (stepWith .owned sendH3ClientBody)
      (start .new ⟨[.data [1, 2]], .done⟩) es
    .cancel ∉ es ∧ client.ops = [.stopStream .h3RequestCancelled] ∧
      (exec serverStep (start .new ⟨[.data [1, 2]], .done⟩) es).ops = client.ops := by
  intro es client
  have hcancel : .cancel ∉ es := by decide
  exact ⟨hcancel, rfl, (server_body_agrees .new ⟨[.data [1, 2]], .done⟩ hcancel).1⟩

end TonicH3
