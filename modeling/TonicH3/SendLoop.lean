import TonicH3.SendGuard

/-!
# Body-send futures

The client and the server each have their own loop that moves the frames of a
body to a send half under a `SendResetGuard`.  Both suspend at the same three
places, so they share the type of their suspended states; the loops themselves
are in `ClientBody` and `ServerBody`.

`SendMove` lists once everything a step of either loop can do.  The invariant
of a body send is proved over it: while the future is suspended the guard is
armed with `H3_REQUEST_CANCELLED` and the stream carries exactly the frames
taken so far, and a stream that ends finished carries the whole body.
-/

namespace TonicH3

/-- The answers of the environment to one step: whether the body source is
ready, and what the send operation in progress returns. -/
structure Answers where
  body : Bool
  op : OpAnswer
  deriving DecidableEq, Repr

/-- How one step of a body send leaves its poll: it runs on to the next await,
it suspends, or the future completes. -/
inductive Signal
  | again
  | pending
  | cancelled
  | finished
  | failed (e : Error)
  deriving DecidableEq, Repr

inductive SendPc
  | nextFrame
  | sending (f : Frame) (rest : List WireItem)
  | finishing
  deriving DecidableEq, Repr

/-- A body-send future.  An `async fn` that has not been polled yet has not
built its guard, so it still holds the bare send half. -/
inductive SendFuture
  | unpolled (w : SendStream) (bd : Body)
  | running (pc : SendPc) (w : SendResetGuard) (bd : Body)
  | returned (w : SendStream) (bd : Body) (res : Except Error Unit)
  | dropped (w : SendStream) (bd : Body)
  deriving DecidableEq, Repr

/-- The client future owns its send half, the server future borrows it. -/
inductive Ownership
  | owned
  | borrowed
  deriving DecidableEq, Repr

def Ownership.release : Ownership → SendStream → SendStream
  | .owned, w => w.drop
  | .borrowed, w => w

@[simp] theorem Ownership.release_wire (o : Ownership) (w : SendStream) :
    (o.release w).wire = w.wire := by
  cases o <;> rfl

namespace SendFuture

def stream : SendFuture → SendStream
  | .unpolled w _ => w
  | .running _ g _ => g.w
  | .returned w _ _ => w
  | .dropped w _ => w

def source : SendFuture → Body
  | .unpolled _ bd => bd
  | .running _ _ bd => bd
  | .returned _ bd _ => bd
  | .dropped _ bd => bd

def isOver : SendFuture → Bool
  | .returned _ _ _ | .dropped _ _ => true
  | _ => false

def drop (o : Ownership) : SendFuture → SendFuture
  | .unpolled w bd => .dropped (o.release w) bd
  | .running _ g bd => .dropped (o.release g.drop) bd
  | fut => fut

end SendFuture

def writeOf : Frame → List WireItem
  | .data d => (copyToBytes d (remaining d)).map .byte
  | .trailers t => [.trailers t]

@[simp] theorem writeOf_eq (f : Frame) : writeOf f = f.items := by
  cases f <;> simp [writeOf, Frame.items]

section Moves

variable (o : Ownership)

inductive SendMove : SendFuture → SendFuture → Signal → Prop
  | start (w : SendStream) (bd : Body) :
      SendMove (.unpolled w bd) (.running .nextFrame (.new w) bd) .again
  | cancel (g : SendResetGuard) (bd : Body) :
      SendMove (.running .nextFrame g bd) (.returned (o.release g.drop) bd (.ok ())) .cancelled
  | wait (g : SendResetGuard) (bd : Body) :
      SendMove (.running .nextFrame g bd) (.running .nextFrame g bd) .pending
  | take (g : SendResetGuard) (bd : Body) (f : Frame) (fs : List Frame) :
      bd.rest = f :: fs →
      SendMove (.running .nextFrame g bd)
        (.running (.sending f f.items) g { bd with yielded := bd.yielded ++ [f], rest := fs })
        .again
  | sourceEnd (g : SendResetGuard) (bd : Body) :
      bd.rest = [] → bd.ending = .done →
      SendMove (.running .nextFrame g bd)
        (.running .finishing g { bd with ended := true }) .again
  | sourceError (g : SendResetGuard) (bd : Body) (e : Error) :
      bd.rest = [] → bd.ending = .error e →
      SendMove (.running .nextFrame g bd)
        (.returned (o.release (g.setErrorCode .h3InternalError).drop)
          { bd with ended := true } (.error e)) (.failed e)
  | writePending (f : Frame) (rest : List WireItem) (g : SendResetGuard) (bd : Body) (k : ℕ) :
      SendMove (.running (.sending f rest) g bd)
        (.running (.sending f (rest.drop k)) (g.onStream (·.put (rest.take k))) bd) .pending
  | writeOk (f : Frame) (rest : List WireItem) (g : SendResetGuard) (bd : Body) :
      SendMove (.running (.sending f rest) g bd)
        (.running .nextFrame (g.onStream fun w ↦ (w.put rest).record (.write f true)) bd) .again
  | writeErr (f : Frame) (rest : List WireItem) (g : SendResetGuard) (bd : Body) (k : ℕ)
      (e : StreamError) :
      SendMove (.running (.sending f rest) g bd)
        (.returned (o.release (((g.onStream fun w ↦ (w.put (rest.take k)).record
          (.write f false)).setErrorCode .h3InternalError).drop)) bd (.error (.stream e)))
        (.failed (.stream e))
  | finishPending (g : SendResetGuard) (bd : Body) :
      SendMove (.running .finishing g bd) (.running .finishing g bd) .pending
  | finishOk (g : SendResetGuard) (bd : Body) :
      SendMove (.running .finishing g bd)
        (.returned (o.release (g.onStream SendStream.finish).disarm.drop) bd (.ok ())) .finished
  | finishErr (g : SendResetGuard) (bd : Body) (e : StreamError) :
      SendMove (.running .finishing g bd)
        (.returned (o.release (((g.onStream (·.record (.finish false))).setErrorCode
          .h3InternalError).drop)) bd (.error (.stream e))) (.failed (.stream e))

end Moves

def SendFuture.isPolled : SendFuture → Bool
  | .unpolled _ _ => false
  | _ => true

theorem SendMove.isPolled {o : Ownership} {fut fut' : SendFuture} {signal : Signal}
    (h : SendMove o fut fut' signal) : fut'.isPolled = true := by
  cases h <;> rfl

theorem SendFuture.ne_unpolled {fut : SendFuture} (h : fut.isPolled = true) (w : SendStream)
    (bd : Body) : fut ≠ .unpolled w bd := by
  rintro rfl
  cases h

/-- The source and the transport answer, whatever they answer. -/
def Answers.isReady (a : Answers) : Bool :=
  match a.op with
  | .pending _ => false
  | _ => a.body

/-- The steps a body send has left if its operations are answered at once. -/
def SendFuture.weight : SendFuture → ℕ
  | .unpolled _ bd => 2 * bd.rest.length + 3
  | .running .nextFrame _ bd => 2 * bd.rest.length + 2
  | .running (.sending _ _) _ bd => 2 * bd.rest.length + 3
  | .running .finishing _ _ => 1
  | .returned _ _ _ | .dropped _ _ => 0

theorem SendMove.weight_lt {o : Ownership} {fut fut' : SendFuture} {signal : Signal}
    (h : SendMove o fut fut' signal) (hsignal : signal ≠ .pending) : fut'.weight < fut.weight := by
  cases h with
  | wait g bd => exact absurd rfl hsignal
  | writePending f rest g bd k => exact absurd rfl hsignal
  | finishPending g bd => exact absurd rfl hsignal
  | take g bd f fs hrest =>
      simp only [SendFuture.weight, hrest, List.length_cons]
      omega
  | start w bd => simp [SendFuture.weight]
  | cancel g bd => simp [SendFuture.weight]
  | sourceEnd g bd hrest hend => simp [SendFuture.weight]
  | sourceError g bd e hrest hend => simp [SendFuture.weight]
  | writeOk f rest g bd => simp [SendFuture.weight]
  | writeErr f rest g bd k e => simp [SendFuture.weight]
  | finishOk g bd => simp [SendFuture.weight]
  | finishErr g bd e => simp [SendFuture.weight]

theorem SendFuture.isOver_of_weight {fut : SendFuture} (h : fut.weight = 0) :
    fut.isOver = true := by
  cases fut with
  | unpolled w bd => cases h
  | running pc g bd => cases pc <;> cases h
  | returned w bd res => rfl
  | dropped w bd => rfl

theorem SendFuture.weight_of_isOver {fut : SendFuture} (h : fut.isOver = true) :
    fut.weight = 0 := by
  cases fut with
  | unpolled w bd => cases h
  | running pc g bd => cases h
  | returned w bd res => rfl
  | dropped w bd => rfl

/-! ## The invariant of a body send -/

/-- Every frame taken so far is on the stream, each write recorded once. -/
def Written (w₀ w : SendStream) (fs : List Frame) : Prop :=
  w.wire = Frame.flatten fs ∧ w.ops = w₀.ops ++ fs.map (SendOp.write · true)

def PcInv (w₀ : SendStream) : SendPc → SendStream → Body → Prop
  | .nextFrame, w, bd => Written w₀ w bd.yielded ∧ bd.ended = false
  | .sending f rest, w, bd => bd.ended = false ∧
      ∃ fs, bd.yielded = fs ++ [f] ∧ w.wire ++ rest = Frame.flatten bd.yielded ∧
        w.ops = w₀.ops ++ fs.map (SendOp.write · true)
  | .finishing, w, bd =>
      Written w₀ w bd.yielded ∧ bd.ended = true ∧ bd.rest = [] ∧ bd.ending = .done

/-- The whole body has been written and the stream finished. -/
def Complete (w₀ w : SendStream) (bd : Body) : Prop :=
  bd.ended = true ∧ bd.rest = [] ∧ bd.ending = .done ∧
    w.wire = Frame.flatten bd.script.frames ∧
    w.ops = w₀.ops ++ bd.script.frames.map (SendOp.write · true) ++ [.finish true]

def ReturnedInv (w₀ w : SendStream) (bd : Body) : Except Error Unit → Prop
  | .ok _ => (w.status = .finished ∧ Complete w₀ w bd) ∨ w.status = .reset .h3RequestCancelled
  | .error _ => w.status = .reset .h3InternalError

def SendInv (w₀ : SendStream) (sc : BodyScript) : SendFuture → Prop
  | .unpolled w bd => w = w₀ ∧ bd = .new sc
  | .running pc g bd => g.armed = true ∧ g.code = .h3RequestCancelled ∧ g.w.status = .active ∧
      bd.script = sc ∧ PcInv w₀ pc g.w bd
  | .returned w bd res => bd.script = sc ∧ ReturnedInv w₀ w bd res
  | .dropped w bd => bd.script = sc ∧ w.status = .reset .h3RequestCancelled

theorem Ownership.release_eq_self (o : Ownership) {w : SendStream} (h : w.status ≠ .active) :
    o.release w = w := by
  cases o with
  | owned => exact w.drop_eq_self h
  | borrowed => rfl

theorem release_drop_status (o : Ownership) {g : SendResetGuard} (harmed : g.armed = true)
    (hactive : g.w.status = .active) : (o.release g.drop).status = .reset g.code := by
  have hdrop : g.drop = g.w.stopStream g.code := by simp [SendResetGuard.drop, harmed]
  have hstatus : g.drop.status = .reset g.code := by
    rw [hdrop]
    exact SendStream.stopStream_status hactive g.code
  rw [o.release_eq_self (by rw [hstatus]; nofun)]
  exact hstatus

theorem release_finish (o : Ownership) (g : SendResetGuard) :
    o.release (g.onStream SendStream.finish).disarm.drop = g.w.finish := by
  have hdrop : (g.onStream SendStream.finish).disarm.drop = g.w.finish := rfl
  rw [hdrop, o.release_eq_self (by simp)]

section Invariant

variable {o : Ownership} {w₀ : SendStream} {sc : BodyScript} {fut fut' : SendFuture}
  {sig : Signal}

theorem Body.script_take {bd : Body} {f : Frame} {fs : List Frame} (hrest : bd.rest = f :: fs) :
    ({ bd with yielded := bd.yielded ++ [f], rest := fs } : Body).script = bd.script := by
  simp [Body.script, hrest]

theorem SendInv.source_script (hinv : SendInv w₀ sc fut) : fut.source.script = sc := by
  cases fut with
  | unpolled w bd =>
      obtain ⟨-, rfl⟩ := hinv
      rfl
  | running pc g bd => exact hinv.2.2.2.1
  | returned w bd res => exact hinv.1
  | dropped w bd => exact hinv.1

theorem SendInv.weight_le (hinv : SendInv w₀ sc fut) : fut.weight ≤ 2 * sc.frames.length + 3 := by
  have hrest : fut.source.rest.length ≤ sc.frames.length := by
    rw [← hinv.source_script]
    simp [Body.script]
  cases fut with
  | unpolled w bd => exact Nat.add_le_add_right (Nat.mul_le_mul_left 2 hrest) 3
  | returned w bd res => exact Nat.zero_le _
  | dropped w bd => exact Nat.zero_le _
  | running pc g bd =>
      have hbound : bd.rest.length ≤ sc.frames.length := hrest
      cases pc <;> simp only [SendFuture.weight] <;> omega

/-- Dropped at an await, the guard resets the stream with its default code. -/
theorem SendInv.reset_of_drop {pc : SendPc} {g : SendResetGuard} {bd : Body}
    (hinv : SendInv w₀ sc (.running pc g bd)) :
    (o.release g.drop).status = .reset .h3RequestCancelled := by
  obtain ⟨harmed, hcode, hactive, -, -⟩ := hinv
  rw [release_drop_status o harmed hactive, hcode]

/-- A failed operation sets the error code first. -/
theorem SendInv.reset_of_error {pc : SendPc} {g : SendResetGuard} {bd : Body}
    (hinv : SendInv w₀ sc (.running pc g bd)) {f : SendStream → SendStream}
    (hf : (f g.w).status = g.w.status) :
    (o.release ((g.onStream f).setErrorCode .h3InternalError).drop).status =
      .reset .h3InternalError := by
  obtain ⟨harmed, -, hactive, -, -⟩ := hinv
  apply release_drop_status o
  · exact harmed
  · exact hf.trans hactive

theorem SendMove.inv (h : SendMove o fut fut' sig) (hw₀ : w₀.Fresh)
    (hinv : SendInv w₀ sc fut) : SendInv w₀ sc fut' := by
  cases h with
  | start w bd =>
      obtain ⟨rfl, rfl⟩ := hinv
      refine ⟨rfl, rfl, hw₀.2, rfl, ?_⟩
      simp [PcInv, Written, SendResetGuard.new, Body.new, hw₀.1]
  | cancel g bd => exact ⟨hinv.source_script, Or.inr hinv.reset_of_drop⟩
  | wait g bd => exact hinv
  | take g bd f fs hrest =>
      obtain ⟨harmed, hcode, hactive, hscript, ⟨hwire, hops⟩, hover⟩ := hinv
      have hscript' := (Body.script_take hrest).trans hscript
      refine ⟨harmed, hcode, hactive, hscript', hover, bd.yielded, rfl, ?_, hops⟩
      simp [hwire]
  | sourceEnd g bd hrest hend =>
      obtain ⟨harmed, hcode, hactive, hscript, hwritten, -⟩ := hinv
      exact ⟨harmed, hcode, hactive, hscript, hwritten, rfl, hrest, hend⟩
  | sourceError g bd e hrest hend =>
      exact ⟨hinv.source_script, hinv.reset_of_error (f := id) rfl⟩
  | writePending f rest g bd k =>
      obtain ⟨harmed, hcode, hactive, hscript, hover, fs, hyielded, hwire, hops⟩ := hinv
      refine ⟨harmed, hcode, hactive, hscript, hover, fs, hyielded, ?_, hops⟩
      simpa [SendResetGuard.onStream] using hwire
  | writeOk f rest g bd =>
      obtain ⟨harmed, hcode, hactive, hscript, hover, fs, hyielded, hwire, hops⟩ := hinv
      refine ⟨harmed, hcode, hactive, hscript, ⟨hwire, ?_⟩, hover⟩
      simp [SendResetGuard.onStream, hops, hyielded]
  | writeErr f rest g bd k e => exact ⟨hinv.source_script, hinv.reset_of_error rfl⟩
  | finishPending g bd => exact hinv
  | finishOk g bd =>
      obtain ⟨-, -, -, hscript, ⟨hwire, hops⟩, hover, hrest, hend⟩ := hinv
      have hframes : bd.script.frames = bd.yielded := by simp [Body.script, hrest]
      refine ⟨hscript, Or.inl ?_⟩
      rw [release_finish]
      refine ⟨rfl, hover, hrest, hend, ?_, ?_⟩
      · rw [hframes]
        exact hwire
      · rw [hframes, SendStream.finish_ops, hops]
  | finishErr g bd e => exact ⟨hinv.source_script, hinv.reset_of_error rfl⟩

/-- Dropping a future that has been polled keeps the invariant: the guard
resets the stream with `H3_REQUEST_CANCELLED`. -/
theorem SendInv.drop (hinv : SendInv w₀ sc fut) (hpolled : ∀ w bd, fut ≠ .unpolled w bd) :
    SendInv w₀ sc (fut.drop o) := by
  cases fut with
  | unpolled w bd => exact absurd rfl (hpolled w bd)
  | running pc g bd => exact ⟨hinv.source_script, hinv.reset_of_drop⟩
  | returned w bd res => exact hinv
  | dropped w bd => exact hinv

theorem SendInv.complete_of_finished (hinv : SendInv w₀ sc fut) (hw₀ : w₀.status = .active)
    (hfin : fut.stream.status = .finished) :
    ∃ w bd, fut = .returned w bd (.ok ()) ∧ bd.script = sc ∧ Complete w₀ w bd := by
  cases fut with
  | unpolled w bd =>
      obtain ⟨rfl, -⟩ := hinv
      simp [SendFuture.stream, hw₀] at hfin
  | running pc g bd =>
      have hactive : g.w.status = .active := hinv.2.2.1
      simp [SendFuture.stream, hactive] at hfin
  | returned w bd res =>
      obtain ⟨hscript, hret⟩ := hinv
      simp only [SendFuture.stream] at hfin
      cases res with
      | error e =>
          simp only [ReturnedInv, hfin] at hret
          cases hret
      | ok u =>
          rcases hret with ⟨-, hcomplete⟩ | hreset
          · exact ⟨w, bd, rfl, hscript, hcomplete⟩
          · rw [hfin] at hreset
            cases hreset
  | dropped w bd =>
      have hreset : w.status = .reset .h3RequestCancelled := hinv.2
      simp [SendFuture.stream, hreset] at hfin

end Invariant

end TonicH3
