import TonicH3.H3

/-!
# Send halves and the reset-on-drop guard

The send half of a request stream records what has been put on the stream, the
operations that have completed on it, and whether it has been finished or
reset.  Dropping a half that was neither finished nor reset finishes it, which
is what quinn does with an unfinished `SendStream`.  `SendResetGuard` turns
that implicit finish into a reset unless it has been disarmed.
-/

namespace TonicH3

/-- Answer of the transport to one poll of a send operation.  `sent` counts the
items that reached the stream before the operation was suspended or failed. -/
inductive OpAnswer
  | pending (sent : ℕ)
  | ok
  | err (sent : ℕ) (e : StreamError)
  deriving DecidableEq, Repr

inductive SendStatus
  | active
  | finished
  | reset (code : Code)
  deriving DecidableEq, Repr

/-- A completed operation on a send half, with its success. -/
inductive SendOp
  | headers (ok : Bool)
  | write (f : Frame) (ok : Bool)
  | finish (ok : Bool)
  | stopStream (code : Code)
  deriving DecidableEq, Repr

structure SendStream where
  wire : List WireItem
  status : SendStatus
  ops : List SendOp
  deriving DecidableEq, Repr

namespace SendStream

def new : SendStream := ⟨[], .active, []⟩

def put (w : SendStream) (items : List WireItem) : SendStream :=
  { w with wire := w.wire ++ items }

def record (w : SendStream) (op : SendOp) : SendStream := { w with ops := w.ops ++ [op] }

def finish (w : SendStream) : SendStream := { w.record (.finish true) with status := .finished }

/-- `stop_stream`: best effort, without effect on the peer once the stream has
been finished or reset. -/
def stopStream (w : SendStream) (code : Code) : SendStream :=
  { w.record (.stopStream code) with
    status := match w.status with
      | .active => .reset code
      | status => status }

/-- Dropping an unfinished send half finishes it. -/
def drop (w : SendStream) : SendStream :=
  { w with
    status := match w.status with
      | .active => .finished
      | status => status }

def Fresh (w : SendStream) : Prop := w.wire = [] ∧ w.status = .active

theorem new_fresh : new.Fresh := ⟨rfl, rfl⟩

theorem drop_eq_self {w : SendStream} (h : w.status ≠ .active) : w.drop = w := by
  obtain ⟨wire, status, ops⟩ := w
  cases status with
  | active => exact absurd rfl h
  | finished => rfl
  | reset code => rfl

theorem stopStream_status {w : SendStream} (h : w.status = .active) (code : Code) :
    (w.stopStream code).status = .reset code := by
  simp [stopStream, h]

@[simp] theorem drop_wire (w : SendStream) : w.drop.wire = w.wire := rfl

@[simp] theorem drop_ops (w : SendStream) : w.drop.ops = w.ops := rfl

@[simp] theorem stopStream_wire (w : SendStream) (code : Code) :
    (w.stopStream code).wire = w.wire := rfl

@[simp] theorem stopStream_ops (w : SendStream) (code : Code) :
    (w.stopStream code).ops = w.ops ++ [.stopStream code] := rfl

@[simp] theorem put_wire (w : SendStream) (items : List WireItem) :
    (w.put items).wire = w.wire ++ items := rfl

@[simp] theorem put_status (w : SendStream) (items : List WireItem) :
    (w.put items).status = w.status := rfl

@[simp] theorem put_ops (w : SendStream) (items : List WireItem) :
    (w.put items).ops = w.ops := rfl

@[simp] theorem record_wire (w : SendStream) (op : SendOp) : (w.record op).wire = w.wire := rfl

@[simp] theorem record_status (w : SendStream) (op : SendOp) :
    (w.record op).status = w.status := rfl

@[simp] theorem record_ops (w : SendStream) (op : SendOp) :
    (w.record op).ops = w.ops ++ [op] := rfl

@[simp] theorem finish_wire (w : SendStream) : w.finish.wire = w.wire := rfl

@[simp] theorem finish_status (w : SendStream) : w.finish.status = .finished := rfl

@[simp] theorem finish_ops (w : SendStream) : w.finish.ops = w.ops ++ [.finish true] := rfl

end SendStream

/-- RAII guard that resets the wrapped send half on drop unless disarmed. -/
structure SendResetGuard where
  w : SendStream
  armed : Bool
  code : Code
  deriving DecidableEq, Repr

namespace SendResetGuard

def new (w : SendStream) : SendResetGuard := ⟨w, true, .h3RequestCancelled⟩

def disarm (g : SendResetGuard) : SendResetGuard := { g with armed := false }

def setErrorCode (g : SendResetGuard) (code : Code) : SendResetGuard := { g with code := code }

def onStream (g : SendResetGuard) (f : SendStream → SendStream) : SendResetGuard :=
  { g with w := f g.w }

/-- `Drop::drop`; what remains is the half itself, owned or borrowed. -/
def drop (g : SendResetGuard) : SendStream :=
  if g.armed then g.w.stopStream g.code else g.w

@[simp] theorem drop_wire (g : SendResetGuard) : g.drop.wire = g.w.wire := by
  unfold drop
  split <;> rfl

end SendResetGuard

end TonicH3
