import TonicH3.EventRun

/-!
# A slot that acquires a resource

A slot is idle, busy acquiring, holding a resource, or holding the error of a
failed acquisition that nobody has been told about yet.  The ledger theorems
account for every acquisition: what was acquired has been released or is still
held, and every failure has been delivered once, in order, or is still waiting.
-/

namespace Slot

open EventRun

variable {ρ ε : Type*}

/-- The four situations of a slot for a resource `ρ` that may fail with `ε`. -/
inductive State (ρ ε : Type*)
  | idle
  | acquiring
  | held (r : ρ)
  | failed (e : ε)
  deriving DecidableEq, Repr

inductive Action (ρ ε : Type*)
  | start
  | acquire (r : ρ)
  | fail (e : ε)
  | release (r : ρ)
  | deliver (e : ε)
  deriving DecidableEq, Repr

inductive Step : State ρ ε → Action ρ ε → State ρ ε → Prop
  | start : Step .idle .start .acquiring
  | acquire (r : ρ) : Step .acquiring (.acquire r) (.held r)
  | fail (e : ε) : Step .acquiring (.fail e) (.failed e)
  | release (r : ρ) : Step (.held r) (.release r) .idle
  | deliver (e : ε) : Step (.failed e) (.deliver e) .idle

namespace State

def pending : State ρ ε → List Unit
  | .acquiring => [()]
  | _ => []

def resource : State ρ ε → List ρ
  | .held r => [r]
  | _ => []

def error : State ρ ε → List ε
  | .failed e => [e]
  | _ => []

@[simp] theorem pending_idle : (idle : State ρ ε).pending = [] := rfl

@[simp] theorem resource_idle : (idle : State ρ ε).resource = [] := rfl

@[simp] theorem error_idle : (idle : State ρ ε).error = [] := rfl

end State

namespace Action

def started : Action ρ ε → List Unit
  | .start => [()]
  | _ => []

def resolved : Action ρ ε → List Unit
  | .acquire _ | .fail _ => [()]
  | _ => []

def acquired : Action ρ ε → List ρ
  | .acquire r => [r]
  | _ => []

def released : Action ρ ε → List ρ
  | .release r => [r]
  | _ => []

def failed : Action ρ ε → List ε
  | .fail e => [e]
  | _ => []

def delivered : Action ρ ε → List ε
  | .deliver e => [e]
  | _ => []

theorem length_resolved (a : Action ρ ε) :
    a.resolved.length = a.acquired.length + a.failed.length := by
  cases a <;> rfl

end Action

theorem length_flatMap_resolved (acts : List (Action ρ ε)) :
    (acts.flatMap Action.resolved).length =
      (acts.flatMap Action.acquired).length + (acts.flatMap Action.failed).length := by
  induction acts with
  | nil => rfl
  | cons a acts ih =>
      have hhead := a.length_resolved
      simp only [List.flatMap_cons, List.length_append]
      omega

variable {acts : List (Action ρ ε)} {s : State ρ ε}

/-- Attempts started are attempts resolved plus the one in progress. -/
theorem started_eq (h : Run Step .idle acts s) :
    (acts.flatMap Action.started).length =
      (acts.flatMap Action.acquired).length + (acts.flatMap Action.failed).length +
        s.pending.length := by
  have hledger := h.ledger (q := State.pending) (i := Action.started) (o := Action.resolved)
    (fun s a t hst ↦ by cases hst <;> rfl)
  have hlen := congrArg List.length hledger
  simp only [State.pending_idle, List.nil_append, List.length_append] at hlen
  rw [hlen, length_flatMap_resolved]

/-- Resources leave the slot in the order in which they entered it. -/
theorem acquired_eq (h : Run Step .idle acts s) :
    acts.flatMap Action.acquired = acts.flatMap Action.released ++ s.resource := by
  have hledger := h.ledger (q := State.resource) (i := Action.acquired) (o := Action.released)
    (fun s a t hst ↦ by cases hst <;> rfl)
  simpa using hledger

theorem failed_eq (h : Run Step .idle acts s) :
    acts.flatMap Action.failed = acts.flatMap Action.delivered ++ s.error := by
  have hledger := h.ledger (q := State.error) (i := Action.failed) (o := Action.delivered)
    (fun s a t hst ↦ by cases hst <;> rfl)
  simpa using hledger

end Slot
