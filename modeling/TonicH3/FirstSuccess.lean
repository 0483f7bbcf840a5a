import Mathlib.Tactic.Common
import Mathlib.Data.List.Basic

/-!
# First success or last error

A list of alternatives is tried in order until one of them succeeds.  `tryAll`
is the loop with its error accumulator, and also returns the alternatives it
has tried; `Outcome` says what such a loop is for.  The loop is the only one
with that outcome.
-/

namespace FirstSuccess

variable {τ β ε : Type*}

def tryAll (attempt : τ → Except ε β) (err : ε) : List τ → List τ × Except ε β
  | [] => ([], .error err)
  | y :: ys =>
      match attempt y with
      | .ok b => ([y], .ok b)
      | .error e => (y :: (tryAll attempt e ys).1, (tryAll attempt e ys).2)

def Fails (attempt : τ → Except ε β) (ys : List τ) : Prop := ∀ y ∈ ys, ∃ e, attempt y = .error e

/-- The alternatives tried and the result: those up to the first success, or
all of them and the error of the last; `err` if there is none to try. -/
inductive Outcome (attempt : τ → Except ε β) (err : ε) (ys : List τ) :
    List τ → Except ε β → Prop
  | success (pre : List τ) (y : τ) (post : List τ) (b : β) :
      ys = pre ++ y :: post → Fails attempt pre → attempt y = .ok b →
      Outcome attempt err ys (pre ++ [y]) (.ok b)
  | failure (pre : List τ) (y : τ) (e : ε) :
      ys = pre ++ [y] → Fails attempt pre → attempt y = .error e →
      Outcome attempt err ys ys (.error e)
  | nothing : ys = [] → Outcome attempt err ys [] (.error err)

variable {attempt : τ → Except ε β} {err e : ε} {y : τ} {ys tried : List τ} {b : β}
  {res : Except ε β}

theorem Fails.cons (hy : attempt y = .error e) (h : Fails attempt ys) :
    Fails attempt (y :: ys) := by
  intro z hz
  rcases List.mem_cons.mp hz with rfl | hz
  · exact ⟨e, hy⟩
  · exact h z hz

theorem Outcome.cons (hy : attempt y = .error e) (h : Outcome attempt e ys tried res) :
    Outcome attempt err (y :: ys) (y :: tried) res := by
  cases h with
  | success pre z post b hys hpre hz =>
      exact .success (y :: pre) z post b (by rw [hys, List.cons_append]) (hpre.cons hy) hz
  | failure pre z e' hys hpre hz =>
      exact .failure (y :: pre) z e' (by rw [hys, List.cons_append]) (hpre.cons hy) hz
  | nothing hys =>
      subst hys
      exact .failure [] y e rfl (by simp [Fails]) hy

theorem tryAll_outcome (attempt : τ → Except ε β) (err : ε) (ys : List τ) :
    Outcome attempt err ys (tryAll attempt err ys).1 (tryAll attempt err ys).2 := by
  induction ys generalizing err with
  | nil => exact .nothing rfl
  | cons y ys ih =>
      cases hy : attempt y with
      | ok b =>
          simp only [tryAll, hy]
          exact .success [] y ys b rfl (by simp [Fails]) hy
      | error e =>
          simp only [tryAll, hy]
          exact (ih e).cons hy

/-- The alternatives that fail only leave their last error behind. -/
theorem tryAll_append {pre : List τ} (h : Fails attempt pre) (err : ε) :
    ∃ e, ∀ ys, tryAll attempt err (pre ++ ys) =
      (pre ++ (tryAll attempt e ys).1, (tryAll attempt e ys).2) := by
  induction pre generalizing err with
  | nil => exact ⟨err, fun ys ↦ rfl⟩
  | cons y pre ih =>
      obtain ⟨e, hy⟩ := h y List.mem_cons_self
      obtain ⟨e', hrest⟩ := ih (fun z hz ↦ h z (List.mem_cons_of_mem y hz)) e
      refine ⟨e', fun ys ↦ ?_⟩
      simp only [List.cons_append, tryAll, hy, hrest ys]

/-- The outcome is determined. -/
theorem Outcome.eq_tryAll (h : Outcome attempt err ys tried res) :
    (tried, res) = tryAll attempt err ys := by
  cases h with
  | success pre y post b hys hpre hy =>
      obtain ⟨e, hrun⟩ := tryAll_append hpre err
      rw [hys, hrun (y :: post)]
      simp only [tryAll, hy]
  | failure pre y e hys hpre hy =>
      obtain ⟨e', hrun⟩ := tryAll_append hpre err
      rw [hys, hrun [y]]
      simp only [tryAll, hy]
  | nothing hys =>
      rw [hys]
      rfl

/-- An error is only returned after everything has been tried. -/
theorem Outcome.tried_of_error (h : Outcome attempt err ys tried (.error e)) : tried = ys := by
  cases h with
  | failure pre y e hys hpre hy => rfl
  | nothing hys => exact hys.symm

end FirstSuccess
