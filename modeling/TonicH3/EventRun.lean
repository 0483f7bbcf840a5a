import Mathlib.Tactic.Common
import Mathlib.Data.List.Basic

/-!
# Runs of labelled transition systems

A run is recorded by the labels of its steps, so a statement about every run
is a statement about every interleaving of the events the labels name.  The
rules below are the ones used for every machine of the development: invariants,
invariants kept by a class of labels, first-in first-out ledgers, and the
transport of runs along an abstraction.
-/

namespace EventRun

variable {σ τ ℓ m α : Type*}

/-- A finite run of a step relation together with the labels of its steps. -/
inductive Run (Step : σ → ℓ → σ → Prop) : σ → List ℓ → σ → Prop
  | nil (s : σ) : Run Step s [] s
  | cons {s t u : σ} {a : ℓ} {tr : List ℓ} :
      Step s a t → Run Step t tr u → Run Step s (a :: tr) u

namespace Run

variable {Step : σ → ℓ → σ → Prop} {s t u : σ} {a : ℓ} {tr tr' : List ℓ}

theorem single (h : Step s a t) : Run Step s [a] t := .cons h (.nil t)

theorem append (h : Run Step s tr t) (h' : Run Step t tr' u) :
    Run Step s (tr ++ tr') u := by
  induction h with
  | nil s => exact h'
  | cons hstep _ ih => exact .cons hstep (ih h')

theorem snoc (h : Run Step s tr t) (hstep : Step t a u) : Run Step s (tr ++ [a]) u :=
  h.append (single hstep)

theorem of_append (h : Run Step s (tr ++ tr') u) : ∃ t, Run Step s tr t ∧ Run Step t tr' u := by
  induction tr generalizing s with
  | nil => exact ⟨s, .nil s, h⟩
  | cons a tr ih =>
      cases h with
      | cons hstep hrest =>
          obtain ⟨t, htr, htr'⟩ := ih hrest
          exact ⟨t, .cons hstep htr, htr'⟩

/-- A property kept by every step whose label satisfies `P` survives a run
all of whose labels satisfy `P`. -/
theorem invariant_of {P : ℓ → Prop} {I : σ → Prop}
    (hkeep : ∀ s a t, P a → I s → Step s a t → I t)
    (h : Run Step s tr t) (hP : ∀ a ∈ tr, P a) (hs : I s) : I t := by
  induction h with
  | nil s => exact hs
  | cons hstep _ ih =>
      have hhead := hkeep _ _ _ (hP _ (by simp)) hs hstep
      exact ih (fun b hb ↦ hP b (List.mem_cons_of_mem _ hb)) hhead

theorem invariant {I : σ → Prop} (hkeep : ∀ s a t, I s → Step s a t → I t)
    (h : Run Step s tr t) (hs : I s) : I t :=
  h.invariant_of (P := fun _ ↦ True) (fun s a t _ ↦ hkeep s a t) (fun _ _ ↦ trivial) hs

/-- A property kept from the states of an invariant `J` survives a run that
starts in one of them. -/
theorem invariant_given {P : ℓ → Prop} {J I : σ → Prop}
    (hJ : ∀ s a t, J s → Step s a t → J t)
    (hkeep : ∀ s a t, P a → J s → I s → Step s a t → I t)
    (h : Run Step s tr t) (hP : ∀ a ∈ tr, P a) (hs : J s) (hi : I s) : J t ∧ I t := by
  refine h.invariant_of (I := fun u ↦ J u ∧ I u) ?_ hP ⟨hs, hi⟩
  rintro u a v ha ⟨hu, hiu⟩ hstep
  exact ⟨hJ u a v hu hstep, hkeep u a v ha hu hiu hstep⟩

/-- A relation between the history of a run and its state holds at its end, if
it holds at the start and every step keeps it. -/
theorem history {I : List ℓ → σ → Prop}
    (hkeep : ∀ tr s a t, I tr s → Step s a t → I (tr ++ [a]) t)
    (h : Run Step s tr t) (hs : I [] s) : I tr t := by
  have hextend : ∀ past, I past s → I (past ++ tr) t := by
    clear hs
    induction h with
    | nil s =>
        intro past hpast
        simpa using hpast
    | @cons s t u a tr hstep _ ih =>
        intro past hpast
        have hnext := ih (past ++ [a]) (hkeep past s a t hpast hstep)
        simpa using hnext
  exact hextend [] hs

/-- First-in first-out ledger.  If each step appends its inputs to a queue and
removes its outputs from the front, the inputs of a whole run are the outputs
followed by what the queue still holds. -/
theorem ledger {q : σ → List α} {i o : ℓ → List α}
    (hstep : ∀ s a t, Step s a t → q s ++ i a = o a ++ q t)
    (h : Run Step s tr t) :
    q s ++ tr.flatMap i = tr.flatMap o ++ q t := by
  induction h with
  | nil s => simp
  | @cons s t u a tr hs _ ih =>
      calc
        q s ++ (a :: tr).flatMap i = (q s ++ i a) ++ tr.flatMap i := by simp
        _ = o a ++ (q t ++ tr.flatMap i) := by rw [hstep _ _ _ hs, List.append_assoc]
        _ = (a :: tr).flatMap o ++ q u := by rw [ih]; simp

/-- If every step of a concrete machine from a state satisfying the invariant
is matched by a run of an abstract machine, so is every concrete run. -/
theorem simulate {Step' : τ → m → τ → Prop} {I : σ → Prop} {g : σ → τ} {f : ℓ → List m}
    (hstep : ∀ s a t, I s → Step s a t → I t ∧ Run Step' (g s) (f a) (g t))
    (h : Run Step s tr t) (hs : I s) :
    I t ∧ Run Step' (g s) (tr.flatMap f) (g t) := by
  induction h with
  | nil s => exact ⟨hs, .nil _⟩
  | @cons s t u a tr hst _ ih =>
      obtain ⟨ht, hhead⟩ := hstep _ _ _ hs hst
      obtain ⟨hu, htail⟩ := ih ht
      exact ⟨hu, by simpa using hhead.append htail⟩

end Run

def Reachable (Step : σ → ℓ → σ → Prop) (s t : σ) : Prop := ∃ tr, Run Step s tr t

namespace Reachable

variable {Step : σ → ℓ → σ → Prop} {s t u : σ}

theorem refl (s : σ) : Reachable Step s s := ⟨[], .nil s⟩

theorem extend {tr : List ℓ} (h : Reachable Step s t) (hrun : Run Step t tr u) :
    Reachable Step s u := by
  obtain ⟨tr', hrun'⟩ := h
  exact ⟨tr' ++ tr, hrun'.append hrun⟩

theorem step {a : ℓ} (h : Reachable Step s t) (hstep : Step t a u) : Reachable Step s u :=
  h.extend (.single hstep)

theorem invariant {I : σ → Prop} (hkeep : ∀ s a t, I s → Step s a t → I t)
    (h : Reachable Step s t) (hs : I s) : I t := by
  obtain ⟨_, hrun⟩ := h
  exact hrun.invariant hkeep hs

end Reachable

/-! ## Machines given by a function

The environment chooses the events, the machine answers each with an output. -/

section Machine

variable {ε ο : Type*}

/-- The labelled steps of a machine: an event with the output it produced. -/
def Fires (f : σ → ε → σ × ο) (s : σ) (l : ε × ο) (t : σ) : Prop := f s l.1 = (t, l.2)

def exec (f : σ → ε → σ × ο) (s : σ) : List ε → σ
  | [] => s
  | e :: es => exec f (f s e).1 es

def labels (f : σ → ε → σ × ο) (s : σ) : List ε → List (ε × ο)
  | [] => []
  | e :: es => (e, (f s e).2) :: labels f (f s e).1 es

theorem run_exec (f : σ → ε → σ × ο) (s : σ) (es : List ε) :
    Run (Fires f) s (labels f s es) (exec f s es) := by
  induction es generalizing s with
  | nil => exact .nil s
  | cons e es ih => exact .cons (by rfl) (ih (f s e).1)

theorem reachable_exec (f : σ → ε → σ × ο) (s : σ) (es : List ε) :
    Reachable (Fires f) s (exec f s es) :=
  ⟨labels f s es, run_exec f s es⟩

/-- Two machines that answer every event alike from related states, and stay
related, answer every sequence of events alike. -/
theorem exec_lockstep {f : σ → ε → σ × ο} {g : τ → ε → τ × ο} {R : σ → τ → Prop} {P : ε → Prop}
    (hstep : ∀ s t e, P e → R s t → (f s e).2 = (g t e).2 ∧ R (f s e).1 (g t e).1)
    {s : σ} {t : τ} {es : List ε} (hP : ∀ e ∈ es, P e) (h : R s t) :
    R (exec f s es) (exec g t es) ∧ labels f s es = labels g t es := by
  induction es generalizing s t with
  | nil => exact ⟨h, rfl⟩
  | cons e es ih =>
      obtain ⟨hout, hnext⟩ := hstep s t e (hP e (by simp)) h
      obtain ⟨hend, hlabels⟩ := ih (fun b hb ↦ hP b (List.mem_cons_of_mem _ hb)) hnext
      refine ⟨hend, ?_⟩
      rw [labels, labels, hout, hlabels]

/-- The events of a run, its outputs left out. -/
theorem Run.events {f : σ → ε → σ × ο} {s t : σ} {tr : List (ε × ο)} (h : Run (Fires f) s tr t) :
    Run (fun s e t ↦ (f s e).1 = t) s (tr.map Prod.fst) t := by
  induction h with
  | nil s => exact .nil s
  | @cons s t u l tr hstep _ ih =>
      have hnext : (f s l.1).1 = t := congrArg Prod.fst hstep
      exact .cons hnext ih

/-- The run of a machine that refuses the events it does not offer. -/
theorem run_foldlM {f : σ → ε → Option σ} {s t : σ} {es : List ε} (h : es.foldlM f s = some t) :
    Run (fun s e t ↦ f s e = some t) s es t := by
  induction es generalizing s with
  | nil =>
      obtain rfl := Option.some.inj h
      exact .nil s
  | cons e es ih =>
      simp only [List.foldlM_cons, Option.bind_eq_bind, Option.bind_eq_some_iff] at h
      obtain ⟨u, hstep, hrest⟩ := h
      exact .cons hstep (ih hrest)

end Machine

/-! ## Observations

What is read off the events of a run depends on the states they come in. -/

section Observed

variable {ε : Type*}

def observed (f : σ → ε → σ) (see : σ → ε → List α) (s : σ) : List ε → List α
  | [] => []
  | e :: es => see s e ++ observed f see (f s e) es

theorem run_foldl (f : σ → ε → σ) (s : σ) (es : List ε) :
    Run (fun s e t ↦ f s e = t) s es (es.foldl f s) := by
  induction es generalizing s with
  | nil => exact .nil s
  | cons e es ih => exact .cons rfl (ih (f s e))

/-- A relation between what has been seen and the state that every event keeps. -/
theorem Run.observe {f : σ → ε → σ} {see : σ → ε → List α} {I : List α → σ → Prop}
    (hkeep : ∀ seen s e, I seen s → I (seen ++ see s e) (f s e)) {s t : σ} {es : List ε}
    (h : Run (fun s e t ↦ f s e = t) s es t) (hs : I [] s) : I (observed f see s es) t := by
  have hextend : ∀ seen, I seen s → I (seen ++ observed f see s es) t := by
    clear hs
    induction h with
    | nil s =>
        intro seen hseen
        simpa [observed] using hseen
    | @cons s t u e es hstep _ ih =>
        intro seen hseen
        subst hstep
        have hnext := ih (seen ++ see s e) (hkeep seen s e hseen)
        simpa [observed] using hnext
  exact hextend [] hs

section Outputs

variable {ο : Type*} {f : σ → ε → σ × ο} {see : σ → ε → List α} {b : α} {P : ε × ο → Prop}
  {s t : σ} {tr : List (ε × ο)}

/-- What is observed only at events answered in a certain way. -/
theorem Run.of_mem_observed (hsee : ∀ s e, b ∈ see s e → P (e, (f s e).2))
    (h : Run (Fires f) s tr t)
    (hb : b ∈ observed (fun s e ↦ (f s e).1) see s (tr.map Prod.fst)) : ∃ l ∈ tr, P l := by
  induction h with
  | nil s => cases hb
  | @cons s t u l tr hstep _ ih =>
      have hnext : (f s l.1).1 = t := congrArg Prod.fst hstep
      have hout : (f s l.1).2 = l.2 := congrArg Prod.snd hstep
      simp only [List.map_cons, observed, hnext, List.mem_append] at hb
      rcases hb with hb | hb
      · have hp := hsee s l.1 hb
        rw [hout] at hp
        exact ⟨l, List.mem_cons_self, hp⟩
      · obtain ⟨l', hl', hp⟩ := ih hb
        exact ⟨l', List.mem_cons_of_mem l hl', hp⟩

/-- What is observed at every event answered in a certain way. -/
theorem Run.mem_observed (hsee : ∀ s e, P (e, (f s e).2) → b ∈ see s e)
    (h : Run (Fires f) s tr t) {l : ε × ο} (hl : l ∈ tr) (hp : P l) :
    b ∈ observed (fun s e ↦ (f s e).1) see s (tr.map Prod.fst) := by
  induction h with
  | nil s => cases hl
  | @cons s t u l' tr hstep _ ih =>
      have hnext : (f s l'.1).1 = t := congrArg Prod.fst hstep
      have hout : (f s l'.1).2 = l'.2 := congrArg Prod.snd hstep
      simp only [List.map_cons, observed, hnext, List.mem_append]
      rcases List.mem_cons.mp hl with rfl | hl
      · refine .inl (hsee s l.1 ?_)
        rw [hout]
        exact hp
      · exact .inr (ih hl)

end Outputs

end Observed

/-! ## Noninterference -/

section Noninterference

variable {ε β : Type*} {f : σ → ε → σ} {v : σ → β} {p : ε → Bool} {P : ε → Prop} {J : σ → Prop}

/-- Unwinding.  If a view of the state is determined by itself under its own
events and is not touched by the others, it is after any sequence of events
what its own events alone make of it. -/
theorem view_foldl_filter_of (hJ : ∀ s e, P e → J s → J (f s e))
    (hown : ∀ s t e, J s → J t → p e = true → v s = v t → v (f s e) = v (f t e))
    (hother : ∀ s e, P e → J s → p e = false → v (f s e) = v s)
    {s t : σ} (hs : J s) (ht : J t) (h : v s = v t) {es : List ε} (hP : ∀ e ∈ es, P e) :
    v (es.foldl f s) = v ((es.filter p).foldl f t) := by
  induction es generalizing s t with
  | nil => exact h
  | cons e es ih =>
      have he := hP e (by simp)
      have hes : ∀ e ∈ es, P e := fun b hb ↦ hP b (List.mem_cons_of_mem _ hb)
      cases hp : p e with
      | true =>
          simp only [List.foldl_cons, List.filter_cons, hp]
          exact ih (hJ s e he hs) (hJ t e he ht) (hown s t e hs ht hp h) hes
      | false =>
          simp only [List.foldl_cons, List.filter_cons, hp]
          exact ih (hJ s e he hs) ht ((hother s e he hs hp).trans h) hes

theorem view_foldl_filter (hJ : ∀ s e, J s → J (f s e))
    (hown : ∀ s t e, J s → J t → p e = true → v s = v t → v (f s e) = v (f t e))
    (hother : ∀ s e, J s → p e = false → v (f s e) = v s) {s : σ} (hs : J s) (es : List ε) :
    v (es.foldl f s) = v ((es.filter p).foldl f s) :=
  view_foldl_filter_of (P := fun _ ↦ True) (fun s e _ ↦ hJ s e) hown (fun s e _ ↦ hother s e)
    hs hs rfl (fun _ _ ↦ trivial)

end Noninterference

end EventRun
