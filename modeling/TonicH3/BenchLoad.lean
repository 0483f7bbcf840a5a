import Mathlib.Algebra.Order.BigOperators.Group.List
import Mathlib.Algebra.Order.Ring.Nat
import Mathlib.Data.List.Count
import TonicH3.EventRun

/-!
# The load generator of the benchmark client

`run_count` spawns workers that draw tickets from a shared counter and issue
one request for each ticket below `total`; then it joins the workers in the
order of their handles and merges their recorders.  The workers take their
steps in any order, a request may panic its worker, and a handle can be joined
as soon as its worker is done.

The counter is an `AtomicU64`, so it wraps at `2 ^ 64`.
-/

namespace TonicH3

open EventRun

/-- `metrics::Recorder`, with the samples handed to its histogram. -/
structure Recorder where
  hist : List ℕ
  success : ℕ
  failure : ℕ
  deriving DecidableEq, Repr

namespace Recorder

def new : Recorder := ⟨[], 0, 0⟩

/-- `latency` is in microseconds. -/
def recordSuccess (r : Recorder) (latency : ℕ) : Recorder :=
  { r with
    success := r.success + 1
    hist := r.hist ++ [max (min latency (2 ^ 64 - 1)) 1] }

def recordFailure (r : Recorder) : Recorder := { r with failure := r.failure + 1 }

def merge (r other : Recorder) : Recorder :=
  ⟨r.hist ++ other.hist, r.success + other.success, r.failure + other.failure⟩

end Recorder

/-- How a request ends: with a reply of some length after some time, with an
error of the call, or at its timeout. -/
inductive Reply
  | answered (length latency : ℕ)
  | failed
  | timedOut
  deriving DecidableEq, Repr

def Reply.isSuccess (payload : ℕ) : Reply → Bool
  | .answered length _ => length = payload
  | _ => false

def oneRequest (payload : ℕ) (reply : Reply) (r : Recorder) : Recorder :=
  match reply with
  | .answered length latency =>
      if length = payload then r.recordSuccess latency else r.recordFailure
  | _ => r.recordFailure

inductive WorkerPc
  | idle
  | requesting (n : ℕ)
  | finished
  | panicked
  deriving DecidableEq, Repr

structure Worker where
  pc : WorkerPc
  recorder : Recorder
  deriving DecidableEq, Repr

/-- The workers of a load and the handles on them, of which `joined` have been
awaited. -/
structure Pool where
  workers : List Worker
  joined : ℕ
  merged : Recorder
  deriving DecidableEq, Repr

structure RunCount extends Pool where
  counter : ℕ
  deriving DecidableEq, Repr

inductive LoadEvent
  | fetchAdd (i : ℕ)
  | reply (i : ℕ) (reply : Reply)
  | panic (i : ℕ)
  | join
  deriving DecidableEq, Repr

/-- What becomes of a ticket below `total`: the worker that drew it, the result
it led to, or the panic it was lost in. -/
inductive LoadOut
  | claimed (i n : ℕ)
  | recorded (i n : ℕ) (success : Bool)
  | lost (i n : ℕ)
  | quiet
  deriving DecidableEq, Repr

/-! ## The workers of a load

`run_count` and `run_duration` differ in what a worker does between two
requests.  The end of a request and the joins are the same in both. -/

namespace Pool

def new (concurrency : ℕ) : Pool :=
  ⟨List.replicate (max concurrency 1) ⟨.idle, .new⟩, 0, .new⟩

def setWorker (s : Pool) (i : ℕ) (pc : WorkerPc) (r : Recorder) : Pool :=
  { s with workers := s.workers.set i ⟨pc, r⟩ }

def onReply (payload : ℕ) (s : Pool) (i : ℕ) (reply : Reply) : Pool × LoadOut :=
  match s.workers[i]? with
  | some ⟨.requesting n, r⟩ =>
      (s.setWorker i .idle (oneRequest payload reply r), .recorded i n (reply.isSuccess payload))
  | _ => (s, .quiet)

def onPanic (s : Pool) (i : ℕ) : Pool × LoadOut :=
  match s.workers[i]? with
  | some ⟨.requesting n, r⟩ => (s.setWorker i .panicked r, .lost i n)
  | _ => (s, .quiet)

def onJoin (s : Pool) : Pool × LoadOut :=
  match s.workers[s.joined]? with
  | some ⟨.finished, r⟩ => ({ s with joined := s.joined + 1, merged := s.merged.merge r }, .quiet)
  | some ⟨.panicked, _⟩ =>
      ({ s with joined := s.joined + 1, merged := s.merged.recordFailure }, .quiet)
  | _ => (s, .quiet)

/-- Every handle has been joined. -/
def Returned (s : Pool) : Prop := s.joined = s.workers.length

instance (s : Pool) : Decidable s.Returned :=
  inferInstanceAs (Decidable (s.joined = s.workers.length))

/-- What the end of a request and a join can do. -/
inductive Serves (payload : ℕ) (s : Pool) : Pool → LoadOut → Prop
  | stutter : Serves payload s s .quiet
  | reply (i n : ℕ) (r : Recorder) (reply : Reply) :
      s.workers[i]? = some ⟨.requesting n, r⟩ →
      Serves payload s (s.setWorker i .idle (oneRequest payload reply r))
        (.recorded i n (reply.isSuccess payload))
  | panic (i n : ℕ) (r : Recorder) : s.workers[i]? = some ⟨.requesting n, r⟩ →
      Serves payload s (s.setWorker i .panicked r) (.lost i n)
  | joinFinished (r : Recorder) : s.workers[s.joined]? = some ⟨.finished, r⟩ →
      Serves payload s { s with joined := s.joined + 1, merged := s.merged.merge r } .quiet
  | joinPanicked (r : Recorder) : s.workers[s.joined]? = some ⟨.panicked, r⟩ →
      Serves payload s { s with joined := s.joined + 1, merged := s.merged.recordFailure } .quiet

variable (payload : ℕ) (s : Pool)

theorem serves_onReply (i : ℕ) (reply : Reply) :
    s.Serves payload (s.onReply payload i reply).1 (s.onReply payload i reply).2 := by
  unfold onReply
  split
  · next n r hw => exact .reply i n r reply hw
  · exact .stutter

theorem serves_onPanic (i : ℕ) : s.Serves payload (s.onPanic i).1 (s.onPanic i).2 := by
  unfold onPanic
  split
  · next n r hw => exact .panic i n r hw
  · exact .stutter

theorem serves_onJoin : s.Serves payload s.onJoin.1 s.onJoin.2 := by
  unfold onJoin
  split
  · next r hw => exact .joinFinished r hw
  · next r hw => exact .joinPanicked r hw
  · exact .stutter

end Pool

namespace RunCount

def new (concurrency : ℕ) : RunCount := ⟨.new concurrency, 0⟩

variable (total payload : ℕ)

def onFetchAdd (s : RunCount) (i : ℕ) (r : Recorder) : RunCount × LoadOut :=
  let n := s.counter
  let counter := (n + 1) % 2 ^ 64
  if n ≥ total then (⟨s.setWorker i .finished r, counter⟩, .quiet)
  else (⟨s.setWorker i (.requesting n) r, counter⟩, .claimed i n)

def withPool (s : RunCount) (p : Pool × LoadOut) : RunCount × LoadOut := (⟨p.1, s.counter⟩, p.2)

/-- One event; an event that its worker or handle is not ready for changes
nothing. -/
def step (s : RunCount) : LoadEvent → RunCount × LoadOut
  | .fetchAdd i =>
      match s.workers[i]? with
      | some ⟨.idle, r⟩ => s.onFetchAdd total i r
      | _ => (s, .quiet)
  | .reply i reply => s.withPool (s.onReply payload i reply)
  | .panic i => s.withPool (s.onPanic i)
  | .join => s.withPool s.onJoin

abbrev Steps : RunCount → LoadEvent × LoadOut → RunCount → Prop := Fires (step total payload)

end RunCount

/-! ## What a run did with the tickets -/

namespace LoadOut

def claim : LoadOut → Option (ℕ × ℕ)
  | .claimed i n => some (i, n)
  | _ => none

def outcome : LoadOut → Option ((ℕ × ℕ) × Bool)
  | .recorded i n success => some ((i, n), success)
  | _ => none

def loss : LoadOut → Option (ℕ × ℕ)
  | .lost i n => some (i, n)
  | _ => none

end LoadOut

/-- The worker and the ticket of every draw below `total`, in order. -/
def claims (tr : List (LoadEvent × LoadOut)) : List (ℕ × ℕ) := tr.filterMap fun l ↦ l.2.claim

def tickets (tr : List (LoadEvent × LoadOut)) : List ℕ := (claims tr).map Prod.snd

def outcomes (tr : List (LoadEvent × LoadOut)) : List ((ℕ × ℕ) × Bool) :=
  tr.filterMap fun l ↦ l.2.outcome

def losses (tr : List (LoadEvent × LoadOut)) : List (ℕ × ℕ) := tr.filterMap fun l ↦ l.2.loss

/-! ## What one event can do -/

namespace RunCount

variable (total payload : ℕ)

inductive Move (s : RunCount) : RunCount → LoadOut → Prop
  | claim (i : ℕ) (r : Recorder) : s.workers[i]? = some ⟨.idle, r⟩ → s.counter < total →
      Move s ⟨s.setWorker i (.requesting s.counter) r, (s.counter + 1) % 2 ^ 64⟩
        (.claimed i s.counter)
  | exhaust (i : ℕ) (r : Recorder) : s.workers[i]? = some ⟨.idle, r⟩ → total ≤ s.counter →
      Move s ⟨s.setWorker i .finished r, (s.counter + 1) % 2 ^ 64⟩ .quiet
  | serve (p : Pool) (o : LoadOut) : s.Serves payload p o → Move s ⟨p, s.counter⟩ o

variable {total payload} {s s' : RunCount}

theorem move_of_steps {l : LoadEvent × LoadOut} (h : Steps total payload s l s') :
    Move total payload s s' l.2 := by
  obtain ⟨ev, o⟩ := l
  simp only [Steps, Fires] at h
  cases ev with
  | fetchAdd i =>
      simp only [step] at h
      split at h
      · next r hw =>
          simp only [onFetchAdd] at h
          split at h
          · next hge =>
              obtain ⟨rfl, rfl⟩ := Prod.mk.inj h
              exact .exhaust i r hw hge
          · next hlt =>
              obtain ⟨rfl, rfl⟩ := Prod.mk.inj h
              exact .claim i r hw (by omega)
      · obtain ⟨rfl, rfl⟩ := Prod.mk.inj h
        exact .serve _ _ .stutter
  | reply i reply =>
      obtain ⟨rfl, rfl⟩ := Prod.mk.inj h
      exact .serve _ _ (s.serves_onReply payload i reply)
  | panic i =>
      obtain ⟨rfl, rfl⟩ := Prod.mk.inj h
      exact .serve _ _ (s.serves_onPanic payload i)
  | join =>
      obtain ⟨rfl, rfl⟩ := Prod.mk.inj h
      exact .serve _ _ (s.serves_onJoin payload)

end RunCount

/-! ## Sums over the workers -/

/-- A sum over a list, after one of its elements has been replaced. -/
theorem sum_map_set {α : Type*} (f : α → ℕ) {l : List α} {i : ℕ} {a : α} (h : l[i]? = some a)
    (b : α) : ((l.set i b).map f).sum + f a = (l.map f).sum + f b := by
  induction l generalizing i with
  | nil => cases h
  | cons x l ih =>
      cases i with
      | zero =>
          obtain rfl : x = a := by simpa using h
          simp only [List.set_cons_zero, List.map_cons, List.sum_cons]
          omega
      | succ i =>
          have hrest := ih (i := i) (by simpa using h)
          simp only [List.set_cons_succ, List.map_cons, List.sum_cons]
          omega

namespace Worker

def isFinished (w : Worker) : ℕ := if w.pc = .finished then 1 else 0

def isPanicked (w : Worker) : ℕ := if w.pc = .panicked then 1 else 0

def settled (w : Worker) : Bool := w.pc = .finished ∨ w.pc = .panicked

/-- What the join of the worker adds to the merged recorder. -/
def mergedSuccess (w : Worker) : ℕ := if w.pc = .finished then w.recorder.success else 0

def mergedFailure (w : Worker) : ℕ :=
  if w.pc = .finished then w.recorder.failure else w.isPanicked

end Worker

namespace Pool

def sum (s : Pool) (f : Worker → ℕ) : ℕ := (s.workers.map f).sum

/-- Worker `i` is in the request of ticket `n`. -/
def inFlight (s : Pool) (i n : ℕ) : ℕ :=
  if s.workers[i]?.map Worker.pc = some (.requesting n) then 1 else 0

/-- The merged recorder is that of the workers joined so far. -/
structure Joins (s : Pool) : Prop where
  joined_le : s.joined ≤ s.workers.length
  settled : ∀ w ∈ s.workers.take s.joined, w.settled = true
  success : s.merged.success = ((s.workers.take s.joined).map Worker.mergedSuccess).sum
  failure : s.merged.failure = ((s.workers.take s.joined).map Worker.mergedFailure).sum

theorem joins_new (concurrency : ℕ) : Joins (new concurrency) where
  joined_le := Nat.zero_le _
  settled := by simp [new]
  success := rfl
  failure := rfl

/-! ### Replacing one worker -/

section SetWorker

variable {s : Pool} {i : ℕ} {w : Worker} (hw : s.workers[i]? = some w) (pc : WorkerPc)
  (r : Recorder)

include hw

theorem sum_setWorker (f : Worker → ℕ) :
    (s.setWorker i pc r).sum f + f w = s.sum f + f ⟨pc, r⟩ :=
  sum_map_set f hw ⟨pc, r⟩

theorem inFlight_setWorker (j n : ℕ) :
    (s.setWorker i pc r).inFlight j n =
      if j = i then (if pc = .requesting n then 1 else 0) else s.inFlight j n := by
  obtain ⟨hi, -⟩ := List.getElem?_eq_some_iff.mp hw
  by_cases hji : j = i
  · subst hji
    simp [inFlight, setWorker, hi]
  · simp [inFlight, setWorker, hji, Ne.symm hji]

/-- A worker that has not ended has not been joined. -/
theorem joins_setWorker (h : Joins s) (hrunning : w.settled = false) :
    Joins (s.setWorker i pc r) := by
  have hle : s.joined ≤ i := by
    by_contra hlt
    have hmem : w ∈ s.workers.take s.joined := by
      apply List.mem_of_getElem? (i := i)
      rw [List.getElem?_take_of_lt (by omega)]
      exact hw
    rw [h.settled w hmem] at hrunning
    cases hrunning
  have htake : (s.setWorker i pc r).workers.take s.joined = s.workers.take s.joined :=
    List.take_set_of_le hle
  constructor
  · simpa [setWorker] using h.joined_le
  · exact fun v hv ↦ h.settled v (htake ▸ hv)
  · exact h.success.trans (by rw [← htake]; rfl)
  · exact h.failure.trans (by rw [← htake]; rfl)

end SetWorker

/-- Joining one more handle. -/
theorem joins_succ {s : Pool} {w : Worker} {merged : Recorder} (h : Joins s)
    (hw : s.workers[s.joined]? = some w) (hsettled : w.settled = true)
    (hsuccess : merged.success = s.merged.success + w.mergedSuccess)
    (hfailure : merged.failure = s.merged.failure + w.mergedFailure) :
    Joins { s with joined := s.joined + 1, merged := merged } := by
  obtain ⟨hlt, rfl⟩ := List.getElem?_eq_some_iff.mp hw
  have htake : s.workers.take (s.joined + 1) = s.workers.take s.joined ++ [s.workers[s.joined]] :=
    (List.take_concat_get' s.workers s.joined hlt).symm
  refine ⟨hlt, ?_, ?_, ?_⟩
  · intro v hv
    simp only [htake, List.mem_append, List.mem_singleton] at hv
    rcases hv with hv | rfl
    · exact h.settled v hv
    · exact hsettled
  · simp only [htake, List.map_append, List.sum_append, List.map_singleton, List.sum_singleton]
    rw [hsuccess, h.success]
  · simp only [htake, List.map_append, List.sum_append, List.map_singleton, List.sum_singleton]
    rw [hfailure, h.failure]

theorem Serves.joins {payload : ℕ} {s p : Pool} {o : LoadOut} (h : s.Serves payload p o)
    (hj : Joins s) : Joins p := by
  cases h with
  | stutter => exact hj
  | reply i n r reply hw => exact joins_setWorker hw _ _ hj rfl
  | panic i n r hw => exact joins_setWorker hw _ _ hj rfl
  | joinFinished r hw => exact joins_succ hj hw rfl rfl rfl
  | joinPanicked r hw => exact joins_succ hj hw rfl rfl rfl

/-! ### When every handle has been joined -/

section Returned

variable {s : Pool} (hret : s.Returned) (hj : Joins s)

include hret hj

theorem Joins.settled_of_returned : ∀ w ∈ s.workers, w.settled = true := by
  have hall := hj.settled
  rwa [hret, List.take_length] at hall

theorem Joins.success_of_returned : s.merged.success = s.sum Worker.mergedSuccess := by
  rw [hj.success, hret, List.take_length, sum]

theorem Joins.failure_of_returned : s.merged.failure = s.sum Worker.mergedFailure := by
  rw [hj.failure, hret, List.take_length, sum]

theorem inFlight_of_returned (i n : ℕ) : s.inFlight i n = 0 := by
  rw [inFlight, if_neg]
  intro hpc
  obtain ⟨w, hw, hrequest⟩ := Option.map_eq_some_iff.mp hpc
  have hsettled := hj.settled_of_returned hret w (List.mem_of_getElem? hw)
  simp [Worker.settled, hrequest] at hsettled

end Returned

end Pool

/-! ## The books of `run_count` -/

namespace RunCount

open Pool

/-- The tickets drawn are consecutive; the counter counts them and the workers
that found none left. -/
def Drawn (total : ℕ) (tr : List (LoadEvent × LoadOut)) (s : RunCount) : Prop :=
  ∃ m, tickets tr = List.range m ∧ m ≤ total ∧
    s.counter = (m + s.sum Worker.isFinished) % 2 ^ 64 ∧ (s.sum Worker.isFinished ≠ 0 → m = total)

/-- The books of a run: every ticket drawn is in flight, has led to one result,
or was lost, and the results are in the recorders of the workers. -/
structure Books (total size : ℕ) (tr : List (LoadEvent × LoadOut)) (s : RunCount) : Prop where
  size_eq : s.workers.length = size
  drawn : Drawn total tr s
  claimed : ∀ i n, (claims tr).count (i, n) =
    ((outcomes tr).map Prod.fst).count (i, n) + (losses tr).count (i, n) + s.inFlight i n
  success : s.sum (·.recorder.success) = (outcomes tr).countP fun o ↦ o.2
  failure : s.sum (·.recorder.failure) = (outcomes tr).countP fun o ↦ !o.2
  panicked : s.sum Worker.isPanicked = (losses tr).length

theorem books_new (total concurrency : ℕ) :
    Books total (max concurrency 1) [] (new concurrency) where
  size_eq := by simp [new, Pool.new]
  drawn := ⟨0, rfl, Nat.zero_le total, by simp [new, Pool.new, sum, Worker.isFinished],
    by simp [new, Pool.new, sum, Worker.isFinished]⟩
  claimed := by
    intro i n
    simp only [inFlight, new, Pool.new, List.getElem?_replicate]
    split <;> simp_all [claims, outcomes, losses]
  success := by simp [sum, new, Pool.new, Recorder.new, outcomes]
  failure := by simp [sum, new, Pool.new, Recorder.new, outcomes]
  panicked := by simp [sum, new, Pool.new, losses, Worker.isPanicked]

variable {total payload : ℕ} {s s' : RunCount} {o : LoadOut}

theorem Move.joins (h : Move total payload s s' o) (hj : s.Joins) : s'.Joins := by
  cases h with
  | claim i r hw hlt => exact joins_setWorker hw (.requesting s.counter) r hj rfl
  | exhaust i r hw hge => exact joins_setWorker hw .finished r hj rfl
  | serve p o hserve => exact hserve.joins hj

section Trace

variable (tr : List (LoadEvent × LoadOut)) (ev : LoadEvent) (o : LoadOut)

@[simp] theorem claims_snoc : claims (tr ++ [(ev, o)]) = claims tr ++ o.claim.toList := by
  cases o <;> simp [claims, LoadOut.claim]

@[simp] theorem tickets_snoc :
    tickets (tr ++ [(ev, o)]) = tickets tr ++ (o.claim.map Prod.snd).toList := by
  cases o <;> simp [tickets, LoadOut.claim]

@[simp] theorem outcomes_snoc :
    outcomes (tr ++ [(ev, o)]) = outcomes tr ++ o.outcome.toList := by
  cases o <;> simp [outcomes, LoadOut.outcome]

@[simp] theorem losses_snoc : losses (tr ++ [(ev, o)]) = losses tr ++ o.loss.toList := by
  cases o <;> simp [losses, LoadOut.loss]

theorem length_outcomes :
    (outcomes tr).length =
      ((outcomes tr).countP fun o ↦ o.2) + (outcomes tr).countP fun o ↦ !o.2 := by
  rw [List.length_eq_countP_add_countP (fun o : (ℕ × ℕ) × Bool ↦ o.2)]
  simp only [Bool.not_eq_true, Bool.decide_eq_false]

end Trace

variable {size i : ℕ} {tr : List (LoadEvent × LoadOut)} {ev : LoadEvent}

theorem sum_isFinished_lt {w : Worker} (hw : s.workers[i]? = some w) (hidle : w.isFinished = 0) :
    s.sum Worker.isFinished < s.workers.length := by
  have hbound : ∀ l : List Worker, (l.map Worker.isFinished).sum ≤ l.length := by
    intro l
    induction l with
    | nil => simp
    | cons v l ih =>
        have hone : v.isFinished ≤ 1 := by
          unfold Worker.isFinished
          split <;> omega
        simp only [List.map_cons, List.sum_cons, List.length_cons]
        omega
  -- with worker `i` finished as well the sum is still at most the number of workers
  have hset := sum_map_set Worker.isFinished hw ⟨.finished, w.recorder⟩
  have hle := hbound (s.workers.set i ⟨.finished, w.recorder⟩)
  rw [List.length_set] at hle
  have hone : Worker.isFinished ⟨.finished, w.recorder⟩ = 1 := rfl
  simp only [sum]
  omega

/-- The counter has not wrapped while a worker can still draw from it. -/
theorem Books.counter_eq {r : Recorder} (h : Books total size tr s) (hsize : total + size ≤ 2 ^ 64)
    (hw : s.workers[i]? = some ⟨.idle, r⟩) :
    ∃ m, tickets tr = List.range m ∧ m ≤ total ∧ s.counter = m + s.sum Worker.isFinished ∧
      (s.sum Worker.isFinished ≠ 0 → m = total) := by
  obtain ⟨m, htickets, hm, hcounter, hfull⟩ := h.drawn
  have hlt := sum_isFinished_lt hw rfl
  rw [h.size_eq] at hlt
  refine ⟨m, htickets, hm, ?_, hfull⟩
  rw [hcounter, Nat.mod_eq_of_lt]
  omega

theorem Books.stutter (h : Books total size tr s) (hworkers : s'.workers = s.workers)
    (hcounter : s'.counter = s.counter) : Books total size (tr ++ [(ev, .quiet)]) s' := by
  obtain ⟨hsize, hdrawn, hclaimed, hsuccess, hfailure, hpanicked⟩ := h
  constructor
  · rw [hworkers, hsize]
  · simpa [Drawn, sum, hworkers, hcounter, LoadOut.claim] using hdrawn
  · simpa [inFlight, hworkers, LoadOut.claim, LoadOut.outcome, LoadOut.loss] using hclaimed
  · simpa [sum, hworkers, LoadOut.outcome] using hsuccess
  · simpa [sum, hworkers, LoadOut.outcome] using hfailure
  · simpa [sum, hworkers, LoadOut.loss] using hpanicked

def WorkerPc.holds (pc : WorkerPc) (n : ℕ) : ℕ := if pc = .requesting n then 1 else 0

/-- One worker moves: the books stay right if its ticket, its recorder and the
output of the event agree. -/
theorem Books.setWorker {pc₀ pc : WorkerPc} {r₀ r : Recorder} {o : LoadOut} {counter : ℕ}
    (h : Books total size tr s) (hw : s.workers[i]? = some ⟨pc₀, r₀⟩)
    (hdrawn : Drawn total (tr ++ [(ev, o)]) ⟨s.setWorker i pc r, counter⟩)
    (hticket : ∀ n, o.claim.toList.count (i, n) + WorkerPc.holds pc₀ n =
      (o.outcome.toList.map Prod.fst).count (i, n) + o.loss.toList.count (i, n) +
        WorkerPc.holds pc n)
    (hothers : ∀ j n, j ≠ i → o.claim.toList.count (j, n) = 0 ∧
      (o.outcome.toList.map Prod.fst).count (j, n) = 0 ∧ o.loss.toList.count (j, n) = 0)
    (hsuccess : r.success = r₀.success + o.outcome.toList.countP fun o ↦ o.2)
    (hfailure : r.failure = r₀.failure + o.outcome.toList.countP fun o ↦ !o.2)
    (hpanicked : Worker.isPanicked ⟨pc, r⟩ =
      Worker.isPanicked ⟨pc₀, r₀⟩ + o.loss.toList.length) :
    Books total size (tr ++ [(ev, o)]) ⟨s.setWorker i pc r, counter⟩ := by
  have hsum : ∀ f, (s.setWorker i pc r).sum f + f ⟨pc₀, r₀⟩ = s.sum f + f ⟨pc, r⟩ :=
    sum_setWorker hw pc r
  constructor
  · simpa [Pool.setWorker] using h.size_eq
  · exact hdrawn
  · intro j n
    have hbefore := h.claimed j n
    have hflight : (s.setWorker i pc r).inFlight j n =
        if j = i then WorkerPc.holds pc n else s.inFlight j n := inFlight_setWorker hw pc r j n
    rw [hflight, claims_snoc, outcomes_snoc, losses_snoc, List.map_append, List.count_append,
      List.count_append, List.count_append]
    by_cases hji : j = i
    · subst hji
      have hheld : s.inFlight j n = WorkerPc.holds pc₀ n := by
        simp [inFlight, WorkerPc.holds, hw]
      have := hticket n
      rw [if_pos rfl]
      omega
    · have := hothers j n hji
      rw [if_neg hji]
      omega
  · have hbooks : (s.setWorker i pc r).sum (·.recorder.success) + r₀.success =
        s.sum (·.recorder.success) + r.success := hsum (·.recorder.success)
    have hbefore := h.success
    rw [outcomes_snoc, List.countP_append]
    show (s.setWorker i pc r).sum (·.recorder.success) = _
    omega
  · have hbooks : (s.setWorker i pc r).sum (·.recorder.failure) + r₀.failure =
        s.sum (·.recorder.failure) + r.failure := hsum (·.recorder.failure)
    have hbefore := h.failure
    rw [outcomes_snoc, List.countP_append]
    show (s.setWorker i pc r).sum (·.recorder.failure) = _
    omega
  · have hbooks := hsum Worker.isPanicked
    have hbefore := h.panicked
    rw [losses_snoc, List.length_append]
    show (s.setWorker i pc r).sum Worker.isPanicked = _
    omega

theorem Books.claim {r : Recorder} (h : Books total size tr s) (hsize : total + size ≤ 2 ^ 64)
    (hw : s.workers[i]? = some ⟨.idle, r⟩) (hlt : s.counter < total) :
    Books total size (tr ++ [(ev, .claimed i s.counter)])
      ⟨s.setWorker i (.requesting s.counter) r, (s.counter + 1) % 2 ^ 64⟩ := by
  obtain ⟨m, htickets, hm, hcounter, hfull⟩ := h.counter_eq hsize hw
  have hnone : s.sum Worker.isFinished = 0 := by
    by_contra hsome
    have := hfull hsome
    omega
  have hfin : (s.setWorker i (.requesting s.counter) r).sum Worker.isFinished = 0 := by
    have hset := sum_setWorker hw (.requesting s.counter) r Worker.isFinished
    rw [hnone] at hset
    simpa [Worker.isFinished] using hset
  refine h.setWorker hw ⟨m + 1, ?_, by omega, ?_, fun hsome ↦ absurd hfin hsome⟩ ?_ ?_ rfl rfl rfl
  · simp [htickets, LoadOut.claim, hcounter, hnone, List.range_succ]
  · show (s.counter + 1) % 2 ^ 64 =
      (m + 1 + (s.setWorker i (.requesting s.counter) r).sum Worker.isFinished) % 2 ^ 64
    rw [hfin, hcounter, hnone]
  · intro n
    by_cases hn : s.counter = n <;> simp [LoadOut.claim, LoadOut.outcome, LoadOut.loss,
      WorkerPc.holds, hn]
  · intro j n hji
    simp [LoadOut.claim, LoadOut.outcome, LoadOut.loss, Ne.symm hji]

theorem Books.exhaust {r : Recorder} (h : Books total size tr s) (hsize : total + size ≤ 2 ^ 64)
    (hw : s.workers[i]? = some ⟨.idle, r⟩) (hge : total ≤ s.counter) :
    Books total size (tr ++ [(ev, .quiet)])
      ⟨s.setWorker i .finished r, (s.counter + 1) % 2 ^ 64⟩ := by
  obtain ⟨m, htickets, hm, hcounter, hfull⟩ := h.counter_eq hsize hw
  have hall : m = total := by
    by_cases hsome : s.sum Worker.isFinished = 0
    · omega
    · exact hfull hsome
  have hfin : (s.setWorker i .finished r).sum Worker.isFinished =
      s.sum Worker.isFinished + 1 := sum_setWorker hw .finished r Worker.isFinished
  refine h.setWorker hw ⟨m, ?_, hm, ?_, fun _ ↦ hall⟩ ?_ ?_ rfl rfl rfl
  · simp [htickets, LoadOut.claim]
  · show (s.counter + 1) % 2 ^ 64 =
      (m + (s.setWorker i .finished r).sum Worker.isFinished) % 2 ^ 64
    rw [hfin, hcounter, Nat.add_assoc]
  · intro n
    simp [LoadOut.claim, LoadOut.outcome, LoadOut.loss, WorkerPc.holds]
  · intro j n hji
    simp [LoadOut.claim, LoadOut.outcome, LoadOut.loss]

/-- A worker that goes on without drawing leaves the counter alone. -/
theorem Drawn.setWorker {pc : WorkerPc} {w : Worker} {r : Recorder} {o : LoadOut}
    (h : Drawn total tr s) (hw : s.workers[i]? = some w) (hold : w.isFinished = 0)
    (hnew : Worker.isFinished ⟨pc, r⟩ = 0) (hclaim : o.claim = none) :
    Drawn total (tr ++ [(ev, o)]) ⟨s.setWorker i pc r, s.counter⟩ := by
  obtain ⟨m, htickets, hm, hcounter, hfull⟩ := h
  have hfin : (s.setWorker i pc r).sum Worker.isFinished = s.sum Worker.isFinished := by
    have hset := sum_setWorker hw pc r Worker.isFinished
    omega
  refine ⟨m, ?_, hm, ?_, ?_⟩
  · simpa [hclaim] using htickets
  · rw [hfin]
    exact hcounter
  · rw [hfin]
    exact hfull

theorem Books.reply {n : ℕ} {r : Recorder} (h : Books total size tr s)
    (hw : s.workers[i]? = some ⟨.requesting n, r⟩) (reply : Reply) :
    Books total size (tr ++ [(ev, .recorded i n (reply.isSuccess payload))])
      ⟨s.setWorker i .idle (oneRequest payload reply r), s.counter⟩ := by
  have hcounts : (oneRequest payload reply r).success =
        r.success + [((i, n), reply.isSuccess payload)].countP (fun o ↦ o.2) ∧
      (oneRequest payload reply r).failure =
        r.failure + [((i, n), reply.isSuccess payload)].countP (fun o ↦ !o.2) := by
    cases reply with
    | failed => exact ⟨rfl, rfl⟩
    | timedOut => exact ⟨rfl, rfl⟩
    | answered length latency =>
        by_cases hlen : length = payload <;>
          simp [oneRequest, Reply.isSuccess, hlen, Recorder.recordSuccess, Recorder.recordFailure]
  refine h.setWorker hw (h.drawn.setWorker hw rfl rfl rfl) ?_ ?_ hcounts.1 hcounts.2 rfl
  · intro k
    by_cases hk : n = k <;> simp [LoadOut.claim, LoadOut.outcome, LoadOut.loss, WorkerPc.holds, hk]
  · intro j k hji
    simp [LoadOut.claim, LoadOut.outcome, LoadOut.loss, Ne.symm hji]

theorem Books.panic {n : ℕ} {r : Recorder} (h : Books total size tr s)
    (hw : s.workers[i]? = some ⟨.requesting n, r⟩) :
    Books total size (tr ++ [(ev, .lost i n)]) ⟨s.setWorker i .panicked r, s.counter⟩ := by
  refine h.setWorker hw (h.drawn.setWorker hw rfl rfl rfl) ?_ ?_ rfl rfl rfl
  · intro k
    by_cases hk : n = k <;> simp [LoadOut.claim, LoadOut.outcome, LoadOut.loss, WorkerPc.holds, hk]
  · intro j k hji
    simp [LoadOut.claim, LoadOut.outcome, LoadOut.loss, Ne.symm hji]

theorem Books.serve {p : Pool} (h : Books total size tr s) (hserve : s.Serves payload p o) :
    Books total size (tr ++ [(ev, o)]) ⟨p, s.counter⟩ := by
  cases hserve with
  | stutter => exact h.stutter rfl rfl
  | reply i n r reply hw => exact h.reply hw reply
  | panic i n r hw => exact h.panic hw
  | joinFinished r hw => exact h.stutter rfl rfl
  | joinPanicked r hw => exact h.stutter rfl rfl

theorem Move.books (h : Move total payload s s' o) (hsize : total + size ≤ 2 ^ 64)
    (hb : Books total size tr s) : Books total size (tr ++ [(ev, o)]) s' := by
  cases h with
  | claim i r hw hlt => exact hb.claim hsize hw hlt
  | exhaust i r hw hge => exact hb.exhaust hsize hw hge
  | serve p o hserve => exact hb.serve hserve

theorem books_of_run {concurrency : ℕ} (hsize : total + max concurrency 1 ≤ 2 ^ 64)
    (h : Run (Steps total payload) (new concurrency) tr s) :
    Books total (max concurrency 1) tr s ∧ s.Joins := by
  refine h.history (I := fun past t ↦ Books total (max concurrency 1) past t ∧ t.Joins) ?_
    ⟨books_new total concurrency, joins_new concurrency⟩
  rintro past t ⟨ev, o⟩ t' ⟨hbooks, hjoins⟩ hstep
  have hmove := move_of_steps hstep
  exact ⟨hmove.books hsize hbooks, hmove.joins hjoins⟩

/-! ### When `run_count` returns -/

/-- Every ticket drawn has led to a result or was lost in a panic. -/
theorem Books.claims_perm (hret : s.Returned) (h : Books total size tr s) (hj : s.Joins) :
    (claims tr).Perm ((outcomes tr).map Prod.fst ++ losses tr) := by
  rw [List.perm_iff_count]
  rintro ⟨i, n⟩
  rw [List.count_append, h.claimed i n, inFlight_of_returned hret hj i n, Nat.add_zero]

theorem Worker.merged_le {w : Worker} :
    w.mergedSuccess + w.mergedFailure ≤
      w.recorder.success + w.recorder.failure + w.isPanicked := by
  unfold Worker.mergedSuccess Worker.mergedFailure
  split <;> omega

/-- A panicked worker adds one failure and loses one ticket, and the results it
had recorded are dropped. -/
theorem Books.merged_le (h : Books total size tr s) (hj : s.Joins) (hret : s.Returned) :
    s.merged.success + s.merged.failure ≤ (claims tr).length := by
  have hsum : s.sum Worker.mergedSuccess + s.sum Worker.mergedFailure ≤
      s.sum (·.recorder.success) + s.sum (·.recorder.failure) + s.sum Worker.isPanicked := by
    simp only [sum, ← List.sum_map_add]
    exact List.sum_le_sum fun w _ ↦ Worker.merged_le
  have hresults := length_outcomes tr
  have hlength := (h.claims_perm hret hj).length_eq
  rw [List.length_append, List.length_map] at hlength
  rw [hj.success_of_returned hret, hj.failure_of_returned hret]
  have hsuccess := h.success
  have hfailure := h.failure
  have hpanicked := h.panicked
  omega

section NoPanic

variable (h : Books total size tr s) (hj : s.Joins) (hret : s.Returned)
  (hcalm : ∀ w ∈ s.workers, w.pc ≠ .panicked)

include hj hret hcalm

theorem finished_of_returned : ∀ w ∈ s.workers, w.pc = .finished := by
  intro w hw
  have hsettled := hj.settled_of_returned hret w hw
  simpa [Worker.settled, hcalm w hw] using hsettled

theorem sum_congr_of_returned {f g : Worker → ℕ} (hfg : ∀ w, w.pc = .finished → f w = g w) :
    s.sum f = s.sum g := by
  have hfinished := finished_of_returned hj hret hcalm
  rw [sum, sum, List.map_congr_left fun w hw ↦ hfg w (hfinished w hw)]

include h

theorem Books.losses_eq_nil : losses tr = [] := by
  have hnone : s.sum Worker.isPanicked = s.sum fun _ ↦ 0 :=
    sum_congr_of_returned hj hret hcalm fun w hw ↦ by simp [Worker.isPanicked, hw]
  rw [h.panicked] at hnone
  simpa [sum] using hnone

/-- With no panic some worker ends because no ticket is left. -/
theorem Books.tickets_eq (hpos : 0 < size) : tickets tr = List.range total := by
  obtain ⟨m, htickets, -, -, hfull⟩ := h.drawn
  have hall : s.sum Worker.isFinished = s.sum fun _ ↦ 1 :=
    sum_congr_of_returned hj hret hcalm fun w hw ↦ by simp [Worker.isFinished, hw]
  have hsize : s.sum (fun _ ↦ 1) = size := by
    simpa [sum] using h.size_eq
  rw [htickets, hfull (by omega)]

theorem Books.merged_success : s.merged.success = (outcomes tr).countP fun o ↦ o.2 := by
  rw [hj.success_of_returned hret, ← h.success]
  exact sum_congr_of_returned hj hret hcalm fun w hw ↦ by simp [Worker.mergedSuccess, hw]

theorem Books.merged_failure : s.merged.failure = (outcomes tr).countP fun o ↦ !o.2 := by
  rw [hj.failure_of_returned hret, ← h.failure]
  exact sum_congr_of_returned hj hret hcalm fun w hw ↦ by simp [Worker.mergedFailure, hw]

end NoPanic

theorem Books.tickets_lt (h : Books total size tr s) :
    (tickets tr).Nodup ∧ ∀ n ∈ tickets tr, n < total := by
  obtain ⟨m, htickets, hm, -, -⟩ := h.drawn
  rw [htickets]
  refine ⟨List.nodup_range, ?_⟩
  intro n hn
  have := List.mem_range.mp hn
  omega

theorem Books.claims_le (h : Books total size tr s) : (claims tr).length ≤ total := by
  obtain ⟨m, htickets, hm, -, -⟩ := h.drawn
  have hlength : (tickets tr).length = m := by rw [htickets, List.length_range]
  rw [tickets, List.length_map] at hlength
  omega

end RunCount

open RunCount in
/-- For every interleaving of the workers no ticket is drawn twice.  When
`run_count` returns and no worker has panicked, the tickets drawn are those
below `total`, the results recorded are one for each draw, and the merged
recorder counts them; with panics it counts no more than `total`. -/
theorem run_count_exactly_once (total payload concurrency : ℕ) {s : RunCount}
    {tr : List (LoadEvent × LoadOut)} (hsize : total + max concurrency 1 ≤ 2 ^ 64)
    (h : Run (Steps total payload) (new concurrency) tr s) :
    ((tickets tr).Nodup ∧ ∀ n ∈ tickets tr, n < total) ∧
      (s.Returned → (∀ w ∈ s.workers, w.pc ≠ .panicked) →
        tickets tr = List.range total ∧
          ((outcomes tr).map Prod.fst).Perm (claims tr) ∧
          s.merged.success = ((outcomes tr).countP fun o ↦ o.2) ∧
          s.merged.failure = ((outcomes tr).countP fun o ↦ !o.2) ∧
          s.merged.success + s.merged.failure = total) ∧
      (s.Returned → s.merged.success + s.merged.failure ≤ total) := by
  obtain ⟨hbooks, hjoins⟩ := books_of_run hsize h
  refine ⟨hbooks.tickets_lt, ?_, ?_⟩
  · intro hret hcalm
    have htickets := hbooks.tickets_eq hjoins hret hcalm (by omega)
    have hsuccess := hbooks.merged_success hjoins hret hcalm
    have hfailure := hbooks.merged_failure hjoins hret hcalm
    have hperm := hbooks.claims_perm hret hjoins
    rw [hbooks.losses_eq_nil hjoins hret hcalm, List.append_nil] at hperm
    have hresults := length_outcomes tr
    have hlength : (tickets tr).length = total := by rw [htickets, List.length_range]
    rw [tickets, List.length_map, hperm.length_eq, List.length_map] at hlength
    refine ⟨htickets, hperm.symm, hsuccess, hfailure, ?_⟩
    omega
  · intro hret
    exact (hbooks.merged_le hjoins hret).trans hbooks.claims_le

open RunCount in
/-- Two workers share three tickets; the second gets a reply of the wrong
length, and its handle is joined last. -/
theorem run_count_exactly_once_shared :
    let es : List LoadEvent := [.fetchAdd 1, .fetchAdd 0, .reply 0 (.answered 4 25),
      .fetchAdd 0, .reply 1 (.answered 3 40), .reply 0 .timedOut, .fetchAdd 1, .fetchAdd 0,
      .join, .join]
    (tickets (labels (step 3 4) (new 2) es)).Nodup ∧
      (exec (step 3 4) (new 2) es).merged.success = 1 ∧
      (exec (step 3 4) (new 2) es).merged.success +
        (exec (step 3 4) (new 2) es).merged.failure = 3 := by
  intro es
  have hspec := run_count_exactly_once 3 4 2 (by decide) (run_exec (step 3 4) (new 2) es)
  obtain ⟨⟨hnodup, -⟩, hcalm, -⟩ := hspec
  obtain ⟨-, -, -, -, htotal⟩ := hcalm rfl (by decide)
  exact ⟨hnodup, rfl, htotal⟩

end TonicH3
