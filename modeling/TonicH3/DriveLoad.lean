import Mathlib.Algebra.BigOperators.Group.Finset.Basic
import Mathlib.Algebra.Order.BigOperators.Group.Finset
import TonicH3.BenchLoad
import TonicH3.H3

/-!
# A whole run of the benchmark client

`drive_load` probes the server once, drives an optional warm-up whose results
are thrown away, and then the measured load, by `run_count` or by
`run_duration`.  In `run_duration` a worker goes on while the time it reads is
before the deadline; what it does between two readings, and how the handles are
joined, is as in `run_count`.

Times are in nanoseconds.  The readings of the clock, the answers of the server
and the order of the workers are chosen by the environment.
-/

namespace TonicH3

open EventRun

/-! ## `run_duration`

Its state is the workers and their handles; a worker in a request holds the
time it read before it. -/

inductive DurationEvent
  | check (i now : ℕ)
  | reply (i : ℕ) (reply : Reply)
  | panic (i : ℕ)
  | join
  deriving DecidableEq, Repr

namespace RunDuration

variable (deadline payload : ℕ)

def onCheck (s : Pool) (i now : ℕ) (r : Recorder) : Pool × LoadOut :=
  if now < deadline then (s.setWorker i (.requesting now) r, .claimed i now)
  else (s.setWorker i .finished r, .quiet)

def step (s : Pool) : DurationEvent → Pool × LoadOut
  | .check i now =>
      match s.workers[i]? with
      | some ⟨.idle, r⟩ => onCheck deadline s i now r
      | _ => (s, .quiet)
  | .reply i reply => s.onReply payload i reply
  | .panic i => s.onPanic i
  | .join => s.onJoin

abbrev Steps : Pool → DurationEvent × LoadOut → Pool → Prop := Fires (step deadline payload)

end RunDuration

/-! ## `drive_load` -/

inductive LoadLimit
  | count (n : ℕ)
  | duration (d : ℕ)
  deriving DecidableEq, Repr

structure LoadConfig where
  payloadSize : ℕ
  concurrency : ℕ
  limit : LoadLimit
  warmup : Option ℕ
  connectTimeout : ℕ
  deriving DecidableEq, Repr

def makePayload (size : ℕ) : Bytes := (List.range size).map fun i ↦ UInt8.ofNat (i % 251)

@[simp] theorem length_makePayload (size : ℕ) : (makePayload size).length = size := by
  simp [makePayload]

/-- A number of units, then the digits of the rest without trailing zeros. -/
def fmtDecimal (whole rest width : ℕ) (unit : String) : String :=
  let digits := Nat.toDigits 10 rest
  let padded := List.replicate (width - digits.length) '0' ++ digits
  let kept := (padded.reverse.dropWhile (· = '0')).reverse
  let fraction := if kept = [] then "" else "." ++ String.ofList kept
  toString whole ++ fraction ++ unit

/-- The `Debug` text of a `Duration` of so many nanoseconds. -/
def debugDuration (nanos : ℕ) : String :=
  if nanos ≥ 10 ^ 9 then fmtDecimal (nanos / 10 ^ 9) (nanos % 10 ^ 9) 9 "s"
  else if nanos ≥ 10 ^ 6 then fmtDecimal (nanos / 10 ^ 6) (nanos % 10 ^ 6) 6 "ms"
  else if nanos ≥ 10 ^ 3 then fmtDecimal (nanos / 10 ^ 3) (nanos % 10 ^ 3) 3 "µs"
  else fmtDecimal nanos 0 0 "ns"

inductive ProbeAnswer
  | timedOut
  | failed (e : String)
  | answered (payload : Bytes)
  deriving DecidableEq, Repr

def probe (cfg : LoadConfig) : ProbeAnswer → Except String Unit
  | .timedOut =>
      .error ("connect probe timed out after " ++ debugDuration cfg.connectTimeout ++
        "; is the server running?")
  | .failed e => .error ("connect probe failed: " ++ e)
  | .answered payload =>
      if payload ≠ makePayload cfg.payloadSize then
        .error ("echo self-check failed: reply payload does not match request " ++
          "(byte-for-byte comparison)")
      else .ok ()

structure BenchSummary where
  total : ℕ
  success : ℕ
  failure : ℕ
  elapsed : ℕ
  p50 : Option ℕ
  p90 : Option ℕ
  p99 : Option ℕ
  deriving DecidableEq, Repr

/-- `valueAtQuantile` is that of the histogram, its second argument in per cent. -/
def BenchSummary.fromRecorder (valueAtQuantile : List ℕ → ℕ → ℕ) (r : Recorder) (elapsed : ℕ) :
    BenchSummary :=
  let percentile := fun q ↦ if r.success > 0 then some (valueAtQuantile r.hist q) else none
  { total := r.success + r.failure
    success := r.success
    failure := r.failure
    elapsed := elapsed
    p50 := percentile 50
    p90 := percentile 90
    p99 := percentile 99 }

/-- Where `drive_load` waits: for the probe, for the warm-up, between the two
loads, for the measured load; or what it has returned. -/
inductive DriveLoad
  | probing
  | warming (deadline : ℕ) (s : Pool)
  | warmed
  | counting (start n : ℕ) (s : RunCount)
  | timing (start deadline : ℕ) (s : Pool)
  | returned (result : Except String BenchSummary)
  deriving DecidableEq, Repr

/-- An event carries the readings of the clock that are made at it: for the
deadline of the warm-up, for `start` and the deadline of the measured load, and
for `elapsed`. -/
inductive DriveEvent
  | probe (answer : ProbeAnswer) (now : ℕ)
  | start (start now : ℕ)
  | count (ev : LoadEvent)
  | time (ev : DurationEvent)
  | resume (now : ℕ)
  deriving DecidableEq, Repr

inductive DriveOut
  | quiet
  | started (now : ℕ)
  | warm (o : LoadOut)
  | measured (o : LoadOut)
  deriving DecidableEq, Repr

namespace DriveLoad

variable (valueAtQuantile : List ℕ → ℕ → ℕ) (cfg : LoadConfig)

def afterProbe (now : ℕ) : DriveLoad :=
  match cfg.warmup with
  | some w => .warming (now + w) (.new cfg.concurrency)
  | none => .warmed

def onProbe (answer : ProbeAnswer) (now : ℕ) : DriveLoad :=
  match probe cfg answer with
  | .error e => .returned (.error e)
  | .ok () => afterProbe cfg now

def measure (start now : ℕ) : DriveLoad :=
  match cfg.limit with
  | .count n => .counting start n (.new cfg.concurrency)
  | .duration d => .timing start (now + d) (.new cfg.concurrency)

def summarize (start now : ℕ) (r : Recorder) : DriveLoad :=
  .returned (.ok (.fromRecorder valueAtQuantile r (now - start)))

/-- One event; an event that `drive_load` does not wait for changes nothing. -/
def step (s : DriveLoad) (ev : DriveEvent) : DriveLoad × DriveOut :=
  let payload := (makePayload cfg.payloadSize).length
  match ev, s with
  | .probe answer now, .probing => (onProbe cfg answer now, .quiet)
  | .start start now, .warmed => (measure cfg start now, .started now)
  | .count ev, .counting start n s =>
      (.counting start n (s.step n payload ev).1, .measured (s.step n payload ev).2)
  | .time ev, .warming deadline s =>
      (.warming deadline (RunDuration.step deadline payload s ev).1,
        .warm (RunDuration.step deadline payload s ev).2)
  | .time ev, .timing start deadline s =>
      (.timing start deadline (RunDuration.step deadline payload s ev).1,
        .measured (RunDuration.step deadline payload s ev).2)
  | .resume _, .warming deadline s =>
      (if s.Returned then .warmed else .warming deadline s, .quiet)
  | .resume now, .counting start n s =>
      (if s.Returned then summarize valueAtQuantile start now s.merged
        else .counting start n s, .quiet)
  | .resume now, .timing start deadline s =>
      (if s.Returned then summarize valueAtQuantile start now s.merged
        else .timing start deadline s, .quiet)
  | _, s => (s, .quiet)

abbrev Steps : DriveLoad → DriveEvent × DriveOut → DriveLoad → Prop :=
  Fires (step valueAtQuantile cfg)

end DriveLoad

/-! ## What a run has done -/

def DriveEvent.answer : DriveEvent → Option ProbeAnswer
  | .probe answer _ => some answer
  | _ => none

namespace DriveOut

def reading : DriveOut → Option ℕ
  | .started now => some now
  | _ => none

def ofMeasured : DriveOut → Option LoadOut
  | .measured o => some o
  | _ => none

end DriveOut

section Trace

variable (tr : List (DriveEvent × DriveOut))

def probes : List ProbeAnswer := tr.filterMap fun l ↦ l.1.answer

/-- The reading of the clock at which each measured load was started. -/
def starts : List ℕ := tr.filterMap fun l ↦ l.2.reading

/-- The outputs of the workers of the measured load. -/
def measured : List LoadOut := tr.filterMap fun l ↦ l.2.ofMeasured

end Trace

namespace LoadOut

def successOf (i : ℕ) : LoadOut → Bool
  | .recorded j _ success => j = i ∧ success = true
  | _ => false

def failureOf (i : ℕ) : LoadOut → Bool
  | .recorded j _ success => j = i ∧ success = false
  | _ => false

def lossOf (i : ℕ) : LoadOut → Bool
  | .lost j _ => j = i
  | _ => false

end LoadOut

section Outputs

variable (outs : List LoadOut)

/-- The worker of every request begun, with its ticket or the time it read. -/
def requests : List (ℕ × ℕ) := outs.filterMap LoadOut.claim

/-- Worker `i` counts by its own results, or by the one failure that stands for
all of them after a panic. -/
def successes (i : ℕ) : ℕ :=
  if outs.any (LoadOut.lossOf i) then 0 else outs.countP (LoadOut.successOf i)

def failures (i : ℕ) : ℕ :=
  if outs.any (LoadOut.lossOf i) then 1 else outs.countP (LoadOut.failureOf i)

def NoPanic : Prop := ∀ i, outs.any (LoadOut.lossOf i) = false

end Outputs

/-! ## The workers and what they have put out -/

/-- A worker in a request, or lost in one. -/
def Worker.pending (w : Worker) : ℕ :=
  match w.pc with
  | .requesting _ => 1
  | .panicked => 1
  | _ => 0

/-- The recorder and the state of worker `i` agree with the outputs. -/
structure Worker.Fits (outs : List LoadOut) (i : ℕ) (w : Worker) : Prop where
  success : w.recorder.success = outs.countP (LoadOut.successOf i)
  failure : w.recorder.failure = outs.countP (LoadOut.failureOf i)
  panicked : w.pc = .panicked ↔ outs.any (LoadOut.lossOf i) = true
  begun : ((requests outs).map Prod.fst).count i =
    w.recorder.success + w.recorder.failure + w.pending

structure Tallied (size : ℕ) (outs : List LoadOut) (workers : List Worker) : Prop where
  size_eq : workers.length = size
  fits : ∀ i (w : Worker), workers[i]? = some w → w.Fits outs i
  begun_lt : ∀ i ∈ (requests outs).map Prod.fst, i < size

/-- What one event can do to the workers, in either kind of load. -/
inductive WorkersMove (payload : ℕ) (ws : List Worker) : List Worker → LoadOut → Prop
  | stay : WorkersMove payload ws ws .quiet
  | begin (i n : ℕ) (r : Recorder) : ws[i]? = some ⟨.idle, r⟩ →
      WorkersMove payload ws (ws.set i ⟨.requesting n, r⟩) (.claimed i n)
  | finish (i : ℕ) (r : Recorder) : ws[i]? = some ⟨.idle, r⟩ →
      WorkersMove payload ws (ws.set i ⟨.finished, r⟩) .quiet
  | reply (i n : ℕ) (r : Recorder) (reply : Reply) : ws[i]? = some ⟨.requesting n, r⟩ →
      WorkersMove payload ws (ws.set i ⟨.idle, oneRequest payload reply r⟩)
        (.recorded i n (reply.isSuccess payload))
  | panic (i n : ℕ) (r : Recorder) : ws[i]? = some ⟨.requesting n, r⟩ →
      WorkersMove payload ws (ws.set i ⟨.panicked, r⟩) (.lost i n)

def LoadOut.worker : LoadOut → Option ℕ
  | .claimed i _ => some i
  | .recorded i _ _ => some i
  | .lost i _ => some i
  | .quiet => none

@[simp] theorem requests_snoc (outs : List LoadOut) (o : LoadOut) :
    requests (outs ++ [o]) = requests outs ++ o.claim.toList := by
  cases o <;> simp [requests, LoadOut.claim]

section Tallied

variable {size payload i : ℕ} {outs : List LoadOut} {o : LoadOut} {w w' : Worker}
  {ws ws' : List Worker} {r : Recorder}

/-- An output of another worker does not count for worker `i`. -/
theorem Worker.Fits.other (h : w.Fits outs i) (ho : o.worker ≠ some i) :
    w.Fits (outs ++ [o]) i := by
  obtain ⟨hsuccess, hfailure, hpanicked, hbegun⟩ := h
  cases o with
  | quiet =>
      exact ⟨by simpa [LoadOut.successOf] using hsuccess,
        by simpa [LoadOut.failureOf] using hfailure, by simpa [LoadOut.lossOf] using hpanicked,
        by simpa [LoadOut.claim] using hbegun⟩
  | claimed j n =>
      have hji : j ≠ i := by simpa [LoadOut.worker] using ho
      exact ⟨by simpa [LoadOut.successOf] using hsuccess,
        by simpa [LoadOut.failureOf] using hfailure, by simpa [LoadOut.lossOf] using hpanicked,
        by simpa [LoadOut.claim, hji] using hbegun⟩
  | recorded j n success =>
      have hji : j ≠ i := by simpa [LoadOut.worker] using ho
      exact ⟨by simpa [LoadOut.successOf, hji] using hsuccess,
        by simpa [LoadOut.failureOf, hji] using hfailure,
        by simpa [LoadOut.lossOf] using hpanicked,
        by simpa [LoadOut.claim] using hbegun⟩
  | lost j n =>
      have hji : j ≠ i := by simpa [LoadOut.worker] using ho
      exact ⟨by simpa [LoadOut.successOf] using hsuccess,
        by simpa [LoadOut.failureOf] using hfailure,
        by simpa [LoadOut.lossOf, hji] using hpanicked,
        by simpa [LoadOut.claim] using hbegun⟩

theorem Worker.Fits.begin (h : Worker.Fits outs i ⟨.idle, r⟩) (n : ℕ) :
    Worker.Fits (outs ++ [.claimed i n]) i ⟨.requesting n, r⟩ := by
  obtain ⟨hsuccess, hfailure, hpanicked, hbegun⟩ := h
  refine ⟨by simpa [LoadOut.successOf] using hsuccess,
    by simpa [LoadOut.failureOf] using hfailure, by simpa [LoadOut.lossOf] using hpanicked, ?_⟩
  simpa [LoadOut.claim, Worker.pending] using hbegun

theorem Worker.Fits.reply {n : ℕ} (h : Worker.Fits outs i ⟨.requesting n, r⟩) (reply : Reply) :
    Worker.Fits (outs ++ [.recorded i n (reply.isSuccess payload)]) i
      ⟨.idle, oneRequest payload reply r⟩ := by
  obtain ⟨hsuccess, hfailure, hpanicked, hbegun⟩ := h
  have hloss : outs.any (LoadOut.lossOf i) ≠ true := fun hlost ↦ by
    cases hpanicked.mpr hlost
  have hone : (oneRequest payload reply r).success =
        r.success + (if reply.isSuccess payload = true then 1 else 0) ∧
      (oneRequest payload reply r).failure =
        r.failure + (if reply.isSuccess payload = true then 0 else 1) := by
    cases reply with
    | failed => exact ⟨rfl, rfl⟩
    | timedOut => exact ⟨rfl, rfl⟩
    | answered length latency =>
        by_cases hlen : length = payload <;>
          simp [oneRequest, Reply.isSuccess, hlen, Recorder.recordSuccess, Recorder.recordFailure]
  refine ⟨?_, ?_, ?_, ?_⟩
  · rw [hone.1, List.countP_append, ← hsuccess]
    simp [LoadOut.successOf]
  · rw [hone.2, List.countP_append, ← hfailure]
    cases reply.isSuccess payload <;> simp [LoadOut.failureOf]
  · simpa [LoadOut.lossOf] using hloss
  · simp only [Worker.pending] at hbegun
    rw [hone.1, hone.2, requests_snoc, List.map_append, List.count_append, hbegun]
    cases reply.isSuccess payload <;> simp [LoadOut.claim, Worker.pending] <;> omega

theorem Worker.Fits.panic {n : ℕ} (h : Worker.Fits outs i ⟨.requesting n, r⟩) :
    Worker.Fits (outs ++ [.lost i n]) i ⟨.panicked, r⟩ := by
  obtain ⟨hsuccess, hfailure, -, hbegun⟩ := h
  exact ⟨by simpa [LoadOut.successOf] using hsuccess,
    by simpa [LoadOut.failureOf] using hfailure, by simp [LoadOut.lossOf],
    by simpa [LoadOut.claim, Worker.pending] using hbegun⟩

/-- Worker `i` moves, and the output is about it. -/
theorem Tallied.set (h : Tallied size outs ws) (hw : ws[i]? = some w)
    (ho : ∀ j, j ≠ i → o.worker ≠ some j) (hfits : w'.Fits (outs ++ [o]) i) :
    Tallied size (outs ++ [o]) (ws.set i w') := by
  obtain ⟨hi, -⟩ := List.getElem?_eq_some_iff.mp hw
  refine ⟨by simpa using h.size_eq, ?_, ?_⟩
  · intro j v hv
    by_cases hji : j = i
    · subst hji
      obtain rfl : w' = v := by simpa [hi] using hv
      exact hfits
    · rw [List.getElem?_set_ne (Ne.symm hji)] at hv
      exact (h.fits j v hv).other (ho j hji)
  · intro j hj
    rw [requests_snoc, List.map_append, List.mem_append] at hj
    rcases hj with hj | hj
    · exact h.begun_lt j hj
    · have hclaim : o.worker = some j := by
        cases o <;> simp_all [LoadOut.claim, LoadOut.worker]
      have hij : j = i := by
        by_contra hji
        exact ho j hji hclaim
      have hsize := h.size_eq
      omega

theorem Tallied.move (h : Tallied size outs ws) (hmove : WorkersMove payload ws ws' o) :
    Tallied size (outs ++ [o]) ws' := by
  cases hmove with
  | stay =>
      refine ⟨h.size_eq, ?_, ?_⟩
      · intro i w hw
        exact (h.fits i w hw).other (by simp [LoadOut.worker])
      · simpa [LoadOut.claim] using h.begun_lt
  | begin i n r hw =>
      exact h.set hw (fun j hji ↦ by simpa [LoadOut.worker] using Ne.symm hji)
        ((h.fits i _ hw).begin n)
  | finish i r hw =>
      have hfits := (h.fits i _ hw).other (o := .quiet) (by simp [LoadOut.worker])
      obtain ⟨hsuccess, hfailure, hpanicked, hbegun⟩ := hfits
      exact h.set hw (fun j _ ↦ by simp [LoadOut.worker])
        ⟨hsuccess, hfailure, by simpa using hpanicked, hbegun⟩
  | reply i n r reply hw =>
      exact h.set hw (fun j hji ↦ by simpa [LoadOut.worker] using Ne.symm hji)
        ((h.fits i _ hw).reply reply)
  | panic i n r hw =>
      exact h.set hw (fun j hji ↦ by simpa [LoadOut.worker] using Ne.symm hji)
        (h.fits i _ hw).panic

theorem tallied_new (size : ℕ) : Tallied size [] (List.replicate size ⟨.idle, .new⟩) := by
  refine ⟨List.length_replicate, ?_, by simp [requests]⟩
  intro i w hw
  obtain ⟨-, rfl⟩ := List.getElem?_eq_some_iff.mp hw
  simp only [List.getElem_replicate]
  exact ⟨rfl, rfl, by simp, rfl⟩

/-- The workers of any machine that moves them as a load does. -/
theorem tallied_of_run {σ ε : Type*} {Step : σ → ε × LoadOut → σ → Prop} {f : σ → List Worker}
    (hstep : ∀ s l t, Step s l t → WorkersMove payload (f s) (f t) l.2)
    {s t : σ} {tr : List (ε × LoadOut)} (h : Run Step s tr t)
    (hs : f s = List.replicate size ⟨.idle, .new⟩) :
    Tallied size (tr.map Prod.snd) (f t) := by
  refine h.history (I := fun past u ↦ Tallied size (past.map Prod.snd) (f u)) ?_ ?_
  · intro past u l v htallied huv
    rw [List.map_append]
    exact htallied.move (hstep u l v huv)
  · rw [hs]
    exact tallied_new size

end Tallied

/-! ### The two kinds of load -/

theorem Pool.Serves.workers {payload : ℕ} {s p : Pool} {o : LoadOut} (h : s.Serves payload p o) :
    WorkersMove payload s.workers p.workers o := by
  cases h with
  | stutter => exact .stay
  | reply i n r reply hw => exact .reply i n r reply hw
  | panic i n r hw => exact .panic i n r hw
  | joinFinished r hw => exact .stay
  | joinPanicked r hw => exact .stay

theorem RunCount.Move.workers {total payload : ℕ} {s s' : RunCount} {o : LoadOut}
    (h : RunCount.Move total payload s s' o) : WorkersMove payload s.workers s'.workers o := by
  cases h with
  | claim i r hw hlt => exact .begin i s.counter r hw
  | exhaust i r hw hge => exact .finish i r hw
  | serve p o hserve => exact hserve.workers

namespace RunDuration

inductive Move (deadline payload : ℕ) (s : Pool) : Pool → LoadOut → Prop
  | begin (i now : ℕ) (r : Recorder) : s.workers[i]? = some ⟨.idle, r⟩ → now < deadline →
      Move deadline payload s (s.setWorker i (.requesting now) r) (.claimed i now)
  | expire (i : ℕ) (r : Recorder) : s.workers[i]? = some ⟨.idle, r⟩ →
      Move deadline payload s (s.setWorker i .finished r) .quiet
  | serve (p : Pool) (o : LoadOut) : s.Serves payload p o → Move deadline payload s p o

variable {deadline payload concurrency : ℕ} {s s' : Pool} {o : LoadOut}
  {tr : List (DurationEvent × LoadOut)}

theorem move_of_steps {l : DurationEvent × LoadOut} (h : Steps deadline payload s l s') :
    Move deadline payload s s' l.2 := by
  obtain ⟨ev, o⟩ := l
  simp only [Steps, Fires] at h
  cases ev with
  | check i now =>
      simp only [step] at h
      split at h
      · next r hw =>
          simp only [onCheck] at h
          split at h
          · next hlt =>
              obtain ⟨rfl, rfl⟩ := Prod.mk.inj h
              exact .begin i now r hw hlt
          · obtain ⟨rfl, rfl⟩ := Prod.mk.inj h
            exact .expire i r hw
      · obtain ⟨rfl, rfl⟩ := Prod.mk.inj h
        exact .serve _ _ .stutter
  | reply i reply =>
      have hserve := s.serves_onReply payload i reply
      rw [show s.onReply payload i reply = (s', o) from h] at hserve
      exact .serve _ _ hserve
  | panic i =>
      have hserve := s.serves_onPanic payload i
      rw [show s.onPanic i = (s', o) from h] at hserve
      exact .serve _ _ hserve
  | join =>
      have hserve := s.serves_onJoin payload
      rw [show s.onJoin = (s', o) from h] at hserve
      exact .serve _ _ hserve

theorem Move.workers (h : Move deadline payload s s' o) :
    WorkersMove payload s.workers s'.workers o := by
  cases h with
  | begin i now r hw hlt => exact .begin i now r hw
  | expire i r hw => exact .finish i r hw
  | serve p o hserve => exact hserve.workers

theorem Move.joins (h : Move deadline payload s s' o) (hj : s.Joins) : s'.Joins := by
  cases h with
  | begin i now r hw hlt => exact Pool.joins_setWorker hw _ _ hj rfl
  | expire i r hw => exact Pool.joins_setWorker hw _ _ hj rfl
  | serve p o hserve => exact hserve.joins hj

theorem joins_of_run (h : Run (Steps deadline payload) (.new concurrency) tr s) : s.Joins :=
  h.invariant (fun _ _ _ hj hstep ↦ (move_of_steps hstep).joins hj) (Pool.joins_new concurrency)

/-- No request is begun at a reading past the deadline. -/
theorem requests_lt (h : Run (Steps deadline payload) (.new concurrency) tr s) :
    ∀ c ∈ requests (tr.map Prod.snd), c.2 < deadline := by
  refine h.history
    (I := fun past _ ↦ ∀ c ∈ requests (past.map Prod.snd), c.2 < deadline) ?_ (by simp [requests])
  rintro past t ⟨ev, o⟩ t' hpast hstep c hc
  rw [List.map_append, List.map_singleton, requests_snoc, List.mem_append] at hc
  rcases hc with hc | hc
  · exact hpast c hc
  · cases move_of_steps hstep with
    | begin i now r hw hlt =>
        obtain rfl : c = (i, now) := by simpa [LoadOut.claim] using hc
        exact hlt
    | expire i r hw => cases hc
    | serve p _ hserve => cases hserve <;> cases hc

end RunDuration

/-! ### When a load returns -/

section Returned

open Pool

variable {size : ℕ} {outs : List LoadOut} {s : Pool}

theorem sum_workers (hsize : s.workers.length = size) {f : Worker → ℕ} {g : ℕ → ℕ}
    (hfg : ∀ i w, s.workers[i]? = some w → f w = g i) :
    s.sum f = ∑ i ∈ Finset.range size, g i := by
  have hmap : s.workers.map f = (List.range size).map g := by
    apply List.ext_getElem (by simp [hsize])
    intro i hi _
    have hlt : i < s.workers.length := by simpa using hi
    simpa using hfg i _ (List.getElem?_eq_getElem hlt)
  rw [Pool.sum, hmap]
  rfl

variable (h : Tallied size outs s.workers) (hj : Joins s) (hret : s.Returned)

include h hj hret

theorem Tallied.merged_success :
    s.merged.success = ∑ i ∈ Finset.range size, successes outs i := by
  rw [hj.success_of_returned hret]
  apply sum_workers h.size_eq
  intro i w hw
  have hfits := h.fits i w hw
  have hsettled := hj.settled_of_returned hret w (List.mem_of_getElem? hw)
  simp only [Worker.mergedSuccess, successes, ← hfits.panicked, ← hfits.success]
  rcases of_decide_eq_true hsettled with hpc | hpc <;> simp [hpc]

theorem Tallied.merged_failure :
    s.merged.failure = ∑ i ∈ Finset.range size, failures outs i := by
  rw [hj.failure_of_returned hret]
  apply sum_workers h.size_eq
  intro i w hw
  have hfits := h.fits i w hw
  have hsettled := hj.settled_of_returned hret w (List.mem_of_getElem? hw)
  simp only [Worker.mergedFailure, Worker.isPanicked, failures, ← hfits.panicked,
    ← hfits.failure]
  rcases of_decide_eq_true hsettled with hpc | hpc <;> simp [hpc]

/-- A worker counts for at most the requests it has begun, and for all of them
unless it has panicked. -/
theorem Tallied.counted {i : ℕ} (hi : i < size) :
    successes outs i + failures outs i ≤ ((requests outs).map Prod.fst).count i ∧
      (outs.any (LoadOut.lossOf i) = false →
        successes outs i + failures outs i = ((requests outs).map Prod.fst).count i) := by
  have hlt : i < s.workers.length := by
    rw [h.size_eq]
    exact hi
  have hw := List.getElem?_eq_getElem hlt
  have hfits := h.fits i _ hw
  have hsettled := hj.settled_of_returned hret _ (List.mem_of_getElem? hw)
  have hbegun := hfits.begun
  simp only [Worker.pending] at hbegun
  simp only [successes, failures, ← hfits.panicked, ← hfits.success, ← hfits.failure]
  rcases of_decide_eq_true hsettled with hpc | hpc
  · simp only [hpc] at hbegun
    simp [hpc, hbegun]
  · simp only [hpc] at hbegun
    simp only [hpc, if_true, hbegun, hfits.panicked.mp hpc]
    refine ⟨by omega, ?_⟩
    intro hcalm
    cases hcalm

theorem Tallied.merged_le :
    s.merged.success + s.merged.failure ≤ (requests outs).length ∧
      (NoPanic outs → s.merged.success + s.merged.failure = (requests outs).length) := by
  have hlength : (requests outs).length =
      ∑ i ∈ Finset.range size, ((requests outs).map Prod.fst).count i := by
    have hall : ∀ i ∈ (((requests outs).map Prod.fst : List ℕ) : Multiset ℕ),
        i ∈ Finset.range size := by
      intro i hi
      exact Finset.mem_range.mpr (h.begun_lt i (by simpa using hi))
    have hcard := Multiset.sum_count_eq_card hall
    simpa using hcard.symm
  rw [h.merged_success hj hret, h.merged_failure hj hret, ← Finset.sum_add_distrib, hlength]
  constructor
  · apply Finset.sum_le_sum
    intro i hi
    exact (h.counted hj hret (Finset.mem_range.mp hi)).1
  · intro hcalm
    apply Finset.sum_congr rfl
    intro i hi
    exact (h.counted hj hret (Finset.mem_range.mp hi)).2 (hcalm i)

end Returned

/-! ## The stages of a run -/

section Trace

variable (tr : List (DriveEvent × DriveOut)) (ev : DriveEvent) (o : DriveOut)

@[simp] theorem probes_snoc : probes (tr ++ [(ev, o)]) = probes tr ++ ev.answer.toList := by
  cases ev <;> simp [probes, DriveEvent.answer]

@[simp] theorem starts_snoc : starts (tr ++ [(ev, o)]) = starts tr ++ o.reading.toList := by
  cases o <;> simp [starts, DriveOut.reading]

@[simp] theorem measured_snoc :
    measured (tr ++ [(ev, o)]) = measured tr ++ o.ofMeasured.toList := by
  cases o <;> simp [measured, DriveOut.ofMeasured]

end Trace

namespace DriveLoad

variable (valueAtQuantile : List ℕ → ℕ → ℕ) (cfg : LoadConfig)

inductive Move : DriveLoad → DriveEvent × DriveOut → DriveLoad → Prop
  | stutter (s : DriveLoad) (ev : DriveEvent) : (s = .probing → ev.answer = none) →
      Move s (ev, .quiet) s
  | reject (answer : ProbeAnswer) (now : ℕ) (e : String) : probe cfg answer = .error e →
      Move .probing (.probe answer now, .quiet) (.returned (.error e))
  | accept (answer : ProbeAnswer) (now : ℕ) : probe cfg answer = .ok () →
      Move .probing (.probe answer now, .quiet) (afterProbe cfg now)
  | start (start now : ℕ) : Move .warmed (.start start now, .started now) (measure cfg start now)
  | warm (deadline : ℕ) (s s' : Pool) (ev : DurationEvent) (o : LoadOut) :
      Move (.warming deadline s) (.time ev, .warm o) (.warming deadline s')
  | count (start n : ℕ) (s s' : RunCount) (ev : LoadEvent) (o : LoadOut) :
      RunCount.Steps n (makePayload cfg.payloadSize).length s (ev, o) s' →
      Move (.counting start n s) (.count ev, .measured o) (.counting start n s')
  | time (start deadline : ℕ) (s s' : Pool) (ev : DurationEvent) (o : LoadOut) :
      RunDuration.Steps deadline (makePayload cfg.payloadSize).length s (ev, o) s' →
      Move (.timing start deadline s) (.time ev, .measured o) (.timing start deadline s')
  | warmDone (deadline : ℕ) (s : Pool) (now : ℕ) :
      Move (.warming deadline s) (.resume now, .quiet) .warmed
  | countDone (start n : ℕ) (s : RunCount) (now : ℕ) : s.Returned →
      Move (.counting start n s) (.resume now, .quiet)
        (summarize valueAtQuantile start now s.merged)
  | timeDone (start deadline : ℕ) (s : Pool) (now : ℕ) : s.Returned →
      Move (.timing start deadline s) (.resume now, .quiet)
        (summarize valueAtQuantile start now s.merged)

variable {valueAtQuantile cfg}

theorem move_of_steps {s s' : DriveLoad} {l : DriveEvent × DriveOut}
    (h : Steps valueAtQuantile cfg s l s') : Move valueAtQuantile cfg s l s' := by
  obtain ⟨ev, o⟩ := l
  simp only [Steps, Fires, step] at h
  split at h
  · next answer now =>
      obtain ⟨rfl, rfl⟩ := Prod.mk.inj h
      unfold onProbe
      split
      · next e he => exact .reject answer now e he
      · next hok => exact .accept answer now hok
  · next start now =>
      obtain ⟨rfl, rfl⟩ := Prod.mk.inj h
      exact .start start now
  · next ev start n r =>
      obtain ⟨rfl, rfl⟩ := Prod.mk.inj h
      exact .count start n r _ ev _ rfl
  · next ev deadline r =>
      obtain ⟨rfl, rfl⟩ := Prod.mk.inj h
      exact .warm deadline r _ ev _
  · next ev start deadline r =>
      obtain ⟨rfl, rfl⟩ := Prod.mk.inj h
      exact .time start deadline r _ ev _ rfl
  · next now deadline r =>
      obtain ⟨rfl, rfl⟩ := Prod.mk.inj h
      split
      · exact .warmDone deadline r now
      · exact .stutter _ _ (by simp)
  · next now start n r =>
      obtain ⟨rfl, rfl⟩ := Prod.mk.inj h
      split
      · next hret => exact .countDone start n r now hret
      · exact .stutter _ _ (by simp)
  · next now start deadline r =>
      obtain ⟨rfl, rfl⟩ := Prod.mk.inj h
      split
      · next hret => exact .timeDone start deadline r now hret
      · exact .stutter _ _ (by simp)
  · next hprobe _ _ _ _ _ _ _ =>
      obtain ⟨rfl, rfl⟩ := Prod.mk.inj h
      refine .stutter _ ev ?_
      intro hs
      cases ev with
      | probe answer now => exact (hprobe answer now rfl hs).elim
      | _ => rfl

/-- The first probe was answered by the payload. -/
def Probed (cfg : LoadConfig) (tr : List (DriveEvent × DriveOut)) : Prop :=
  ∃ answer, (probes tr).head? = some answer ∧ probe cfg answer = .ok ()

/-- The measured load has returned `r`. -/
inductive Load (cfg : LoadConfig) (tr : List (DriveEvent × DriveOut)) : Recorder → Prop
  | count (n : ℕ) (s : RunCount) (past : List (LoadEvent × LoadOut)) :
      cfg.limit = .count n → measured tr = past.map Prod.snd →
      Run (RunCount.Steps n (makePayload cfg.payloadSize).length) (.new cfg.concurrency) past s →
      s.Returned → Load cfg tr s.merged
  | duration (d now : ℕ) (s : Pool) (past : List (DurationEvent × LoadOut)) :
      cfg.limit = .duration d → starts tr = [now] → measured tr = past.map Prod.snd →
      Run (RunDuration.Steps (now + d) (makePayload cfg.payloadSize).length)
        (.new cfg.concurrency) past s →
      s.Returned → Load cfg tr s.merged

variable (valueAtQuantile cfg)

/-- What lies behind each stage. -/
def Past (tr : List (DriveEvent × DriveOut)) : DriveLoad → Prop
  | .probing => probes tr = [] ∧ ∀ l ∈ tr, l.2 = .quiet
  | .warming _ _ => Probed cfg tr ∧ starts tr = [] ∧ measured tr = []
  | .warmed => Probed cfg tr ∧ starts tr = [] ∧ measured tr = []
  | .counting _ n s => Probed cfg tr ∧ cfg.limit = .count n ∧
      ∃ past, measured tr = past.map Prod.snd ∧
        Run (RunCount.Steps n (makePayload cfg.payloadSize).length) (.new cfg.concurrency) past s
  | .timing _ deadline s => Probed cfg tr ∧ ∃ d now, cfg.limit = .duration d ∧
      starts tr = [now] ∧ deadline = now + d ∧ ∃ past, measured tr = past.map Prod.snd ∧
        Run (RunDuration.Steps deadline (makePayload cfg.payloadSize).length)
          (.new cfg.concurrency) past s
  | .returned (.error e) =>
      (∃ answer, (probes tr).head? = some answer ∧ probe cfg answer = .error e) ∧
        ∀ l ∈ tr, l.2 = .quiet
  | .returned (.ok summary) => Probed cfg tr ∧
      ∃ r elapsed, Load cfg tr r ∧ summary = .fromRecorder valueAtQuantile r elapsed

variable {valueAtQuantile cfg} {tr : List (DriveEvent × DriveOut)}

theorem head?_probes_snoc {answer : ProbeAnswer} (h : (probes tr).head? = some answer)
    (l : DriveEvent × DriveOut) : (probes (tr ++ [l])).head? = some answer := by
  rw [probes_snoc, List.head?_append, h]
  rfl

theorem Probed.snoc (h : Probed cfg tr) (l : DriveEvent × DriveOut) : Probed cfg (tr ++ [l]) := by
  obtain ⟨answer, hhead, hok⟩ := h
  exact ⟨answer, head?_probes_snoc hhead l, hok⟩

theorem measured_eq_nil (h : ∀ l ∈ tr, l.2 = .quiet) : measured tr = [] := by
  rw [measured, List.filterMap_eq_nil_iff]
  intro l hl
  rw [h l hl]
  rfl

theorem starts_eq_nil (h : ∀ l ∈ tr, l.2 = .quiet) : starts tr = [] := by
  rw [starts, List.filterMap_eq_nil_iff]
  intro l hl
  rw [h l hl]
  rfl

theorem quiet_snoc (h : ∀ l ∈ tr, l.2 = .quiet) (ev : DriveEvent) :
    ∀ l ∈ tr ++ [(ev, DriveOut.quiet)], l.2 = .quiet := by
  intro l hl
  rcases List.mem_append.mp hl with hl | hl
  · exact h l hl
  · rw [List.mem_singleton.mp hl]

theorem Load.quiet {r : Recorder} (h : Load cfg tr r) (ev : DriveEvent) :
    Load cfg (tr ++ [(ev, .quiet)]) r := by
  cases h with
  | count n s past hlimit hmeasured hrun hret =>
      exact .count n s past hlimit (by simpa [DriveOut.ofMeasured] using hmeasured) hrun hret
  | duration d now s past hlimit hstart hmeasured hrun hret =>
      exact .duration d now s past hlimit (by simpa [DriveOut.reading] using hstart)
        (by simpa [DriveOut.ofMeasured] using hmeasured) hrun hret

/-- An event without effect. -/
theorem Past.stutter {s : DriveLoad} {ev : DriveEvent} (h : Past valueAtQuantile cfg tr s)
    (hev : s = .probing → ev.answer = none) :
    Past valueAtQuantile cfg (tr ++ [(ev, .quiet)]) s := by
  cases s with
  | probing =>
      obtain ⟨hprobes, hquiet⟩ := h
      refine ⟨?_, quiet_snoc hquiet ev⟩
      simp [hprobes, hev rfl]
  | warming deadline r =>
      obtain ⟨hprobed, hstarts, hmeasured⟩ := h
      exact ⟨hprobed.snoc _, by simpa [DriveOut.reading] using hstarts,
        by simpa [DriveOut.ofMeasured] using hmeasured⟩
  | warmed =>
      obtain ⟨hprobed, hstarts, hmeasured⟩ := h
      exact ⟨hprobed.snoc _, by simpa [DriveOut.reading] using hstarts,
        by simpa [DriveOut.ofMeasured] using hmeasured⟩
  | counting start n r =>
      obtain ⟨hprobed, hlimit, past, hmeasured, hrun⟩ := h
      exact ⟨hprobed.snoc _, hlimit, past, by simpa [DriveOut.ofMeasured] using hmeasured, hrun⟩
  | timing start deadline r =>
      obtain ⟨hprobed, d, now, hlimit, hstarts, hdeadline, past, hmeasured, hrun⟩ := h
      exact ⟨hprobed.snoc _, d, now, hlimit, by simpa [DriveOut.reading] using hstarts, hdeadline,
        past, by simpa [DriveOut.ofMeasured] using hmeasured, hrun⟩
  | returned result =>
      cases result with
      | error e =>
          obtain ⟨⟨answer, hhead, herror⟩, hquiet⟩ := h
          exact ⟨⟨answer, head?_probes_snoc hhead _, herror⟩, quiet_snoc hquiet ev⟩
      | ok summary =>
          obtain ⟨hprobed, r, elapsed, hload, rfl⟩ := h
          exact ⟨hprobed.snoc _, r, elapsed, hload.quiet ev, rfl⟩

theorem Move.past {s s' : DriveLoad} {l : DriveEvent × DriveOut}
    (hmove : Move valueAtQuantile cfg s l s') (h : Past valueAtQuantile cfg tr s) :
    Past valueAtQuantile cfg (tr ++ [l]) s' := by
  cases hmove with
  | stutter _ ev hev => exact h.stutter hev
  | reject answer now e he =>
      obtain ⟨hprobes, hquiet⟩ := h
      refine ⟨⟨answer, ?_, he⟩, quiet_snoc hquiet _⟩
      simp [hprobes, DriveEvent.answer]
  | accept answer now hok =>
      obtain ⟨hprobes, hquiet⟩ := h
      have hprobed : Probed cfg (tr ++ [(.probe answer now, .quiet)]) :=
        ⟨answer, by simp [hprobes, DriveEvent.answer], hok⟩
      have hafter := quiet_snoc hquiet (.probe answer now)
      unfold afterProbe
      split
      · exact ⟨hprobed, starts_eq_nil hafter, measured_eq_nil hafter⟩
      · exact ⟨hprobed, starts_eq_nil hafter, measured_eq_nil hafter⟩
  | start start now =>
      obtain ⟨hprobed, hstarts, hmeasured⟩ := h
      unfold measure
      split
      · next n hlimit =>
          exact ⟨hprobed.snoc _, hlimit, [], by simp [hmeasured, DriveOut.ofMeasured], .nil _⟩
      · next d hlimit =>
          exact ⟨hprobed.snoc _, d, now, hlimit, by simp [hstarts, DriveOut.reading], rfl, [],
            by simp [hmeasured, DriveOut.ofMeasured], .nil _⟩
  | warm deadline r r' ev o =>
      obtain ⟨hprobed, hstarts, hmeasured⟩ := h
      exact ⟨hprobed.snoc _, by simp [hstarts, DriveOut.reading],
        by simp [hmeasured, DriveOut.ofMeasured]⟩
  | count start n r r' ev o hstep =>
      obtain ⟨hprobed, hlimit, past, hmeasured, hrun⟩ := h
      exact ⟨hprobed.snoc _, hlimit, past ++ [(ev, o)],
        by simp [hmeasured, DriveOut.ofMeasured], hrun.snoc hstep⟩
  | time start deadline r r' ev o hstep =>
      obtain ⟨hprobed, d, now, hlimit, hstarts, hdeadline, past, hmeasured, hrun⟩ := h
      exact ⟨hprobed.snoc _, d, now, hlimit, by simp [hstarts, DriveOut.reading], hdeadline,
        past ++ [(ev, o)], by simp [hmeasured, DriveOut.ofMeasured], hrun.snoc hstep⟩
  | warmDone deadline r now =>
      obtain ⟨hprobed, hstarts, hmeasured⟩ := h
      exact ⟨hprobed.snoc _, by simp [hstarts, DriveOut.reading],
        by simp [hmeasured, DriveOut.ofMeasured]⟩
  | countDone start n r now hret =>
      obtain ⟨hprobed, hlimit, past, hmeasured, hrun⟩ := h
      have hload : Load cfg tr r.merged := .count n r past hlimit hmeasured hrun hret
      exact ⟨hprobed.snoc _, r.merged, now - start, hload.quiet _, rfl⟩
  | timeDone start deadline r now hret =>
      obtain ⟨hprobed, d, begun, hlimit, hstarts, rfl, past, hmeasured, hrun⟩ := h
      have hload : Load cfg tr r.merged :=
        .duration d begun r past hlimit hstarts hmeasured hrun hret
      exact ⟨hprobed.snoc _, r.merged, now - start, hload.quiet _, rfl⟩

theorem past_of_run {s : DriveLoad} (h : Run (Steps valueAtQuantile cfg) .probing tr s) :
    Past valueAtQuantile cfg tr s := by
  refine h.history ?_ ⟨rfl, by simp⟩
  intro past t l t' hpast hstep
  exact (move_of_steps hstep).past hpast

/-! ## The summary -/

theorem answer_of_probe {answer : ProbeAnswer} (h : probe cfg answer = .ok ()) :
    answer = .answered (makePayload cfg.payloadSize) := by
  cases answer with
  | timedOut => cases h
  | failed e => cases h
  | answered payload =>
      simp only [probe] at h
      split at h
      · cases h
      · next hpayload => rw [not_not.mp hpayload]

/-- What a recorder must be for the outputs of the workers. -/
structure Accounts (size : ℕ) (outs : List LoadOut) (r : Recorder) : Prop where
  success : r.success = ∑ i ∈ Finset.range size, successes outs i
  failure : r.failure = ∑ i ∈ Finset.range size, failures outs i
  total_le : r.success + r.failure ≤ (requests outs).length
  total_eq : NoPanic outs → r.success + r.failure = (requests outs).length

theorem accounts {size : ℕ} {outs : List LoadOut} {s : Pool}
    (h : Tallied size outs s.workers) (hj : s.Joins) (hret : s.Returned) :
    Accounts size outs s.merged :=
  ⟨h.merged_success hj hret, h.merged_failure hj hret, (h.merged_le hj hret).1,
    (h.merged_le hj hret).2⟩

section RunCount

variable {n payload concurrency : ℕ} {s : RunCount} {past : List (LoadEvent × LoadOut)}

theorem tallied_count (h : Run (RunCount.Steps n payload) (.new concurrency) past s) :
    Tallied (max concurrency 1) (past.map Prod.snd) s.workers :=
  tallied_of_run (f := fun t : RunCount ↦ t.workers)
    (fun _ _ _ hstep ↦ (RunCount.move_of_steps hstep).workers) h rfl

theorem joins_count (h : Run (RunCount.Steps n payload) (.new concurrency) past s) : s.Joins :=
  h.invariant (I := fun t ↦ t.Joins) (fun _ _ _ hj hstep ↦ (RunCount.move_of_steps hstep).joins hj)
    (Pool.joins_new concurrency)

theorem tickets_eq_requests (past : List (LoadEvent × LoadOut)) :
    tickets past = (requests (past.map Prod.snd)).map Prod.snd := by
  rw [tickets, claims, requests, List.filterMap_map]
  rfl

theorem calm_of_noPanic (h : Tallied (max concurrency 1) (past.map Prod.snd) s.workers)
    (hcalm : NoPanic (past.map Prod.snd)) : ∀ w ∈ s.workers, w.pc ≠ .panicked := by
  intro w hw hpc
  obtain ⟨i, hi⟩ := List.mem_iff_getElem?.mp hw
  have hlost := (h.fits i w hi).panicked.mp hpc
  rw [hcalm i] at hlost
  cases hlost

end RunCount

theorem tallied_duration {deadline payload concurrency : ℕ} {s : Pool}
    {past : List (DurationEvent × LoadOut)}
    (h : Run (RunDuration.Steps deadline payload) (.new concurrency) past s) :
    Tallied (max concurrency 1) (past.map Prod.snd) s.workers :=
  tallied_of_run (f := Pool.workers)
    (fun _ _ _ hstep ↦ (RunDuration.move_of_steps hstep).workers) h rfl

theorem Load.accounts {r : Recorder} (h : Load cfg tr r) :
    Accounts (max cfg.concurrency 1) (measured tr) r := by
  cases h with
  | count n s past hlimit hmeasured hrun hret =>
      rw [hmeasured]
      exact DriveLoad.accounts (tallied_count hrun) (joins_count hrun) hret
  | duration d now s past hlimit hstart hmeasured hrun hret =>
      rw [hmeasured]
      exact DriveLoad.accounts (tallied_duration hrun) (RunDuration.joins_of_run hrun) hret

/-- The requests of the measured load keep the limit.  Where the counter cannot
wrap they hold different tickets below `n`, and all of them if no worker has
panicked; under a deadline each was begun at a reading before it. -/
def Limited (cfg : LoadConfig) (tr : List (DriveEvent × DriveOut)) : Prop :=
  match cfg.limit with
  | .count n => n + max cfg.concurrency 1 ≤ 2 ^ 64 →
      ((requests (measured tr)).map Prod.snd).Nodup ∧
        (∀ t ∈ (requests (measured tr)).map Prod.snd, t < n) ∧
        (NoPanic (measured tr) → (requests (measured tr)).map Prod.snd = List.range n)
  | .duration d => ∃ now, starts tr = [now] ∧ ∀ c ∈ requests (measured tr), c.2 < now + d

theorem Load.limited {r : Recorder} (h : Load cfg tr r) : Limited cfg tr := by
  unfold Limited
  cases h with
  | count n s past hlimit hmeasured hrun hret =>
      rw [hlimit, hmeasured, ← tickets_eq_requests]
      intro hsize
      obtain ⟨hbooks, hjoins⟩ := RunCount.books_of_run hsize hrun
      obtain ⟨hnodup, hlt⟩ := hbooks.tickets_lt
      refine ⟨hnodup, hlt, ?_⟩
      intro hcalm
      exact hbooks.tickets_eq hjoins hret (calm_of_noPanic (tallied_count hrun) hcalm) (by omega)
  | duration d now s past hlimit hstart hmeasured hrun hret =>
      rw [hlimit, hmeasured]
      exact ⟨now, hstart, RunDuration.requests_lt hrun⟩

end DriveLoad

open DriveLoad in
/-- `drive_load` fails only by its probe, before any load is issued.  When it
returns a summary, the probe was echoed byte for byte, and whatever the warm-up
and the interleaving of the workers did, the counts are those of the measured
load alone: the results of every worker that did not panic, and one failure for
each that did.  They count no more than the requests begun, all of them when no
worker panicked, and these keep the limit. -/
theorem drive_load_accounting (valueAtQuantile : List ℕ → ℕ → ℕ) (cfg : LoadConfig)
    {s : DriveLoad} {tr : List (DriveEvent × DriveOut)}
    (h : Run (Steps valueAtQuantile cfg) .probing tr s) :
    (∀ e, s = .returned (.error e) →
      (∃ answer, (probes tr).head? = some answer ∧ probe cfg answer = .error e) ∧
        ∀ l ∈ tr, l.2 = .quiet) ∧
      ∀ summary, s = .returned (.ok summary) →
        (probes tr).head? = some (.answered (makePayload cfg.payloadSize)) ∧
          summary.success =
            ∑ i ∈ Finset.range (max cfg.concurrency 1), successes (measured tr) i ∧
          summary.failure =
            ∑ i ∈ Finset.range (max cfg.concurrency 1), failures (measured tr) i ∧
          summary.total = summary.success + summary.failure ∧
          summary.total ≤ (requests (measured tr)).length ∧
          (NoPanic (measured tr) → summary.total = (requests (measured tr)).length) ∧
          Limited cfg tr := by
  have hpast := past_of_run h
  constructor
  · rintro e rfl
    exact hpast
  · rintro summary rfl
    obtain ⟨⟨answer, hhead, hok⟩, r, elapsed, hload, rfl⟩ := hpast
    obtain ⟨hsuccess, hfailure, hle, heq⟩ := hload.accounts
    rw [answer_of_probe hok] at hhead
    exact ⟨hhead, hsuccess, hfailure, rfl, hle, heq, hload.limited⟩

open DriveLoad in
/-- A warm-up with one request; then worker 1 gets a reply of the wrong length
and panics in its next request, while worker 0 is answered twice. -/
theorem drive_load_accounting_panicked :
    let cfg : LoadConfig := ⟨2, 2, .duration 10, some 5, 1000⟩
    let es : List DriveEvent := [.probe (.answered [0, 1]) 100,
      .time (.check 0 101), .time (.reply 0 (.answered 2 7)), .time (.check 0 200),
      .time (.check 1 200), .time .join, .time .join, .resume 200, .start 300 301,
      .time (.check 0 302), .time (.check 1 303), .time (.reply 1 (.answered 1 4)),
      .time (.reply 0 (.answered 2 3)), .time (.check 1 304), .time (.check 0 310),
      .time (.panic 1), .time (.reply 0 (.answered 2 9)), .time (.check 0 312), .time .join,
      .time .join, .resume 320]
    let tr := labels (step (fun hist _ ↦ hist.length) cfg) .probing es
    ∃ summary, exec (step (fun hist _ ↦ hist.length) cfg) .probing es =
        .returned (.ok summary) ∧
      summary.success = 2 ∧ summary.failure = 1 ∧ (requests (measured tr)).length = 4 ∧
      summary.total ≤ 4 ∧ Limited cfg tr := by
  intro cfg es tr
  have hend : exec (step (fun hist _ ↦ hist.length) cfg) .probing es =
      .returned (.ok ⟨3, 2, 1, 20, some 2, some 2, some 2⟩) := by decide +kernel
  have hrun := run_exec (step (fun hist _ ↦ hist.length) cfg) .probing es
  obtain ⟨-, hok⟩ := drive_load_accounting (fun hist _ ↦ hist.length) cfg hrun
  obtain ⟨-, -, -, -, hle, -, hlimited⟩ := hok _ hend
  have hbegun : (requests (measured tr)).length = 4 := by decide +kernel
  rw [hbegun] at hle
  exact ⟨_, hend, rfl, rfl, hbegun, hle, hlimited⟩

end TonicH3
