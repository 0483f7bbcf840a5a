import TonicH3.Generations

/-!
# Who keeps a retired connection open

The last clone of the h3 `SendRequest` of a connection keeps the connection
open.  Retiring drops the cached clone; what is left are the clones of the
request futures.  A future gives its clone up when it returns the response, so
the response body that is still being read owns none.
-/

namespace TonicH3

open EventRun

/-- The future has not completed, or the response it returned has a body that
has been neither read to its end nor dropped. -/
def Phase.inProgress : Phase → Bool
  | .opening _ | .eager | .receiving => true
  | .responded b => !b.finished
  | _ => false

namespace World

def clones (w : World) (g : Conn) : ℕ :=
  (w.sender.sendRequest.toList ++ w.exchanges.filterMap (·.sendRequest)).count g

theorem clones_pos_iff {w : World} {g : Conn} :
    0 < w.clones g ↔ w.sender.sendRequest = some g ∨ ∃ x ∈ w.exchanges, x.sendRequest = some g := by
  rw [clones, List.count_pos_iff]
  simp

variable [Http3] {w w' : World}

theorem Inv.sendRequest_eq_some_iff (hinv : w.Inv) {x : Exchange} (hx : x ∈ w.exchanges)
    {g : Conn} : x.sendRequest = some g ↔ x.conn = g ∧ x.phase.inFlight = true := by
  obtain ⟨sc, hxinv⟩ := hinv.exchange x hx
  rw [hxinv.sender]
  cases x.phase.inFlight <;> simp

theorem Inv.retire_poll (hinv : w.Inv) {g : Conn} (hsr : w.sender.sendRequest = some g)
    (hset : w.flagSet w.sender.closing = true) {a : ConnectAnswers} {out : Output}
    (h : w.step (.pollReady a) = (w', out)) :
    w'.exchanges = w.exchanges ∧ w'.sender.sendRequest ≠ some g := by
  obtain ⟨r, acts, -, hspec⟩ := hinv.polled_of_steps h
  obtain ⟨x, hx, hconn, hrep⟩ := hinv.cause_of_flagSet hsr hset
  refine ⟨hspec.exchanges_eq, ?_⟩
  rw [← hconn]
  exact hinv.polled_reported hx hrep hspec

end World

open World

/-- A `poll_ready` that retires a connection because its flag is set leaves
every exchange in progress with a clone of its own exactly if no exchange of
that connection has returned a response whose body is not read to its end.  The
connection itself keeps a clone exactly if the future of one of its exchanges
has not completed. -/
theorem retire_keeps_clones [Http3] (uri : Uri) {w w' : World} {g : Conn}
    (h : Reachable Steps (World.new uri) w) (hsr : w.sender.sendRequest = some g)
    (hset : w.flagSet w.sender.closing = true) {a : ConnectAnswers} {out : Output}
    (hstep : w.step (.pollReady a) = (w', out)) :
    ((∀ x ∈ w'.exchanges, x.conn = g → x.phase.inProgress = true → x.sendRequest = some g) ↔
      ∀ x ∈ w.exchanges, x.conn = g → ∀ b, x.phase = .responded b → b.finished = true) ∧
    (0 < w'.clones g ↔ ∃ x ∈ w.exchanges, x.conn = g ∧ x.phase.inFlight = true) := by
  have hinv := inv_of_reachable h
  obtain ⟨hexchanges, hdropped⟩ := hinv.retire_poll hsr hset hstep
  rw [clones_pos_iff, hexchanges]
  refine ⟨⟨?_, ?_⟩, ⟨?_, ?_⟩⟩
  · intro hkeeps x hx hconn b hphase
    by_contra hunread
    have hprogress : x.phase.inProgress = true := by simpa [hphase, Phase.inProgress] using hunread
    have howned := (hinv.sendRequest_eq_some_iff hx).mp (hkeeps x hx hconn hprogress)
    rw [hphase] at howned
    cases howned.2
  · intro hread x hx hconn hprogress
    refine (hinv.sendRequest_eq_some_iff hx).mpr ⟨hconn, ?_⟩
    cases hphase : x.phase with
    | responded b => simp [hphase, Phase.inProgress, hread x hx hconn b hphase] at hprogress
    | opening bd => rfl
    | eager => rfl
    | receiving => rfl
    | failed site e => simp [hphase, Phase.inProgress] at hprogress
    | abandoned => simp [hphase, Phase.inProgress] at hprogress
    | bodyDropped => simp [hphase, Phase.inProgress] at hprogress
  · rintro (hcached | ⟨x, hx, howned⟩)
    · exact absurd hcached hdropped
    · exact ⟨x, hx, (hinv.sendRequest_eq_some_iff hx).mp howned⟩
  · rintro ⟨x, hx, howned⟩
    exact .inr ⟨x, hx, (hinv.sendRequest_eq_some_iff hx).mpr howned⟩

/-- The events up to a response whose body is being read, and a second request
that the peer rejects because it is going away. -/
def goawayWhileReading : List Event :=
  [.pollReady connects, .call emptyRequest, .call emptyRequest,
    .exchange 0 (.sendRequest .ok), .exchange 0 (.upload ⟨true, .ok⟩),
    .exchange 0 (.upload ⟨true, .ok⟩), .exchange 0 (.upload ⟨true, .ok⟩),
    .exchange 0 (.recvResponse .ok), .exchange 1 (.sendRequest (.err .remoteClosing))]

theorem retire_closes_reading :
    letI := documentedHttp3
    let w := exec World.step (World.new localUri) goawayWhileReading
    let w' := (w.step (.pollReady ⟨.pending, .pending⟩)).1
    w.sender.sendRequest = some 0 ∧ w.driverRunning 0 = true ∧
      w.flagSet w.sender.closing = true ∧ w'.sender.sendRequest = none ∧ w'.clones 0 = 0 ∧
      ∃ x ∈ w'.exchanges, x.conn = 0 ∧ x.phase.inProgress = true ∧ x.sendRequest = none := by
  refine ⟨rfl, rfl, by decide +kernel, by decide +kernel, by decide +kernel, ?_⟩
  decide +kernel

theorem retire_keeps_clones_awaited :
    letI := documentedHttp3
    let w := exec World.step (World.new localUri) [.pollReady connects, .call emptyRequest,
      .call emptyRequest, .exchange 1 (.sendRequest (.err .remoteClosing))]
    0 < (w.step (.pollReady ⟨.pending, .pending⟩)).1.clones 0 := by
  let _ := documentedHttp3
  intro w
  have hspec := retire_keeps_clones localUri (w := w) (g := 0)
    (a := ⟨.pending, .pending⟩) (reachable_exec _ _ _) rfl (by decide +kernel) rfl
  exact hspec.2.mpr ⟨_, List.mem_cons_self, rfl, rfl⟩

end TonicH3
