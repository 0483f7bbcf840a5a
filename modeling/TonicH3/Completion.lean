import TonicH3.EagerUpload
import TonicH3.ReceiveHalf
import TonicH3.Rpc

/-!
# A request can always be completed

From every reachable state in which neither end has failed, a request can be
driven to its end: the caller gets the whole response.  The upload need not
move for it, so a service may answer before it has read the request, and a
request body that never yields again does not hold back the response.
-/

namespace TonicH3

open EventRun

/-- A body as `http_body` has it: data, then at most one set of trailers. -/
structure BodyScript.WellFormed (sc : BodyScript) : Prop where
  ending : sc.ending = .done
  frames : ∃ (ds : List Bytes) (t : Option HeaderMap),
    sc.frames = ds.map .data ++ t.toList.map .trailers

theorem flatten_map_data (ds : List Bytes) :
    Frame.flatten (ds.map .data) = ds.flatten.map .byte := by
  induction ds with
  | nil => rfl
  | cons d ds ih =>
      have hcons : Frame.flatten ((d :: ds).map .data) =
          d.map .byte ++ Frame.flatten (ds.map .data) := by
        simp [Frame.flatten, Frame.items]
      rw [hcons, ih]
      simp

/-- The stream of a message: its bytes, then its trailers. -/
def messageItems (bs : Bytes) (t : Option HeaderMap) : List WireItem :=
  bs.map .byte ++ t.toList.map .trailers

theorem BodyScript.WellFormed.flatten {sc : BodyScript} (h : sc.WellFormed) :
    ∃ bs t, Frame.flatten sc.frames = messageItems bs t := by
  obtain ⟨ds, t, hframes⟩ := h.frames
  refine ⟨ds.flatten, t, ?_⟩
  rw [hframes, Frame.flatten_append, flatten_map_data]
  cases t <;> simp [Frame.items, messageItems]

/-! ## The server sends its response -/

/-- The source of the body and the transport answer at once. -/
def Answers.prompt : Answers := ⟨true, .ok⟩

namespace ServeRequest

theorem completes_finishing (g : SendResetGuard) (bd : Body) :
    ∃ w, Steps (.sendingBody (.running .finishing g bd)) (.body .prompt)
      (.exited w (some bd) (.returned (.ok ()))) ∧ w.status = .finished :=
  ⟨_, rfl, rfl⟩

theorem completes_nextFrame {g : SendResetGuard} {bd : Body} (hend : bd.ending = .done) :
    ∃ n w bd', Run Steps (.sendingBody (.running .nextFrame g bd))
      (List.replicate n (.body .prompt)) (.exited w (some bd') (.returned (.ok ()))) ∧
      w.status = .finished := by
  obtain ⟨yielded, rest, ending, ended⟩ := bd
  obtain rfl : ending = .done := hend
  induction rest generalizing g yielded with
  | nil =>
      obtain ⟨w, hstep, hfin⟩ := completes_finishing g ⟨yielded, [], .done, true⟩
      exact ⟨2, w, _, .cons rfl (.single hstep), hfin⟩
  | cons f fs ih =>
      obtain ⟨n, w, bd', hrun, hfin⟩ := ih (yielded ++ [f])
        (g := g.onStream fun s ↦ (s.put (writeOf f)).record (.write f true))
      exact ⟨n + 2, w, bd', .cons rfl (.cons rfl hrun), hfin⟩

theorem completes {fut : SendFuture} (hlive : fut.isOver = false)
    (hend : fut.source.ending = .done) :
    ∃ n w bd', Run Steps (.sendingBody fut) (List.replicate n (.body .prompt))
      (.exited w (some bd') (.returned (.ok ()))) ∧ w.status = .finished := by
  cases fut with
  | unpolled w bd =>
      obtain ⟨n, w', bd', hrun, hfin⟩ := completes_nextFrame (g := .new w) hend
      exact ⟨n + 1, w', bd', .cons rfl hrun, hfin⟩
  | running pc g bd =>
      cases pc with
      | nextFrame => exact completes_nextFrame hend
      | sending f rest =>
          obtain ⟨n, w', bd', hrun, hfin⟩ := completes_nextFrame
            (g := g.onStream fun s ↦ (s.put rest).record (.write f true)) hend
          exact ⟨n + 1, w', bd', .cons rfl hrun, hfin⟩
      | finishing =>
          obtain ⟨w, hstep, hfin⟩ := completes_finishing g bd
          exact ⟨1, w, bd, .single hstep, hfin⟩
  | returned w bd res => cases hlive
  | dropped w bd => cases hlive

/-- A body send that is over has been left. -/
def Live (s : ServeRequest) : Prop := ∀ fut, s = .sendingBody fut → fut.isOver = false

theorem live_afterBody {fut fut' : SendFuture} {signal : Signal}
    (h : SendMove .borrowed fut fut' signal) : Live (afterBody fut') := by
  obtain ⟨hresult, hover⟩ := h.result_eq
  intro fut'' heq
  cases hsignal : signal.result with
  | none =>
      rw [hsignal] at hover
      cases fut' with
      | returned w bd res => cases hover
      | dropped w bd => cases hover
      | unpolled w bd =>
          cases heq
          rfl
      | running pc g bd =>
          cases heq
          rfl
  | some res =>
      rw [hsignal] at hresult
      obtain ⟨w, bd, rfl⟩ := SendFuture.of_result hresult
      cases heq

theorem live_step {s s' : ServeRequest} {ev : ServeEvent} (h : Steps s ev s') : Live s' := by
  cases s with
  | calling w =>
      cases ev with
      | service a => cases a <;> (obtain rfl := Option.some.inj h; rintro fut ⟨⟩)
      | drop =>
          obtain rfl := Option.some.inj h
          rintro fut ⟨⟩
      | sendResponse a => cases h
      | body a => cases h
  | responding w bd =>
      cases ev with
      | sendResponse a =>
          cases a with
          | ok =>
              obtain rfl := Option.some.inj h
              rintro fut ⟨⟩
              rfl
          | pending =>
              obtain rfl := Option.some.inj h
              rintro fut ⟨⟩
          | err e =>
              obtain rfl := Option.some.inj h
              rintro fut ⟨⟩
      | drop =>
          obtain rfl := Option.some.inj h
          rintro fut ⟨⟩
      | service a => cases h
      | body a => cases h
  | sendingBody fut =>
      cases ev with
      | body a =>
          simp only [Steps, step] at h
          split at h
          · cases h
          · next hlive =>
              obtain rfl := Option.some.inj h
              exact live_afterBody (sendH3ServerBody_move a (by simpa using hlive))
      | drop =>
          simp only [Steps, step] at h
          split at h
          · obtain rfl := Option.some.inj h
            rintro fut ⟨⟩
          · cases h
      | service a => cases h
      | sendResponse a => cases h
  | exited w res exit => cases ev <;> cases h

end ServeRequest

/-! ## The eager poll comes to its end -/

/-- The source of the body does not answer, and the transport takes nothing. -/
def Answers.stalled : Answers := ⟨false, .pending 0⟩

namespace Exchange

/-- The upload is not over while it is polled eagerly. -/
def EagerLive (x : Exchange) : Prop :=
  x.phase = .eager → ∃ fut, x.bodyFut = some fut ∧ fut.isOver = false

variable [Http3] {sc : BodyScript} {x x' : Exchange} {o : ExchangeOut}

theorem Move.eagerLive (h : Move x x' o) (hx : x.EagerLive) : x'.EagerLive := by
  intro hphase
  cases h with
  | stutter => exact hx hphase
  | opened bd hp => exact ⟨_, rfl, rfl⟩
  | rejected bd e hp => cases hphase
  | eagerly a fut fut' signal hfut hlive hp hstep =>
      have hmove := sendH3ClientBody_move x.cancelResolved a hlive
      rw [hstep] at hmove
      cases signal with
      | again => exact ⟨fut', rfl, hmove.result_eq.2⟩
      | pending => cases hphase
      | cancelled => cases hphase
      | finished => cases hphase
      | failed e => cases hphase
  | background a fut fut' signal hfut hlive hp hstep => exact absurd hphase hp
  | uploadDropped hp => exact absurd hphase hp
  | responded r hp hr => cases hphase
  | refused r e streamOpen hp hr => cases hphase
  | futureDropped hp => cases hphase
  | bodyPolled b p hp => cases hphase
  | bodyDropped b hp => cases hphase

/-- Two polls of a stalled upload end the eager phase. -/
theorem receiving_of_eager (hinv : Inv sc x) (hlive : x.EagerLive) (hphase : x.phase = .eager) :
    ((x.step (.upload .stalled)).1.step (.upload .stalled)).1.phase = .receiving := by
  obtain ⟨fut, hfut, hover⟩ := hlive hphase
  have hcancel : x.cancelTx = .frame := by
    have hinv := hinv.phase
    rw [hphase] at hinv
    exact hinv.1
  obtain ⟨conn, closing, phase, sender, bodyFut, tx, r⟩ := x
  simp only at hfut hphase hcancel
  subst hfut hphase hcancel
  cases fut with
  | unpolled w bd => rfl
  | running pc g bd =>
      cases pc with
      | nextFrame => rfl
      | sending f rest => rfl
      | finishing => rfl
  | returned w bd res => cases hover
  | dropped w bd => cases hover

/-- A body that the exchange did not just hand out, and that was not just
polled, is the one it had. -/
theorem responded_step {ev : ExchangeEvent} {b : H3IncomingClient RecvHalf}
    (h : (x.step ev).1.phase = .responded b) (hev : ∀ a, ev ≠ .pollBody a) :
    x.phase = .responded b ∨ b.dataDone = false := by
  cases ev with
  | sendRequest a => cases hphase : x.phase <;> cases a <;> simp_all [step, onSendRequest]
  | upload a => exact .inl (onUpload_responded h)
  | dropUpload =>
      refine .inl ?_
      simp only [step, onDropUpload] at h
      split at h
      · exact h
      · exact h
  | recvResponse a =>
      cases hphase : x.phase with
      | receiving =>
          cases hr : x.r with
          | none => simp [step, hphase, hr] at h
          | some r =>
              cases a with
              | pending => simp [step, hphase, hr, onRecvResponse] at h
              | err e streamOpen => simp [step, hphase, hr, onRecvResponse] at h
              | ok =>
                  refine .inr ?_
                  simp only [step, hphase, hr, onRecvResponse, dropFrame_phase] at h
                  cases h
                  rfl
      | _ => simp_all [step]
  | dropFuture => cases hphase : x.phase <;> simp_all [step]
  | pollBody a => exact absurd rfl (hev a)
  | dropBody => cases hphase : x.phase <;> simp_all [step]

end Exchange

/-! ## The switch to the trailers -/

theorem Pipe.of_recvData_none {p p' : Pipe} (h : p.recvData = (.ready (.ok none), p')) :
    (p.status = .finished ∧ p.undelivered = []) ∨
      ∃ t rest, p.undelivered = .trailers t :: rest := by
  cases hnext : p.next with
  | hold => simp [recvData, hnext] at h
  | data n => simp [recvData, hnext] at h
  | lost e => simp [recvData, hnext] at h
  | advance =>
      cases hrest : p.undelivered with
      | nil =>
          refine .inl ⟨?_, rfl⟩
          rcases p.atEnd_cases (α := Bytes) with hend | ⟨e, hend⟩ | ⟨hfin, -⟩
          · simp [recvData, hnext, hrest, hend] at h
          · simp [recvData, hnext, hrest, hend] at h
          · exact hfin
      | cons item rest =>
          cases item with
          | byte b => simp [recvData, hnext, hrest] at h
          | trailers t => exact .inr ⟨t, rest, rfl⟩

theorem Incoming.pollFrame_data {b : Incoming Pipe} (hdone : b.dataDone = false)
    {res : Poll (Except StreamError (Option Bytes))} {p : Pipe} (hp : b.s.recvData = (res, p)) :
    b.pollFrame.body.s = p ∧ b.pollFrame.body.dataDone = decide (res = .ready (.ok none)) := by
  rcases res with _ | (e | _ | d) <;>
    simp [pollFrame, hdone, RecvStream.pollRecvData, hp]

theorem Incoming.pollFrame_trailers {b : Incoming Pipe} (hdone : b.dataDone = true)
    {res : Poll (Except StreamError (Option HeaderMap))} {p : Pipe}
    (hp : b.s.recvTrailers = (res, p)) :
    b.pollFrame.body.s = p ∧ b.pollFrame.body.dataDone = true ∧
      b.pollFrame.isEnd = decide (res = .ready (.ok none)) := by
  rcases res with _ | (e | _ | t) <;>
    simp [pollFrame, hdone, RecvStream.pollRecvTrailers, hp, FramePoll.isEnd]

/-- A body that has switched to the trailers has read past all data: it is at
the end of a finished stream, or not before its trailers. -/
def Switched (w : SendStream) (b : Incoming Pipe) : Prop :=
  b.dataDone = true → (w.status = .finished ∧ w.wire.length ≤ b.s.delivered) ∨
    ∃ k t, w.wire[k]? = some (.trailers t) ∧ k ≤ b.s.delivered

section Switching

variable {w w' : SendStream} {b b' : Incoming Pipe}

theorem Switched.evolves (h : Switched w b) (hw : Evolves w w') : Switched w' b := by
  intro hdone
  rcases h hdone with ⟨hfin, hall⟩ | ⟨k, t, hk, hle⟩
  · rw [hw.2 hfin]
    exact .inl ⟨hfin, hall⟩
  · refine .inr ⟨k, t, ?_, hle⟩
    obtain ⟨rest, hwire⟩ := hw.1
    rw [← hwire, List.getElem?_append_left (List.getElem?_eq_some_iff.mp hk).1, hk]

theorem Switched.mono (h : Switched w b) (hdone : b'.dataDone = b.dataDone)
    (hle : b.s.delivered ≤ b'.s.delivered) : Switched w b' := by
  intro hdone'
  rcases h (hdone ▸ hdone') with ⟨hfin, hall⟩ | ⟨k, t, hk, hkle⟩
  · exact .inl ⟨hfin, Nat.le_trans hall hle⟩
  · exact .inr ⟨k, t, hk, Nat.le_trans hkle hle⟩

theorem Switched.pollFrame (h : Switched w b) (d : Delivery) :
    Switched w (b.load w d).pollFrame.body := by
  cases hdone : b.dataDone with
  | false =>
      generalize hp : (b.s.load w d).recvData = res
      obtain ⟨res, p⟩ := res
      obtain ⟨hs, hswitch⟩ := Incoming.pollFrame_data (b := b.load w d) hdone hp
      intro hdone'
      obtain rfl : res = .ready (.ok none) := by simpa [hswitch] using hdone'
      have hdelivered : p.delivered = b.s.delivered := by
        rcases (b.s.load w d).recvData_cases with hp' | ⟨e, hp'⟩ | hp' | ⟨n, hp'⟩ <;>
          rw [hp] at hp' <;> cases hp'
        rfl
      rw [hs, hdelivered]
      rcases Pipe.of_recvData_none hp with ⟨hfin, hall⟩ | ⟨t, rest, hrest⟩
      · exact .inl ⟨hfin, List.drop_eq_nil_iff.mp hall⟩
      · refine .inr ⟨b.s.delivered, t, ?_, Nat.le_refl _⟩
        have hdrop : w.wire.drop b.s.delivered = .trailers t :: rest := hrest
        rw [← List.head?_drop, hdrop]
        rfl
  | true =>
      have hmono : ∀ {res p}, (b.s.load w d).recvTrailers = (res, p) →
          b.s.delivered ≤ p.delivered → Switched w (b.load w d).pollFrame.body := by
        intro res p hp hle
        obtain ⟨hs, hdone', -⟩ := Incoming.pollFrame_trailers (b := b.load w d) hdone hp
        exact h.mono (hdone'.trans hdone.symm) (hs ▸ hle)
      rcases (b.s.load w d).recvTrailers_cases with hp | ⟨e, hp⟩ | ⟨-, -, hp⟩ | ⟨t, rest, -, hp⟩
      · exact hmono hp (Nat.le_refl _)
      · exact hmono hp (Nat.le_refl _)
      · exact hmono hp (Nat.le_refl _)
      · exact hmono hp (Nat.le_succ _)

end Switching

section Shape

variable (bs : Bytes) (t : Option HeaderMap)

theorem leadingBytes_messageItems {n : ℕ} (hn : bs.length ≤ n) :
    leadingBytes n (messageItems bs t) = bs := by
  induction bs generalizing n with
  | nil => cases n <;> cases t <;> rfl
  | cons b bs ih =>
      obtain ⟨n, rfl⟩ : ∃ k, n = k + 1 := ⟨n - 1, by simp at hn; omega⟩
      have hrest := ih (n := n) (by simpa using hn)
      simpa [messageItems, leadingBytes] using hrest

theorem drop_messageItems (k : ℕ) :
    ∃ t', (messageItems bs t).drop k = messageItems (bs.drop k) t' := by
  unfold messageItems
  rw [List.drop_append, ← List.map_drop, List.length_map]
  cases hk : k - bs.length with
  | zero => exact ⟨t, rfl⟩
  | succ j => exact ⟨none, by cases t <;> simp⟩

/-- Trailers come after all bytes. -/
theorem length_le_of_trailers {k : ℕ} {t' : HeaderMap}
    (h : (messageItems bs t)[k]? = some (.trailers t')) : bs.length ≤ k := by
  by_contra hlt
  rw [messageItems, List.getElem?_append_left (by simpa using hlt)] at h
  simp at h

end Shape

/-- The upload does not move, and the service answers with `reply`. -/
def RpcEvent.Helps (reply : BodyScript) : RpcEvent → Prop
  | .client (.upload a) => a = .stalled
  | .server (.service (.returns sc)) => sc = reply
  | _ => True

theorem RpcEvent.Helps.response_eq {reply sc : BodyScript} {ev : RpcEvent} (h : ev.Helps reply)
    (hev : ev.response = some sc) : sc = reply := by
  unfold RpcEvent.response at hev
  split at hev
  · cases hev
    exact h
  · cases hev

namespace Rpc

/-- What reaching completion needs to know of a reachable state besides `Inv`. -/
structure Tidy (m : Rpc) : Prop where
  eager : m.request.sender.EagerLive
  half : m.request.sender.HalfInv
  server : ∀ s, m.response.sender = some s → s.Live
  switched : ∀ b, m.request.sender.phase = .responded b →
    Switched (responseStream m.response.sender) ⟨m.response.reader, b.dataDone, b.finished⟩

theorem tidy_new (conn : Conn) (closing : Flag) (sc : BodyScript) :
    (new conn closing sc).Tidy := by
  refine ⟨?_, Exchange.halfInv_new conn closing sc, ?_, ?_⟩
  · intro hphase
    cases hphase
  · intro s hs
    cases hs
  · intro b hphase
    cases hphase

variable {sc reply : BodyScript} {tr : List RpcEvent} {m m' : Rpc} {ev : RpcEvent}

theorem withServer_self {s : ServeRequest} (hs : m.response.sender = some s) :
    m.withServer s = m := by
  obtain ⟨request, ⟨sender, reader, received, ended⟩⟩ := m
  cases hs
  rfl

theorem Inv.isSome_bodyFut (h : Inv sc tr m) (hphase : m.request.sender.phase = .receiving ∨
      ∃ b, m.request.sender.phase = .responded b) : m.request.sender.bodyFut.isSome = true := by
  have hinv := h.exchange.phase
  rcases hphase with hphase | ⟨b, hphase⟩
  · rw [hphase] at hinv
    obtain ⟨-, fut, hfut, -⟩ := hinv
    simp [hfut]
  · rw [hphase] at hinv
    obtain ⟨-, -, fut, hfut, -⟩ := hinv
    simp [hfut]

theorem Inv.server_evolves (h : Inv sc tr m) {s s' : ServeRequest} {sev : ServeEvent}
    (hs : m.response.sender = some s) (hstep : s.Steps sev s') : Evolves s.stream s'.stream := by
  have hserver := h.server
  rw [hs] at hserver
  rcases hserver with ⟨hquiet, -⟩ | hanswering
  · exact (hquiet.server_step hstep).1
  · exact (hanswering.server_step hstep).1

variable [Http3]

theorem Tidy.exchange (h : Tidy m) (hinv : Inv sc tr m) (cev : ExchangeEvent) :
    (m.request.sender.step cev).1.EagerLive ∧ (m.request.sender.step cev).1.HalfInv :=
  ⟨(m.request.sender.step_move cev).eagerLive h.eager,
    (Exchange.silent_step (l := (cev, (m.request.sender.step cev).2)) hinv.exchange h.half rfl).1⟩

theorem Tidy.step (h : Tidy m) (hinv : Inv sc tr m) (hstep : Steps m ev m') : Tidy m' := by
  obtain ⟨cev, rfl, hoffers, rfl⟩ | ⟨rfl, hnone, rfl⟩ | ⟨sev, s, s', rfl, hs, hs', rfl⟩ |
    ⟨d, rfl, rfl⟩ | ⟨d, b, rfl, hphase, rfl⟩ := steps_cases hstep
  · obtain ⟨heager, hhalf⟩ := h.exchange hinv cev
    refine ⟨heager, hhalf, h.server, ?_⟩
    intro b hphase
    have hev : ∀ a, cev ≠ .pollBody a := by
      rintro a rfl
      cases hoffers
    rcases Exchange.responded_step hphase hev with hsame | hdone
    · exact h.switched b hsame
    · intro hdone'
      rw [hdone] at hdone'
      cases hdone'
  · refine ⟨h.eager, h.half, ?_, ?_⟩
    · rintro s ⟨⟩ fut ⟨⟩
    · intro b hphase
      have hswitched := h.switched b hphase
      rw [hnone] at hswitched
      exact hswitched
  · refine ⟨h.eager, h.half, ?_, ?_⟩
    · rintro s'' ⟨⟩
      exact ServeRequest.live_step hs'
    · intro b hphase
      have hswitched := h.switched b hphase
      rw [hs] at hswitched
      exact hswitched.evolves (hinv.server_evolves hs hs')
  · exact ⟨h.eager, h.half, h.server, h.switched⟩
  · obtain ⟨heager, hhalf⟩ := h.exchange hinv (.pollBody
      ⟨(m.response.reader.load (responseStream m.response.sender) d).recvData.1,
        (m.response.reader.load (responseStream m.response.sender) d).recvTrailers.1⟩)
    obtain ⟨⟨b', hphase', hdone⟩, hresponse⟩ := onReadResponse_spec hphase d
    refine ⟨heager, hhalf, ?_, ?_⟩
    · rw [hresponse]
      exact h.server
    · intro b'' hb''
      rw [hphase'] at hb''
      cases hb''
      rw [hresponse]
      exact ((h.switched b hphase).pollFrame d).mono hdone (Nat.le_refl _)

theorem invariants_of_run {conn : Conn} {closing : Flag}
    (h : Run Steps (.new conn closing sc) tr m) : Inv sc tr m ∧ Tidy m := by
  refine h.history (I := fun tr m ↦ Inv sc tr m ∧ Tidy m) ?_
    ⟨inv_new conn closing sc, tidy_new conn closing sc⟩
  rintro tr m ev m' ⟨hinv, htidy⟩ hstep
  exact ⟨hinv.step hstep, htidy.step hinv hstep⟩

/-! ## Reading to the end -/

/-- A continuation by events that help. -/
def Leads (reply : BodyScript) (m m' : Rpc) : Prop :=
  ∃ es, Run Steps m es m' ∧ ∀ ev ∈ es, ev.Helps reply

theorem Leads.refl (m : Rpc) : Leads reply m m := ⟨[], .nil m, by simp⟩

theorem Leads.trans {n : Rpc} (h : Leads reply m n) (h' : Leads reply n m') :
    Leads reply m m' := by
  obtain ⟨es, hrun, hes⟩ := h
  obtain ⟨es', hrun', hes'⟩ := h'
  refine ⟨es ++ es', hrun.append hrun', ?_⟩
  intro ev hev
  rcases List.mem_append.mp hev with hev | hev
  · exact hes ev hev
  · exact hes' ev hev

theorem Leads.of_step (h : Steps m ev m') (hev : ev.Helps reply) : Leads reply m m' := by
  refine ⟨[ev], .single h, ?_⟩
  intro ev' hev'
  rw [List.mem_singleton.mp hev']
  exact hev

theorem leads_read {b : H3IncomingClient RecvHalf}
    (hphase : m.request.sender.phase = .responded b) (d : Delivery) :
    Leads reply m (m.onReadResponse b d) := by
  have hstep : Steps m (.readResponse d) (m.onReadResponse b d) := by
    simp [Steps, step, hphase]
  exact .of_step hstep trivial

/-- The response is finished and what is left of it are at most the trailers. -/
structure Reading (m : Rpc) (done : Bool) (t : Option HeaderMap) : Prop where
  phase : ∃ b, m.request.sender.phase = .responded b ∧ b.dataDone = done
  finished : (responseStream m.response.sender).status = .finished
  rest : (responseStream m.response.sender).wire.drop m.response.reader.delivered =
    messageItems [] t

/-- The pipe as the next poll finds it. -/
def pipe (m : Rpc) (d : Delivery) : Pipe :=
  m.response.reader.load (responseStream m.response.sender) d

theorem onReadResponse_data {b : H3IncomingClient RecvHalf} {d : Delivery}
    {res : Poll (Except StreamError (Option Bytes))} {p : Pipe}
    (hphase : m.request.sender.phase = .responded b) (hdone : b.dataDone = false)
    (hp : (m.pipe d).recvData = (res, p)) :
    (∃ b', (m.onReadResponse b d).request.sender.phase = .responded b' ∧
        b'.dataDone = decide (res = .ready (.ok none))) ∧
      (m.onReadResponse b d).response.sender = m.response.sender ∧
      (m.onReadResponse b d).response.reader = p := by
  obtain ⟨⟨b', hphase', hdone'⟩, hresponse⟩ := onReadResponse_spec hphase d
  obtain ⟨hs, hswitch⟩ :=
    Incoming.pollFrame_data (b := ⟨m.pipe d, b.dataDone, b.finished⟩) hdone hp
  exact ⟨⟨b', hphase', hdone'.trans hswitch⟩, by rw [hresponse], by rw [hresponse]; exact hs⟩

theorem onReadResponse_trailers {b : H3IncomingClient RecvHalf} {d : Delivery}
    {res : Poll (Except StreamError (Option HeaderMap))} {p : Pipe}
    (hphase : m.request.sender.phase = .responded b) (hdone : b.dataDone = true)
    (hp : (m.pipe d).recvTrailers = (res, p)) :
    (∃ b', (m.onReadResponse b d).request.sender.phase = .responded b' ∧ b'.dataDone = true) ∧
      (m.onReadResponse b d).response.sender = m.response.sender ∧
      (m.onReadResponse b d).response.reader = p ∧
      (m.onReadResponse b d).response.ended =
        (m.response.ended || decide (res = .ready (.ok none))) := by
  obtain ⟨⟨b', hphase', hdone'⟩, hresponse⟩ := onReadResponse_spec hphase d
  obtain ⟨hs, hswitch, hend⟩ :=
    Incoming.pollFrame_trailers (b := ⟨m.pipe d, b.dataDone, b.finished⟩) hdone hp
  refine ⟨⟨b', hphase', hdone'.trans hswitch⟩, by rw [hresponse], by rw [hresponse]; exact hs, ?_⟩
  rw [hresponse, ← hend]
  rfl

theorem Reading.switch {t : Option HeaderMap} (h : Reading m false t) :
    ∃ m', Leads reply m m' ∧ Reading m' true t := by
  obtain ⟨⟨b, hphase, hdone⟩, hfin, hrest⟩ := h
  have hp : (m.pipe .advance).recvData = (.ready (.ok none), m.pipe .advance) := by
    cases t <;> simp [pipe, Pipe.recvData, Pipe.load, Pipe.undelivered, Pipe.atEnd, hrest,
      messageItems, hfin]
  obtain ⟨⟨b', hphase', hdone'⟩, hsender, hreader⟩ := onReadResponse_data hphase hdone hp
  refine ⟨_, leads_read hphase .advance, ⟨b', hphase', by rw [hdone']; rfl⟩, ?_, ?_⟩
  · rw [hsender]
    exact hfin
  · rw [hsender, hreader]
    exact hrest

theorem Reading.trailers {t : HeaderMap} (h : Reading m true (some t)) :
    ∃ m', Leads reply m m' ∧ Reading m' true none := by
  obtain ⟨⟨b, hphase, hdone⟩, hfin, hrest⟩ := h
  have hp : (m.pipe .advance).recvTrailers = (.ready (.ok (some t)),
      { m.pipe .advance with delivered := m.response.reader.delivered + 1 }) := by
    simp [pipe, Pipe.recvTrailers, Pipe.load, Pipe.undelivered, hrest, messageItems]
  obtain ⟨hphase', hsender, hreader, -⟩ := onReadResponse_trailers hphase hdone hp
  refine ⟨_, leads_read hphase .advance, hphase', ?_, ?_⟩
  · rw [hsender]
    exact hfin
  · rw [hsender, hreader]
    have htail := congrArg (List.drop 1) hrest
    rw [List.drop_drop] at htail
    simpa [messageItems] using htail

theorem Reading.ends (h : Reading m true none) :
    ∃ m', Leads reply m m' ∧ m'.response.ended = true := by
  obtain ⟨⟨b, hphase, hdone⟩, hfin, hrest⟩ := h
  have hp : (m.pipe .advance).recvTrailers = (.ready (.ok none), m.pipe .advance) := by
    simp [pipe, Pipe.recvTrailers, Pipe.load, Pipe.undelivered, Pipe.atEnd, hrest,
      messageItems, hfin]
  obtain ⟨-, -, -, hend⟩ := onReadResponse_trailers hphase hdone hp
  refine ⟨_, leads_read hphase .advance, ?_⟩
  rw [hend]
  simp

theorem Reading.leads_end {done : Bool} {t : Option HeaderMap} (h : Reading m done t) :
    ∃ m', Leads reply m m' ∧ m'.response.ended = true := by
  have hdone : ∀ {m t}, Reading m true t → ∃ m', Leads reply m m' ∧ m'.response.ended = true := by
    intro m t h
    cases t with
    | none => exact h.ends
    | some t =>
        obtain ⟨n, hlead, hn⟩ := h.trailers
        obtain ⟨m', hlead', hend⟩ := hn.ends
        exact ⟨m', hlead.trans hlead', hend⟩
  cases done with
  | true => exact hdone h
  | false =>
      obtain ⟨n, hlead, hn⟩ := h.switch
      obtain ⟨m', hlead', hend⟩ := hdone hn
      exact ⟨m', hlead.trans hlead', hend⟩

variable (reply) in
theorem reading_of_responded {b : H3IncomingClient RecvHalf} {bs : Bytes} {t : Option HeaderMap}
    (hphase : m.request.sender.phase = .responded b)
    (hfin : (responseStream m.response.sender).status = .finished)
    (hwire : (responseStream m.response.sender).wire = messageItems bs t)
    (hswitched : Switched (responseStream m.response.sender)
      ⟨m.response.reader, b.dataDone, b.finished⟩) :
    ∃ m' done t', Leads reply m m' ∧ Reading m' done t' := by
  obtain ⟨t', hdrop⟩ := drop_messageItems bs t m.response.reader.delivered
  rw [← hwire] at hdrop
  cases hdone : b.dataDone with
  | true =>
      have hpast : bs.length ≤ m.response.reader.delivered := by
        rcases hswitched hdone with ⟨-, hall⟩ | ⟨k, t'', hk, hle⟩
        · rw [hwire] at hall
          simp only [messageItems, List.length_append, List.length_map] at hall
          omega
        · rw [hwire] at hk
          exact Nat.le_trans (length_le_of_trailers bs t hk) hle
      refine ⟨m, true, t', .refl m, ⟨b, hphase, hdone⟩, hfin, ?_⟩
      rw [hdrop, List.drop_eq_nil_of_le hpast]
  | false =>
      have hchunk : leadingBytes bs.length (m.pipe (.data bs.length)).undelivered =
          bs.drop m.response.reader.delivered := by
        have hrest : (m.pipe (.data bs.length)).undelivered = _ := hdrop
        rw [hrest]
        exact leadingBytes_messageItems _ t' (by simp)
      have hp : (m.pipe (.data bs.length)).recvData =
          (.ready (.ok (some (bs.drop m.response.reader.delivered))),
            { m.pipe (.data bs.length) with
              delivered := m.response.reader.delivered +
                (bs.drop m.response.reader.delivered).length }) := by
        simp only [Pipe.recvData, ← hchunk]
        rfl
      obtain ⟨⟨b', hphase', hdone'⟩, hsender, hreader⟩ := onReadResponse_data hphase hdone hp
      refine ⟨_, false, t', leads_read hphase (.data bs.length), ⟨b', hphase', by simp [hdone']⟩,
        ?_, ?_⟩
      · rw [hsender]
        exact hfin
      · rw [hsender, hreader, ← List.drop_drop, hdrop]
        simp [messageItems]

/-! ## Getting there -/

theorem leads_client (cev : ExchangeEvent) (hoffers : m.offers cev = true)
    (hhelps : (RpcEvent.client cev).Helps reply) :
    Leads reply m (m.withClient (m.request.sender.step cev).1) := by
  have hstep : Steps m (.client cev) (m.withClient (m.request.sender.step cev).1) := by
    simp [Steps, step, hoffers]
  exact .of_step hstep hhelps

variable (reply) in
/-- The exchange gets to wait for its response. -/
theorem leads_opened (hinv : Inv sc tr m) (htidy : Tidy m)
    (halive : m.request.sender.phase.isAbandoned = false) :
    ∃ x, Leads reply m (m.withClient x) ∧ (x.phase = .receiving ∨ ∃ b, x.phase = .responded b) := by
  have heager : ∀ {m : Rpc}, Exchange.Inv sc m.request.sender → m.request.sender.EagerLive →
      m.request.sender.phase = .eager → ∃ x, Leads reply m (m.withClient x) ∧
        (x.phase = .receiving ∨ ∃ b, x.phase = .responded b) := by
    intro m hinv hlive hphase
    have hfirst : Leads reply m (m.withClient (m.request.sender.step (.upload .stalled)).1) :=
      leads_client (.upload .stalled) rfl rfl
    exact ⟨_, hfirst.trans (leads_client (.upload .stalled) rfl rfl),
      .inl (Exchange.receiving_of_eager hinv hlive hphase)⟩
  cases hphase : m.request.sender.phase with
  | opening bd =>
      have hmove := m.request.sender.step_move (.sendRequest .ok)
      have hopened : (m.request.sender.step (.sendRequest .ok)).1.phase = .eager := by
        simp [Exchange.step, hphase, Exchange.onSendRequest]
      obtain ⟨x, hlead, hx⟩ := heager (m := m.withClient _) (hmove.inv hinv.exchange)
        (hmove.eagerLive htidy.eager) hopened
      exact ⟨x, (leads_client (.sendRequest .ok) rfl trivial).trans hlead, hx⟩
  | eager => exact heager hinv.exchange htidy.eager hphase
  | receiving => exact ⟨m.request.sender, .refl m, .inl hphase⟩
  | responded b => exact ⟨m.request.sender, .refl m, .inr ⟨b, hphase⟩⟩
  | failed site e => simp [hphase, Phase.isAbandoned] at halive
  | abandoned => simp [hphase, Phase.isAbandoned] at halive
  | bodyDropped => simp [hphase, Phase.isAbandoned] at halive

theorem leads_server {s s' : ServeRequest} {evs : List ServeEvent}
    (hs : m.response.sender = some s) (h : Run ServeRequest.Steps s evs s')
    (hevs : ∀ sev ∈ evs, (RpcEvent.server sev).Helps reply) : Leads reply m (m.withServer s') := by
  induction h generalizing m with
  | nil s =>
      rw [withServer_self hs]
      exact .refl m
  | @cons s u s' sev evs hstep _ ih =>
      have hfirst : Steps m (.server sev) (m.withServer u) := by
        have hu : s.step sev = some u := hstep
        simp [Steps, step, hs, hu]
      have hrest : Leads reply (m.withServer u) (m.withServer s') :=
        ih (m := m.withServer u) rfl (fun sev hsev ↦ hevs sev (List.mem_cons_of_mem _ hsev))
      exact (Leads.of_step hfirst (hevs sev (by simp))).trans hrest

end Rpc

namespace ServeRequest

/-- The headers and the whole of a well-formed response were sent. -/
def Replied (s : ServeRequest) : Prop :=
  ∃ w bd exit, s = .exited w (some bd) exit ∧ w.status = .finished ∧ .headers true ∈ w.ops ∧
    bd.script.WellFormed

/-- Nothing has gone wrong on the way to a well-formed response. -/
def CanReply : ServeRequest → Prop
  | .calling _ => True
  | .responding _ bd => bd.script.WellFormed
  | .sendingBody fut => fut.source.script.WellFormed
  | .exited w res exit => Replied (.exited w res exit)

theorem replied_of_sending {sc : BodyScript} {fut : SendFuture} (hsend : SendInv withHeaders sc fut)
    (hlive : fut.isOver = false) (hwf : fut.source.script.WellFormed) :
    ∃ n s', Run Steps (.sendingBody fut) (List.replicate n (.body .prompt)) s' ∧ s'.Replied := by
  obtain ⟨n, w, bd, hrun, hfin⟩ := completes hlive hwf.ending
  have hkept : Guarded sc (.exited w (some bd) (.returned (.ok ()))) :=
    hrun.invariant (fun _ _ _ hI h ↦ guarded_step h hI) hsend
  obtain ⟨⟨code, hreset⟩ | ⟨-, bd', rest, -, -, -, -, -, hops⟩, bd'', hbd, hscript⟩ := hkept
  · rw [hreset] at hfin
    cases hfin
  · cases hbd
    refine ⟨n, _, hrun, w, bd, _, rfl, hfin, ?_, ?_⟩
    · rw [hops]
      simp
    · rw [hscript, ← hsend.source_script]
      exact hwf

end ServeRequest

namespace Rpc

variable {sc reply : BodyScript} {tr : List RpcEvent} {m m' : Rpc} {ev : RpcEvent} [Http3]

theorem leads_replied_of_sending {fut : SendFuture} {sc' : BodyScript}
    (hs : m.response.sender = some (.sendingBody fut))
    (hsend : SendInv ServeRequest.withHeaders sc' fut) (hlive : fut.isOver = false)
    (hwf : fut.source.script.WellFormed) :
    ∃ s', Leads reply m (m.withServer s') ∧ s'.Replied := by
  obtain ⟨n, s', hrun, hreplied⟩ := ServeRequest.replied_of_sending hsend hlive hwf
  refine ⟨s', leads_server hs hrun ?_, hreplied⟩
  intro sev hsev
  rw [(List.mem_replicate.mp hsev).2]
  trivial

theorem leads_replied_of_responding {sc' : BodyScript}
    (hs : m.response.sender = some (.responding .new (.new sc'))) (hwf : sc'.WellFormed) :
    ∃ s', Leads reply m (m.withServer s') ∧ s'.Replied := by
  have hstep : ServeRequest.Steps (.responding .new (.new sc')) (.sendResponse .ok)
      (.sendingBody (.unpolled ServeRequest.withHeaders (.new sc'))) := rfl
  have hsend : SendInv ServeRequest.withHeaders sc'
      (.unpolled ServeRequest.withHeaders (.new sc')) := ⟨rfl, rfl⟩
  obtain ⟨s', hlead, hreplied⟩ := leads_replied_of_sending
    (m := m.withServer (.sendingBody (.unpolled ServeRequest.withHeaders (.new sc')))) rfl hsend
    rfl hwf
  exact ⟨s', (leads_server hs (.single hstep) (by simp [RpcEvent.Helps])).trans hlead, hreplied⟩

theorem leads_replied_of_calling (hs : m.response.sender = some (.calling .new))
    (hwf : reply.WellFormed) : ∃ s', Leads reply m (m.withServer s') ∧ s'.Replied := by
  have hstep : ServeRequest.Steps (.calling .new) (.service (.returns reply))
      (.responding .new (.new reply)) := rfl
  obtain ⟨s', hlead, hreplied⟩ := leads_replied_of_responding
    (m := m.withServer (.responding .new (.new reply))) rfl hwf
  exact ⟨s', (leads_server hs (.single hstep) (by simp [RpcEvent.Helps])).trans hlead, hreplied⟩

/-- The server gets its response out. -/
theorem leads_replied (hinv : Inv sc tr m) (htidy : Tidy m)
    (hopened : m.request.sender.bodyFut.isSome = true) (hwf : reply.WellFormed)
    (hcan : ∀ s, m.response.sender = some s → s.CanReply) :
    ∃ s', Leads reply m (m.withServer s') ∧ s'.Replied := by
  cases hs : m.response.sender with
  | none =>
      have haccept : Steps m .accept (m.withServer .new) := by simp [Steps, step, hs, hopened]
      obtain ⟨s', hlead, hreplied⟩ := leads_replied_of_calling (m := m.withServer .new) rfl hwf
      exact ⟨s', (Leads.of_step haccept trivial).trans hlead, hreplied⟩
  | some s =>
      have hcan := hcan s hs
      have hserver := hinv.server
      rw [hs] at hserver
      rcases hserver with ⟨hquiet, -⟩ | ⟨s', sc', hs', -, hguarded, -⟩
      · cases hquiet with
        | calling hr => exact leads_replied_of_calling hs hwf
        | responding sc' hr => exact leads_replied_of_responding hs hcan
        | left w res exit hwire hops =>
            refine ⟨_, ?_, hcan⟩
            rw [withServer_self hs]
            exact .refl m
      · obtain rfl := Option.some.inj hs'
        cases s with
        | calling w => exact hguarded.elim
        | responding w bd => exact hguarded.elim
        | sendingBody fut =>
            exact leads_replied_of_sending hs hguarded (htidy.server _ hs fut rfl) hcan
        | exited w res exit =>
            refine ⟨_, ?_, hcan⟩
            rw [withServer_self hs]
            exact .refl m

variable (reply) in
/-- The caller gets hold of the response body. -/
theorem leads_responded (htidy : Tidy m) {s : ServeRequest}
    (hs : m.response.sender = some s) (hreplied : s.Replied)
    (hphase : m.request.sender.phase = .receiving ∨ ∃ b, m.request.sender.phase = .responded b) :
    ∃ x, Leads reply m (m.withClient x) ∧ ∃ b, x.phase = .responded b := by
  rcases hphase with hphase | hphase
  · have hoffers : m.offers (.recvResponse .ok) = true := by
      obtain ⟨w, bd, exit, rfl, -, hops, -⟩ := hreplied
      simpa [offers, headersSent, hs, responseStream, ServeRequest.stream] using hops
    have hr : m.request.sender.r = some .new := by
      have hhalf := htidy.half
      rw [Exchange.HalfInv, hphase] at hhalf
      exact hhalf
    refine ⟨_, leads_client (.recvResponse .ok) hoffers trivial, H3IncomingClient.new .new true, ?_⟩
    simp [Exchange.step, hphase, hr, Exchange.onRecvResponse]
  · exact ⟨m.request.sender, .refl m, hphase⟩

theorem Leads.invariants {conn : Conn} {closing : Flag} (h : Leads reply m m')
    (hrun : Run Steps (.new conn closing sc) tr m) : ∃ tr', Inv sc tr' m' ∧ Tidy m' := by
  obtain ⟨es, hes, -⟩ := h
  exact ⟨tr ++ es, invariants_of_run (hrun.append hes)⟩

theorem leads_end (hinv : Inv sc tr m) (htidy : Tidy m) {s : ServeRequest}
    (hs : m.response.sender = some s) (hreplied : s.Replied)
    (hphase : ∃ b, m.request.sender.phase = .responded b) :
    ∃ m', Leads reply m m' ∧ m'.response.ended = true := by
  obtain ⟨b, hphase⟩ := hphase
  obtain ⟨w, bd, exit, rfl, hfin, hops, hwf⟩ := hreplied
  have hswitched := htidy.switched b hphase
  rcases hinv.server with ⟨-, hheard⟩ | ⟨s, sc', hs', -, hguarded, -⟩
  · exact absurd (.inl ⟨b, hphase⟩) hheard
  rw [hs] at hs'
  obtain rfl := Option.some.inj hs'
  obtain ⟨-, hwhole⟩ := ServeRequest.whole_of_guarded hguarded hfin
  obtain ⟨-, bd', hbd, rfl⟩ := hguarded
  cases hbd
  obtain ⟨bs, t, hitems⟩ := hwf.flatten
  obtain ⟨n, done, t', hlead, hreading⟩ := reading_of_responded reply hphase
    (by rw [hs]; exact hfin) (by rw [hs]; exact hwhole.trans hitems) hswitched
  obtain ⟨m', hlead', hended⟩ := hreading.leads_end
  exact ⟨m', hlead.trans hlead', hended⟩

end Rpc

/-- From every reachable state in which the exchange has not been given up and
the server can still reply, the caller can get a whole response: the one the
service has returned, or any well-formed one it returns now.  It takes no step
of the upload but the stalled polls that end its eager phase.

The states in which the caller has read a stream error are among them: a tunnel
may deliver after `Delivery.lost`, and from there the way on is that of a
transport that recovers. -/
theorem rpc_can_complete [Http3] {conn : Conn} {closing : Flag} {sc : BodyScript}
    {tr : List RpcEvent} {m : Rpc} (h : Run Rpc.Steps (.new conn closing sc) tr m)
    (halive : m.request.sender.phase.isAbandoned = false)
    (hcan : ∀ s, m.response.sender = some s → s.CanReply) {reply : BodyScript}
    (hreply : reply.WellFormed) :
    ∃ es m' sc', Run Rpc.Steps m es m' ∧ (∀ a, .client (.upload a) ∈ es → a = .stalled) ∧
      responses (tr ++ es) = [sc'] ∧ (responses tr = [] → sc' = reply) ∧
      m'.response.ended = true ∧
      Frame.flatten m'.response.received = Frame.flatten sc'.frames := by
  obtain ⟨hinv, htidy⟩ := Rpc.invariants_of_run h
  obtain ⟨x, hlead₁, hx⟩ := Rpc.leads_opened reply hinv htidy halive
  obtain ⟨tr₁, hinv₁, htidy₁⟩ := hlead₁.invariants h
  obtain ⟨s, hlead₂, hs⟩ := Rpc.leads_replied hinv₁ htidy₁ (hinv₁.isSome_bodyFut hx) hreply hcan
  obtain ⟨tr₂, hinv₂, htidy₂⟩ := (hlead₁.trans hlead₂).invariants h
  obtain ⟨y, hlead₃, hy⟩ := Rpc.leads_responded reply htidy₂ rfl hs hx
  obtain ⟨tr₃, hinv₃, htidy₃⟩ := ((hlead₁.trans hlead₂).trans hlead₃).invariants h
  obtain ⟨m', hlead₄, hended⟩ := Rpc.leads_end hinv₃ htidy₃ rfl hs hy
  obtain ⟨es, hes, hhelps⟩ := ((hlead₁.trans hlead₂).trans hlead₃).trans hlead₄
  obtain ⟨hinv', -⟩ := Rpc.invariants_of_run (h.append hes)
  rcases hinv'.server with ⟨-, hheard⟩ | ⟨s', sc', hs', hanswered, hguarded, -⟩
  · exact absurd (.inr (.inr hended)) hheard
  have hresponse := hinv'.response
  rw [Rpc.ResponseFaithful, hs'] at hresponse
  obtain ⟨hfin, hreceived⟩ := hresponse.received_of_ended hended
  obtain ⟨-, hwhole⟩ := ServeRequest.whole_of_guarded hguarded hfin
  refine ⟨es, m', sc', hes, ?_, hanswered.1, ?_, hended, hreceived.trans hwhole⟩
  · intro a ha
    exact hhelps _ ha
  · intro hnone
    have hmem : sc' ∈ responses es := by
      have hall := hanswered.1
      rw [responses, List.filterMap_append, ← responses, ← responses, hnone] at hall
      simpa using congrArg (sc' ∈ ·) hall
    obtain ⟨ev, hev, hsc'⟩ := List.mem_filterMap.mp hmem
    exact (hhelps ev hev).response_eq hsc'

theorem rpc_can_complete_unread :
    letI := documentedHttp3
    ∃ es m', Run Rpc.Steps (.new 0 0 ⟨[], .never⟩) es m' ∧ m'.response.ended = true ∧
      Frame.flatten m'.response.received = Frame.flatten [.data [7]] := by
  let _ := documentedHttp3
  have hreply : BodyScript.WellFormed ⟨[.data [7]], .done⟩ := ⟨rfl, [[7]], none, rfl⟩
  obtain ⟨es, m', sc', hrun, -, -, hsc', hended, hreceived⟩ :=
    rpc_can_complete (.nil (Rpc.new 0 0 ⟨[], .never⟩)) rfl (by rintro s ⟨⟩) hreply
  rw [hsc' rfl] at hreceived
  exact ⟨es, m', hrun, hended, hreceived⟩

end TonicH3
