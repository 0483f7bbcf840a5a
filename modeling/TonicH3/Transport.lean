import TonicH3.ClientBody
import TonicH3.EventRun
import TonicH3.ServerBody

/-!
# The stream between a sender and a reader

What a send half has put on its stream reaches the reader in order, re-chunked
in any way.  The reader is told that the stream has ended only if the sending
half was finished, explicitly or by being dropped without a reset; a reset
reaches it as a stream error, and may discard what was not delivered yet.

A tunnel is a sender, the body that reads from its stream, and a record of what
the body has yielded.  `Faithful` is what every tunnel keeps: the frames yielded
are the part of the stream delivered so far, and the end of the stream was
reported only after all of it.
-/

namespace TonicH3

open EventRun

/-- What the transport does with the next read. -/
inductive Delivery
  | hold
  | data (n : ℕ)
  | advance
  | lost (e : StreamError)
  deriving DecidableEq, Repr

structure Pipe where
  wire : List WireItem
  status : SendStatus
  delivered : ℕ
  next : Delivery
  deriving DecidableEq, Repr

def leadingBytes : ℕ → List WireItem → Bytes
  | n + 1, .byte b :: rest => b :: leadingBytes n rest
  | _, _ => []

theorem map_leadingBytes (n : ℕ) (items : List WireItem) :
    (leadingBytes n items).map .byte = items.take (leadingBytes n items).length := by
  induction n generalizing items with
  | zero => simp [leadingBytes]
  | succ n ih =>
      cases items with
      | nil => simp [leadingBytes]
      | cons item rest =>
          cases item with
          | byte b => simp [leadingBytes, ih rest]
          | trailers t => simp [leadingBytes]

namespace Pipe

def new : Pipe := ⟨[], .active, 0, .hold⟩

def undelivered (p : Pipe) : List WireItem := p.wire.drop p.delivered

def atEnd {α : Type*} (p : Pipe) : Poll (Except StreamError (Option α)) :=
  match p.status with
  | .active => .pending
  | .finished => .ready (.ok none)
  | .reset _ => .ready (.error (.remoteReset "stream reset by peer"))

def recvData (p : Pipe) : Poll (Except StreamError (Option Bytes)) × Pipe :=
  match p.next with
  | .hold => (.pending, p)
  | .lost e => (.ready (.error e), p)
  | .data n =>
      let chunk := leadingBytes n p.undelivered
      (.ready (.ok (some chunk)), { p with delivered := p.delivered + chunk.length })
  | .advance =>
      match p.undelivered with
      | .byte _ :: _ => (.pending, p)
      | .trailers _ :: _ => (.ready (.ok none), p)
      | [] => (p.atEnd, p)

def recvTrailers (p : Pipe) : Poll (Except StreamError (Option HeaderMap)) × Pipe :=
  match p.next with
  | .hold => (.pending, p)
  | .lost e => (.ready (.error e), p)
  | .data _ => (.pending, p)
  | .advance =>
      match p.undelivered with
      | .byte _ :: _ => (.pending, p)
      | .trailers t :: _ => (.ready (.ok (some t)), { p with delivered := p.delivered + 1 })
      | [] => (p.atEnd, p)

instance : RecvStream Pipe where
  pollRecvData := recvData
  pollRecvTrailers := recvTrailers
  stopSending _ p := p

theorem atEnd_cases {α : Type*} (p : Pipe) :
    (p.atEnd : Poll (Except StreamError (Option α))) = .pending ∨
      (∃ e, p.atEnd (α := α) = .ready (.error e)) ∨
      (p.status = .finished ∧ p.atEnd (α := α) = .ready (.ok none)) := by
  cases hstatus : p.status with
  | active => exact .inl (by simp [atEnd, hstatus])
  | finished => exact .inr (.inr ⟨rfl, by simp [atEnd, hstatus]⟩)
  | reset code => exact .inr (.inl ⟨_, by simp [atEnd, hstatus]; rfl⟩)

theorem recvData_cases (p : Pipe) :
    p.recvData = (.pending, p) ∨ (∃ e, p.recvData = (.ready (.error e), p)) ∨
      p.recvData = (.ready (.ok none), p) ∨
      ∃ n, p.recvData = (.ready (.ok (some (leadingBytes n p.undelivered))),
        { p with delivered := p.delivered + (leadingBytes n p.undelivered).length }) := by
  cases hnext : p.next with
  | hold => exact .inl (by simp [recvData, hnext])
  | lost e => exact .inr (.inl ⟨e, by simp [recvData, hnext]⟩)
  | data n => exact .inr (.inr (.inr ⟨n, by simp [recvData, hnext]⟩))
  | advance =>
      cases hrest : p.undelivered with
      | nil =>
          rcases p.atEnd_cases (α := Bytes) with hend | ⟨e, hend⟩ | ⟨-, hend⟩
          · exact .inl (by simp [recvData, hnext, hrest, hend])
          · exact .inr (.inl ⟨e, by simp [recvData, hnext, hrest, hend]⟩)
          · exact .inr (.inr (.inl (by simp [recvData, hnext, hrest, hend])))
      | cons item rest =>
          cases item with
          | byte b => exact .inl (by simp [recvData, hnext, hrest])
          | trailers t => exact .inr (.inr (.inl (by simp [recvData, hnext, hrest])))

/-- A read of the trailers delivers them, or moves nothing; it reports the end
only when everything has been delivered and the stream is finished. -/
theorem recvTrailers_cases (p : Pipe) :
    p.recvTrailers = (.pending, p) ∨ (∃ e, p.recvTrailers = (.ready (.error e), p)) ∨
      (p.undelivered = [] ∧ p.status = .finished ∧ p.recvTrailers = (.ready (.ok none), p)) ∨
      ∃ t rest, p.undelivered = .trailers t :: rest ∧
        p.recvTrailers = (.ready (.ok (some t)), { p with delivered := p.delivered + 1 }) := by
  cases hnext : p.next with
  | hold => exact .inl (by simp [recvTrailers, hnext])
  | lost e => exact .inr (.inl ⟨e, by simp [recvTrailers, hnext]⟩)
  | data n => exact .inl (by simp [recvTrailers, hnext])
  | advance =>
      cases hrest : p.undelivered with
      | nil =>
          rcases p.atEnd_cases (α := HeaderMap) with hend | ⟨e, hend⟩ | ⟨hfin, hend⟩
          · exact .inl (by simp [recvTrailers, hnext, hrest, hend])
          · exact .inr (.inl ⟨e, by simp [recvTrailers, hnext, hrest, hend]⟩)
          · exact .inr (.inr (.inl ⟨rfl, hfin, by simp [recvTrailers, hnext, hrest, hend]⟩))
      | cons item rest =>
          cases item with
          | byte b => exact .inl (by simp [recvTrailers, hnext, hrest])
          | trailers t =>
              exact .inr (.inr (.inr ⟨t, rest, rfl, by simp [recvTrailers, hnext, hrest]⟩))

def load (p : Pipe) (w : SendStream) (d : Delivery) : Pipe :=
  { p with wire := w.wire, status := w.status, next := d }

end Pipe

/-! ## Reading -/

/-- The frames read so far are what has been delivered of the stream, and the
end was reported only at the end of a finished stream. -/
structure Faithful (w : SendStream) (b : Incoming Pipe) (received : List Frame) (ended : Bool) :
    Prop where
  delivered : b.s.delivered ≤ w.wire.length
  received : Frame.flatten received = w.wire.take b.s.delivered
  ended : ended = true → w.status = .finished ∧ b.s.delivered = w.wire.length

/-- The stream of a sender only grows, and is final once finished. -/
def Evolves (w w' : SendStream) : Prop :=
  w.wire <+: w'.wire ∧ (w.status = .finished → w' = w)

namespace FramePoll

variable {σ : Type*}

def frames (p : FramePoll σ) : List Frame :=
  match p.result with
  | .ready (some (.ok f)) => [f]
  | _ => []

def isEnd (p : FramePoll σ) : Bool :=
  match p.result with
  | .ready none => true
  | _ => false

end FramePoll

section

variable {w w' : SendStream} {b : Incoming Pipe} {received : List Frame} {ended : Bool}

theorem Faithful.evolves (h : Faithful w b received ended) (hw : Evolves w w') :
    Faithful w' b received ended := by
  obtain ⟨⟨rest, hwire⟩, hfinal⟩ := hw
  constructor
  · rw [← hwire, List.length_append]
    exact Nat.le_add_right_of_le h.delivered
  · rw [h.received, ← hwire, List.take_append_of_le_length h.delivered]
  · intro hended
    obtain ⟨hfin, hall⟩ := h.ended hended
    rw [hfinal hfin]
    exact ⟨hfin, hall⟩

theorem Faithful.deliver (h : Faithful w b received ended) {b' : Incoming Pipe} {f : Frame}
    (hitems : f.items = (w.wire.drop b.s.delivered).take f.items.length)
    (hdelivered : b'.s.delivered = b.s.delivered + f.items.length) :
    Faithful w b' (received ++ [f]) ended := by
  have hle := congrArg List.length hitems
  rw [List.length_take, List.length_drop] at hle
  have hbound := h.delivered
  constructor
  · omega
  · rw [Frame.flatten_append, Frame.flatten_singleton, h.received, hdelivered, List.take_add,
      ← hitems]
  · intro hended
    obtain ⟨hfin, hall⟩ := h.ended hended
    exact ⟨hfin, by omega⟩

theorem Faithful.stay (h : Faithful w b received ended) {b' : Incoming Pipe}
    (hdelivered : b'.s.delivered = b.s.delivered) : Faithful w b' received ended := by
  constructor
  · rw [hdelivered]
    exact h.delivered
  · rw [hdelivered]
    exact h.received
  · rw [hdelivered]
    exact h.ended

def Incoming.load (b : Incoming Pipe) (w : SendStream) (d : Delivery) : Incoming Pipe :=
  { b with s := b.s.load w d }

theorem Faithful.pollFrame (h : Faithful w b received ended) (d : Delivery) :
    Faithful w (b.load w d).pollFrame.body (received ++ (b.load w d).pollFrame.frames)
      (ended || (b.load w d).pollFrame.isEnd) := by
  unfold Incoming.pollFrame
  cases hdone : b.dataDone with
  | false =>
      rcases (b.s.load w d).recvData_cases with hp | ⟨e, hp⟩ | hp | ⟨n, hp⟩
      · simp only [Incoming.load, hdone, RecvStream.pollRecvData, hp, FramePoll.frames,
          FramePoll.isEnd, List.append_nil, Bool.or_false, Bool.not_false, if_true]
        exact h.stay rfl
      · simp only [Incoming.load, hdone, RecvStream.pollRecvData, hp, FramePoll.frames,
          FramePoll.isEnd, List.append_nil, Bool.or_false, Bool.not_false, if_true]
        exact h.stay rfl
      · simp only [Incoming.load, hdone, RecvStream.pollRecvData, hp, FramePoll.frames,
          FramePoll.isEnd, List.append_nil, Bool.or_false, Bool.not_false, if_true]
        exact h.stay rfl
      · simp only [Incoming.load, hdone, RecvStream.pollRecvData, hp, FramePoll.frames,
          FramePoll.isEnd, copyToBytes_remaining, Bool.or_false, Bool.not_false, if_true]
        apply h.deliver
        · simpa [Frame.items, Pipe.undelivered, Pipe.load] using
            map_leadingBytes n (w.wire.drop b.s.delivered)
        · simp [Frame.items, Pipe.load]
  | true =>
      rcases (b.s.load w d).recvTrailers_cases with hp | ⟨e, hp⟩ | ⟨hall, hfin, hp⟩ |
        ⟨t, rest, hrest, hp⟩
      · simp only [Incoming.load, hdone, RecvStream.pollRecvTrailers, hp, FramePoll.frames,
          FramePoll.isEnd, List.append_nil, Bool.or_false, Bool.not_true, Bool.false_eq_true,
          if_false]
        exact h.stay rfl
      · simp only [Incoming.load, hdone, RecvStream.pollRecvTrailers, hp, FramePoll.frames,
          FramePoll.isEnd, List.append_nil, Bool.or_false, Bool.not_true, Bool.false_eq_true,
          if_false]
        exact h.stay rfl
      · have hlen : w.wire.length ≤ b.s.delivered := List.drop_eq_nil_iff.mp hall
        have hend : Faithful w b received true :=
          ⟨h.delivered, h.received, fun _ ↦ ⟨hfin, Nat.le_antisymm h.delivered hlen⟩⟩
        simp only [Incoming.load, hdone, RecvStream.pollRecvTrailers, hp, FramePoll.frames,
          FramePoll.isEnd, List.append_nil, Bool.or_true, Bool.not_true, Bool.false_eq_true,
          if_false]
        exact hend.stay rfl
      · simp only [Incoming.load, hdone, RecvStream.pollRecvTrailers, hp, FramePoll.frames,
          FramePoll.isEnd, Bool.or_false, Bool.not_true, Bool.false_eq_true, if_false]
        apply h.deliver
        · have hdrop : w.wire.drop b.s.delivered = .trailers t :: rest := hrest
          simp [Frame.items, hdrop]
        · simp [Frame.items, Pipe.load]

end

/-! ## Tunnels -/

/-- A body that reads from a pipe through the shared frame machine. -/
class BodyReader (β : Type*) where
  incoming : β → Incoming Pipe
  update : β → Incoming Pipe → β
  pollFrame : β → FramePoll Pipe
  pollFrame_eq : ∀ b, pollFrame b = (incoming b).pollFrame
  incoming_update : ∀ b i, incoming (update b i) = i

instance : BodyReader (H3IncomingServer Pipe) where
  incoming b := b.toIncoming
  update b i := { b with toIncoming := i }
  pollFrame := H3IncomingServer.pollFrame
  pollFrame_eq _ := rfl
  incoming_update _ _ := rfl

instance : BodyReader (H3IncomingClient Pipe) where
  incoming b := b.toIncoming
  update b i := { b with toIncoming := i }
  pollFrame := H3IncomingClient.pollFrame
  pollFrame_eq _ := rfl
  incoming_update _ _ := rfl

open BodyReader

/-- `ended` says that the body has returned `None`. -/
structure Tunnel (σ β : Type*) where
  sender : σ
  reader : β
  received : List Frame
  ended : Bool

inductive TunnelEvent (ε : Type*)
  | send (ev : ε)
  | read (d : Delivery)

namespace Tunnel

variable {σ β ε : Type*} [BodyReader β]

def start (s : σ) (b : β) : Tunnel σ β := ⟨s, b, [], false⟩

def read (stream : σ → SendStream) (t : Tunnel σ β) (d : Delivery) : Tunnel σ β :=
  let b := update t.reader ((incoming t.reader).load (stream t.sender) d)
  let p := pollFrame b
  { t with
    reader := update b p.body
    received := t.received ++ p.frames
    ended := t.ended || p.isEnd }

inductive Step (stream : σ → SendStream) (S : σ → ε → σ → Prop) :
    Tunnel σ β → TunnelEvent ε → Tunnel σ β → Prop
  | send {t : Tunnel σ β} {ev : ε} {s : σ} :
      S t.sender ev s → Step stream S t (.send ev) { t with sender := s }
  | read (t : Tunnel σ β) (d : Delivery) : Step stream S t (.read d) (t.read stream d)

def IsFaithful (stream : σ → SendStream) (t : Tunnel σ β) : Prop :=
  Faithful (stream t.sender) (incoming t.reader) t.received t.ended

variable {stream : σ → SendStream} {S : σ → ε → σ → Prop} {I : σ → Prop}
  {t t' : Tunnel σ β}

theorem isFaithful_start {s : σ} {b : β} (h : incoming b = .new .new) :
    (start s b).IsFaithful stream := by
  refine ⟨?_, ?_, nofun⟩
  · simp [start, h, Incoming.new, Pipe.new]
  · simp [start, h, Incoming.new, Pipe.new]

theorem isFaithful_read (h : t.IsFaithful stream) (d : Delivery) :
    (t.read stream d).IsFaithful stream := by
  simpa [IsFaithful, read, pollFrame_eq, incoming_update] using h.pollFrame d

/-- If every step of the sender keeps an invariant under which its stream only
grows, the tunnel is faithful in every state of every run. -/
theorem isFaithful_of_run (hkeep : ∀ s ev s', I s → S s ev s' → I s')
    (hgrow : ∀ s ev s', I s → S s ev s' → Evolves (stream s) (stream s'))
    {tr : List (TunnelEvent ε)} (h : Run (Step stream S) t tr t') (ht : I t.sender)
    (hf : t.IsFaithful stream) : I t'.sender ∧ t'.IsFaithful stream := by
  refine h.invariant (I := fun u ↦ I u.sender ∧ u.IsFaithful stream) ?_ ⟨ht, hf⟩
  rintro u ev u' ⟨hu, huf⟩ hstep
  cases hstep with
  | send hs => exact ⟨hkeep _ _ _ hu hs, huf.evolves (hgrow _ _ _ hu hs)⟩
  | read d => exact ⟨hu, isFaithful_read huf d⟩

end Tunnel

end TonicH3
