import TonicH3.ExchangeInvariant
import TonicH3.Slot

/-!
# The reconnecting sender

`RequestSender` with everything it shares with other tasks: the heap of closing
flags (an `Arc` is an index, so a fresh one differs from all earlier ones), the
driver tasks of the connections established so far, and the exchanges that
`call` has started.  `pollReady` and `call` follow the source branch by branch;
the panics the source can run into are results of their own.

The actions an event emits describe what happened to the connection slot: an
attempt was started, a sender was installed or retired, a connect error was
deferred or handed to a caller.
-/

namespace TonicH3

open EventRun

/-- A driver task signals its end, or is dropped together with its sender. -/
inductive Driver
  | running
  | ended
  | dropped
  deriving DecidableEq, Repr

inductive TryRecv
  | received
  | empty
  | closed
  deriving DecidableEq, Repr

/-- The connect future: suspended in `connect()`, suspended in
`h3::client::new`, or completed. -/
inductive ConnectFut
  | connecting
  | handshaking
  | complete
  deriving DecidableEq, Repr

structure ConnectAnswers where
  connect : Poll (Except Error Unit)
  handshake : Poll (Except Error Unit)
  deriving DecidableEq, Repr

structure RequestSender where
  sendRequest : Option Conn
  driverRx : Option Conn
  makeSendRequestFut : Option ConnectFut
  baseScheme : Option String
  baseAuthority : Option String
  connectError : Option Error
  closing : Flag
  deriving DecidableEq, Repr

structure World where
  sender : RequestSender
  flags : List Bool
  drivers : List Driver
  exchanges : List Exchange
  deriving DecidableEq, Repr

structure Request where
  uri : Uri
  body : BodyScript
  deriving DecidableEq, Repr

/-- The assertions and unwraps of `poll_ready`, and polling a future again
after it has completed. -/
inductive Panic
  | cacheHitWithFuture
  | cacheHitWithoutDriver
  | unwrapNone
  | polledAfterCompletion
  deriving DecidableEq, Repr

abbrev SlotAction := Slot.Action Conn Error

abbrev PollReadyResult := Poll (Except Error Unit)

/-- The future `call` returns: an immediate error, or an exchange. -/
inductive CallFuture
  | connectError (e : Error)
  | missingScheme
  | missingAuthority
  | invalidUri (e : Error)
  | notReady
  | started (i : ℕ) (uri : Uri)
  deriving DecidableEq, Repr

def CallFuture.error : CallFuture → Option Error
  | .connectError e => some e
  | .missingScheme => some (.other "h3 client base URI is missing a scheme")
  | .missingAuthority => some (.other "h3 client base URI is missing an authority")
  | .invalidUri e => some e
  | .notReady => some (.other
      "h3 request sender is not ready: poll_ready must return Ready(Ok) before call")
  | .started _ _ => none

def RequestSender.new (uri : Uri) (closing : Flag) : RequestSender :=
  ⟨none, none, none, uri.scheme, uri.authority, none, closing⟩

namespace ConnectFut

def pollHandshake (a : ConnectAnswers) : PollReadyResult × ConnectFut :=
  match a.handshake with
  | .pending => (.pending, .handshaking)
  | .ready res => (.ready res, .complete)

def poll (a : ConnectAnswers) : ConnectFut → Except Panic (PollReadyResult × ConnectFut)
  | .connecting =>
      match a.connect with
      | .pending => .ok (.pending, .connecting)
      | .ready (.error e) => .ok (.ready (.error e), .complete)
      | .ready (.ok _) => .ok (pollHandshake a)
  | .handshaking => .ok (pollHandshake a)
  | .complete => .error .polledAfterCompletion

end ConnectFut

namespace World

def new (uri : Uri) : World := ⟨.new uri 0, [false], [], []⟩

def driverRunning (w : World) (g : Conn) : Bool := w.drivers[g]? == some .running

def flagSet (w : World) (f : Flag) : Bool := w.flags[f]?.getD false

def retireConnection (w : World) : World × List SlotAction :=
  ({ w with
      sender := { w.sender with
        sendRequest := none
        driverRx := none
        closing := w.flags.length }
      flags := w.flags ++ [false] },
    w.sender.sendRequest.toList.map .release)

def tryRecv (w : World) (rx : Conn) : TryRecv :=
  match w.drivers[rx]? with
  | some .running => .empty
  | some .ended => .received
  | _ => .closed

def checkDriver (w : World) : World × List SlotAction :=
  match w.sender.driverRx with
  | some rx =>
      match w.tryRecv rx with
      | .received => w.retireConnection
      | .empty => (w, [])
      | .closed => w.retireConnection
  | none => (w, [])

def checkClosing (w : World) : World × List SlotAction :=
  if w.flagSet w.sender.closing then w.retireConnection else (w, [])

def setFut (w : World) (fut : Option ConnectFut) : World :=
  { w with sender := { w.sender with makeSendRequestFut := fut } }

def startConnect (w : World) : World × List SlotAction :=
  if w.sender.makeSendRequestFut.isNone then (w.setFut (some .connecting), [.start])
  else (w, [])

def install (w : World) : World :=
  { w with
    sender := { w.sender with
      sendRequest := some w.drivers.length
      driverRx := some w.drivers.length
      makeSendRequestFut := none }
    drivers := w.drivers ++ [.running] }

def defer (w : World) (e : Error) : World :=
  { w with sender := { w.sender with makeSendRequestFut := none, connectError := some e } }

/-- The `map` over the poll of the connect future. -/
def resolve (w : World) (fut : ConnectFut) :
    PollReadyResult → World × PollReadyResult × List SlotAction
  | .pending => (w.setFut (some fut), .pending, [])
  | .ready (.ok _) => (w.install, .ready (.ok ()), [.acquire w.drivers.length])
  | .ready (.error e) => (w.defer e, .ready (.ok ()), [.fail e])

def connect (w : World) (a : ConnectAnswers) :
    Except Panic (World × PollReadyResult × List SlotAction) :=
  let (w, started) := w.startConnect
  match w.sender.makeSendRequestFut with
  | none => .error .unwrapNone
  | some fut =>
      match fut.poll a with
      | .error p => .error p
      | .ok (res, fut) =>
          let (w, r, acts) := w.resolve fut res
          .ok (w, r, started ++ acts)

/-- Everything of `poll_ready` after the two checks that can retire. -/
def readiness (w : World) (a : ConnectAnswers) :
    Except Panic (World × PollReadyResult × List SlotAction) :=
  if w.sender.connectError.isSome then .ok (w, .ready (.ok ()), [])
  else if w.sender.sendRequest.isSome then
    if w.sender.makeSendRequestFut.isSome then .error .cacheHitWithFuture
    else if w.sender.driverRx.isNone then .error .cacheHitWithoutDriver
    else .ok (w, .ready (.ok ()), [])
  else w.connect a

def pollReady (w : World) (a : ConnectAnswers) :
    Except Panic (World × PollReadyResult × List SlotAction) :=
  let (w, ended) := w.checkDriver
  let (w, closed) := w.checkClosing
  match w.readiness a with
  | .error p => .error p
  | .ok (w, r, acts) => .ok (w, r, ended ++ closed ++ acts)

variable [Http3]

def call (w : World) (req : Request) : World × CallFuture × List SlotAction :=
  match w.sender.connectError with
  | some e =>
      ({ w with sender := { w.sender with connectError := none } }, .connectError e, [.deliver e])
  | none =>
      match w.sender.baseScheme, w.sender.baseAuthority with
      | some scheme, some authority =>
          match Http3.buildUri scheme authority (req.uri.pathAndQuery.getD "/") with
          | .error e => (w, .invalidUri e, [])
          | .ok uri =>
              match w.sender.sendRequest with
              | none => (w, .notReady, [])
              | some g =>
                  ({ w with exchanges := w.exchanges ++ [.new g w.sender.closing req.body] },
                    .started w.exchanges.length uri, [])
      | none, _ => (w, .missingScheme, [])
      | _, none => (w, .missingAuthority, [])

end World

inductive Event
  | pollReady (a : ConnectAnswers)
  | call (req : Request)
  | driver (g : Conn) (d : Driver)
  | exchange (i : ℕ) (ev : ExchangeEvent)
  deriving DecidableEq, Repr

inductive Output
  | polled (r : PollReadyResult) (acts : List SlotAction)
  | panicked (p : Panic)
  | called (f : CallFuture) (acts : List SlotAction)
  | exchanged (o : ExchangeOut)
  | quiet
  deriving DecidableEq, Repr

namespace World

def onDriver (w : World) (g : Conn) (d : Driver) : World :=
  if w.driverRunning g then { w with drivers := w.drivers.set g d } else w

variable [Http3]

def onExchange (w : World) (i : ℕ) (ev : ExchangeEvent) : World × Output :=
  match w.exchanges[i]? with
  | none => (w, .quiet)
  | some x =>
      let (x', o) := x.step ev
      ({ w with
          flags := if o.setClosing then w.flags.set x.closing true else w.flags
          exchanges := w.exchanges.set i x' }, .exchanged o)

def step (w : World) : Event → World × Output
  | .pollReady a =>
      match w.pollReady a with
      | .error p => (w, .panicked p)
      | .ok (w', r, acts) => (w', .polled r acts)
  | .call req =>
      let (w', f, acts) := w.call req
      (w', .called f acts)
  | .driver g d => (w.onDriver g d, .quiet)
  | .exchange i ev => w.onExchange i ev

abbrev Steps : World → Event × Output → World → Prop := Fires step

end World

end TonicH3
