import MipClients.TsProtocol
import Mathlib.Logic.Function.Basic

/-! The TypeScript client as a state machine (`index.ts`, class `MIPClient`). A handler runs up to the
next event it emits; the listeners may then call any public method, and the handler goes on where it
was when they return, or is abandoned when one of them throws. Node contributes sockets, timers and
promise reactions, which act in any order between two handlers. -/
namespace MipClients
namespace Ts

open Utf8 (Text)
open Wire (FrameType)

/-- The options the model reads; `autoReconnect` is the one the client changes. -/
structure Options where
  clientId : Text := []
  autoReconnect : Bool := true
  maxReconnectAttempts : ℕ := 10
  pingInterval : ℕ := 0

inductive PromiseState
  | pending | resolved | rejected
  deriving DecidableEq

/-- How far a socket has come: it has emitted neither 'connect' nor 'close', it has emitted
'connect', a CLOSE frame has been handled with its data, it has emitted 'close'. -/
inductive Phase
  | connecting | connected | closeFrame | closed
  deriving DecidableEq

/-- A socket, and the promise of the `connect()` that made it. -/
structure Socket where
  phase : Phase := .connecting
  destroyed : Bool := false
  errored : Bool := false
  /-- The reconnect timer called `connect()`, and catches its rejection. -/
  retry : Bool := false
  promise : PromiseState := .pending
  received : List UInt8 := []
  written : List (List UInt8) := []

def Socket.emitConnect (k : Socket) : Socket := { k with phase := .connected }

def Socket.deliverClose (k : Socket) : Socket :=
  { k with phase := if k.phase = .connected then .closeFrame else k.phase }

def Socket.emitClose (k : Socket) : Socket := { k with phase := .closed, destroyed := true }

def Socket.emitError (k : Socket) : Socket := { k with errored := true, destroyed := true }

def Socket.receive (data : List UInt8) (k : Socket) : Socket :=
  { k with received := k.received ++ data }

inductive MIPClientEvent
  | connect
  | disconnect
  | reconnecting (attempt : ℕ)
  | message (msg : MIPMessage)
  | event (msg : MIPMessage)
  | ack (msgId : ℕ)
  | pong
  | error (error : MIPError)
  | frame (header : FrameHeader) (payload : List UInt8)

/-- Where `handleClose` and `scheduleReconnect` return to: Node, or the loop of `handleData`, run
for the data of a socket, with a frame of the given length still in the buffer. -/
inductive Return
  | done
  | loop (socket length : ℕ)

/-- Where a handler goes on when the listeners of the event it has emitted return. -/
inductive Cont
  | onConnect (socket : ℕ)
  | helloFailed (socket : ℕ)
  | onError (message : String)
  | badMagic
  | frame (socket : ℕ) (header : FrameHeader) (payload : List UInt8)
  | event (r : Return) (msg : MIPMessage)
  | handleClose (r : Return)
  | reconnecting (r : Return)
  | after (r : Return)

inductive Entry
  | connectCall
  | disconnected
  | retry
  /-- `connect()` starts a connection attempt. -/
  | attempt (socket : ℕ)
  /-- The handshake has written HELLO. -/
  | hello (payload : List UInt8) (msgId : ℤ)
  /-- `scheduleReconnect` gives up. -/
  | maxReached
  | emit (e : MIPClientEvent)

structure State where
  options : Options
  socket : Option ℕ := none
  buffer : List UInt8 := []
  clientId : Text
  connected : Bool := false
  reconnectAttempts : ℕ := 0
  reconnectTimer : Option ℕ := none
  pingTimer : Option ℕ := none
  msgIdCounter : ℕ := 0
  /-- The sockets made so far are those below `opened`. -/
  sockets : ℕ → Socket := fun _ => {}
  opened : ℕ := 0
  timeouts : List ℕ := []
  intervals : List ℕ := []
  nextTimer : ℕ := 0
  /-- The rejected promises of the reconnect timer whose `catch` has not run. -/
  rejections : ℕ := 0
  cont : Option Cont := none
  /-- The latest entry first. -/
  log : List Entry := []

def init (options : Options) : State where
  options := options
  clientId := options.clientId

inductive Thrown
  | notConnected
  | rangeError

/-- The text of Node's RangeError is not modelled: its name stands for it. -/
def Thrown.text : Thrown → String
  | .notConnected => "Error: Client is not connected"
  | .rangeError => "RangeError"

def flagsNone : ℕ := 0
def flagsAckRequired : ℕ := 1

/-- `msgId.toString()`. -/
def decimal (n : ℤ) : Text := (toString n).toList

/-- `clearTimeout` and `clearInterval`. -/
def clear (timer : Option ℕ) (live : List ℕ) : List ℕ := live.filter fun t => timer ≠ some t

namespace State

variable (s : State)

def updateSocket (i : ℕ) (f : Socket → Socket) : State :=
  { s with sockets := Function.update s.sockets i (f (s.sockets i)) }

@[simp] theorem updateSocket_self (i : ℕ) (f : Socket → Socket) :
    (s.updateSocket i f).sockets i = f (s.sockets i) := Function.update_self ..
@[simp] theorem updateSocket_of_ne {i j : ℕ} (h : j ≠ i) (f : Socket → Socket) :
    (s.updateSocket i f).sockets j = s.sockets j := Function.update_of_ne h ..
@[simp] theorem updateSocket_socket (i : ℕ) (f : Socket → Socket) :
    (s.updateSocket i f).socket = s.socket := rfl
@[simp] theorem updateSocket_connected (i : ℕ) (f : Socket → Socket) :
    (s.updateSocket i f).connected = s.connected := rfl

/-- `socket.write`; a destroyed socket drops the bytes. -/
def write (i : ℕ) (bytes : List UInt8) : State :=
  s.updateSocket i fun k => if k.destroyed then k else { k with written := k.written ++ [bytes] }

def destroy (i : ℕ) : State := s.updateSocket i fun k => { k with destroyed := true }

def resolve (i : ℕ) : State :=
  s.updateSocket i fun k => if k.promise = .pending then { k with promise := .resolved } else k

def reject (i : ℕ) : State :=
  if (s.sockets i).promise = .pending then
    let t := s.updateSocket i fun k => { k with promise := .rejected }
    if (s.sockets i).retry then { t with rejections := t.rejections + 1 } else t
  else s

def emit (e : MIPClientEvent) (k : Cont) : State :=
  { s with cont := some k, log := .emit e :: s.log }

def finish : State := { s with cont := none }

def emitError (error : MIPError) (k : Cont) : State := s.emit (.error error) k

/-! Sending. -/

def generateMsgId (now : ℤ) : ℤ × State :=
  (now * 1000000 + (s.msgIdCounter + 1),{ s with msgIdCounter := s.msgIdCounter + 1 })

def sendFrame (frameType : ℕ) (payload : List UInt8) (flags : ℕ) (now : ℤ) :
    Except Thrown ℤ × State :=
  match s.socket,s.connected with
  | some i,true =>
    match frameBytes frameType payload flags (s.generateMsgId now).1 with
    | some bytes => (.ok (s.generateMsgId now).1,(s.generateMsgId now).2.write i bytes)
    | none => (.error .rangeError,(s.generateMsgId now).2)
  | _,_ => (.error .notConnected,s)

def sendClose (now : ℤ) : State :=
  match s.socket,s.connected with
  | some i,true =>
    match buildHeader FrameType.close.code 0 0 (s.generateMsgId now).1 with
    | some header => (s.generateMsgId now).2.write i header
    | none => (s.generateMsgId now).2
  | _,_ => s

def subscribe (topic : Text) (requireAck : Bool) (now : ℤ) : Except Thrown ℤ × State :=
  s.sendFrame FrameType.subscribe.code (Utf8.encode topic)
    (if requireAck then flagsAckRequired else flagsNone) now

def unsubscribe (topic : Text) (requireAck : Bool) (now : ℤ) : Except Thrown ℤ × State :=
  s.sendFrame FrameType.unsubscribe.code (Utf8.encode topic)
    (if requireAck then flagsAckRequired else flagsNone) now

/-- A message given as a string is encoded by the caller. -/
def publish (topic : Text) (message : List UInt8) (flags : ℕ) (now : ℤ) :
    Except Thrown ℤ × State :=
  match writeUInt 2 (Utf8.encode topic).length with
  | some length =>
    s.sendFrame FrameType.publish.code (length ++ Utf8.encode topic ++ message) flags now
  | none => (.error .rangeError,s)

def ping (now : ℤ) : Except Thrown ℤ × State := s.sendFrame FrameType.ping.code [] 0 now

def sendRawFrame (frameType : ℕ) (payload : List UInt8) (flags : ℕ) (now : ℤ) :
    Except Thrown ℤ × State :=
  s.sendFrame frameType payload flags now

/-! Connecting and disconnecting. -/

def setupPingInterval : State :=
  if 0 < s.options.pingInterval then
    { s with
      pingTimer := some s.nextTimer
      intervals := s.nextTimer :: s.intervals
      nextTimer := s.nextTimer + 1 }
  else s

def cleanup : State :=
  { s with
    intervals := clear s.pingTimer s.intervals
    pingTimer := none
    timeouts := clear s.reconnectTimer s.timeouts
    reconnectTimer := none }

/-- `connect()`, by the user or (`retry`) by the reconnect timer. -/
def connect (retry : Bool) : State :=
  if s.connected then s
  else
    { s with
      socket := some s.opened
      buffer := []
      sockets := Function.update s.sockets s.opened { retry := retry }
      opened := s.opened + 1
      log := .attempt s.opened :: s.log }

def setAutoReconnect (autoReconnect : Bool) : State :=
  { s with options := { s.options with autoReconnect := autoReconnect } }

def disconnect (now : ℤ) : State :=
  let s := (s.setAutoReconnect false).cleanup
  let s := match s.socket with
    | some i => { (s.sendClose now).destroy i with socket := none }
    | none => s
  { s with connected := false }

def retry (timer : ℕ) : State :=
  { s with
    timeouts := clear (some timer) s.timeouts
    reconnectTimer := none
    log := .retry :: s.log }.connect true

/-! The handlers. -/

/-- The loop of `handleData`, up to the next event. -/
def loop (i : ℕ) : State :=
  if h : s.buffer.length < headerSize then s.finish
  else
    let header := parseHeader (framing.head s.buffer h)
    if header.magic ≠ magic then
      s.emitError { message := "Invalid magic number", code := some header.magic } .badMagic
    else if s.buffer.length < headerSize + header.payloadLength then s.finish
    else
      let payload := (s.buffer.drop headerSize).take header.payloadLength
      s.emit (.frame header payload) (.frame i header payload)

def handleData (i : ℕ) (data : List UInt8) : State :=
  { s with buffer := s.buffer ++ data }.loop i

def after : Return → State
  | .done => s.finish
  | .loop i length => { s with buffer := s.buffer.drop length }.loop i

def maxReachedError : MIPError :=
  { message := "Max reconnection attempts (" ++ toString s.options.maxReconnectAttempts ++
      ") reached" }

def scheduleReconnect (r : Return) : State :=
  if s.reconnectTimer.isSome then s.after r
  else if 0 < s.options.maxReconnectAttempts ∧
      s.options.maxReconnectAttempts ≤ s.reconnectAttempts then
    { s with log := .maxReached :: s.log }.emitError s.maxReachedError (.after r)
  else
    { s with reconnectAttempts := s.reconnectAttempts + 1 }.emit
      (.reconnecting (s.reconnectAttempts + 1)) (.reconnecting r)

/-- `scheduleReconnect` once the 'reconnecting' listeners have returned. -/
def setReconnectTimer (r : Return) : State :=
  { s with
    reconnectTimer := some s.nextTimer
    timeouts := s.nextTimer :: s.timeouts
    nextTimer := s.nextTimer + 1 }.after r

/-- `handleClose` once the 'disconnect' listeners have returned. -/
def reconnectIfAuto (r : Return) : State :=
  if s.options.autoReconnect then s.scheduleReconnect r else s.after r

def handleClose (r : Return) : State :=
  let t := { s with connected := false }.cleanup
  if s.connected then t.emit .disconnect (.handleClose r) else t.reconnectIfAuto r

/-- `processFrame` once the 'frame' listeners have returned. -/
def processFrame (i : ℕ) (header : FrameHeader) (payload : List UInt8) : State :=
  let r := Return.loop i (headerSize + header.payloadLength)
  if header.frameType = FrameType.event.code ∨ header.frameType = FrameType.publish.code then
    match parseMessage header payload with
    | some msg =>
      if header.frameType = FrameType.event.code then s.emit (.event msg) (.event r msg)
      else s.emit (.message msg) (.after r)
    | none => s.after r
  else if header.frameType = FrameType.ack.code then s.emit (.ack header.msgId) (.after r)
  else if header.frameType = FrameType.pong.code then s.emit .pong (.after r)
  else if header.frameType = FrameType.error.code then
    s.emitError { message := String.ofList (Utf8.decodeLossy payload), raw := some payload }
      (.after r)
  else if header.frameType = FrameType.close.code then
    (s.updateSocket i Socket.deliverClose).handleClose r
  else s.after r

/-- `onConnect` up to the 'connect' event. -/
def onConnect (i : ℕ) : State :=
  { s with connected := true, reconnectAttempts := 0 }.setupPingInterval.emit .connect (.onConnect i)

/-- `onConnect` once the 'connect' listeners have returned. -/
def sayHello (i : ℕ) (now : ℤ) : State :=
  let payload := Utf8.encode s.clientId
  match s.sendFrame FrameType.hello.code payload flagsNone now with
  | (.ok msgId,s) =>
    ({ s with clientId := decimal msgId, log := .hello payload msgId :: s.log }.resolve i).finish
  | (.error err,s) =>
    s.emitError { message := "Failed to send HELLO frame: " ++ err.text } (.helloFailed i)

/-- `onError` up to its 'error' event. -/
def onError (i : ℕ) (message : String) : State :=
  (if s.connected then s else s.reject i).emitError { message := message } (.onError message)

/-- The second listener for a socket's errors. -/
def onLaterError (message : String) : State :=
  if s.connected then s.emitError { message := message } (.after .done) else s.finish

def resume (now : ℤ) : Cont → State
  | .onConnect i => s.sayHello i now
  | .helloFailed i => (s.resolve i).finish
  | .onError message => s.onLaterError message
  | .badMagic => (match s.socket with | some i => s.destroy i | none => s).finish
  | .frame i header payload => s.processFrame i header payload
  | .event r msg => s.emit (.message msg) (.after r)
  | .handleClose r => s.reconnectIfAuto r
  | .reconnecting r => s.setReconnectTimer r
  | .after r => s.after r

end State

inductive Call
  | connect
  | disconnect
  | subscribe (topic : Text) (requireAck : Bool)
  | unsubscribe (topic : Text) (requireAck : Bool)
  | publish (topic : Text) (message : List UInt8) (flags : ℕ)
  | ping
  | sendRawFrame (frameType : ℕ) (payload : List UInt8) (flags : ℕ)

/-- What Node delivers between two handlers. -/
inductive HostEvent
  | connect (socket : ℕ)
  | error (socket : ℕ) (message : String)
  | data (socket : ℕ) (data : List UInt8)
  | close (socket : ℕ)
  | timeout (timer : ℕ)
  | interval (timer : ℕ) (now : ℤ)
  | rejection

inductive Event
  | call (c : Call) (now : ℤ)
  | host (e : HostEvent)
  | listenersReturn (now : ℤ)
  | listenerThrows

namespace State

variable (s : State)

/-- A call by the user; what it returns or throws is the user's. -/
def call (now : ℤ) : Call → State
  | .connect => { s with log := .connectCall :: s.log }.connect false
  | .disconnect => { s.disconnect now with log := .disconnected :: (s.disconnect now).log }
  | .subscribe topic requireAck => (s.subscribe topic requireAck now).2
  | .unsubscribe topic requireAck => (s.unsubscribe topic requireAck now).2
  | .publish topic message flags => (s.publish topic message flags now).2
  | .ping => (s.ping now).2
  | .sendRawFrame frameType payload flags => (s.sendRawFrame frameType payload flags now).2

/-- A socket emits 'connect' and 'close' at most once, nothing after 'close', and neither 'connect'
nor 'data' once destroyed. -/
def host : HostEvent → Option State
  | .connect i =>
    if i < s.opened ∧ (s.sockets i).phase = .connecting ∧ !(s.sockets i).destroyed then
      some ((s.updateSocket i Socket.emitConnect).onConnect i)
    else none
  | .error i message =>
    if i < s.opened ∧ (s.sockets i).phase ≠ .closed then
      let t := s.updateSocket i Socket.emitError
      some (if (s.sockets i).errored then t.onLaterError message else t.onError i message)
    else none
  | .data i data =>
    if i < s.opened ∧ ((s.sockets i).phase = .connected ∨ (s.sockets i).phase = .closeFrame) ∧
        !(s.sockets i).destroyed then
      some ((s.updateSocket i (Socket.receive data)).handleData i data)
    else none
  | .close i =>
    if i < s.opened ∧ (s.sockets i).phase ≠ .closed then
      some ((s.updateSocket i Socket.emitClose).handleClose .done)
    else none
  | .timeout t =>
    if t ∈ s.timeouts then some (s.retry t) else none
  | .interval t now =>
    if t ∈ s.intervals then some (if s.connected then (s.ping now).2 else s) else none
  | .rejection =>
    if 0 < s.rejections then
      let t := { s with rejections := s.rejections - 1 }
      some (if t.options.autoReconnect then t.scheduleReconnect .done else t)
    else none

end State

def step (s : State) : Event → Option State
  | .call c now => some (s.call now c)
  | .host e => if s.cont.isNone then s.host e else none
  | .listenersReturn now => s.cont.map (s.resume now)
  | .listenerThrows => s.cont.map fun _ => s.finish

end Ts
end MipClients
