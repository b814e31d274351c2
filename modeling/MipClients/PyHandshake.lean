import MipClients.HelloFrame
import MipClients.PyTasks

/-! The handshake of the Python client. `connect()` calls the 'connect' callbacks with `_connected`
already set, sends HELLO after them, and makes the message id of HELLO the client id that the next
HELLO will carry. -/
namespace MipClients
namespace Py

open HelloFrame
open StreamDecoder
open Transition
open Utf8 (Text)
open Wire (Emission FrameType)

/-- The HELLO frames the handshakes have written, with payload and message id, the latest first. -/
def hellos (log : List Entry) : List (List UInt8 × ℤ) :=
  log.filterMap fun e => match e with
    | .hello payload msgId => some (payload,msgId)
    | _ => none

def Connection.unheard (k : Connection) : Bool := !k.closed && k.written.isEmpty

structure Aside (s t : State) : Prop where
  written : ∀ c, (t.connections c).written = (s.connections c).written
  closed : ∀ c, (s.connections c).closed = true → (t.connections c).closed = true
  writer : t.writer = s.writer
  connected : t.connected = true → s.connected = true
  options : t.options.clientId = s.options.clientId
  clientId : t.clientId = s.clientId
  hellos : hellos t.log = hellos s.log

namespace Aside

variable {s t u : State}

theorem refl (s : State) : Aside s s := ⟨fun _ => rfl,fun _ => id,rfl,id,rfl,rfl,rfl⟩

theorem trans (h : Aside s t) (h' : Aside t u) : Aside s u where
  written := fun c => (h'.written c).trans (h.written c)
  closed := fun c => h'.closed c ∘ h.closed c
  writer := h'.writer.trans h.writer
  connected := h.connected ∘ h'.connected
  options := h'.options.trans h.options
  clientId := h'.clientId.trans h.clientId
  hellos := h'.hellos.trans h.hellos

theorem foldl {α : Type*} {f : State → α → State} (hf : ∀ s a, Aside s (f s a)) (l : List α)
    (s : State) : Aside s (l.foldl f s) := foldl_related refl trans hf l s

theorem unheard (h : Aside s t) {c : ℕ} (hu : (t.connections c).unheard = true) :
    (s.connections c).unheard = true := by
  simp only [Connection.unheard,Bool.and_eq_true,Bool.not_eq_true',h.written c] at hu ⊢
  exact ⟨Bool.eq_false_iff.mpr fun hd => by simp [h.closed c hd] at hu,hu.2⟩

end Aside

namespace State

variable (s : State)

theorem setTask_aside (t : ℕ) (status : Status) : Aside s (s.setTask t status) :=
  ⟨fun _ => rfl,fun _ => id,rfl,id,rfl,rfl,rfl⟩

theorem emitError_aside (error : MIPError) : Aside s (s.emitError error) :=
  ⟨fun _ => rfl,fun _ => id,rfl,id,rfl,rfl,rfl⟩

theorem closeWriter_aside (c : ℕ) : Aside s (s.closeWriter c) := by
  refine ⟨fun d => ?_,fun d hd => ?_,rfl,id,rfl,rfl,rfl⟩
  · by_cases hdc : d = c
    · subst hdc
      simp [closeWriter]
    · simp [closeWriter,hdc]
  · by_cases hdc : d = c
    · subst hdc
      simp [closeWriter]
    · simpa [closeWriter,hdc] using hd

theorem react_aside (e : Emission FrameHeader MIPError) : Aside s (s.react e) := by
  have hr : Aside s (s.record (.received e)) := ⟨fun _ => rfl,fun _ => id,rfl,id,rfl,rfl,rfl⟩
  unfold react
  cases e with
  | close => exact hr.trans ⟨fun _ => rfl,fun _ => id,rfl,id,rfl,rfl,rfl⟩
  | error error =>
    dsimp only
    split
    · exact hr.trans (closeWriter_aside _ _)
    · exact hr
  | _ => exact hr

theorem scheduleReconnect_aside : Aside s s.scheduleReconnect := by
  unfold scheduleReconnect
  split_ifs <;> exact ⟨fun _ => rfl,fun _ => id,rfl,id,rfl,rfl,rfl⟩

theorem handleClose_aside (runner : ℕ) : Aside s (s.handleClose runner) := by
  cases h : s.tasksReturned with
  | false =>
    obtain ⟨ping,read,tasks,he,-,-⟩ := s.handleClose_not_returned runner h
    rw [he]
    exact ⟨fun _ => rfl,fun _ => id,rfl,nofun,rfl,rfl,rfl⟩
  | true =>
    obtain ⟨t,ht,he⟩ := s.handleClose_forgets runner h
    have hf : Aside s t := by
      rcases ht with rfl | rfl <;> exact ⟨fun _ => rfl,fun _ => id,rfl,nofun,rfl,rfl,rfl⟩
    rcases he with he | he <;> rw [he]
    · exact hf.trans (setTask_aside _ runner _)
    · exact (hf.trans t.scheduleReconnect_aside).trans (setTask_aside _ runner _)

theorem endConnect_aside (t : ℕ) (wait : Wait) (raised : Bool) :
    Aside s (s.endConnect t wait raised) := by
  rcases s.endConnect_cases t wait raised with ⟨status,-,he⟩ | he <;> rw [he]
  · exact s.setTask_aside t _
  · exact s.scheduleReconnect_aside.trans (setTask_aside _ _ _)

theorem readFailed_aside (t : ℕ) (message : String) : Aside s (s.readFailed t message) := by
  unfold readFailed
  split_ifs
  · exact (s.emitError_aside _).trans (handleClose_aside _ t)
  · exact s.handleClose_aside t

theorem readNext_aside (t : ℕ) : Aside s (s.readNext t) := by
  unfold readNext
  split <;> exact s.setTask_aside t _

theorem handleData_aside (t : ℕ) (data : List UInt8) (message : String) :
    Aside s (s.handleData t data message) := by
  have hr := Aside.foldl react_aside (StreamDecoder.run framing.decoder (s.buffer ++ data)).out s
  have hb : Aside s { (StreamDecoder.run framing.decoder (s.buffer ++ data)).out.foldl react s with
      buffer := (StreamDecoder.run framing.decoder (s.buffer ++ data)).buffer } :=
    hr.trans ⟨fun _ => rfl,fun _ => id,rfl,id,rfl,rfl,rfl⟩
  unfold handleData
  dsimp only
  split_ifs
  · exact hb.trans (readFailed_aside _ t message)
  · exact hb.trans (readNext_aside _ t)

theorem createTask_aside (wait : Wait) : Aside s (s.createTask wait) :=
  ⟨fun _ => rfl,fun _ => id,rfl,id,rfl,rfl,rfl⟩

theorem closeConnection_aside (t : ℕ) : Aside s (s.closeConnection t) := by
  unfold closeConnection
  split
  · exact (s.closeWriter_aside _).trans (setTask_aside _ t _)
  · exact s.setTask_aside t _

end State

/-- Only the user's calls, the ping loop and a connection that has opened write frames, or drop the
writer. -/
def Event.writes : Event → Bool
  | .disconnectCall _ | .call _ _ | .opened .. | .wake _ _ | .closed _ => true
  | _ => false

theorem step_aside {s t : State} {e : Event} (h : step s e = some t) (he : e.writes = false) :
    Aside s t := by
  cases step_move h with
  | disconnectCall | call | opened | pinged | pingOver | reconnectOver | reconnectOpening
  | closed => cases he
  | alreadyConnected | connectCall => exact ⟨fun _ => rfl,fun _ => id,rfl,id,rfl,rfl,rfl⟩
  | drained i => exact s.closeConnection_aside i
  | readLoopStart i => exact s.readNext_aside i
  | pingLoopStart i | reconnectStart i | eof i => exact s.setTask_aside i _
  | handleCloseStart i => exact s.handleClose_aside i
  | openFailed i wait message =>
    exact (s.emitError_aside _).trans (State.endConnect_aside _ i wait true)
  | data i c data message => exact s.handleData_aside i data message
  | raises i c message => exact s.readFailed_aside i message

/-! The first frame on each connection. -/

def State.bytes (s : State) (now : ℤ) (c : Call) : Option (List UInt8) :=
  c.frame.bind fun (frameType,payload,flags) =>
    frameBytes frameType.code payload flags (s.generateMsgId now).1

/-- The 'connect' callbacks, with these calls still to make, let HELLO be the first frame: the first
frame they send, if any, is itself a HELLO frame, and without one they do not raise. -/
def letGreet (raised : Option String) : State → List (Call × ℤ) → Bool
  | _, [] => raised.isNone
  | s, (c,now) :: l => match s.bytes now c with
    | some bytes => BigEndian.field bytes 6 2 = FrameType.hello.code
    | none => letGreet raised (s.call now c) l

def LetsGreet (s : State) : Event → Prop
  | .opened _ connectCalls raised _ => letGreet raised s.establish connectCalls = true
  | _ => True

instance (s : State) (e : Event) : Decidable (LetsGreet s e) :=
  match e with
  | .opened _ _ _ _ => inferInstanceAs (Decidable (_ = true))
  | .connectCall | .disconnectCall _ | .call _ _ | .start _ | .openFailed _ _ | .read _ _
  | .wake _ _ | .drained _ | .closed _ => isTrue trivial

def HelloFirst (s : State) : Prop := ∀ c, First (s.connections c).written

/-- What holds between two steps: a connected client has been heard. -/
structure Greeted (s : State) : Prop where
  first : HelloFirst s
  heard : ∀ c, s.writer = some c → s.connected = true → (s.connections c).unheard = false

theorem HelloFirst.of_not_connected {s : State} (h : HelloFirst s) (hc : s.connected = false) :
    Greeted s :=
  ⟨h,fun _ _ hconn => absurd hconn (by simp [hc])⟩

/-- Afterwards the connection has been heard, or drops what is written to it. -/
theorem State.write_heard (s : State) (c : ℕ) (bytes : List UInt8) :
    ((s.write c bytes).connections c).unheard = false := by
  simp only [State.write,State.updateConnection_self,Connection.unheard]
  split_ifs with hd
  · simp [hd]
  · simp

theorem HelloFirst.write {s : State} (h : HelloFirst s) {c : ℕ} {bytes : List UInt8}
    (hb : (s.connections c).unheard = true → BigEndian.field bytes 6 2 = FrameType.hello.code) :
    HelloFirst (s.write c bytes) := by
  intro d
  by_cases hd : d = c
  · subst hd
    simp only [State.write,State.updateConnection_self]
    split_ifs with hclosed
    · exact h d
    · exact (h d).append fun hw => hb (by simp [Connection.unheard,hclosed,hw])
  · simp only [State.write,State.updateConnection_of_ne _ hd]
    exact h d

theorem Aside.greeted {s t : State} (h : Aside s t) (hs : Greeted s) : Greeted t where
  first := fun c => h.written c ▸ hs.first c
  heard := fun c hc hconn => Bool.eq_false_iff.mpr fun hu => by
    have hheard := hs.heard c (h.writer ▸ hc) (h.connected hconn)
    simp [h.unheard hu] at hheard

namespace HelloFirst

variable {s : State}

theorem write_greeted (h : HelloFirst s) {c : ℕ} (hc : s.writer = some c) {bytes : List UInt8}
    (hb : (s.connections c).unheard = true → BigEndian.field bytes 6 2 = FrameType.hello.code) :
    Greeted (s.write c bytes) := by
  refine ⟨h.write hb,fun d hd _ => ?_⟩
  have hdc : d = c := Option.some.inj (hd.symm.trans hc)
  rw [hdc]
  exact s.write_heard c bytes

/-- A HELLO frame greets, unless the client is not connected anyway. -/
theorem sendFrame (h : HelloFirst s) {frameType : FrameType} {payload : List UInt8} {flags : ℕ}
    {now : ℤ} {bytes : List UInt8}
    (hb : frameBytes frameType.code payload flags (s.generateMsgId now).1 = some bytes)
    (hhello : BigEndian.field bytes 6 2 = FrameType.hello.code) :
    Greeted (s.sendFrame frameType payload flags now).2 := by
  rcases s.sendFrame_cases frameType payload flags now with
    ⟨he,hno⟩ | ⟨he,hno⟩ | ⟨c,bytes',hc,hconn,hb',he⟩
  · rw [he]
    refine ⟨h,fun c hc hconn => ?_⟩
    rcases hno with hno | hno
    · rw [hno] at hc
      cases hc
    · rw [hno] at hconn
      cases hconn
  · rw [hno] at hb
    cases hb
  · rw [he]
    rw [hb] at hb'
    cases hb'
    exact write_greeted (s := (s.generateMsgId now).2) h hc fun _ => hhello

theorem sayHello (h : HelloFirst s) (now : ℤ) : Greeted (s.sayHello now).2 := by
  rcases s.sayHello_cases now with ⟨c,bytes,hc,-,hb,he⟩ | ⟨-,n,message,he⟩ <;> rw [he]
  · have hg := write_greeted (s := (s.generateMsgId now).2) h hc fun _ => field_frameBytes hb
    exact ⟨hg.first,hg.heard⟩
  · exact of_not_connected h rfl

end HelloFirst

namespace Greeted

variable {s : State}

theorem sendFrame (h : Greeted s) (frameType : FrameType) (payload : List UInt8) (flags : ℕ)
    (now : ℤ) : Greeted (s.sendFrame frameType payload flags now).2 := by
  rcases s.sendFrame_cases frameType payload flags now with
    ⟨he,-⟩ | ⟨he,-⟩ | ⟨c,bytes,hc,hconn,-,he⟩ <;> rw [he]
  · exact h
  · exact ⟨h.first,h.heard⟩
  · refine HelloFirst.write_greeted (s := (s.generateMsgId now).2) h.first hc fun hu => ?_
    have hheard := h.heard c hc hconn
    have hu' : (s.connections c).unheard = true := hu
    simp [hu'] at hheard

theorem call (h : Greeted s) (now : ℤ) (c : Call) : Greeted (s.call now c) := by
  rcases s.call_cases now c with ⟨-,he⟩ | ⟨frameType,payload,flags,-,he⟩ <;> rw [he]
  · exact h
  · exact h.sendFrame frameType payload flags now

theorem calls (h : Greeted s) (l : List (Call × ℤ)) : Greeted (s.calls l) := by
  induction l generalizing s with
  | nil => exact h
  | cons c l ih => exact ih (h.call c.2 c.1)

theorem disconnect (h : Greeted s) (now : ℤ) : Greeted (s.disconnect now) := by
  rcases s.disconnect_cases now with
    ⟨-,ping,read,tasks,status,-,-,he⟩ | ⟨-,-,t,ht,he⟩ | ⟨-,-,t,u,ht,hu,he⟩
  · rw [he]
    exact ⟨h.first,h.heard⟩
  · rw [he,ht]
    exact HelloFirst.of_not_connected h.first rfl
  · have hg : Greeted u := by
      have hf : Greeted s.stop.forgetPing.forgetRead.forgetReconnect := ⟨h.first,h.heard⟩
      rw [hu,ht]
      exact (State.createTask_aside _ .disconnectDrain).greeted (hf.sendFrame .close [] 0 now)
    rcases he with he | he <;> rw [he]
    · exact hg
    · exact (u.closeConnection_aside _).greeted hg

end Greeted

theorem HelloFirst.establish {s : State} (h : HelloFirst s) : HelloFirst s.establish := by
  intro c
  have hc : (s.establish.connections c).written =
      (Function.update s.connections s.opened {} c).written := by
    unfold State.establish State.setupPingInterval
    dsimp only
    split_ifs <;> rfl
  rw [hc]
  by_cases ho : c = s.opened
  · simp [ho]
  · simpa [ho] using h c

/-- The callbacks have sent HELLO themselves, or nothing at all. -/
theorem HelloFirst.calls {raised : Option String} {l : List (Call × ℤ)} {s : State}
    (h : HelloFirst s) (hl : letGreet raised s l = true) :
    Greeted (s.calls l) ∨ (HelloFirst (s.calls l) ∧ raised = none) := by
  induction l generalizing s with
  | nil => exact .inr ⟨h,Option.isNone_iff_eq_none.mp hl⟩
  | cons call l ih =>
    obtain ⟨c,now⟩ := call
    rw [letGreet] at hl
    rcases s.call_cases now c with ⟨hframe,he⟩ | ⟨frameType,payload,flags,hframe,he⟩
    · simp only [State.bytes,hframe,Option.bind_none] at hl
      have hcall : HelloFirst (s.call now c) := by
        rw [he]
        exact h
      exact ih hcall hl
    · simp only [State.bytes,hframe,Option.bind_some] at hl
      cases hb : frameBytes frameType.code payload flags (s.generateMsgId now).1 with
      | some bytes =>
        simp only [hb,decide_eq_true_eq] at hl
        have hg := h.sendFrame hb hl
        rw [← he] at hg
        exact .inl (hg.calls l)
      | none =>
        simp only [hb] at hl
        have hcall : HelloFirst (s.call now c) := by
          rw [he]
          rcases s.sendFrame_cases frameType payload flags now with
            ⟨hs,-⟩ | ⟨hs,-⟩ | ⟨c',bytes,-,-,hb',-⟩
          · rw [hs]
            exact h
          · rw [hs]
            exact h
          · rw [hb] at hb'
            cases hb'
        exact ih hcall hl

theorem HelloFirst.onOpened {s : State} (h : HelloFirst s) {connectCalls : List (Call × ℤ)}
    {raised : Option String} (hl : letGreet raised s.establish connectCalls = true) (now : ℤ) :
    Greeted (s.onOpened connectCalls raised now).2 := by
  unfold State.onOpened
  dsimp only
  cases hr : raised with
  | some message =>
    rcases h.establish.calls hl with hg | ⟨-,hn⟩
    · exact (State.emitError_aside _ _).greeted hg
    · rw [hr] at hn
      cases hn
  | none =>
    have hfirst : HelloFirst (s.establish.calls connectCalls) := by
      rcases h.establish.calls hl with hg | ⟨hf,-⟩
      · exact hg.first
      · exact hf
    have hg := hfirst.sayHello now
    dsimp only
    split
    · next message t ht =>
      rw [ht] at hg
      exact (State.emitError_aside _ _).greeted hg
    · next t ht =>
      rw [ht] at hg
      exact hg

theorem greeted_step (s : State) (e : Event) (t : State) (h : Greeted s) (hg : LetsGreet s e)
    (hs : step s e = some t) : Greeted t := by
  cases step_move hs with
  | disconnectCall now => exact h.disconnect now
  | call c now => exact h.call now c
  | opened i wait connectCalls raised now =>
    exact (State.endConnect_aside _ i wait _).greeted (h.first.onOpened hg now)
  | pinged i now =>
    have hp : Greeted (s.ping now).2 := h.sendFrame .ping [] 0 now
    exact (State.setTask_aside _ i _).greeted hp
  | pingOver i | reconnectOver i => exact (s.setTask_aside i _).greeted h
  | reconnectOpening => exact ⟨h.first,h.heard⟩
  | closed i => exact HelloFirst.of_not_connected h.first rfl
  | _ => exact (step_aside hs rfl).greeted h

/-- In every run that lets HELLO go first, it does on every connection. -/
theorem helloFirst (options : Options) (events : List Event)
    (hg : ∀ p ∈ steps step (init options) events, LetsGreet p.1 p.2) :
    ∀ s ∈ states step (init options) events, HelloFirst s := by
  have hinit : Greeted (init options) := ⟨fun _ => first_nil,nofun⟩
  exact fun s hs => (invariant_of_steps greeted_step hinit hg s hs).first

/-! The client ids in HELLO. -/

/-- The handshake is about to write HELLO, once the connection is open and the callbacks have
returned. -/
def State.saysHello (s : State) : Event → Bool
  | .opened _ connectCalls none now =>
    let t := s.establish.calls connectCalls
    t.writer.isSome && t.connected &&
      (frameBytes FrameType.hello.code (Utf8.encode t.clientId) flagsNone
        (t.generateMsgId now).1).isSome
  | _ => false

/-- The step writes no HELLO, or the first one, or the one before has the configured client id for
its message id. -/
def KeepsIdentity (s : State) (e : Event) : Prop :=
  s.saysHello e = true → ∀ h ∈ (hellos s.log).head?, decimal h.2 = s.options.clientId

structure SameName (s t : State) : Prop where
  options : t.options.clientId = s.options.clientId
  clientId : t.clientId = s.clientId
  hellos : hellos t.log = hellos s.log

namespace SameName

variable {s t u : State}

theorem refl (s : State) : SameName s s := ⟨rfl,rfl,rfl⟩

theorem trans (h : SameName s t) (h' : SameName t u) : SameName s u :=
  ⟨h'.options.trans h.options,h'.clientId.trans h.clientId,h'.hellos.trans h.hellos⟩

end SameName

theorem Aside.sameName {s t : State} (h : Aside s t) : SameName s t :=
  ⟨h.options,h.clientId,h.hellos⟩

namespace State

variable (s : State)

theorem sending_sameName : Sending SameName :=
  ⟨SameName.refl,SameName.trans,fun _ _ => ⟨rfl,rfl,rfl⟩,fun _ _ _ => ⟨rfl,rfl,rfl⟩⟩

theorem disconnect_sameName (now : ℤ) : SameName s (s.disconnect now) := by
  rcases s.disconnect_cases now with
    ⟨-,ping,read,tasks,status,-,-,he⟩ | ⟨-,-,t,ht,he⟩ | ⟨-,-,t,u,ht,hu,he⟩
  · rw [he]
    exact ⟨rfl,rfl,rfl⟩
  · rw [he,ht]
    exact ⟨rfl,rfl,rfl⟩
  · have hn : SameName s u := by
      have hf : SameName s s.stop.forgetPing.forgetRead.forgetReconnect := ⟨rfl,rfl,rfl⟩
      rw [hu,ht]
      exact (hf.trans (sending_sameName.sendFrame _ .close [] 0 now)).trans
        (createTask_aside _ .disconnectDrain).sameName
    rcases he with he | he <;> rw [he]
    · exact hn
    · exact hn.trans (u.closeConnection_aside _).sameName

theorem establish_sameName : SameName s s.establish := by
  unfold establish setupPingInterval
  dsimp only
  split_ifs <;> exact ⟨rfl,rfl,rfl⟩

/-- With the callbacks done, HELLO is written and the client id changed, or neither happens. -/
theorem onOpened_cases (connectCalls : List (Call × ℤ)) (raised : Option String) (now : ℤ) :
    let t := s.establish.calls connectCalls
    (raised = none ∧ t.writer.isSome = true ∧ t.connected = true ∧
      (frameBytes FrameType.hello.code (Utf8.encode t.clientId) flagsNone
        (t.generateMsgId now).1).isSome = true ∧
      (s.onOpened connectCalls raised now).2.clientId = decimal (t.generateMsgId now).1 ∧
      (s.onOpened connectCalls raised now).2.options.clientId = t.options.clientId ∧
      hellos (s.onOpened connectCalls raised now).2.log =
        (Utf8.encode t.clientId,(t.generateMsgId now).1) :: hellos t.log) ∨
    ((∀ task, s.saysHello (.opened task connectCalls raised now) = false) ∧
      SameName t (s.onOpened connectCalls raised now).2) := by
  cases raised with
  | some message => exact .inr ⟨fun _ => rfl,⟨rfl,rfl,rfl⟩⟩
  | none =>
    rcases (s.establish.calls connectCalls).sayHello_cases now with
      ⟨c,bytes,hc,hconn,hb,he⟩ | ⟨hno,n,message,he⟩
    · refine .inl ⟨rfl,by simp [hc],hconn,by simp [hb],?_⟩
      simp only [onOpened,he]
      exact ⟨rfl,rfl,rfl⟩
    · refine .inr ⟨fun _ => ?_,?_⟩
      · rcases hno with hno | hno | hno <;> simp [saysHello,hno]
      · simp only [onOpened,he]
        exact ⟨rfl,rfl,rfl⟩

end State

theorem step_sameName {s t : State} {e : Event} (h : step s e = some t)
    (hs : s.saysHello e = false) : SameName s t := by
  cases step_move h with
  | disconnectCall now => exact s.disconnect_sameName now
  | call c now => exact State.sending_sameName.call s now c
  | opened i wait connectCalls raised now =>
    have ho : SameName s (s.onOpened connectCalls raised now).2 := by
      rcases s.onOpened_cases connectCalls raised now with ⟨hr,hw,hc,hb,-⟩ | ⟨-,hn⟩
      · subst hr
        simp [State.saysHello,hw,hc,hb] at hs
      · exact (s.establish_sameName.trans (State.sending_sameName.calls _ connectCalls)).trans hn
    exact ho.trans (State.endConnect_aside _ i wait _).sameName
  | pinged i now =>
    have hp : SameName s (s.ping now).2 := State.sending_sameName.sendFrame s .ping [] 0 now
    exact hp.trans (State.setTask_aside _ i _).sameName
  | pingOver i | reconnectOver i => exact (s.setTask_aside i _).sameName
  | reconnectOpening | closed => exact ⟨rfl,rfl,rfl⟩
  | _ => exact (step_aside h rfl).sameName

/-- A step that writes HELLO puts the client id into it, and its message id into the client id. -/
theorem step_saysHello {s t : State} {e : Event} (h : step s e = some t)
    (hs : s.saysHello e = true) : ∃ msgId, t.options.clientId = s.options.clientId ∧
      t.clientId = decimal msgId ∧
      hellos t.log = (Utf8.encode s.clientId,msgId) :: hellos s.log := by
  cases e with
  | opened i connectCalls raised now =>
    have ho : ∃ msgId,
        (s.onOpened connectCalls raised now).2.options.clientId = s.options.clientId ∧
        (s.onOpened connectCalls raised now).2.clientId = decimal msgId ∧
        hellos (s.onOpened connectCalls raised now).2.log =
          (Utf8.encode s.clientId,msgId) :: hellos s.log := by
      have hcalls := s.establish_sameName.trans (State.sending_sameName.calls _ connectCalls)
      rcases s.onOpened_cases connectCalls raised now with ⟨-,-,-,-,hid,ho,hlog⟩ | ⟨hn,-⟩
      · rw [hcalls.clientId,hcalls.hellos] at hlog
        exact ⟨_,ho.trans hcalls.options,hid,hlog⟩
      · rw [hn i] at hs
        cases hs
    obtain ⟨msgId,hoptions,hid,hlog⟩ := ho
    cases step_move h with
    | opened _ wait =>
      have hend := (State.endConnect_aside (s.onOpened connectCalls raised now).2 i wait
        (s.onOpened connectCalls raised now).1.isSome).sameName
      exact ⟨msgId,hend.options.trans hoptions,hend.clientId.trans hid,hend.hellos.trans hlog⟩
  | _ => cases hs

def handshaking : Handshaking step decimal where
  configured s := s.options.clientId
  clientId := State.clientId
  hellos s := hellos s.log
  saysHello := State.saysHello
  keeps _ _ _ h hs :=
    have hn := step_sameName h hs
    ⟨hn.options,hn.clientId,hn.hellos⟩
  writes _ _ _ := step_saysHello

/-- In every run, all HELLO frames carry the configured client id exactly when each is the first, or
follows one with that client id for its message id. -/
theorem identity_stable_iff (options : Options) (events : List Event) :
    (∀ s ∈ states step (init options) events, Stable options.clientId (hellos s.log)) ↔
      ∀ p ∈ steps step (init options) events, KeepsIdentity p.1 p.2 :=
  Handshaking.stable_iff (H := handshaking) rfl rfl events

end Py
end MipClients
