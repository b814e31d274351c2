import MipClients.HelloFrame
import MipClients.Transition
import MipClients.TsHandlers

/-! The handshake of the TypeScript client. `onConnect` lets the 'connect' listeners run with
`connected` already set, sends HELLO after them, and makes the message id of HELLO the client id that
the next HELLO will carry. -/
namespace MipClients
namespace Ts

open HelloFrame
open Transition
open Utf8 (Text)
open Wire (FrameType)

/-! The first frame on each connection. -/

def Socket.unheard (k : Socket) : Bool := !k.destroyed && k.written.isEmpty

namespace State

variable (s : State)

/-- The 'connect' listeners run, and nothing has been written to `this.socket`. -/
def awaitsHello : Bool :=
  match s.cont with
  | some (.onConnect _) => s.socket.any fun i => (s.sockets i).unheard
  | _ => false

/-- A listener sends a frame of another type or throws, or HELLO itself cannot be built. -/
def skipsHello : Event → Bool
  | .call c now => c.frame.any fun (frameType,payload,flags) =>
    frameType ≠ FrameType.hello.code &&
      (frameBytes frameType payload flags (s.generateMsgId now).1).isSome
  | .listenersReturn now =>
    (frameBytes FrameType.hello.code (Utf8.encode s.clientId) flagsNone
      (s.generateMsgId now).1).isNone
  | .listenerThrows => true
  | .host _ => false

end State

def LetsGreet (s : State) (e : Event) : Prop := s.awaitsHello = true → s.skipsHello e = false

instance (s : State) (e : Event) : Decidable (LetsGreet s e) :=
  inferInstanceAs (Decidable (_ → _))

def HelloFirst (s : State) : Prop := ∀ i, First (s.sockets i).written

/-- What holds between two steps: a connected client has been heard, unless it is about to greet. -/
structure Greeted (s : State) : Prop where
  first : HelloFirst s
  heard : ∀ i, s.socket = some i → s.connected = true → (s.sockets i).unheard = true →
    ∃ k, s.cont = some (.onConnect k)

structure Silent (s t : State) : Prop where
  written : ∀ i, (t.sockets i).written = (s.sockets i).written
  destroyed : ∀ i, (s.sockets i).destroyed = true → (t.sockets i).destroyed = true
  socket : t.socket = s.socket
  connected : t.connected = true → s.connected = true

namespace Silent

variable {s t u : State}

theorem refl (s : State) : Silent s s := ⟨fun _ => rfl,fun _ => id,rfl,id⟩

theorem trans (h : Silent s t) (h' : Silent t u) : Silent s u where
  written := fun i => (h'.written i).trans (h.written i)
  destroyed := fun i => h'.destroyed i ∘ h.destroyed i
  socket := h'.socket.trans h.socket
  connected := h.connected ∘ h'.connected

theorem unheard (h : Silent s t) {i : ℕ} (hu : (t.sockets i).unheard = true) :
    (s.sockets i).unheard = true := by
  simp only [Socket.unheard,Bool.and_eq_true,Bool.not_eq_true',h.written i] at hu ⊢
  exact ⟨Bool.eq_false_iff.mpr fun hd => by simp [h.destroyed i hd] at hu,hu.2⟩

end Silent

theorem Proceeds.silent {s t : State} (h : Proceeds s t) : Silent s t := by
  cases h <;> exact ⟨fun _ => rfl,fun _ => id,rfl,id⟩

namespace State

variable (s : State)

theorem updateSocket_silent (i : ℕ) {f : Socket → Socket}
    (hw : (f (s.sockets i)).written = (s.sockets i).written)
    (hd : (s.sockets i).destroyed = true → (f (s.sockets i)).destroyed = true) :
    Silent s (s.updateSocket i f) := by
  refine ⟨fun j => ?_,fun j hj => ?_,rfl,id⟩
  · by_cases hji : j = i
    · subst hji
      simpa using hw
    · simp [hji]
  · by_cases hji : j = i
    · subst hji
      simpa using hd hj
    · simpa [hji] using hj

theorem destroy_silent (i : ℕ) : Silent s (s.destroy i) :=
  s.updateSocket_silent i rfl fun _ => rfl

theorem resolve_silent (i : ℕ) : Silent s (s.resolve i) :=
  s.updateSocket_silent i (by split_ifs <;> rfl) fun h => by split_ifs <;> exact h

theorem reject_silent (i : ℕ) : Silent s (s.reject i) := by
  have h : Silent s (s.updateSocket i fun k => { k with promise := .rejected }) :=
    s.updateSocket_silent i rfl id
  unfold reject
  dsimp only
  split_ifs
  · exact ⟨h.written,h.destroyed,h.socket,h.connected⟩
  · exact h
  · exact Silent.refl s

theorem onError_silent (i : ℕ) (message : String) : Silent s (s.onError i message) := by
  have h : Silent s (if s.connected then s else s.reject i) := by
    split_ifs
    · exact Silent.refl s
    · exact s.reject_silent i
  exact ⟨h.written,h.destroyed,h.socket,h.connected⟩

theorem handleClose_silent (r : Return) : Silent s (s.handleClose r) := by
  rcases s.handleClose_cases r with ⟨-,h⟩ | ⟨-,hp⟩
  · rw [h]
    exact ⟨fun _ => rfl,fun _ => id,rfl,nofun⟩
  · have hc : Silent s { s with connected := false }.cleanup :=
      ⟨fun _ => rfl,fun _ => id,rfl,nofun⟩
    exact hc.trans hp.silent

theorem write_heard (i : ℕ) (bytes : List UInt8) :
    ((s.write i bytes).sockets i).unheard = false := by
  simp only [write,State.updateSocket_self,Socket.unheard]
  split_ifs with hd
  · simp [hd]
  · simp

end State

theorem HelloFirst.write {s : State} (h : HelloFirst s) {i : ℕ} {bytes : List UInt8}
    (hb : (s.sockets i).unheard = true → BigEndian.field bytes 6 2 = FrameType.hello.code) :
    HelloFirst (s.write i bytes) := by
  intro j
  by_cases hj : j = i
  · subst hj
    simp only [State.write,State.updateSocket_self]
    split_ifs with hd
    · exact h j
    · exact (h j).append fun hw => hb (by simp [Socket.unheard,hd,hw])
  · simp only [State.write,State.updateSocket_of_ne _ hj]
    exact h j

namespace Greeted

variable {s t : State}

theorem silent (h : Greeted s) (hl : Silent s t)
    (hk : t.cont = s.cont ∨ ∀ i, s.cont ≠ some (.onConnect i)) : Greeted t where
  first := fun i => hl.written i ▸ h.first i
  heard := fun i hi hc hu => by
    obtain ⟨k,hcont⟩ := h.heard i (hl.socket ▸ hi) (hl.connected hc) (hl.unheard hu)
    rcases hk with hk | hk
    · exact ⟨k,hk.trans hcont⟩
    · exact absurd hcont (hk k)

theorem awaitsHello (h : Greeted s) {i : ℕ} (hi : s.socket = some i) (hc : s.connected = true)
    (hu : (s.sockets i).unheard = true) : s.awaitsHello = true := by
  obtain ⟨k,hk⟩ := h.heard i hi hc hu
  simp [State.awaitsHello,hk,hi,hu]

theorem write (h : Greeted s) {i : ℕ} (hi : s.socket = some i) {bytes : List UInt8}
    (hb : (s.sockets i).unheard = true → BigEndian.field bytes 6 2 = FrameType.hello.code) :
    Greeted (s.write i bytes) := by
  refine ⟨h.first.write hb,fun j hj _ hu => ?_⟩
  have hji : j = i := Option.some.inj (hj.symm.trans hi)
  rw [hji,State.write_heard] at hu
  cases hu

/-- Sending keeps HELLO first if a frame that would go before it is a HELLO frame. -/
theorem sendFrame (h : Greeted s) {frameType : ℕ} {payload : List UInt8} {flags : ℕ} {now : ℤ}
    (hf : s.awaitsHello = true → frameType ≠ FrameType.hello.code →
      frameBytes frameType payload flags (s.generateMsgId now).1 = none) :
    Greeted (s.sendFrame frameType payload flags now).2 := by
  rcases s.sendFrame_cases frameType payload flags now with
    ⟨he,-⟩ | ⟨he,-⟩ | ⟨i,bytes,hi,hc,hb,he⟩ <;> rw [he]
  · exact h
  · exact ⟨h.first,h.heard⟩
  · refine write (s := (s.generateMsgId now).2) ⟨h.first,h.heard⟩ hi fun hu => ?_
    rw [field_frameBytes hb]
    by_contra hne
    simp [hf (h.awaitsHello hi hc hu) hne] at hb

theorem connect (h : Greeted s) (retry : Bool) : Greeted (s.connect retry) := by
  unfold State.connect
  split_ifs with hc
  · exact h
  · refine ⟨fun i => ?_,fun i _ hc' => absurd hc' hc⟩
    by_cases hi : i = s.opened
    · simp [hi]
    · simpa [hi] using h.first i

theorem disconnect (h : Greeted s) {now : ℤ}
    (hf : s.awaitsHello = true →
      frameBytes FrameType.close.code [] 0 (s.generateMsgId now).1 = none) :
    Greeted (s.disconnect now) := by
  have hs : Greeted (s.setAutoReconnect false).cleanup := ⟨h.first,h.heard⟩
  have hclose : Greeted ((s.setAutoReconnect false).cleanup.sendFrame FrameType.close.code [] 0
      now).2 := hs.sendFrame fun ha _ => hf ha
  rw [← State.sendClose_eq] at hclose
  unfold State.disconnect
  dsimp only
  split
  · next i hi => exact ⟨(hclose.silent (State.destroy_silent _ i) (.inl rfl)).first,nofun⟩
  · exact ⟨hs.first,nofun⟩

theorem call (h : Greeted s) {c : Call} {now : ℤ} (hg : LetsGreet s (.call c now)) :
    Greeted (s.call now c) := by
  have hf : ∀ frameType payload flags, c.frame = some (frameType,payload,flags) →
      s.awaitsHello = true → frameType ≠ FrameType.hello.code →
      frameBytes frameType payload flags (s.generateMsgId now).1 = none := by
    intro frameType payload flags hc ha hne
    have hskip := hg ha
    simpa [State.skipsHello,hc,hne] using hskip
  have hsends (hc : (Event.call c now).sends = true) : Greeted (s.call now c) := by
    rcases s.call_frame now hc with he | ⟨frameType,payload,flags,hframe,he⟩ <;> rw [he]
    · exact h
    · exact h.sendFrame (hf frameType payload flags hframe)
  cases c with
  | connect => exact connect (s := { s with log := .connectCall :: s.log }) ⟨h.first,h.heard⟩ false
  | disconnect =>
    have hd := h.disconnect fun ha => hf FrameType.close.code [] 0 rfl ha (by decide)
    exact ⟨hd.first,hd.heard⟩
  | _ => exact hsends rfl

theorem sayHello (h : Greeted s) {now : ℤ} (hg : LetsGreet s (.listenersReturn now)) (i : ℕ) :
    Greeted (s.sayHello i now) := by
  rcases s.sayHello_cases i now with ⟨j,bytes,hj,hc,hb,he⟩ | ⟨hno,n,error,he⟩ <;> rw [he]
  · have hfirst : HelloFirst (s.generateMsgId now).2 := h.first
    have hwrite : HelloFirst ((s.generateMsgId now).2.write j bytes) :=
      hfirst.write fun _ => field_frameBytes hb
    have hr := State.resolve_silent { (s.generateMsgId now).2.write j bytes with
      clientId := decimal (s.generateMsgId now).1
      log := .hello (Utf8.encode s.clientId) (s.generateMsgId now).1 :: s.log } i
    refine ⟨fun k => hr.written k ▸ hwrite k,fun k hk' _ hu => ?_⟩
    have hkj : k = j := Option.some.inj (hk'.symm.trans hj)
    have hheard := hr.unheard hu
    rw [hkj] at hheard
    exact absurd hheard (by simp [State.write_heard])
  · refine ⟨h.first,fun j hj hc hu => ?_⟩
    have hskip := hg (h.awaitsHello hj hc hu)
    rcases hno with hno | hno | hno
    · rw [hno] at hj
      cases hj
    · rw [hno] at hc
      cases hc
    · simp [State.skipsHello,hno] at hskip

end Greeted

theorem greeted_step (s : State) (e : Event) (t : State) (h : Greeted s) (hg : LetsGreet s e)
    (hs : step s e = some t) : Greeted t := by
  cases e with
  | call c now =>
    cases hs
    exact h.call hg
  | listenerThrows =>
    obtain ⟨k,hk,rfl⟩ := Option.map_eq_some_iff.mp hs
    refine ⟨h.first,fun i hi hc hu => ?_⟩
    have hskip := hg (h.awaitsHello hi hc hu)
    cases hskip
  | listenersReturn now =>
    cases step_move hs with
    | sends he hsent => cases he
    | @sayHello i now hk => exact h.sayHello hg i
    | @helloFailed i now hk =>
      have hl : Silent s (s.resolve i).finish :=
        (s.resolve_silent i).trans ⟨fun _ => rfl,fun _ => id,rfl,id⟩
      exact h.silent hl (.inr (by simp [hk]))
    | @destroy i now hk hsocket =>
      have hl : Silent s (s.destroy i).finish :=
        (s.destroy_silent i).trans ⟨fun _ => rfl,fun _ => id,rfl,id⟩
      exact h.silent hl (.inr (by simp [hk]))
    | setReconnectTimer now hk hp =>
      have hl : Silent s { s with
          reconnectTimer := some s.nextTimer
          timeouts := s.nextTimer :: s.timeouts
          nextTimer := s.nextTimer + 1 } := ⟨fun _ => rfl,fun _ => id,rfl,id⟩
      exact h.silent (hl.trans hp.silent) (.inr (by simp [hk]))
    | proceeds now hk hr hg hc ht hp =>
      exact h.silent hp.silent (.inr fun i hi => hg i (Option.some.inj (hk.symm.trans hi)))
    | @closeFrame i r now hc =>
      obtain ⟨header,payload,hk⟩ := State.closes_cont hc
      have hl : Silent s (s.updateSocket i Socket.deliverClose) :=
        s.updateSocket_silent i rfl id
      exact h.silent (hl.trans (State.handleClose_silent _ r)) (.inr (by simp [hk]))
  | host e =>
    have hidle : ∀ i, s.cont ≠ some (.onConnect i) := by
      intro i hi
      simp [step,hi] at hs
    cases step_move hs with
    | sends he hsent =>
      cases hsent with
      | notConnected => exact h
      | rangeError now => exact ⟨h.first,h.heard⟩
      | @wrote now i bytes hi hc =>
        refine Greeted.write (s := (s.generateMsgId now).2) ⟨h.first,h.heard⟩ hi fun hu => ?_
        obtain ⟨k,hk⟩ := h.heard i hi hc hu
        exact absurd hk (hidle k)
    | @connect i hi hopen hphase =>
      have hl : Silent s (s.updateSocket i Socket.emitConnect) := s.updateSocket_silent i rfl id
      obtain ⟨timer,intervals,n,ho⟩ := (s.updateSocket i Socket.emitConnect).onConnect_eq i
      rw [ho]
      exact ⟨fun j => hl.written j ▸ h.first j,fun _ _ _ _ => ⟨i,rfl⟩⟩
    | @error i message hi hopen hphase hfirst =>
      have hl : Silent s (s.updateSocket i Socket.emitError) :=
        s.updateSocket_silent i rfl fun _ => rfl
      exact h.silent (hl.trans (State.onError_silent _ i message)) (.inr hidle)
    | @laterError i t message hi hp =>
      have hl : Silent s (s.updateSocket i Socket.emitError) :=
        s.updateSocket_silent i rfl fun _ => rfl
      exact h.silent (hl.trans hp.silent) (.inr hidle)
    | @data i data hi hopen hphase =>
      have hl : Silent s (s.updateSocket i (Socket.receive data)) := s.updateSocket_silent i rfl id
      exact h.silent (hl.trans (State.loop_proceeds _ _ i).silent) (.inr hidle)
    | @close i hi hopen hphase =>
      have hl : Silent s (s.updateSocket i Socket.emitClose) :=
        s.updateSocket_silent i rfl fun _ => rfl
      exact h.silent (hl.trans (State.handleClose_silent _ .done)) (.inr hidle)
    | @timeout timer hi hlive =>
      exact Greeted.connect (s := { s with
        timeouts := clear (some timer) s.timeouts
        reconnectTimer := none
        log := .retry :: s.log }) ⟨h.first,h.heard⟩ true
    | rejection hi hpending hauto => exact ⟨h.first,h.heard⟩
    | reschedule hi hpending hp =>
      have hl : Silent s { s with rejections := s.rejections - 1 } :=
        ⟨fun _ => rfl,fun _ => id,rfl,id⟩
      exact h.silent (hl.trans hp.silent) (.inr hidle)

/-- In every run that lets HELLO go first, it does on every connection. -/
theorem helloFirst (options : Options) (events : List Event)
    (hg : ∀ p ∈ steps step (init options) events, LetsGreet p.1 p.2) :
    ∀ s ∈ states step (init options) events, HelloFirst s := by
  have hinit : Greeted (init options) := ⟨fun _ => first_nil,nofun⟩
  exact fun s hs => (invariant_of_steps greeted_step hinit hg s hs).first

/-! The client ids in HELLO. -/

/-- The HELLO frames the handshakes have written, with payload and message id, the latest first. -/
def hellos (log : List Entry) : List (List UInt8 × ℤ) :=
  log.filterMap fun e => match e with
    | .hello payload msgId => some (payload,msgId)
    | _ => none

/-- The handshake is about to write HELLO. -/
def State.saysHello (s : State) : Event → Bool
  | .listenersReturn now =>
    match s.cont with
    | some (.onConnect _) => s.socket.isSome && s.connected &&
      (frameBytes FrameType.hello.code (Utf8.encode s.clientId) flagsNone
        (s.generateMsgId now).1).isSome
    | _ => false
  | _ => false

/-- The step writes no HELLO, or the first one, or the one before has the configured client id for
its message id. -/
def KeepsIdentity (s : State) (e : Event) : Prop :=
  s.saysHello e = true → ∀ h ∈ (hellos s.log).head?, decimal h.2 = s.options.clientId

structure SameName (s t : State) : Prop where
  options : t.options.clientId = s.options.clientId
  clientId : t.clientId = s.clientId
  hellos : hellos t.log = hellos s.log

namespace SameName

variable {s t u : State}

theorem refl (s : State) : SameName s s := ⟨rfl,rfl,rfl⟩

theorem trans (h : SameName s t) (h' : SameName t u) : SameName s u :=
  ⟨h'.options.trans h.options,h'.clientId.trans h.clientId,h'.hellos.trans h.hellos⟩

end SameName

theorem Proceeds.sameName {s t : State} (h : Proceeds s t) : SameName s t := by
  cases h <;> exact ⟨rfl,rfl,rfl⟩

theorem State.handleClose_sameName (s : State) (r : Return) : SameName s (s.handleClose r) := by
  rcases s.handleClose_cases r with ⟨-,h⟩ | ⟨-,hp⟩
  · rw [h]
    exact ⟨rfl,rfl,rfl⟩
  · have hc : SameName s { s with connected := false }.cleanup := ⟨rfl,rfl,rfl⟩
    exact hc.trans hp.sameName

theorem State.connect_sameName (s : State) (retry : Bool) : SameName s (s.connect retry) := by
  unfold State.connect
  split_ifs <;> exact ⟨rfl,rfl,rfl⟩

theorem Move.sameName {s t : State} {e : Event} (h : Move s e t) (hs : s.saysHello e = false) :
    SameName s t := by
  cases h with
  | connectCall now =>
    have hn := State.connect_sameName { s with log := .connectCall :: s.log } false
    exact ⟨hn.options,hn.clientId,hn.hellos⟩
  | disconnectCall now =>
    obtain ⟨n,sockets,hd⟩ := s.disconnect_eq now
    rw [hd]
    exact ⟨rfl,rfl,rfl⟩
  | sends he hsent =>
    obtain ⟨n,sockets,rfl⟩ := hsent.eq
    exact ⟨rfl,rfl,rfl⟩
  | @sayHello i now hk =>
    rcases s.sayHello_cases i now with ⟨j,bytes,hj,hc,hb,-⟩ | ⟨-,n,error,he⟩
    · simp [State.saysHello,hk,hj,hc,hb] at hs
    · rw [he]
      exact ⟨rfl,rfl,rfl⟩
  | throws hk | helloFailed now hk | destroy now hk hsocket => exact ⟨rfl,rfl,rfl⟩
  | setReconnectTimer now hk hp | proceeds now hk hr hg hc ht hp | laterError message hi hp =>
    have hn := hp.sameName
    exact ⟨hn.options,hn.clientId,hn.hellos⟩
  | @closeFrame i r now hc =>
    have hn := (s.updateSocket i Socket.deliverClose).handleClose_sameName r
    exact ⟨hn.options,hn.clientId,hn.hellos⟩
  | @connect i hi hopen hphase =>
    obtain ⟨timer,intervals,n,ho⟩ := (s.updateSocket i Socket.emitConnect).onConnect_eq i
    rw [ho]
    exact ⟨rfl,rfl,rfl⟩
  | @error i message hi hopen hphase hfirst =>
    obtain ⟨sockets,n,ho⟩ := (s.updateSocket i Socket.emitError).onError_eq i message
    rw [ho]
    exact ⟨rfl,rfl,rfl⟩
  | @data i data hi hopen hphase =>
    have hn := (State.loop_proceeds (s.updateSocket i (Socket.receive data)) (s.buffer ++ data)
      i).sameName
    exact ⟨hn.options,hn.clientId,hn.hellos⟩
  | @close i hi hopen hphase =>
    have hn := (s.updateSocket i Socket.emitClose).handleClose_sameName .done
    exact ⟨hn.options,hn.clientId,hn.hellos⟩
  | @timeout timer hi hlive =>
    have hn := State.connect_sameName { s with
      timeouts := clear (some timer) s.timeouts
      reconnectTimer := none
      log := .retry :: s.log } true
    exact ⟨hn.options,hn.clientId,hn.hellos⟩
  | rejection hi hpending hauto => exact ⟨rfl,rfl,rfl⟩
  | reschedule hi hpending hp =>
    have hn := hp.sameName
    exact ⟨hn.options,hn.clientId,hn.hellos⟩

/-- A step that writes HELLO puts the client id into it, and its message id into the client id. -/
theorem step_saysHello {s t : State} {e : Event} (h : step s e = some t)
    (hs : s.saysHello e = true) : ∃ msgId, t.options.clientId = s.options.clientId ∧
      t.clientId = decimal msgId ∧
      hellos t.log = (Utf8.encode s.clientId,msgId) :: hellos s.log := by
  cases e with
  | listenersReturn now =>
    obtain ⟨k,hk,rfl⟩ := Option.map_eq_some_iff.mp h
    cases k with
    | onConnect i =>
      rcases s.sayHello_cases i now with ⟨j,bytes,hj,hc,hb,he⟩ | ⟨hno,n,error,he⟩
      · rw [State.resume,he]
        exact ⟨(s.generateMsgId now).1,rfl,rfl,rfl⟩
      · rcases hno with hno | hno | hno <;> simp [State.saysHello,hk,hno] at hs
    | _ => simp [State.saysHello,hk] at hs
  | _ => cases hs

def handshaking : Handshaking step decimal where
  configured s := s.options.clientId
  clientId := State.clientId
  hellos s := hellos s.log
  saysHello := State.saysHello
  keeps _ _ _ h hs :=
    have hn := (step_move h).sameName hs
    ⟨hn.options,hn.clientId,hn.hellos⟩
  writes _ _ _ := step_saysHello

/-- In every run, all HELLO frames carry the configured client id exactly when each is the first, or
follows one with that client id for its message id. -/
theorem identity_stable_iff (options : Options) (events : List Event) :
    (∀ s ∈ states step (init options) events, Stable options.clientId (hellos s.log)) ↔
      ∀ p ∈ steps step (init options) events, KeepsIdentity p.1 p.2 :=
  Handshaking.stable_iff (H := handshaking) rfl rfl events

end Ts
end MipClients
