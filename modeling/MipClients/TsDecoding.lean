import MipClients.Delivery
import MipClients.Fragmentation
import MipClients.TsRedelivery

/-! The data handler of the TypeScript client at work (`handleData`, `processFrame` and
`handleClose` in `index.ts`): though it is interrupted at every event, and its listeners call the
client back, it emits what the decoder reports for the data since the last `connect()`. -/
namespace MipClients
namespace Ts

open StreamDecoder Transition
open Wire (Emission Frame)

/-- What a received frame makes the client emit. A CLOSE is handled without an event of its own, and
the client's own errors have other sources, too. -/
def visible : Emission FrameHeader MIPError → Bool
  | .close => false
  | .error e => e.raw.isSome
  | _ => true

def MIPClientEvent.emission? : MIPClientEvent → Option (Emission FrameHeader MIPError)
  | .frame header payload => some (.frame header payload)
  | .event msg => some (.event msg)
  | .message msg => some (.message msg)
  | .ack msgId => some (.ack msgId)
  | .pong => some .pong
  | .error e => if e.raw.isSome then some (.error e) else none
  | .connect | .disconnect | .reconnecting _ => none

def Entry.emission? : Entry → Option (Emission FrameHeader MIPError)
  | .emit e => e.emission?
  | _ => none

/-- What the interrupted handler is still to emit for the frame it is at. -/
def Cont.pending : Cont → List (Emission FrameHeader MIPError)
  | .frame _ header payload => (Ts.processFrame header payload).tail.filter visible
  | .event _ msg => [.message msg]
  | _ => []

def Return.decode (buffer : List UInt8) : Return → Result UInt8 (Emission FrameHeader MIPError)
  | .done => ⟨[],buffer,false⟩
  | .loop _ length => StreamDecoder.run framing.decoder (buffer.drop length)

namespace State

def emissions (s : State) : List (Emission FrameHeader MIPError) :=
  (s.log.filterMap Entry.emission?).reverse

def rest (s : State) : Result UInt8 (Emission FrameHeader MIPError) :=
  match s.cont with
  | none => ⟨[],s.buffer,false⟩
  | some k => ((k.return?.getD .done).decode s.buffer).after k.pending

/-- What has been emitted since a state and what is left to be are what was left in it. -/
structure Follows (u : State) (r : Result UInt8 (Emission FrameHeader MIPError)) (t : State) :
    Prop where
  opened : t.opened = u.opened
  emits : ∃ new, t.emissions = u.emissions ++ new ∧
    new ++ t.rest.out.filter visible = r.out.filter visible
  buffer : t.rest.buffer = r.buffer

variable {s t : State} {r : Return}

theorem emissions_cons {e : Entry} (h : t.log = e :: s.log) :
    t.emissions = s.emissions ++ e.emission?.toList := by
  rw [emissions,h,List.filterMap_cons]
  cases e.emission? <;> simp [emissions]

theorem emissions_skip {e : Entry} (h : t.log = e :: s.log) (he : e.emission? = none) :
    t.emissions = s.emissions := by
  rw [emissions_cons h,he,Option.toList_none,List.append_nil]

theorem Follows.of_eq {result : Result UInt8 (Emission FrameHeader MIPError)}
    (ho : t.opened = s.opened) (hlog : t.emissions = s.emissions) (hrest : t.rest = result) :
    s.Follows result t :=
  ⟨ho,⟨[],by rw [hlog,List.append_nil],by rw [hrest]; rfl⟩,by rw [hrest]⟩

theorem Follows.emit {e : MIPClientEvent} {k : Cont}
    {result : Result UInt8 (Emission FrameHeader MIPError)}
    (hout : e.emission?.toList ++ (k.pending ++ ((k.return?.getD .done).decode s.buffer).out).filter
      visible = result.out.filter visible)
    (hbuffer : ((k.return?.getD .done).decode s.buffer).buffer = result.buffer) :
    s.Follows result (s.emit e k) :=
  ⟨rfl,⟨e.emission?.toList,emissions_cons (e := .emit e) rfl,hout⟩,hbuffer⟩

theorem Follows.congr {u : State} {result result' : Result UInt8 (Emission FrameHeader MIPError)}
    (h : u.Follows result' t) (ho : u.opened = s.opened) (hlog : u.emissions = s.emissions)
    (hresult : result' = result) : s.Follows result t := by
  obtain ⟨hopened,⟨new,hnew,hout⟩,hbuffer⟩ := h
  subst hresult
  exact ⟨hopened.trans ho,⟨new,by rw [hnew,hlog],hout⟩,hbuffer⟩

/-- The loop emits the next frame that the decoder reports. -/
theorem loop_follows (s : State) (i : ℕ) :
    s.Follows (StreamDecoder.run framing.decoder s.buffer) (s.loop i) := by
  rcases s.loop_cases i with ⟨hpass,h⟩ | ⟨error,hpass,h⟩ | ⟨header,payload,hpass,h⟩ <;> rw [h]
  · exact .of_eq rfl rfl (run_wait hpass).symm
  · rw [run_stop hpass]
    refine .emit ?_ rfl
    cases he : error.raw.isSome <;>
      simp [MIPClientEvent.emission?,visible,he,Cont.pending,Return.decode,Cont.return?]
  · rw [run_deliver hpass]
    refine .emit ?_ rfl
    simp only [MIPClientEvent.emission?,Cont.pending,Return.decode,Cont.return?,Option.getD_some,
      Option.toList_some,Result.after_out,List.filter_append,List.filter_filter,Bool.and_self]
    rfl

theorem after_follows (s : State) (r : Return) : s.Follows (r.decode s.buffer) (s.after r) := by
  cases r with
  | done => exact .of_eq rfl rfl rfl
  | loop i length =>
    exact .congr (loop_follows _ i) rfl rfl rfl

theorem announce_follows (s : State) (r : Return) {e : MIPClientEvent} {k : Cont}
    (he : e.emission? = none) (hpending : k.pending = []) (hr : k.return?.getD .done = r) :
    s.Follows (r.decode s.buffer) (s.emit e k) :=
  .emit (by rw [he,hpending,hr]; rfl) (by rw [hr])

theorem scheduleReconnect_follows (s : State) (r : Return) :
    s.Follows (r.decode s.buffer) (s.scheduleReconnect r) := by
  unfold scheduleReconnect
  split_ifs
  · exact s.after_follows r
  · exact .congr (announce_follows _ r rfl rfl rfl) rfl
      (emissions_skip (s := s) (e := .maxReached) rfl rfl) rfl
  · exact .congr (announce_follows _ r rfl rfl rfl) rfl rfl rfl

theorem reconnectIfAuto_follows (s : State) (r : Return) :
    s.Follows (r.decode s.buffer) (s.reconnectIfAuto r) := by
  unfold reconnectIfAuto
  split_ifs
  · exact s.scheduleReconnect_follows r
  · exact s.after_follows r

theorem handleClose_follows (s : State) (r : Return) :
    s.Follows (r.decode s.buffer) (s.handleClose r) := by
  unfold handleClose
  dsimp only
  split_ifs
  · exact .congr (announce_follows _ r rfl rfl rfl) rfl rfl rfl
  · exact .congr (reconnectIfAuto_follows _ r) rfl rfl rfl

theorem emit_after_follows (s : State) (r : Return) {e : MIPClientEvent}
    {x : Emission FrameHeader MIPError} (he : e.emission? = some x) (hx : visible x = true) :
    s.Follows ((r.decode s.buffer).after ([x].filter visible)) (s.emit e (.after r)) :=
  .emit (by simp [he,hx,Cont.pending,Cont.return?]) rfl

/-- `processFrame` emits what the decoder reports behind the 'frame' event. -/
theorem processFrame_follows (s : State) (i : ℕ) (header : FrameHeader) (payload : List UInt8) :
    s.Follows (((Return.loop i (headerSize + header.payloadLength)).decode s.buffer).after
      ((Ts.processFrame header payload).tail.filter visible))
      (s.processFrame i header payload) := by
  unfold State.processFrame Ts.processFrame
  dsimp only [List.tail_cons]
  cases parseMessage header payload with
  | none =>
    dsimp only
    split_ifs
    · exact .congr (s.after_follows _) rfl rfl rfl
    · exact s.emit_after_follows _ rfl rfl
    · exact s.emit_after_follows _ rfl rfl
    · exact s.emit_after_follows _ rfl rfl
    · exact .congr (handleClose_follows _ _) rfl rfl rfl
    · exact .congr (s.after_follows _) rfl rfl rfl
  | some msg =>
    dsimp only
    split_ifs
    · have hevent : visible (.event msg) = true := rfl
      have hmessage : visible (.message msg) = true := rfl
      exact .emit (by simp [MIPClientEvent.emission?,Cont.pending,Cont.return?,hevent,hmessage]) rfl
    · exact s.emit_after_follows _ rfl rfl
    · exact s.emit_after_follows _ rfl rfl
    · exact s.emit_after_follows _ rfl rfl
    · exact s.emit_after_follows _ rfl rfl
    · exact .congr (handleClose_follows _ _) rfl rfl rfl
    · exact .congr (s.after_follows _) rfl rfl rfl

theorem onLaterError_follows (s : State) (message : String) :
    s.Follows ⟨[],s.buffer,false⟩ (s.onLaterError message) := by
  unfold onLaterError
  split_ifs
  · exact s.announce_follows .done rfl rfl rfl
  · exact .of_eq rfl rfl rfl

/-- The listeners return, and the handler goes on. -/
theorem resume_follows (s : State) (now : ℤ) {k : Cont} (hk : s.cont = some k) :
    s.Follows s.rest (s.resume now k) := by
  have hrest : s.rest = ((k.return?.getD .done).decode s.buffer).after k.pending := by
    rw [rest,hk]
  rw [hrest]
  cases k with
  | onConnect i =>
    unfold resume sayHello
    rcases s.sendFrame_cases Wire.FrameType.hello.code (Utf8.encode s.clientId) flagsNone now with
      ⟨h,-⟩ | ⟨h,-⟩ | ⟨j,bytes,-,-,-,h⟩ <;> simp only [h]
    · exact s.announce_follows .done rfl rfl rfl
    · exact .congr (announce_follows _ .done rfl rfl rfl) rfl rfl rfl
    · exact .of_eq rfl (emissions_skip (s := s) rfl rfl) rfl
  | helloFailed i => exact .of_eq rfl rfl rfl
  | onError message => exact s.onLaterError_follows message
  | badMagic =>
    unfold resume
    cases s.socket <;> exact .of_eq rfl rfl rfl
  | frame i header payload => exact s.processFrame_follows i header payload
  | event r msg => exact s.emit_after_follows r (x := .message msg) rfl rfl
  | handleClose r => exact s.reconnectIfAuto_follows r
  | reconnecting r => exact .congr (after_follows _ r) rfl rfl rfl
  | after r => exact s.after_follows r

end State

/-- What a step does: the handler goes on, `connect()` starts another stream, or data comes. -/
inductive Decodes (s : State) (e : Event) (t : State) : Prop
  | goesOn (he : e.data? = none) (h : s.Follows s.rest t)
  | emptied (he : e.data? = none) (ho : t.opened = s.opened + 1)
      (hemissions : t.emissions = s.emissions) (hrest : t.rest = ⟨[],[],false⟩)
  | received (data : List UInt8) (he : e.data? = some data) (hidle : s.cont = none)
      (h : s.Follows (StreamDecoder.run framing.decoder (s.buffer ++ data)) t)

def Cont.midway : Cont → Bool
  | .frame _ _ _ | .event _ _ | .handleClose (.loop _ _) | .reconnecting (.loop _ _)
  | .after (.loop _ _) => true
  | _ => false

/-- What would end the work of a handler: a listener that throws, or that opens a connection. -/
def State.disturbedBy (s : State) : Event → Bool
  | .listenerThrows => true
  | .call .connect _ => !s.connected
  | _ => false

/-- The listeners of a handler at work neither throw nor open a connection. -/
def Undisturbed (s : State) (e : Event) : Prop :=
  s.cont.any Cont.midway = true → s.disturbedBy e = false

instance (s : State) (e : Event) : Decidable (Undisturbed s e) :=
  inferInstanceAs (Decidable (_ → _))

theorem State.rest_of_not_midway {s : State} (h : s.cont.any Cont.midway = false) :
    s.rest = ⟨[],s.buffer,false⟩ := by
  unfold State.rest
  cases hk : s.cont with
  | none => rfl
  | some k =>
    rw [hk] at h
    have h : k.midway = false := h
    cases k with
    | frame | event => cases h
    | handleClose r | reconnecting r | after r =>
      cases r with
      | done => rfl
      | loop => cases h
    | _ => rfl

theorem connect_decodes {s u : State} {e : Event} (he : e.data? = none) (hcont : u.cont = s.cont)
    (hbuffer : u.buffer = s.buffer) (ho : u.opened = s.opened)
    (hemissions : u.emissions = s.emissions)
    (hidle : u.connected = false → s.cont.any Cont.midway = false) (retry : Bool) :
    Decodes s e (u.connect retry) := by
  unfold State.connect
  split_ifs with hc
  · exact .goesOn he (.of_eq ho hemissions (by rw [State.rest,State.rest,hcont,hbuffer]))
  · refine .emptied he (congrArg (· + 1) ho) ?_ ?_
    · exact (State.emissions_skip (s := u) (e := .attempt u.opened) rfl rfl).trans hemissions
    · have hmid := hidle (Bool.not_eq_true _ ▸ hc)
      rw [← hcont] at hmid
      exact State.rest_of_not_midway hmid

theorem sends_decodes {s t : State} {e : Event} (he : e.data? = none) (h : Sends s t) :
    Decodes s e t := by
  obtain ⟨n,sockets,heq⟩ := h.eq
  rw [heq]
  exact .goesOn he (.of_eq rfl rfl rfl)

theorem host_decodes {s t : State} {e : HostEvent} (hidle : s.cont = none)
    (h : s.host e = some t) : Decodes s (.host e) t := by
  have hrest : s.rest = ⟨[],s.buffer,false⟩ := by rw [State.rest,hidle]
  have hgoesOn (he : (Event.host e).data? = none) (h : s.Follows ⟨[],s.buffer,false⟩ t) :
      Decodes s (.host e) t := .goesOn he (hrest ▸ h)
  cases e <;> simp only [State.host,Option.ite_none_right_eq_some,Option.some.injEq] at h <;>
    obtain ⟨hg,rfl⟩ := h
  case connect i =>
    obtain ⟨timer,intervals,n,ho⟩ := (s.updateSocket i Socket.emitConnect).onConnect_eq i
    refine hgoesOn rfl ?_
    rw [ho]
    exact .congr (State.announce_follows _ .done rfl rfl rfl) rfl rfl rfl
  case error i message =>
    refine hgoesOn rfl ?_
    split_ifs
    · exact .congr (State.onLaterError_follows _ message) rfl rfl rfl
    · obtain ⟨sockets,n,ho⟩ := (s.updateSocket i Socket.emitError).onError_eq i message
      rw [ho]
      exact .congr (State.announce_follows _ .done rfl rfl rfl) rfl rfl rfl
  case data i data =>
    exact .received data rfl hidle (.congr (State.loop_follows _ i) rfl rfl rfl)
  case close i => exact hgoesOn rfl (.congr (State.handleClose_follows _ .done) rfl rfl rfl)
  case timeout timer =>
    exact connect_decodes (s := s) (e := .host (.timeout timer)) (u := { s with
      timeouts := clear (some timer) s.timeouts
      reconnectTimer := none
      log := .retry :: s.log }) rfl rfl rfl rfl
      (State.emissions_skip (s := s) (e := .retry) rfl rfl)
      (fun _ => by rw [hidle]; rfl) true
  case interval timer now =>
    split_ifs
    · exact sends_decodes rfl (s.sendFrame_sends _ _ _ now)
    · exact sends_decodes rfl .notConnected
  case rejection =>
    refine hgoesOn rfl ?_
    split_ifs
    · exact .congr (State.scheduleReconnect_follows _ .done) rfl rfl rfl
    · exact .of_eq rfl rfl (by rw [State.rest,hidle])

theorem step_decodes {s t : State} {e : Event} (h : step s e = some t) (hU : Undisturbed s e) :
    Decodes s e t := by
  cases e with
  | call c now =>
    cases h
    cases s.call_move now c with
    | connectCall =>
      refine connect_decodes (s := s) (e := .call .connect now)
        (u := { s with log := .connectCall :: s.log }) rfl rfl rfl rfl
        (State.emissions_skip (s := s) (e := .connectCall) rfl rfl) (fun hc => ?_) false
      by_contra hmid
      have hquiet := hU (Bool.not_eq_false _ ▸ hmid)
      have hc : s.connected = false := hc
      simp [State.disturbedBy,hc] at hquiet
    | disconnectCall =>
      obtain ⟨n,sockets,hd⟩ := s.disconnect_eq now
      rw [State.call,hd]
      exact .goesOn rfl (.of_eq rfl (State.emissions_skip (e := .disconnected) rfl rfl) rfl)
    | sends he hsent => exact sends_decodes rfl hsent
  | host e =>
    obtain ⟨hidle,h⟩ := Option.ite_none_right_eq_some.mp h
    exact host_decodes (Option.isNone_iff_eq_none.mp hidle) h
  | listenersReturn now =>
    obtain ⟨k,hk,rfl⟩ := Option.map_eq_some_iff.mp h
    exact .goesOn rfl (s.resume_follows now hk)
  | listenerThrows =>
    obtain ⟨k,hk,rfl⟩ := Option.map_eq_some_iff.mp h
    have hmid : s.cont.any Cont.midway = false := by
      by_contra hmid
      cases hU (Bool.not_eq_false _ ▸ hmid)
    have hrest := State.rest_of_not_midway hmid
    exact .goesOn rfl (.of_eq rfl rfl hrest.symm)

/-- The client with the record of the data it is handed since the last `connect()`. -/
def decodingStep : State × Stream → Event → Option (State × Stream) :=
  recorded step fun r s e t => r.next (s.opened < t.opened) t.emissions.length e.data?

/-- What has been emitted and what is left to be, since the last `connect()`, is what the decoder
reports. -/
structure Decoding (x : State × Stream) : Prop where
  base : x.2.base ≤ x.1.emissions.length
  emits : x.1.emissions.drop x.2.base ++ x.1.rest.out.filter visible =
    (handleChunks x.2.chunks).out.filter visible
  buffer : x.1.rest.buffer = (handleChunks x.2.chunks).buffer

theorem Decoding.follows {x : State × Stream} {t : State}
    {result : Result UInt8 (Emission FrameHeader MIPError)} {chunks : List (List UInt8)}
    (hI : Decoding x) (h : x.1.Follows result t)
    (hout : x.1.emissions.drop x.2.base ++ result.out.filter visible =
      (handleChunks chunks).out.filter visible)
    (hbuffer : result.buffer = (handleChunks chunks).buffer) :
    Decoding (t,{ x.2 with chunks := chunks }) := by
  obtain ⟨-,⟨new,hnew,hrest⟩,hb⟩ := h
  refine ⟨?_,?_,hb.trans hbuffer⟩
  · rw [hnew,List.length_append]
    exact hI.base.trans (Nat.le_add_right _ _)
  · rw [hnew,List.drop_append_of_le_length hI.base,List.append_assoc,hrest,hout]

theorem Decoding.step {x y : State × Stream} {e : Event} (hI : Decoding x)
    (hU : Undisturbed x.1 e) (h : decodingStep x e = some y) : Decoding y := by
  obtain ⟨hstep,hrecord⟩ := recorded_eq_some h
  obtain ⟨t,r⟩ := y
  have hstep : Ts.step x.1 e = some t := hstep
  have hrecord : r = x.2.next (x.1.opened < t.opened) t.emissions.length e.data? := hrecord
  subst hrecord
  cases step_decodes hstep hU with
  | goesOn he h =>
    rw [Stream.next,if_neg (by rw [h.opened]; exact lt_irrefl _),he,Option.toList_none,
      List.append_nil]
    exact hI.follows h hI.emits hI.buffer
  | emptied he ho hemissions hrest =>
    rw [Stream.next,if_pos (by rw [ho]; exact Nat.lt_succ_self _)]
    refine ⟨le_rfl,?_,by rw [hrest]; rfl⟩
    rw [hrest,List.drop_length]
    rfl
  | received data he hidle h =>
    rw [Stream.next,if_neg (by rw [h.opened]; exact lt_irrefl _),he,Option.toList_some]
    have hrest : x.1.rest = ⟨[],x.1.buffer,false⟩ := by rw [State.rest,hidle]
    have hemits := hI.emits
    have hbuffer := hI.buffer
    rw [hrest] at hemits hbuffer
    have hfail : ∀ b out, framing.decoder.pass b ≠ .fail out :=
      Framing.pass_ne_fail fun _ _ _ h => by cases h
    have hsnoc : handleChunks (x.2.chunks ++ [data]) =
        (StreamDecoder.run framing.decoder (x.1.buffer ++ data)).after
          (handleChunks x.2.chunks).out := by
      rw [handleChunks,feed_snoc hfail]
      exact congrArg (fun b => (StreamDecoder.run framing.decoder (b ++ data)).after _)
        hbuffer.symm
    refine hI.follows h ?_ ?_
    · rw [hsnoc,Result.after_out,List.filter_append,← hemits]
      simp
    · rw [hsnoc]
      rfl

/-- In every run in which no listener throws or opens a connection while a handler is at work:
since the last `connect()` the client has emitted, for what it received, a beginning of what the
decoder reports for the data, and between two handlers all of it, with the decoder's buffer. If the
data is the beginning of a stream of frames, it has emitted 'frame' once for each frame that has
arrived whole, in order and with what was sent. -/
theorem handlers_decode (options : Options) (events : List Event)
    (hU : ∀ p ∈ steps step (init options) events, Undisturbed p.1 p.2) :
    ∀ x ∈ states decodingStep (init options,{}) events,
      x.1.emissions.drop x.2.base <+: (handleChunks x.2.chunks).out.filter visible ∧
      (x.1.cont = none →
        x.1.emissions.drop x.2.base = (handleChunks x.2.chunks).out.filter visible ∧
        x.1.buffer = (handleChunks x.2.chunks).buffer ∧
        ∀ sent : List Frame, x.2.chunks.flatten <+: sent.flatMap Frame.bytes →
          ∃ whole later tail, sent = whole ++ later ∧
            x.2.chunks.flatten = whole.flatMap Frame.bytes ++ tail ∧
            (tail = [] ∨ ∃ next after rest, later = next :: after ∧ next.bytes = tail ++ rest ∧
              rest ≠ []) ∧
            ((x.1.emissions.drop x.2.base).filterMap Emission.frame?).map
                (fun p => (p.1.info,p.2)) = whole.map (fun f => (f.info,f.payload)) ∧
            x.1.buffer = tail) := by
  intro x hx
  have hI : Decoding x := invariant_of_steps (C := fun x e => Undisturbed x.1 e)
    (fun _ _ _ hI hC h => hI.step hC h) ⟨Nat.zero_le _,rfl,rfl⟩
    ((forall_steps_recorded (C := Undisturbed) _ _ events).mpr hU) x hx
  refine ⟨⟨_,hI.emits⟩,fun hidle => ?_⟩
  have hrest : x.1.rest = ⟨[],x.1.buffer,false⟩ := by rw [State.rest,hidle]
  have hemits := hI.emits
  have hbuffer := hI.buffer
  rw [hrest] at hemits hbuffer
  have hemits : x.1.emissions.drop x.2.base = (handleChunks x.2.chunks).out.filter visible := by
    rw [← hemits,List.filter_nil,List.append_nil]
  refine ⟨hemits,hbuffer,fun sent hsent => ?_⟩
  obtain ⟨whole,later,tail,hsplit,hbytes,hcut,hframes,htail,-,-⟩ :=
    Client.ts.reads (fun h => by cases h) x.2.chunks hsent
  refine ⟨whole,later,tail,hsplit,hbytes,hcut,?_,hbuffer.trans htail⟩
  rw [← hframes,hemits,filterMap_frame?_filter visible (fun _ _ => rfl)]
  exact (Emission.filterMap_frame?_map _ _ _).symm

def partsRun : List Event :=
  [.call .connect 0,.host (.connect 0),.listenersReturn 0,
    .host (.data 0 (Wire.headerBytes Wire.FrameType.ack.code 0 1 0 7 ++
      (Wire.headerBytes Wire.FrameType.pong.code 0 1 0 8).take 5)),.listenersReturn 0,
    .listenersReturn 0,.host (.data 0 ((Wire.headerBytes Wire.FrameType.pong.code 0 1 0 8).drop 5)),
    .listenersReturn 0,.listenersReturn 0]

theorem handlers_decode_parts : ∃ x ∈ run decodingStep (init {},{}) partsRun,
    x.1.emissions.length = 4 ∧
      x.1.emissions.drop x.2.base = (handleChunks x.2.chunks).out.filter visible := by
  have hU : ∀ p ∈ steps step (init {}) partsRun, Undisturbed p.1 p.2 := by
    decide +kernel
  have hrun : ∃ x ∈ run decodingStep (init {},{}) partsRun,
      x.1.emissions.length = 4 ∧ x.1.cont.isNone = true := by
    decide +kernel
  obtain ⟨x,hx,hn,hidle⟩ := hrun
  exact ⟨x,hx,hn,((handlers_decode {} partsRun hU x (run_mem_states hx)).2
    (Option.isNone_iff_eq_none.mp hidle)).1⟩

end Ts
end MipClients
