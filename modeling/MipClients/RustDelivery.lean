import MipClients.Delivery
import MipClients.RustClose
import MipClients.RustRefusals

/-! The stream of a connection of the Rust client from end to end: every frame in a channel is one
that the client or a call has put together, and what the write task has written is read by any of
the three clients frame by frame. -/
namespace MipClients
namespace Rust

open State Transition
open Utf8 (Text)

/-- The frames that go into a channel, by who puts them in; those of callers belong to calls with a
property. -/
inductive Composed (clientId : Text) (P : Call → Prop) : Source → List UInt8 → Prop
  | hello (msgId : UInt64) : Composed clientId P .connect
      (frameBytes .hello (Utf8.encode clientId) FrameFlags.none msgId)
  | close (msgId : UInt64) : Composed clientId P .disconnect
      (buildHeader .close 0 FrameFlags.none msgId).encode
  | ping (msgId : UInt64) : Composed clientId P .ping
      (buildHeader .ping 0 FrameFlags.none msgId).encode
  | caller (k : ℕ) (call : Call) (msgId : UInt64) (h : P call) :
      Composed clientId P (.caller k) (call.bytes msgId)

def Caller.call? : Caller → Option Call
  | .idle => none
  | .checked call _ | .idTaken call _ _ => some call

def Event.call? : Event → Option Call
  | .call _ c => some c
  | _ => none

def Event.Starts (P : Call → Prop) (e : Event) : Prop := ∀ call ∈ e.call?, P call

instance (P : Call → Prop) [DecidablePred P] (e : Event) : Decidable (e.Starts P) :=
  inferInstanceAs (Decidable (∀ call ∈ e.call?, P call))

theorem advance_frame {s t : State} {now : ℕ} (h : s.advance now = some t) :
    (∀ c msgId frame, t.owner = .helloBuilt c msgId frame →
      frame = frameBytes .hello (Utf8.encode s.options.clientId) FrameFlags.none msgId) ∧
    (∀ c frame, t.owner = .sendingClose c frame →
      ∃ msgId, frame = (buildHeader .close 0 FrameFlags.none msgId).encode) := by
  unfold State.advance at h
  cases ho : s.owner with
  | idle | opening | dropped =>
    rw [ho] at h
    cases h
  | helloChecked c =>
    rw [ho] at h
    cases h
    refine ⟨fun d msgId frame ht => ?_,nofun⟩
    cases ht
    rfl
  | closeChecked c =>
    rw [ho] at h
    cases h
    refine ⟨nofun,fun d frame ht => ?_⟩
    cases ht
    exact ⟨_,rfl⟩
  | hello c =>
    rw [ho] at h
    cases h
    cases s.connected <;> exact ⟨nofun,nofun⟩
  | stopped =>
    rw [ho] at h
    cases h
    cases s.commandTx <;> cases s.connected <;> exact ⟨nofun,nofun⟩
  | helloBuilt c msgId frame =>
    rw [ho] at h
    dsimp only at h
    split at h <;> cases h <;> exact ⟨nofun,nofun⟩
  | sendingClose c frame | sendingDisconnect c =>
    rw [ho] at h
    obtain ⟨k,-,rfl⟩ := Option.map_eq_some_iff.mp h
    exact ⟨nofun,nofun⟩
  | awaitingWrite =>
    rw [ho] at h
    dsimp only at h
    split at h <;> cases h
    exact ⟨nofun,nofun⟩
  | _ =>
    rw [ho] at h
    cases h
    exact ⟨nofun,nofun⟩

theorem step_owner_frame {s t : State} {e : Event} (h : step s e = some t) :
    (∀ c msgId frame, t.owner = .helloBuilt c msgId frame → s.owner = .helloBuilt c msgId frame ∨
      frame = frameBytes .hello (Utf8.encode s.options.clientId) FrameFlags.none msgId) ∧
    (∀ c frame, t.owner = .sendingClose c frame → s.owner = .sendingClose c frame ∨
      ∃ msgId, frame = (buildHeader .close 0 FrameFlags.none msgId).encode) := by
  have hkept (ho : t.owner = s.owner) :
      (∀ c msgId frame, t.owner = .helloBuilt c msgId frame →
        s.owner = .helloBuilt c msgId frame ∨
        frame = frameBytes .hello (Utf8.encode s.options.clientId) FrameFlags.none msgId) ∧
      (∀ c frame, t.owner = .sendingClose c frame → s.owner = .sendingClose c frame ∨
        ∃ msgId, frame = (buildHeader .close 0 FrameFlags.none msgId).encode) :=
    ⟨fun c msgId frame ht => .inl (ho ▸ ht),fun c frame ht => .inl (ho ▸ ht)⟩
  by_cases ha : e.actor = .owner
  · cases e with
    | advance now =>
      obtain ⟨hhello,hclose⟩ := advance_frame h
      exact ⟨fun c msgId frame ht => .inr (hhello c msgId frame ht),
        fun c frame ht => .inr (hclose c frame ht)⟩
    | connectCall =>
      obtain ⟨ho,h⟩ := Option.ite_none_right_eq_some.mp h
      cases h
      by_cases hc : s.connected = true
      · exact hkept (by rw [State.connect,if_pos hc])
      · rw [State.connect,if_neg hc]
        exact ⟨nofun,nofun⟩
    | disconnectCall | tcpConnected | tcpFailed | drop | timeout =>
      obtain ⟨-,h⟩ := Option.ite_none_right_eq_some.mp h
      cases h
      exact ⟨nofun,nofun⟩
    | _ => cases ha
  · exact hkept ((step_move h).elsewhere ha).1

theorem step_ping_frame {s t : State} {e : Event} (h : step s e = some t) {c : ℕ}
    {frame : List UInt8} (ht : (t.connections c).ping = .sending frame) :
    (s.connections c).ping = .sending frame ∨
      ∃ msgId, frame = (buildHeader .ping 0 FrameFlags.none msgId).encode := by
  obtain ⟨d,xs,k,hc,htouch,-⟩ := (step_move h).changes
  by_cases hcd : c = d
  · subst hcd
    rw [hc,Function.update_self] at ht
    generalize ha : e.actor = a at htouch
    cases htouch with
    | idTaken frame' hp =>
      cases ht
      have hself : (t.connections c).ping = .sending frame := by rw [hc,Function.update_self]
      cases e with
      | pingStep d now =>
        cases ha
        simp only [step,pingStep,hp,Option.some.injEq] at h
        subst h
        simp only [setPing_self,PingTask.sending.injEq] at hself
        exact .inr ⟨_,hself.symm⟩
      | tick d =>
        cases ha
        obtain ⟨htick,-⟩ := Option.ite_none_right_eq_some.mp h
        cases htick.symm.trans hp
      | pingCancelled d =>
        cases ha
        obtain ⟨-,h⟩ := Option.ite_none_right_eq_some.mp h
        cases h
        rw [setPing_self] at hself
        cases hself
      | _ => cases ha
    | enqueued hq => exact .inl (hq.ping ▸ ht)
    | _ => first | exact .inl ht | cases ht
  · rw [hc,Function.update_of_ne hcd] at ht
    exact .inl ht

theorem Move.options_eq {s t : State} {a : Actor} (h : Move s a t) :
    t.options = { s.options with autoReconnect := t.options.autoReconnect } := by
  cases h with
  | owner h =>
    cases h with
    | pingSpawned c =>
      obtain ⟨ks,ping,ht⟩ := s.spawnPingTask_eq c
      rw [ht]
      rfl
    | pingAborted =>
      obtain ⟨ks,ping,ht⟩ := s.abortPing_eq
      rw [ht]
      rfl
    | readAborted =>
      obtain ⟨ks,read,ht⟩ := s.abortRead_eq
      rw [ht]
      rfl
    | _ => rfl
  | caller k h => cases h <;> rfl
  | read c h =>
    cases h with
    | scheduled =>
      obtain ⟨ks,attempts,log,ht⟩ := s.scheduleReconnect_eq c
      rw [ht]
    | _ => rfl
  | write c h => cases h <;> rfl
  | ping c h => cases h <;> rfl

theorem Move.callers {s t : State} {a : Actor} (h : Move s a t) (ha : ∀ k, a ≠ .caller k) :
    t.callers = s.callers := by
  cases h with
  | owner h =>
    cases h with
    | pingSpawned c =>
      obtain ⟨ks,ping,ht⟩ := s.spawnPingTask_eq c
      rw [ht]
      rfl
    | pingAborted =>
      obtain ⟨ks,ping,ht⟩ := s.abortPing_eq
      rw [ht]
      rfl
    | readAborted =>
      obtain ⟨ks,read,ht⟩ := s.abortRead_eq
      rw [ht]
      rfl
    | _ => rfl
  | caller k h => exact absurd rfl (ha k)
  | read c h =>
    cases h with
    | scheduled =>
      obtain ⟨ks,attempts,log,ht⟩ := s.scheduleReconnect_eq c
      rw [ht]
    | _ => rfl
  | write c h => cases h <;> rfl
  | ping c h => cases h <;> rfl

/-- A call that a caller is in, or that has returned to it, was there before or has just started. -/
theorem step_calls {s t : State} {e : Event} (h : step s e = some t) (k : ℕ) :
    (∀ call ∈ (t.callers k).call?, call ∈ (s.callers k).call? ∨ call ∈ e.call?) ∧
    (∀ x ∈ t.returned k, x ∈ s.returned k ∨ x.1 ∈ (s.callers k).call? ∨ x.1 ∈ e.call?) := by
  by_cases ha : ∃ j, e.actor = .caller j
  swap
  · have hne : ∀ j, e.actor ≠ .caller j := fun j hj => ha ⟨j,hj⟩
    rw [(step_move h).callers hne,(step_move h).returned hne]
    exact ⟨fun m hm => .inl hm,fun x hx => .inl hx⟩
  have hset (j : ℕ) (caller : Caller) (hcall : ∀ call ∈ caller.call?, j = k →
      call ∈ (s.callers k).call? ∨ call ∈ e.call?) :
      (∀ m ∈ ((s.setCaller j caller).callers k).call?,
        m ∈ (s.callers k).call? ∨ m ∈ e.call?) := by
    intro m hm
    by_cases hj : k = j
    · subst hj
      rw [setCaller_self] at hm
      exact hcall m hm rfl
    · rw [setCaller_of_ne _ hj] at hm
      exact .inl hm
  have hfinish (j : ℕ) (call : Call) (outcome : Outcome)
      (hcall : j = k → call ∈ (s.callers k).call? ∨ call ∈ e.call?) :
      (∀ m ∈ ((s.finishCall j call outcome).callers k).call?,
        m ∈ (s.callers k).call? ∨ m ∈ e.call?) ∧
      (∀ x ∈ (s.finishCall j call outcome).returned k,
        x ∈ s.returned k ∨ x.1 ∈ (s.callers k).call? ∨ x.1 ∈ e.call?) := by
    by_cases hj : k = j
    · subst hj
      rw [finishCall_callers_self,finishCall_returned_self]
      refine ⟨fun _ hc => (by cases hc),fun x hx => ?_⟩
      rcases List.mem_append.mp hx with hx | hx
      · exact .inl hx
      · rw [List.mem_singleton.mp hx]
        exact .inr (hcall rfl)
    · rw [finishCall_callers_of_ne _ hj,finishCall_returned_of_ne _ hj]
      exact ⟨fun m hm => .inl hm,fun x hx => .inl hx⟩
  cases e with
  | call j call =>
    obtain ⟨-,h⟩ := Option.ite_none_right_eq_some.mp h
    cases h
    unfold startCall
    cases s.sender with
    | none => exact hfinish j call .notConnected fun _ => .inr rfl
    | some c =>
      refine ⟨hset j _ fun m hm _ => ?_,fun x hx => .inl hx⟩
      cases hm
      exact .inr rfl
  | sendFrame j now =>
    simp only [step,State.sendFrame] at h
    cases hj : s.callers j with
    | idle =>
      rw [hj] at h
      cases h
    | checked call c =>
      rw [hj] at h
      cases h
      refine ⟨hset j (.idTaken call c _) fun m hm hk => ?_,fun x hx => .inl hx⟩
      cases hm
      subst hk
      exact .inl (by rw [hj]; rfl)
    | idTaken call c msgId =>
      rw [hj] at h
      have hcall (hk : j = k) :
          call ∈ (s.callers k).call? ∨ call ∈ (Event.sendFrame j now).call? := by
        subst hk
        exact .inl (by rw [hj]; rfl)
      dsimp only at h
      split at h <;> cases h <;> exact hfinish j call _ hcall
  | _ =>
    obtain ⟨j,hj⟩ := ha
    cases hj

structure Composing (clientId : Text) (P : Call → Prop) (s : State) : Prop where
  streams : Streams s
  identity : s.options.clientId = clientId
  hello : ∀ c msgId frame, s.owner = .helloBuilt c msgId frame →
    frame = frameBytes .hello (Utf8.encode clientId) FrameFlags.none msgId
  close : ∀ c frame, s.owner = .sendingClose c frame →
    ∃ msgId, frame = (buildHeader .close 0 FrameFlags.none msgId).encode
  ping : ∀ c frame, (s.connections c).ping = .sending frame →
    ∃ msgId, frame = (buildHeader .ping 0 FrameFlags.none msgId).encode
  callers : ∀ k, ∀ call ∈ (s.callers k).call?, P call
  returned : ∀ k, ∀ x ∈ s.returned k, P x.1
  accepted : ∀ c source data, (source,.send data) ∈ (s.connections c).commands.accepted →
    Composed clientId P source data

theorem mem_returnedFrames {c : ℕ} {xs : List (Call × Outcome)} {data : List UInt8}
    (h : data ∈ returnedFrames c xs) : ∃ call msgId, (call,.ok c msgId) ∈ xs ∧
      data = call.bytes msgId := by
  obtain ⟨⟨call,outcome⟩,hx,hdata⟩ := List.mem_filterMap.mp h
  cases outcome with
  | notConnected => cases hdata
  | ok d msgId =>
    have hdata : (if d = c then some (call.bytes msgId) else none) = some data := hdata
    obtain ⟨rfl,hsome⟩ := Option.ite_none_right_eq_some.mp hdata
    exact ⟨call,msgId,hx,(Option.some.inj hsome).symm⟩

theorem mem_callerFrames {k : ℕ} {xs : List (Source × ClientCommand)} {data : List UInt8}
    (h : (.caller k,.send data) ∈ xs) : data ∈ callerFrames k xs :=
  List.mem_filterMap.mpr ⟨_,List.mem_filter.mpr ⟨h,by simp⟩,rfl⟩

theorem Composing.step {clientId : Text} {P : Call → Prop} {s t : State} {e : Event}
    (hI : Composing clientId P s) (hP : e.Starts P) (h : Rust.step s e = some t) :
    Composing clientId P t := by
  have hstreams := hI.streams.step h
  have hknown {k : ℕ} {call : Call} (hc : call ∈ (s.callers k).call? ∨ call ∈ e.call?) : P call :=
    hc.elim (hI.callers k call) (hP call)
  have hreturned : ∀ k, ∀ x ∈ t.returned k, P x.1 := fun k x hx =>
    ((step_calls h k).2 x hx).elim (hI.returned k x) hknown
  refine ⟨hstreams,(by rw [(step_move h).options_eq]; exact hI.identity),fun c msgId frame ht => ?_,
    fun c frame ht => ?_,fun c frame ht => ?_,fun k call hc => hknown ((step_calls h k).1 call hc),
    hreturned,fun c source data hx => ?_⟩
  · rcases (step_owner_frame h).1 c msgId frame ht with hs | hframe
    · exact hI.hello c msgId frame hs
    · rwa [hI.identity] at hframe
  · exact ((step_owner_frame h).2 c frame ht).elim (hI.close c frame) id
  · exact (step_ping_frame h ht).elim (hI.ping c frame) id
  · obtain ⟨xs,hflow,-⟩ := (step_move h).flow c
    have hnew := hflow.accepted
    rw [hnew] at hx
    rcases List.mem_append.mp hx with hx | hx
    · exact hI.accepted c source data hx
    rcases hflow.enqueues with rfl | ⟨x,rfl,he,-⟩
    · cases hx
    obtain rfl := List.mem_singleton.mp hx
    generalize e.actor = a at he
    cases he with
    | hello msgId frame ho =>
      rw [hI.hello c msgId data ho]
      exact .hello msgId
    | close frame ho ht =>
      obtain ⟨msgId,rfl⟩ := hI.close c data ho
      exact .close msgId
    | ping frame hp =>
      obtain ⟨msgId,rfl⟩ := hI.ping c data hp
      exact .ping msgId
    | caller k data =>
      -- an accepted frame is among those of the calls that have returned an id
      have hmem : data ∈ callerFrames k (t.connections c).commands.accepted :=
        mem_callerFrames (by rw [hnew]; simp)
      rw [hstreams.callers c k] at hmem
      obtain ⟨call,msgId,hcall,rfl⟩ := mem_returnedFrames hmem
      exact .caller k call msgId (hreturned k _ hcall)

theorem composing_init (options : MIPClientOptions) (P : Call → Prop) :
    Composing options.clientId P (init options) where
  streams := streams_init options
  identity := rfl
  hello _ _ _ := nofun
  close _ _ := nofun
  ping _ _ := nofun
  callers _ _ := nofun
  returned _ _ := nofun
  accepted _ _ _ := nofun

theorem composing {options : MIPClientOptions} {P : Call → Prop} {events : List Event}
    (hP : ∀ p ∈ steps step (init options) events, p.2.Starts P) :
    ∀ s ∈ states step (init options) events, Composing options.clientId P s :=
  invariant_of_steps (C := fun _ e => e.Starts P) (fun _ _ _ hI hC h => hI.step hC h)
    (composing_init options P) hP

def Call.Fits (call : Call) : Prop :=
  call.frame.2.2.Defined ∧ call.frame.2.1.length < 2 ^ 32

instance : DecidablePred Call.Fits := fun _ => inferInstanceAs (Decidable (_ ∧ _))

theorem FrameFlags.Defined.lt {flags : FrameFlags} (h : flags.Defined) : flags.bits.toNat < 8 := by
  have hand := congrArg UInt8.toNat (and_eq_self h)
  rw [UInt8.toNat_and] at hand
  have hle : flags.bits.toNat &&& FrameFlags.all.bits.toNat ≤ 7 := Nat.and_le_right
  omega

theorem exists_frame (frameType : Wire.FrameType) {payload : List UInt8} {flags : FrameFlags}
    (hflags : flags.Defined) (hlength : payload.length < 2 ^ 32) (msgId : UInt64) :
    ∃ f : Wire.Frame, f.bytes = frameBytes frameType payload flags msgId ∧
      f.frameType = frameType ∧ f.payload = payload := by
  let f : Wire.Frame :=
    ⟨frameType,flags.bits.toNat,msgId.toNat,payload,hflags.lt,msgId.toNat_lt,hlength⟩
  refine ⟨f,?_,rfl,rfl⟩
  rw [← encodeFrame_eq,encodeFrame,UInt8.ofNat_toNat,UInt64.ofNat_toNat]

theorem exists_header_frame (frameType : Wire.FrameType) (msgId : UInt64) :
    ∃ f : Wire.Frame, f.bytes = (buildHeader frameType 0 FrameFlags.none msgId).encode ∧
      f.frameType = frameType ∧ f.payload = [] := by
  obtain ⟨f,hf,htype,hpayload⟩ := exists_frame frameType (by decide : FrameFlags.none.Defined)
    (by decide : ([] : List UInt8).length < 2 ^ 32) msgId
  exact ⟨f,hf.trans (List.append_nil _),htype,hpayload⟩

theorem Composed.exists_frame {clientId : Text} (hid : (Utf8.encode clientId).length < 2 ^ 32)
    {source : Source} {data : List UInt8} (h : Composed clientId Call.Fits source data) :
    ∃ f : Wire.Frame, f.bytes = data := by
  have hnone : FrameFlags.none.Defined := by decide
  cases h with
  | hello msgId =>
    obtain ⟨f,hf,-⟩ := Rust.exists_frame .hello hnone hid msgId
    exact ⟨f,hf⟩
  | close msgId =>
    obtain ⟨f,hf,-⟩ := exists_header_frame .close msgId
    exact ⟨f,hf⟩
  | ping msgId =>
    obtain ⟨f,hf,-⟩ := exists_header_frame .ping msgId
    exact ⟨f,hf⟩
  | caller k call msgId hfits =>
    obtain ⟨f,hf,-⟩ := Rust.exists_frame call.frame.1 hfits.1 hfits.2 msgId
    exact ⟨f,hf⟩

/-- What has been written are frames of the wire format, with whatever holds of a frame that is put
together. -/
theorem Composing.exists_sent {clientId : Text} {P : Call → Prop} {s : State}
    (hI : Composing clientId P s) {R : Source → Wire.Frame → Prop}
    (hR : ∀ source data, Composed clientId P source data →
      ∃ f : Wire.Frame, f.bytes = data ∧ R source f) (c : ℕ) :
    ∃ sent : List (Source × Wire.Frame),
      sent.map (fun x => (x.1,x.2.bytes)) = (s.connections c).written ∧
      ∀ x ∈ sent, R x.1 x.2 := by
  refine StreamDecoder.exists_blocks fun x hx => ?_
  have haccepted := mem_sends.mp ((hI.streams.logged c).written_le.subset hx)
  obtain ⟨f,hf,hr⟩ := hR x.1 x.2 (hI.accepted c x.1 x.2 haccepted)
  exact ⟨(x.1,f),congrArg (x.1,·) hf,hr⟩

theorem Composing.exists_composed {clientId : Text} {s : State}
    (hI : Composing clientId Call.Fits s) (hid : (Utf8.encode clientId).length < 2 ^ 32) (c : ℕ) :
    ∃ sent : List (Source × Wire.Frame),
      sent.map (fun x => (x.1,x.2.bytes)) = (s.connections c).written ∧
      ∀ x ∈ sent, Composed clientId Call.Fits x.1 x.2.bytes :=
  hI.exists_sent (R := fun source f => Composed clientId Call.Fits source f.bytes)
    (fun _ _ h => by
      obtain ⟨f,hf⟩ := h.exists_frame hid
      exact ⟨f,hf,hf ▸ h⟩) c

/-- In every run, what has been written to a connection is a sequence of frames of the wire format,
each put together by `connect()`, `disconnect()`, the ping task or a call, and each of the three
clients, the Python client if their text is valid, reads the stream frame by frame, also when the
last frame was written in part. -/
theorem stream_read (options : MIPClientOptions) (events : List Event)
    (hid : (Utf8.encode options.clientId).length < 2 ^ 32)
    (hcalls : ∀ p ∈ steps step (init options) events, p.2.Starts Call.Fits) :
    ∀ s ∈ states step (init options) events, ∀ c, ∃ sent : List (Source × Wire.Frame),
      sent.map (fun x => (x.1,x.2.bytes)) = (s.connections c).written ∧
      (∀ x ∈ sent, Composed options.clientId Call.Fits x.1 x.2.bytes) ∧
      ∀ receiver : Client, (receiver = .python → ∀ x ∈ sent, x.2.TextValid) →
        receiver.Reads (sent.map Prod.snd) := by
  intro s hs c
  obtain ⟨sent,hsent,hcomposed⟩ := (composing hcalls s hs).exists_composed hid c
  refine ⟨sent,hsent,hcomposed,fun receiver htext => receiver.reads fun hpython f hf => ?_⟩
  obtain ⟨x,hx,rfl⟩ := List.mem_map.mp hf
  exact htext hpython x hx

def publishedRun : List Event :=
  connectRun ++ [.call 0 (.publish ['t'] ['m'] FrameFlags.none),.sendFrame 0 7,.sendFrame 0 7] ++
    [.recv 0,.written 0,.recv 0]

theorem stream_read_published : ∃ s ∈ run step (init {}) publishedRun,
    (s.connections 0).written.length = 2 ∧
      ∃ sent : List (Source × Wire.Frame),
        sent.map (fun x => (x.1,x.2.bytes)) = (s.connections 0).written ∧
        (∀ x ∈ sent, Composed [] Call.Fits x.1 x.2.bytes) ∧
        ∀ receiver : Client, (receiver = .python → ∀ x ∈ sent, x.2.TextValid) →
          receiver.Reads (sent.map Prod.snd) := by
  have hrun : ∃ s ∈ run step (init {}) publishedRun,
      (s.connections 0).written.length = 2 := by
    decide +kernel
  obtain ⟨s,hs,hn⟩ := hrun
  exact ⟨s,hs,hn,stream_read {} publishedRun (by decide) (by decide +kernel) s
    (run_mem_states hs) 0⟩

end Rust
end MipClients
