import MipClients.Messages
import MipClients.PyDecoding

/-! What the Python client writes (`_send_frame`, `_send_close` and their callers in
`mip_client/__init__.py`): whatever sends gives the client's writer one whole frame, and a
connection that the client has replaced or closed is given nothing more. -/
namespace MipClients
namespace Py

open StreamDecoder Transition
open Utf8 (Text)
open Wire (Emission Frame FrameType)

def State.wire (s : State) (c : ℕ) (frame : Option (List UInt8)) : List (List UInt8) :=
  if s.writer = some c ∧ s.connected = true ∧ (s.connections c).closed = false then frame.toList
  else []

def State.callsWrite (c : ℕ) : State → List (Call × ℤ) → List (List UInt8)
  | _, [] => []
  | s, (k,now) :: l => s.wire c (s.bytes now k) ++ callsWrite c (s.call now k) l

def State.helloWrite (s : State) (c : ℕ) (now : ℤ) : List (List UInt8) :=
  s.wire c (frameBytes FrameType.hello.code (Utf8.encode s.clientId) flagsNone
    (s.generateMsgId now).1)

def State.writes (s : State) (c : ℕ) : Event → List (List UInt8)
  | .call k now => s.wire c (s.bytes now k)
  | .disconnectCall now =>
    if s.tasksReturned then
      s.wire c (frameBytes FrameType.close.code [] 0 (s.generateMsgId now).1)
    else []
  | .wake i now =>
    if s.tasks i = .live .pingSleep then
      s.wire c (frameBytes FrameType.ping.code [] 0 (s.generateMsgId now).1)
    else []
  | .opened _ connectCalls raised now =>
    s.establish.callsWrite c connectCalls ++
      if raised.isNone then (s.establish.calls connectCalls).helloWrite c now else []
  | _ => []

/-- The client has replaced the connection, or closed it. -/
def State.Gone (s : State) (c : ℕ) : Prop :=
  s.writer = some c → (s.connections c).closed = true

/-- Frames are written to the client's connection, and it stays the client's. -/
structure Appends (l : ℕ → List (List UInt8)) (s t : State) : Prop where
  written : ∀ c, (t.connections c).written = (s.connections c).written ++ l c
  closed : ∀ c, (s.connections c).closed = true → (t.connections c).closed = true
  writer : t.writer = s.writer
  gone : ∀ c, s.Gone c → l c = []

theorem Appends.trans {l l' : ℕ → List (List UInt8)} {s t u : State} (h : Appends l s t)
    (h' : Appends l' t u) : Appends (fun c => l c ++ l' c) s u where
  written := fun c => by rw [h'.written,h.written,List.append_assoc]
  closed := fun c hc => h'.closed c (h.closed c hc)
  writer := h'.writer.trans h.writer
  gone := fun c hc => by
    rw [h.gone c hc,h'.gone c fun hw => h.closed c (hc (h.writer ▸ hw)),List.append_nil]

theorem Aside.appends {s t : State} (h : Aside s t) {l : ℕ → List (List UInt8)}
    (hl : ∀ c, l c = []) : Appends l s t where
  written := fun c => by rw [h.written,hl,List.append_nil]
  closed := h.closed
  writer := h.writer
  gone := fun c _ => hl c

theorem Appends.aside {l : ℕ → List (List UInt8)} {s t u : State} (h : Appends l s t)
    (h' : Aside t u) : Appends l s u where
  written := fun c => by rw [h'.written,h.written]
  closed := fun c hc => h'.closed c (h.closed c hc)
  writer := h'.writer.trans h.writer
  gone := h.gone

namespace State

variable (s : State)

@[simp] theorem wire_none (c : ℕ) : s.wire c none = [] := by
  unfold wire
  split_ifs <;> rfl

theorem wire_unconnected {c : ℕ} (h : s.writer = none ∨ s.connected = false)
    (frame : Option (List UInt8)) : s.wire c frame = [] := by
  rw [wire,if_neg]
  rintro ⟨hw,hc,-⟩
  rcases h with h | h
  · cases h.symm.trans hw
  · cases h.symm.trans hc

theorem wire_gone {c : ℕ} (h : s.Gone c) (frame : Option (List UInt8)) : s.wire c frame = [] := by
  rw [wire,if_neg]
  rintro ⟨hw,-,hlive⟩
  cases hlive.symm.trans (h hw)

theorem write_written (c : ℕ) (bytes : List UInt8) (d : ℕ) :
    ((s.write c bytes).connections d).written = (s.connections d).written ++
      if d = c ∧ (s.connections d).closed = false then [bytes] else [] := by
  unfold write updateConnection
  by_cases hd : d = c
  · subst hd
    cases hclosed : (s.connections d).closed <;> simp [hclosed]
  · simp [hd]

theorem sendFrame_appends (frameType : FrameType) (payload : List UInt8) (flags : ℕ) (now : ℤ) :
    Appends (fun c => s.wire c (frameBytes frameType.code payload flags (s.generateMsgId now).1)) s
      (s.sendFrame frameType payload flags now).2 := by
  have hsame := sending_sameWriters.sendFrame s frameType payload flags now
  refine ⟨fun c => ?_,fun c hc => (hsame.closed c).trans hc,hsame.writer,
    fun c hc => s.wire_gone hc _⟩
  rcases s.sendFrame_cases frameType payload flags now with
    ⟨h,hno⟩ | ⟨h,hb⟩ | ⟨d,bytes,hd,hconn,hb,h⟩ <;> rw [h]
  · rw [s.wire_unconnected hno,List.append_nil]
  · rw [hb,s.wire_none,List.append_nil]
    rfl
  · rw [write_written,hb,wire,hd,hconn]
    simp only [Option.some.injEq,true_and,Option.toList_some,eq_comm]
    rfl

theorem call_appends (now : ℤ) (k : Call) :
    Appends (fun c => s.wire c (s.bytes now k)) s (s.call now k) := by
  rcases s.call_cases now k with ⟨hf,h⟩ | ⟨frameType,payload,flags,hf,h⟩ <;> rw [h]
  · refine (Aside.refl s).appends fun c => ?_
    rw [bytes,hf]
    exact s.wire_none c
  · have hsent := s.sendFrame_appends frameType payload flags now
    rwa [bytes,hf]

theorem calls_appends (l : List (Call × ℤ)) :
    Appends (fun c => s.callsWrite c l) s (s.calls l) := by
  induction l generalizing s with
  | nil => exact (Aside.refl s).appends fun _ => rfl
  | cons k l ih => exact (s.call_appends k.2 k.1).trans (ih (s.call k.2 k.1))

theorem sayHello_appends (now : ℤ) :
    Appends (fun c => s.helloWrite c now) s (s.sayHello now).2 := by
  have hsent := s.sendFrame_appends .hello (Utf8.encode s.clientId) flagsNone now
  unfold sayHello
  dsimp only
  generalize s.sendFrame .hello (Utf8.encode s.clientId) flagsNone now = r at hsent ⊢
  obtain ⟨result,t⟩ := r
  cases result <;> exact ⟨hsent.written,hsent.closed,hsent.writer,hsent.gone⟩

theorem onOpened_appends (connectCalls : List (Call × ℤ)) (raised : Option String) (now : ℤ) :
    Appends (fun c => s.establish.callsWrite c connectCalls ++
        if raised.isNone then (s.establish.calls connectCalls).helloWrite c now else [])
      s.establish (s.onOpened connectCalls raised now).2 := by
  have hcalls := s.establish.calls_appends connectCalls
  cases raised with
  | some message =>
    exact hcalls.trans ((emitError_aside _ { message := message }).appends fun _ => rfl)
  | none =>
    rw [onOpened_none]
    refine (hcalls.trans (sayHello_appends _ now)).aside ?_
    dsimp only
    split
    · exact emitError_aside _ _
    · exact Aside.refl _

/-- A call of `disconnect()` writes CLOSE, unless `_cleanup` ends it. -/
theorem disconnect_appends (now : ℤ) :
    Appends (fun c => s.writes c (.disconnectCall now)) s (s.disconnect now) := by
  rcases s.disconnect_cases now with
    ⟨hret,ping,read,tasks,status,-,-,he⟩ | ⟨hret,hw,t,ht,he⟩ | ⟨hret,-,t,u,ht,hu,he⟩
  · have hno (c : ℕ) : s.writes c (.disconnectCall now) = [] := by simp [writes,hret]
    have haside : Aside s (s.disconnect now) := by
      rw [he]
      exact ⟨fun _ => rfl,fun _ => id,rfl,id,rfl,rfl,rfl⟩
    exact haside.appends hno
  · have hno (c : ℕ) : s.writes c (.disconnectCall now) = [] := by
      simp [writes,hret,s.wire_unconnected (.inl hw)]
    have haside : Aside s (s.disconnect now) := by
      rw [he,ht]
      exact ⟨fun _ => rfl,fun _ => id,rfl,fun h => (by cases h),rfl,rfl,rfl⟩
    exact haside.appends hno
  · have hwrites (c : ℕ) : s.writes c (.disconnectCall now) =
        t.wire c (frameBytes FrameType.close.code [] 0 (t.generateMsgId now).1) := by
      rw [writes,if_pos hret,ht]
      rfl
    have hsent : Appends (fun c => s.writes c (.disconnectCall now)) s u := by
      have hclose :=
        (t.sendFrame_appends .close [] 0 now).aside (createTask_aside _ .disconnectDrain)
      rw [← hu] at hclose
      simp only [hwrites]
      rw [ht] at hclose ⊢
      exact ⟨hclose.written,hclose.closed,hclose.writer,hclose.gone⟩
    rcases he with he | he <;> rw [he]
    · exact hsent
    · exact hsent.aside (closeConnection_aside _ _)

end State

structure Writes (s : State) (e : Event) (t : State) : Prop where
  written : ∀ c, (t.connections c).written = (s.connections c).written ++ s.writes c e
  closed : ∀ c < s.opened, (s.connections c).closed = true → (t.connections c).closed = true
  writer : ∀ c, t.writer = some c → s.writer = some c ∨ s.opened ≤ c ∧ c < t.opened
  gone : ∀ c, s.Gone c → c < s.opened ∨ t.opened ≤ c → s.writes c e = []

theorem Appends.writes {s t : State} {e : Event} (h : Appends (fun c => s.writes c e) s t) :
    Writes s e t :=
  ⟨h.written,fun c _ => h.closed c,fun _ hc => .inl (h.writer ▸ hc),fun c hc _ => h.gone c hc⟩

theorem opened_writes {s t : State} {i : ℕ} {connectCalls : List (Call × ℤ)}
    {raised : Option String} {now : ℤ} (hnew : (s.connections s.opened).written = [])
    (h : Aside (s.onOpened connectCalls raised now).2 t) (hopened : t.opened = s.opened + 1) :
    Writes s (.opened i connectCalls raised now) t := by
  have hopen := (s.onOpened_appends connectCalls raised now).aside h
  have hconnections : s.establish.connections = Function.update s.connections s.opened {} := by
    unfold State.establish State.setupPingInterval
    dsimp only
    split_ifs <;> rfl
  refine ⟨fun c => ?_,fun c hlt hc => ?_,fun c hc => .inr ?_,fun c _ hc => ?_⟩
  · rw [hopen.written,hconnections]
    by_cases hco : c = s.opened
    · rw [hco,Function.update_self,hnew]
      rfl
    · rw [Function.update_of_ne hco]
      rfl
  · refine hopen.closed c ?_
    rwa [hconnections,Function.update_of_ne hlt.ne]
  · rw [hopen.writer,(openOn_establish s).writer] at hc
    cases hc
    rw [hopened]
    exact ⟨le_rfl,Nat.lt_succ_self _⟩
  · refine hopen.gone c fun hw => ?_
    rw [(openOn_establish s).writer] at hw
    cases hw
    omega

theorem step_writes {s t : State} {e : Event} (hnew : (s.connections s.opened).written = [])
    (h : step s e = some t) : Writes s e t := by
  cases e with
  | disconnectCall now =>
    cases h
    exact (s.disconnect_appends now).writes
  | call k now =>
    cases h
    exact Appends.writes (s.call_appends now k)
  | opened i connectCalls raised now =>
    cases step_move h with
    | opened _ wait =>
      have hrest := (State.passing_unread.onOpened s connectCalls raised now).trans
        (State.passing_unread.endConnect _ i wait (s.onOpened connectCalls raised now).1.isSome)
      exact opened_writes hnew (State.endConnect_aside _ _ _ _)
        (hrest.opened.trans s.establish_opens.1)
  | wake i now =>
    have hnone (hi : s.tasks i ≠ .live .pingSleep ∨ s.connected = false) (c : ℕ) :
        s.writes c (.wake i now) = [] := by
      simp only [State.writes,ite_eq_right_iff]
      exact fun hp => s.wire_unconnected (.inr (hi.resolve_left (not_not.mpr hp))) _
    have hping (status : Status) (hi : s.tasks i = .live .pingSleep) :
        Writes s (.wake i now) ((s.ping now).2.setTask i status) := by
      have hsent := (s.sendFrame_appends .ping [] 0 now).aside (State.setTask_aside _ i status)
      refine Appends.writes (t := (s.ping now).2.setTask i status) ?_
      simp only [State.writes,if_pos hi]
      exact hsent
    simp only [step] at h
    split at h
    · next hi =>
      split_ifs at h with hc
      · split at h
        · next u hu =>
          cases h
          rw [← show (s.ping now).2 = u by rw [hu]]
          exact hping _ hi
        · next u hu =>
          cases h
          rw [← show (s.ping now).2 = u by rw [hu]]
          exact hping _ hi
      · cases h
        exact Appends.writes ((s.setTask_aside i _).appends
          (hnone (.inr (Bool.not_eq_true _ ▸ hc))))
    · next hi =>
      cases h
      have hno := hnone (.inl fun hp => (by cases hi.symm.trans hp))
      split_ifs
      · exact Appends.writes ((s.setTask_aside i _).appends hno)
      · have haside : Aside s ({ s with running := true }.setTask i (.live .reconnectOpening)) :=
          ⟨fun _ => rfl,fun _ => id,rfl,id,rfl,rfl,rfl⟩
        exact Appends.writes (haside.appends hno)
    · cases h
  | closed i =>
    cases step_move h with
    | closed _ =>
      exact ⟨fun c => (List.append_nil _).symm,fun _ _ hc => hc,fun c hc => (by cases hc),
        fun _ _ _ => rfl⟩
  | _ => exact Appends.writes ((step_aside h rfl).appends fun _ => rfl)

structure Made (s : State) : Prop where
  written : ∀ c, s.opened ≤ c → (s.connections c).written = []
  writer : ∀ c, s.writer = some c → c < s.opened

theorem made_init (options : Options) : Made (init options) where
  written := fun _ _ => rfl
  writer := fun _ h => by cases h

theorem step_opened {s t : State} {e : Event} (h : step s e = some t) : s.opened ≤ t.opened := by
  cases step_decodes h with
  | goesOn _ h => exact h.opened.ge
  | emptied _ ho => exact ho ▸ Nat.le_succ _
  | received _ _ ho => exact ho.ge

theorem Made.writes {s t : State} {e : Event} (hI : Made s) (h : step s e = some t) :
    Writes s e t :=
  step_writes (hI.written _ le_rfl) h

theorem Made.step {s t : State} {e : Event} (hI : Made s) (h : Py.step s e = some t) : Made t := by
  have hw := hI.writes h
  have hopened := step_opened h
  refine ⟨fun c hc => ?_,fun c hc => ?_⟩
  · have hgone : s.Gone c := fun hs =>
      absurd (hI.writer c hs) (Nat.not_lt.mpr (hopened.trans hc))
    rw [hw.written,hw.gone c hgone (.inr hc),hI.written c (hopened.trans hc)]
    rfl
  · rcases hw.writer c hc with hs | ⟨-,hs⟩
    · exact (hI.writer c hs).trans_le hopened
    · exact hs

/-- What has been written to a connection is what the steps of the run have, one after the other. -/
theorem written_eq {options : Options} {events : List Event} {s : State}
    (h : run step (init options) events = some s) (c : ℕ) : (s.connections c).written =
      (steps step (init options) events).flatMap fun p => p.1.writes c p.2 :=
  output_of_run (I := Made) (fun s => (s.connections c).written)
    (fun _ _ _ hI h => hI.step h) (fun _ _ _ hI h => (hI.writes h).written c) (made_init options) h

/-! The end of a connection's stream. -/

theorem Made.retired {s t : State} {e : Event} {c : ℕ} (hI : Made s) (hlt : c < s.opened)
    (hgone : s.Gone c) (h : Py.step s e = some t) :
    c < t.opened ∧ t.Gone c ∧ (t.connections c).written = (s.connections c).written := by
  have hw := hI.writes h
  refine ⟨hlt.trans_le (step_opened h),fun hc => ?_,?_⟩
  · rcases hw.writer c hc with hs | ⟨hle,-⟩
    · exact hw.closed c hlt (hgone hs)
    · exact absurd hlt (Nat.not_lt.mpr hle)
  · rw [hw.written,hw.gone c hgone (.inl hlt),List.append_nil]

/-- A connection that is gone is given nothing more, whatever comes later. -/
theorem Made.retired_run {s : State} {c : ℕ} (hI : Made s) (hlt : c < s.opened) (hgone : s.Gone c)
    (later : List Event) : ∀ u ∈ states Py.step s later,
      (u.connections c).written = (s.connections c).written := by
  intro u hu
  have hall : Made u ∧ (c < u.opened ∧ u.Gone c) ∧
      (u.connections c).written = (s.connections c).written :=
    Transition.invariant (I := fun u => Made u ∧ (c < u.opened ∧ u.Gone c) ∧
      (u.connections c).written = (s.connections c).written) (fun _ _ _ h hstep => by
        obtain ⟨hlt,hgone,hsame⟩ := h.1.retired h.2.1.1 h.2.1.2 hstep
        exact ⟨h.1.step hstep,⟨hlt,hgone⟩,hsame.trans h.2.2⟩) ⟨hI,⟨hlt,hgone⟩,rfl⟩ later u hu
  exact hall.2.2

/-! What the connections are given, frame by frame. -/

theorem msgId_of_frameBytes {frameType : ℕ} {payload : List UInt8} {flags : ℕ} {msgId : ℤ}
    {bytes : List UInt8} (h : frameBytes frameType payload flags msgId = some bytes) :
    ∃ n : ℕ, n < 2 ^ 64 ∧ (n : ℤ) = msgId := by
  simp only [frameBytes,buildHeader,Option.bind_eq_bind,Option.bind_eq_some_iff] at h
  obtain ⟨-,⟨-,-,-,-,-,-,-,-,-,-,-,-,-,-,id,hid,-⟩,-⟩ := h
  obtain ⟨hpos,hid⟩ := Option.ite_none_right_eq_some.mp hid
  exact ⟨msgId.toNat,(pack_eq_some_iff.mp hid).1,Int.toNat_of_nonneg hpos⟩

theorem exists_frame {frameType : FrameType} {payload : List UInt8} {flags : ℕ} {msgId : ℤ}
    {bytes : List UInt8} (h : frameBytes frameType.code payload flags msgId = some bytes)
    (hflags : flags < 8) :
    ∃ f : Frame, f.bytes = bytes ∧ f.frameType = frameType ∧ f.payload = payload := by
  obtain ⟨n,hn,rfl⟩ := msgId_of_frameBytes h
  let f : Frame := ⟨frameType,flags,n,payload,hflags,hn,length_lt_of_frameBytes h⟩
  exact ⟨f,Option.some.inj ((frameBytes_eq f).symm.trans h),rfl,rfl⟩

def Call.Fits : Call → Prop
  | .publish _ _ flags | .sendRawFrame _ _ flags => flags < 8
  | _ => True

instance : DecidablePred Call.Fits
  | .publish _ _ _ | .sendRawFrame _ _ _ => inferInstanceAs (Decidable (_ < _))
  | .subscribe _ _ | .unsubscribe _ _ | .ping => inferInstanceAs (Decidable True)

def Event.Calls (P : Call → Prop) : Event → Prop
  | .call k _ => P k
  | .opened _ connectCalls _ _ => ∀ k ∈ connectCalls, P k.1
  | _ => True

instance (P : Call → Prop) [DecidablePred P] : DecidablePred (Event.Calls P)
  | .call k _ => inferInstanceAs (Decidable (P k))
  | .opened _ connectCalls _ _ => inferInstanceAs (Decidable (∀ k ∈ connectCalls, P k.1))
  | .connectCall | .disconnectCall _ | .start _ | .openFailed _ _ | .read _ _ | .wake _ _
  | .drained _ | .closed _ => inferInstanceAs (Decidable True)

theorem Call.Fits.flags {k : Call} (h : k.Fits) {x : FrameType × List UInt8 × ℕ}
    (hx : k.frame = some x) : x.2.2 < 8 := by
  have hack (requireAck : Bool) : (if requireAck then flagsAckRequired else flagsNone) < 8 := by
    cases requireAck <;> decide
  cases k with
  | ping =>
    cases hx
    exact Nat.zero_lt_succ 7
  | subscribe topic requireAck | unsubscribe topic requireAck =>
    cases hx
    exact hack requireAck
  | publish topic message flags =>
    obtain ⟨length,-,rfl⟩ := Option.map_eq_some_iff.mp hx
    exact h
  | sendRawFrame frameType payload flags =>
    cases hx
    exact h

namespace State

variable {s : State} {c : ℕ} {bytes : List UInt8}

end State

def closedRun : List Event :=
  [.connectCall,.opened 0 [(.ping,1)] none 2,.call (.publish ['t'] [109] 0) 3,.start 1,
    .read 1 .eof,.disconnectCall 4,.drained 2]

end Py
end MipClients
