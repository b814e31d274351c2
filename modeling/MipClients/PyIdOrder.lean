import Mathlib.Data.Int.ConditionallyCompleteOrder
import MipClients.PyMessages
import MipClients.Rising

/-! The message ids that the Python client puts on the wire (`_generate_msg_id` and its callers in
`mip_client/__init__.py`) rise along each connection's stream and from each connection to the later
ones, as long as the clock is not set back. -/
namespace MipClients
namespace Py

open StreamDecoder Transition
open Wire (Emission FrameType)

/-- The readings of the clock at an event: those of the calls of the 'connect' callbacks come before
that of HELLO. -/
def Event.readings : Event → List ℤ
  | .call _ now | .disconnectCall now | .wake _ now => [now]
  | .opened _ connectCalls _ now => connectCalls.map Prod.snd ++ [now]
  | _ => []

def State.nextId (now : ℤ) (s : State) : ℤ := (s.generateMsgId now).1

theorem State.nextId_mono (s : State) : Monotone (State.nextId · s) :=
  fun _ _ h => Int.add_le_add_right h _

theorem State.nextId_lt {s t : State} (h : s.msgIdCounter < t.msgIdCounter) (now : ℤ) :
    s.nextId now < t.nextId now := by
  unfold State.nextId State.generateMsgId
  dsimp only
  omega

theorem State.nextId_le {s t : State} (h : s.msgIdCounter ≤ t.msgIdCounter) (now : ℤ) :
    s.nextId now ≤ t.nextId now := by
  unfold State.nextId State.generateMsgId
  dsimp only
  omega

/-! The count of the ids never goes back. -/

theorem passing_counter : Passing fun s t => s.msgIdCounter ≤ t.msgIdCounter where
  refl := fun _ => le_rfl
  trans := le_trans
  generateMsgId := fun _ _ => Nat.le_succ _
  write := fun _ _ _ => le_rfl
  update := le_rfl
  record := fun _ _ _ => le_rfl
  setTask := fun _ _ _ _ => le_rfl
  closeWriter := fun _ _ => le_rfl
  drop := fun _ => le_rfl

namespace State

variable (s : State)

theorem react_counter (e : Emission FrameHeader MIPError) :
    s.msgIdCounter ≤ (s.react e).msgIdCounter := by
  unfold react
  cases e with
  | error error =>
    dsimp only
    split <;> exact Nat.le_refl s.msgIdCounter
  | _ => exact Nat.le_refl s.msgIdCounter

theorem readNext_counter (i : ℕ) : s.msgIdCounter ≤ (s.readNext i).msgIdCounter := by
  unfold readNext
  split <;> exact le_rfl

theorem handleData_counter (i : ℕ) (data : List UInt8) (message : String) :
    s.msgIdCounter ≤ (s.handleData i data message).msgIdCounter := by
  have hreacts := foldl_related (R := fun s t => s.msgIdCounter ≤ t.msgIdCounter)
    passing_counter.refl passing_counter.trans react_counter
    (StreamDecoder.run framing.decoder (s.buffer ++ data)).out s
  have hread : s.msgIdCounter ≤
      { (StreamDecoder.run framing.decoder (s.buffer ++ data)).out.foldl react s with
        buffer := (StreamDecoder.run framing.decoder (s.buffer ++ data)).buffer }.msgIdCounter :=
    hreacts
  unfold handleData
  dsimp only
  split_ifs
  · exact hread.trans (passing_counter.readFailed _ i message)
  · exact hread.trans (readNext_counter _ i)

theorem establish_counter : s.msgIdCounter ≤ s.establish.msgIdCounter := by
  unfold establish setupPingInterval
  dsimp only
  split_ifs <;> exact le_rfl

end State

theorem step_counter {s t : State} {e : Event} (h : step s e = some t) :
    s.msgIdCounter ≤ t.msgIdCounter := by
  cases step_passage h with
  | passes _ _ h => exact h _ passing_counter
  | checks i => exact s.readNext_counter i
  | handles i c data message => exact s.handleData_counter i data message
  | opens i connectCalls raised now h => exact s.establish_counter.trans (h _ passing_counter)

theorem msgIdOf_frameBytes {frameType : ℕ} {payload : List UInt8} {flags : ℕ} {msgId : ℤ}
    {bytes : List UInt8} (h : frameBytes frameType payload flags msgId = some bytes) :
    msgIdOf bytes = msgId := by
  obtain ⟨n,hn,rfl⟩ := msgId_of_frameBytes h
  simp only [frameBytes,buildHeader,Option.bind_eq_bind,Option.bind_eq_some_iff,pack_eq_some_iff,
    packId_of_lt hn,Option.pure_def,Option.some.injEq] at h
  obtain ⟨-,⟨_,⟨-,rfl⟩,_,⟨-,rfl⟩,_,⟨-,rfl⟩,_,⟨-,rfl⟩,_,⟨-,rfl⟩,_,⟨-,rfl⟩,_,⟨-,rfl⟩,_,rfl,rfl⟩,
    rfl⟩ := h
  rw [msgIdOf,List.append_assoc,BigEndian.field_bytes (by simp) hn]

/-! What sends puts the next id on the wire, or none. -/

namespace State

variable (s : State)

theorem sendFrame_rises (frameType : FrameType) (payload : List UInt8) (flags : ℕ) (now : ℤ)
    (c : ℕ) : Rises nextId [now]
      ((s.wire c (frameBytes frameType.code payload flags (s.generateMsgId now).1)).map msgIdOf) s
      (s.sendFrame frameType payload flags now).2 := by
  have hgrows := nextId_le (passing_counter.sendFrame s frameType payload flags now)
  rcases s.sendFrame_cases frameType payload flags now with
    ⟨h,hno⟩ | ⟨h,hb⟩ | ⟨d,bytes,-,-,hb,h⟩ <;> rw [h] at hgrows ⊢
  · rw [s.wire_unconnected hno]
    exact .silent hgrows
  · rw [hb,s.wire_none]
    exact .silent hgrows
  · rw [hb,wire]
    split_ifs
    · have hid : msgIdOf bytes = s.nextId now := msgIdOf_frameBytes hb
      have hcounts : s.msgIdCounter < ((s.generateMsgId now).2.write d bytes).msgIdCounter :=
        Nat.lt_succ_self _
      rw [Option.toList_some,List.map_singleton,hid]
      exact .single hgrows (nextId_lt hcounts now)
    · exact .silent hgrows

theorem call_rises (now : ℤ) (k : Call) (c : ℕ) :
    Rises nextId [now] ((s.wire c (s.bytes now k)).map msgIdOf) s (s.call now k) := by
  rcases s.call_cases now k with ⟨hf,h⟩ | ⟨frameType,payload,flags,hf,h⟩ <;> rw [h]
  · rw [bytes,hf]
    dsimp only [Option.bind_none]
    rw [s.wire_none]
    exact .silent fun _ => le_rfl
  · have hsent := s.sendFrame_rises frameType payload flags now c
    rwa [bytes,hf]

theorem calls_rises (l : List (Call × ℤ)) (c : ℕ) :
    Rises nextId (l.map Prod.snd) ((s.callsWrite c l).map msgIdOf) s (s.calls l) := by
  induction l generalizing s with
  | nil => exact .silent fun _ => le_rfl
  | cons k l ih =>
    rw [callsWrite,List.map_append,List.map_cons]
    exact (s.call_rises k.2 k.1 c).append nextId_mono (ih (s.call k.2 k.1))

theorem sayHello_rises (now : ℤ) (c : ℕ) :
    Rises nextId [now] ((s.helloWrite c now).map msgIdOf) s (s.sayHello now).2 := by
  have hsent := s.sendFrame_rises .hello (Utf8.encode s.clientId) flagsNone now c
  unfold sayHello
  dsimp only
  generalize s.sendFrame .hello (Utf8.encode s.clientId) flagsNone now = r at hsent ⊢
  obtain ⟨result,t⟩ := r
  cases result <;> exact hsent.grow fun _ => le_rfl

theorem onOpened_rises (connectCalls : List (Call × ℤ)) (raised : Option String) (now : ℤ)
    (c : ℕ) : Rises nextId (connectCalls.map Prod.snd ++ [now])
      ((s.establish.callsWrite c connectCalls ++
        if raised.isNone then (s.establish.calls connectCalls).helloWrite c now
        else []).map msgIdOf) s.establish (s.onOpened connectCalls raised now).2 := by
  have hcalls := s.establish.calls_rises connectCalls c
  rw [List.map_append]
  cases raised with
  | some message => exact hcalls.append nextId_mono (.silent fun _ => le_rfl)
  | none =>
    rw [onOpened_none]
    refine hcalls.append nextId_mono ((sayHello_rises _ now c).grow ?_)
    dsimp only
    split <;> exact fun _ => le_rfl

theorem disconnect_rises (now : ℤ) (c : ℕ) :
    Rises nextId [now] ((s.writes c (.disconnectCall now)).map msgIdOf) s (s.disconnect now) := by
  have hgrows := nextId_le (passing_counter.disconnect s now)
  rcases s.disconnect_cases now with ⟨hret,-⟩ | ⟨hret,hw,-⟩ | ⟨hret,-,t,u,ht,hu,he⟩
  · have hno : s.writes c (.disconnectCall now) = [] := by simp [writes,hret]
    rw [hno]
    exact .silent hgrows
  · have hno : s.writes c (.disconnectCall now) = [] := by
      simp [writes,hret,s.wire_unconnected (.inl hw)]
    rw [hno]
    exact .silent hgrows
  · have hwrites : s.writes c (.disconnectCall now) =
        t.wire c (frameBytes FrameType.close.code [] 0 (t.generateMsgId now).1) := by
      rw [writes,if_pos hret,ht]
      rfl
    have hsent : Rises nextId [now] ((s.writes c (.disconnectCall now)).map msgIdOf) s u := by
      have hclose := (t.sendFrame_rises .close [] 0 now c).grow (u := u) fun now' => by
        rw [hu]
        exact le_rfl
      rw [hwrites]
      exact hclose.grown fun now' => by
        rw [ht]
        exact le_rfl
    rcases he with he | he <;> rw [he]
    · exact hsent
    · exact hsent.grow (nextId_le (passing_counter.closeConnection u _))

end State

theorem step_rises {s t : State} {e : Event} (h : step s e = some t) (c : ℕ) :
    Rises State.nextId e.readings ((s.writes c e).map msgIdOf) s t := by
  have hgrows := State.nextId_le (step_counter h)
  cases e with
  | call k now =>
    cases h
    exact s.call_rises now k c
  | disconnectCall now =>
    cases h
    exact s.disconnect_rises now c
  | opened i connectCalls raised now =>
    cases step_move h with
    | opened _ wait =>
      have hopen := (s.onOpened_rises connectCalls raised now c).grown
        (State.nextId_le s.establish_counter)
      exact hopen.grow (State.nextId_le (passing_counter.endConnect _ i wait _))
  | wake i now =>
    simp only [State.writes]
    split_ifs with hi
    · simp only [step,hi] at h
      split_ifs at h with hc
      · have hping : Rises State.nextId [now] _ s (s.ping now).2 :=
          s.sendFrame_rises .ping [] 0 now c
        split at h
        · next u hu =>
          cases h
          rw [hu] at hping
          exact hping.grow fun _ => le_rfl
        · next u hu =>
          cases h
          rw [hu] at hping
          exact hping.grow fun _ => le_rfl
      · rw [s.wire_unconnected (.inr (Bool.not_eq_true _ ▸ hc))]
        exact .silent hgrows
    · exact .silent hgrows
  | _ => exact .silent hgrows

/-! Connections are written to in their order. -/

theorem Appends.writer_of_mem {l : ℕ → List (List UInt8)} {s t : State} (h : Appends l s t) {c : ℕ}
    {bytes : List UInt8} (hb : bytes ∈ l c) : t.writer = some c := by
  by_contra hc
  have hgone : s.Gone c := fun hs => absurd (h.writer.trans hs) hc
  rw [h.gone c hgone] at hb
  cases hb

theorem writer_of_mem_writes {s t : State} {e : Event} (h : step s e = some t) {c : ℕ}
    {bytes : List UInt8} (hb : bytes ∈ s.writes c e) : t.writer = some c := by
  cases e with
  | call k now =>
    cases h
    exact (s.call_appends now k).writer_of_mem hb
  | disconnectCall now =>
    cases h
    exact (s.disconnect_appends now).writer_of_mem hb
  | opened i connectCalls raised now =>
    cases step_move h with
    | opened _ wait =>
      have hopen := (s.onOpened_appends connectCalls raised now).aside
        (State.endConnect_aside _ i wait (s.onOpened connectCalls raised now).1.isSome)
      exact hopen.writer_of_mem hb
  | wake i now =>
    simp only [State.writes] at hb
    split_ifs at hb
    · have hping := s.sendFrame_appends .ping [] 0 now
      have hwriter := hping.writer_of_mem hb
      cases step_move h with
      | pinged => exact hwriter
      | _ => exact hping.writer.symm.trans hwriter
    · cases hb
  | _ => cases hb

/-- What has been written to a connection when a later one is written to is all that ever is. -/
theorem written_before {options : Options} {events : List Event} {s : State}
    (h : run step (init options) events = some s) {c d : ℕ} (hcd : c < d) {b : List UInt8}
    (hb : b ∈ (s.connections d).written) : ∃ before e after t u, events = before ++ e :: after ∧
      run step (init options) before = some t ∧ step t e = some u ∧ b ∈ t.writes d e ∧
      (s.connections c).written = (t.connections c).written := by
  rw [written_eq h d,List.mem_flatMap] at hb
  obtain ⟨⟨t,e⟩,hp,hb⟩ := hb
  obtain ⟨before,after,u,rfl,hbefore,hu⟩ := mem_steps_iff.mp hp
  have hI : Made t := invariant (fun _ _ _ hI h => hI.step h) (made_init options) before t
    (run_mem_states hbefore)
  have hI' : Made u := hI.step hu
  have hwriter := writer_of_mem_writes hu hb
  have hother : u.writer ≠ some c := by
    rw [hwriter]
    exact fun h => absurd (Option.some.inj h) hcd.ne'
  have hnone : t.writes c e = [] :=
    List.eq_nil_iff_forall_not_mem.mpr fun _ h => hother (writer_of_mem_writes hu h)
  rw [run_append,hbefore] at h
  have hafter : run step u after = some s := (run_cons hu after).symm.trans h
  refine ⟨before,e,after,t,u,rfl,hbefore,hu,hb,?_⟩
  rw [hI'.retired_run (hcd.trans (hI'.writer d hwriter)) (fun h => absurd h hother) after s
    (run_mem_states hafter),(hI.writes hu).written c,hnone,List.append_nil]

theorem written_ids {options : Options} {events : List Event} {s : State}
    (h : run step (init options) events = some s) (c : ℕ) :
    (s.connections c).written.map msgIdOf =
      (steps step (init options) events).flatMap fun p => (p.1.writes c p.2).map msgIdOf := by
  rw [written_eq h c,List.map_flatMap]

/-- In every run with a clock that is never set back: the message ids of the frames given to a
connection rise strictly, all of them are below those of the frames given to a later connection,
and, with the calls of the publishing interface, each of the three clients that has read any
beginning of the connection's stream has had its raw frame callback called with ids that rise
strictly. -/
theorem connectionIds_rise (options : Options) (events : List Event)
    (hclock : (events.flatMap Event.readings).Pairwise (· ≤ ·)) :
    ∀ s ∈ run step (init options) events, ∀ c,
      ((s.connections c).written.map msgIdOf).Pairwise (· < ·) ∧
      (∀ d, c < d → ∀ a ∈ (s.connections c).written, ∀ b ∈ (s.connections d).written,
        msgIdOf a < msgIdOf b) ∧
      ((∀ e ∈ events, e.Calls Call.Plain) → ∀ (receiver : Client) (chunks : List (List UInt8)),
        chunks.flatten <+: (s.connections c).written.flatten →
        (receiver.reportedIds chunks).Pairwise (· < ·)) := by
  intro s hs c
  have hrises (c : ℕ) (s : State) (e : Event) (t : State) (h : step s e = some t) :=
    step_rises h c
  have hids : ((s.connections c).written.map msgIdOf).Pairwise (· < ·) := by
    rw [written_ids hs c]
    exact (Rises.of_run State.nextId_mono (hrises c) hs).sorted hclock
  refine ⟨hids,fun d hcd a ha b hb => ?_,fun hcalls receiver chunks hchunks => ?_⟩
  · obtain ⟨before,e,after,t,u,rfl,hbefore,hu,hb,hsame⟩ := written_before hs hcd hb
    have ha' := List.mem_map_of_mem (f := msgIdOf) (hsame ▸ ha)
    rw [written_ids hbefore c] at ha'
    exact Rises.lt_of_run State.nextId_mono (hrises c) (hrises d) hbefore hu hclock ha'
      (List.mem_map_of_mem hb)
  · exact (tells_written hcalls hs c).heard_ids hids receiver hchunks

def reconnectedRun : List Event :=
  closedRun ++ [.closed 2,.connectCall,.opened 3 [] none 5]

theorem connectionIds_rise_reconnected : ∃ s ∈ run step (init {}) reconnectedRun,
    (s.connections 0).written.length = 4 ∧ (s.connections 1).written.length = 1 ∧
      ((s.connections 0).written.map msgIdOf).Pairwise (· < ·) ∧
      (∀ a ∈ (s.connections 0).written, ∀ b ∈ (s.connections 1).written,
        msgIdOf a < msgIdOf b) ∧
      ∀ (receiver : Client) (chunks : List (List UInt8)),
        chunks.flatten <+: (s.connections 0).written.flatten →
        (receiver.reportedIds chunks).Pairwise (· < ·) := by
  have hrun : ∃ s ∈ run step (init {}) reconnectedRun, (s.connections 0).written.length = 4 ∧
      (s.connections 1).written.length = 1 := by
    decide +kernel
  have hplain : ∀ e ∈ reconnectedRun, e.Calls Call.Plain := by
    simp only [reconnectedRun,closedRun,List.cons_append,List.nil_append,List.forall_mem_cons]
    exact ⟨trivial,by simp [Event.Calls,Call.Plain],⟨⟨['m'],rfl⟩,by decide⟩,trivial,trivial,trivial,
      trivial,trivial,trivial,fun _ h => (by cases h),fun _ h => (by cases h)⟩
  obtain ⟨s,hs,hfirst,hsecond⟩ := hrun
  obtain ⟨hids,hlater,hread⟩ := connectionIds_rise {} reconnectedRun (by decide) s hs 0
  exact ⟨s,hs,hfirst,hsecond,hids,hlater 1 (by decide),hread hplain⟩

end Py
end MipClients
