import MipClients.PyDisconnect
import MipClients.PyHandshake

/-! What a `connect()` of the Python client that raises leaves behind, in a user's call or in a
reconnect task. Of its three points of failure, the opening of the connection comes before anything
is made; a 'connect' callback and HELLO come behind the writer, the flag and the two tasks. -/
namespace MipClients
namespace Py

open Transition
open Wire (FrameType)

def ConnectRaises (s : State) : Event → Prop
  | .openFailed _ _ => True
  | .opened _ connectCalls raised now => (s.onOpened connectCalls raised now).1.isSome = true
  | _ => False

def Status.readsOrPings : Status → Bool
  | .live .readLoopStart | .live (.reading _) | .live .pingLoopStart | .live .pingSleep => true
  | _ => false

/-- The HELLO frame of the handshake, if it can be packed, once the connection is open and the
callbacks have returned. -/
def State.helloFrame (s : State) (connectCalls : List (Call × ℤ)) (now : ℤ) :
    Option (List UInt8) :=
  let t := s.establish.calls connectCalls
  frameBytes FrameType.hello.code (Utf8.encode t.clientId) flagsNone (t.generateMsgId now).1

/-- A call of `connect()` opens a connection and, with callbacks that return, writes HELLO on it. -/
def ConnectsAgain (s : State) : Prop := ∃ t, step s .connectCall = some t ∧
  t.tasks s.nextTask = .live .connectOpening ∧
  ∀ connectCalls now bytes, t.helloFrame connectCalls now = some bytes →
    ∃ u, step t (.opened s.nextTask connectCalls none now) = some u ∧
      u.opened = s.opened + 1 ∧ u.writer = some s.opened ∧ u.connected = true ∧
      bytes ∈ (u.connections s.opened).written

/-- What a `connect()` that raises in a step from `s` to `t` is to leave behind: nothing that it
made is live or open, and until a connection opens the next call connects. -/
structure NothingLeft (s t : State) : Prop where
  connected : t.connected = false
  tasks : ∀ i, s.nextTask ≤ i → i < t.nextTask → (t.tasks i).readsOrPings = false
  writers : ∀ c, s.opened ≤ c → c < t.opened → (t.connections c).closed = true
  again : ∀ events : List Event, (∀ e ∈ events, e.opens = false) →
    ∀ u ∈ states step t events, ConnectsAgain u

def FailuresLeaveNothing (options : Options) (events : List Event) : Prop :=
  ∀ p ∈ steps step (init options) events, ConnectRaises p.1 p.2 →
    ∀ t, step p.1 p.2 = some t → NothingLeft p.1 t

/-- Only the opening of the connection may fail, and then with none made by another call. -/
def OnlyOpeningFails (s : State) : Event → Prop
  | .openFailed _ _ => s.connected = false
  | .opened _ connectCalls raised now =>
    raised = none ∧ (s.helloFrame connectCalls now).isSome = true
  | _ => True

/-! The connection that `connect()` has opened. -/

structure SameWriters (s t : State) : Prop where
  writer : t.writer = s.writer
  connected : t.connected = s.connected
  opened : t.opened = s.opened
  closed : ∀ c, (t.connections c).closed = (s.connections c).closed

namespace SameWriters

variable {s t u : State}

theorem refl (s : State) : SameWriters s s := ⟨rfl,rfl,rfl,fun _ => rfl⟩

theorem trans (h : SameWriters s t) (h' : SameWriters t u) : SameWriters s u where
  writer := h'.writer.trans h.writer
  connected := h'.connected.trans h.connected
  opened := h'.opened.trans h.opened
  closed := fun c => (h'.closed c).trans (h.closed c)

end SameWriters

namespace State

variable (s : State)

theorem write_sameWriters (c : ℕ) (bytes : List UInt8) : SameWriters s (s.write c bytes) := by
  refine ⟨rfl,rfl,rfl,fun d => ?_⟩
  by_cases hd : d = c
  · subst hd
    simp only [write,State.updateConnection_self]
    split_ifs <;> rfl
  · simp [write,hd]

theorem sending_sameWriters : Sending SameWriters :=
  ⟨SameWriters.refl,SameWriters.trans,fun _ _ => ⟨rfl,rfl,rfl,fun _ => rfl⟩,write_sameWriters⟩

theorem scheduleReconnect_sameWriters : SameWriters s s.scheduleReconnect := by
  unfold scheduleReconnect
  split_ifs <;> exact ⟨rfl,rfl,rfl,fun _ => rfl⟩

theorem endConnect_sameWriters (t : ℕ) (wait : Wait) (raised : Bool) :
    SameWriters s (s.endConnect t wait raised) := by
  have hset (u : State) (status : Status) : SameWriters u (u.setTask t status) :=
    ⟨rfl,rfl,rfl,fun _ => rfl⟩
  rcases s.endConnect_cases t wait raised with ⟨status,-,he⟩ | he <;> rw [he]
  · exact hset s _
  · exact s.scheduleReconnect_sameWriters.trans (hset _ _)

end State

structure OpenOn (c : ℕ) (s : State) : Prop where
  writer : s.writer = some c
  connected : s.connected = true
  opened : s.opened = c + 1
  closed : (s.connections c).closed = false

theorem SameWriters.openOn {s t : State} {c : ℕ} (h : SameWriters s t) (hs : OpenOn c s) :
    OpenOn c t :=
  ⟨h.writer.trans hs.writer,h.connected.trans hs.connected,h.opened.trans hs.opened,
    (h.closed c).trans hs.closed⟩

theorem openOn_establish (s : State) : OpenOn s.opened s.establish := by
  unfold State.establish State.setupPingInterval
  dsimp only
  split_ifs <;> exact ⟨rfl,rfl,rfl,by simp [State.record,State.createTask]⟩

theorem openOn_calls (s : State) (connectCalls : List (Call × ℤ)) :
    OpenOn s.opened (s.establish.calls connectCalls) :=
  (State.sending_sameWriters.calls _ connectCalls).openOn (openOn_establish s)

theorem OpenOn.sayHello {s : State} {c : ℕ} (h : OpenOn c s) {now : ℤ} {bytes : List UInt8}
    (hb : frameBytes FrameType.hello.code (Utf8.encode s.clientId) flagsNone
      (s.generateMsgId now).1 = some bytes) :
    (s.sayHello now).1 = none ∧ OpenOn c (s.sayHello now).2 ∧
      bytes ∈ ((s.sayHello now).2.connections c).written := by
  rcases s.sayHello_cases now with ⟨d,bytes',hd,-,hb',he⟩ | ⟨hno,-⟩
  · obtain rfl : d = c := Option.some.inj (hd.symm.trans h.writer)
    obtain rfl : bytes' = bytes := Option.some.inj (hb'.symm.trans hb)
    have hw : OpenOn d ((s.generateMsgId now).2.write d bytes') :=
      (State.write_sameWriters _ d bytes').openOn ⟨h.writer,h.connected,h.opened,h.closed⟩
    have hclosed : ((s.generateMsgId now).2.connections d).closed = false := h.closed
    rw [he]
    refine ⟨rfl,⟨hw.writer,hw.connected,hw.opened,hw.closed⟩,?_⟩
    simp [State.record,State.write,hclosed]
  · rcases hno with hno | hno | hno
    · rw [h.writer] at hno
      cases hno
    · rw [h.connected] at hno
      cases hno
    · rw [hb] at hno
      cases hno

theorem OpenOn.sayHello_raises {s : State} {c : ℕ} (h : OpenOn c s) {now : ℤ}
    (hb : frameBytes FrameType.hello.code (Utf8.encode s.clientId) flagsNone
      (s.generateMsgId now).1 = none) :
    (s.sayHello now).1.isSome = true ∧ (s.sayHello now).2.opened = c + 1 ∧
      ((s.sayHello now).2.connections c).closed = false := by
  rcases s.sayHello_cases now with ⟨d,bytes,-,-,hb',-⟩ | ⟨-,n,message,he⟩
  · rw [hb] at hb'
    cases hb'
  · rw [he]
    exact ⟨rfl,h.opened,h.closed⟩

namespace State

variable (s : State) (connectCalls : List (Call × ℤ)) (now : ℤ)

theorem onOpened_none : s.onOpened connectCalls none now =
    (((s.establish.calls connectCalls).sayHello now).1,
      match ((s.establish.calls connectCalls).sayHello now).1 with
      | some message =>
        ((s.establish.calls connectCalls).sayHello now).2.emitError { message := message }
      | none => ((s.establish.calls connectCalls).sayHello now).2) := by
  simp only [onOpened]
  split
  · next message u hu => rw [hu]
  · next u hu => rw [hu]

theorem onOpened_says {bytes : List UInt8} (hb : s.helloFrame connectCalls now = some bytes) :
    (s.onOpened connectCalls none now).1 = none ∧
      OpenOn s.opened (s.onOpened connectCalls none now).2 ∧
      bytes ∈ ((s.onOpened connectCalls none now).2.connections s.opened).written := by
  obtain ⟨hnone,hopen,hmem⟩ := (openOn_calls s connectCalls).sayHello hb
  rw [onOpened_none]
  simp only [hnone]
  exact ⟨trivial,hopen,hmem⟩

theorem onOpened_raises {raised : Option String}
    (h : ¬(raised = none ∧ (s.helloFrame connectCalls now).isSome = true)) :
    (s.onOpened connectCalls raised now).1.isSome = true ∧
      (s.onOpened connectCalls raised now).2.opened = s.opened + 1 ∧
      ((s.onOpened connectCalls raised now).2.connections s.opened).closed = false := by
  have hopen := openOn_calls s connectCalls
  cases raised with
  | some message => exact ⟨rfl,hopen.opened,hopen.closed⟩
  | none =>
    have hb : s.helloFrame connectCalls now = none := by simpa using h
    obtain ⟨hsome,hopened,hclosed⟩ := hopen.sayHello_raises hb
    obtain ⟨message,hm⟩ := Option.isSome_iff_exists.mp hsome
    rw [onOpened_none]
    simp only [hm]
    exact ⟨rfl,hopened,hclosed⟩

end State

/-! What the next call does. -/

theorem opened_says {s : State} {i : ℕ} (hi : s.tasks i = .live .connectOpening)
    {connectCalls : List (Call × ℤ)} {now : ℤ} {bytes : List UInt8}
    (hb : s.helloFrame connectCalls now = some bytes) :
    ∃ t, step s (.opened i connectCalls none now) = some t ∧ OpenOn s.opened t ∧
      bytes ∈ (t.connections s.opened).written := by
  obtain ⟨hnone,hopen,hmem⟩ := s.onOpened_says connectCalls now hb
  have hsame := State.endConnect_sameWriters (s.onOpened connectCalls none now).2 i
    .connectOpening (s.onOpened connectCalls none now).1.isSome
  have haside := State.endConnect_aside (s.onOpened connectCalls none now).2 i
    .connectOpening (s.onOpened connectCalls none now).1.isSome
  exact ⟨_,by simp only [step,hi],hsame.openOn hopen,haside.written s.opened ▸ hmem⟩

theorem connectsAgain {s : State} (h : s.connected = false) : ConnectsAgain s := by
  have hcall : step s .connectCall =
      some ({ s with running := true }.createTask .connectOpening) := by
    simp [step,h]
  have htask : ({ s with running := true }.createTask .connectOpening).tasks s.nextTask =
      .live .connectOpening := Function.update_self ..
  refine ⟨_,hcall,htask,fun connectCalls now bytes hb => ?_⟩
  obtain ⟨u,hu,hopen,hmem⟩ := opened_says htask hb
  exact ⟨u,hu,hopen.opened,hopen.writer,hopen.connected,hmem⟩

theorem disconnect_not_connected {s : State} (h : s.connected = false) (now : ℤ) :
    (s.disconnect now).connected = false := by
  rcases s.disconnect_cases now with
    ⟨-,ping,read,tasks,status,-,-,he⟩ | ⟨-,-,t,-,he⟩ | ⟨-,-,t,u,ht,hu,he⟩
  · rw [he]
    exact h
  · rw [he]
    rfl
  · have hsent := (t.sendFrame_keeps .close [] 0 now).connected
    have hdown : u.connected = false := by
      rw [hu]
      rw [ht] at hsent ⊢
      exact hsent.trans h
    rcases he with he | he <;> rw [he]
    · exact hdown
    · unfold State.closeConnection
      split <;> exact hdown

theorem stays_disconnected {s t : State} {e : Event} (h : s.connected = false)
    (he : e.opens = false) (hs : step s e = some t) : t.connected = false := by
  cases step_move hs with
  | opened => cases he
  | disconnectCall now => exact disconnect_not_connected h now
  | call c now => exact (s.call_keeps now c).connected.trans h
  | pinged i now => exact (s.sendFrame_keeps .ping [] 0 now).connected.trans h
  | pingOver | reconnectOver | reconnectOpening => exact h
  | closed => rfl
  | _ => exact Bool.eq_false_iff.mpr fun hc => by simp [(step_aside hs rfl).connected hc] at h

theorem connectsAgain_later {s : State} (h : s.connected = false) {events : List Event}
    (hopens : ∀ e ∈ events, e.opens = false) : ∀ t ∈ states step s events, ConnectsAgain t := by
  have hC : ∀ p ∈ steps step s events, p.2.opens = false := by
    intro p hp
    obtain ⟨before,after,-,hevents,-⟩ := mem_steps_iff.mp hp
    exact hopens p.2 (by simp [hevents])
  have hdown := invariant_of_steps (I := fun t => t.connected = false)
    (C := fun _ (e : Event) => e.opens = false)
    (fun _ _ _ h he hs => stays_disconnected h he hs) h hC
  exact fun t ht => connectsAgain (hdown t ht)

/-! The steps in which `connect()` raises. -/

theorem scheduleReconnect_tasks (s : State) {j : ℕ} (hj : s.nextTask ≤ j)
    (hlt : j < s.scheduleReconnect.nextTask) :
    (s.scheduleReconnect.tasks j).readsOrPings = false := by
  have hnone : ¬j < s.nextTask := Nat.not_lt.mpr hj
  unfold State.scheduleReconnect at hlt ⊢
  split_ifs at hlt ⊢
  · exact absurd hlt hnone
  · exact absurd hlt hnone
  · obtain rfl : j = s.nextTask := Nat.le_antisymm (Nat.le_of_lt_succ hlt) hj
    simp [State.record,State.createTask,Status.readsOrPings]

theorem endConnect_tasks (s : State) (i : ℕ) (wait : Wait) {j : ℕ} (hj : s.nextTask ≤ j)
    (hlt : j < (s.endConnect i wait true).nextTask) :
    ((s.endConnect i wait true).tasks j).readsOrPings = false := by
  rcases s.endConnect_cases i wait true with ⟨status,-,he⟩ | he <;> rw [he] at hlt ⊢
  · exact absurd hlt (Nat.not_lt.mpr hj)
  · by_cases hji : j = i
    · simp [hji,Status.readsOrPings]
    · simpa [hji] using scheduleReconnect_tasks s hj hlt

theorem openFailed_nothingLeft {s t : State} {i : ℕ} {message : String}
    (h : step s (.openFailed i message) = some t) (hc : s.connected = false) : NothingLeft s t := by
  cases step_move h with
  | openFailed _ wait =>
    have hsame := State.endConnect_sameWriters (s.emitError { message := message }) i wait true
    have hdown := hsame.connected.trans hc
    refine ⟨hdown,?_,fun c hle hlt => ?_,fun events => connectsAgain_later hdown⟩
    · exact fun j hj => endConnect_tasks (s.emitError { message := message }) i wait hj
    · rw [hsame.opened] at hlt
      exact absurd hlt (Nat.not_lt.mpr hle)

theorem opened_not_nothingLeft {s t : State} {i : ℕ} {connectCalls : List (Call × ℤ)}
    {raised : Option String} {now : ℤ} (h : step s (.opened i connectCalls raised now) = some t)
    (hfails : ¬OnlyOpeningFails s (.opened i connectCalls raised now)) : ¬NothingLeft s t := by
  obtain ⟨-,hopened,hclosed⟩ := s.onOpened_raises connectCalls now hfails
  cases step_move h with
  | opened _ wait =>
    have hsame := State.endConnect_sameWriters (s.onOpened connectCalls raised now).2 i wait
      (s.onOpened connectCalls raised now).1.isSome
    intro hleft
    have hgone := hleft.writers s.opened (Nat.le_refl _)
      (by rw [hsame.opened,hopened]; exact Nat.lt_succ_self _)
    rw [hsame.closed,hclosed] at hgone
    cases hgone

theorem step_leavesNothing_iff {s t : State} {e : Event} (h : step s e = some t) :
    (ConnectRaises s e → NothingLeft s t) ↔ OnlyOpeningFails s e := by
  cases e with
  | openFailed i message =>
    refine ⟨fun hleft => ?_,fun hc _ => openFailed_nothingLeft h hc⟩
    cases step_move h with
    | openFailed _ wait =>
      have hsame := State.endConnect_sameWriters (s.emitError { message := message }) i wait true
      exact hsame.connected.symm.trans (hleft trivial).connected
  | opened i connectCalls raised now =>
    constructor
    · intro hleft
      by_contra hfails
      obtain ⟨hraises,-⟩ := s.onOpened_raises connectCalls now hfails
      exact opened_not_nothingLeft h hfails (hleft hraises)
    · rintro ⟨rfl,hpacked⟩ hraises
      obtain ⟨bytes,hb⟩ := Option.isSome_iff_exists.mp hpacked
      obtain ⟨hnone,-⟩ := s.onOpened_says connectCalls now hb
      rw [ConnectRaises,hnone] at hraises
      cases hraises
  | _ => exact ⟨fun _ => trivial,fun _ hraises => hraises.elim⟩

/-- Every `connect()` that raises in a run leaves nothing behind exactly when none raises for a
callback or HELLO, and none beside a connection that another call has made. -/
theorem failuresLeaveNothing_iff (options : Options) (events : List Event) :
    FailuresLeaveNothing options events ↔
      ∀ p ∈ steps step (init options) events, OnlyOpeningFails p.1 p.2 := by
  refine forall₂_congr fun p hp => ?_
  obtain ⟨-,t,-,ht⟩ := step_of_mem_steps hp
  rw [← step_leavesNothing_iff ht]
  constructor
  · exact fun hleft hraises => hleft hraises t ht
  · intro hleft hraises u hu
    obtain rfl : t = u := Option.some.inj (ht.symm.trans hu)
    exact hleft hraises

theorem not_failuresLeaveNothing {options : Options} {before : List Event} {s t : State} {i : ℕ}
    {connectCalls : List (Call × ℤ)} {raised : Option String} {now : ℤ}
    (hrun : run step (init options) before = some s)
    (ht : step s (.opened i connectCalls raised now) = some t)
    (hfails : ¬(raised = none ∧ (s.helloFrame connectCalls now).isSome = true)) :
    ¬FailuresLeaveNothing options (before ++ [.opened i connectCalls raised now]) := by
  have hmem : (s,Event.opened i connectCalls raised now) ∈
      steps step (init options) (before ++ [.opened i connectCalls raised now]) :=
    mem_steps_iff.mpr ⟨before,[],t,rfl,hrun,ht⟩
  obtain ⟨hraises,-⟩ := s.onOpened_raises connectCalls now hfails
  exact fun h => opened_not_nothingLeft ht hfails (h _ hmem hraises t ht)

/-- A 'connect' callback that raises leaves a connection behind, and so does a HELLO that cannot be
packed, as with a clock set before the epoch. -/
theorem failures_leave_connection :
    ¬FailuresLeaveNothing {} ([.connectCall] ++ [.opened 0 [] (some "callback") 0]) ∧
      ¬FailuresLeaveNothing {} ([.connectCall] ++ [.opened 0 [] none (-2)]) := by
  obtain ⟨s,hrun,htask,hframe⟩ : ∃ s ∈ run step (init {}) [.connectCall],
      s.tasks 0 = .live .connectOpening ∧ s.helloFrame [] (-2) = none := by
    decide +kernel
  constructor
  · exact not_failuresLeaveNothing hrun (by simp only [step,htask]; rfl)
      fun h => (by cases h.1)
  · exact not_failuresLeaveNothing hrun (by simp only [step,htask]; rfl)
      fun h => (by simp [hframe] at h)

end Py
end MipClients
