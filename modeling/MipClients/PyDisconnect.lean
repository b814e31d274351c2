import MipClients.PyTasks

/-! What a call of `disconnect()` of the Python client has done when it ends. `_cleanup` comes first
and raises at the first task it has to cancel; the writer is touched only behind it. -/
namespace MipClients
namespace Py

open Transition
open Wire (FrameType)

def Status.background : Status → Bool
  | .live .readLoopStart | .live (.reading _) | .live .pingLoopStart | .live .pingSleep
  | .live .reconnectStart | .live .reconnectSleep | .live .reconnectOpening => true
  | _ => false

def State.holds (s : State) (i : ℕ) : Prop :=
  s.pingTask = some i ∨ s.readTask = some i ∨ s.reconnectTask = some i

/-- What `disconnect()`, called in the first state with the clock at `now`, is to have done in the
second. -/
structure Done (now : ℤ) (s t : State) : Prop where
  connected : t.connected = false
  writer : t.writer = none
  closed : ∀ c, s.writer = some c → (t.connections c).closed = true
  idle : ∀ i, (t.tasks i).background = false
  close : s.connected = true → ∃ c header, s.writer = some c ∧
    buildHeader FrameType.close.code 0 0 (s.generateMsgId now).1 = some header ∧
    (s.connections c).written ++ [header] <+: (t.connections c).written

/-- Frames are only added to a connection, none once it is closed, and it stays closed. -/
structure Grows (s t : State) : Prop where
  written : ∀ c, (s.connections c).written <+: (t.connections c).written
  closed : ∀ c, (s.connections c).closed = true →
    (t.connections c).closed = true ∧ (t.connections c).written = (s.connections c).written

namespace Grows

variable {s t u : State}

theorem of_connections (h : t.connections = s.connections) : Grows s t :=
  ⟨fun c => h ▸ List.prefix_refl _,fun c hc => by rw [h]; exact ⟨hc,rfl⟩⟩

theorem refl (s : State) : Grows s s := of_connections rfl

theorem trans (h : Grows s t) (h' : Grows t u) : Grows s u where
  written := fun c => (h.written c).trans (h'.written c)
  closed := fun c hc => by
    obtain ⟨h1,h2⟩ := h.closed c hc
    obtain ⟨h3,h4⟩ := h'.closed c h1
    exact ⟨h3,h4.trans h2⟩

end Grows

namespace State

variable (s : State)

theorem updateConnection_grows {c : ℕ} {f : Connection → Connection}
    (hwritten : (s.connections c).written <+: (f (s.connections c)).written)
    (hclosed : (s.connections c).closed = true → (f (s.connections c)).closed = true ∧
      (f (s.connections c)).written = (s.connections c).written) :
    Grows s (s.updateConnection c f) := by
  constructor
  · intro d
    by_cases hd : d = c
    · subst hd
      simpa using hwritten
    · simp [hd]
  · intro d h
    by_cases hd : d = c
    · subst hd
      simpa using hclosed h
    · simpa [hd] using h

theorem write_grows (c : ℕ) (bytes : List UInt8) : Grows s (s.write c bytes) := by
  apply s.updateConnection_grows
  · split_ifs
    · exact List.prefix_refl _
    · exact List.prefix_append _ _
  · intro h
    rw [if_pos h]
    exact ⟨h,rfl⟩

theorem closeWriter_grows (c : ℕ) : Grows s (s.closeWriter c) :=
  s.updateConnection_grows (List.prefix_refl _) fun _ => ⟨rfl,rfl⟩

theorem closeWriter_closed (c : ℕ) : ((s.closeWriter c).connections c).closed = true := by
  simp [closeWriter]

theorem sending_grows : Sending Grows :=
  ⟨Grows.refl,Grows.trans,fun _ _ => .of_connections rfl,write_grows⟩

end State

/-! While a call of `disconnect()` waits for the connection `c` to drain or to close. -/

/-- `_cleanup` is over, and if calls are `tidy`, whatever drops the writer finds its connection
closed. -/
structure Disconnecting (tidy : Prop) (d c : ℕ) (s : State) : Prop where
  auto : s.options.autoReconnect = false
  ping : s.pingTask = none
  read : s.readTask = none
  reconnect : s.reconnectTask = none
  idle : ∀ i, (s.tasks i).background = false
  writer : s.writer = some c ∨
    s.writer = none ∧ s.connected = false ∧ (tidy → (s.connections c).closed = true)
  closing : tidy → s.writer = some c → ∀ i, s.tasks i = .live .disconnectClosing →
    (s.connections c).closed = true
  caller : s.tasks d = .live .disconnectDrain ∨ s.tasks d = .live .disconnectClosing ∨
    s.writer = none
  made : d < s.nextTask

namespace Disconnecting

variable {tidy : Prop} {d c : ℕ} {s t : State}

theorem tasksReturned (h : Disconnecting tidy d c s) : s.tasksReturned = true := by
  simp [State.tasksReturned,State.returned,h.ping,h.read,h.reconnect]

theorem congr (h : Disconnecting tidy d c s)
    (hauto : t.options.autoReconnect = s.options.autoReconnect)
    (hping : t.pingTask = s.pingTask) (hread : t.readTask = s.readTask)
    (hreconnect : t.reconnectTask = s.reconnectTask) (htasks : t.tasks = s.tasks)
    (hwriter : t.writer = s.writer) (hconnected : t.connected = true → s.connected = true)
    (hclosed : (s.connections c).closed = true → (t.connections c).closed = true)
    (hnext : t.nextTask = s.nextTask) : Disconnecting tidy d c t where
  auto := hauto.trans h.auto
  ping := hping.trans h.ping
  read := hread.trans h.read
  reconnect := hreconnect.trans h.reconnect
  idle := htasks ▸ h.idle
  writer := by
    rw [hwriter]
    refine h.writer.imp_right fun ⟨h1,h2,h3⟩ => ⟨h1,?_,hclosed ∘ h3⟩
    exact Bool.eq_false_iff.mpr fun hc => by simp [hconnected hc] at h2
  closing := by
    rw [hwriter,htasks]
    exact fun htidy hw i hi => hclosed (h.closing htidy hw i hi)
  caller := by
    rw [hwriter,htasks]
    exact h.caller
  made := hnext ▸ h.made

theorem setTask (h : Disconnecting tidy d c s) {i : ℕ} {status : Status}
    (hidle : status.background = false)
    (hclosing : tidy → status = .live .disconnectClosing → s.writer = some c →
      (s.connections c).closed = true)
    (hcaller : i = d → status = .live .disconnectDrain ∨ status = .live .disconnectClosing ∨
      s.writer = none) : Disconnecting tidy d c (s.setTask i status) where
  auto := h.auto
  ping := h.ping
  read := h.read
  reconnect := h.reconnect
  idle := fun j => by
    by_cases hj : j = i
    · subst hj
      simpa using hidle
    · simpa [hj] using h.idle j
  writer := h.writer
  closing := fun htidy hw j hj => by
    by_cases hji : j = i
    · subst hji
      exact hclosing htidy (by simpa using hj) hw
    · exact h.closing htidy hw j (by simpa [hji] using hj)
  caller := by
    by_cases hi : i = d
    · subst hi
      simpa using hcaller rfl
    · simpa [Ne.symm hi] using h.caller
  made := h.made

theorem setOther (h : Disconnecting tidy d c s) {i : ℕ} {status : Status}
    (hidle : status.background = false) (hclosing : status ≠ .live .disconnectClosing)
    (hi : s.tasks i ≠ .live .disconnectDrain ∧ s.tasks i ≠ .live .disconnectClosing) :
    Disconnecting tidy d c (s.setTask i status) := by
  refine h.setTask hidle (fun _ he => absurd he hclosing) ?_
  rintro rfl
  exact .inr (.inr ((h.caller.resolve_left hi.1).resolve_left hi.2))

theorem createTask (h : Disconnecting tidy d c s) (wait : Wait)
    (hidle : (Status.live wait).background = false) (hclosing : wait ≠ .disconnectClosing) :
    Disconnecting tidy d c (s.createTask wait) := by
  have hset : Disconnecting tidy d c (s.setTask s.nextTask (.live wait)) :=
    h.setTask hidle (fun _ he => absurd (Status.live.inj he) hclosing)
      fun hd => absurd h.made (by omega)
  exact ⟨hset.auto,hset.ping,hset.read,hset.reconnect,hset.idle,hset.writer,hset.closing,
    hset.caller,Nat.lt_succ_of_lt h.made⟩

theorem sendFrame (h : Disconnecting tidy d c s) (frameType : FrameType) (payload : List UInt8)
    (flags : ℕ) (now : ℤ) : Disconnecting tidy d c (s.sendFrame frameType payload flags now).2 := by
  have hg := State.sending_grows.sendFrame s frameType payload flags now
  rcases s.sendFrame_cases frameType payload flags now with
    ⟨he,-⟩ | ⟨he,-⟩ | ⟨k,bytes,-,-,-,he⟩ <;> rw [he] at hg ⊢
  · exact h
  · exact h.congr rfl rfl rfl rfl rfl rfl id id rfl
  · exact h.congr rfl rfl rfl rfl rfl rfl id (fun hc => (hg.closed c hc).1) rfl

theorem call (h : Disconnecting tidy d c s) (now : ℤ) (k : Call) :
    Disconnecting tidy d c (s.call now k) := by
  rcases s.call_cases now k with ⟨-,he⟩ | ⟨frameType,payload,flags,-,he⟩ <;> rw [he]
  · exact h
  · exact h.sendFrame frameType payload flags now

/-- A call whose `drain` is over closes the writer, unless another call has dropped it. -/
theorem closeConnection (h : Disconnecting tidy d c s) (i : ℕ) :
    Disconnecting tidy d c (s.closeConnection i) ∧ Grows s (s.closeConnection i) := by
  rcases h.writer with hw | ⟨hw,hconn,hclosed⟩
  · have hclosing := s.closeWriter_closed c
    have hk : Disconnecting tidy d c (s.closeWriter c) :=
      h.congr rfl rfl rfl rfl rfl rfl id (fun _ => hclosing) rfl
    have he : s.closeConnection i =
        (s.closeWriter c).setTask i (.live .disconnectClosing) := by
      simp only [State.closeConnection,hw]
    rw [he]
    exact ⟨hk.setTask rfl (fun _ _ _ => hclosing) fun _ => .inr (.inl rfl),
      (s.closeWriter_grows c).trans (.of_connections rfl)⟩
  · have he : s.closeConnection i = s.setTask i .raised := by
      simp only [State.closeConnection,hw]
    rw [he]
    exact ⟨h.setTask rfl nofun fun _ => .inr (.inr hw),.of_connections rfl⟩

theorem disconnect (h : Disconnecting tidy d c s) (now : ℤ) :
    Disconnecting tidy d c (s.disconnect now) ∧ Grows s (s.disconnect now) := by
  have hforget : Disconnecting tidy d c s.stop.forgetPing.forgetRead.forgetReconnect :=
    h.congr h.auto.symm h.ping.symm h.read.symm h.reconnect.symm rfl rfl id id rfl
  rcases s.disconnect_cases now with ⟨hstuck,-⟩ | ⟨-,hw,t,rfl,he⟩ | ⟨-,-,t,u,rfl,rfl,he⟩
  · rw [h.tasksReturned] at hstuck
    cases hstuck
  · have hdown : Disconnecting tidy d c
        { s.stop.forgetPing.forgetRead.forgetReconnect with connected := false } :=
      hforget.congr rfl rfl rfl rfl rfl rfl nofun id rfl
    rw [he]
    exact ⟨(hdown.createTask .disconnectDrain rfl nofun).setTask rfl nofun
      fun _ => .inr (.inr hw),.of_connections rfl⟩
  · have hsent := (hforget.sendFrame .close [] 0 now).createTask .disconnectDrain rfl nofun
    have hg : Grows s ((s.stop.forgetPing.forgetRead.forgetReconnect.sendFrame .close [] 0
        now).2.createTask .disconnectDrain) := by
      refine Grows.trans (t := s.stop.forgetPing.forgetRead.forgetReconnect) (.of_connections rfl) ?_
      exact (State.sending_grows.sendFrame _ .close [] 0 now).trans (.of_connections rfl)
    rcases he with he | he <;> rw [he]
    · exact ⟨hsent,hg⟩
    · obtain ⟨hk,hg'⟩ := hsent.closeConnection (s.stop.forgetPing.forgetRead.forgetReconnect.sendFrame
        .close [] 0 now).2.nextTask
      exact ⟨hk,hg.trans hg'⟩

theorem handleClose (h : Disconnecting tidy d c s) {i : ℕ}
    (hi : s.tasks i = .live .handleCloseStart) :
    Disconnecting tidy d c (s.handleClose i) ∧ Grows s (s.handleClose i) := by
  have hforget : Disconnecting tidy d c
      { s with connected := false }.forgetPing.forgetRead.forgetReconnect :=
    h.congr rfl h.ping.symm h.read.symm h.reconnect.symm rfl rfl nofun id rfl
  have hrecord : Disconnecting tidy d c
      ({ s with connected := false }.forgetPing.forgetRead.forgetReconnect.record .disconnect) :=
    hforget.congr rfl rfl rfl rfl rfl rfl id id rfl
  have hset : ∀ {t : State}, Disconnecting tidy d c t → t.tasks = s.tasks →
      Disconnecting tidy d c (t.setTask i .returned) :=
    fun ht he => ht.setOther rfl nofun (by rw [he,hi]; exact ⟨nofun,nofun⟩)
  rw [s.handleClose_returned i h.tasksReturned]
  dsimp only
  cases s.connected with
  | true =>
    rw [if_pos rfl,if_neg (by simp [hrecord.auto])]
    exact ⟨hset hrecord rfl,.of_connections rfl⟩
  | false =>
    rw [if_neg Bool.false_ne_true,if_neg (by simp [hforget.auto])]
    exact ⟨hset hforget rfl,.of_connections rfl⟩

theorem endDisconnect (h : Disconnecting tidy d c s) {i : ℕ}
    (hi : s.tasks i = .live .disconnectClosing) :
    Disconnecting tidy d c (s.endDisconnect i) ∧ Grows s (s.endDisconnect i) := by
  have hclosed (htidy : tidy) : (s.connections c).closed = true :=
    h.writer.elim (fun hw => h.closing htidy hw i hi) fun hw => hw.2.2 htidy
  have hdown : Disconnecting tidy d c
      { s with writer := none, reader := none, connected := false } :=
    ⟨h.auto,h.ping,h.read,h.reconnect,h.idle,.inr ⟨rfl,rfl,hclosed⟩,nofun,.inr (.inr rfl),h.made⟩
  exact ⟨hdown.setTask rfl nofun fun _ => .inr (.inr rfl),.of_connections rfl⟩

end Disconnecting

def Event.opens : Event → Bool
  | .opened .. => true
  | _ => false

theorem disconnecting_step {tidy : Prop} {d c : ℕ} {s t : State} {e : Event}
    (h : Disconnecting tidy d c s) (he : e.opens = false) (hs : step s e = some t) :
    Disconnecting tidy d c t ∧ Grows s t := by
  -- no ping, read or reconnect task is left to step
  have hidle : ∀ {i : ℕ} {wait : Wait}, s.tasks i = .live wait →
      (Status.live wait).background = false := fun hi => hi ▸ h.idle _
  cases step_move hs with
  | opened => cases he
  | alreadyConnected => exact ⟨h,Grows.refl s⟩
  | connectCall =>
    have hr : Disconnecting tidy d c { s with running := true } :=
      h.congr rfl rfl rfl rfl rfl rfl id id rfl
    exact ⟨hr.createTask .connectOpening rfl (by simp),.of_connections rfl⟩
  | disconnectCall now => exact h.disconnect now
  | call k now => exact ⟨h.call now k,State.sending_grows.call s now k⟩
  | handleCloseStart i hi => exact h.handleClose hi
  | openFailed i wait message hi hwait =>
    rcases hwait with rfl | rfl
    · cases hidle hi
    · have hr : Disconnecting tidy d c (s.emitError { message := message }) :=
        h.congr rfl rfl rfl rfl rfl rfl id id rfl
      have hi' : (s.emitError { message := message }).tasks i = .live .connectOpening := hi
      exact ⟨hr.setOther rfl (by simp) (by rw [hi']; simp),.of_connections rfl⟩
  | drained i => exact h.closeConnection i
  | closed i hi => exact h.endDisconnect hi
  | readLoopStart i hi | pingLoopStart i _ hi | reconnectStart i hi | data i _ _ _ hi
  | eof i _ hi | raises i _ _ hi | pinged i _ _ hi | pingOver i _ hi | reconnectOver i _ hi
  | reconnectOpening i _ hi => cases hidle hi

/-! The end of the call. -/

theorem run_ended {s t : State} {d : ℕ} {events : List Event} (hend : s.isLive d = false)
    (hlive : ∀ p ∈ steps step s events, p.1.isLive d = true) (hrun : run step s events = some t) :
    t = s := by
  cases events with
  | nil => exact (Option.some.inj hrun).symm
  | cons e events =>
    obtain ⟨u,hu,-⟩ := Option.bind_eq_some_iff.mp hrun
    rw [steps_cons hu,List.forall_mem_cons] at hlive
    simp [hend] at hlive

section Call

variable {s : State} (now : ℤ)

/-- `_cleanup` raises: only what was so before is as it is to be. -/
theorem done_stuck (hmade : ∀ i, (s.tasks i).background = true → i < s.nextTask)
    (h : s.tasksReturned = false) :
    (s.disconnect now).isLive s.nextTask = false ∧ (Done now s (s.disconnect now) ↔
      s.connected = false ∧ s.writer = none ∧
        ∀ i, (s.tasks i).background = true → s.stuckOn = some i) := by
  obtain ⟨ping,read,i,status,hi,hstatus,-,-,he⟩ := s.disconnect_stuck now h
  have hnot : status.background = false := by rcases hstatus with rfl | rfl <;> rfl
  have htasks : (s.disconnect now).tasks =
      Function.update (Function.update (Function.update s.tasks i status) s.nextTask
        (.live .disconnectDrain)) s.nextTask status := by
    rw [he]
    rfl
  constructor
  · rw [State.isLive,htasks,Function.update_self]
    rcases hstatus with rfl | rfl <;> rfl
  · have hconn : (s.disconnect now).connected = s.connected := by rw [he]; rfl
    have hwriter : (s.disconnect now).writer = s.writer := by rw [he]; rfl
    have hidle : ∀ j, ((s.disconnect now).tasks j).background = true ↔
        j ≠ i ∧ j ≠ s.nextTask ∧ (s.tasks j).background = true := by
      intro j
      rw [htasks]
      by_cases hnext : j = s.nextTask
      · simp [hnext,hnot]
      · by_cases hji : j = i
        · subst hji
          simp [hnext,hnot]
        · simp [hnext,hji]
    constructor
    · intro hd
      refine ⟨hconn ▸ hd.connected,hwriter ▸ hd.writer,fun j hj => ?_⟩
      by_contra hne
      have hji : j ≠ i := fun h => hne (by rw [hi,h])
      have hlive := (hidle j).mpr ⟨hji,Nat.ne_of_lt (hmade j hj),hj⟩
      simp [hd.idle j] at hlive
    · rintro ⟨hc,hw,hall⟩
      refine ⟨hconn.trans hc,hwriter.trans hw,by simp [hw],fun j => ?_,by simp [hc]⟩
      refine Bool.eq_false_iff.mpr fun hj => ?_
      obtain ⟨hji,-,hlive⟩ := (hidle j).mp hj
      exact hji (Option.some.inj ((hall j hlive).symm.trans hi))

theorem done_without_writer (hidle : ∀ i, (s.tasks i).background = false)
    (h : s.tasksReturned = true) (hw : s.writer = none) :
    (s.disconnect now).isLive s.nextTask = false ∧
      (Done now s (s.disconnect now) ↔ s.connected = false) := by
  rcases s.disconnect_cases now with ⟨hno,-⟩ | ⟨-,-,t,rfl,he⟩ | ⟨-,hsome,-⟩
  · rw [h] at hno
    cases hno
  · have htasks : (s.disconnect now).tasks =
        Function.update (Function.update s.tasks s.nextTask (.live .disconnectDrain)) s.nextTask
          .returned := by
      rw [he]
      rfl
    constructor
    · rw [State.isLive,htasks,Function.update_self]
    · constructor
      · intro hd
        refine Bool.eq_false_iff.mpr fun hc => ?_
        obtain ⟨c,-,hc,-⟩ := hd.close hc
        rw [hw] at hc
        cases hc
      · intro hc
        refine ⟨by rw [he]; rfl,by rw [he]; exact hw,by simp [hw],fun j => ?_,by simp [hc]⟩
        rw [htasks]
        by_cases hj : j = s.nextTask
        · subst hj
          simp [Status.background]
        · simpa [hj] using hidle j
  · rw [hw] at hsome
    cases hsome

variable {c : ℕ}

/-- `disconnect()` up to `drain`. -/
def State.afterClose (s : State) : State :=
  (s.stop.forgetPing.forgetRead.forgetReconnect.sendFrame .close [] 0 now).2

theorem afterClose_grows : Grows s (s.afterClose now) :=
  Grows.trans (t := s.stop.forgetPing.forgetRead.forgetReconnect) (.of_connections rfl)
    (State.sending_grows.sendFrame _ .close [] 0 now)

/-- The frame is written when the client is connected, its writer open, and the header can be
packed. -/
theorem afterClose_written (hw : s.writer = some c) (hconn : s.connected = true)
    (hopen : (s.connections c).closed = false) {header : List UInt8}
    (hb : buildHeader FrameType.close.code 0 0 (s.generateMsgId now).1 = some header) :
    ((s.afterClose now).connections c).written = (s.connections c).written ++ [header] := by
  have hbytes : frameBytes FrameType.close.code [] 0 (s.generateMsgId now).1 = some header := by
    simp [frameBytes,hb]
  rcases s.stop.forgetPing.forgetRead.forgetReconnect.sendFrame_cases .close [] 0 now with
    ⟨-,hno⟩ | ⟨-,hno⟩ | ⟨k,bytes,hk,-,hbytes',he⟩
  · rcases hno with hno | hno
    · cases hw.symm.trans hno
    · cases hconn.symm.trans hno
  · cases hbytes.symm.trans hno
  · obtain rfl : c = k := Option.some.inj (hw.symm.trans hk)
    obtain rfl : header = bytes := Option.some.inj (hbytes.symm.trans hbytes')
    have hopen' : (s.stop.forgetPing.forgetRead.forgetReconnect.connections c).closed = false :=
      hopen
    rw [State.afterClose,he]
    simp [State.write,State.generateMsgId,hopen']
    rfl

theorem disconnecting_afterClose {tidy : Prop} (hw : s.writer = some c)
    (hidle : ∀ i, (s.tasks i).background = false)
    (hclosing : tidy → ∀ i, s.tasks i = .live .disconnectClosing →
      (s.connections c).closed = true) :
    Disconnecting tidy s.nextTask c ((s.afterClose now).createTask .disconnectDrain) := by
  have hg := afterClose_grows now (s := s)
  have hsame : (s.afterClose now).options.autoReconnect = false ∧
      (s.afterClose now).pingTask = none ∧ (s.afterClose now).readTask = none ∧
      (s.afterClose now).reconnectTask = none ∧ (s.afterClose now).tasks = s.tasks ∧
      (s.afterClose now).nextTask = s.nextTask ∧ (s.afterClose now).writer = s.writer := by
    unfold State.afterClose
    rcases s.stop.forgetPing.forgetRead.forgetReconnect.sendFrame_cases .close [] 0 now with
      ⟨he,-⟩ | ⟨he,-⟩ | ⟨k,bytes,-,-,-,he⟩ <;> rw [he] <;> exact ⟨rfl,rfl,rfl,rfl,rfl,rfl,rfl⟩
  obtain ⟨hauto,hping,hread,hreconnect,htasks,hnext,hwriter⟩ := hsame
  generalize s.afterClose now = u at hg hauto hping hread hreconnect htasks hnext hwriter ⊢
  have hnew : ∀ i, (u.createTask .disconnectDrain).tasks i =
      if i = s.nextTask then .live .disconnectDrain else s.tasks i := by
    intro i
    simp [State.createTask,State.setTask,Function.update_apply,hnext,htasks]
  refine ⟨hauto,hping,hread,hreconnect,fun i => ?_,.inl (hwriter.trans hw),fun htidy _ i hi => ?_,
    .inl (by simp [hnew]),hnext ▸ Nat.lt_succ_self _⟩
  · rw [hnew]
    split_ifs
    · rfl
    · exact hidle i
  · rw [hnew] at hi
    split_ifs at hi
    · cases hi
    · exact (hg.closed c (hclosing htidy i hi)).1

theorem disconnecting_call {tidy : Prop} (h : s.tasksReturned = true) (hw : s.writer = some c)
    (hidle : ∀ i, (s.tasks i).background = false)
    (hclosing : tidy → ∀ i, s.tasks i = .live .disconnectClosing →
      (s.connections c).closed = true) :
    Disconnecting tidy s.nextTask c (s.disconnect now) ∧
      Grows (s.afterClose now) (s.disconnect now) := by
  have hwait := disconnecting_afterClose now hw hidle hclosing
  have hg : Grows (s.afterClose now) ((s.afterClose now).createTask .disconnectDrain) :=
    .of_connections rfl
  rcases s.disconnect_cases now with ⟨hno,-⟩ | ⟨-,hno,-⟩ | ⟨-,-,t,u,rfl,rfl,he⟩
  · rw [h] at hno
    cases hno
  · rw [hw] at hno
    cases hno
  · rcases he with he | he <;> rw [he]
    · exact ⟨hwait,hg⟩
    · obtain ⟨hk,hg'⟩ := hwait.closeConnection (s.afterClose now).nextTask
      exact ⟨hk,hg.trans hg'⟩

theorem done_waiting (h : s.tasksReturned = true) (hw : s.writer = some c)
    (hidle : ∀ i, (s.tasks i).background = false)
    (hclosing : ∀ i, s.tasks i = .live .disconnectClosing → (s.connections c).closed = true)
    {events : List Event} (hopens : ∀ p ∈ steps step (s.disconnect now) events, p.2.opens = false)
    {t : State} (hrun : run step (s.disconnect now) events = some t)
    (hend : t.isLive s.nextTask = false) :
    Done now s t ↔ (s.connected = true → (s.connections c).closed = false ∧
      (buildHeader FrameType.close.code 0 0 (s.generateMsgId now).1).isSome = true) := by
  obtain ⟨hwait,hcall⟩ := disconnecting_call now h hw hidle fun _ : True => hclosing
  obtain ⟨ht,hg⟩ := invariant_of_steps (I := fun v => Disconnecting True s.nextTask c v ∧
      Grows (s.disconnect now) v) (C := fun _ e => e.opens = false)
    (fun v e v' hv he hs => by
      obtain ⟨hv',hg⟩ := disconnecting_step hv.1 he hs
      exact ⟨hv',hv.2.trans hg⟩)
    ⟨hwait,Grows.refl _⟩ hopens t (run_mem_states hrun)
  have hnone : t.writer = none := by
    rcases ht.caller with hd | hd | hd
    · simp [State.isLive,hd] at hend
    · simp [State.isLive,hd] at hend
    · exact hd
  obtain ⟨hconn,hclosed⟩ : t.connected = false ∧ (t.connections c).closed = true := by
    rcases ht.writer with hd | ⟨-,hd⟩
    · rw [hnone] at hd
      cases hd
    · exact ⟨hd.1,hd.2 trivial⟩
  constructor
  · intro hd hc
    obtain ⟨k,header,hk,hb,hp⟩ := hd.close hc
    obtain rfl : c = k := Option.some.inj (hw.symm.trans hk)
    refine ⟨Bool.eq_false_iff.mpr fun hcl => ?_,by simp [hb]⟩
    -- a closed connection takes no more frames
    obtain ⟨-,hsame⟩ := (((afterClose_grows now).trans hcall).trans hg).closed c hcl
    have hlen := hp.length_le
    rw [hsame,List.length_append,List.length_singleton] at hlen
    omega
  · intro hcond
    refine ⟨hconn,hnone,fun k hk => ?_,ht.idle,fun hc => ?_⟩
    · obtain rfl : c = k := Option.some.inj (hw.symm.trans hk)
      exact hclosed
    · obtain ⟨hopen,hsome⟩ := hcond hc
      obtain ⟨header,hb⟩ := Option.isSome_iff_exists.mp hsome
      refine ⟨c,header,hw,hb,?_⟩
      rw [← afterClose_written now hw hc hopen hb]
      exact (hcall.trans hg).written c

end Call

/-- The ping, read and reconnect tasks that are live are the ones in the fields, and a call of
`disconnect()` that is about to drop the writer has closed its connection. -/
structure Orderly (s : State) : Prop where
  held : ∀ i, (s.tasks i).background = true → s.holds i
  closing : ∀ c, s.writer = some c → ∀ i, s.tasks i = .live .disconnectClosing →
    (s.connections c).closed = true

theorem idle_of_held {s : State} (h : ∀ i, (s.tasks i).background = true → s.holds i)
    (hret : s.tasksReturned = true) (i : ℕ) : (s.tasks i).background = false := by
  simp only [State.tasksReturned,Bool.and_eq_true] at hret
  refine Bool.eq_false_iff.mpr fun hi => ?_
  have hdone : ∀ task, s.returned task = true → task ≠ some i := by
    rintro task htask rfl
    have hr : s.tasks i = .returned := by simpa [State.returned] using htask
    rw [hr] at hi
    cases hi
  rcases h i hi with hp | hr | hc
  · exact hdone _ hret.1.1 hp
  · exact hdone _ hret.1.2 hr
  · exact hdone _ hret.2 hc

/-- From any reachable state whose tasks are in order, and with no connection opening meanwhile: the
call has done its work when it ends exactly when its ping, read and reconnect tasks are absent or
have returned, and, if the client is connected, its writer is open and CLOSE can be packed; or else
when there is nothing to do but to cancel the one task that `_cleanup` raises at. -/
theorem disconnect_done_iff (options : Options) {before : List Event} {s : State}
    (hs : s ∈ states step (init options) before) (horderly : Orderly s) (now : ℤ)
    {events : List Event} (hopens : ∀ p ∈ steps step (s.disconnect now) events, p.2.opens = false)
    (hlive : ∀ p ∈ steps step (s.disconnect now) events, p.1.isLive s.nextTask = true)
    {t : State} (hrun : run step (s.disconnect now) events = some t)
    (hend : t.isLive s.nextTask = false) :
    Done now s t ↔
      (s.tasksReturned = true ∧ (s.connected = true → ∃ c, s.writer = some c ∧
        (s.connections c).closed = false ∧
        (buildHeader FrameType.close.code 0 0 (s.generateMsgId now).1).isSome = true)) ∨
      (s.tasksReturned = false ∧ s.connected = false ∧ s.writer = none ∧
        ∀ i, (s.tasks i).background = true → s.stuckOn = some i) := by
  have hmade : ∀ i, (s.tasks i).background = true → i < s.nextTask := by
    have hm := tasksMade options before s hs
    intro i hi
    rcases horderly.held i hi with h | h | h
    · exact hm.ping i h
    · exact hm.read i h
    · exact hm.reconnect i h
  cases hret : s.tasksReturned with
  | false =>
    obtain ⟨hdead,hiff⟩ := done_stuck now hmade hret
    rw [run_ended hdead hlive hrun,hiff]
    simp
  | true =>
    have hidle := idle_of_held horderly.held hret
    cases hw : s.writer with
    | none =>
      obtain ⟨hdead,hiff⟩ := done_without_writer now hidle hret hw
      rw [run_ended hdead hlive hrun,hiff]
      simp
    | some c =>
      rw [done_waiting now hret hw hidle (horderly.closing c hw) hopens hrun hend]
      simp

def endedRun : List Event := [.connectCall,.opened 0 [] none 0,.start 1,.read 1 .eof]

theorem orderly_endedRun : ∀ s ∈ run step (init {}) endedRun, Orderly s := by
  have hfew : ∀ s ∈ run step (init {}) endedRun, (s.tasks 0).background = false ∧
      (s.tasks 1).background = false ∧ s.tasks 0 ≠ .live .disconnectClosing ∧
      s.tasks 1 ≠ .live .disconnectClosing := by
    decide +kernel
  have hrest : ∀ s ∈ run step (init {}) endedRun, ∀ i, s.tasks (i + 2) = .cancelled := by
    intro s hs i
    cases hs
    rfl
  intro s hs
  obtain ⟨h0,h1,hn0,hn1⟩ := hfew s hs
  constructor
  · rintro (_ | _ | i) hi
    · rw [h0] at hi
      cases hi
    · rw [h1] at hi
      cases hi
    · rw [hrest s hs i] at hi
      cases hi
  · rintro c - (_ | _ | i) hi
    · exact absurd hi hn0
    · exact absurd hi hn1
    · rw [hrest s hs i] at hi
      cases hi

/-- The call sends CLOSE, drains, closes the writer and drops it. -/
theorem disconnect_done_ended : ∃ s ∈ run step (init {}) endedRun,
    ∃ t ∈ run step (s.disconnect 0) [.drained 2,.closed 2], Done 0 s t := by
  have hrun : ∃ s ∈ run step (init {}) endedRun, s.tasksReturned = true ∧ s.nextTask = 2 ∧
      (∀ p ∈ steps step (s.disconnect 0) [.drained 2,.closed 2], p.2.opens = false) ∧
      (∀ p ∈ steps step (s.disconnect 0) [.drained 2,.closed 2], p.1.isLive 2 = true) ∧
      (s.writer = some 0 ∧ (s.connections 0).closed = false ∧
        (buildHeader FrameType.close.code 0 0 (s.generateMsgId 0).1).isSome = true) ∧
      ∃ t ∈ run step (s.disconnect 0) [.drained 2,.closed 2], t.isLive 2 = false := by
    decide +kernel
  obtain ⟨s,hs,hret,hnext,hopens,hlive,hclose,t,ht,hend⟩ := hrun
  have hiff := disconnect_done_iff {} (run_mem_states hs) (orderly_endedRun s hs) 0 hopens
    (by rw [hnext]; exact hlive) ht (by rw [hnext]; exact hend)
  exact ⟨s,hs,t,ht,hiff.mpr (.inl ⟨hret,fun _ => ⟨0,hclose⟩⟩)⟩

/-- A connected client: `_cleanup` cancels the read loop and raises, and the call ends with the
client still connected. -/
theorem disconnect_not_done : ¬∀ (options : Options) (before : List Event),
    ∀ s ∈ states step (init options) before, ∀ (now : ℤ) (events : List Event),
    (∀ p ∈ steps step (s.disconnect now) events, p.1.isLive s.nextTask = true) →
    ∀ t ∈ run step (s.disconnect now) events, t.isLive s.nextTask = false → Done now s t := by
  intro h
  have hrun : ∃ s ∈ run step (init {}) [.connectCall,.opened 0 [] none 0,.start 1],
      ((s.disconnect 0).isLive s.nextTask = false ∧ (s.disconnect 0).connected = true) := by
    decide +kernel
  obtain ⟨s,hs,hend,hconn⟩ := hrun
  have hd := h {} _ s (run_mem_states hs) 0 [] (by simp [steps]) (s.disconnect 0) rfl hend
  rw [hd.connected] at hconn
  cases hconn

end Py
end MipClients
