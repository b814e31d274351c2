import MipClients.PyTasks

/-! Losing a connection in the Python client. Three paths lead out of a connection: the end of the
stream, an exception in the read loop, and a CLOSE frame, whose handler runs in a task of its own.
Only the last two handle the loss, and only when `_cleanup` has no task to cancel. -/
namespace MipClients
namespace Py

open StreamDecoder
open Transition
open Wire (Emission FrameType)

def Entry.rescheduled : Entry → Bool
  | .scheduled _ | .maxReached => true
  | _ => false

def State.disconnects (s : State) : ℕ := s.log.count .disconnect

def State.reschedulings (s : State) : ℕ := s.log.countP Entry.rescheduled

/-- Between the two states the loss of the connection has been handled. -/
structure Handled (s t : State) : Prop where
  connected : t.connected = false
  disconnects : t.disconnects = s.disconnects + 1
  rescheduled : s.options.autoReconnect = true → s.reschedulings < t.reschedulings

/-- The step neither opens a connection nor belongs to a call of `disconnect()`. -/
def Event.staysWithLoss : Event → Bool
  | .opened .. | .disconnectCall _ | .drained _ | .closed _ => false
  | _ => true

namespace State

variable (s : State)

def runsHandler : Event → Bool
  | .start i => s.tasks i = .live .handleCloseStart
  | .read _ (.raises _) => true
  | .read _ (.data data _) => (StreamDecoder.run framing.decoder (s.buffer ++ data)).raised
  | _ => false

/-- The peer ends the connection, or the handler of its CLOSE frame runs. -/
def isLoss : Event → Bool
  | .read _ .eof => true
  | e => s.runsHandler e

def lossOver : Bool := !s.readTask.any s.isLive && !s.closeTask.any s.isLive

end State

/-! What the other steps leave alone. -/

/-- The client is as connected as before, and has told nobody of a loss. -/
structure Quiet (s t : State) : Prop where
  connected : t.connected = s.connected
  running : s.running = true → t.running = true
  options : t.options = s.options
  disconnects : t.disconnects = s.disconnects
  reschedulings : s.reschedulings ≤ t.reschedulings

namespace Quiet

variable {s t u : State}

theorem refl (s : State) : Quiet s s := ⟨rfl,id,rfl,rfl,Nat.le_refl _⟩

theorem trans (h : Quiet s t) (h' : Quiet t u) : Quiet s u where
  connected := h'.connected.trans h.connected
  running := h'.running ∘ h.running
  options := h'.options.trans h.options
  disconnects := h'.disconnects.trans h.disconnects
  reschedulings := h.reschedulings.trans h'.reschedulings

theorem foldl {α : Type*} {f : State → α → State} (hf : ∀ s a, Quiet s (f s a)) (l : List α)
    (s : State) : Quiet s (l.foldl f s) := foldl_related refl trans hf l s

end Quiet

namespace State

variable (s : State)

theorem record_quiet {e : Entry} (h : e ≠ .disconnect) : Quiet s (s.record e) where
  connected := rfl
  running := id
  options := rfl
  disconnects := List.count_cons_of_ne h
  reschedulings := (List.sublist_cons_self e s.log).countP_le

theorem emitError_quiet (error : MIPError) : Quiet s (s.emitError error) :=
  s.record_quiet (by nofun)

theorem closeWriter_quiet (c : ℕ) : Quiet s (s.closeWriter c) := ⟨rfl,id,rfl,rfl,Nat.le_refl _⟩

theorem setTask_quiet (t : ℕ) (status : Status) : Quiet s (s.setTask t status) :=
  ⟨rfl,id,rfl,rfl,Nat.le_refl _⟩

theorem sending_quiet : Sending Quiet where
  refl := Quiet.refl
  trans := Quiet.trans
  generateMsgId _ _ := ⟨rfl,id,rfl,rfl,Nat.le_refl _⟩
  write _ _ _ := ⟨rfl,id,rfl,rfl,Nat.le_refl _⟩

theorem react_quiet (e : Emission FrameHeader MIPError) : Quiet s (s.react e) := by
  have hr : Quiet s (s.record (.received e)) := s.record_quiet (by nofun)
  unfold react
  cases e with
  | close => exact hr.trans ⟨rfl,id,rfl,rfl,Nat.le_refl _⟩
  | error error =>
    dsimp only
    split
    · exact hr.trans (closeWriter_quiet _ _)
    · exact hr
  | _ => exact hr

theorem readNext_quiet (t : ℕ) : Quiet s (s.readNext t) := by
  unfold readNext
  split <;> exact s.setTask_quiet t _

theorem scheduleReconnect_quiet : Quiet s s.scheduleReconnect := by
  have ha : Quiet s { s with reconnectAttempts := s.reconnectAttempts + 1 } :=
    ⟨rfl,id,rfl,rfl,Nat.le_refl _⟩
  unfold scheduleReconnect
  split_ifs
  · exact Quiet.refl s
  · exact (s.record_quiet (by nofun)).trans (emitError_quiet _ _)
  · refine Quiet.trans ?_ (record_quiet _ (by nofun))
    exact (ha.trans (record_quiet _ (by nofun))).trans ⟨rfl,id,rfl,rfl,Nat.le_refl _⟩

theorem endConnect_quiet (t : ℕ) (wait : Wait) (raised : Bool) :
    Quiet s (s.endConnect t wait raised) := by
  rcases s.endConnect_cases t wait raised with ⟨status,-,he⟩ | he <;> rw [he]
  · exact s.setTask_quiet t _
  · exact s.scheduleReconnect_quiet.trans (setTask_quiet _ _ _)

/-! What the handler does. -/

theorem scheduleReconnect_reschedulings (h : s.reconnectTask = none) :
    s.scheduleReconnect.reschedulings = s.reschedulings + 1 := by
  unfold scheduleReconnect
  rw [h]
  split_ifs with hlive hmax
  · cases hlive
  · exact (List.countP_cons_of_neg (by nofun)).trans (List.countP_cons_of_pos rfl)
  · exact (List.countP_cons_of_pos rfl).trans
      (congrArg (· + 1) (List.countP_cons_of_neg (by nofun)))

/-- `_handle_close` reports the loss and reconnects exactly when all three tasks have returned. -/
theorem handleClose_returned_handled (runner : ℕ) (hc : s.connected = true)
    (hrun : s.running = true) (h : s.tasksReturned = true) :
    Handled s (s.handleClose runner) := by
  rw [s.handleClose_returned runner h,hc]
  let t := { s with connected := false }.forgetPing.forgetRead.forgetReconnect.record .disconnect
  have ht : t.disconnects = s.disconnects + 1 := List.count_cons_self
  have hr : t.reschedulings = s.reschedulings := List.countP_cons_of_neg (by nofun)
  change Handled s (setTask (if t.options.autoReconnect && t.running then t.scheduleReconnect
    else t) runner .returned)
  split_ifs with hauto
  · have hq := t.scheduleReconnect_quiet
    have hs := t.scheduleReconnect_reschedulings rfl
    refine ⟨hq.connected,hq.disconnects.trans ht,fun _ => ?_⟩
    change s.reschedulings < t.scheduleReconnect.reschedulings
    omega
  · have hfalse : s.options.autoReconnect = false := by
      change ¬(s.options.autoReconnect && s.running) = true at hauto
      simpa [hrun] using hauto
    exact ⟨rfl,ht,fun h => by rw [hfalse] at h; cases h⟩

/-- Once the client is not connected, the handler has nothing to report; nor has it when `_cleanup`
raises. -/
theorem handleClose_not_reported (runner : ℕ)
    (h : s.connected = false ∨ s.tasksReturned = false) :
    (s.handleClose runner).connected = false ∧
    (s.handleClose runner).disconnects = s.disconnects ∧
    s.reschedulings ≤ (s.handleClose runner).reschedulings := by
  cases hret : s.tasksReturned with
  | false =>
    obtain ⟨ping,read,tasks,he,-,-⟩ := s.handleClose_not_returned runner hret
    rw [he]
    exact ⟨rfl,rfl,Nat.le_refl _⟩
  | true =>
    have hc : s.connected = false := h.resolve_right (by simp [hret])
    rw [s.handleClose_returned runner hret,hc]
    let t := { s with connected := false }.forgetPing.forgetRead.forgetReconnect
    change _ ∧ _ ∧ t.reschedulings ≤ _
    have hq : Quiet t (if t.options.autoReconnect && t.running then t.scheduleReconnect
        else t) := by
      split_ifs
      · exact t.scheduleReconnect_quiet
      · exact Quiet.refl t
    exact ⟨hq.connected,hq.disconnects,hq.reschedulings⟩

end State

/-! The steps. -/

theorem Keeps.tasksReturned {s t : State} (h : Keeps s t) (hs : TasksMade s) :
    t.tasksReturned = s.tasksReturned := by
  have hsame : ∀ task : Option ℕ, (∀ i, task = some i → i < s.nextTask) →
      t.returned task = s.returned task := by
    intro task hmade
    cases task with
    | none => rfl
    | some i =>
      have hi := h.tasks i (hmade i rfl)
      simp only [State.returned,Option.all_some,hi]
  simp only [State.tasksReturned,h.pingTask,h.readTask,h.reconnectTask,hsame _ hs.ping,
    hsame _ hs.read,hsame _ hs.reconnect]

/-- The state in which a step that runs the handler comes to it. -/
def State.beforeHandler (s : State) : Event → State
  | .read _ (.raises message) => if s.connected then s.emitError { message := message } else s
  | .read _ (.data data message) =>
    let r := StreamDecoder.run framing.decoder (s.buffer ++ data)
    let u := { r.out.foldl State.react s with buffer := r.buffer }
    if u.connected then u.emitError { message := message } else u
  | _ => s

def Event.runner : Event → ℕ
  | .start i | .read i _ => i
  | _ => 0

theorem step_runsHandler_eq {s : State} {e : Event} {t : State} (h : step s e = some t)
    (hr : s.runsHandler e = true) : t = (s.beforeHandler e).handleClose e.runner := by
  cases step_move h with
  | handleCloseStart | raises => rfl
  | data i c data message =>
    have hraised : (StreamDecoder.run framing.decoder (s.buffer ++ data)).raised = true := hr
    simp only [State.handleData,hraised,if_true]
    rfl
  | readLoopStart i hi | pingLoopStart i _ hi | reconnectStart i hi =>
    simp [State.runsHandler,hi] at hr
  | _ => cases hr

theorem beforeHandler_related {R : State → State → Prop} (hrefl : ∀ s, R s s)
    (htrans : ∀ {s t u}, R s t → R t u → R s u) (hreact : ∀ s e, R s (s.react e))
    (hbuffer : ∀ (s : State) b, R s { s with buffer := b })
    (herror : ∀ s error, R s (s.emitError error)) (s : State) (e : Event) :
    R s (s.beforeHandler e) := by
  have hfold := foldl_related hrefl htrans hreact
  unfold State.beforeHandler
  split
  · split_ifs
    · exact herror s _
    · exact hrefl s
  · dsimp only
    split_ifs
    · exact htrans (htrans (hfold _ s) (hbuffer _ _)) (herror _ _)
    · exact htrans (hfold _ s) (hbuffer _ _)
  · exact hrefl s

theorem step_runsHandler {s : State} {e : Event} {t : State} (h : step s e = some t)
    (hr : s.runsHandler e = true) :
    ∃ u runner, Keeps s u ∧ Quiet s u ∧ t = u.handleClose runner := by
  have hk : Keeps s (s.beforeHandler e) :=
    beforeHandler_related Keeps.refl Keeps.trans State.react_keeps
      (fun _ _ => ⟨rfl,rfl,rfl,rfl,rfl,rfl,Nat.le_refl _,fun _ _ => rfl⟩)
      (fun s error => s.record_keeps (.error error)) s e
  have hq : Quiet s (s.beforeHandler e) :=
    beforeHandler_related Quiet.refl Quiet.trans State.react_quiet
      (fun _ _ => ⟨rfl,id,rfl,rfl,Nat.le_refl _⟩) State.emitError_quiet s e
  exact ⟨_,_,hk,hq,step_runsHandler_eq h hr⟩

theorem step_quiet {s : State} {e : Event} {t : State} (h : step s e = some t)
    (hstay : e.staysWithLoss = true) (hr : s.runsHandler e = false) : Quiet s t := by
  cases step_move h with
  | alreadyConnected => exact Quiet.refl s
  | disconnectCall | opened | drained | closed => cases hstay
  | call c now => exact State.sending_quiet.call s now c
  | readLoopStart i => exact s.readNext_quiet i
  | pingLoopStart i | reconnectStart i | eof i | pingOver i | reconnectOver i =>
    exact s.setTask_quiet i _
  | handleCloseStart i hi => simp [State.runsHandler,hi] at hr
  | openFailed i wait message =>
    exact (s.emitError_quiet _).trans (State.endConnect_quiet _ i wait true)
  | data i c data message =>
    have hraised : (StreamDecoder.run framing.decoder (s.buffer ++ data)).raised = false := hr
    have hq := Quiet.foldl State.react_quiet
      (StreamDecoder.run framing.decoder (s.buffer ++ data)).out s
    simp only [State.handleData,hraised,Bool.false_eq_true,if_false]
    refine Quiet.trans ?_ (State.readNext_quiet _ i)
    exact ⟨hq.connected,hq.running,hq.options,hq.disconnects,hq.reschedulings⟩
  | raises => cases hr
  | pinged i now =>
    have hq : Quiet s (s.ping now).2 := State.sending_quiet.sendFrame s .ping [] 0 now
    exact hq.trans (State.setTask_quiet _ i _)
  | connectCall | reconnectOpening => exact ⟨rfl,fun _ => rfl,rfl,rfl,Nat.le_refl _⟩

/-! The runs. -/

theorem not_reported_again {s : State} (hc : s.connected = false) {events : List Event}
    (hstay : ∀ p ∈ steps step s events, p.2.staysWithLoss = true) {t : State}
    (hrun : run step s events = some t) :
    t.connected = false ∧ t.disconnects = s.disconnects ∧ s.reschedulings ≤ t.reschedulings := by
  refine invariant_of_steps (I := fun u => u.connected = false ∧ u.disconnects = s.disconnects ∧
    s.reschedulings ≤ u.reschedulings) (C := fun _ e => e.staysWithLoss = true) ?_
    ⟨hc,rfl,Nat.le_refl _⟩ hstay t (run_mem_states hrun)
  intro u e v hu he hv
  cases hr : u.runsHandler e with
  | false =>
    have hq := step_quiet hv he hr
    exact ⟨hq.connected.trans hu.1,hq.disconnects.trans hu.2.1,hu.2.2.trans hq.reschedulings⟩
  | true =>
    obtain ⟨w,runner,-,hq,rfl⟩ := step_runsHandler hv hr
    obtain ⟨h1,h2,h3⟩ := w.handleClose_not_reported runner (.inl (hq.connected.trans hu.1))
    exact ⟨h1,h2.trans (hq.disconnects.trans hu.2.1),
      (hu.2.2.trans hq.reschedulings).trans h3⟩

/-- The first step that runs the handler finds the three tasks absent or returned. -/
def firstHandlerClean (s : State) (events : List Event) : Bool :=
  ((steps step s events).find? fun p => p.1.runsHandler p.2).any fun p => p.1.tasksReturned

theorem loss_decided {s : State} (hmade : TasksMade s) (hc : s.connected = true)
    (hr : s.running = true) {events : List Event}
    (hstay : ∀ p ∈ steps step s events, p.2.staysWithLoss = true) {t : State}
    (hrun : run step s events = some t) :
    (firstHandlerClean s events = true ∧ Handled s t) ∨
    (firstHandlerClean s events = false ∧ t.disconnects = s.disconnects) := by
  induction events generalizing s with
  | nil =>
    cases hrun
    exact .inr ⟨rfl,rfl⟩
  | cons e events ih =>
    obtain ⟨u,hu,hrun⟩ := Option.bind_eq_some_iff.mp hrun
    rw [steps_cons hu,List.forall_mem_cons] at hstay
    unfold firstHandlerClean
    rw [steps_cons hu,List.find?_cons]
    cases hh : s.runsHandler e with
    | true =>
      obtain ⟨w,runner,hk,hq,rfl⟩ := step_runsHandler hu hh
      have hret := hk.tasksReturned hmade
      cases hclean : s.tasksReturned with
      | true =>
        have hw := w.handleClose_returned_handled runner (hq.connected.trans hc) (hq.running hr)
          (hret.trans hclean)
        obtain ⟨h1,h2,h3⟩ := not_reported_again hw.connected hstay.2 hrun
        refine .inl ⟨hclean,h1,?_,fun hauto => ?_⟩
        · rw [h2,hw.disconnects,hq.disconnects]
        · have hlt := hw.rescheduled (hq.options ▸ hauto)
          have hle := hq.reschedulings
          omega
      | false =>
        obtain ⟨h1,h2,-⟩ := w.handleClose_not_reported runner (.inr (hret.trans hclean))
        obtain ⟨-,h4,-⟩ := not_reported_again h1 hstay.2 hrun
        exact .inr ⟨hclean,h4.trans (h2.trans hq.disconnects)⟩
    | false =>
      have hq := step_quiet hu hstay.1 hh
      have hu' := tasksMade_step s e u hmade hu
      rcases ih hu' (hq.connected.trans hc) (hq.running hr) hstay.2 hrun with ⟨hf,hd⟩ | ⟨hf,hd⟩
      · refine .inl ⟨hf,hd.connected,hd.disconnects.trans (by rw [hq.disconnects]),fun hauto => ?_⟩
        have hlt := hd.rescheduled (hq.options ▸ hauto)
        have hle := hq.reschedulings
        omega
      · exact .inr ⟨hf,hd.trans hq.disconnects⟩

/-- From any reachable connected state, and until a new connection opens or the user disconnects,
the loss of the connection is handled exactly when the handler runs and the first time it does, the
ping, read and reconnect tasks are absent or have returned. -/
theorem loss_handled_iff (options : Options) {before : List Event} {s : State}
    (hs : s ∈ states step (init options) before) (hc : s.connected = true)
    (hr : s.running = true) {events : List Event}
    (hstay : ∀ p ∈ steps step s events, p.2.staysWithLoss = true) {t : State}
    (hrun : run step s events = some t) :
    Handled s t ↔ firstHandlerClean s events = true := by
  rcases loss_decided (tasksMade options before s hs) hc hr hstay hrun with ⟨hf,hd⟩ | ⟨hf,hd⟩
  · exact ⟨fun _ => hf,fun _ => hd⟩
  · refine ⟨fun h => ?_,fun h => by rw [hf] at h; cases h⟩
    have hd' := h.disconnects
    omega

def connectedRun : List Event := [.connectCall,.opened 0 [] none 0,.start 1]

/-- The peer sends CLOSE and ends the stream before the close task starts: the read loop has
returned by then. -/
def closeThenEnd : List Event :=
  [.read 1 (.data (Wire.headerBytes FrameType.close.code 0 1 0 0) ""),.read 1 .eof,.start 2]

theorem loss_handled_closeThenEnd : ∃ s ∈ run step (init {}) connectedRun,
    ∃ t ∈ run step s closeThenEnd, Handled s t := by
  have hrun : ∃ s ∈ run step (init {}) connectedRun, s.connected = true ∧ s.running = true ∧
      (∀ p ∈ steps step s closeThenEnd, p.2.staysWithLoss = true) ∧
      firstHandlerClean s closeThenEnd = true ∧ (run step s closeThenEnd).isSome = true := by
    decide +kernel
  obtain ⟨s,hs,hc,hr,hstay,hclean,hsome⟩ := hrun
  obtain ⟨t,ht⟩ := Option.isSome_iff_exists.mp hsome
  exact ⟨s,hs,t,ht,(loss_handled_iff {} (run_mem_states hs) hc hr hstay ht).mpr hclean⟩

/-- The peer only ends the stream: the read loop returns, and nothing else happens. -/
theorem loss_not_handled : ¬∀ (options : Options) (before : List Event),
    ∀ s ∈ states step (init options) before, s.connected = true → s.running = true →
    ∀ events : List Event, (∀ p ∈ steps step s events, p.2.staysWithLoss = true) →
    (∃ p ∈ steps step s events, p.1.isLoss p.2 = true) →
    ∀ t ∈ run step s events, t.lossOver = true → Handled s t := by
  intro h
  have hrun : ∃ s ∈ run step (init {}) connectedRun, s.connected = true ∧ s.running = true ∧
      (∀ p ∈ steps step s [.read 1 .eof], p.2.staysWithLoss = true) ∧
      (∃ p ∈ steps step s [.read 1 .eof], p.1.isLoss p.2 = true) ∧
      ∃ t ∈ run step s [.read 1 .eof], t.lossOver = true ∧ t.connected = true := by decide
  obtain ⟨s,hs,hc,hr,hstay,hloss,t,ht,hover,ht'⟩ := hrun
  have hh := h {} connectedRun s (run_mem_states hs) hc hr _ hstay hloss t ht hover
  rw [hh.connected] at ht'
  cases ht'

end Py
end MipClients
