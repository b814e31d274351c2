import MipClients.RustReconnect
import MipClients.RustSession

/-! `disconnect()` of the Rust client, once it has returned: until `connect()` is called again the
client stays as it was left, whatever the tasks still do whose abort has not taken effect. -/
namespace MipClients
namespace Rust

open State Transition

/-- What `disconnect()` has done by the time it comes past `running`. -/
structure Disconnecting (s : State) : Prop where
  stage : Stage s
  options : s.owner.disconnecting = true → s.options.autoReconnect = false
  running : s.owner.disconnecting = true → s.owner ≠ .stopping → s.running = false

theorem OwnerMove.disconnecting {s t : State} (h : OwnerMove s t) (hs : Disconnecting s)
    (ht : t.owner.disconnecting = true) : t.options.autoReconnect = false ∧
      (t.owner ≠ .stopping → t.running = false) := by
  have hkept {owner : Owner} (ho : s.owner = owner) (hd : owner.disconnecting = true)
      (hne : owner ≠ .stopping) : s.options.autoReconnect = false ∧ s.running = false :=
    ⟨hs.options (by rw [ho]; exact hd),hs.running (by rw [ho]; exact hd) (by rw [ho]; exact hne)⟩
  cases h with
  | connected => exact ⟨hs.options ht,hs.running ht⟩
  | disconnect ho => exact ⟨rfl,fun hne => absurd rfl hne⟩
  | stopped ho => exact ⟨hs.options (by rw [ho]; rfl),fun _ => rfl⟩
  | notOpened ho | closeChecked c ho | closeLeftOut c ho | sendingClose c now frame ho
  | writeAwaited ho | cleared ho =>
    obtain ⟨hoff,hrun⟩ := hkept ho rfl nofun
    exact ⟨hoff,fun _ => hrun⟩
  | closeSent c frame k ho | disconnectSent c k ho =>
    obtain ⟨hoff,hrun⟩ := hkept ho rfl nofun
    exact ⟨hoff,fun _ => hrun⟩
  | pingAborted ho =>
    obtain ⟨ks,ping,heq⟩ := s.abortPing_eq
    rw [heq]
    obtain ⟨hoff,hrun⟩ := hkept ho rfl nofun
    exact ⟨hoff,fun _ => hrun⟩
  | readAborted ho =>
    obtain ⟨ks,read,heq⟩ := s.abortRead_eq
    rw [heq]
    obtain ⟨hoff,hrun⟩ := hkept ho rfl nofun
    exact ⟨hoff,fun _ => hrun⟩
  | _ => cases ht

theorem Move.autoReconnect {s t : State} {a : Actor} (h : Move s a t)
    (hs : s.options.autoReconnect = false) : t.options.autoReconnect = false := by
  rcases h.options with ⟨ho,-⟩ | ⟨ho,-⟩
  · exact ho.trans hs
  · exact ho

theorem Disconnecting.step {s t : State} {e : Event} (hI : Disconnecting s)
    (h : Rust.step s e = some t) : Disconnecting t := by
  have hboth (ht : t.owner.disconnecting = true) : t.options.autoReconnect = false ∧
      (t.owner ≠ .stopping → t.running = false) := by
    rcases (step_move h).owner_or with hm | ⟨ho,-,hr,-⟩
    · exact hm.disconnecting hI ht
    · rw [ho] at ht ⊢
      rw [hr]
      exact ⟨(step_move h).autoReconnect (hI.options ht),hI.running ht⟩
  exact ⟨hI.stage.step h,fun ht => (hboth ht).1,fun ht => (hboth ht).2⟩

theorem disconnecting_init (options : MIPClientOptions) : Disconnecting (init options) :=
  ⟨stage_init options,nofun,nofun⟩

def Owner.over : Owner → Bool
  | .idle | .dropped | .stopping | .stopped | .cleaning | .awaitingWrite | .abortingRead | .clearing
  | .dropping => true
  | _ => false

structure Over (s : State) : Prop where
  owner : s.owner.over = true
  connected : s.connected = false
  running : s.running = false
  sender : s.commandTx = none
  options : s.options.autoReconnect = false

theorem OwnerMove.over {s t : State} (h : OwnerMove s t) (hs : Over s)
    (ht : t.owner ≠ .opening) (hstopped : s.owner = .stopped → t.owner = .cleaning) :
    Over t ∧ t.opened = s.opened ∧ (t.log = s.log ∨ t.log = .disconnectCall :: s.log) := by
  obtain ⟨hover,hconn,hrun,hsender,hoff⟩ := hs
  cases h with
  | connected ho hc => cases hconn.symm.trans hc
  | opening ho => exact absurd rfl ht
  | disconnect ho => exact ⟨⟨rfl,hconn,hrun,hsender,rfl⟩,rfl,.inr rfl⟩
  | stopped ho => exact ⟨⟨rfl,hconn,rfl,hsender,hoff⟩,rfl,.inl rfl⟩
  | notOpened ho | writeAwaited ho => exact ⟨⟨rfl,hconn,hrun,hsender,hoff⟩,rfl,.inl rfl⟩
  | closeChecked c ho | closeLeftOut c ho => cases hstopped ho
  | pingAborted ho =>
    obtain ⟨ks,ping,heq⟩ := s.abortPing_eq
    rw [heq]
    exact ⟨⟨rfl,hconn,hrun,hsender,hoff⟩,rfl,.inl rfl⟩
  | readAborted ho =>
    obtain ⟨ks,read,heq⟩ := s.abortRead_eq
    rw [heq]
    exact ⟨⟨rfl,hconn,hrun,hsender,hoff⟩,rfl,.inl rfl⟩
  | cleared ho => exact ⟨⟨rfl,rfl,hrun,hsender,hoff⟩,rfl,.inl rfl⟩
  | disconnected ho => exact ⟨⟨rfl,hconn,hrun,rfl,hoff⟩,rfl,.inl rfl⟩
  | dropped ho => exact ⟨⟨rfl,hconn,rfl,rfl,hoff⟩,rfl,.inl rfl⟩
  | helloAccepted c m f k ho | closeSent c f k ho | disconnectSent c k ho =>
    rw [ho] at hover
    cases hover
  | _ =>
    rename_i ho
    rw [ho] at hover
    cases hover

/-- What the history of a disconnected client can still get: another `disconnect()`, and from tasks
whose abort has not taken effect a callback for an error or for the loss before, and a message id.
-/
def Entry.late : Entry → Bool
  | .disconnectCall | .onError _ .io | .onDisconnect _ | .pingId _ => true
  | _ => false

theorem Over.log {s t : State} {e : Event} (hs : Over s) (h : Rust.step s e = some t)
    (ha : e.actor ≠ .owner) : t.log = s.log ∨ ∃ x, t.log = x :: s.log ∧ x.late = true := by
  have hmove := step_move h
  generalize hactor : e.actor = a at hmove
  cases hmove with
  | owner hm => exact absurd hactor ha
  | caller k hm => cases hm <;> exact .inl rfl
  | write c hm => cases hm <;> exact .inl rfl
  | read c hm =>
    cases hm with
    | failed => exact .inr ⟨_,rfl,rfl⟩
    | onDisconnect => exact .inr ⟨_,rfl,rfl⟩
    | cleared lost hr =>
      have hconn := connected_of_clears (c := c) h rfl
      cases hs.connected.symm.trans hconn
    | scheduled lost hr =>
      left
      rw [State.scheduleReconnect,hs.options]
      rfl
    | _ => exact .inl rfl
  | ping c hm =>
    cases hm with
    | passed hp hr => cases hs.running.symm.trans hr
    | idTaken => exact .inr ⟨_,rfl,rfl⟩
    | _ => exact .inl rfl

theorem Over.step {s t : State} {e : Event} (hs : Over s) (h : Rust.step s e = some t)
    (he : e ≠ .connectCall) : Over t ∧ t.opened = s.opened ∧
      (t.log = s.log ∨ ∃ x, t.log = x :: s.log ∧ x.late = true) := by
  by_cases ha : e.actor = .owner
  · cases ha ▸ step_move h with
    | owner hm =>
      have hopening : t.owner ≠ .opening := by
        refine owner_ne_opening h he fun ho => ?_
        have hover := hs.owner
        rw [ho] at hover
        cases hover
      have hstopped : s.owner = .stopped → t.owner = .cleaning := by
        intro ho
        cases hm with
        | notOpened => rfl
        | closeChecked c =>
          cases (step_stopped h ho (c := c) rfl).1.symm.trans hs.sender
        | closeLeftOut c =>
          cases (step_stopped h ho (c := c) rfl).1.symm.trans hs.sender
        | helloAccepted c m f k hd | closeSent c f k hd | disconnectSent c k hd =>
          cases hd.symm.trans ho
        | connected hd => cases hd.symm.trans ho
        | _ =>
          rename_i hd
          cases hd.symm.trans ho
      obtain ⟨hover,hopened,hlog⟩ := hm.over hs hopening hstopped
      exact ⟨hover,hopened,hlog.imp_right fun hl => ⟨_,hl,rfl⟩⟩
  · obtain ⟨ho,hopened,hr,hsender⟩ := (step_move h).elsewhere ha
    refine ⟨⟨ho ▸ hs.owner,?_,hr.trans hs.running,hsender.trans hs.sender,
      (step_move h).autoReconnect hs.options⟩,hopened,hs.log h ha⟩
    by_contra hc
    have hconn := (step_move h).connected_of ha (Bool.not_eq_false _ ▸ hc)
    cases hs.connected.symm.trans hconn

/-- What a client that `disconnect()` has left behind comes to, step by step. -/
structure LeftAlone (t u : State) : Prop where
  isOver : Over u
  opened : u.opened = t.opened
  log : ∃ entries, u.log = entries ++ t.log ∧ ∀ x ∈ entries, x.late = true

theorem LeftAlone.step {t u v : State} {e : Event} (hs : LeftAlone t u) (he : e ≠ .connectCall)
    (h : Rust.step u e = some v) : LeftAlone t v := by
  obtain ⟨hover,hopened,hlog⟩ := hs.isOver.step h he
  refine ⟨hover,hopened.trans hs.opened,?_⟩
  obtain ⟨entries,heq,hlate⟩ := hs.log
  rcases hlog with hl | ⟨x,hl,hx⟩
  · exact ⟨entries,hl.trans heq,hlate⟩
  · exact ⟨x :: entries,by rw [hl,heq]; rfl,List.forall_mem_cons.mpr ⟨hx,hlate⟩⟩

theorem Disconnecting.over {s t : State} {now : ℕ} (hI : Disconnecting s) (ho : s.owner = .dropping)
    (h : Rust.step s (.advance now) = some t) : Over t := by
  have hoff := hI.stage.offline (by rw [ho]; rfl)
  have hauto := hI.options (by rw [ho]; rfl)
  have hrun := hI.running (by rw [ho]; rfl) (by rw [ho]; exact nofun)
  simp only [Rust.step,State.advance,ho,Option.some.injEq] at h
  subst h
  exact ⟨rfl,hoff,hrun,rfl,hauto⟩

/-- From a return of `disconnect()` until the next `connect()`, in every interleaving with the tasks
still there and with further calls of `disconnect()`: the client stays disconnected, has no sender,
opens no connection, does not announce a reconnection or become connected, its ping tasks pass no
check, and every call of a sending method returns `NotConnected` at once. -/
theorem disconnect_lasts (options : MIPClientOptions) (events : List Event) :
    ∀ s ∈ states Rust.step (init options) events, ∀ now t, s.owner = .dropping →
      Rust.step s (.advance now) = some t → ∀ later, .connectCall ∉ later →
      ∀ u ∈ states Rust.step t later, u.connected = false ∧ u.running = false ∧
        u.commandTx = none ∧ u.opened = t.opened ∧
        (∃ entries, u.log = entries ++ t.log ∧ ∀ x ∈ entries, x.late = true) ∧
        ∀ k call v, Rust.step u (.call k call) = some v →
          v.returned k = u.returned k ++ [(call,.notConnected)] := by
  intro s hs now t ho h later hlater u hu
  have hI := invariant (fun _ _ _ (hI : Disconnecting _) h => hI.step h)
    (disconnecting_init options)
    events s hs
  have halone : LeftAlone t u := invariant_of_steps (C := fun _ e => e ≠ .connectCall)
    (fun _ _ _ hs he h => hs.step he h) ⟨hI.over ho h,rfl,[],rfl,nofun⟩
    (fun p hp heq => hlater (by rw [← heq]; exact mem_of_mem_steps hp)) u hu
  obtain ⟨hover,hopened,hlog⟩ := halone
  refine ⟨hover.connected,hover.running,hover.sender,hopened,hlog,fun k call v hv => ?_⟩
  obtain ⟨-,hv⟩ := Option.ite_none_right_eq_some.mp hv
  cases hv
  have hnone : u.sender = none := by
    rw [State.sender,hover.connected]
    rfl
  simp only [startCall,hnone,finishCall_returned_self]

def disconnectRun : List Event :=
  connectRun ++ [.disconnectCall] ++ List.replicate 6 (.advance 9) ++ [.timeout] ++
    List.replicate 2 (.advance 9)

theorem disconnect_lasts_called : ∃ s ∈ run Rust.step (init {}) disconnectRun,
    ∃ t, Rust.step s (.advance 9) = some t ∧
      ∀ u ∈ states Rust.step t [.call 0 .ping,.readStep 0,.readStep 0],
        u.connected = false ∧ u.opened = t.opened := by
  have hrun : ∃ s ∈ run Rust.step (init {}) disconnectRun, s.owner = .dropping ∧
      (Rust.step s (.advance 9)).isSome := by
    decide +kernel
  obtain ⟨s,hs,ho,hsome⟩ := hrun
  obtain ⟨t,ht⟩ := Option.isSome_iff_exists.mp hsome
  refine ⟨s,hs,t,ht,fun u hu => ?_⟩
  have hlasts := disconnect_lasts {} disconnectRun s (run_mem_states hs) 9 t ho ht
    [.call 0 .ping,.readStep 0,.readStep 0] (by decide) u hu
  exact ⟨hlasts.1,hlasts.2.2.2.1⟩

end Rust
end MipClients
