import MipClients.RustMoves

/-! What the loss of a connection leads to in the Rust client. `disconnect()` clears `auto_reconnect`
in the options, and nothing sets it again. -/
namespace MipClients
namespace Rust

open State Transition

/-- `disconnect()` has been called since `connect()` stored `connected = true` for the connection. -/
def disconnectedSince (c : ℕ) : List Entry → Bool
  | [] => false
  | .stored d :: log => if d = c then false else disconnectedSince c log
  | .disconnectCall :: _ => true
  | _ :: log => disconnectedSince c log

/-- The read task enters the reconnect path: it announces an attempt or gives up. -/
def EntersReconnect (s t : State) : Prop :=
  (∃ c attempt, t.log = .onReconnecting c attempt :: s.log) ∨
  ∃ c attempts, t.log = .onError c (.maxReconnectAttempts attempts) :: s.log

/-- A read task whose connection the peer has ended comes to its decision, and the user has not
called `disconnect()` since the connection was established. -/
def LosesConnection (s : State) : Event → Prop
  | .readStep c => (s.connections c).read = .reported true ∧ disconnectedSince c s.log = false
  | _ => False

/-- The user has never called `disconnect()`, and neither a refused HELLO nor the end of the client
has cleared `running`. -/
def ReconnectsStill (s : State) : Prop := .disconnectCall ∉ s.log ∧ s.running = true

instance (s : State) (e : Event) : Decidable (LosesConnection s e) :=
  match e with
  | .readStep _ => inferInstanceAs (Decidable (_ ∧ _))
  | .connectCall | .disconnectCall | .tcpConnected | .tcpFailed | .drop | .advance _ | .timeout
  | .call _ _ | .sendFrame _ _ | .read _ _ | .readCancelled _ | .recv _ | .written _
  | .writeFailed _ | .shutdown _ | .tick _ | .pingStep _ _ | .pingCancelled _ =>
    inferInstanceAs (Decidable False)

instance (s : State) : Decidable (ReconnectsStill s) := inferInstanceAs (Decidable (_ ∧ _))

/-- What the history tells of the option. -/
def Watched (auto : Bool) (s : State) : Prop :=
  s.options.autoReconnect = (auto && decide (.disconnectCall ∉ s.log))

theorem Move.options {s t : State} {a : Actor} (h : Move s a t) :
    t.options.autoReconnect = s.options.autoReconnect ∧
      (.disconnectCall ∈ t.log ↔ .disconnectCall ∈ s.log) ∨
    t.options.autoReconnect = false ∧ .disconnectCall ∈ t.log := by
  cases h with
  | owner h =>
    cases h with
    | stored c | onConnect c => exact .inl ⟨rfl,by simp [go,record]⟩
    | disconnect => exact .inr ⟨rfl,List.mem_cons_self⟩
    | pingSpawned c =>
      obtain ⟨ks,ping,ht⟩ := s.spawnPingTask_eq c
      rw [ht]
      exact .inl ⟨rfl,Iff.rfl⟩
    | pingAborted =>
      obtain ⟨ks,ping,ht⟩ := s.abortPing_eq
      rw [ht]
      exact .inl ⟨rfl,Iff.rfl⟩
    | readAborted =>
      obtain ⟨ks,read,ht⟩ := s.abortRead_eq
      rw [ht]
      exact .inl ⟨rfl,Iff.rfl⟩
    | _ => exact .inl ⟨rfl,Iff.rfl⟩
  | caller k h => cases h <;> exact .inl ⟨rfl,Iff.rfl⟩
  | read c h =>
    left
    cases h with
    | failed | cleared | onDisconnect =>
      exact ⟨rfl,by simp⟩
    | scheduled =>
      unfold scheduleReconnect
      dsimp only
      split_ifs
      · exact ⟨rfl,by simp⟩
      · exact ⟨rfl,by simp⟩
      · exact ⟨rfl,Iff.rfl⟩
    | _ => exact ⟨rfl,Iff.rfl⟩
  | write c h => cases h <;> exact .inl ⟨rfl,Iff.rfl⟩
  | ping c h =>
    left
    cases h with
    | passed | idTaken => exact ⟨rfl,by simp [generateMsgId]⟩
    | _ => exact ⟨rfl,Iff.rfl⟩

theorem watched_step {auto : Bool} (s : State) (e : Event) (t : State) (h : Watched auto s)
    (hs : step s e = some t) : Watched auto t := by
  unfold Watched at h ⊢
  rcases (step_move hs).options with ⟨ho,hl⟩ | ⟨ho,hl⟩
  · rw [ho,h]
    simp only [hl]
  · simp [ho,hl]

/-- The decision after a loss leads into the reconnect path exactly when the option still stands and
`running` is set. -/
theorem entersReconnect_iff {s t : State} {e : Event} (h : Watched true s)
    (hloss : LosesConnection s e) (hs : step s e = some t) :
    EntersReconnect s t ↔ ReconnectsStill s := by
  cases e with
  | readStep c =>
    have ht : t = s.scheduleReconnect c := by
      simp only [step,readStep,hloss.1] at hs
      exact (Option.some.inj hs).symm
    have hopt : (s.options.autoReconnect && s.running) = true ↔ ReconnectsStill s := by
      rw [h]
      simp [ReconnectsStill]
    rw [ht,← hopt,scheduleReconnect]
    constructor
    · intro henters
      by_contra hno
      rw [if_neg hno] at henters
      rcases henters with ⟨_,_,hl⟩ | ⟨_,_,hl⟩ <;> exact List.cons_ne_self _ _ hl.symm
    · intro hyes
      rw [if_pos hyes]
      dsimp only
      split_ifs
      · exact .inl ⟨c,_,rfl⟩
      · exact .inr ⟨c,_,rfl⟩
  | _ => cases hloss

/-- In every run of a client configured to reconnect, all losses of established connections lead to
the reconnect path if and only if none of them comes after a call of `disconnect()` and `running` is
still set at each. -/
theorem losses_reconnect_iff (options : MIPClientOptions) (hauto : options.autoReconnect = true)
    (events : List Event) :
    (∀ p ∈ steps step (init options) events, LosesConnection p.1 p.2 →
      ∀ t ∈ step p.1 p.2, EntersReconnect p.1 t) ↔
    ∀ p ∈ steps step (init options) events, LosesConnection p.1 p.2 → ReconnectsStill p.1 := by
  have hinit : Watched true (init options) := by simpa [Watched,init] using hauto
  refine forall_steps_iff (A := fun s e => LosesConnection s e → ∀ t ∈ step s e, EntersReconnect s t)
    (B := fun s e => LosesConnection s e → ReconnectsStill s) watched_step
    (fun s e t hI hs => forall_congr' fun hloss => ?_) hinit events
  have hiff := entersReconnect_iff hI hloss hs
  rw [hs]
  exact ⟨fun h => hiff.mp (h t rfl),fun h u hu => Option.some.inj hu ▸ hiff.mpr h⟩

end Rust
end MipClients
