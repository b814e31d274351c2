import MipClients.RustGenerations

/-! What a `connect()` of the Rust client that returns `Err` leaves behind (`client/mod.rs`):
because the TCP connection failed, or because HELLO could not be sent, as when the read task has
found the connection closed and cleared `connected` before. -/
namespace MipClients
namespace Rust

open Transition (recorded steps)

def ConnectFails (s : State) (e : Event) : Prop :=
  (s.owner = .opening ∧ e = .tcpFailed) ∨ (s.owner = .helloCleared ∧ ∃ now, e = .advance now)

def ReadTask.gone : ReadTask → Bool
  | .absent | .done => true
  | _ => false

def WriteTask.gone : WriteTask → Bool
  | .absent | .ended _ => true
  | _ => false

def Connection.idle (k : Connection) : Bool := k.read.gone && k.write.gone && k.ping.gone

/-- As before any connection, with no task live that was spawned since the connections were
`opened`. -/
structure Clean (opened : ℕ) (s : State) : Prop where
  connected : s.connected = false
  running : s.running = false
  commandTx : s.commandTx = none
  tasks : ∀ c, opened ≤ c → c < s.opened → (s.connections c).idle = true

/-- The client, with the number of connections that there were at the last call of `connect()`. -/
def connectingStep : State × ℕ → Event → Option (State × ℕ) :=
  recorded step fun opened s e _ => if e = .connectCall then s.opened else opened

def FailuresClean (options : MIPClientOptions) (events : List Event) : Prop :=
  ∀ p ∈ steps connectingStep (init options,0) events, ConnectFails p.1.1 p.2 →
    ∀ t, connectingStep p.1 p.2 = some t → Clean p.1.2 t.1

def Owner.hasSender : Owner → Bool
  | .storing _ | .stored _ | .readSpawned _ | .writeSpawned _ | .pingSpawned _ | .hello _
  | .helloChecked _ | .helloBuilt _ _ _ | .helloFailed | .helloCleared => true
  | _ => false

structure Connecting (s : State) : Prop where
  running : s.owner = .opening → s.running = true
  commandTx : s.owner.hasSender = true → s.commandTx ≠ none

theorem Connecting.ownerMove {s t : State} (hI : Connecting s) (h : OwnerMove s t) :
    Connecting t := by
  have hsender {owner : Owner} (ho : s.owner = owner) (hhas : owner.hasSender = true) :
      s.commandTx ≠ none := hI.commandTx (by rw [ho]; exact hhas)
  cases h with
  | connected => exact hI
  | opening => exact ⟨fun _ => rfl,fun h => (by cases h)⟩
  | tcpConnected => exact ⟨fun h => (by cases h),fun _ => Option.some_ne_none _⟩
  | pingSpawned c ho =>
    obtain ⟨ks,ping,ht⟩ := s.spawnPingTask_eq c
    rw [ht]
    exact ⟨fun h => (by cases h),fun _ => hsender ho rfl⟩
  | stored c ho | readSpawned c ho | writeSpawned c ho | onConnect c ho | helloChecked c ho
  | helloRefused c ho | helloCleared ho => exact ⟨fun h => (by cases h),fun _ => hsender ho rfl⟩
  | helloBuilt c now frame ho => exact ⟨fun h => (by cases h),fun _ => hsender ho rfl⟩
  | helloRejected c msgId frame ho => exact ⟨fun h => (by cases h),fun _ => hsender ho rfl⟩
  | _ => exact ⟨fun h => (by cases h),fun h => (by cases h)⟩

theorem Connecting.move {s t : State} {a : Actor} (hI : Connecting s) (h : Move s a t) :
    Connecting t := by
  rcases h.owner_or with hm | ⟨ho,-,hr,hc⟩
  · exact hI.ownerMove hm
  · exact ⟨by rw [ho,hr]; exact hI.running,by rw [ho,hc]; exact hI.commandTx⟩

theorem connecting_init (options : MIPClientOptions) : Connecting (init options) :=
  ⟨fun h => (by cases h),fun h => (by cases h)⟩

theorem left_behind {s t : State} {e : Event} (hI : Connecting s) (h : step s e = some t)
    (hfails : ConnectFails s e) : t.running = true ∨ t.commandTx ≠ none := by
  rcases hfails with ⟨ho,rfl⟩ | ⟨ho,now,rfl⟩
  · simp only [step,ho,if_true,Option.some.injEq] at h
    subst h
    exact .inl (hI.running ho)
  · simp only [step,State.advance,ho,Option.some.injEq] at h
    subst h
    exact .inr (hI.commandTx (by rw [ho]; rfl))

theorem not_clean {s t : State} {e : Event} (hI : Connecting s) (h : step s e = some t)
    (hfails : ConnectFails s e) (opened : ℕ) : ¬Clean opened t := by
  intro hclean
  rcases left_behind hI h hfails with hrunning | hsender
  · rw [hclean.running] at hrunning
    cases hrunning
  · exact hsender hclean.commandTx

/-- No failed `connect()` of any run leaves the client clean. -/
theorem not_clean_of_mem {options : MIPClientOptions} {events : List Event}
    {p : (State × ℕ) × Event} (hp : p ∈ steps connectingStep (init options,0) events)
    (hfails : ConnectFails p.1.1 p.2) {t : State × ℕ} (ht : connectingStep p.1 p.2 = some t) :
    ¬Clean p.1.2 t.1 := by
  have hconnecting : ∀ x ∈ Transition.states connectingStep (init options,0) events,
      Connecting x.1 :=
    Transition.invariant (I := fun x : State × ℕ => Connecting x.1)
      (fun _ _ _ hI hx => hI.move (step_move (Transition.recorded_eq_some hx).1))
      (connecting_init options) events
  obtain ⟨hmem,-⟩ := Transition.step_of_mem_steps hp
  exact not_clean (hconnecting p.1 hmem) (Transition.recorded_eq_some ht).1 hfails _

/-- Every failed `connect()` of a run leaves the client clean only where none fails. -/
theorem failuresClean_iff (options : MIPClientOptions) (events : List Event) :
    FailuresClean options events ↔
      ∀ p ∈ steps step (init options) events, ¬ConnectFails p.1 p.2 := by
  have hrecorded : (∀ p ∈ steps connectingStep (init options,0) events, ¬ConnectFails p.1.1 p.2) ↔
      ∀ p ∈ steps step (init options) events, ¬ConnectFails p.1 p.2 :=
    Transition.forall_steps_recorded (C := fun s e => ¬ConnectFails s e) _ _ events
  refine Iff.trans (forall₂_congr fun p hp => ?_) hrecorded
  obtain ⟨-,t,-,ht⟩ := Transition.step_of_mem_steps hp
  constructor
  · intro hclean hfails
    exact not_clean_of_mem hp hfails ht (hclean hfails t ht)
  · intro hno hfails
    exact absurd hfails hno

theorem not_failuresClean {options : MIPClientOptions} {before : List Event} {x y : State × ℕ}
    {e : Event} (hrun : Transition.run connectingStep (init options,0) before = some x)
    (hy : connectingStep x e = some y) (hfails : ConnectFails x.1 e) :
    ¬FailuresClean options (before ++ [e]) := by
  have hmem : (x,e) ∈ steps connectingStep (init options,0) (before ++ [e]) :=
    Transition.mem_steps_iff.mpr ⟨before,[],y,rfl,hrun,hy⟩
  exact fun h => not_clean_of_mem hmem hfails hy (h _ hmem hfails y hy)

/-- The server closes at once: the read task finds the end of the stream and clears `connected`
before `connect()` comes to HELLO. -/
def closedAtOnce : List Event :=
  [.connectCall,.tcpConnected,.advance 5,.advance 5,.advance 5,.readStep 0,.read 0 .eof,.readStep 0,
    .advance 5,.advance 5,.advance 5,.advance 5]

/-- Neither a refused TCP connection nor a HELLO that is not sent leaves the client clean. -/
theorem failures_not_clean : ¬FailuresClean {} ([.connectCall] ++ [.tcpFailed]) ∧
    ¬FailuresClean {} (closedAtOnce ++ [.advance 5]) := by
  constructor
  · obtain ⟨x,hrun,howner⟩ : ∃ x ∈ Transition.run connectingStep (init {},0) [.connectCall],
        x.1.owner = .opening := by
      decide +kernel
    have hy : connectingStep x .tcpFailed = some (x.1.go .idle,x.2) := by
      simp [connectingStep,recorded,step,howner]
    exact not_failuresClean hrun hy (.inl ⟨howner,rfl⟩)
  · obtain ⟨x,hrun,howner⟩ : ∃ x ∈ Transition.run connectingStep (init {},0) closedAtOnce,
        x.1.owner = .helloCleared := by
      decide +kernel
    have hy : connectingStep x (.advance 5) = some ({ x.1 with running := false }.go .idle,x.2) := by
      simp [connectingStep,recorded,step,State.advance,howner]
    exact not_failuresClean hrun hy (.inr ⟨howner,5,rfl⟩)

end Rust
end MipClients
