import MipClients.RustGenerations

/-! The reconnections that the read tasks of the Rust client announce. Behind the delay a task is at its
end: only the user's call of `connect()` starts a connection attempt, whatever has been announced. -/
namespace MipClients
namespace Rust

open State Transition

/-- The step goes into `TcpStream::connect`, and it is no call of the user. -/
def startsAttempt (p : State × Event) : Bool :=
  p.2 ≠ .connectCall && p.1.owner ≠ .opening && (step p.1 p.2).any fun t => t.owner = .opening

def ownAttempts (s : State) (events : List Event) : ℕ := (steps step s events).countP startsAttempt

/-- The delay behind an announcement is over, `running` is still set, and the user has not called
`disconnect()`. -/
def DelayElapses (s : State) : Event → Prop
  | .readStep c => (s.connections c).read = .sleeping ∧ s.running = true ∧ .disconnectCall ∉ s.log
  | _ => False

def LimitReached (s : State) : Event → Prop
  | .readStep c => (∃ lost, (s.connections c).read = .reported lost) ∧
      s.options.autoReconnect = true ∧ s.running = true ∧ s.options.maxReconnectAttempts ≠ 0 ∧
      s.options.maxReconnectAttempts < UInt32.ofNat s.reconnectAttempts + 1
  | _ => False

/-- An announced attempt is started by the client once the delay is over, and the limit is reported only
behind as many attempts. -/
structure Reconnects (options : MIPClientOptions) (events : List Event) : Prop where
  attempted : ∀ before e after s t, events = before ++ e :: after →
    run step (init options) before = some s → step s e = some t → DelayElapses s e →
    ∃ more, ∃ p ∈ steps step t more, startsAttempt p = true
  exhausted : ∀ before e after s t c attempts, events = before ++ e :: after →
    run step (init options) before = some s → step s e = some t →
    t.log = .onError c (.maxReconnectAttempts attempts) :: s.log →
    attempts.toNat ≤ ownAttempts (init options) before

instance (s : State) (e : Event) : Decidable (DelayElapses s e) :=
  match e with
  | .readStep _ => inferInstanceAs (Decidable (_ ∧ _))
  | .connectCall | .disconnectCall | .tcpConnected | .tcpFailed | .drop | .advance _ | .timeout
  | .call _ _ | .sendFrame _ _ | .read _ _ | .readCancelled _ | .recv _ | .written _
  | .writeFailed _ | .shutdown _ | .tick _ | .pingStep _ _ | .pingCancelled _ =>
    inferInstanceAs (Decidable False)

theorem advance_ne_opening {s t : State} {now : ℕ} (h : s.advance now = some t) :
    t.owner ≠ .opening := by
  have hidle : s.owner ≠ .idle := by
    intro ho
    rw [State.advance,ho] at h
    cases h
  cases advance_move h with
  | connected ho | opening ho => exact absurd ho hidle
  | _ => exact nofun

theorem owner_ne_opening {s t : State} {e : Event} (h : step s e = some t) (he : e ≠ .connectCall)
    (hs : s.owner ≠ .opening) : t.owner ≠ .opening := by
  by_cases ha : e.actor = .owner
  · cases e with
    | connectCall => exact absurd rfl he
    | tcpConnected | tcpFailed => exact absurd (Option.ite_none_right_eq_some.mp h).1 hs
    | disconnectCall | drop | timeout =>
      obtain ⟨-,h⟩ := Option.ite_none_right_eq_some.mp h
      cases h
      exact nofun
    | advance now => exact advance_ne_opening h
    | _ => cases ha
  · rw [((step_move h).elsewhere ha).1]
    exact hs

/-- The client starts no attempt by itself. -/
theorem startsAttempt_eq_false (p : State × Event) : startsAttempt p = false := by
  by_contra hp
  simp only [startsAttempt,Bool.not_eq_false,Bool.and_eq_true,decide_eq_true_eq,
    Option.any_eq_true] at hp
  obtain ⟨⟨he,hs⟩,t,ht,hopening⟩ := hp
  exact owner_ne_opening ht he hs hopening

theorem ownAttempts_eq_zero (s : State) (events : List Event) : ownAttempts s events = 0 :=
  List.countP_eq_zero.mpr fun p _ => by simp [startsAttempt_eq_false p]

theorem Move.reported {s t : State} {a : Actor} (h : Move s a t) {c : ℕ} {attempts : UInt32}
    (hlog : t.log = .onError c (.maxReconnectAttempts attempts) :: s.log) :
    ∃ d lost, a = .readTask d ∧ (s.connections d).read = .reported lost := by
  cases h with
  | read d h =>
    cases h with
    | scheduled lost hr => exact ⟨d,lost,rfl,hr⟩
    | failed | cleared | onDisconnect => cases hlog
    | _ => exact absurd hlog.symm (List.cons_ne_self _ _)
  | owner h =>
    cases h with
    | stored | onConnect | disconnect => cases hlog
    | pingSpawned =>
      obtain ⟨ks,ping,ht⟩ := s.spawnPingTask_eq _
      rw [ht] at hlog
      exact absurd hlog.symm (List.cons_ne_self _ _)
    | pingAborted =>
      obtain ⟨ks,ping,ht⟩ := s.abortPing_eq
      rw [ht] at hlog
      exact absurd hlog.symm (List.cons_ne_self _ _)
    | readAborted =>
      obtain ⟨ks,read,ht⟩ := s.abortRead_eq
      rw [ht] at hlog
      exact absurd hlog.symm (List.cons_ne_self _ _)
    | _ => exact absurd hlog.symm (List.cons_ne_self _ _)
  | caller k h => cases h <;> exact absurd hlog.symm (List.cons_ne_self _ _)
  | write d h => cases h <;> exact absurd hlog.symm (List.cons_ne_self _ _)
  | ping d h =>
    cases h with
    | passed | idTaken => cases hlog
    | _ => exact absurd hlog.symm (List.cons_ne_self _ _)

theorem limitReached_iff {s t : State} {e : Event} (h : step s e = some t) :
    LimitReached s e ↔ ∃ c attempts,
      t.log = .onError c (.maxReconnectAttempts attempts) :: s.log ∧ attempts ≠ 0 := by
  constructor
  · intro hlimit
    cases e with
    | readStep c =>
      obtain ⟨⟨lost,hr⟩,hauto,hrunning,hne,hlt⟩ := hlimit
      have hno : ¬(s.options.maxReconnectAttempts = 0 ∨
          UInt32.ofNat s.reconnectAttempts + 1 ≤ s.options.maxReconnectAttempts) :=
        not_or.mpr ⟨hne,UInt32.not_le.mpr hlt⟩
      simp only [step,readStep,hr,scheduleReconnect,hauto,hrunning,Bool.and_self,if_true,
        if_neg hno] at h
      cases h
      exact ⟨c,_,rfl,hne⟩
    | _ => cases hlimit
  · rintro ⟨c,attempts,hlog,-⟩
    obtain ⟨d,lost,ha,hr⟩ := (step_move h).reported hlog
    have hne : t.log ≠ s.log := by
      rw [hlog]
      exact List.cons_ne_self _ _
    cases eq_readStep_of_log h ha hne
    simp only [step,readStep,hr,scheduleReconnect] at h
    split_ifs at h with hgo hmax
    · cases h
      cases hlog
    · obtain ⟨hauto,hrunning⟩ := Bool.and_eq_true_iff.mp hgo
      obtain ⟨hmax,hlt⟩ := not_or.mp hmax
      exact ⟨⟨lost,hr⟩,hauto,hrunning,hmax,UInt32.not_le.mp hlt⟩
    · cases h
      exact absurd rfl hne

theorem Reconnects.not_delayElapses {options : MIPClientOptions} {events : List Event}
    (h : Reconnects options events) {p : State × Event}
    (hp : p ∈ steps step (init options) events) : ¬DelayElapses p.1 p.2 := by
  intro hdelay
  obtain ⟨before,after,t,hevents,hrun,ht⟩ := mem_steps_iff.mp hp
  obtain ⟨more,q,-,hq⟩ := h.attempted before p.2 after p.1 t hevents hrun ht hdelay
  rw [startsAttempt_eq_false q] at hq
  cases hq

/-- The client keeps its announcements in a run exactly when there is none to keep: no announced delay
elapses, and no read task finds the limit reached. -/
theorem reconnects_iff (options : MIPClientOptions) (events : List Event) :
    Reconnects options events ↔ ∀ p ∈ steps step (init options) events,
      ¬DelayElapses p.1 p.2 ∧ ¬LimitReached p.1 p.2 := by
  constructor
  · intro h p hp
    refine ⟨h.not_delayElapses hp,fun hlimit => ?_⟩
    obtain ⟨before,after,t,hevents,hrun,ht⟩ := mem_steps_iff.mp hp
    obtain ⟨c,attempts,hlog,hne⟩ := (limitReached_iff ht).mp hlimit
    have hle := h.exhausted before p.2 after p.1 t c attempts hevents hrun ht hlog
    rw [ownAttempts_eq_zero] at hle
    exact hne (UInt32.toNat_inj.mp (Nat.le_zero.mp hle))
  · intro h
    refine ⟨fun before e after s t hevents hrun ht hdelay => ?_,
      fun before e after s t c attempts hevents hrun ht hlog => ?_⟩
    · exact absurd hdelay (h (s,e) (mem_steps_iff.mpr ⟨before,after,t,hevents,hrun,ht⟩)).1
    · by_cases hne : attempts = 0
      · rw [hne]
        exact Nat.zero_le _
      · exact absurd ((limitReached_iff ht).mpr ⟨c,attempts,hlog,hne⟩)
          (h (s,e) (mem_steps_iff.mpr ⟨before,after,t,hevents,hrun,ht⟩)).2

/-- The server ends the first connection; the task announces an attempt, sleeps and is done. -/
theorem not_reconnects : ¬∀ options : MIPClientOptions, options.autoReconnect = true →
    ∀ events, Reconnects options events := by
  intro h
  have helapses : ∃ p ∈ steps step (init {}) lostRun, DelayElapses p.1 p.2 := by decide +kernel
  obtain ⟨p,hp,hdelay⟩ := helapses
  exact (h {} rfl lostRun).not_delayElapses hp hdelay

end Rust
end MipClients
