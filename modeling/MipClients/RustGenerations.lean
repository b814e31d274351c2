import MipClients.RustConnections

/-! The tasks of the Rust client's earlier connections. All generations of tasks share `connected`,
`running` and the counter of the message ids; after a loss no one stops the ping task, which then
takes a later connection for its own. -/
namespace MipClients
namespace Rust

open State Transition

/-- The connection whose read or ping task has changed `connected`, passed its check or taken a
message id. -/
def Entry.act : Entry → Option ℕ
  | .cleared c | .pingPassed c | .pingId c => some c
  | _ => none

/-- Once `connect()` has stored `connected = true`, no task of an earlier connection acts. -/
def Apart (s : State) : Prop := ∀ newer c older, s.log = newer ++ .stored c :: older →
  ∀ e ∈ newer, ∀ d ∈ e.act, c ≤ d

def PingTask.gone : PingTask → Bool
  | .absent | .ended => true
  | _ => false

def Connection.finished (k : Connection) : Bool := k.read.past && k.ping.gone

def Owner.storesNext : Owner → Option ℕ
  | .storing c => some c
  | _ => none

/-- When `connect()` stores `connected = true`, the tasks of all earlier connections are over. -/
def StoresLast (s : State) (e : Event) : Prop :=
  ∀ c ∈ s.owner.storesNext, e.actor = .owner → ∀ d < c, (s.connections d).finished = true

instance (s : State) (e : Event) : Decidable (StoresLast s e) :=
  inferInstanceAs (Decidable (∀ c ∈ s.owner.storesNext, _))

structure Generations (s : State) : Prop where
  latest : SpawnsLatest s
  logged : ∀ c, .stored c ∈ s.log → c < s.opened
  finished : ∀ c, .stored c ∈ s.log → ∀ d < c, (s.connections d).finished = true
  apart : Apart s

theorem PingFlow.gone {s t : State} {c : ℕ} (h : PingFlow s c t)
    (hp : (s.connections c).ping.gone = true) :
    (t.connections c).ping.gone = true ∨ s.owner = .writeSpawned c := by
  cases h with
  | kept ht => exact .inl (by rw [ht,hp])
  | spawned ho => exact .inr ho
  | ended ht => exact .inl (by rw [ht]; rfl)
  | ticked hs | passed hs | idTaken frame hs | sent frame hs =>
    rw [hs] at hp
    cases hp

theorem Move.finished {s t : State} {a : Actor} (h : Move s a t) {c : ℕ}
    (hs : (s.connections c).finished = true) : (t.connections c).finished = true ∨
      s.owner = .stored c ∨ s.owner = .writeSpawned c := by
  obtain ⟨hr,hp⟩ := Bool.and_eq_true_iff.mp hs
  rcases h.read_past hr with hr | ho
  · rcases (h.pingFlow c).gone hp with hp | ho
    · exact .inl (Bool.and_eq_true_iff.mpr ⟨hr,hp⟩)
    · exact .inr (.inr ho)
  · exact .inr (.inl ho)

theorem Records.not_finished {s : State} {a : Actor} {e : Entry} (h : Records s a e) {d : ℕ}
    (hd : d ∈ e.act) : (s.connections d).finished = false := by
  cases h with
  | cleared c lost hr =>
    cases hd
    rw [Connection.finished,hr]
    rfl
  | pingPassed c hp | pingId c hp =>
    cases hd
    rw [Connection.finished,hp]
    exact Bool.and_false _
  | callback a e he =>
    cases e with
    | onConnect | onDisconnect | onReconnecting | onError => cases hd
    | _ => cases he
  | _ => cases hd

theorem Move.stored_mem {s t : State} {a : Actor} (h : Move s a t) {c : ℕ}
    (hc : .stored c ∈ t.log) : .stored c ∈ s.log ∨ a = .owner ∧ s.owner = .storing c := by
  rcases h.log with hl | ⟨x,hl,hx⟩
  · exact .inl (hl ▸ hc)
  · rcases List.mem_cons.mp (hl ▸ hc) with rfl | hc
    · cases hx with
      | stored _ ho => exact .inr ⟨rfl,ho⟩
      | callback a e he => cases he
    · exact .inl hc

namespace Generations

variable {s t : State} {a : Actor}

theorem logged_move (hI : Generations s) (h : Move s a t) {c : ℕ} (hc : .stored c ∈ t.log) :
    c < t.opened := by
  refine lt_of_lt_of_le ?_ h.opened_le
  rcases h.stored_mem hc with hc | ⟨-,ho⟩
  · exact hI.logged c hc
  · have := hI.latest c (by rw [ho]; rfl)
    omega

theorem finished_move (hI : Generations s) (h : Move s a t) {c d : ℕ} (hc : .stored c ∈ s.log)
    (hd : d < c) : (t.connections d).finished = true := by
  have hlog := hI.logged c hc
  rcases h.finished (hI.finished c hc d hd) with hd | ho | ho
  · exact hd
  · have := hI.latest d (by rw [ho]; rfl)
    omega
  · have := hI.latest d (by rw [ho]; rfl)
    omega

/-- What a step adds to the history comes from a task that is not over. -/
theorem apart_move (hI : Generations s) (h : Move s a t) : Apart t := by
  intro newer c older hsplit
  rcases h.log with hl | ⟨x,hl,hx⟩
  · exact hI.apart newer c older (hl ▸ hsplit)
  · rw [hl] at hsplit
    cases newer with
    | nil => exact nofun
    | cons y newer =>
      obtain ⟨rfl,hs⟩ := List.cons_eq_cons.mp hsplit
      intro z hz d hd
      rcases List.mem_cons.mp hz with rfl | hz
      · by_contra hlt
        have hc : Entry.stored c ∈ s.log := by rw [hs]; simp
        cases (hI.finished c hc d (by omega)).symm.trans (hx.not_finished hd)
      · exact hI.apart newer c older hs z hz d hd

theorem step {e : Event} (hI : Generations s) (hC : StoresLast s e)
    (h : Rust.step s e = some t) : Generations t where
  latest := hI.latest.move (step_move h)
  logged _ := hI.logged_move (step_move h)
  finished c hc d hd := by
    rcases (step_move h).stored_mem hc with hc | ⟨ha,ho⟩
    · exact hI.finished_move (step_move h) hc hd
    · have hs := hC c (by rw [ho]; rfl) ha d hd
      rcases (step_move h).finished hs with ht | ht | ht
      · exact ht
      · cases ho.symm.trans ht
      · cases ho.symm.trans ht
  apart := hI.apart_move (step_move h)

end Generations

theorem generations_init (options : MIPClientOptions) : Generations (init options) where
  latest _ := nofun
  logged _ := nofun
  finished _ := nofun
  apart newer c older h := by
    have := congrArg List.length h
    simp [init] at this

/-- In a run in which each `connect()` finds the tasks of the earlier connections over, no task acts
on a later connection. -/
theorem generations_apart (options : MIPClientOptions) (events : List Event)
    (hC : ∀ p ∈ steps step (init options) events, StoresLast p.1 p.2) :
    ∀ s ∈ states step (init options) events, Apart s := by
  intro s hs
  have hI : Generations s := invariant_of_steps (fun _ _ _ hI hC h => hI.step hC h)
    (generations_init options) hC s hs
  exact hI.apart

def lostRun : List Event :=
  connectRun ++ [.readStep 0,.read 0 .eof] ++ List.replicate 4 (.readStep 0)

/-- The ping task notices the loss before the next `connect()`. -/
theorem generations_apart_noticed : ∃ s ∈ run step (init { pingIntervalMs := 1000 })
    (lostRun ++ [.tick 0,.connectCall,.tcpConnected,.advance 6]),
    .stored 1 ∈ s.log ∧ Apart s := by
  have hrun : ∃ s ∈ run step (init { pingIntervalMs := 1000 })
      (lostRun ++ [.tick 0,.connectCall,.tcpConnected,.advance 6]), .stored 1 ∈ s.log := by
    decide +kernel
  obtain ⟨s,hs,hlog⟩ := hrun
  exact ⟨s,hs,hlog,generations_apart { pingIntervalMs := 1000 } _ (by decide +kernel) s
    (run_mem_states hs)⟩

/-- The connection is made anew between two ticks: the ping task of the lost one sees `connected`
and `running` set again. -/
theorem generations_not_apart : ¬∀ (options : MIPClientOptions) (events : List Event),
    ∀ s ∈ states step (init options) events, Apart s := by
  intro h
  have hrun : ∃ s ∈ run step (init { pingIntervalMs := 1000 })
      (lostRun ++ [.connectCall,.tcpConnected,.advance 6,.tick 0,.pingStep 0 7]),
      s.log.take 2 = [.pingPassed 0,.stored 1] := by
    decide +kernel
  obtain ⟨s,hs,hlog⟩ := hrun
  have hsplit : s.log = [.pingPassed 0] ++ .stored 1 :: s.log.drop 2 := by
    rw [← List.take_append_drop 2 s.log,hlog]
    rfl
  have := h _ _ s (run_mem_states hs) _ 1 _ hsplit (.pingPassed 0) (by simp) 0 rfl
  omega

end Rust
end MipClients
