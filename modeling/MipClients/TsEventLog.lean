import MipClients.TsTimers

/-! The events of the TypeScript client in the order it emits them: losses alternate with connections,
and the attempts announced after a connection are numbered from one. -/
namespace MipClients
namespace Ts

open Transition

def Linked (log : List Entry) : Prop :=
  ∃ after before, log = after ++ .emit .connect :: before ∧ .emit .disconnect ∉ after

/-- The numbers of the 'reconnecting' events since the last 'connect' event, the first one first. -/
def announcements : List Entry → List ℕ
  | [] => []
  | .emit .connect :: _ => []
  | .emit (.reconnecting attempt) :: log => announcements log ++ [attempt]
  | _ :: log => announcements log

/-- The 'disconnect' and 'reconnecting' events of a history, with at most `max` attempts where that
is positive. -/
structure WellFormed (max : ℕ) (log : List Entry) : Prop where
  disconnects : ∀ l, .emit .disconnect :: l <:+ log → Linked l
  numbers : ∀ l, l <:+ log → announcements l = List.range' 1 (announcements l).length
  bounded : ∀ l, l <:+ log → 0 < max → ∀ n ∈ announcements l, n ≤ max

def Entry.unnumbered : Entry → Bool
  | .emit e => e.plain
  | _ => true

/-- What `connected` and `reconnectAttempts` tell of the history. -/
structure Logged (max : ℕ) (s : State) : Prop where
  limit : s.options.maxReconnectAttempts = max
  linked : s.connected = true → Linked s.log
  numbers : announcements s.log = List.range' 1 s.reconnectAttempts
  bounded : 0 < max → s.reconnectAttempts ≤ max
  wellFormed : WellFormed max s.log

theorem announcements_cons {e : Entry} (he : e.unnumbered = true) (log : List Entry) :
    announcements (e :: log) = announcements log := by
  cases e with
  | emit e => cases e <;> first | rfl | cases he
  | _ => rfl

theorem Linked.cons {log : List Entry} (h : Linked log) {e : Entry} (he : e ≠ .emit .disconnect) :
    Linked (e :: log) := by
  obtain ⟨after,before,rfl,hafter⟩ := h
  exact ⟨e :: after,before,rfl,List.not_mem_cons_of_ne_of_not_mem he.symm hafter⟩

theorem WellFormed.cons {max : ℕ} {log : List Entry} (h : WellFormed max log) {e : Entry}
    (hlinked : e = .emit .disconnect → Linked log) {n : ℕ}
    (hn : announcements (e :: log) = List.range' 1 n) (hmax : 0 < max → n ≤ max) :
    WellFormed max (e :: log) where
  disconnects l hl := by
    rcases List.suffix_cons_iff.mp hl with hl | hl
    · injection hl with h1 h2
      rw [h2]
      exact hlinked h1.symm
    · exact h.disconnects l hl
  numbers l hl := by
    rcases List.suffix_cons_iff.mp hl with rfl | hl
    · rw [hn,List.length_range']
    · exact h.numbers l hl
  bounded l hl hpos m hm := by
    rcases List.suffix_cons_iff.mp hl with rfl | hl
    · rw [hn,List.mem_range'_1] at hm
      have hle := hmax hpos
      omega
    · exact h.bounded l hl hpos m hm

/-- Entries without a bearing on the numbering change nothing, as long as the client does not become
connected. -/
theorem Logged.quiet {max : ℕ} {s t : State} (h : Logged max s) (hoptions :
    t.options.maxReconnectAttempts = s.options.maxReconnectAttempts)
    (hconnected : t.connected = true → s.connected = true)
    (hattempts : t.reconnectAttempts = s.reconnectAttempts)
    (hlog : Adds (fun e => e.unnumbered = true) s.log t.log) : Logged max t := by
  obtain ⟨l,hl,hquiet⟩ := hlog
  have hgrown : ∀ l : List Entry, (∀ e ∈ l, e.unnumbered = true) →
      (s.connected = true → Linked (l ++ s.log)) ∧
      announcements (l ++ s.log) = List.range' 1 s.reconnectAttempts ∧
      WellFormed max (l ++ s.log) := by
    intro l hl
    induction l with
    | nil => exact ⟨h.linked,h.numbers,h.wellFormed⟩
    | cons e l ih =>
      obtain ⟨he,hl⟩ := List.forall_mem_cons.mp hl
      obtain ⟨hlinked,hnumbers,hwell⟩ := ih hl
      have hne : e ≠ .emit .disconnect := by rintro rfl; cases he
      have hn := (announcements_cons he (l ++ s.log)).trans hnumbers
      exact ⟨fun hc => (hlinked hc).cons hne,hn,hwell.cons (fun h => absurd h hne) hn h.bounded⟩
  obtain ⟨hlinked,hnumbers,hwell⟩ := hgrown l hquiet
  rw [← hl] at hlinked hnumbers hwell
  exact ⟨hoptions.trans h.limit,fun hc => hlinked (hconnected hc),hattempts ▸ hnumbers,
    fun hpos => hattempts ▸ h.bounded hpos,hwell⟩

theorem Logged.proceeds {max : ℕ} {s t : State} (h : Logged max s) (hp : Proceeds s t) :
    Logged max t := by
  cases hp with
  | finish buffer => exact h.quiet rfl id rfl (.refl _)
  | emit buffer he hk => exact h.quiet rfl id rfl (.cons (.refl _) he)
  | maxReached r hauto htimer hmax =>
    have hm : Adds (fun e => e.unnumbered = true) s.log (.maxReached :: s.log) :=
      .cons (.refl _) rfl
    exact h.quiet rfl id rfl (hm.cons rfl)
  | reconnecting r hauto htimer hmax =>
    have hle : 0 < max → s.reconnectAttempts + 1 ≤ max := by
      intro hpos
      rw [h.limit,not_and,Nat.not_le] at hmax
      exact hmax hpos
    have hn : announcements (.emit (.reconnecting (s.reconnectAttempts + 1)) :: s.log) =
        List.range' 1 (s.reconnectAttempts + 1) := by
      rw [announcements,h.numbers,List.range'_1_concat,Nat.add_comm 1]
    exact ⟨h.limit,fun hc => (h.linked hc).cons nofun,hn,hle,h.wellFormed.cons nofun hn hle⟩

theorem Logged.handleClose {max : ℕ} {s : State} (h : Logged max s) (r : Return) :
    Logged max (s.handleClose r) := by
  have hlost : Logged max { s with connected := false }.cleanup :=
    h.quiet rfl nofun rfl (.refl _)
  rcases s.handleClose_cases r with ⟨hc,he⟩ | ⟨-,hp⟩
  · rw [he]
    refine ⟨h.limit,nofun,h.numbers,h.bounded,?_⟩
    exact h.wellFormed.cons (fun _ => h.linked hc) h.numbers h.bounded
  · exact hlost.proceeds hp

theorem Logged.connect {max : ℕ} {s : State} (h : Logged max s) (retry : Bool) :
    Logged max (s.connect retry) := by
  unfold State.connect
  split_ifs
  · exact h
  · exact h.quiet rfl id rfl (.cons (.refl _) rfl)

theorem Logged.sayHello {max : ℕ} {s : State} (h : Logged max s) (i : ℕ) (now : ℤ) :
    Logged max (s.sayHello i now) := by
  rcases s.sayHello_cases i now with ⟨j,bytes,-,-,-,hh⟩ | ⟨-,n,error,hh⟩ <;> rw [hh]
  · exact h.quiet rfl id rfl (.cons (.refl _) rfl)
  · exact h.quiet rfl id rfl (.cons (.refl _) rfl)

theorem logged_step {max : ℕ} (s : State) (e : Event) (t : State) (h : Logged max s)
    (hs : step s e = some t) : Logged max t := by
  cases step_move hs with
  | connectCall now =>
    have hc : Logged max { s with log := .connectCall :: s.log } :=
      h.quiet rfl id rfl (.cons (.refl _) rfl)
    exact hc.connect false
  | disconnectCall now =>
    obtain ⟨n,sockets,hd⟩ := s.disconnect_eq now
    rw [hd]
    exact h.quiet rfl nofun rfl (.cons (.refl _) rfl)
  | sends he hsent =>
    obtain ⟨n,sockets,rfl⟩ := hsent.eq
    exact h.quiet rfl id rfl (.refl _)
  | throws hk => exact h.quiet rfl id rfl (.refl _)
  | sayHello now hk => exact h.sayHello _ now
  | helloFailed now hk => exact h.quiet rfl id rfl (.refl _)
  | destroy now hk hsocket => exact h.quiet rfl id rfl (.refl _)
  | setReconnectTimer now hk hp =>
    have hset : Logged max { s with
        reconnectTimer := some s.nextTimer
        timeouts := s.nextTimer :: s.timeouts
        nextTimer := s.nextTimer + 1 } := h.quiet rfl id rfl (.refl _)
    exact hset.proceeds hp
  | proceeds now hk hr hg hc ht hp => exact h.proceeds hp
  | @closeFrame i r now hc =>
    have hd : Logged max (s.updateSocket i Socket.deliverClose) := h.quiet rfl id rfl (.refl _)
    exact hd.handleClose r
  | @connect i hidle hopen hphase =>
    obtain ⟨timer,intervals,n,ho⟩ := (s.updateSocket i Socket.emitConnect).onConnect_eq i
    rw [ho]
    exact ⟨h.limit,fun _ => ⟨[],s.log,rfl,nofun⟩,rfl,fun _ => Nat.zero_le _,
      h.wellFormed.cons nofun (n := 0) rfl fun _ => Nat.zero_le _⟩
  | @error i message hidle hopen hphase hfirst =>
    obtain ⟨sockets,n,ho⟩ := (s.updateSocket i Socket.emitError).onError_eq i message
    rw [ho]
    exact h.quiet rfl id rfl (.cons (.refl _) rfl)
  | @laterError i t message hidle hp =>
    have hd : Logged max (s.updateSocket i Socket.emitError) := h.quiet rfl id rfl (.refl _)
    exact hd.proceeds hp
  | @data i data hidle hopen hphase =>
    have hd : Logged max (s.updateSocket i (Socket.receive data)) :=
      h.quiet rfl id rfl (.refl _)
    exact hd.proceeds (State.loop_proceeds _ _ i)
  | @close i hidle hopen hphase =>
    have hd : Logged max (s.updateSocket i Socket.emitClose) := h.quiet rfl id rfl (.refl _)
    exact hd.handleClose .done
  | @timeout timer hidle hlive =>
    have hc : Logged max { s with
        timeouts := clear (some timer) s.timeouts
        reconnectTimer := none
        log := .retry :: s.log } := h.quiet rfl id rfl (.cons (.refl _) rfl)
    exact hc.connect true
  | rejection hidle hpending hauto => exact h.quiet rfl id rfl (.refl _)
  | reschedule hidle hpending hp =>
    have hd : Logged max { s with rejections := s.rejections - 1 } :=
      h.quiet rfl id rfl (.refl _)
    exact hd.proceeds hp

/-- In every state of every run, at most one reconnect timeout is live and it is the one held in
`reconnectTimer`, there is a 'connect' event before the first and between any two 'disconnect'
events, and the 'reconnecting' events since the last 'connect' event are numbered 1, 2, 3, ... up to
`maxReconnectAttempts` at most. -/
theorem events_wellFormed (options : Options) (events : List Event) :
    ∀ s ∈ states step (init options) events,
      (s.timeouts.length ≤ 1 ∧ ∀ timer ∈ s.timeouts, s.reconnectTimer = some timer) ∧
      WellFormed options.maxReconnectAttempts s.log := by
  have hinit : Logged options.maxReconnectAttempts (init options) := by
    refine ⟨rfl,nofun,rfl,fun _ => Nat.zero_le _,?_,?_,?_⟩
    · intro l hl
      simp [init] at hl
    · intro l hl
      rw [List.suffix_nil.mp hl]
      rfl
    · intro l hl
      rw [List.suffix_nil.mp hl]
      nofun
  intro s hs
  have htimer := (timerHeld options events s hs).held
  refine ⟨⟨?_,fun timer hlive => htimer.timer_eq hlive⟩,?_⟩
  · rw [htimer]
    cases s.reconnectTimer <;> simp
  · exact (invariant logged_step hinit events s hs).wellFormed

def lossRun : List Event :=
  [.call .connect 0,.host (.connect 0),.listenersReturn 0,.host (.close 0),.listenersReturn 0,
    .listenersReturn 0]

theorem events_wellFormed_lossRun : ∃ s ∈ run step (init {}) lossRun, s.timeouts.length = 1 ∧
    s.reconnectTimer = some 0 ∧ WellFormed 10 s.log := by
  have hrun : ∃ s ∈ run step (init {}) lossRun, s.timeouts = [0] := by decide +kernel
  obtain ⟨s,hs,hlive⟩ := hrun
  have hw := events_wellFormed {} lossRun s (run_mem_states hs)
  exact ⟨s,hs,by rw [hlive]; rfl,hw.1.2 0 (by simp [hlive]),hw.2⟩

end Ts
end MipClients
