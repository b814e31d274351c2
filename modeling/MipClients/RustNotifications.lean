import Mathlib.Data.List.Perm.Subperm
import MipClients.RustGenerations

/-! The `on_disconnect` callbacks of the Rust client. The read tasks of all connections and
`disconnect()` clear the same flag, and a task runs the callbacks only if it was the one to clear it. -/
namespace MipClients
namespace Rust

open State Transition

def Entry.storedFor : Entry → Option ℕ
  | .stored c => some c
  | _ => none

def Entry.clearedBy : Entry → Option ℕ
  | .cleared c => some c
  | _ => none

def Entry.notifiedBy : Entry → Option ℕ
  | .onDisconnect c => some c
  | _ => none

def stores (log : List Entry) : List ℕ := log.filterMap Entry.storedFor

def clears (log : List Entry) : List ℕ := log.filterMap Entry.clearedBy

/-- The connections whose read tasks have run the `on_disconnect` callbacks. -/
def notifications (log : List Entry) : List ℕ := log.filterMap Entry.notifiedBy

def ReadTask.owes : ReadTask → ℕ
  | .swapped true _ => 1
  | _ => 0

def ReadTask.stands : ReadTask → Bool
  | .absent | .done => true
  | _ => false

theorem ReadTask.stands_of_looping {r : ReadTask} (h : r.looping = true) : r.stands = false := by
  cases r with
  | checking | reading | handling => rfl
  | _ => cases h

/-- The read task `r` may turn into `r'` without clearing the flag or running the callbacks. -/
structure ReadTask.Turns (r r' : ReadTask) : Prop where
  owes : r'.owes ≤ r.owes
  past : r.past = true → r'.past = true
  stands : r.stands = true → r'.stands = true

theorem ReadTask.Turns.refl (r : ReadTask) : r.Turns r := ⟨le_rfl,id,id⟩

theorem ReadTask.Turns.of_looping {r r' : ReadTask} (h : r.looping = true) (hr : r'.owes = 0) :
    r.Turns r' where
  owes := hr.trans_le (Nat.zero_le _)
  past hp := by
    rw [past_of_looping h] at hp
    cases hp
  stands hs := by
    rw [stands_of_looping h] at hs
    cases hs

theorem turns_update {s : State} {c : ℕ} {k : Connection}
    (h : (s.connections c).read.Turns k.read) (d : ℕ) :
    (s.connections d).read.Turns (Function.update s.connections c k d).read := by
  by_cases hd : d = c
  · subst hd
    rwa [Function.update_self]
  · rw [Function.update_of_ne hd]
    exact .refl _

inductive Notice (s t : State) : Prop
  | quiet (hs : stores t.log = stores s.log) (hc : clears t.log = clears s.log)
      (hn : notifications t.log = notifications s.log)
      (hconnected : t.connected = true → s.connected = true)
      (hread : ∀ c, (s.connections c).read.Turns (t.connections c).read ∨
        s.owner = .stored c ∧ t.owner = .readSpawned c ∧ (t.connections c).read = .checking) :
      Notice s t
  | stored (c : ℕ) (hlog : t.log = .stored c :: s.log) (hk : t.connections = s.connections) :
      Notice s t
  | cleared (c : ℕ) (lost : Bool) (hr : (s.connections c).read = .leaving lost)
      (hlog : t.log = .cleared c :: s.log) (hconnected : t.connected = false)
      (hk : t.connections = Function.update s.connections c
        { s.connections c with read := .swapped true lost }) : Notice s t
  | notified (c : ℕ) (lost : Bool) (hr : (s.connections c).read = .swapped true lost)
      (hlog : t.log = .onDisconnect c :: s.log) (hconnected : t.connected = s.connected)
      (hk : t.connections = Function.update s.connections c
        { s.connections c with read := .reported lost }) : Notice s t

theorem Notice.elsewhere {s t : State} (hs : stores t.log = stores s.log)
    (hc : clears t.log = clears s.log) (hn : notifications t.log = notifications s.log)
    (hconnected : t.connected = true → s.connected = true)
    (hread : ∀ c, (t.connections c).read = (s.connections c).read) : Notice s t :=
  .quiet hs hc hn hconnected fun c => .inl (by rw [hread]; exact .refl _)

theorem read_update {s : State} {c : ℕ} {k : Connection} (h : k.read = (s.connections c).read)
    (d : ℕ) : (Function.update s.connections c k d).read = (s.connections d).read := by
  by_cases hd : d = c
  · subst hd
    rwa [Function.update_self]
  · rw [Function.update_of_ne hd]

theorem OwnerMove.notice {s t : State} (h : OwnerMove s t) : Notice s t := by
  cases h with
  | stored c => exact .stored c rfl rfl
  | readSpawned c ho =>
    refine .quiet rfl rfl rfl id fun d => ?_
    by_cases hd : d = c
    · subst hd
      exact .inr ⟨ho,rfl,by simp [spawnReadTask]⟩
    · exact .inl (by simp [spawnReadTask,hd,ReadTask.Turns.refl])
  | writeSpawned c => exact .elsewhere rfl rfl rfl id (read_update rfl)
  | pingSpawned c =>
    unfold spawnPingTask
    split_ifs
    · exact .elsewhere rfl rfl rfl id fun _ => rfl
    · exact .elsewhere rfl rfl rfl id (read_update rfl)
  | helloAccepted c msgId frame k ho hk =>
    exact .elsewhere rfl rfl rfl id (read_update (Connection.trySend_eq_some hk).read)
  | helloCleared | cleared => exact .elsewhere rfl rfl rfl nofun fun _ => rfl
  | closeSent c frame k ho hk =>
    rcases Connection.send_eq_some hk with ⟨-,rfl⟩ | hq
    · exact .elsewhere rfl rfl rfl id (read_update rfl)
    · exact .elsewhere rfl rfl rfl id (read_update hq.read)
  | disconnectSent c k ho hk =>
    rcases Connection.send_eq_some hk with ⟨-,rfl⟩ | hq
    · exact .elsewhere rfl rfl rfl id (read_update rfl)
    · exact .elsewhere rfl rfl rfl id (read_update hq.read)
  | pingAborted =>
    unfold abortPing
    split
    · exact .elsewhere rfl rfl rfl id (read_update rfl)
    · exact .elsewhere rfl rfl rfl id fun _ => rfl
  | readAborted =>
    unfold abortRead
    split
    · exact .elsewhere rfl rfl rfl id (read_update rfl)
    · exact .elsewhere rfl rfl rfl id fun _ => rfl
  | _ => exact .elsewhere rfl rfl rfl id fun _ => rfl

theorem CallerMove.notice {s t : State} {k : ℕ} (h : CallerMove s k t) : Notice s t := by
  cases h with
  | accepted call c msgId connection hk =>
    exact .elsewhere rfl rfl rfl id (read_update (Connection.trySend_eq_some hk).read)
  | _ => exact .elsewhere rfl rfl rfl id fun _ => rfl

theorem WriteMove.notice {s t : State} {c : ℕ} (h : WriteMove s c t) : Notice s t := by
  cases h <;> exact .elsewhere rfl rfl rfl id (read_update rfl)

theorem PingMove.notice {s t : State} {c : ℕ} (h : PingMove s c t) : Notice s t := by
  cases h with
  | sent frame k hp hk =>
    rcases Connection.send_eq_some hk with ⟨-,rfl⟩ | hq
    · exact .elsewhere rfl rfl rfl id (read_update rfl)
    · exact .elsewhere rfl rfl rfl id (read_update hq.read)
  | _ => exact .elsewhere rfl rfl rfl id (read_update rfl)

theorem Notice.turn {s t : State} {c : ℕ} {k : Connection} (hs : stores t.log = stores s.log)
    (hc : clears t.log = clears s.log) (hn : notifications t.log = notifications s.log)
    (hconnected : t.connected = s.connected) (hk : t.connections = Function.update s.connections c k)
    (hturns : (s.connections c).read.Turns k.read) : Notice s t :=
  .quiet hs hc hn (fun h => hconnected ▸ h) fun d => .inl (by rw [hk]; exact turns_update hturns d)

theorem ReadMove.notice {s t : State} {c : ℕ} (h : ReadMove s c t) : Notice s t := by
  cases h with
  | received data hr =>
    exact .turn rfl rfl rfl rfl rfl (.of_looping (by rw [hr]; rfl) rfl)
  | handled out rest r hr hmem =>
    have howes : ∀ r ∈ [ReadTask.handling,.checking], r.owes = 0 := by decide
    exact .turn rfl rfl rfl rfl rfl (.of_looping (by rw [hr]; rfl) (howes r hmem))
  | before r hr hmem =>
    have howes : ∀ r ∈ [ReadTask.checking,.reading,.leaving false,.leaving true,.failing],
        r.owes = 0 := by decide
    exact .turn rfl rfl rfl rfl rfl (.of_looping hr (howes r hmem))
  | failed hr => exact .turn rfl rfl rfl rfl rfl (by rw [hr]; exact ⟨Nat.zero_le _,nofun,nofun⟩)
  | cleared lost hr => exact .cleared c lost hr rfl rfl rfl
  | unchanged lost hr =>
    exact .turn rfl rfl rfl rfl rfl (by rw [hr]; exact ⟨Nat.zero_le _,nofun,nofun⟩)
  | onDisconnect lost hr => exact .notified c lost hr rfl rfl rfl
  | silent lost hr =>
    exact .turn rfl rfl rfl rfl rfl (by rw [hr]; exact ⟨Nat.zero_le _,fun _ => rfl,nofun⟩)
  | scheduled lost hr =>
    unfold scheduleReconnect
    dsimp only
    split_ifs <;>
      exact .turn rfl rfl rfl rfl rfl (by rw [hr]; exact ⟨Nat.zero_le _,fun _ => rfl,nofun⟩)
  | ended => exact .turn rfl rfl rfl rfl rfl ⟨Nat.zero_le _,fun _ => rfl,fun _ => rfl⟩

theorem Move.notice {s t : State} {a : Actor} (h : Move s a t) : Notice s t := by
  cases h with
  | owner h => exact h.notice
  | caller k h => exact h.notice
  | read c h => exact h.notice
  | write c h => exact h.notice
  | ping c h => exact h.notice

theorem connected_of_clears {s t : State} {e : Event} {c : ℕ} (h : step s e = some t)
    (hlog : t.log = .cleared c :: s.log) : s.connected = true := by
  have hne : t.log ≠ s.log := by
    rw [hlog]
    exact List.cons_ne_self _ _
  rcases (step_move h).log with hl | ⟨x,hl,hx⟩
  · exact absurd hl hne
  · obtain rfl := (List.cons.inj (hl.symm.trans hlog)).1
    generalize ha : e.actor = a at hx
    cases hx with
    | callback _ _ he => cases he
    | cleared c lost hr =>
      cases eq_readStep_of_log h ha hne
      simp only [step,readStep,hr] at h
      by_contra hno
      rw [if_neg hno] at h
      cases h
      exact hne rfl

def ReadUnspawned (s : State) (c : ℕ) : Prop :=
  s.opened ≤ c ∨ s.owner = .storing c ∨ s.owner = .stored c

theorem Move.readUnspawned {s t : State} {a : Actor} (h : Move s a t) {c : ℕ}
    (ht : ReadUnspawned t c) : ReadUnspawned s c := by
  rcases ht with hopened | ho
  · exact .inl (h.opened_le.trans hopened)
  · rcases h.owner_or with h | ⟨hs,-,-⟩
    · cases h with
      | tcpConnected =>
        simp only [go,onTcpConnected,Owner.storing.injEq,reduceCtorEq,or_false] at ho
        exact .inl ho.le
      | stored d hd =>
        simp only [go,reduceCtorEq,Owner.stored.injEq,false_or] at ho
        exact .inr (.inl (ho ▸ hd))
      | connected => exact .inr ho
      | _ => simp [go] at ho
    · exact .inr (hs ▸ ho)

/-- The bound, as every step keeps it: stores pay for clears, and clears for the callbacks. -/
structure Notified (s : State) : Prop where
  latest : SpawnsLatest s
  readUnspawned : ∀ c, ReadUnspawned s c → (s.connections c).read.stands = true ∧
    (clears s.log).count c = 0
  cleared : ∀ c, (clears s.log).count c ≤ (s.connections c).read.past.toNat
  notified : ∀ c, (notifications s.log).count c + (s.connections c).read.owes ≤
    (clears s.log).count c
  stored : (clears s.log).length + s.connected.toNat ≤ (stores s.log).length

section Step

variable {s t : State} {e : Event}

theorem Notified.unspawned (hI : Notified s) (h : Rust.step s e = some t) {c : ℕ}
    (ht : ReadUnspawned t c) :
    (s.connections c).read.stands = true ∧ (clears s.log).count c = 0 :=
  hI.readUnspawned c ((step_move h).readUnspawned ht)

theorem Notified.turn (hI : Notified s) (h : Rust.step s e = some t) {c : ℕ} {k : Connection}
    (hk : t.connections = Function.update s.connections c k)
    (hwork : (s.connections c).read.stands = false)
    (hclears : ∀ d ≠ c, (clears t.log).count d = (clears s.log).count d)
    (hnotes : ∀ d ≠ c, (notifications t.log).count d = (notifications s.log).count d)
    (hcleared : (clears t.log).count c ≤ k.read.past.toNat)
    (hnotified : (notifications t.log).count c + k.read.owes ≤ (clears t.log).count c)
    (hstored : (clears t.log).length + t.connected.toNat ≤ (stores t.log).length) :
    Notified t := by
  refine ⟨hI.latest.move (step_move h),fun d ht => ?_,fun d => ?_,fun d => ?_,hstored⟩
  · obtain ⟨hstands,hcount⟩ := hI.unspawned h ht
    have hd : d ≠ c := by
      rintro rfl
      exact Bool.eq_false_iff.mp hwork hstands
    rw [hk,hclears d hd,Function.update_of_ne hd]
    exact ⟨hstands,hcount⟩
  · by_cases hd : d = c
    · subst hd
      rwa [hk,Function.update_self]
    · rw [hk,hclears d hd,Function.update_of_ne hd]
      exact hI.cleared d
  · by_cases hd : d = c
    · subst hd
      rwa [hk,Function.update_self]
    · rw [hk,hclears d hd,hnotes d hd,Function.update_of_ne hd]
      exact hI.notified d

theorem Notified.step (hI : Notified s) (h : Rust.step s e = some t) : Notified t := by
  have hlatest := hI.latest.move (step_move h)
  cases (step_move h).notice with
  | quiet hs hc hn hconnected hread =>
    refine ⟨hlatest,fun c ht => ?_,fun c => ?_,fun c => ?_,?_⟩
    · obtain ⟨hstands,hcount⟩ := hI.unspawned h ht
      rw [hc]
      refine ⟨?_,hcount⟩
      rcases hread c with hturns | ⟨ho,ho',-⟩
      · exact hturns.stands hstands
      · -- the task is being spawned
        rcases ht with hopened | ht
        · have hlt := hI.latest c (by rw [ho]; rfl)
          have hle := (step_move h).opened_le
          omega
        · rw [ho'] at ht
          simp at ht
    · rw [hc]
      rcases hread c with hturns | ⟨ho,-,-⟩
      · refine (hI.cleared c).trans ?_
        cases hp : (s.connections c).read.past with
        | false => exact Nat.zero_le _
        | true => rw [hturns.past hp]
      · rw [(hI.readUnspawned c (.inr (.inr ho))).2]
        exact Nat.zero_le _
    · rw [hc,hn]
      have hbefore := hI.notified c
      rcases hread c with hturns | ⟨-,-,ht⟩
      · have := hturns.owes
        omega
      · have howes : ReadTask.checking.owes = 0 := rfl
        rw [ht,howes]
        omega
    · rw [hc,hs]
      have hbefore := hI.stored
      cases ht : t.connected with
      | false =>
        rw [Bool.toNat_false]
        omega
      | true => rwa [hconnected ht] at hbefore
  | stored c hlog hk =>
    have hclears : clears t.log = clears s.log := by rw [hlog]; rfl
    have hnotes : notifications t.log = notifications s.log := by rw [hlog]; rfl
    have hstores : stores t.log = c :: stores s.log := by rw [hlog]; rfl
    refine ⟨hlatest,fun d ht => ?_,?_,?_,?_⟩
    · rw [hk,hclears]
      exact hI.unspawned h ht
    · rw [hk,hclears]
      exact hI.cleared
    · rw [hk,hclears,hnotes]
      exact hI.notified
    · have := hI.stored
      have := Bool.toNat_le t.connected
      rw [hclears,hstores,List.length_cons]
      omega
  | cleared c lost hr hlog hconnected hk =>
    have hclears : clears t.log = c :: clears s.log := by rw [hlog]; rfl
    have hnotes : notifications t.log = notifications s.log := by rw [hlog]; rfl
    have hstores : stores t.log = stores s.log := by rw [hlog]; rfl
    -- the task clears the flag for the first time
    have hnone : (clears s.log).count c = 0 := by
      have hbefore := hI.cleared c
      rw [hr] at hbefore
      exact Nat.le_zero.mp hbefore
    refine hI.turn h hk (by rw [hr]; rfl) (fun d hd => ?_) (fun d _ => by rw [hnotes]) ?_ ?_ ?_
    · rw [hclears,List.count_cons_of_ne hd.symm]
    · rw [hclears,List.count_cons_self,hnone]
      exact le_rfl
    · have hbefore := hI.notified c
      rw [hclears,hnotes,List.count_cons_self,ReadTask.owes]
      omega
    · have hbefore := hI.stored
      rw [connected_of_clears h hlog,Bool.toNat_true] at hbefore
      rw [hclears,hstores,hconnected,List.length_cons,Bool.toNat_false]
      exact hbefore
  | notified c lost hr hlog hconnected hk =>
    have hclears : clears t.log = clears s.log := by rw [hlog]; rfl
    have hnotes : notifications t.log = c :: notifications s.log := by rw [hlog]; rfl
    have hstores : stores t.log = stores s.log := by rw [hlog]; rfl
    refine hI.turn h hk (by rw [hr]; rfl) (fun d _ => by rw [hclears]) (fun d hd => ?_) ?_ ?_ ?_
    · rw [hnotes,List.count_cons_of_ne hd.symm]
    · have hbefore := hI.cleared c
      rw [hr] at hbefore
      rwa [hclears]
    · have hbefore := hI.notified c
      rw [hr] at hbefore
      rw [hclears,hnotes,List.count_cons_self]
      exact hbefore
    · rw [hclears,hstores,hconnected]
      exact hI.stored

end Step

theorem notified_init (options : MIPClientOptions) : Notified (init options) where
  latest _ := nofun
  readUnspawned _ _ := ⟨rfl,rfl⟩
  cleared _ := Nat.zero_le _
  notified _ := Nat.le_refl _
  stored := Nat.le_refl _

/-- In every run, the `on_disconnect` callbacks have been run at most as often as `connect()` has stored
`connected = true`, and at most once by each read task. -/
theorem notifications_bounded (options : MIPClientOptions) (events : List Event) :
    ∀ s ∈ states step (init options) events,
      (notifications s.log).length ≤ (stores s.log).length ∧
        ∀ c, (notifications s.log).count c ≤ 1 := by
  intro s hs
  have hI : Notified s :=
    invariant (fun _ _ _ hI h => hI.step h) (notified_init options) events s hs
  have hcount (c : ℕ) : (notifications s.log).count c ≤ (clears s.log).count c :=
    (Nat.le_add_right _ _).trans (hI.notified c)
  have hclears : (notifications s.log).length ≤ (clears s.log).length :=
    (List.subperm_ext_iff.mpr fun c _ => hcount c).length_le
  refine ⟨hclears.trans ((Nat.le_add_right _ _).trans hI.stored),fun c => ?_⟩
  exact (hcount c).trans ((hI.cleared c).trans (Bool.toNat_le _))

/-- Where the peer ends the connection, its read task runs the callbacks, once. -/
theorem notifications_bounded_lost : ∃ s ∈ run step (init {}) lostRun,
    0 ∈ notifications s.log ∧ (notifications s.log).length ≤ (stores s.log).length ∧
      (notifications s.log).count 0 ≤ 1 := by
  have hrun : ∃ s ∈ run step (init {}) lostRun, 0 ∈ notifications s.log := by decide +kernel
  obtain ⟨s,hs,hnotified⟩ := hrun
  have hbound := notifications_bounded {} lostRun s (run_mem_states hs)
  exact ⟨s,hs,hnotified,hbound.1,hbound.2 0⟩

end Rust
end MipClients
