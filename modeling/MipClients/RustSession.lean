import MipClients.RustAttempts
import MipClients.RustClose
import MipClients.RustNotifications
import MipClients.RustRefusals

/-! The session of the Rust client, as long as `connect()` and `disconnect()` are under way and
between them: which connection its sender belongs to, when `connected` is set, and where that
connection's read task then is. -/
namespace MipClients
namespace Rust

open State Transition

def Owner.connection : Owner → Option ℕ
  | .storing c | .stored c | .readSpawned c | .writeSpawned c | .pingSpawned c | .hello c
  | .helloChecked c | .helloBuilt c _ _ | .closeChecked c | .sendingClose c _
  | .sendingDisconnect c => some c
  | _ => none

def Owner.offline : Owner → Bool
  | .opening | .storing _ | .helloCleared | .dropping => true
  | _ => false

/-- What the call under way, `connected` and the client's sender have to do with each other. -/
structure Stage (s : State) : Prop where
  sender : ∀ c, s.commandTx = some c → c + 1 = s.opened
  inHand : ∀ c, s.owner.connection = some c → s.commandTx = some c
  offline : s.owner.offline = true → s.connected = false
  online : s.connected = true → s.owner ≠ .dropped → s.commandTx ≠ none

/-- `connect()` opens a connection only while `connected` is not set. -/
theorem step_opening {s t : State} {e : Event} (h : step s e = some t) (ht : t.owner = .opening) :
    s.owner = .opening ∨ t.connected = false := by
  by_cases he : e = .connectCall
  · subst he
    obtain ⟨ho,h⟩ := Option.ite_none_right_eq_some.mp h
    cases h
    by_cases hc : s.connected = true
    · rw [State.connect,if_pos hc,ho] at ht
      cases ht
    · rw [State.connect,if_neg hc]
      exact .inr (Bool.not_eq_true _ ▸ hc)
  · by_contra hno
    exact owner_ne_opening h he (fun ho => hno (.inl ho)) ht

theorem step_stopped {s t : State} {e : Event} (h : step s e = some t) (ho : s.owner = .stopped)
    {c : ℕ} (ht : t.owner.connection = some c) :
    t.commandTx = some c ∧ (t.owner = .closeChecked c → t.connected = true) := by
  by_cases ha : e.actor = .owner
  · cases e with
    | advance now =>
      simp only [step,State.advance,ho,Option.some.injEq] at h
      subst h
      cases hsender : s.commandTx with
      | none =>
        simp only [hsender] at ht
        cases ht
      | some d =>
        simp only [hsender] at ht ⊢
        cases hconn : s.connected with
        | true =>
          simp only [hconn,if_true] at ht
          cases ht
          exact ⟨hsender,fun _ => hconn⟩
        | false =>
          simp only [hconn,Bool.false_eq_true,if_false] at ht
          cases ht
          exact ⟨hsender,fun hct => by cases hct⟩
    | connectCall | disconnectCall | tcpConnected | tcpFailed | drop | timeout =>
      cases ho.symm.trans (Option.ite_none_right_eq_some.mp h).1
    | _ => cases ha
  · rw [((step_move h).elsewhere ha).1,ho] at ht
    cases ht

theorem Stage.ownerMove {s t : State} (hI : Stage s) (h : OwnerMove s t)
    (hopening : t.owner = .opening → s.owner = .opening ∨ t.connected = false)
    (hstopped : s.owner = .stopped → ∀ c, t.owner.connection = some c → t.commandTx = some c) :
    Stage t := by
  have hhand {c : ℕ} {owner : Owner} (ho : s.owner = owner) (hc : owner.connection = some c) :
      ∀ d, some c = some d → s.commandTx = some d := by
    rintro d ⟨⟩
    exact hI.inHand c (by rw [ho]; exact hc)
  have hoff {owner : Owner} (ho : s.owner = owner) (hc : owner.offline = true) :
      ¬s.connected = true := by
    rw [hI.offline (by rw [ho]; exact hc)]
    exact Bool.false_ne_true
  have hon {owner : Owner} (ho : s.owner = owner) (hd : owner ≠ .dropped) :
      s.connected = true → s.commandTx ≠ none := fun hc => hI.online hc (by rw [ho]; exact hd)
  cases h with
  | connected ho hc => exact hI
  | opening ho =>
    have hc : s.connected = false := (hopening rfl).elim (fun hs => by cases ho.symm.trans hs) id
    exact ⟨hI.sender,nofun,fun _ => hc,fun hct => by cases hc.symm.trans hct⟩
  | tcpConnected ho =>
    exact ⟨fun c hc => by cases hc; rfl,fun c hc => by cases hc; rfl,
      fun _ => Bool.not_eq_true _ ▸ hoff ho rfl,fun _ _ => nofun⟩
  | tcpFailed ho => exact ⟨hI.sender,nofun,nofun,fun hc => absurd hc (hoff ho rfl)⟩
  | stored c ho =>
    have hsender := hI.inHand c (by rw [ho]; rfl)
    exact ⟨hI.sender,hhand ho rfl,nofun,fun _ _ hnone => by cases hsender.symm.trans hnone⟩
  | readSpawned c ho | writeSpawned c ho | onConnect c ho | helloChecked c ho =>
    exact ⟨hI.sender,hhand ho rfl,nofun,fun hc _ => hon ho nofun hc⟩
  | pingSpawned c ho =>
    obtain ⟨ks,ping,ht⟩ := s.spawnPingTask_eq c
    rw [ht]
    exact ⟨hI.sender,hhand ho rfl,nofun,fun hc _ => hon ho nofun hc⟩
  | helloBuilt c now frame ho =>
    exact ⟨hI.sender,hhand ho rfl,nofun,fun hc _ => hon ho nofun hc⟩
  | helloRefused c ho => exact ⟨hI.sender,nofun,nofun,fun hc _ => hon ho nofun hc⟩
  | helloAccepted c msgId frame k ho hk =>
    exact ⟨hI.sender,nofun,nofun,fun hc _ => hon ho nofun hc⟩
  | helloRejected c msgId frame ho => exact ⟨hI.sender,nofun,nofun,fun hc _ => hon ho nofun hc⟩
  | helloCleared ho => exact ⟨hI.sender,nofun,fun _ => rfl,nofun⟩
  | helloStopped ho => exact ⟨hI.sender,nofun,nofun,fun hc => absurd hc (hoff ho rfl)⟩
  | disconnect ho | stopped ho | notOpened ho =>
    exact ⟨hI.sender,nofun,nofun,fun hc _ => hon ho nofun hc⟩
  | closeChecked c ho | closeLeftOut c ho =>
    exact ⟨hI.sender,hstopped ho,nofun,fun hc _ => hon ho nofun hc⟩
  | sendingClose c now frame ho =>
    exact ⟨hI.sender,hhand ho rfl,nofun,fun hc _ => hon ho nofun hc⟩
  | closeSent c frame k ho hk =>
    exact ⟨hI.sender,hhand ho rfl,nofun,fun hc _ => hon ho nofun hc⟩
  | disconnectSent c k ho hk => exact ⟨hI.sender,nofun,nofun,fun hc _ => hon ho nofun hc⟩
  | pingAborted ho =>
    obtain ⟨ks,ping,ht⟩ := s.abortPing_eq
    rw [ht]
    exact ⟨hI.sender,nofun,nofun,fun hc _ => hon ho nofun hc⟩
  | writeAwaited ho => exact ⟨hI.sender,nofun,nofun,fun hc _ => hon ho nofun hc⟩
  | readAborted ho =>
    obtain ⟨ks,read,ht⟩ := s.abortRead_eq
    rw [ht]
    exact ⟨hI.sender,nofun,nofun,fun hc _ => hon ho nofun hc⟩
  | cleared ho => exact ⟨hI.sender,nofun,fun _ => rfl,nofun⟩
  | disconnected ho => exact ⟨nofun,nofun,nofun,fun hc => absurd hc (hoff ho rfl)⟩
  | dropped ho => exact ⟨nofun,nofun,nofun,fun _ hd => absurd rfl hd⟩

theorem Move.connected_of {s t : State} {a : Actor} (h : Move s a t) (ha : a ≠ .owner)
    (ht : t.connected = true) : s.connected = true := by
  cases h with
  | owner h => exact absurd rfl ha
  | caller k h => cases h <;> exact ht
  | read c h =>
    cases h with
    | scheduled =>
      obtain ⟨ks,attempts,log,heq⟩ := s.scheduleReconnect_eq c
      rw [heq] at ht
      exact ht
    | cleared => cases ht
    | _ => exact ht
  | write c h => cases h <;> exact ht
  | ping c h => cases h <;> exact ht

theorem Stage.step {s t : State} {e : Event} (hI : Stage s) (h : Rust.step s e = some t) :
    Stage t := by
  by_cases ha : e.actor = .owner
  · cases ha ▸ step_move h with
    | owner hm =>
      exact hI.ownerMove hm (step_opening h) fun ho c hc => (step_stopped h ho hc).1
  · obtain ⟨ho,hopened,-,hsender⟩ := (step_move h).elsewhere ha
    have hconn := (step_move h).connected_of ha
    refine ⟨by rw [hsender,hopened]; exact hI.sender,by rw [hsender,ho]; exact hI.inHand,
      fun hoff => ?_,fun hc hd => by rw [hsender]; exact hI.online (hconn hc) (ho ▸ hd)⟩
    by_contra hc
    have := hI.offline (ho ▸ hoff)
    exact absurd (hconn (Bool.not_eq_false _ ▸ hc)) (by rw [this]; exact Bool.false_ne_true)

theorem stage_init (options : MIPClientOptions) : Stage (init options) := by
  refine ⟨fun _ => ?_,fun _ => ?_,fun _ => rfl,fun h => ?_⟩
  · exact nofun
  · exact nofun
  · cases h

/-! What one step does to the parts of a connection that belong to its read task. -/

theorem Connection.trySend_eq {k k' : Connection} {x : Source × ClientCommand}
    (h : k.trySend x = some k') : ∃ ch, k' = { k with commands := ch } := by
  unfold trySend at h
  split_ifs at h
  obtain ⟨ch,-,rfl⟩ := Option.map_eq_some_iff.mp h
  exact ⟨ch,rfl⟩

theorem Connection.send_eq {k k' : Connection} {x : Source × ClientCommand}
    (h : k.send x = some k') : ∃ ch, k' = { k with commands := ch } := by
  unfold send at h
  split_ifs at h
  · cases h
    exact ⟨k.commands,rfl⟩
  · obtain ⟨ch,-,rfl⟩ := Option.map_eq_some_iff.mp h
    exact ⟨ch,rfl⟩

theorem kept_of_update {β : Type*} (f : Connection → β) {s t : State} {d : ℕ} {k : Connection}
    (ht : t.connections = Function.update s.connections d k) (hk : f k = f (s.connections d))
    (c : ℕ) : f (t.connections c) = f (s.connections c) := by
  rw [ht]
  by_cases hc : c = d
  · subst hc
    rw [Function.update_self,hk]
  · rw [Function.update_of_ne hc]

theorem OwnerMove.readAborted_eq {s t : State} (h : OwnerMove s t) (c : ℕ) :
    (t.connections c).readAborted = (s.connections c).readAborted ∨
      s.owner = .abortingRead ∧ s.readTask = some c ∧ t.owner = .clearing := by
  cases h with
  | readSpawned d ho =>
    exact .inl (kept_of_update Connection.readAborted (d := d) (by rfl) (by rfl) c)
  | writeSpawned d ho =>
    exact .inl (kept_of_update Connection.readAborted (d := d) (by rfl) (by rfl) c)
  | pingSpawned d ho =>
    unfold spawnPingTask
    split_ifs
    · exact .inl rfl
    · exact .inl (kept_of_update Connection.readAborted (d := d) (by rfl) (by rfl) c)
  | helloAccepted d msgId frame k ho hk =>
    obtain ⟨ch,rfl⟩ := Connection.trySend_eq hk
    exact .inl (kept_of_update Connection.readAborted (d := d) (by rfl) (by rfl) c)
  | closeSent d frame k ho hk | disconnectSent d k ho hk =>
    obtain ⟨ch,rfl⟩ := Connection.send_eq hk
    exact .inl (kept_of_update Connection.readAborted (d := d) (by rfl) (by rfl) c)
  | pingAborted ho =>
    unfold abortPing
    split
    · next d _ => exact .inl (kept_of_update Connection.readAborted (d := d) (by rfl) (by rfl) c)
    · exact .inl rfl
  | readAborted ho =>
    unfold abortRead
    split
    · next d hd =>
      by_cases hc : c = d
      · subst hc
        exact .inr ⟨ho,hd,rfl⟩
      · exact .inl (congrArg Connection.readAborted (Function.update_of_ne hc _ _))
    · exact .inl rfl
  | _ => exact .inl rfl

theorem Move.readAborted_eq {s t : State} {a : Actor} (h : Move s a t) (c : ℕ) :
    (t.connections c).readAborted = (s.connections c).readAborted ∨
      s.owner = .abortingRead ∧ s.readTask = some c ∧ t.owner = .clearing := by
  cases h with
  | owner h => exact h.readAborted_eq c
  | caller k h =>
    left
    cases h with
    | accepted call d msgId connection hk =>
      obtain ⟨ch,rfl⟩ := Connection.trySend_eq hk
      exact kept_of_update Connection.readAborted (d := d) (by rfl) (by rfl) c
    | _ => rfl
  | read d h =>
    left
    cases h with
    | scheduled =>
      unfold scheduleReconnect
      dsimp only
      split_ifs <;> exact kept_of_update Connection.readAborted (d := d) (by rfl) (by rfl) c
    | _ => exact kept_of_update Connection.readAborted (d := d) (by rfl) (by rfl) c
  | write d h =>
    left
    cases h <;> exact kept_of_update Connection.readAborted (d := d) (by rfl) (by rfl) c
  | ping d h =>
    left
    cases h with
    | sent frame k hp hk =>
      obtain ⟨ch,rfl⟩ := Connection.send_eq hk
      exact kept_of_update Connection.readAborted (d := d) (by rfl) (by rfl) c
    | _ => exact kept_of_update Connection.readAborted (d := d) (by rfl) (by rfl) c

def ReadTask.serving : ReadTask → Bool
  | .checking | .reading | .handling | .failing | .leaving _ => true
  | _ => false

/-- A read task goes past its swap by its own steps, or is aborted. -/
theorem step_serving {s t : State} {e : Event} (h : step s e = some t) {c : ℕ}
    (hs : (s.connections c).read.serving = true) : (t.connections c).read.serving = true ∨
      t.connected = false ∨ (s.connections c).readAborted = true := by
  obtain ⟨d,xs,k,hc,htouch,-⟩ := (step_move h).changes
  by_cases hcd : c = d
  swap
  · rw [hc,Function.update_of_ne hcd]
    exact .inl hs
  subst hcd
  have hself : t.connections c = k := by rw [hc,Function.update_self]
  generalize ha : e.actor = a at htouch
  cases htouch with
  | readSpawned ho =>
    rw [hself]
    exact .inl rfl
  | enqueued hq =>
    rw [hself,hq.read]
    exact .inl hs
  | pingSent frame k' hp hq =>
    rw [hself]
    exact .inl (hq.read ▸ hs)
  | read r buffer emitted hr =>
    cases e with
    | read d r' =>
      cases ha
      obtain ⟨-,h⟩ := Option.ite_none_right_eq_some.mp h
      left
      cases r' with
      | data data =>
        obtain ⟨-,h⟩ := Option.ite_none_right_eq_some.mp h
        cases h
        simp [ReadTask.serving]
      | eof | error =>
        cases h
        simp [ReadTask.serving]
    | readStep d =>
      cases ha
      simp only [step,readStep] at h
      cases hr : (s.connections c).read with
      | reading =>
        rw [hr] at h
        cases h
      | checking =>
        rw [hr] at h
        cases h
        cases hrun : s.running <;> simp [ReadTask.serving]
      | handling =>
        rw [hr] at h
        dsimp only at h
        left
        cases hp : framing.decoder.pass (s.connections c).buffer with
        | wait | deliver out rest | stop out rest =>
          rw [hp] at h
          cases h
          simp [ReadTask.serving]
        | fail out => exact absurd hp (pass_ne_fail _ _)
      | failing =>
        rw [hr] at h
        cases h
        simp [ReadTask.serving]
      | leaving lost =>
        rw [hr] at h
        cases h
        cases hconn : s.connected with
        | true => exact .inr (.inl rfl)
        | false => exact .inr (.inl hconn)
      | _ =>
        rw [hr] at hs
        cases hs
    | readCancelled d =>
      cases ha
      obtain ⟨hg,-⟩ := Option.ite_none_right_eq_some.mp h
      exact .inr (.inr (Bool.and_eq_true_iff.mp hg).1)
    | _ => cases ha
  | _ =>
    rw [hself]
    exact .inl hs

/-! What the calls of the client do to its own fields. -/

theorem OwnerMove.connected_of {s t : State} (h : OwnerMove s t) (ht : t.connected = true) :
    s.connected = true ∧ s.owner ≠ .clearing ∨ ∃ c, s.owner = .storing c ∧ t.owner = .stored c := by
  cases h with
  | stored c ho => exact .inr ⟨c,ho,rfl⟩
  | helloCleared | cleared => cases ht
  | pingSpawned c ho =>
    obtain ⟨ks,ping,heq⟩ := s.spawnPingTask_eq c
    rw [heq] at ht
    exact .inl ⟨ht,by rw [ho]; exact nofun⟩
  | pingAborted ho =>
    obtain ⟨ks,ping,heq⟩ := s.abortPing_eq
    rw [heq] at ht
    exact .inl ⟨ht,by rw [ho]; exact nofun⟩
  | readAborted ho =>
    obtain ⟨ks,read,heq⟩ := s.abortRead_eq
    rw [heq] at ht
    exact .inl ⟨ht,by rw [ho]; exact nofun⟩
  | connected ho => exact .inl ⟨ht,by rw [ho]; exact nofun⟩
  | helloBuilt c now frame ho | sendingClose c now frame ho =>
    exact .inl ⟨ht,by rw [ho]; exact nofun⟩
  | helloAccepted c msgId frame k ho | closeSent c frame k ho =>
    exact .inl ⟨ht,by rw [ho]; exact nofun⟩
  | disconnectSent c k ho => exact .inl ⟨ht,by rw [ho]; exact nofun⟩
  | _ =>
    rename_i ho
    exact .inl ⟨ht,by rw [ho]; exact nofun⟩

theorem OwnerMove.commandTx_eq {s t : State} (h : OwnerMove s t) :
    t.commandTx = s.commandTx ∨ t.commandTx = none ∨
      s.owner = .opening ∧ t.owner = .storing s.opened ∧ t.commandTx = some s.opened := by
  cases h with
  | tcpConnected ho => exact .inr (.inr ⟨ho,rfl,rfl⟩)
  | disconnected | dropped => exact .inr (.inl rfl)
  | pingSpawned c ho =>
    obtain ⟨ks,ping,heq⟩ := s.spawnPingTask_eq c
    rw [heq]
    exact .inl rfl
  | pingAborted ho =>
    obtain ⟨ks,ping,heq⟩ := s.abortPing_eq
    rw [heq]
    exact .inl rfl
  | readAborted ho =>
    obtain ⟨ks,read,heq⟩ := s.abortRead_eq
    rw [heq]
    exact .inl rfl
  | _ => exact .inl rfl

theorem OwnerMove.readTask_eq {s t : State} (h : OwnerMove s t) :
    t.readTask = s.readTask ∨ t.readTask = none ∨
      ∃ c, s.owner = .stored c ∧ t.readTask = some c := by
  cases h with
  | readSpawned c ho => exact .inr (.inr ⟨c,ho,rfl⟩)
  | pingSpawned c ho =>
    obtain ⟨ks,ping,heq⟩ := s.spawnPingTask_eq c
    rw [heq]
    exact .inl rfl
  | pingAborted ho =>
    obtain ⟨ks,ping,heq⟩ := s.abortPing_eq
    rw [heq]
    exact .inl rfl
  | readAborted ho =>
    unfold abortRead
    split
    · exact .inr (.inl rfl)
    · exact .inl rfl
  | _ => exact .inl rfl

theorem Move.readTask_eq {s t : State} {a : Actor} (h : Move s a t) :
    t.readTask = s.readTask ∨ t.readTask = none ∨
      ∃ c, s.owner = .stored c ∧ t.readTask = some c := by
  cases h with
  | owner h => exact h.readTask_eq
  | caller k h =>
    left
    cases h <;> rfl
  | read c h =>
    left
    cases h with
    | scheduled =>
      obtain ⟨ks,attempts,log,heq⟩ := s.scheduleReconnect_eq c
      rw [heq]
    | _ => rfl
  | write c h =>
    left
    cases h <;> rfl
  | ping c h =>
    left
    cases h <;> rfl

/-! The session as every step keeps it. -/

def Owner.greets : Owner → Bool
  | .storing _ | .stored _ | .readSpawned _ | .writeSpawned _ | .pingSpawned _ | .hello _
  | .helloChecked _ | .helloBuilt _ _ _ | .helloFailed => true
  | _ => false

/-- `connect()` has put HELLO into the channel of the connection. -/
def Greeted (s : State) (c : ℕ) : Prop :=
  ∃ frame, (.connect,.send frame) ∈ (s.connections c).commands.accepted

structure Session (s : State) : Prop where
  unspawned : Unspawned s
  stage : Stage s
  readTask : ∀ c, s.readTask = some c → c < s.opened
  unaborted : ∀ c, ReadUnspawned s c → (s.connections c).readAborted = false
  serving : s.connected = true → s.owner ≠ .clearing → ∀ c, s.commandTx = some c →
    s.owner = .stored c ∨
      (s.connections c).read.serving = true ∧ (s.connections c).readAborted = false
  writes : ∀ c, s.commandTx = some c →
    s.owner.writeDue = some c ∨ (s.connections c).write ≠ .absent
  greeted : s.connected = true → s.owner.greets = false → ∀ c, s.commandTx = some c → Greeted s c

theorem Move.greeted {s t : State} {a : Actor} (h : Move s a t) {c : ℕ} (hs : Greeted s c) :
    Greeted t c := by
  obtain ⟨frame,hframe⟩ := hs
  obtain ⟨xs,hflow,-⟩ := h.flow c
  exact ⟨frame,by rw [hflow.accepted]; exact List.mem_append_left xs hframe⟩

theorem Flow.write_present {s t : State} {c : ℕ} {a : Actor} {xs : List (Source × ClientCommand)}
    (h : Flow s c a t xs) (hs : (s.connections c).write ≠ .absent) :
    (t.connections c).write ≠ .absent := by
  cases h with
  | kept hk hw => rwa [hw]
  | enqueued x he hc hk hw => rwa [hw]
  | spawned ho ht hk hw => rw [hw]; exact nofun
  | sending source data hr hk hw => rw [hw]; exact nofun
  | closing source hr hk hw => rw [hw]; exact nofun
  | hungUp hr hn hk hw => rw [hw]; exact nofun
  | written hr hk hw => rw [hw]; exact nofun
  | failed hr hk hw => rw [hw]; exact nofun
  | shutdown hr hk hw => rw [hw]; exact nofun

theorem OwnerMove.writeDue_next {s t : State} (h : OwnerMove s t) {c : ℕ}
    (hs : s.owner.writeDue = some c) :
    t.owner.writeDue = some c ∨ (t.connections c).write ≠ .absent := by
  cases h with
  | stored d ho | readSpawned d ho =>
    rw [ho] at hs
    exact .inl hs
  | writeSpawned d ho =>
    rw [ho] at hs
    cases hs
    right
    simp [spawnWriteTask]
  | helloAccepted d msgId frame k ho | closeSent d frame k ho | disconnectSent d k ho =>
    rw [ho] at hs
    cases hs
  | connected ho =>
    rw [ho] at hs
    cases hs
  | _ =>
    rename_i ho
    rw [ho] at hs
    cases hs

/-- `connect()` comes past HELLO with HELLO in the channel, or clears `connected`. -/
theorem OwnerMove.greets_over {s t : State} (h : OwnerMove s t) (hs : s.owner.greets = true)
    (ht : t.owner.greets = false) (hconn : t.connected = true) :
    ∃ c, s.owner.connection = some c ∧ Greeted t c := by
  cases h with
  | helloAccepted c msgId frame k ho hk =>
    refine ⟨c,by rw [ho]; rfl,frame,?_⟩
    have hself : ({ s.setConnection c k with clientId := (toString msgId).toList }.go
        .idle).connections c = k := s.setConnection_self c k
    rw [hself,(Channel.send_eq_some (Connection.trySend_eq_some hk).commands).1]
    simp
  | helloCleared ho => cases hconn
  | stored c ho | readSpawned c ho | writeSpawned c ho | onConnect c ho | helloChecked c ho
  | helloRefused c ho => cases ht
  | pingSpawned c ho => cases ht
  | helloBuilt c now frame ho => cases ht
  | helloRejected c msgId frame ho => cases ht
  | closeSent c frame k ho | disconnectSent c k ho | sendingClose c now frame ho =>
    rw [ho] at hs
    cases hs
  | connected ho =>
    rw [ho] at hs
    cases hs
  | _ =>
    rename_i ho
    rw [ho] at hs
    cases hs

section Step

variable {s t : State} {e : Event}

theorem connected_before (h : Rust.step s e = some t)
    (ht : t.connected = true) (hclearing : t.owner ≠ .clearing) :
    s.connected = true ∧ s.owner ≠ .clearing ∨ ∃ c, s.owner = .storing c ∧ t.owner = .stored c := by
  by_cases ha : e.actor = .owner
  · cases ha ▸ step_move h with
    | owner hm => exact hm.connected_of ht
  · exact .inl ⟨(step_move h).connected_of ha ht,((step_move h).elsewhere ha).1 ▸ hclearing⟩

theorem sender_before (h : Rust.step s e = some t) {c : ℕ}
    (ht : t.commandTx = some c) : s.commandTx = some c ∨
      s.owner = .opening ∧ t.owner = .storing c ∧ c = s.opened := by
  rcases (step_move h).owner_or with hm | ⟨-,-,-,hsender⟩
  · rcases hm.commandTx_eq with hsender | hnone | ⟨ho,hto,hnew⟩
    · exact .inl (hsender ▸ ht)
    · cases hnone.symm.trans ht
    · cases hnew.symm.trans ht
      exact .inr ⟨ho,hto,rfl⟩
  · exact .inl (hsender ▸ ht)

theorem Session.unaborted_next (hI : Session s) (h : Rust.step s e = some t) {c : ℕ}
    (ht : ReadUnspawned t c) : (t.connections c).readAborted = false := by
  have hs := (step_move h).readUnspawned ht
  rcases (step_move h).readAborted_eq c with heq | ⟨ho,hread,-⟩
  · rw [heq]
    exact hI.unaborted c hs
  · have hc := hI.readTask c hread
    rcases hs with hopened | hstoring | hstored
    · omega
    · cases ho.symm.trans hstoring
    · cases ho.symm.trans hstored

/-- The read task of the client's own connection serves until `connected` is cleared. -/
theorem Session.serving_next (hI : Session s) (h : Rust.step s e = some t)
    (ht : t.connected = true) (hclearing : t.owner ≠ .clearing) {c : ℕ}
    (hc : t.commandTx = some c) : t.owner = .stored c ∨
      (t.connections c).read.serving = true ∧ (t.connections c).readAborted = false := by
  rcases sender_before h hc with hsender | ⟨-,hto,-⟩
  swap
  · have hoff := (hI.stage.step h).offline (by rw [hto]; rfl)
    cases ht.symm.trans hoff
  rcases connected_before h ht hclearing with ⟨hconn,hno⟩ | ⟨d,ho,hto⟩
  swap
  · have hd := hI.stage.inHand d (by rw [ho]; rfl)
    cases hsender.symm.trans hd
    exact .inl hto
  rcases hI.serving hconn hno c hsender with hstored | ⟨hserving,hab⟩
  · rcases (step_move h).owner_or with hm | ⟨hto,-⟩
    · -- `connect()` spawns the read task
      right
      cases hm with
      | readSpawned d hd =>
        cases hd.symm.trans hstored
        have hun := hI.unaborted c (.inr (.inr hstored))
        simp only [spawnReadTask,go_connections,setConnection_self]
        exact ⟨rfl,hun⟩
      | helloAccepted d msgId frame k hd | closeSent d frame k hd | disconnectSent d k hd =>
        cases hd.symm.trans hstored
      | connected hd => cases hd.symm.trans hstored
      | _ =>
        rename_i hd
        cases hd.symm.trans hstored
    · exact .inl (hto.trans hstored)
  · right
    refine ⟨?_,?_⟩
    · rcases step_serving h hserving with hs | hoff | habort
      · exact hs
      · cases ht.symm.trans hoff
      · cases hab.symm.trans habort
    · rcases (step_move h).readAborted_eq c with heq | ⟨-,-,hto⟩
      · rw [heq,hab]
      · exact absurd hto hclearing

theorem Session.writes_next (hI : Session s) (h : Rust.step s e = some t) {c : ℕ}
    (hc : t.commandTx = some c) :
    t.owner.writeDue = some c ∨ (t.connections c).write ≠ .absent := by
  rcases sender_before h hc with hsender | ⟨-,hto,-⟩
  swap
  · exact .inl (by rw [hto]; rfl)
  obtain ⟨xs,hflow,-⟩ := (step_move h).flow c
  rcases hI.writes c hsender with hdue | hpresent
  · rcases (step_move h).owner_or with hm | ⟨hto,-⟩
    · exact hm.writeDue_next hdue
    · exact .inl (hto ▸ hdue)
  · exact .inr (hflow.write_present hpresent)

theorem Session.greeted_next (hI : Session s) (h : Rust.step s e = some t)
    (ht : t.connected = true) (hgreets : t.owner.greets = false) {c : ℕ}
    (hc : t.commandTx = some c) : Greeted t c := by
  rcases sender_before h hc with hsender | ⟨-,hto,-⟩
  swap
  · rw [hto] at hgreets
    cases hgreets
  by_cases hs : s.owner.greets = true
  · rcases (step_move h).owner_or with hm | ⟨hto,-⟩
    · obtain ⟨d,hd,hgreeted⟩ := hm.greets_over hs hgreets ht
      cases (hI.stage.inHand d hd).symm.trans hsender
      exact hgreeted
    · rw [hto] at hgreets
      cases hs.symm.trans hgreets
  · have hs : s.owner.greets = false := Bool.not_eq_true _ ▸ hs
    by_cases hclearing : t.owner = .clearing
    · -- `disconnect()` clears `connected` later
      have hconn : s.connected = true := by
        by_cases ha : e.actor = .owner
        · cases ha ▸ step_move h with
          | owner hm =>
            rcases hm.connected_of ht with ⟨hconn,-⟩ | ⟨d,ho,-⟩
            · exact hconn
            · rw [ho] at hs
              cases hs
        · exact (step_move h).connected_of ha ht
      exact (step_move h).greeted (hI.greeted hconn hs c hsender)
    · rcases connected_before h ht hclearing with ⟨hconn,-⟩ | ⟨d,ho,-⟩
      · exact (step_move h).greeted (hI.greeted hconn hs c hsender)
      · rw [ho] at hs
        cases hs

theorem Session.step (hI : Session s) (h : Rust.step s e = some t) : Session t where
  unspawned := hI.unspawned.move (step_move h)
  stage := hI.stage.step h
  readTask c hc := by
    have hle := (step_move h).opened_le
    rcases (step_move h).readTask_eq with heq | hnone | ⟨d,ho,hd⟩
    · exact (hI.readTask c (heq ▸ hc)).trans_le hle
    · cases hnone.symm.trans hc
    · cases hd.symm.trans hc
      have := hI.unspawned.latest c (by rw [ho]; rfl)
      omega
  unaborted c hc := hI.unaborted_next h hc
  serving ht hclearing c hc := hI.serving_next h ht hclearing hc
  writes c hc := hI.writes_next h hc
  greeted ht hgreets c hc := hI.greeted_next h ht hgreets hc

end Step

theorem session_init (options : MIPClientOptions) : Session (init options) where
  unspawned := (streams_init options).unspawned
  stage := stage_init options
  readTask _ := nofun
  unaborted _ _ := rfl
  serving := nofun
  writes _ := nofun
  greeted := nofun

theorem session (options : MIPClientOptions) (events : List Event) :
    ∀ s ∈ states Rust.step (init options) events, Session s :=
  invariant (fun _ _ _ hI h => hI.step h) (session_init options) events

end Rust
end MipClients
