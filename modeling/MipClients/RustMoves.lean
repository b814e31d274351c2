import MipClients.RustClient

/-! What one step of the Rust client does: the moves of the call under way, of the callers and of the
tasks, each with what it takes to be made. Every invariant of the client's runs rests on them. -/
namespace MipClients
namespace Rust

open State StreamDecoder
open Wire (Emission)

/-- A command has gone into the channel, and nothing else has changed. -/
structure Connection.Enqueued (k : Connection) (x : Source × ClientCommand) (k' : Connection) :
    Prop where
  closed : k.closed = false
  commands : k.commands.send x = some k'.commands
  eq : k' = { k with commands := k'.commands }

namespace Connection.Enqueued

variable {k k' : Connection} {x : Source × ClientCommand} (h : k.Enqueued x k')
include h

theorem read : k'.read = k.read := by rw [h.eq]
theorem write : k'.write = k.write := by rw [h.eq]
theorem written : k'.written = k.written := by rw [h.eq]
theorem ping : k'.ping = k.ping := by rw [h.eq]

end Connection.Enqueued

theorem Connection.trySend_eq_some {k k' : Connection} {x : Source × ClientCommand}
    (h : k.trySend x = some k') : k.Enqueued x k' := by
  unfold trySend at h
  split_ifs at h with hc
  obtain ⟨ch,hch,rfl⟩ := Option.map_eq_some_iff.mp h
  exact ⟨by simpa using hc,hch,rfl⟩

theorem Connection.send_eq_some {k k' : Connection} {x : Source × ClientCommand}
    (h : k.send x = some k') : k.closed = true ∧ k' = k ∨ k.Enqueued x k' := by
  unfold send at h
  split_ifs at h with hc
  · cases h
    exact .inl ⟨hc,rfl⟩
  · obtain ⟨ch,hch,rfl⟩ := Option.map_eq_some_iff.mp h
    exact .inr ⟨by simpa using hc,hch,rfl⟩

inductive OwnerMove (s : State) : State → Prop
  | connected (ho : s.owner = .idle) (hc : s.connected = true) : OwnerMove s s
  | opening (ho : s.owner = .idle) : OwnerMove s ({ s with running := true }.go .opening)
  | tcpConnected (ho : s.owner = .opening) : OwnerMove s s.onTcpConnected
  | tcpFailed (ho : s.owner = .opening) : OwnerMove s (s.go .idle)
  | stored (c : ℕ) (ho : s.owner = .storing c) :
      OwnerMove s (({ s with connected := true }.record (.stored c)).go (.stored c))
  | readSpawned (c : ℕ) (ho : s.owner = .stored c) :
      OwnerMove s (({ s with reconnectAttempts := 0 }.spawnReadTask c).go (.readSpawned c))
  | writeSpawned (c : ℕ) (ho : s.owner = .readSpawned c) :
      OwnerMove s ((s.spawnWriteTask c).go (.writeSpawned c))
  | pingSpawned (c : ℕ) (ho : s.owner = .writeSpawned c) :
      OwnerMove s ((s.spawnPingTask c).go (.pingSpawned c))
  | onConnect (c : ℕ) (ho : s.owner = .pingSpawned c) :
      OwnerMove s ((s.record (.onConnect c)).go (.hello c))
  | helloChecked (c : ℕ) (ho : s.owner = .hello c) : OwnerMove s (s.go (.helloChecked c))
  | helloRefused (c : ℕ) (ho : s.owner = .hello c) : OwnerMove s (s.go .helloFailed)
  | helloBuilt (c now : ℕ) (frame : List UInt8) (ho : s.owner = .helloChecked c) :
      OwnerMove s ((s.generateMsgId now).2.go (.helloBuilt c (s.generateMsgId now).1 frame))
  | helloAccepted (c : ℕ) (msgId : UInt64) (frame : List UInt8) (k : Connection)
      (ho : s.owner = .helloBuilt c msgId frame)
      (hk : (s.connections c).trySend (.connect,.send frame) = some k) :
      OwnerMove s ({ s.setConnection c k with clientId := (toString msgId).toList }.go .idle)
  | helloRejected (c : ℕ) (msgId : UInt64) (frame : List UInt8)
      (ho : s.owner = .helloBuilt c msgId frame) : OwnerMove s (s.go .helloFailed)
  | helloCleared (ho : s.owner = .helloFailed) :
      OwnerMove s ({ s with connected := false }.go .helloCleared)
  | helloStopped (ho : s.owner = .helloCleared) :
      OwnerMove s ({ s with running := false }.go .idle)
  | disconnect (ho : s.owner = .idle) :
      OwnerMove s (({ s with options := { s.options with autoReconnect := false } }.record
        .disconnectCall).go .stopping)
  | stopped (ho : s.owner = .stopping) : OwnerMove s ({ s with running := false }.go .stopped)
  | notOpened (ho : s.owner = .stopped) : OwnerMove s (s.go .cleaning)
  | closeChecked (c : ℕ) (ho : s.owner = .stopped) : OwnerMove s (s.go (.closeChecked c))
  | closeLeftOut (c : ℕ) (ho : s.owner = .stopped) : OwnerMove s (s.go (.sendingDisconnect c))
  | sendingClose (c now : ℕ) (frame : List UInt8) (ho : s.owner = .closeChecked c) :
      OwnerMove s ((s.generateMsgId now).2.go (.sendingClose c frame))
  | closeSent (c : ℕ) (frame : List UInt8) (k : Connection) (ho : s.owner = .sendingClose c frame)
      (hk : (s.connections c).send (.disconnect,.send frame) = some k) :
      OwnerMove s ((s.setConnection c k).go (.sendingDisconnect c))
  | disconnectSent (c : ℕ) (k : Connection) (ho : s.owner = .sendingDisconnect c)
      (hk : (s.connections c).send (.disconnect,.disconnect) = some k) :
      OwnerMove s ((s.setConnection c k).go .cleaning)
  | pingAborted (ho : s.owner = .cleaning) : OwnerMove s (s.abortPing.go .awaitingWrite)
  | writeAwaited (ho : s.owner = .awaitingWrite) :
      OwnerMove s ({ s with writeTask := none }.go .abortingRead)
  | readAborted (ho : s.owner = .abortingRead) : OwnerMove s (s.abortRead.go .clearing)
  | cleared (ho : s.owner = .clearing) : OwnerMove s ({ s with connected := false }.go .dropping)
  | disconnected (ho : s.owner = .dropping) : OwnerMove s ({ s with commandTx := none }.go .idle)
  | dropped (ho : s.owner = .idle) :
      OwnerMove s ({ s with running := false, commandTx := none }.go .dropped)

theorem advance_move {s t : State} {now : ℕ} (h : s.advance now = some t) : OwnerMove s t := by
  unfold State.advance at h
  cases ho : s.owner with
  | idle | opening | dropped =>
    rw [ho] at h
    cases h
  | storing c =>
    rw [ho] at h
    cases h
    exact .stored c ho
  | stored c =>
    rw [ho] at h
    cases h
    exact .readSpawned c ho
  | readSpawned c =>
    rw [ho] at h
    cases h
    exact .writeSpawned c ho
  | writeSpawned c =>
    rw [ho] at h
    cases h
    exact .pingSpawned c ho
  | pingSpawned c =>
    rw [ho] at h
    cases h
    exact .onConnect c ho
  | hello c =>
    rw [ho] at h
    cases h
    cases s.connected with
    | true => exact .helloChecked c ho
    | false => exact .helloRefused c ho
  | helloChecked c =>
    rw [ho] at h
    cases h
    exact .helloBuilt c now _ ho
  | helloBuilt c msgId frame =>
    rw [ho] at h
    dsimp only at h
    split at h
    · next k hk =>
      cases h
      exact .helloAccepted c msgId frame k ho hk
    · cases h
      exact .helloRejected c msgId frame ho
  | helloFailed =>
    rw [ho] at h
    cases h
    exact .helloCleared ho
  | helloCleared =>
    rw [ho] at h
    cases h
    exact .helloStopped ho
  | stopping =>
    rw [ho] at h
    cases h
    exact .stopped ho
  | stopped =>
    rw [ho] at h
    cases h
    cases s.commandTx with
    | none => exact .notOpened ho
    | some c =>
      cases s.connected with
      | true => exact .closeChecked c ho
      | false => exact .closeLeftOut c ho
  | closeChecked c =>
    rw [ho] at h
    cases h
    exact .sendingClose c now _ ho
  | sendingClose c frame =>
    rw [ho] at h
    obtain ⟨k,hk,rfl⟩ := Option.map_eq_some_iff.mp h
    exact .closeSent c frame k ho hk
  | sendingDisconnect c =>
    rw [ho] at h
    obtain ⟨k,hk,rfl⟩ := Option.map_eq_some_iff.mp h
    exact .disconnectSent c k ho hk
  | cleaning =>
    rw [ho] at h
    cases h
    exact .pingAborted ho
  | awaitingWrite =>
    rw [ho] at h
    dsimp only at h
    split at h
    · cases h
      exact .writeAwaited ho
    · cases h
  | abortingRead =>
    rw [ho] at h
    cases h
    exact .readAborted ho
  | clearing =>
    rw [ho] at h
    cases h
    exact .cleared ho
  | dropping =>
    rw [ho] at h
    cases h
    exact .disconnected ho

inductive CallerMove (s : State) (k : ℕ) : State → Prop
  | checked (call : Call) (c : ℕ) : CallerMove s k (s.setCaller k (.checked call c))
  | refused (call : Call) : CallerMove s k (s.finishCall k call .notConnected)
  | idTaken (call : Call) (c now : ℕ) :
      CallerMove s k ((s.generateMsgId now).2.setCaller k
        (.idTaken call c (s.generateMsgId now).1))
  | accepted (call : Call) (c : ℕ) (msgId : UInt64) (connection : Connection)
      (hk : (s.connections c).trySend (.caller k,.send (call.bytes msgId)) = some connection) :
      CallerMove s k ((s.setConnection c connection).finishCall k call (.ok c msgId))

theorem startCall_move (s : State) (k : ℕ) (call : Call) : CallerMove s k (s.startCall k call) := by
  unfold startCall
  cases s.sender with
  | some c => exact .checked call c
  | none => exact .refused call

theorem sendFrame_move {s t : State} {k now : ℕ} (h : s.sendFrame k now = some t) :
    CallerMove s k t := by
  unfold sendFrame at h
  split at h
  · cases h
  · cases h
    exact .idTaken _ _ now
  · split at h
    · next connection hk =>
      cases h
      exact .accepted _ _ _ connection hk
    · cases h
      exact .refused _

/-- The read task is in its loop, and no read has failed. -/
def ReadTask.looping : ReadTask → Bool
  | .checking | .reading | .handling => true
  | _ => false

inductive ReadMove (s : State) (c : ℕ) : State → Prop
  | received (data : List UInt8) (hr : (s.connections c).read = .reading) :
      ReadMove s c (s.receive c data)
  | handled (out : List (Emission Header MIPError)) (rest : List UInt8) (r : ReadTask)
      (hr : (s.connections c).read = .handling) (h : r ∈ [.handling,.checking]) :
      ReadMove s c (s.handle c out rest r)
  | before (r : ReadTask) (hr : (s.connections c).read.looping = true)
      (h : r ∈ [.checking,.reading,.leaving false,.leaving true,.failing]) :
      ReadMove s c (s.setRead c r)
  | failed (hr : (s.connections c).read = .failing) :
      ReadMove s c ((s.record (.onError c .io)).setRead c (.leaving true))
  | cleared (lost : Bool) (hr : (s.connections c).read = .leaving lost) :
      ReadMove s c (({ s with connected := false }.record (.cleared c)).setRead c
        (.swapped true lost))
  | unchanged (lost : Bool) (hr : (s.connections c).read = .leaving lost) :
      ReadMove s c (s.setRead c (.swapped false lost))
  | onDisconnect (lost : Bool) (hr : (s.connections c).read = .swapped true lost) :
      ReadMove s c ((s.record (.onDisconnect c)).setRead c (.reported lost))
  | silent (lost : Bool) (hr : (s.connections c).read = .swapped false lost) :
      ReadMove s c (s.setRead c (.reported lost))
  | scheduled (lost : Bool) (hr : (s.connections c).read = .reported lost) :
      ReadMove s c (s.scheduleReconnect c)
  | ended : ReadMove s c (s.setRead c .done)

theorem readStep_move {s t : State} {c : ℕ} (h : s.readStep c = some t) : ReadMove s c t := by
  unfold readStep at h
  cases hr : (s.connections c).read with
  | absent | reading | done =>
    rw [hr] at h
    cases h
  | checking =>
    rw [hr] at h
    cases h
    exact .before _ (by rw [hr]; rfl) (by cases s.running <;> simp)
  | handling =>
    rw [hr] at h
    dsimp only at h
    cases hp : framing.decoder.pass (s.connections c).buffer with
    | wait =>
      rw [hp] at h
      cases h
      exact .before _ (by rw [hr]; rfl) (by simp)
    | deliver out rest =>
      rw [hp] at h
      cases h
      exact .handled out rest _ hr (by simp)
    | stop out rest =>
      rw [hp] at h
      cases h
      exact .handled out rest _ hr (by simp)
    | fail out => exact absurd hp (pass_ne_fail _ _)
  | failing =>
    rw [hr] at h
    cases h
    exact .failed hr
  | leaving lost =>
    rw [hr] at h
    cases h
    cases s.connected with
    | true => exact .cleared lost hr
    | false => exact .unchanged lost hr
  | swapped wasConnected lost =>
    rw [hr] at h
    cases h
    cases wasConnected with
    | true => exact .onDisconnect lost hr
    | false => exact .silent lost hr
  | reported lost =>
    rw [hr] at h
    cases h
    exact .scheduled lost hr
  | sleeping =>
    rw [hr] at h
    cases h
    exact .ended

inductive WriteMove (s : State) (c : ℕ) : State → Prop
  | sending (source : Source) (data : List UInt8) (ch : Channel (Source × ClientCommand) 100)
      (hw : (s.connections c).write = .receiving)
      (hr : (s.connections c).commands.recv = some ((source,.send data),ch)) :
      WriteMove s c
        (s.setConnection c ({ s.connections c with commands := ch }.writeAll source data))
  | closing (source : Source) (ch : Channel (Source × ClientCommand) 100)
      (hw : (s.connections c).write = .receiving)
      (hr : (s.connections c).commands.recv = some ((source,.disconnect),ch)) :
      WriteMove s c (s.setConnection c { s.connections c with
        commands := ch
        write := .closing })
  | hungUp (hw : (s.connections c).write = .receiving)
      (hr : (s.connections c).commands.recv = none) : WriteMove s c (s.setWrite c (.ended false))
  | written (hw : (s.connections c).write = .writing) : WriteMove s c (s.setWrite c .receiving)
  | failed (hw : (s.connections c).write = .writing) : WriteMove s c (s.setWrite c (.ended true))
  | shutdown (hw : (s.connections c).write = .closing) : WriteMove s c (s.setWrite c (.ended false))

theorem recvCommand_move {s t : State} {c : ℕ} (hw : (s.connections c).write = .receiving)
    (h : s.recvCommand c = some t) : WriteMove s c t := by
  unfold recvCommand at h
  split at h
  · next source data ch hr =>
    cases h
    exact .sending source data ch hw hr
  · next source ch hr =>
    cases h
    exact .closing source ch hw hr
  · next hr =>
    split at h
    · cases h
      exact .hungUp hw hr
    · cases h

inductive PingMove (s : State) (c : ℕ) : State → Prop
  | ticked (hp : (s.connections c).ping = .ticking) : PingMove s c (s.setPing c .connectedSeen)
  | passed (hp : (s.connections c).ping = .connectedSeen) (hr : s.running = true) :
      PingMove s c ((s.record (.pingPassed c)).setPing c .checked)
  | idTaken (now : ℕ) (frame : List UInt8) (hp : (s.connections c).ping = .checked) :
      PingMove s c (((s.generateMsgId now).2.record (.pingId c)).setPing c (.sending frame))
  | sent (frame : List UInt8) (k : Connection) (hp : (s.connections c).ping = .sending frame)
      (hk : (s.connections c).send (.ping,.send frame) = some k) :
      PingMove s c (s.setConnection c { k with ping := .ticking })
  | ended : PingMove s c (s.setPing c .ended)

theorem pingStep_move {s t : State} {c now : ℕ} (h : s.pingStep c now = some t) :
    PingMove s c t := by
  unfold pingStep at h
  split at h
  · cases h
  · cases h
  · cases h
  · next hp =>
    cases h
    split_ifs with hr
    · exact .passed hp hr
    · exact .ended
  · next hp =>
    cases h
    exact .idTaken now _ hp
  · next frame hp =>
    obtain ⟨k,hk,rfl⟩ := Option.map_eq_some_iff.mp h
    exact .sent frame k hp hk

inductive Actor
  | owner
  | caller (k : ℕ)
  | readTask (c : ℕ)
  | writeTask (c : ℕ)
  | pingTask (c : ℕ)
  deriving DecidableEq

def Event.actor : Event → Actor
  | .connectCall | .disconnectCall | .tcpConnected | .tcpFailed | .drop | .advance _ | .timeout =>
    .owner
  | .call k _ | .sendFrame k _ => .caller k
  | .read c _ | .readStep c | .readCancelled c => .readTask c
  | .recv c | .written c | .writeFailed c | .shutdown c => .writeTask c
  | .tick c | .pingStep c _ | .pingCancelled c => .pingTask c

inductive Move (s : State) : Actor → State → Prop
  | owner {t : State} (h : OwnerMove s t) : Move s .owner t
  | caller {t : State} (k : ℕ) (h : CallerMove s k t) : Move s (.caller k) t
  | read {t : State} (c : ℕ) (h : ReadMove s c t) : Move s (.readTask c) t
  | write {t : State} (c : ℕ) (h : WriteMove s c t) : Move s (.writeTask c) t
  | ping {t : State} (c : ℕ) (h : PingMove s c t) : Move s (.pingTask c) t

def Owner.spawning : Owner → Option ℕ
  | .storing c | .stored c | .readSpawned c | .writeSpawned c => some c
  | _ => none

theorem step_move {s t : State} {e : Event} (h : step s e = some t) : Move s e.actor t := by
  cases e with
  | connectCall =>
    obtain ⟨ho,h⟩ := Option.ite_none_right_eq_some.mp h
    cases h
    unfold State.connect
    split_ifs with hc
    · exact .owner (.connected ho hc)
    · exact .owner (.opening ho)
  | disconnectCall =>
    obtain ⟨ho,h⟩ := Option.ite_none_right_eq_some.mp h
    cases h
    exact .owner (.disconnect ho)
  | tcpConnected =>
    obtain ⟨ho,h⟩ := Option.ite_none_right_eq_some.mp h
    cases h
    exact .owner (.tcpConnected ho)
  | tcpFailed =>
    obtain ⟨ho,h⟩ := Option.ite_none_right_eq_some.mp h
    cases h
    exact .owner (.tcpFailed ho)
  | drop =>
    obtain ⟨ho,h⟩ := Option.ite_none_right_eq_some.mp h
    cases h
    exact .owner (.dropped ho)
  | advance now => exact .owner (advance_move h)
  | timeout =>
    obtain ⟨ho,h⟩ := Option.ite_none_right_eq_some.mp h
    cases h
    exact .owner (.writeAwaited ho)
  | call k call =>
    obtain ⟨-,h⟩ := Option.ite_none_right_eq_some.mp h
    cases h
    exact .caller k (startCall_move s k call)
  | sendFrame k now => exact .caller k (sendFrame_move h)
  | read c r =>
    obtain ⟨hr,h⟩ := Option.ite_none_right_eq_some.mp h
    cases r with
    | data data =>
      obtain ⟨-,h⟩ := Option.ite_none_right_eq_some.mp h
      cases h
      exact .read c (.received data hr)
    | eof =>
      cases h
      exact .read c (.before _ (by rw [hr]; rfl) (by simp))
    | error =>
      cases h
      exact .read c (.before _ (by rw [hr]; rfl) (by simp))
  | readStep c => exact .read c (readStep_move h)
  | readCancelled c =>
    obtain ⟨-,h⟩ := Option.ite_none_right_eq_some.mp h
    cases h
    exact .read c .ended
  | recv c =>
    obtain ⟨hw,h⟩ := Option.ite_none_right_eq_some.mp h
    exact .write c (recvCommand_move hw h)
  | written c =>
    obtain ⟨hw,h⟩ := Option.ite_none_right_eq_some.mp h
    cases h
    exact .write c (.written hw)
  | writeFailed c =>
    obtain ⟨hw,h⟩ := Option.ite_none_right_eq_some.mp h
    cases h
    exact .write c (.failed hw)
  | shutdown c =>
    obtain ⟨hw,h⟩ := Option.ite_none_right_eq_some.mp h
    cases h
    exact .write c (.shutdown hw)
  | tick c =>
    obtain ⟨hp,h⟩ := Option.ite_none_right_eq_some.mp h
    cases h
    split_ifs
    · exact .ping c (.ticked hp)
    · exact .ping c .ended
  | pingStep c now => exact .ping c (pingStep_move h)
  | pingCancelled c =>
    obtain ⟨-,h⟩ := Option.ite_none_right_eq_some.mp h
    cases h
    exact .ping c .ended

/-! What spawning and aborting a task, and the decision to reconnect, leave alone. -/

namespace State

variable (s : State) (c : ℕ)

theorem spawnPingTask_eq : ∃ ks ping,
    s.spawnPingTask c = { s with connections := ks, pingTask := ping } := by
  unfold spawnPingTask
  split_ifs
  · exact ⟨s.connections,none,rfl⟩
  · exact ⟨_,some c,rfl⟩

theorem abortPing_eq : ∃ ks ping,
    s.abortPing = { s with connections := ks, pingTask := ping } := by
  unfold abortPing
  split
  · exact ⟨_,none,rfl⟩
  · exact ⟨s.connections,s.pingTask,rfl⟩

theorem abortRead_eq : ∃ ks read,
    s.abortRead = { s with connections := ks, readTask := read } := by
  unfold abortRead
  split
  · exact ⟨_,none,rfl⟩
  · exact ⟨s.connections,s.readTask,rfl⟩

theorem scheduleReconnect_eq : ∃ ks attempts log, s.scheduleReconnect c =
    { s with connections := ks, reconnectAttempts := attempts, log := log } := by
  unfold scheduleReconnect
  dsimp only
  split_ifs <;> exact ⟨_,_,_,rfl⟩

end State

/-- Only `connect()` and `disconnect()` change where their call is, which connections there are,
`running` and the client's sender. -/
theorem Move.elsewhere {s t : State} {a : Actor} (h : Move s a t) (ha : a ≠ .owner) :
    t.owner = s.owner ∧ t.opened = s.opened ∧ t.running = s.running ∧
      t.commandTx = s.commandTx := by
  cases h with
  | owner h => exact absurd rfl ha
  | caller k h => cases h <;> exact ⟨rfl,rfl,rfl,rfl⟩
  | read c h =>
    cases h with
    | scheduled =>
      obtain ⟨ks,attempts,log,ht⟩ := s.scheduleReconnect_eq c
      rw [ht]
      exact ⟨rfl,rfl,rfl,rfl⟩
    | _ => exact ⟨rfl,rfl,rfl,rfl⟩
  | write c h => cases h <;> exact ⟨rfl,rfl,rfl,rfl⟩
  | ping c h => cases h <;> exact ⟨rfl,rfl,rfl,rfl⟩

theorem Move.owner_or {s t : State} {a : Actor} (h : Move s a t) : OwnerMove s t ∨
    t.owner = s.owner ∧ t.opened = s.opened ∧ t.running = s.running ∧
      t.commandTx = s.commandTx := by
  by_cases ha : a = .owner
  · subst ha
    cases h with
    | owner h => exact .inl h
  · exact .inr (h.elsewhere ha)

theorem Move.opened_le {s t : State} {a : Actor} (h : Move s a t) : s.opened ≤ t.opened := by
  rcases h.owner_or with h | ⟨-,hn,-⟩
  · cases h with
    | tcpConnected => exact Nat.le_succ _
    | pingSpawned c =>
      obtain ⟨ks,ping,ht⟩ := s.spawnPingTask_eq c
      rw [ht]
      exact le_rfl
    | pingAborted =>
      obtain ⟨ks,ping,ht⟩ := s.abortPing_eq
      rw [ht]
      exact le_rfl
    | readAborted =>
      obtain ⟨ks,read,ht⟩ := s.abortRead_eq
      rw [ht]
      exact le_rfl
    | _ => exact le_rfl
  · exact hn.ge

def Entry.isCallback : Entry → Bool
  | .onConnect _ | .onDisconnect _ | .onReconnecting _ _ | .onError _ _ => true
  | _ => false

inductive Records (s : State) : Actor → Entry → Prop
  | stored (c : ℕ) (ho : s.owner = .storing c) : Records s .owner (.stored c)
  | disconnectCall : Records s .owner .disconnectCall
  | cleared (c : ℕ) (lost : Bool) (hr : (s.connections c).read = .leaving lost) :
      Records s (.readTask c) (.cleared c)
  | pingPassed (c : ℕ) (hp : (s.connections c).ping = .connectedSeen) :
      Records s (.pingTask c) (.pingPassed c)
  | pingId (c : ℕ) (hp : (s.connections c).ping = .checked) :
      Records s (.pingTask c) (.pingId c)
  | callback (a : Actor) (e : Entry) (he : e.isCallback = true) : Records s a e

theorem Move.log {s t : State} {a : Actor} (h : Move s a t) :
    t.log = s.log ∨ ∃ e, t.log = e :: s.log ∧ Records s a e := by
  cases h with
  | owner h =>
    cases h with
    | stored c ho => exact .inr ⟨_,rfl,.stored c ho⟩
    | onConnect c => exact .inr ⟨_,rfl,.callback _ (.onConnect c) rfl⟩
    | disconnect => exact .inr ⟨_,rfl,.disconnectCall⟩
    | pingSpawned c =>
      obtain ⟨ks,ping,ht⟩ := s.spawnPingTask_eq c
      rw [ht]
      exact .inl rfl
    | pingAborted =>
      obtain ⟨ks,ping,ht⟩ := s.abortPing_eq
      rw [ht]
      exact .inl rfl
    | readAborted =>
      obtain ⟨ks,read,ht⟩ := s.abortRead_eq
      rw [ht]
      exact .inl rfl
    | _ => exact .inl rfl
  | caller k h => cases h <;> exact .inl rfl
  | read c h =>
    cases h with
    | failed => exact .inr ⟨_,rfl,.callback _ (.onError c .io) rfl⟩
    | cleared lost hr => exact .inr ⟨_,rfl,.cleared c lost hr⟩
    | onDisconnect => exact .inr ⟨_,rfl,.callback _ (.onDisconnect c) rfl⟩
    | scheduled =>
      unfold scheduleReconnect
      dsimp only
      split_ifs
      · exact .inr ⟨_,rfl,.callback _ (.onReconnecting c _) rfl⟩
      · exact .inr ⟨_,rfl,.callback _ (.onError c _) rfl⟩
      · exact .inl rfl
    | _ => exact .inl rfl
  | write c h => cases h <;> exact .inl rfl
  | ping c h =>
    cases h with
    | passed hp => exact .inr ⟨_,rfl,.pingPassed c hp⟩
    | idTaken now frame hp => exact .inr ⟨_,rfl,.pingId c hp⟩
    | _ => exact .inl rfl

theorem eq_readStep_of_log {s t : State} {e : Event} {c : ℕ} (h : step s e = some t)
    (ha : e.actor = .readTask c) (hlog : t.log ≠ s.log) : e = .readStep c := by
  cases e with
  | readStep d =>
    cases ha
    rfl
  | read d r =>
    obtain ⟨-,h⟩ := Option.ite_none_right_eq_some.mp h
    cases r with
    | data data =>
      obtain ⟨-,h⟩ := Option.ite_none_right_eq_some.mp h
      cases h
      exact absurd rfl hlog
    | eof | error =>
      cases h
      exact absurd rfl hlog
  | readCancelled d =>
    obtain ⟨-,h⟩ := Option.ite_none_right_eq_some.mp h
    cases h
    exact absurd rfl hlog
  | _ => cases ha

/-- A connection whose tasks are being spawned is the last one made. -/
def SpawnsLatest (s : State) : Prop := ∀ c, s.owner.spawning = some c → c + 1 = s.opened

theorem OwnerMove.spawning {s t : State} (h : OwnerMove s t) {c : ℕ}
    (ht : t.owner.spawning = some c) :
    s.owner = .opening ∧ c = s.opened ∧ t.opened = s.opened + 1 ∨
      s.owner.spawning = some c ∧ t.opened = s.opened := by
  cases h with
  | tcpConnected ho =>
    cases ht
    exact .inl ⟨ho,rfl,rfl⟩
  | connected => exact .inr ⟨ht,rfl⟩
  | stored d ho | readSpawned d ho | writeSpawned d ho =>
    cases ht
    exact .inr ⟨by rw [ho]; rfl,rfl⟩
  | _ => cases ht

theorem SpawnsLatest.move {s t : State} {a : Actor} (hI : SpawnsLatest s) (h : Move s a t) :
    SpawnsLatest t := by
  intro c ht
  rcases h.owner_or with h | ⟨ho,hn,-⟩
  · rcases h.spawning ht with ⟨-,rfl,hn⟩ | ⟨hs,hn⟩
    · exact hn.symm
    · rw [hn]
      exact hI c hs
  · rw [hn]
    rw [ho] at ht
    exact hI c ht

end Rust
end MipClients
