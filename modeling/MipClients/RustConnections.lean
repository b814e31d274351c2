import MipClients.RustMoves

/-! What one step of the Rust client does to a connection: it changes at most one, and there it puts
a command into the channel or moves one of the three tasks. -/
namespace MipClients
namespace Rust

open State
open Wire (Emission)

def ClientCommand.frame : ClientCommand → Option (List UInt8)
  | .send data => some data
  | .disconnect => none

def frames (xs : List (Source × ClientCommand)) : List (List UInt8) :=
  xs.filterMap fun x => x.2.frame

def sends (xs : List (Source × ClientCommand)) : List (Source × List UInt8) :=
  xs.filterMap fun x => x.2.frame.map (x.1,·)

def callerFrames (k : ℕ) (xs : List (Source × ClientCommand)) : List (List UInt8) :=
  frames (xs.filter fun x => x.1 = .caller k)

@[simp] theorem frames_append (xs ys : List (Source × ClientCommand)) :
    frames (xs ++ ys) = frames xs ++ frames ys := List.filterMap_append

@[simp] theorem callerFrames_append (k : ℕ) (xs ys : List (Source × ClientCommand)) :
    callerFrames k (xs ++ ys) = callerFrames k xs ++ callerFrames k ys := by
  rw [callerFrames,List.filter_append,frames_append]
  rfl

@[simp] theorem sends_append (xs ys : List (Source × ClientCommand)) :
    sends (xs ++ ys) = sends xs ++ sends ys := List.filterMap_append

theorem mem_sends {xs : List (Source × ClientCommand)} {source : Source} {data : List UInt8} :
    (source,data) ∈ sends xs ↔ (source,.send data) ∈ xs := by
  rw [sends,List.mem_filterMap]
  constructor
  · rintro ⟨⟨other,command⟩,hx,hdata⟩
    cases command with
    | disconnect => cases hdata
    | send d =>
      cases hdata
      exact hx
  · exact fun hx => ⟨_,hx,rfl⟩

/-- The frames of the calls that returned an id and went to the connection. -/
def returnedFrames (c : ℕ) (xs : List (Call × Outcome)) : List (List UInt8) :=
  xs.filterMap fun x => match x.2 with
    | .ok d msgId => if d = c then some (x.1.bytes msgId) else none
    | .notConnected => none

def ReadTask.past : ReadTask → Bool
  | .swapped _ _ | .reported _ | .sleeping | .done => true
  | _ => false

theorem ReadTask.past_of_looping {r : ReadTask} (h : r.looping = true) : r.past = false := by
  cases r with
  | checking | reading | handling => rfl
  | _ => cases h

inductive Enqueues (s : State) (c : ℕ) : Actor → State → Source × ClientCommand → Prop
  | hello {t : State} (msgId : UInt64) (frame : List UInt8)
      (ho : s.owner = .helloBuilt c msgId frame) :
      Enqueues s c .owner t (.connect,.send frame)
  | close {t : State} (frame : List UInt8) (ho : s.owner = .sendingClose c frame)
      (ht : t.owner = .sendingDisconnect c) :
      Enqueues s c .owner t (.disconnect,.send frame)
  | disconnect {t : State} (ho : s.owner = .sendingDisconnect c) :
      Enqueues s c .owner t (.disconnect,.disconnect)
  | caller {t : State} (k : ℕ) (data : List UInt8) :
      Enqueues s c (.caller k) t (.caller k,.send data)
  | ping {t : State} (frame : List UInt8) (hp : (s.connections c).ping = .sending frame) :
      Enqueues s c (.pingTask c) t (.ping,.send frame)

/-- What a step makes of the connection that it changes, with the commands that it puts in. -/
inductive Touch (s : State) (c : ℕ) :
    Actor → State → List (Source × ClientCommand) → Connection → Prop
  | same {a : Actor} {t : State} : Touch s c a t [] (s.connections c)
  | readSpawned {t : State} (ho : s.owner = .stored c) :
      Touch s c .owner t [] { s.connections c with read := .checking }
  | writeSpawned {t : State} (ho : s.owner = .readSpawned c) (ht : t.owner = .writeSpawned c) :
      Touch s c .owner t [] { s.connections c with write := .receiving }
  | pingSpawned {t : State} (ho : s.owner = .writeSpawned c) :
      Touch s c .owner t [] { s.connections c with ping := .ticking }
  | pingAborted {t : State} : Touch s c .owner t [] { s.connections c with pingAborted := true }
  | readAborted {t : State} : Touch s c .owner t [] { s.connections c with readAborted := true }
  | enqueued {a : Actor} {t : State} {x : Source × ClientCommand} {k : Connection}
      (hq : (s.connections c).Enqueued x k) (he : Enqueues s c a t x) : Touch s c a t [x] k
  | read {t : State} (r : ReadTask) (buffer : List UInt8)
      (emitted : List (Emission Header MIPError))
      (hr : (s.connections c).read.past = true → r.past = true) :
      Touch s c (.readTask c) t [] { s.connections c with
        read := r
        buffer := buffer
        emitted := emitted }
  | sending {t : State} (source : Source) (data : List UInt8)
      (ch : Channel (Source × ClientCommand) 100) (hw : (s.connections c).write = .receiving)
      (hr : (s.connections c).commands.recv = some ((source,.send data),ch)) :
      Touch s c (.writeTask c) t [] ({ s.connections c with commands := ch }.writeAll source data)
  | closing {t : State} (source : Source) (ch : Channel (Source × ClientCommand) 100)
      (hw : (s.connections c).write = .receiving)
      (hr : (s.connections c).commands.recv = some ((source,.disconnect),ch)) :
      Touch s c (.writeTask c) t [] { s.connections c with
        commands := ch
        write := .closing }
  | hungUp {t : State} (hw : (s.connections c).write = .receiving)
      (hr : (s.connections c).commands.recv = none) :
      Touch s c (.writeTask c) t [] { s.connections c with write := .ended false }
  | written {t : State} (hw : (s.connections c).write = .writing) :
      Touch s c (.writeTask c) t [] { s.connections c with write := .receiving }
  | failed {t : State} (hw : (s.connections c).write = .writing) :
      Touch s c (.writeTask c) t [] { s.connections c with write := .ended true }
  | shutdown {t : State} (hw : (s.connections c).write = .closing) :
      Touch s c (.writeTask c) t [] { s.connections c with write := .ended false }
  | ticked {t : State} (hp : (s.connections c).ping = .ticking) :
      Touch s c (.pingTask c) t [] { s.connections c with ping := .connectedSeen }
  | passed {t : State} (hp : (s.connections c).ping = .connectedSeen) (hr : s.running = true) :
      Touch s c (.pingTask c) t [] { s.connections c with ping := .checked }
  | idTaken {t : State} (frame : List UInt8) (hp : (s.connections c).ping = .checked) :
      Touch s c (.pingTask c) t [] { s.connections c with ping := .sending frame }
  | pingSent {t : State} (frame : List UInt8) (k : Connection)
      (hp : (s.connections c).ping = .sending frame)
      (hq : (s.connections c).Enqueued (.ping,.send frame) k) :
      Touch s c (.pingTask c) t [(.ping,.send frame)] { k with ping := .ticking }
  | pingLost {t : State} (frame : List UInt8) (hp : (s.connections c).ping = .sending frame) :
      Touch s c (.pingTask c) t [] { s.connections c with ping := .ticking }
  | pingEnded {t : State} : Touch s c (.pingTask c) t [] { s.connections c with ping := .ended }

theorem Touch.turned {s t : State} {c : ℕ} (r : ReadTask)
    (hr : (s.connections c).read.past = true → r.past = true) :
    Touch s c (.readTask c) t [] { s.connections c with read := r } := .read r _ _ hr

/-- One connection changes, and the calls that return account for what callers have put in. -/
def Changes (s : State) (a : Actor) (t : State) : Prop :=
  ∃ c xs k, t.connections = Function.update s.connections c k ∧ Touch s c a t xs k ∧
    ∀ j d, returnedFrames d (t.returned j) =
      returnedFrames d (s.returned j) ++ if d = c then callerFrames j xs else []

theorem Changes.none {s t : State} {a : Actor} (hc : t.connections = s.connections)
    (hr : ∀ j d, returnedFrames d (t.returned j) = returnedFrames d (s.returned j)) :
    Changes s a t := by
  refine ⟨0,[],s.connections 0,?_,.same,fun j d => ?_⟩
  · rw [hc,Function.update_eq_self]
  · rw [hr]
    split_ifs <;> exact (List.append_nil _).symm

theorem Changes.of_touch {s t : State} {a : Actor} {c : ℕ} {k : Connection}
    (hc : t.connections = Function.update s.connections c k) (ht : Touch s c a t [] k)
    (hr : t.returned = s.returned) : Changes s a t := by
  refine ⟨c,[],k,hc,ht,fun j d => ?_⟩
  rw [hr]
  split_ifs <;> exact (List.append_nil _).symm

theorem Changes.of_enqueue {s t : State} {a : Actor} {c : ℕ} {k : Connection} {source : Source}
    {command : ClientCommand} (hc : t.connections = Function.update s.connections c k)
    (ht : Touch s c a t [(source,command)] k) (hs : ∀ j, source ≠ .caller j)
    (hr : t.returned = s.returned) : Changes s a t := by
  refine ⟨c,_,k,hc,ht,fun j d => ?_⟩
  have hnone : callerFrames j [(source,command)] = [] := by simp [callerFrames,frames,hs j]
  rw [hr,hnone]
  split_ifs <;> exact (List.append_nil _).symm

theorem OwnerMove.changes {s t : State} (h : OwnerMove s t) : Changes s .owner t := by
  cases h with
  | readSpawned c ho => exact .of_touch (c := c) (by rfl) (.readSpawned ho) (by rfl)
  | writeSpawned c ho => exact .of_touch (c := c) (by rfl) (.writeSpawned ho rfl) (by rfl)
  | pingSpawned c ho =>
    unfold spawnPingTask
    split_ifs
    · exact .none rfl fun _ _ => rfl
    · exact .of_touch (c := c) (by rfl) (.pingSpawned ho) (by rfl)
  | helloAccepted c msgId frame k ho hk =>
    exact .of_enqueue (c := c) (k := k) (by rfl) (.enqueued (Connection.trySend_eq_some hk)
      (.hello msgId frame ho)) (fun _ => nofun) (by rfl)
  | closeSent c frame k ho hk =>
    rcases Connection.send_eq_some hk with ⟨-,rfl⟩ | hq
    · exact .of_touch (c := c) (by rfl) .same (by rfl)
    · exact .of_enqueue (c := c) (k := k) (by rfl) (.enqueued hq (.close frame ho rfl))
        (fun _ => nofun) (by rfl)
  | disconnectSent c k ho hk =>
    rcases Connection.send_eq_some hk with ⟨-,rfl⟩ | hq
    · exact .of_touch (c := c) (by rfl) .same (by rfl)
    · exact .of_enqueue (c := c) (k := k) (by rfl) (.enqueued hq (.disconnect ho))
        (fun _ => nofun) (by rfl)
  | pingAborted ho =>
    unfold abortPing
    split
    · next c _ => exact .of_touch (c := c) (by rfl) .pingAborted (by rfl)
    · exact .none rfl fun _ _ => rfl
  | readAborted ho =>
    unfold abortRead
    split
    · next c _ => exact .of_touch (c := c) (by rfl) .readAborted (by rfl)
    · exact .none rfl fun _ _ => rfl
  | _ => exact .none rfl fun _ _ => rfl

theorem returnedFrames_finishCall (s : State) (c j k : ℕ) (call : Call) (outcome : Outcome) :
    returnedFrames c ((s.finishCall k call outcome).returned j) =
      returnedFrames c (s.returned j) ++ if j = k then returnedFrames c [(call,outcome)] else [] := by
  unfold finishCall
  by_cases h : j = k
  · subst h
    simp [returnedFrames]
  · simp [h]

theorem CallerMove.changes {s t : State} {k : ℕ} (h : CallerMove s k t) :
    Changes s (.caller k) t := by
  cases h with
  | checked => exact .none rfl fun _ _ => rfl
  | idTaken => exact .none rfl fun _ _ => rfl
  | refused call =>
    refine .none rfl fun j d => ?_
    rw [returnedFrames_finishCall]
    split_ifs <;> exact List.append_nil _
  | accepted call c msgId connection hk =>
    refine ⟨c,_,connection,rfl,.enqueued (Connection.trySend_eq_some hk)
      (.caller k (call.bytes msgId)),fun j d => ?_⟩
    rw [returnedFrames_finishCall]
    congr 1
    by_cases hjk : j = k <;> by_cases hdc : d = c <;>
      simp [returnedFrames,callerFrames,frames,ClientCommand.frame,eq_comm (a := c) (b := d),
        eq_comm (a := k) (b := j),hjk,hdc]

theorem ReadMove.changes {s t : State} {c : ℕ} (h : ReadMove s c t) :
    Changes s (.readTask c) t := by
  have hbefore {r : ReadTask} (hno : (s.connections c).read.past = false)
      (hp : (s.connections c).read.past = true) : r.past = true := by
    rw [hno] at hp
    cases hp
  cases h with
  | received data hr =>
    exact .of_touch (c := c) (by rfl)
      (.read .handling _ _ (hbefore (by rw [hr]; rfl))) (by rfl)
  | handled out rest r hr =>
    exact .of_touch (c := c) (by rfl) (.read r rest _ (hbefore (by rw [hr]; rfl))) (by rfl)
  | before r hr =>
    exact .of_touch (c := c) (by rfl) (.turned r (hbefore (ReadTask.past_of_looping hr))) (by rfl)
  | failed hr =>
    exact .of_touch (c := c) (by rfl) (.turned (.leaving true) (hbefore (by rw [hr]; rfl))) (by rfl)
  | cleared lost hr =>
    exact .of_touch (c := c) (by rfl) (.turned (.swapped true lost) fun _ => rfl) (by rfl)
  | unchanged lost hr =>
    exact .of_touch (c := c) (by rfl) (.turned (.swapped false lost) fun _ => rfl) (by rfl)
  | onDisconnect lost hr | silent lost hr =>
    exact .of_touch (c := c) (by rfl) (.turned (.reported lost) fun _ => rfl) (by rfl)
  | scheduled lost hr =>
    unfold scheduleReconnect
    dsimp only
    split_ifs
    · exact .of_touch (c := c) (by rfl) (.turned .sleeping fun _ => rfl) (by rfl)
    · exact .of_touch (c := c) (by rfl) (.turned .done fun _ => rfl) (by rfl)
    · exact .of_touch (c := c) (by rfl) (.turned .done fun _ => rfl) (by rfl)
  | ended => exact .of_touch (c := c) (by rfl) (.turned .done fun _ => rfl) (by rfl)

theorem WriteMove.changes {s t : State} {c : ℕ} (h : WriteMove s c t) :
    Changes s (.writeTask c) t := by
  cases h with
  | sending source data ch hw hr =>
    exact .of_touch (c := c) (by rfl) (.sending source data ch hw hr) (by rfl)
  | closing source ch hw hr =>
    exact .of_touch (c := c) (by rfl) (.closing source ch hw hr) (by rfl)
  | hungUp hw hr => exact .of_touch (c := c) (by rfl) (.hungUp hw hr) (by rfl)
  | written hw => exact .of_touch (c := c) (by rfl) (.written hw) (by rfl)
  | failed hw => exact .of_touch (c := c) (by rfl) (.failed hw) (by rfl)
  | shutdown hw => exact .of_touch (c := c) (by rfl) (.shutdown hw) (by rfl)

theorem PingMove.changes {s t : State} {c : ℕ} (h : PingMove s c t) :
    Changes s (.pingTask c) t := by
  cases h with
  | ticked hp => exact .of_touch (c := c) (by rfl) (.ticked hp) (by rfl)
  | passed hp hr => exact .of_touch (c := c) (by rfl) (.passed hp hr) (by rfl)
  | idTaken now frame hp => exact .of_touch (c := c) (by rfl) (.idTaken frame hp) (by rfl)
  | sent frame k hp hk =>
    rcases Connection.send_eq_some hk with ⟨-,rfl⟩ | hq
    · exact .of_touch (c := c) (by rfl) (.pingLost frame hp) (by rfl)
    · exact .of_enqueue (c := c) (by rfl) (.pingSent frame k hp hq) (fun _ => nofun) (by rfl)
  | ended => exact .of_touch (c := c) (by rfl) .pingEnded (by rfl)

theorem Move.changes {s t : State} {a : Actor} (h : Move s a t) : Changes s a t := by
  cases h with
  | owner h => exact h.changes
  | caller k h => exact h.changes
  | read c h => exact h.changes
  | write c h => exact h.changes
  | ping c h => exact h.changes

/-- What a step does to the channel and to the write task of a connection, with the commands that it
puts in. -/
inductive Flow (s : State) (c : ℕ) (a : Actor) (t : State) : List (Source × ClientCommand) → Prop
  | kept (hk : (t.connections c).commands = (s.connections c).commands)
      (hw : (t.connections c).write = (s.connections c).write) : Flow s c a t []
  | enqueued (x : Source × ClientCommand) (he : Enqueues s c a t x)
      (hc : (s.connections c).closed = false)
      (hk : (s.connections c).commands.send x = some (t.connections c).commands)
      (hw : (t.connections c).write = (s.connections c).write) : Flow s c a t [x]
  | spawned (ho : s.owner = .readSpawned c) (ht : t.owner = .writeSpawned c)
      (hk : (t.connections c).commands = (s.connections c).commands)
      (hw : (t.connections c).write = .receiving) : Flow s c a t []
  | sending (source : Source) (data : List UInt8) (hs : (s.connections c).write = .receiving)
      (hk : (s.connections c).commands.recv =
        some ((source,.send data),(t.connections c).commands))
      (hw : (t.connections c).write = .writing) : Flow s c a t []
  | closing (source : Source) (hs : (s.connections c).write = .receiving)
      (hk : (s.connections c).commands.recv =
        some ((source,.disconnect),(t.connections c).commands))
      (hw : (t.connections c).write = .closing) : Flow s c a t []
  | hungUp (hs : (s.connections c).write = .receiving) (hr : (s.connections c).commands.recv = none)
      (hk : (t.connections c).commands = (s.connections c).commands)
      (hw : (t.connections c).write = .ended false) : Flow s c a t []
  | written (hs : (s.connections c).write = .writing)
      (hk : (t.connections c).commands = (s.connections c).commands)
      (hw : (t.connections c).write = .receiving) : Flow s c a t []
  | failed (hs : (s.connections c).write = .writing)
      (hk : (t.connections c).commands = (s.connections c).commands)
      (hw : (t.connections c).write = .ended true) : Flow s c a t []
  | shutdown (hs : (s.connections c).write = .closing)
      (hk : (t.connections c).commands = (s.connections c).commands)
      (hw : (t.connections c).write = .ended false) : Flow s c a t []

theorem Touch.flow {s t : State} {a : Actor} {c : ℕ} {xs : List (Source × ClientCommand)}
    {k : Connection} (h : Touch s c a t xs k) (hk : t.connections c = k) : Flow s c a t xs := by
  subst hk
  generalize hn : t.connections c = n at h
  cases h with
  | enqueued hq he =>
    exact .enqueued _ he hq.closed (by rw [hn]; exact hq.commands) (by rw [hn]; exact hq.write)
  | writeSpawned ho ht => exact .spawned ho ht (by rw [hn]) (by rw [hn])
  | sending source data ch hw hr =>
    exact .sending source data hw (by rw [hn]; exact hr) (by rw [hn]; rfl)
  | closing source ch hw hr => exact .closing source hw (by rw [hn]; exact hr) (by rw [hn])
  | hungUp hw hr => exact .hungUp hw hr (by rw [hn]) (by rw [hn])
  | written hw => exact .written hw (by rw [hn]) (by rw [hn])
  | failed hw => exact .failed hw (by rw [hn]) (by rw [hn])
  | shutdown hw => exact .shutdown hw (by rw [hn]) (by rw [hn])
  | pingSent frame k hp hq =>
    exact .enqueued _ (.ping frame hp) hq.closed (by rw [hn]; exact hq.commands)
      (by rw [hn]; exact hq.write)
  | _ => exact .kept (by rw [hn]) (by rw [hn])

/-- What has been handed to `write_all` is, command by command, what the write task has received. -/
def Connection.Logged (k : Connection) : Prop := k.written = sends k.commands.received

theorem Connection.Enqueued.logged {k k' : Connection} {x : Source × ClientCommand}
    (h : k.Enqueued x k') (hk : k.Logged) : k'.Logged := by
  unfold Logged at hk ⊢
  rw [h.written,(Channel.send_eq_some h.commands).2,hk]

theorem Touch.logged {s t : State} {a : Actor} {c : ℕ} {xs : List (Source × ClientCommand)}
    {k : Connection} (h : Touch s c a t xs k) (hs : (s.connections c).Logged) : k.Logged := by
  cases h with
  | enqueued hq => exact hq.logged hs
  | pingSent frame k hp hq => exact hq.logged hs
  | sending source data ch hw hr =>
    have hsame : (s.connections c).written = sends (s.connections c).commands.received := hs
    change (s.connections c).written ++ [(source,data)] = sends ch.received
    rw [(Channel.recv_eq_some hr).2,sends_append,hsame]
    rfl
  | closing source ch hw hr =>
    have hsame : (s.connections c).written = sends (s.connections c).commands.received := hs
    change (s.connections c).written = sends ch.received
    rw [(Channel.recv_eq_some hr).2,sends_append,hsame]
    exact (List.append_nil _).symm
  | _ => exact hs

inductive PingFlow (s : State) (c : ℕ) (t : State) : Prop
  | kept (ht : (t.connections c).ping = (s.connections c).ping) : PingFlow s c t
  | spawned (ho : s.owner = .writeSpawned c) (ht : (t.connections c).ping = .ticking) :
      PingFlow s c t
  | ticked (hs : (s.connections c).ping = .ticking)
      (ht : (t.connections c).ping = .connectedSeen) : PingFlow s c t
  | passed (hs : (s.connections c).ping = .connectedSeen) (hr : s.running = true)
      (ht : (t.connections c).ping = .checked) : PingFlow s c t
  | idTaken (frame : List UInt8) (hs : (s.connections c).ping = .checked)
      (ht : (t.connections c).ping = .sending frame) : PingFlow s c t
  | sent (frame : List UInt8) (hs : (s.connections c).ping = .sending frame)
      (ht : (t.connections c).ping = .ticking) : PingFlow s c t
  | ended (ht : (t.connections c).ping = .ended) : PingFlow s c t

theorem Touch.pingFlow {s t : State} {a : Actor} {c : ℕ} {xs : List (Source × ClientCommand)}
    {k : Connection} (h : Touch s c a t xs k) (hk : t.connections c = k) : PingFlow s c t := by
  subst hk
  generalize hn : t.connections c = n at h
  cases h with
  | pingSpawned ho => exact .spawned ho (by rw [hn])
  | enqueued hq => exact .kept (by rw [hn]; exact hq.ping)
  | ticked hp => exact .ticked hp (by rw [hn])
  | passed hp hr => exact .passed hp hr (by rw [hn])
  | idTaken frame hp => exact .idTaken frame hp (by rw [hn])
  | pingSent frame k hp => exact .sent frame hp (by rw [hn])
  | pingLost frame hp => exact .sent frame hp (by rw [hn])
  | pingEnded => exact .ended (by rw [hn])
  | sending source data ch hw hr => exact .kept (by rw [hn]; rfl)
  | _ => exact .kept (by rw [hn])

/-- A read task stays behind its swap, unless `connect()` is spawning it. -/
theorem Touch.read_past {s t : State} {a : Actor} {c : ℕ} {xs : List (Source × ClientCommand)}
    {k : Connection} (h : Touch s c a t xs k) (hs : (s.connections c).read.past = true) :
    k.read.past = true ∨ s.owner = .stored c := by
  cases h with
  | readSpawned ho => exact .inr ho
  | enqueued hq =>
    rw [hq.read]
    exact .inl hs
  | read r buffer emitted hr => exact .inl (hr hs)
  | pingSent frame k hp hq => exact .inl (hq.read ▸ hs)
  | _ => exact .inl hs

/-- What goes into a channel is what the returned calls account for. -/
theorem Move.flow {s t : State} {a : Actor} (h : Move s a t) (c : ℕ) : ∃ xs, Flow s c a t xs ∧
    ∀ k, returnedFrames c (t.returned k) = returnedFrames c (s.returned k) ++ callerFrames k xs := by
  obtain ⟨d,xs,k,hc,ht,hr⟩ := h.changes
  by_cases hcd : c = d
  · subst hcd
    refine ⟨xs,ht.flow (by rw [hc,Function.update_self]),fun j => ?_⟩
    rw [hr j c,if_pos rfl]
  · have hother : t.connections c = s.connections c := by rw [hc,Function.update_of_ne hcd]
    refine ⟨[],.kept (by rw [hother]) (by rw [hother]),fun j => ?_⟩
    rw [hr j c,if_neg hcd]
    rfl

theorem Move.logged {s t : State} {a : Actor} (h : Move s a t)
    (hs : ∀ c, (s.connections c).Logged) (c : ℕ) : (t.connections c).Logged := by
  obtain ⟨d,xs,k,hc,ht,-⟩ := h.changes
  by_cases hcd : c = d
  · subst hcd
    rw [hc,Function.update_self]
    exact ht.logged (hs c)
  · rw [hc,Function.update_of_ne hcd]
    exact hs c

theorem Move.pingFlow {s t : State} {a : Actor} (h : Move s a t) (c : ℕ) : PingFlow s c t := by
  obtain ⟨d,xs,k,hc,ht,-⟩ := h.changes
  by_cases hcd : c = d
  · subst hcd
    exact ht.pingFlow (by rw [hc,Function.update_self])
  · exact .kept (by rw [hc,Function.update_of_ne hcd])

theorem Move.read_past {s t : State} {a : Actor} (h : Move s a t) {c : ℕ}
    (hs : (s.connections c).read.past = true) :
    (t.connections c).read.past = true ∨ s.owner = .stored c := by
  obtain ⟨d,xs,k,hc,ht,-⟩ := h.changes
  by_cases hcd : c = d
  · subst hcd
    rw [hc,Function.update_self]
    exact ht.read_past hs
  · rw [hc,Function.update_of_ne hcd]
    exact .inl hs

end Rust
end MipClients
