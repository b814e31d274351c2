import MipClients.RustConnections

/-! The outgoing stream of a connection of the Rust client (`send_frame`, `send_close_internal`,
`spawn_write_task` and `spawn_ping_task` in `client/internals.rs`): what the write task gives to
`write_all` is, frame by frame, what the channel has accepted. -/
namespace MipClients
namespace Rust

open State Transition

/-- What has been handed to `write_all` for a caller of the sending methods. -/
def Connection.writtenFor (k : Connection) (j : ℕ) : List (List UInt8) :=
  (k.written.filter fun x => x.1 = .caller j).map Prod.snd

/-- What holds of the stream of a connection: what is handed to `write_all` begins, frame by frame,
what the channel accepted; a caller's accepted frames are those of its successful calls, in their
order, and those written begin them; nothing is written behind the Disconnect command; and when the
write half is being shut down, or was, with no write having failed, all that was accepted before
Disconnect has been written. -/
structure Intact (s : State) (c : ℕ) : Prop where
  written : (s.connections c).written <+: sends (s.connections c).commands.accepted
  callers : ∀ k, callerFrames k (s.connections c).commands.accepted =
    returnedFrames c (s.returned k)
  callers_written : ∀ k, (s.connections c).writtenFor k <+: returnedFrames c (s.returned k)
  disconnect_last : ∀ before source after, (s.connections c).commands.received =
    before ++ (source,.disconnect) :: after → after = [] ∧ (s.connections c).written = sends before
  flushed : (s.connections c).write = .closing ∨ (s.connections c).write = .ended false →
    (s.connections c).written =
      sends ((s.connections c).commands.accepted.takeWhile fun x => x.2 ≠ .disconnect)

theorem filter_sends (k : ℕ) (xs : List (Source × ClientCommand)) :
    ((sends xs).filter fun x => x.1 = .caller k).map Prod.snd = callerFrames k xs := by
  induction xs with
  | nil => rfl
  | cons x xs ih =>
    obtain ⟨source,command⟩ := x
    rw [← List.singleton_append,sends_append,callerFrames_append,List.filter_append,List.map_append,
      ih]
    congr 1
    by_cases hs : source = .caller k <;> cases command <;>
      simp [sends,callerFrames,frames,ClientCommand.frame,hs]

def OnlyFrames (xs : List (Source × ClientCommand)) : Prop := ∀ x ∈ xs, x.2 ≠ .disconnect

def Connection.Orderly (k : Connection) : Prop :=
  match k.write with
  | .absent => k.commands.received = []
  | .receiving | .writing | .ended true => OnlyFrames k.commands.received
  | .closing => ∃ before source, k.commands.received = before ++ [(source,.disconnect)] ∧
      OnlyFrames before
  | .ended false => (∃ before source, k.commands.received = before ++ [(source,.disconnect)] ∧
      OnlyFrames before) ∨ OnlyFrames k.commands.received ∧
        k.commands.received = k.commands.accepted

def Owner.writeDue : Owner → Option ℕ
  | .storing c | .stored c | .readSpawned c => some c
  | _ => none

structure Unspawned (s : State) : Prop where
  latest : SpawnsLatest s
  unopened : ∀ c, s.opened ≤ c → (s.connections c).write = .absent
  due : ∀ c, s.owner.writeDue = some c → (s.connections c).write = .absent

theorem Flow.write_absent {s t : State} {c : ℕ} {a : Actor} {xs : List (Source × ClientCommand)}
    (h : Flow s c a t xs) (hs : (s.connections c).write = .absent) :
    (t.connections c).write = .absent ∨ t.owner = .writeSpawned c := by
  cases h with
  | kept hk hw => exact .inl (hw.trans hs)
  | enqueued x he hc hk hw => exact .inl (hw.trans hs)
  | spawned ho ht => exact .inr ht
  | sending source data hr => cases hs.symm.trans hr
  | closing source hr => cases hs.symm.trans hr
  | hungUp hr => cases hs.symm.trans hr
  | written hr => cases hs.symm.trans hr
  | failed hr => cases hs.symm.trans hr
  | shutdown hr => cases hs.symm.trans hr

theorem OwnerMove.writeDue {s t : State} (h : OwnerMove s t) {c : ℕ}
    (ht : t.owner.writeDue = some c) :
    s.owner = .opening ∧ c = s.opened ∨ s.owner.writeDue = some c := by
  cases h with
  | tcpConnected ho =>
    cases ht
    exact .inl ⟨ho,rfl⟩
  | connected => exact .inr ht
  | stored d ho | readSpawned d ho =>
    cases ht
    exact .inr (by rw [ho]; rfl)
  | _ => cases ht

theorem Unspawned.move {s t : State} {a : Actor} (hI : Unspawned s) (h : Move s a t) :
    Unspawned t where
  latest := hI.latest.move h
  unopened := by
    intro c hc
    obtain ⟨xs,hflow,-⟩ := h.flow c
    rcases hflow.write_absent (hI.unopened c (h.opened_le.trans hc)) with hw | ho
    · exact hw
    · have := hI.latest.move h c (by rw [ho]; rfl)
      omega
  due := by
    intro c hc
    have hs : (s.connections c).write = .absent := by
      rcases h.owner_or with hm | ⟨ho,-,-⟩
      · rcases hm.writeDue hc with ⟨-,rfl⟩ | hdue
        · exact hI.unopened _ le_rfl
        · exact hI.due c hdue
      · exact hI.due c (ho ▸ hc)
    obtain ⟨xs,hflow,-⟩ := h.flow c
    rcases hflow.write_absent hs with hw | ho
    · exact hw
    · rw [ho] at hc
      cases hc

theorem OnlyFrames.append {xs : List (Source × ClientCommand)} (h : OnlyFrames xs)
    (source : Source) (data : List UInt8) : OnlyFrames (xs ++ [(source,.send data)]) := by
  intro x hx
  rcases List.mem_append.mp hx with hx | hx
  · exact h x hx
  · rw [List.mem_singleton.mp hx]
    exact nofun

theorem Flow.orderly {s t : State} {c : ℕ} {a : Actor} {xs : List (Source × ClientCommand)}
    (h : Flow s c a t xs) (hdue : s.owner.writeDue = some c → (s.connections c).write = .absent)
    (hI : (s.connections c).Orderly) : (t.connections c).Orderly := by
  unfold Connection.Orderly at hI ⊢
  cases h with
  | kept hk hw =>
    rw [hk,hw]
    exact hI
  | enqueued x he hc hk hw =>
    rw [hw,(Channel.send_eq_some hk).2]
    unfold Connection.closed at hc
    cases hs : (s.connections c).write with
    | ended failed =>
      rw [hs] at hc
      cases hc
    | _ =>
      rw [hs] at hI
      exact hI
  | spawned ho ht hk hw =>
    rw [hdue (by rw [ho]; rfl)] at hI
    rw [hw,hk]
    dsimp only at hI ⊢
    rw [hI]
    exact nofun
  | sending source data hs hk hw =>
    rw [hs] at hI
    rw [hw,(Channel.recv_eq_some hk).2]
    exact OnlyFrames.append hI source data
  | closing source hs hk hw =>
    rw [hs] at hI
    rw [hw,(Channel.recv_eq_some hk).2]
    exact ⟨_,source,rfl,hI⟩
  | hungUp hs hr hk hw =>
    rw [hs] at hI
    rw [hw,hk]
    exact .inr ⟨hI,Channel.received_of_recv_none hr⟩
  | written hs hk hw =>
    rw [hs] at hI
    rw [hw,hk]
    exact hI
  | failed hs hk hw =>
    rw [hs] at hI
    rw [hw,hk]
    exact hI
  | shutdown hs hk hw =>
    rw [hs] at hI
    rw [hw,hk]
    exact .inl hI

theorem Flow.accepted {s t : State} {c : ℕ} {a : Actor} {xs : List (Source × ClientCommand)}
    (h : Flow s c a t xs) : (t.connections c).commands.accepted =
      (s.connections c).commands.accepted ++ xs := by
  cases h with
  | kept hk | spawned _ _ hk | hungUp _ _ hk | written _ hk | failed _ hk | shutdown _ hk =>
    rw [hk,List.append_nil]
  | enqueued x he hc hk hw => exact (Channel.send_eq_some hk).1
  | sending source data hs hk hw => rw [(Channel.recv_eq_some hk).1,List.append_nil]
  | closing source hs hk hw => rw [(Channel.recv_eq_some hk).1,List.append_nil]

/-- Of the frames a caller has got into a channel, the client has told it. -/
def CallersInOrder (s : State) : Prop := ∀ c k,
  callerFrames k (s.connections c).commands.accepted = returnedFrames c (s.returned k)

theorem CallersInOrder.move {s t : State} {a : Actor} (hI : CallersInOrder s) (h : Move s a t) :
    CallersInOrder t := by
  intro c k
  obtain ⟨xs,hflow,hr⟩ := h.flow c
  rw [hflow.accepted,callerFrames_append,hr,hI c k]

structure Streams (s : State) : Prop where
  unspawned : Unspawned s
  orderly : ∀ c, (s.connections c).Orderly
  logged : ∀ c, (s.connections c).Logged
  callers : CallersInOrder s

theorem streams_init (options : MIPClientOptions) : Streams (init options) where
  unspawned := ⟨fun _ => nofun,fun _ _ => rfl,fun _ => nofun⟩
  orderly _ := rfl
  logged _ := rfl
  callers _ _ := rfl

theorem Streams.step {s t : State} {e : Event} (hI : Streams s) (h : step s e = some t) :
    Streams t where
  unspawned := hI.unspawned.move (step_move h)
  orderly c := by
    obtain ⟨xs,hflow,-⟩ := (step_move h).flow c
    exact hflow.orderly (hI.unspawned.due c) (hI.orderly c)
  logged := (step_move h).logged hI.logged
  callers := hI.callers.move (step_move h)

theorem streams (options : MIPClientOptions) (events : List Event) :
    ∀ s ∈ states step (init options) events, Streams s :=
  invariant (fun _ _ _ hI h => hI.step h) (streams_init options) events

theorem Connection.Orderly.last {k : Connection} (h : k.Orderly) {source : Source}
    {before after : List (Source × ClientCommand)}
    (hr : k.commands.received = before ++ (source,.disconnect) :: after) : after = [] := by
  have honly (hf : OnlyFrames k.commands.received) : after = [] :=
    absurd rfl (hf (source,.disconnect) (by rw [hr]; simp))
  have hlast (hf : ∃ frames source, k.commands.received = frames ++ [(source,.disconnect)] ∧
      OnlyFrames frames) : after = [] := by
    obtain ⟨xs,other,hx,hxs⟩ := hf
    rcases List.eq_nil_or_concat after with rfl | ⟨init,x,rfl⟩
    · rfl
    · rw [hr,List.concat_eq_append,← List.cons_append,← List.append_assoc] at hx
      obtain ⟨hx,-⟩ := List.append_inj' hx rfl
      exact absurd rfl (hxs (source,.disconnect) (by rw [← hx]; simp))
  unfold Connection.Orderly at h
  split at h
  · rw [h] at hr
    simp at hr
  · exact honly h
  · exact honly h
  · exact honly h
  · exact hlast h
  · rcases h with h | ⟨h,-⟩
    · exact hlast h
    · exact honly h

theorem takeWhile_onlyFrames {xs : List (Source × ClientCommand)} (h : OnlyFrames xs)
    (ys : List (Source × ClientCommand)) :
    (xs ++ ys).takeWhile (fun x => x.2 ≠ .disconnect) =
      xs ++ ys.takeWhile fun x => x.2 ≠ .disconnect :=
  List.takeWhile_append_of_pos fun x hx => by simpa using h x hx

/-- Behind Disconnect, and behind the end of a channel that no one can send into, all frames accepted
before a Disconnect have been received. -/
theorem Connection.Orderly.flushed {k : Connection} (h : k.Orderly)
    (hw : k.write = .closing ∨ k.write = .ended false) : sends k.commands.received =
      sends (k.commands.accepted.takeWhile fun x => x.2 ≠ .disconnect) := by
  have hlast (hf : ∃ before source, k.commands.received = before ++ [(source,.disconnect)] ∧
      OnlyFrames before) : sends k.commands.received =
        sends (k.commands.accepted.takeWhile fun x => x.2 ≠ .disconnect) := by
    obtain ⟨xs,source,hx,hxs⟩ := hf
    rw [k.commands.fifo,hx,List.append_assoc,takeWhile_onlyFrames hxs,sends_append,sends_append]
    simp [sends,ClientCommand.frame]
  unfold Connection.Orderly at h
  rcases hw with hw | hw
  · rw [hw] at h
    exact hlast h
  · rw [hw] at h
    rcases h with h | ⟨h,heq⟩
    · exact hlast h
    · rw [← heq]
      have := takeWhile_onlyFrames h []
      rw [List.append_nil] at this
      rw [this,List.takeWhile_nil,List.append_nil]

/-- What has been written begins what the channel has accepted. -/
theorem Connection.Logged.written_le {k : Connection} (h : k.Logged) :
    k.written <+: sends k.commands.accepted := by
  rw [h]
  exact k.commands.received_prefix.filterMap _

theorem Connection.Logged.writtenFor {k : Connection} (h : k.Logged) (j : ℕ) :
    k.writtenFor j = callerFrames j k.commands.received := by
  rw [Connection.writtenFor,h,filter_sends]

theorem callerFrames_prefix (k : ℕ) {xs ys : List (Source × ClientCommand)} (h : xs <+: ys) :
    callerFrames k xs <+: callerFrames k ys := (h.filter _).filterMap _

theorem Streams.writtenFor {s : State} (hI : Streams s) (c k : ℕ) :
    (s.connections c).writtenFor k <+: returnedFrames c (s.returned k) := by
  rw [← hI.callers c k,(hI.logged c).writtenFor]
  exact callerFrames_prefix k (s.connections c).commands.received_prefix

/-- In every interleaving of the callers, of `connect()` and `disconnect()` and of the tasks, the
outgoing stream of each connection is intact. -/
theorem outgoing_intact (options : MIPClientOptions) (events : List Event) :
    ∀ s ∈ states step (init options) events, ∀ c, Intact s c := by
  intro s hs c
  have hI := streams options events s hs
  refine {
    written := (hI.logged c).written_le
    callers := hI.callers c
    callers_written := hI.writtenFor c
    disconnect_last := fun before source after hr => ?_
    flushed := fun hw => (hI.logged c).trans ((hI.orderly c).flushed hw) }
  have hlast := (hI.orderly c).last hr
  refine ⟨hlast,?_⟩
  rw [hI.logged c,hr,hlast,sends_append]
  exact List.append_nil _

def deliveredRun : List Event :=
  connectRun ++
    [.call 0 (.publish ['t'] ['m'] FrameFlags.none),.sendFrame 0 7,.sendFrame 0 7,.disconnectCall] ++
    List.replicate 5 (.advance 9) ++
    [.recv 0,.written 0,.recv 0,.written 0,.recv 0,.written 0,.recv 0,.shutdown 0]

/-- HELLO, PUBLISH and CLOSE have been written. -/
theorem outgoing_intact_delivered : ∃ s ∈ run step (init {}) deliveredRun,
    (s.connections 0).write = .ended false ∧
      (s.connections 0).written.map Prod.fst = [.connect,.caller 0,.disconnect] ∧ Intact s 0 := by
  have hrun : ∃ s ∈ run step (init {}) deliveredRun, (s.connections 0).write = .ended false ∧
      (s.connections 0).written.map Prod.fst = [.connect,.caller 0,.disconnect] := by
    decide +kernel
  obtain ⟨s,hs,hw,hn⟩ := hrun
  exact ⟨s,hs,hw,hn,outgoing_intact {} deliveredRun s (run_mem_states hs) 0⟩

end Rust
end MipClients
