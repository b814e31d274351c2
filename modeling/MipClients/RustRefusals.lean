import MipClients.RustMoves
import MipClients.Transition

/-! `NotConnected` from the Rust client's `send_frame` (`client/internals.rs`), in any interleaving
of its callers with the tasks: what a refused call tells about the client, and the one case in which
it tells something wrong. -/
namespace MipClients
namespace Rust

open Transition (states steps run)

/-- The channel into which a step is about to put a frame with `try_send`. -/
def State.trySends (s : State) : Event → Option ℕ
  | .sendFrame k _ => match s.callers k with
    | .idTaken _ c _ => some c
    | _ => none
  | .advance _ => match s.owner with
    | .helloBuilt c _ _ => some c
    | _ => none
  | _ => none

/-- A call of `send_frame` has returned `NotConnected`, to a caller or to `connect()`. -/
def Refused (s t : State) : Prop :=
  (∃ k call, t.returned k = s.returned k ++ [(call,.notConnected)]) ∨
    s.owner ≠ .helloFailed ∧ t.owner = .helloFailed

/-- The client has no command channel, is not connected, or the write task that takes from the
channel in use has ended. -/
def NotConnectedAt (s : State) (e : Event) : Prop :=
  s.commandTx = none ∨ s.connected = false ∨
    ∃ c, s.trySends e = some c ∧ (s.connections c).closed = true

/-- The frame is to go to a channel that holds a hundred commands already, of a client that is
connected and has its write task. -/
def MeetsFullChannel (s : State) (e : Event) : Prop :=
  ¬NotConnectedAt s e ∧
    ∃ c, s.trySends e = some c ∧ (s.connections c).commands.queue.length = 100

def RefusalsTruthful (options : MIPClientOptions) (events : List Event) : Prop :=
  ∀ p ∈ steps step (init options) events, ∀ t, step p.1 p.2 = some t → Refused p.1 t →
    NotConnectedAt p.1 p.2

theorem Connection.trySend_eq_none_iff (k : Connection) (x : Source × ClientCommand) :
    k.trySend x = none ↔ k.closed = true ∨ k.commands.queue.length = 100 := by
  unfold trySend
  split_ifs with hclosed
  · simp [hclosed]
  · rw [Option.map_eq_none_iff,Channel.send_eq_none_iff,or_iff_right hclosed]

theorem notConnectedAt_of_sender {s : State} (h : s.sender = none) (e : Event) :
    NotConnectedAt s e := by
  unfold State.sender at h
  split_ifs at h with hc
  · exact .inl h
  · exact .inr (.inl (by simpa using hc))

/-- A refusal behind the checks: the channel is closed, or it is full. -/
theorem truthful_or_full {s : State} {e : Event} {c : ℕ} {x : Source × ClientCommand}
    (htry : s.trySends e = some c) (hrefused : (s.connections c).trySend x = none) :
    NotConnectedAt s e ∨ MeetsFullChannel s e := by
  by_cases hno : NotConnectedAt s e
  · exact .inl hno
  · rcases ((s.connections c).trySend_eq_none_iff x).mp hrefused with hclosed | hfull
    · exact .inl (.inr (.inr ⟨c,htry,hclosed⟩))
    · exact .inr ⟨hno,c,htry,hfull⟩

theorem Move.returned {s t : State} {a : Actor} (h : Move s a t) (ha : ∀ k, a ≠ .caller k) :
    t.returned = s.returned := by
  cases h with
  | owner h =>
    cases h with
    | pingSpawned c =>
      obtain ⟨ks,ping,ht⟩ := s.spawnPingTask_eq c
      rw [ht]
      rfl
    | pingAborted =>
      obtain ⟨ks,ping,ht⟩ := s.abortPing_eq
      rw [ht]
      rfl
    | readAborted =>
      obtain ⟨ks,read,ht⟩ := s.abortRead_eq
      rw [ht]
      rfl
    | _ => rfl
  | caller k h => exact absurd rfl (ha k)
  | read c h =>
    cases h with
    | scheduled =>
      obtain ⟨ks,attempts,log,ht⟩ := s.scheduleReconnect_eq c
      rw [ht]
    | _ => rfl
  | write c h => cases h <;> rfl
  | ping c h => cases h <;> rfl

theorem returned_finishCall {s : State} {k k' : ℕ} {call call' : Call} {outcome outcome' : Outcome}
    (h : (s.finishCall k call outcome).returned k' = s.returned k' ++ [(call',outcome')]) :
    outcome' = outcome := by
  by_cases hk : k' = k
  · subst hk
    rw [State.finishCall_returned_self] at h
    have hlast := List.append_cancel_left h
    simp only [List.cons.injEq,Prod.mk.injEq,and_true] at hlast
    exact hlast.2.symm
  · rw [State.finishCall_returned_of_ne _ hk] at h
    have hlen := congrArg List.length h
    simp at hlen

theorem ne_append_singleton {α : Type*} (l : List α) (a : α) : l ≠ l ++ [a] := by
  intro h
  have hlen := congrArg List.length h
  simp at hlen

/-- A caller is refused by the checks, or because the channel is closed or full. -/
theorem caller_refused {s t : State} {e : Event} {k : ℕ} {call : Call} (h : step s e = some t)
    (hrefused : t.returned k = s.returned k ++ [(call,.notConnected)]) :
    NotConnectedAt s e ∨ MeetsFullChannel s e := by
  by_cases ha : ∀ k, e.actor ≠ .caller k
  · rw [(step_move h).returned ha] at hrefused
    exact absurd hrefused (ne_append_singleton _ _)
  · cases e with
    | call k' call' =>
      obtain ⟨-,h⟩ := Option.ite_none_right_eq_some.mp h
      cases h
      unfold State.startCall at hrefused
      cases hs : s.sender with
      | none => exact .inl (notConnectedAt_of_sender hs _)
      | some c =>
        rw [hs] at hrefused
        exact absurd hrefused (ne_append_singleton _ _)
    | sendFrame k' now =>
      replace h : s.sendFrame k' now = some t := h
      unfold State.sendFrame at h
      cases hk : s.callers k' with
      | idle => simp [hk] at h
      | checked call' c =>
        simp only [hk] at h
        cases h
        exact absurd hrefused (ne_append_singleton _ _)
      | idTaken call' c msgId =>
        have htry : s.trySends (.sendFrame k' now) = some c := by simp only [State.trySends,hk]
        simp only [hk] at h
        split at h
        · cases h
          exact absurd (returned_finishCall hrefused) (by simp)
        · next hnone => exact truthful_or_full htry hnone
    | _ => exact absurd (fun k => by simp [Event.actor]) ha

theorem advance_of_owner {s t : State} {e : Event} (h : step s e = some t)
    (ha : e.actor = .owner) (hidle : s.owner ≠ .idle) (hopening : s.owner ≠ .opening)
    (hawaiting : s.owner ≠ .awaitingWrite) : ∃ now, e = .advance now ∧ s.advance now = some t := by
  cases e with
  | advance now => exact ⟨now,rfl,h⟩
  | connectCall | disconnectCall | drop => exact absurd (Option.ite_none_right_eq_some.mp h).1 hidle
  | tcpConnected | tcpFailed => exact absurd (Option.ite_none_right_eq_some.mp h).1 hopening
  | timeout => exact absurd (Option.ite_none_right_eq_some.mp h).1 hawaiting
  | _ => cases ha

theorem hello_refused {s t : State} {e : Event} (h : step s e = some t)
    (hs : s.owner ≠ .helloFailed) (ht : t.owner = .helloFailed) :
    NotConnectedAt s e ∨ MeetsFullChannel s e := by
  have ha : e.actor = .owner := by
    by_contra ha
    rw [((step_move h).elsewhere ha).1] at ht
    exact hs ht
  have hmove : OwnerMove s t := by
    have hmove := step_move h
    rw [ha] at hmove
    cases hmove with
    | owner hmove => exact hmove
  cases hmove with
  | helloRefused c ho =>
    obtain ⟨now,rfl,hadvance⟩ := advance_of_owner h ha (by simp [ho]) (by simp [ho]) (by simp [ho])
    refine .inl (.inr (.inl ?_))
    by_contra hc
    rw [Bool.not_eq_false] at hc
    simp only [State.advance,ho,hc,if_true,Option.some.injEq] at hadvance
    exact absurd (congrArg State.owner hadvance) (by simp [State.go])
  | helloRejected c msgId frame ho =>
    obtain ⟨now,rfl,hadvance⟩ := advance_of_owner h ha (by simp [ho]) (by simp [ho]) (by simp [ho])
    have htry : s.trySends (.advance now) = some c := by simp only [State.trySends,ho]
    simp only [State.advance,ho] at hadvance
    split at hadvance
    · have howner := congrArg State.owner (Option.some.inj hadvance)
      simp [State.go] at howner
    · next hnone => exact truthful_or_full htry hnone
  | connected ho hc => exact absurd ht hs
  | _ => cases ht

theorem refused_of_full {s t : State} {e : Event} (h : step s e = some t)
    (hfull : MeetsFullChannel s e) : Refused s t := by
  obtain ⟨-,c,htry,hlen⟩ := hfull
  have hnone (x : Source × ClientCommand) : (s.connections c).trySend x = none :=
    ((s.connections c).trySend_eq_none_iff x).mpr (.inr hlen)
  cases e with
  | sendFrame k now =>
    replace h : s.sendFrame k now = some t := h
    unfold State.trySends at htry
    unfold State.sendFrame at h
    cases hk : s.callers k with
    | idle | checked call d => simp [hk] at htry
    | idTaken call d msgId =>
      simp only [hk,Option.some.injEq] at htry h
      subst htry
      rw [hnone] at h
      cases h
      exact .inl ⟨k,call,by simp⟩
  | advance now =>
    replace h : s.advance now = some t := h
    unfold State.trySends at htry
    unfold State.advance at h
    cases ho : s.owner with
    | helloBuilt d msgId frame =>
      simp only [ho,Option.some.injEq] at htry h
      subst htry
      rw [hnone] at h
      cases h
      exact .inr ⟨by simp [ho],rfl⟩
    | _ => simp [ho] at htry
  | _ => cases htry

/-- In a run every refusal is truthful exactly when no frame meets a full channel. -/
theorem refusalsTruthful_iff (options : MIPClientOptions) (events : List Event) :
    RefusalsTruthful options events ↔
      ∀ p ∈ steps step (init options) events, ¬MeetsFullChannel p.1 p.2 := by
  refine forall₂_congr fun p hp => ?_
  obtain ⟨-,t,-,ht⟩ := Transition.step_of_mem_steps hp
  constructor
  · intro htruthful hfull
    exact hfull.1 (htruthful t ht (refused_of_full ht hfull))
  · intro hno u hu hrefused
    have hcases : NotConnectedAt p.1 p.2 ∨ MeetsFullChannel p.1 p.2 := by
      rcases hrefused with ⟨k,call,hreturned⟩ | ⟨hs,hu'⟩
      · exact caller_refused hu hreturned
      · exact hello_refused hu hs hu'
    exact hcases.resolve_right hno

/-! A burst of calls while the write task is stalled. -/

/-- A client whose write task has yet to take the `n` commands in its channel. -/
structure Stalled (s : State) (n : ℕ) : Prop where
  connected : s.connected = true
  commandTx : s.commandTx = some 0
  caller : s.callers 0 = .idle
  write : (s.connections 0).write = .receiving
  queue : (s.connections 0).commands.queue.length = n

def pingCall : List Event := [.call 0 .ping,.sendFrame 0 5,.sendFrame 0 5]

def pingCalls (n : ℕ) : List Event := (List.replicate n pingCall).flatten

theorem Stalled.call {s : State} {n : ℕ} (h : Stalled s n) :
    ∃ t msgId, run step s [.call 0 .ping,.sendFrame 0 5] = some t ∧
      t.callers 0 = .idTaken .ping 0 msgId ∧ t.connected = true ∧ t.commandTx = some 0 ∧
      t.connections = s.connections := by
  have hsender : s.sender = some 0 := by rw [State.sender,h.connected,if_pos rfl,h.commandTx]
  have hcall : step s (.call 0 .ping) = some (s.setCaller 0 (.checked .ping 0)) := by
    simp only [step,h.caller,if_true,State.startCall,hsender]
  have hsend : step (s.setCaller 0 (.checked .ping 0)) (.sendFrame 0 5) =
      some (((s.setCaller 0 (.checked .ping 0)).generateMsgId 5).2.setCaller 0 (.idTaken .ping 0
        (s.generateMsgId 5).1)) := by
    simp only [step,State.sendFrame,State.setCaller_self]
    rfl
  refine ⟨((s.setCaller 0 (.checked .ping 0)).generateMsgId 5).2.setCaller 0 (.idTaken .ping 0
    (s.generateMsgId 5).1),(s.generateMsgId 5).1,?_,?_,h.connected,h.commandTx,rfl⟩
  · rw [Transition.run_cons hcall,Transition.run_cons hsend]
    rfl
  · simp

theorem Stalled.open {s : State} {n : ℕ} (h : Stalled s n) :
    (s.connections 0).closed = false := by
  simp only [Connection.closed,h.write]

theorem Stalled.pingCall {s : State} {n : ℕ} (h : Stalled s n) (hn : n < 100) :
    ∃ t, run step s pingCall = some t ∧ Stalled t (n + 1) := by
  obtain ⟨t,msgId,hrun,hcaller,hconnected,hcommandTx,hconnections⟩ := h.call
  have hopen : (t.connections 0).closed = false := by rw [hconnections,h.open]
  obtain ⟨ch,hch⟩ : ∃ ch, (t.connections 0).commands.send
      (.caller 0,.send (Call.ping.bytes msgId)) = some ch := by
    refine Option.ne_none_iff_exists'.mp fun hnone => ?_
    rw [Channel.send_eq_none_iff,hconnections,h.queue] at hnone
    omega
  have hsend : step t (.sendFrame 0 5) = some ((t.setConnection 0
      { t.connections 0 with commands := ch }).finishCall 0 .ping (.ok 0 msgId)) := by
    simp only [step,State.sendFrame,hcaller,Connection.trySend,hopen,hch]
    rfl
  refine ⟨(t.setConnection 0 { t.connections 0 with commands := ch }).finishCall 0 .ping
    (.ok 0 msgId),?_,hconnected,hcommandTx,?_,?_,?_⟩
  · show run step s ([.call 0 .ping,.sendFrame 0 5] ++ [.sendFrame 0 5]) = some _
    rw [Transition.run_append,hrun,Option.bind_some,Transition.run_cons hsend]
    rfl
  · simp
  · simp [hconnections,h.write]
  · simp [Channel.queue_of_send hch,hconnections,h.queue]

theorem Stalled.pingCalls {s : State} {n : ℕ} (h : Stalled s n) (m : ℕ) (hm : n + m ≤ 100) :
    ∃ t, run step s (pingCalls m) = some t ∧ Stalled t (n + m) := by
  induction m generalizing s n with
  | zero => exact ⟨s,rfl,h⟩
  | succ m ih =>
    obtain ⟨t,ht,hstalled⟩ := h.pingCall (by omega)
    obtain ⟨u,hu,hstalled⟩ := ih hstalled (by omega)
    refine ⟨u,?_,by rwa [Nat.add_right_comm] at hstalled⟩
    show run step s (MipClients.Rust.pingCall ++ MipClients.Rust.pingCalls m) = some u
    rw [Transition.run_append,ht,Option.bind_some,hu]

/-- HELLO and 99 pings fill the channel while the write task has yet to run; the next ping finds the
client connected and is refused as not connected. -/
theorem ping_refused_connected : ¬∀ (options : MIPClientOptions) (events : List Event),
    RefusalsTruthful options events := by
  intro h
  obtain ⟨s,hs,hconnected,hcommandTx,hcaller,hwrite,hqueue⟩ : ∃ s ∈ run step (init {}) connectRun,
      s.connected = true ∧ s.commandTx = some 0 ∧ s.callers 0 = .idle ∧
        (s.connections 0).write = .receiving ∧ (s.connections 0).commands.queue.length = 1 := by
    decide +kernel
  obtain ⟨t,ht,hfull⟩ := Stalled.pingCalls ⟨hconnected,hcommandTx,hcaller,hwrite,hqueue⟩ 99 le_rfl
  obtain ⟨u,msgId,hu,hcaller,hconnected,hcommandTx,hconnections⟩ := hfull.call
  have hopen : (u.connections 0).closed = false := by rw [hconnections,hfull.open]
  have htry : u.trySends (.sendFrame 0 5) = some 0 := by simp only [State.trySends,hcaller]
  have htruthless : ¬NotConnectedAt u (.sendFrame 0 5) := by
    rintro (hno | hno | ⟨c,hc,hclosed⟩)
    · simp [hcommandTx] at hno
    · simp [hconnected] at hno
    · rw [htry] at hc
      cases hc
      simp [hopen] at hclosed
  have hmeets : MeetsFullChannel u (.sendFrame 0 5) :=
    ⟨htruthless,0,htry,by rw [hconnections,hfull.queue]⟩
  obtain ⟨v,hv⟩ : ∃ v, step u (.sendFrame 0 5) = some v := by
    simp only [step,State.sendFrame,hcaller]
    split <;> exact ⟨_,rfl⟩
  have hrun : run step (init {}) (connectRun ++ (pingCalls 99 ++ [.call 0 .ping,.sendFrame 0 5])) =
      some u := by
    rw [Transition.run_append,hs,Option.bind_some,Transition.run_append,ht,Option.bind_some,hu]
  have hmem : (u,Event.sendFrame 0 5) ∈ steps step (init {})
      (connectRun ++ (pingCalls 99 ++ [.call 0 .ping,.sendFrame 0 5]) ++ [.sendFrame 0 5]) :=
    Transition.mem_steps_iff.mpr ⟨_,[],v,rfl,hrun,hv⟩
  exact htruthless (h {} _ _ hmem v hv (refused_of_full hv hmeets))

end Rust
end MipClients
