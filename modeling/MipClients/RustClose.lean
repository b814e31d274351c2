import MipClients.RustOutgoing

/-! What the Rust client writes after the CLOSE frame of `disconnect()`. Between CLOSE and the
Disconnect command a ping task that has passed its check still gets its PING in. -/
namespace MipClients
namespace Rust

open State Transition

/-- No frame comes after the CLOSE of `disconnect()` among those handed to `write_all`. -/
def CloseLast (s : State) (c : ℕ) : Prop := ∀ before frame after,
  (s.connections c).written = before ++ (.disconnect,frame) :: after → after = []

def Owner.disconnecting : Owner → Bool
  | .stopping | .stopped | .closeChecked _ | .sendingClose _ _ | .sendingDisconnect _ | .cleaning
  | .awaitingWrite | .abortingRead | .clearing | .dropping => true
  | _ => false

def Actor.isCaller : Actor → Bool
  | .caller _ => true
  | _ => false

/-- A sending method borrows the client, which `disconnect()` has for itself. -/
def Borrowed (s : State) (e : Event) : Prop :=
  e.actor.isCaller = true → s.owner.disconnecting = false

/-- Between the check of a ping task and the end of its send. -/
def PingTask.passed : PingTask → Bool
  | .checked | .sending _ => true
  | _ => false

def Owner.closing : Owner → Option ℕ
  | .sendingClose c _ => some c
  | _ => none

/-- When `disconnect()` puts CLOSE into the channel, the ping task has no check behind it whose PING
is yet to come. -/
def ClosesQuietly (s : State) (e : Event) : Prop :=
  ∀ c ∈ s.owner.closing, e.actor = .owner → (s.connections c).ping.passed = false

instance (s : State) (e : Event) : Decidable (Borrowed s e) :=
  inferInstanceAs (Decidable (_ → _))

instance (s : State) (e : Event) : Decidable (ClosesQuietly s e) :=
  inferInstanceAs (Decidable (∀ c ∈ s.owner.closing, _))

/-- `disconnect()` has cleared `running` and is before its Disconnect command. -/
def Owner.halted : Owner → Bool
  | .stopped | .closeChecked _ | .sendingClose _ _ | .sendingDisconnect _ => true
  | _ => false

/-- What CLOSE is followed by in a channel: the Disconnect command, or nothing so far. Then either
the channel takes no more or `disconnect()` is the only one to put something in. -/
def Followed (s : State) (c : ℕ) : Prop := ∀ before frame after,
  (s.connections c).commands.accepted = before ++ (.disconnect,.send frame) :: after →
    (∃ rest, after = (.disconnect,.disconnect) :: rest) ∨ after = [] ∧
      ((s.connections c).closed = true ∨
        s.owner = .sendingDisconnect c ∧ (s.connections c).ping.passed = false)

structure Closing (s : State) : Prop where
  streams : Streams s
  halted : s.owner.halted = true → s.running = false
  followed : ∀ c, Followed s c

theorem OwnerMove.halted {s t : State} (h : OwnerMove s t)
    (hI : s.owner.halted = true → s.running = false) (ht : t.owner.halted = true) :
    t.running = false := by
  cases h with
  | connected => exact hI ht
  | stopped ho => rfl
  | closeChecked c ho | closeLeftOut c ho | sendingClose c now frame ho =>
    exact hI (by rw [ho]; rfl)
  | closeSent c frame k ho hk => exact hI (by rw [ho]; rfl)
  | _ => cases ht

theorem PingFlow.not_passed {s t : State} {c : ℕ} (h : PingFlow s c t) (hr : s.running = false)
    (hp : (s.connections c).ping.passed = false) : (t.connections c).ping.passed = false := by
  cases h with
  | kept ht => rw [ht,hp]
  | spawned ho ht | ticked hs ht | sent frame hs ht | ended ht =>
    rw [ht]
    rfl
  | passed hs hrun => cases hr.symm.trans hrun
  | idTaken frame hs =>
    rw [hs] at hp
    cases hp

theorem Flow.closed {s t : State} {c : ℕ} {a : Actor} {xs : List (Source × ClientCommand)}
    (h : Flow s c a t xs) (hdue : s.owner.writeDue = some c → (s.connections c).write = .absent)
    (hc : (s.connections c).closed = true) : (t.connections c).closed = true := by
  unfold Connection.closed at hc ⊢
  cases h with
  | kept hk hw | enqueued x he hopen hk hw =>
    rw [hw]
    exact hc
  | spawned ho =>
    rw [hdue (by rw [ho]; rfl)] at hc
    cases hc
  | sending source data hs | closing source hs | hungUp hs | written hs | failed hs | shutdown hs =>
    rw [hs] at hc
    cases hc

/-- `disconnect()` goes past its Disconnect command when that is in the channel, or when the channel
is closed. -/
theorem OwnerMove.disconnect_sent {s t : State} (h : OwnerMove s t) {c : ℕ}
    (ho : s.owner = .sendingDisconnect c) : (s.connections c).closed = true ∨
      (t.connections c).commands.accepted ≠ (s.connections c).commands.accepted := by
  cases h with
  | disconnectSent d k hd hk =>
    cases hd.symm.trans ho
    rcases Connection.send_eq_some hk with ⟨hc,-⟩ | hq
    · exact .inl hc
    · right
      have hself : ((s.setConnection c k).go .cleaning).connections c = k :=
        Function.update_self ..
      rw [hself,(Channel.send_eq_some hq.commands).1]
      simp
  | helloAccepted d msgId frame k hd | closeSent d frame k hd => cases hd.symm.trans ho
  | connected hd => cases hd.symm.trans ho
  | _ =>
    rename_i hd
    cases hd.symm.trans ho

theorem Flow.enqueues {s t : State} {c : ℕ} {a : Actor} {xs : List (Source × ClientCommand)}
    (h : Flow s c a t xs) : xs = [] ∨
      ∃ x, xs = [x] ∧ Enqueues s c a t x ∧ (s.connections c).closed = false := by
  cases h with
  | enqueued x he hc => exact .inr ⟨x,rfl,he,hc⟩
  | _ => exact .inl rfl

theorem Closing.followed_kept {s t : State} {a : Actor} {c : ℕ} (hI : Closing s) (h : Move s a t)
    (hflow : Flow s c a t []) : Followed t c := by
  intro before frame after hsplit
  have hacc := hflow.accepted
  rw [List.append_nil] at hacc
  rcases hI.followed c before frame after (hacc ▸ hsplit) with hdisc | ⟨rfl,hc | ⟨ho,hp⟩⟩
  · exact .inl hdisc
  · exact .inr ⟨rfl,.inl (hflow.closed (hI.streams.unspawned.due c) hc)⟩
  · refine .inr ⟨rfl,?_⟩
    rcases h.owner_or with hm | ⟨hto,-,-⟩
    · rcases hm.disconnect_sent ho with hc | hne
      · exact .inl (hflow.closed (hI.streams.unspawned.due c) hc)
      · exact absurd hacc hne
    · have hr := hI.halted (by rw [ho]; rfl)
      exact .inr ⟨hto.trans ho,(h.pingFlow c).not_passed hr hp⟩

theorem Closing.followed_enqueued {s t : State} {e : Event} {c : ℕ} (hI : Closing s)
    (h : Move s e.actor t) (hB : Borrowed s e) (hC : ClosesQuietly s e)
    {x : Source × ClientCommand}
    (he : Enqueues s c e.actor t x) (hopen : (s.connections c).closed = false)
    (hacc : (t.connections c).commands.accepted = (s.connections c).commands.accepted ++ [x]) :
    Followed t c := by
  intro before frame after hsplit
  rw [hacc] at hsplit
  rcases List.eq_nil_or_concat after with rfl | ⟨init,y,rfl⟩
  · -- The command is CLOSE itself.
    obtain ⟨-,hx⟩ := List.append_inj' hsplit rfl
    obtain rfl := List.singleton_inj.mp hx
    generalize ha : e.actor = a at he
    cases he with
    | close _ ho hto =>
      refine .inr ⟨rfl,.inr ⟨hto,?_⟩⟩
      exact (h.pingFlow c).not_passed (hI.halted (by rw [ho]; rfl))
        (hC c (by rw [ho]; rfl) ha)
  · -- CLOSE was there before; behind it only Disconnect can be put in.
    left
    rw [List.concat_eq_append,← List.cons_append,← List.append_assoc] at hsplit
    obtain ⟨hpre,hx⟩ := List.append_inj' hsplit rfl
    obtain rfl := List.singleton_inj.mp hx
    rw [List.concat_eq_append]
    rcases hI.followed c before frame init hpre with ⟨rest,rfl⟩ | ⟨rfl,hc | ⟨ho,hp⟩⟩
    · exact ⟨rest ++ [x],rfl⟩
    · cases hopen.symm.trans hc
    · generalize ha : e.actor = a at he
      cases he with
      | hello msgId frame hs | close frame hs => cases ho.symm.trans hs
      | disconnect => exact ⟨[],rfl⟩
      | caller k data =>
        have hd := hB (by rw [ha]; rfl)
        rw [ho] at hd
        cases hd
      | ping frame hs =>
        rw [hs] at hp
        cases hp

theorem Closing.step {s t : State} {e : Event} (hI : Closing s)
    (hC : Borrowed s e ∧ ClosesQuietly s e) (h : Rust.step s e = some t) : Closing t where
  streams := hI.streams.step h
  halted := by
    intro ht
    rcases (step_move h).owner_or with hm | ⟨ho,-,hr,-⟩
    · exact hm.halted hI.halted ht
    · rw [hr]
      exact hI.halted (ho ▸ ht)
  followed := by
    intro c
    obtain ⟨xs,hflow,-⟩ := (step_move h).flow c
    rcases hflow.enqueues with rfl | ⟨x,rfl,he,hopen⟩
    · exact hI.followed_kept (step_move h) hflow
    · exact hI.followed_enqueued (step_move h) hC.1 hC.2 he hopen hflow.accepted

theorem closing_init (options : MIPClientOptions) : Closing (init options) where
  streams := streams_init options
  halted := nofun
  followed _ _ _ _ h := by
    have := congrArg List.length h
    simp [init,Channel.empty] at this

theorem exists_received {xs : List (Source × ClientCommand)} {source : Source} {frame : List UInt8}
    {before after : List (Source × List UInt8)} (h : sends xs = before ++ (source,frame) :: after) :
    ∃ ys zs, xs = ys ++ (source,.send frame) :: zs ∧ sends zs = after := by
  obtain ⟨ys,rest,rfl,-,hrest⟩ := List.filterMap_eq_append_iff.mp h
  obtain ⟨skipped,⟨other,command⟩,zs,rfl,-,hx,hzs⟩ := List.filterMap_eq_cons_iff.mp hrest
  cases command with
  | disconnect => cases hx
  | send data =>
    cases hx
    exact ⟨ys ++ skipped,zs,(List.append_assoc ..).symm,hzs⟩

/-- In a run in which each CLOSE finds its ping task quiet, no frame is written after CLOSE. -/
theorem close_last (options : MIPClientOptions) (events : List Event)
    (hB : ∀ p ∈ steps step (init options) events, Borrowed p.1 p.2)
    (hC : ∀ p ∈ steps step (init options) events, ClosesQuietly p.1 p.2) :
    ∀ s ∈ states step (init options) events, ∀ c, CloseLast s c := by
  intro s hs c written frame after hwritten
  have hI : Closing s := invariant_of_steps (fun _ _ _ hI hC h => hI.step hC h)
    (closing_init options) (fun p hp => ⟨hB p hp,hC p hp⟩) s hs
  rw [hI.streams.logged c] at hwritten
  obtain ⟨before,rest,hr,rfl⟩ := exists_received hwritten
  have hacc := (s.connections c).commands.fifo
  rw [hr,List.append_assoc,List.cons_append] at hacc
  rcases hI.followed c before frame _ hacc with ⟨last,hlast⟩ | ⟨hnil,-⟩
  · cases rest with
    | nil => rfl
    | cons x rest =>
      obtain ⟨rfl,-⟩ := List.cons_eq_cons.mp hlast
      have hsplit : (s.connections c).commands.received =
          (before ++ [(.disconnect,.send frame)]) ++ (.disconnect,.disconnect) :: rest := by
        rw [hr,List.append_assoc]
        rfl
      rw [(hI.streams.orderly c).last hsplit]
      rfl
  · rw [(List.append_eq_nil_iff.mp hnil).1]
    rfl

def quietRun : List Event :=
  connectRun ++ [.tick 0] ++ List.replicate 3 (.pingStep 0 6) ++ [.disconnectCall] ++
    List.replicate 5 (.advance 9) ++
    [.recv 0,.written 0,.recv 0,.written 0,.recv 0,.written 0,.recv 0]

theorem close_last_quiet : ∃ s ∈ run step (init { pingIntervalMs := 1000 }) quietRun,
    (s.connections 0).written.map Prod.fst = [.connect,.ping,.disconnect] ∧
      ∀ c, CloseLast s c := by
  have hrun : ∃ s ∈ run step (init { pingIntervalMs := 1000 }) quietRun,
      (s.connections 0).written.map Prod.fst = [.connect,.ping,.disconnect] := by
    decide +kernel
  obtain ⟨s,hs,hn⟩ := hrun
  have hlast := close_last { pingIntervalMs := 1000 } quietRun (by decide +kernel)
    (by decide +kernel)
  exact ⟨s,hs,hn,hlast s (run_mem_states hs)⟩

/-- The ping task passes its check, `disconnect()` puts CLOSE in, and the PING follows. -/
def overtakenRun : List Event :=
  connectRun ++ [.tick 0,.pingStep 0 6,.disconnectCall] ++ List.replicate 4 (.advance 9) ++
    [.pingStep 0 9,.pingStep 0 9,.recv 0,.written 0,.recv 0,.written 0,.recv 0]

theorem close_not_last : ¬∀ (options : MIPClientOptions) (events : List Event),
    (∀ p ∈ steps step (init options) events, Borrowed p.1 p.2) →
    ∀ s ∈ states step (init options) events, ∀ c, CloseLast s c := by
  intro h
  have hrun : ∃ s ∈ run step (init { pingIntervalMs := 1000 }) overtakenRun,
      (s.connections 0).written = [(.connect,frameBytes .hello [] FrameFlags.none 5)] ++
        (.disconnect,(buildHeader .close 0 FrameFlags.none 10).encode) ::
        [(.ping,(buildHeader .ping 0 FrameFlags.none 11).encode)] := by
    decide +kernel
  obtain ⟨s,hs,hr⟩ := hrun
  have hborrow : ∀ p ∈ steps step (init { pingIntervalMs := 1000 }) overtakenRun,
      Borrowed p.1 p.2 := by
    decide +kernel
  cases h _ overtakenRun hborrow s (run_mem_states hs) 0 _ _ _ hr

end Rust
end MipClients
