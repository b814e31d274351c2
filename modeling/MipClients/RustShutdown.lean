import MipClients.RustHandshake

/-! The end of a connection of the Rust client (`disconnect()` in `client/mod.rs`,
`spawn_write_task`): what calls have got into the channel before the Disconnect command has been
written when the write half is shut down, and what the client still does when `disconnect()` has
returned. -/
namespace MipClients
namespace Rust

open State Transition
open Utf8 (Text)

def Event.caller? : Event → Option ℕ
  | .call k _ | .sendFrame k _ => some k
  | _ => none

/-- A sending method borrows the client until it returns: no `connect()` or `disconnect()` comes in
between, so that the sender it has taken is still the client's. -/
def Lent (s : State) (e : Event) : Prop :=
  ∀ k ∈ e.caller?, s.owner = .idle ∧ ∀ c ∈ (s.callers k).sender?, s.commandTx = some c

instance (s : State) (e : Event) : Decidable (Lent s e) :=
  inferInstanceAs (Decidable (∀ k ∈ e.caller?, _ ∧ _))

def Owner.ending : Owner → Bool
  | .cleaning | .awaitingWrite | .abortingRead | .clearing | .dropping => true
  | _ => false

theorem OwnerMove.ending {s t : State} (h : OwnerMove s t) (hs : s.owner.ending = true) :
    t.owner.ending = true ∨ t.commandTx = none := by
  cases h with
  | pingAborted | writeAwaited | readAborted | cleared => exact .inl rfl
  | disconnected => exact .inr rfl
  | helloAccepted d m f k ho | closeSent d f k ho | disconnectSent d k ho =>
    rw [ho] at hs
    cases hs
  | connected ho =>
    rw [ho] at hs
    cases hs
  | _ =>
    rename_i ho
    rw [ho] at hs
    cases hs

theorem OwnerMove.disconnect_over {s t : State} (h : OwnerMove s t) {c : ℕ}
    (ho : s.owner = .sendingDisconnect c) : t.owner = .cleaning := by
  cases h with
  | disconnectSent d k hd => rfl
  | helloAccepted d m f k hd | closeSent d f k hd => cases hd.symm.trans ho
  | connected hd => cases hd.symm.trans ho
  | _ =>
    rename_i hd
    cases hd.symm.trans ho

/-- Behind a Disconnect command no call gets a frame in: its sender is no longer lent out. -/
structure Draining (s : State) : Prop where
  session : Session s
  ended : ∀ c source, (source,.disconnect) ∈ (s.connections c).commands.accepted →
    c < s.opened ∧ (s.commandTx = some c → s.owner.ending = true)
  quiet : ∀ c before source after,
    (s.connections c).commands.accepted = before ++ (source,.disconnect) :: after →
      ∀ x ∈ after, ∀ k, x.1 ≠ .caller k

section Step

variable {s t : State} {e : Event}

theorem Draining.ended_next (hI : Draining s) (h : Rust.step s e = some t) {c : ℕ} {source : Source}
    (hc : (source,.disconnect) ∈ (t.connections c).commands.accepted) :
    c < t.opened ∧ (t.commandTx = some c → t.owner.ending = true) := by
  have hle := (step_move h).opened_le
  obtain ⟨xs,hflow,-⟩ := (step_move h).flow c
  rw [hflow.accepted] at hc
  rcases List.mem_append.mp hc with hold | hnew
  · obtain ⟨hlt,hended⟩ := hI.ended c source hold
    refine ⟨hlt.trans_le hle,fun ht => ?_⟩
    rcases sender_before h ht with hs | ⟨-,-,rfl⟩
    · rcases (step_move h).owner_or with hm | ⟨ho,-⟩
      · rcases hm.ending (hended hs) with hnext | hnone
        · exact hnext
        · cases hnone.symm.trans ht
      · rw [ho]
        exact hended hs
    · exact absurd hlt (lt_irrefl _)
  · rcases hflow.enqueues with rfl | ⟨x,rfl,he,-⟩
    · cases hnew
    obtain rfl := List.mem_singleton.mp hnew
    have hmove := step_move h
    generalize e.actor = a at he hmove
    cases he with
    | disconnect ho =>
      cases hmove with
      | owner hm =>
        have hsender := hI.session.stage.inHand c (by rw [ho]; rfl)
        have hlatest := hI.session.stage.sender c hsender
        exact ⟨by omega,fun _ => by rw [hm.disconnect_over ho]; rfl⟩

theorem Draining.quiet_next (hI : Draining s) (hB : Lent s e) (h : Rust.step s e = some t) {c : ℕ}
    {before after : List (Source × ClientCommand)} {source : Source}
    (hc : (t.connections c).commands.accepted = before ++ (source,.disconnect) :: after) :
    ∀ x ∈ after, ∀ k, x.1 ≠ .caller k := by
  obtain ⟨xs,hflow,-⟩ := (step_move h).flow c
  have hacc := hflow.accepted
  rcases hflow.enqueues with rfl | ⟨y,rfl,he,-⟩
  · rw [hacc,List.append_nil] at hc
    exact hI.quiet c before source after hc
  rw [hacc] at hc
  rcases List.eq_nil_or_concat after with rfl | ⟨init,z,rfl⟩
  · exact nofun
  rw [List.concat_eq_append,← List.cons_append,← List.append_assoc] at hc
  obtain ⟨hold,hz⟩ := List.append_inj' hc rfl
  obtain rfl := List.singleton_inj.mp hz
  intro x hx k
  rw [List.concat_eq_append] at hx
  rcases List.mem_append.mp hx with hx | hx
  · exact hI.quiet c before source init hold x hx k
  obtain rfl := List.mem_singleton.mp hx
  generalize ha : e.actor = a at he
  cases he with
  | caller j data =>
    -- the caller would hold the client's sender behind Disconnect
    have hj : e.caller? = some j := by
      cases e <;> cases ha <;> rfl
    have hsender := step_caller_connection h ha (c := c) fun heq => by
      rw [heq] at hacc
      exact ne_append_singleton _ _ hacc
    obtain ⟨ho,hlent⟩ := hB j hj
    have hending := (hI.ended c source (by rw [hold]; simp)).2 (hlent c hsender)
    rw [ho] at hending
    cases hending
  | _ => exact nofun

theorem Draining.step (hI : Draining s) (hB : Lent s e) (h : Rust.step s e = some t) :
    Draining t where
  session := hI.session.step h
  ended _ _ hc := hI.ended_next h hc
  quiet _ _ _ _ hc := hI.quiet_next hB h hc

end Step

theorem draining_init (options : MIPClientOptions) : Draining (init options) where
  session := session_init options
  ended _ _ hc := by cases hc
  quiet c before source after hc := by
    have hlen := congrArg List.length hc
    simp [init,Channel.empty] at hlen

theorem callerFrames_quiet {xs : List (Source × ClientCommand)} {k : ℕ}
    (h : ∀ x ∈ xs, x.1 ≠ .caller k) : callerFrames k xs = [] := by
  rw [callerFrames,List.filter_eq_nil_iff.mpr fun x hx => by simpa using h x hx]
  rfl

/-- A write half that is being shut down, or was, has been given all that callers have got in. -/
theorem Draining.callers_received {s : State} (hI : Draining s) {c : ℕ}
    (horderly : (s.connections c).Orderly)
    (hw : (s.connections c).write = .closing ∨ (s.connections c).write = .ended false) (k : ℕ) :
    callerFrames k (s.connections c).commands.received =
      callerFrames k (s.connections c).commands.accepted := by
  have hfifo := (s.connections c).commands.fifo
  have hlast (hf : ∃ before source, (s.connections c).commands.received =
      before ++ [(source,.disconnect)] ∧ OnlyFrames before) :
      callerFrames k (s.connections c).commands.received =
        callerFrames k (s.connections c).commands.accepted := by
    obtain ⟨before,source,hr,-⟩ := hf
    have hacc : (s.connections c).commands.accepted =
        before ++ (source,.disconnect) :: (s.connections c).commands.queue := by
      rw [hfifo,hr,List.append_assoc]
      rfl
    rw [hfifo,callerFrames_append,callerFrames_quiet fun x hx =>
      hI.quiet c before source _ hacc x hx k,List.append_nil]
  unfold Connection.Orderly at horderly
  rcases hw with hw | hw
  · rw [hw] at horderly
    exact hlast horderly
  · rw [hw] at horderly
    rcases horderly with hf | ⟨-,heq⟩
    · exact hlast hf
    · rw [heq]

/-- There each caller's frames that were written are those of its successful calls. -/
theorem Draining.callers_written {s : State} (hI : Draining s) (hS : Streams s) {c : ℕ}
    (hw : (s.connections c).write = .closing ∨ (s.connections c).write = .ended false) (k : ℕ) :
    (s.connections c).writtenFor k = returnedFrames c (s.returned k) := by
  rw [(hS.logged c).writtenFor,hI.callers_received (hS.orderly c) hw,hS.callers c k]

/-- In every run in which the sending methods borrow the client, a connection whose write half has
been shut down with no write having failed has lost nothing: what was written is a sequence of
frames, among them for each caller exactly the frames of its calls that returned an id on the
connection, in their order, and each of the three clients that has read the stream to its end (the
Python client if the text is valid) has had its raw frame callback called for exactly these
frames. -/
theorem shutdown_lossless (options : MIPClientOptions) (events : List Event)
    (hid : (Utf8.encode options.clientId).length < 2 ^ 32)
    (hB : ∀ p ∈ steps Rust.step (init options) events, Lent p.1 p.2)
    (hcalls : ∀ p ∈ steps Rust.step (init options) events, p.2.Starts Call.Fits) :
    ∀ s ∈ states Rust.step (init options) events, ∀ c,
      (s.connections c).write = .closing ∨ (s.connections c).write = .ended false →
      ∃ sent : List (Source × Wire.Frame),
        sent.map (fun x => (x.1,x.2.bytes)) = (s.connections c).written ∧
        (∀ k, (sent.filter fun x => x.1 = .caller k).map (fun x => x.2.bytes) =
          returnedFrames c (s.returned k)) ∧
        ∀ receiver : Client, (receiver = .python → ∀ x ∈ sent, x.2.TextValid) →
          ∀ chunks : List (List UInt8),
            chunks.flatten = ((s.connections c).written.map Prod.snd).flatten →
            (receiver.receive chunks).out.filterMap Wire.Emission.frame? =
              sent.map (fun x => (x.2.info,x.2.payload)) ∧
            (receiver.receive chunks).buffer = [] ∧ (receiver.receive chunks).raised = false := by
  intro s hs c hw
  have hC := composing hcalls s hs
  have hD : Draining s := invariant_of_steps (C := Lent) (fun _ _ _ hI hC h => hI.step hC h)
    (draining_init options) hB s hs
  obtain ⟨sent,hsent,-⟩ := hC.exists_composed hid c
  refine ⟨sent,hsent,fun k => ?_,fun receiver htext chunks hchunks => ?_⟩
  · calc (sent.filter fun x => x.1 = .caller k).map (fun x => x.2.bytes)
        = (s.connections c).writtenFor k := by
          rw [Connection.writtenFor,← hsent,List.filter_map,List.map_map]
          rfl
      _ = returnedFrames c (s.returned k) := hD.callers_written hC.streams hw k
  · have hbytes : chunks.flatten = (sent.map Prod.snd).flatMap Wire.Frame.bytes := by
      rw [hchunks,← hsent,List.map_map,List.flatMap_map,List.flatMap_def]
      rfl
    obtain ⟨hframes,hbuffer,hraised,-⟩ := receiver.receive_all (fun hpython f hf => by
      obtain ⟨x,hx,rfl⟩ := List.mem_map.mp hf
      exact htext hpython x hx) hbytes
    exact ⟨by rw [hframes,List.map_map]; rfl,hbuffer,hraised⟩

theorem shutdown_lossless_delivered : ∃ s ∈ run Rust.step (init {}) deliveredRun,
    (returnedFrames 0 (s.returned 0)).length = 1 ∧ ∃ sent : List (Source × Wire.Frame),
      sent.map (fun x => (x.1,x.2.bytes)) = (s.connections 0).written ∧
      (sent.filter fun x => x.1 = .caller 0).map (fun x => x.2.bytes) =
        returnedFrames 0 (s.returned 0) := by
  have hrun : ∃ s ∈ run Rust.step (init {}) deliveredRun,
      (s.connections 0).write = .ended false ∧ (returnedFrames 0 (s.returned 0)).length = 1 := by
    decide +kernel
  obtain ⟨s,hs,hw,hn⟩ := hrun
  obtain ⟨sent,hsent,hcaller,-⟩ := shutdown_lossless {} deliveredRun (by decide)
    (by decide +kernel) (by decide +kernel) s (run_mem_states hs) 0 (.inr hw)
  exact ⟨s,hs,hn,sent,hsent,hcaller 0⟩

end Rust
end MipClients
