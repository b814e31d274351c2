import MipClients.Delivery
import MipClients.RustNotifications

/-! The receiving side of the Rust client at work (`spawn_read_task` and `handle_data` in
`client/internals.rs`). The loop of `handle_data` waits for the lock of the callbacks at each frame,
where other tasks run on and an abort can end it. Each read task has called a beginning of what the
decoder makes of the bytes read on its own connection, and all of it between two calls of
`handle_data`. -/
namespace MipClients
namespace Rust

open State StreamDecoder
open Transition (recorded states run run_mem_states)
open Wire (Frame Emission)

def Event.data? (c : ℕ) : Event → Option (List UInt8)
  | .read d (.data data) => if d = c then some data else none
  | _ => none

/-- The client with the record of what it has read on each connection. -/
def readingStep : State × (ℕ → List (List UInt8)) → Event →
    Option (State × (ℕ → List (List UInt8))) :=
  recorded step fun chunks _ e _ c => chunks c ++ (e.data? c).toList

/-- The read task is not in `handle_data`, and no abort has ended it there. -/
def Connection.CaughtUp (k : Connection) : Prop :=
  k.read ≠ .handling ∧ (k.read = .done → k.readAborted = false)

instance (k : Connection) : Decidable k.CaughtUp := inferInstanceAs (Decidable (_ ∧ _))

theorem Connection.CaughtUp.of_read {k : Connection} {r : ReadTask} (h : k.read = r)
    (hr : r ≠ .handling) (hd : r ≠ .done) : k.CaughtUp :=
  ⟨h ▸ hr,fun hdone => absurd (h.symm.trans hdone) hd⟩

/-- What a step does to the receiving side of a connection, with what it reads there. -/
inductive Follows (k k' : Connection) : Option (List UInt8) → Prop
  | kept (hbuffer : k'.buffer = k.buffer) (hemitted : k'.emitted = k.emitted)
      (hup : k'.CaughtUp → k.CaughtUp ∨ framing.decoder.pass k.buffer = .wait) : Follows k k' none
  | received (data : List UInt8) (hread : k.read = .reading)
      (hbuffer : k'.buffer = k.buffer ++ data) (hemitted : k'.emitted = k.emitted)
      (hread' : k'.read = .handling) : Follows k k' (some data)
  | delivered (out : List (Emission Header MIPError)) (hread : k.read = .handling)
      (hp : framing.decoder.pass k.buffer = .deliver out k'.buffer)
      (hemitted : k'.emitted = k.emitted ++ out) (hread' : k'.read = .handling) : Follows k k' none
  | stopped (out : List (Emission Header MIPError)) (hread : k.read = .handling)
      (hp : framing.decoder.pass k.buffer = .stop out k'.buffer)
      (hemitted : k'.emitted = k.emitted ++ out) : Follows k k' none

theorem Follows.refl (k : Connection) : Follows k k none := .kept rfl rfl .inl

theorem Follows.aside {k k' : Connection} (hbuffer : k'.buffer = k.buffer)
    (hemitted : k'.emitted = k.emitted) (hread : k'.read = k.read)
    (haborted : k.readAborted = true → k'.readAborted = true) : Follows k k' none := by
  refine .kept hbuffer hemitted fun hup => .inl ⟨hread ▸ hup.1,fun hdone => ?_⟩
  have hno := hup.2 (hread.trans hdone)
  by_contra hab
  rw [haborted (Bool.not_eq_false _ ▸ hab)] at hno
  cases hno

theorem Connection.Enqueued.follows {k k' : Connection} {x : Source × ClientCommand}
    (h : k.Enqueued x k') : Follows k k' none :=
  .aside (by rw [h.eq]) (by rw [h.eq]) h.read fun hab => by rwa [h.eq]

/-- What the read task has called, and what it is still to call for its buffer, is what the decoder
makes of the chunks; between two calls of `handle_data` the buffer has nothing to call for. -/
structure Decoded (k : Connection) (chunks : List (List UInt8)) : Prop where
  emits : k.emitted ++ (handleData k.buffer).out = (readChunks chunks).out
  keeps : (handleData k.buffer).buffer = (readChunks chunks).buffer
  waits : k.CaughtUp → framing.decoder.pass k.buffer = .wait

theorem handleData_of_waits {b : List UInt8} (h : framing.decoder.pass b = .wait) :
    handleData b = ⟨[],b,false⟩ := run_wait h

theorem readChunks_snoc (chunks : List (List UInt8)) (data : List UInt8) :
    readChunks (chunks ++ [data]) = (handleData ((readChunks chunks).buffer ++ data)).after
      (readChunks chunks).out :=
  feed_snoc pass_ne_fail [] chunks data

section

variable {k k' : Connection} {chunks : List (List UInt8)} {data : Option (List UInt8)}

theorem Decoded.all (hI : Decoded k chunks) (hup : k.CaughtUp) :
    k.emitted = (readChunks chunks).out ∧ k.buffer = (readChunks chunks).buffer := by
  have hwaits := handleData_of_waits (hI.waits hup)
  have hemits := hI.emits
  have hkeeps := hI.keeps
  rw [hwaits] at hemits hkeeps
  exact ⟨(List.append_nil _).symm.trans hemits,hkeeps⟩

theorem Decoded.follows (hI : Decoded k chunks) (h : Follows k k' data) :
    Decoded k' (chunks ++ data.toList) := by
  cases h with
  | kept hbuffer hemitted hup =>
    rw [Option.toList_none,List.append_nil]
    refine ⟨by rw [hbuffer,hemitted]; exact hI.emits,by rw [hbuffer]; exact hI.keeps,fun h => ?_⟩
    rw [hbuffer]
    exact (hup h).elim hI.waits id
  | received data hread hbuffer hemitted hread' =>
    obtain ⟨hout,hrest⟩ := hI.all (.of_read hread nofun nofun)
    rw [Option.toList_some]
    refine ⟨?_,?_,fun h => absurd hread' h.1⟩
    · rw [readChunks_snoc,Result.after_out,hbuffer,hemitted,hout,hrest]
    · rw [readChunks_snoc,Result.after_buffer,hbuffer,hrest]
  | delivered out hread hp hemitted hread' =>
    have hrun : handleData k.buffer = (handleData k'.buffer).after out := run_deliver hp
    have hemits := hI.emits
    have hkeeps := hI.keeps
    rw [hrun,Result.after_out,← List.append_assoc,← hemitted] at hemits
    rw [hrun,Result.after_buffer] at hkeeps
    rw [Option.toList_none,List.append_nil]
    exact ⟨hemits,hkeeps,fun h => absurd hread' h.1⟩
  | stopped out hread hp hemitted =>
    have hrun : handleData k.buffer = ⟨out,k'.buffer,false⟩ := run_stop hp
    have hwait := stop_waits _ _ _ hp
    have hemits := hI.emits
    have hkeeps := hI.keeps
    rw [hrun] at hemits hkeeps
    rw [Option.toList_none,List.append_nil]
    refine ⟨?_,?_,fun _ => hwait⟩
    · rw [handleData_of_waits hwait,hemitted,← hemits,List.append_nil]
    · rw [handleData_of_waits hwait]
      exact hkeeps

end

section Step

variable {s t : State} {e : Event} {c : ℕ}

theorem Touch.follows {a : Actor} {xs : List (Source × ClientCommand)} {k : Connection}
    (h : Touch s c a t xs k) (ha : a ≠ .readTask c)
    (hblank : s.owner = .stored c → (s.connections c).buffer = []) :
    Follows (s.connections c) k none := by
  cases h with
  | readSpawned ho =>
    refine .kept rfl rfl fun _ => .inr ?_
    rw [hblank ho]
    exact framing.decoder_pass_nil
  | readAborted => exact .aside rfl rfl rfl fun _ => rfl
  | enqueued hq => exact hq.follows
  | pingSent frame k hp hq =>
    cases hq.follows with
    | kept hbuffer hemitted hup => exact .kept hbuffer hemitted hup
    | delivered out hread hp hemitted hread' => exact .delivered out hread hp hemitted hread'
    | stopped out hread hp hemitted => exact .stopped out hread hp hemitted
  | read => exact absurd rfl ha
  | _ => exact .aside rfl rfl rfl id

theorem readStep_follows (h : s.readStep c = some t) :
    Follows (s.connections c) (t.connections c) none := by
  have hkept {k : Connection} (hup : (s.connections c).CaughtUp)
      (hbuffer : k.buffer = (s.connections c).buffer)
      (hemitted : k.emitted = (s.connections c).emitted) : Follows (s.connections c) k none :=
    .kept hbuffer hemitted fun _ => .inl hup
  unfold readStep at h
  cases hr : (s.connections c).read with
  | absent | reading | done =>
    rw [hr] at h
    cases h
  | checking | failing | sleeping =>
    rw [hr] at h
    cases h
    exact hkept (.of_read hr nofun nofun) (by simp) (by simp)
  | handling =>
    rw [hr] at h
    dsimp only at h
    cases hp : framing.decoder.pass (s.connections c).buffer with
    | wait =>
      rw [hp] at h
      cases h
      rw [setRead_self]
      exact .kept rfl rfl fun _ => .inr hp
    | deliver out rest =>
      rw [hp] at h
      cases h
      rw [handle_self]
      exact .delivered out hr hp rfl rfl
    | stop out rest =>
      rw [hp] at h
      cases h
      rw [handle_self]
      exact .stopped out hr hp rfl
    | fail out => exact absurd hp (pass_ne_fail _ _)
  | leaving lost =>
    rw [hr] at h
    cases h
    cases s.connected <;> exact hkept (.of_read hr nofun nofun) (by simp) (by simp)
  | swapped wasConnected lost =>
    rw [hr] at h
    cases h
    cases wasConnected <;> exact hkept (.of_read hr nofun nofun) (by simp) (by simp)
  | reported lost =>
    rw [hr] at h
    cases h
    unfold scheduleReconnect
    dsimp only
    split_ifs <;> exact hkept (.of_read hr nofun nofun) (by simp) (by simp)

theorem read_follows (h : step s e = some t) (ha : e.actor = .readTask c) :
    Follows (s.connections c) (t.connections c) (e.data? c) := by
  cases e with
  | read d r =>
    cases ha
    obtain ⟨hr,h⟩ := Option.ite_none_right_eq_some.mp h
    cases r with
    | data data =>
      obtain ⟨-,h⟩ := Option.ite_none_right_eq_some.mp h
      cases h
      rw [receive_self,Event.data?,if_pos rfl]
      exact .received data hr rfl rfl rfl
    | eof | error =>
      cases h
      rw [setRead_self]
      exact .kept rfl rfl fun _ => .inl (.of_read hr nofun nofun)
  | readStep d =>
    cases ha
    exact readStep_follows h
  | readCancelled d =>
    cases ha
    obtain ⟨hg,h⟩ := Option.ite_none_right_eq_some.mp h
    cases h
    rw [setRead_self]
    refine .kept rfl rfl fun hup => ?_
    have hab := (Bool.and_eq_true_iff.mp hg).1
    rw [hup.2 rfl] at hab
    cases hab
  | _ => cases ha

theorem data?_of_actor_ne (ha : e.actor ≠ .readTask c) : e.data? c = none := by
  cases e with
  | read d r =>
    have hd : d ≠ c := fun hd => ha (congrArg Actor.readTask hd)
    cases r with
    | data data => exact if_neg hd
    | eof | error => rfl
  | _ => rfl

theorem step_follows (hblank : s.owner = .stored c → (s.connections c).buffer = [])
    (h : step s e = some t) : Follows (s.connections c) (t.connections c) (e.data? c) := by
  by_cases ha : e.actor = .readTask c
  · exact read_follows h ha
  · rw [data?_of_actor_ne ha]
    obtain ⟨d,xs,k,hc,htouch,-⟩ := (step_move h).changes
    by_cases hcd : c = d
    · subst hcd
      rw [hc,Function.update_self]
      exact htouch.follows ha hblank
    · rw [hc,Function.update_of_ne hcd]
      exact .refl _

end Step

/-- What the runs keep: nothing has been read before the read task is spawned, and every read task
has decoded what it has read. -/
structure Receiving (x : State × (ℕ → List (List UInt8))) : Prop where
  notified : Notified x.1
  blank : ∀ c, ReadUnspawned x.1 c → (x.1.connections c).buffer = []
  decoded : ∀ c, Decoded (x.1.connections c) (x.2 c)

theorem Receiving.step {x y : State × (ℕ → List (List UInt8))} {e : Event} (hI : Receiving x)
    (h : readingStep x e = some y) : Receiving y := by
  obtain ⟨hstep,hrecord⟩ := Transition.recorded_eq_some h
  have hfollows (c : ℕ) : Follows (x.1.connections c) (y.1.connections c) (e.data? c) :=
    step_follows (fun ho => hI.blank c (.inr (.inr ho))) hstep
  refine ⟨hI.notified.step hstep,fun c hc => ?_,fun c => ?_⟩
  · have hs := (step_move hstep).readUnspawned hc
    have hstands := (hI.notified.readUnspawned c hs).1
    have hblank := hI.blank c hs
    have hnot {r : ReadTask} (hr : (x.1.connections c).read = r) (hloop : r.looping = true) :
        False := by
      rw [hr,ReadTask.stands_of_looping hloop] at hstands
      cases hstands
    have hnext := hfollows c
    generalize e.data? c = data at hnext
    cases hnext with
    | kept hbuffer => rw [hbuffer,hblank]
    | received data hread => exact (hnot hread rfl).elim
    | delivered out hread => exact (hnot hread rfl).elim
    | stopped out hread => exact (hnot hread rfl).elim
  · rw [hrecord]
    exact (hI.decoded c).follows (hfollows c)

theorem receiving (options : MIPClientOptions) (events : List Event) :
    ∀ x ∈ states readingStep (init options,fun _ => []) events, Receiving x :=
  Transition.invariant (fun _ _ _ hI h => hI.step h)
    ⟨notified_init options,fun _ _ => rfl,
      fun _ => ⟨rfl,rfl,fun _ => framing.decoder_pass_nil⟩⟩ events

/-- In every interleaving of all connections, calls and tasks of a run, aborts of read tasks
included: what the callbacks of a connection's read task have been called for is a beginning of what
the decoder makes of the chunks read on that connection alone, and all of it, with the decoder's
buffer, unless the task is in `handle_data` or was aborted. If the chunks are the beginning of a
stream of frames, the raw frame callback has been called for a beginning of the frames that have
arrived whole, in order and with what was sent, and, unless the task is in `handle_data` or was
aborted, once for each of them. -/
theorem read_tasks_decode (options : MIPClientOptions) (events : List Event) :
    ∀ x ∈ states readingStep (init options,fun _ => []) events, ∀ c,
      (x.1.connections c).emitted <+: (readChunks (x.2 c)).out ∧
      ((x.1.connections c).CaughtUp →
        (x.1.connections c).emitted = (readChunks (x.2 c)).out ∧
        (x.1.connections c).buffer = (readChunks (x.2 c)).buffer) ∧
      ∀ sent : List Frame, (x.2 c).flatten <+: sent.flatMap Frame.bytes →
        ∃ whole later tail, sent = whole ++ later ∧
          (x.2 c).flatten = whole.flatMap Frame.bytes ++ tail ∧
          (tail = [] ∨ ∃ next after rest, later = next :: after ∧ next.bytes = tail ++ rest ∧
            rest ≠ []) ∧
          ((x.1.connections c).emitted.filterMap Emission.frame?).map
              (fun p => (p.1.info,p.2)) <+: whole.map (fun f => (f.info,f.payload)) ∧
          ((x.1.connections c).CaughtUp →
            ((x.1.connections c).emitted.filterMap Emission.frame?).map
                (fun p => (p.1.info,p.2)) = whole.map (fun f => (f.info,f.payload)) ∧
            (x.1.connections c).buffer = tail) := by
  intro x hx c
  have hI := (receiving options events x hx).decoded c
  have hbegins : (x.1.connections c).emitted <+: (readChunks (x.2 c)).out := ⟨_,hI.emits⟩
  refine ⟨hbegins,hI.all,fun sent hsent => ?_⟩
  obtain ⟨whole,later,tail,hsplit,hbytes,hcut,hframes,htail,-,-⟩ :=
    Client.rust.reads (fun h => by cases h) (x.2 c) hsent
  have hwhole : ((readChunks (x.2 c)).out.filterMap Emission.frame?).map
      (fun p => (p.1.info,p.2)) = whole.map (fun f => (f.info,f.payload)) := by
    rw [← hframes]
    exact (Emission.filterMap_frame?_map _ _ _).symm
  refine ⟨whole,later,tail,hsplit,hbytes,hcut,?_,fun hup => ?_⟩
  · rw [← hwhole]
    exact (hbegins.filterMap _).map _
  · obtain ⟨hemitted,hbuffer⟩ := hI.all hup
    exact ⟨by rw [hemitted,hwhole],hbuffer.trans htail⟩

def pingBytes : List UInt8 := Wire.headerBytes Wire.FrameType.ping.code 0 1 0 0

/-- The client reads a PING in two parts and a third of the next. -/
def readingRun : List Event :=
  connectRun ++ [.readStep 0,.read 0 (.data (pingBytes.take 5)),.readStep 0,.readStep 0,
    .read 0 (.data (pingBytes.drop 5 ++ pingBytes.take 8)),.readStep 0,.readStep 0]

theorem read_tasks_decode_parts : ∃ x ∈ run readingStep (init {},fun _ => []) readingRun,
    (x.1.connections 0).emitted.length = 1 ∧ (x.1.connections 0).buffer.length = 8 ∧
      (x.1.connections 0).emitted = (readChunks (x.2 0)).out := by
  have hrun : ∃ x ∈ run readingStep (init {},fun _ => []) readingRun,
      (x.1.connections 0).emitted.length = 1 ∧ (x.1.connections 0).buffer.length = 8 ∧
        (x.1.connections 0).CaughtUp := by
    decide +kernel
  obtain ⟨x,hx,hemitted,hbuffer,hup⟩ := hrun
  exact ⟨x,hx,hemitted,hbuffer,
    ((read_tasks_decode {} readingRun x (run_mem_states hx) 0).2.1 hup).1⟩

end Rust
end MipClients
