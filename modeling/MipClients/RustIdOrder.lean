import MipClients.Rising
import MipClients.RustMessages

/-! The message ids of one caller of the Rust client (`generate_msg_id` and `send_frame`) rise from
call to call and along each connection's stream, as long as the clock is not set back, whatever the
other callers and the tasks do. -/
namespace MipClients
namespace Rust

open State Transition

def Event.now? : Event → Option ℕ
  | .advance now | .sendFrame _ now | .pingStep _ now => some now
  | _ => none

/-- The id that would be generated, before it is cut to 64 bits. -/
def State.nextId (now : ℕ) (s : State) : ℕ := now + s.msgIdCounter

theorem State.nextId_mono (s : State) : Monotone (State.nextId · s) :=
  fun _ _ h => Nat.add_le_add_right h _

theorem State.nextId_le {s t : State} (h : s.msgIdCounter ≤ t.msgIdCounter) (now : ℕ) :
    s.nextId now ≤ t.nextId now := Nat.add_le_add_left h now

theorem Move.msgIdCounter {s t : State} {a : Actor} (h : Move s a t) :
    s.msgIdCounter ≤ t.msgIdCounter := by
  cases h with
  | owner h =>
    cases h with
    | pingSpawned c =>
      obtain ⟨ks,ping,ht⟩ := s.spawnPingTask_eq c
      rw [ht]
      exact le_rfl
    | pingAborted =>
      obtain ⟨ks,ping,ht⟩ := s.abortPing_eq
      rw [ht]
      exact le_rfl
    | readAborted =>
      obtain ⟨ks,read,ht⟩ := s.abortRead_eq
      rw [ht]
      exact le_rfl
    | helloBuilt | sendingClose => exact Nat.le_succ _
    | _ => exact le_rfl
  | caller k h =>
    cases h with
    | idTaken => exact Nat.le_succ _
    | _ => exact le_rfl
  | read c h =>
    cases h with
    | scheduled =>
      obtain ⟨ks,attempts,log,ht⟩ := s.scheduleReconnect_eq c
      rw [ht]
    | _ => exact le_rfl
  | write c h => cases h <;> exact le_rfl
  | ping c h =>
    cases h with
    | idTaken => exact Nat.le_succ _
    | _ => exact le_rfl

def State.drawn (s : State) (k : ℕ) : Event → List ℕ
  | .sendFrame j now =>
    if j = k then
      match s.callers k with
      | .checked _ _ => [s.nextId now]
      | _ => []
    else []
  | _ => []

theorem step_rises {s t : State} {e : Event} (h : step s e = some t) (k : ℕ) :
    Rises State.nextId e.now?.toList (s.drawn k e) s t := by
  have hgrows := State.nextId_le (step_move h).msgIdCounter
  unfold State.drawn
  split
  · next j now =>
    split_ifs with hj
    · subst hj
      split
      · next call c hk =>
        refine .single hgrows ?_
        simp only [step,State.sendFrame,hk,Option.some.injEq] at h
        subst h
        exact Nat.lt_succ_self _
      · exact .silent hgrows
    · exact .silent hgrows
  · exact .silent hgrows

def Caller.msgId? : Caller → Option UInt64
  | .idTaken _ _ msgId => some msgId
  | _ => none

def returnedIds (xs : List (Call × Outcome)) : List UInt64 :=
  xs.filterMap fun x => match x.2 with
    | .ok _ msgId => some msgId
    | .notConnected => none

/-- The ids that a caller has got, the latest last. -/
def State.callerIds (s : State) (k : ℕ) : List UInt64 :=
  returnedIds (s.returned k) ++ (s.callers k).msgId?.toList

theorem generateMsgId_eq (s : State) (now : ℕ) :
    (s.generateMsgId now).1 = UInt64.ofNat (s.nextId now) := by
  apply UInt64.toNat_inj.mp
  simp [State.generateMsgId,State.nextId,MsgId.Call.msgId]

/-- A caller gets no id but those that are drawn for it, and it gets them in their order. -/
theorem step_callerIds {s t : State} {e : Event} (h : step s e = some t) (k : ℕ) :
    (t.callerIds k).Sublist (s.callerIds k ++ (s.drawn k e).map UInt64.ofNat) := by
  have hkept (hcallers : t.callers k = s.callers k) (hreturned : t.returned k = s.returned k) :
      (t.callerIds k).Sublist (s.callerIds k ++ (s.drawn k e).map UInt64.ofNat) := by
    rw [State.callerIds,hcallers,hreturned]
    exact List.sublist_append_left _ _
  by_cases ha : ∃ j, e.actor = .caller j
  swap
  · have hne : ∀ j, e.actor ≠ .caller j := fun j hj => ha ⟨j,hj⟩
    exact hkept (by rw [(step_move h).callers hne]) (by rw [(step_move h).returned hne])
  cases e with
  | call j call =>
    obtain ⟨hidle,h⟩ := Option.ite_none_right_eq_some.mp h
    cases h
    unfold startCall at hkept ⊢
    by_cases hj : k = j
    · subst hj
      cases s.sender with
      | none => simp [State.callerIds,hidle,Caller.msgId?,returnedIds]
      | some c => simp [State.callerIds,hidle,Caller.msgId?]
    · cases hs : s.sender with
      | none =>
        rw [hs] at hkept
        exact hkept (finishCall_callers_of_ne _ hj _ _) (finishCall_returned_of_ne _ hj _ _)
      | some c =>
        rw [hs] at hkept
        exact hkept (setCaller_of_ne _ hj _) rfl
  | sendFrame j now =>
    simp only [step,State.sendFrame] at h
    cases hj : s.callers j with
    | idle =>
      rw [hj] at h
      cases h
    | checked call c =>
      rw [hj] at h
      cases h
      by_cases hk : k = j
      · subst hk
        have hreturned : (s.generateMsgId now).2.returned = s.returned := rfl
        simp [State.callerIds,State.drawn,hj,Caller.msgId?,generateMsgId_eq,hreturned]
      · exact hkept (setCaller_of_ne _ hk _) rfl
    | idTaken call c msgId =>
      rw [hj] at h
      dsimp only at h
      split at h
      · cases h
        by_cases hk : k = j
        · subst hk
          simp [State.callerIds,setConnection,hj,Caller.msgId?,returnedIds]
        · exact hkept (finishCall_callers_of_ne _ hk _ _) (finishCall_returned_of_ne _ hk _ _)
      · cases h
        by_cases hk : k = j
        · subst hk
          simp [State.callerIds,hj,Caller.msgId?,returnedIds]
        · exact hkept (finishCall_callers_of_ne _ hk _ _) (finishCall_returned_of_ne _ hk _ _)
  | _ =>
    obtain ⟨j,hj⟩ := ha
    cases hj

theorem callerIds_sublist {options : MIPClientOptions} {events : List Event} {s : State}
    (h : run step (init options) events = some s) (k : ℕ) : (s.callerIds k).Sublist
      (((steps step (init options) events).flatMap fun p => p.1.drawn k p.2).map UInt64.ofNat) := by
  rw [List.map_flatMap]
  exact sublist_of_run (fun s => s.callerIds k) (fun _ _ _ h => step_callerIds h k) h

def SumFits (s : State) (e : Event) : Prop := ∀ now ∈ e.now?, s.nextId now < 2 ^ 64

instance (s : State) (e : Event) : Decidable (SumFits s e) :=
  inferInstanceAs (Decidable (∀ now ∈ e.now?, _))

theorem SumFits.drawn {s : State} {e : Event} (h : SumFits s e) {k n : ℕ}
    (hn : n ∈ s.drawn k e) : n < 2 ^ 64 := by
  unfold State.drawn at hn
  split at hn
  · next j now =>
    split_ifs at hn
    · split at hn
      · rw [List.mem_singleton.mp hn]
        exact h now rfl
      · cases hn
    · cases hn
  · cases hn

theorem map_ofNat_rises {ns : List ℕ} (h : ns.Pairwise (· < ·)) (hfits : ∀ n ∈ ns, n < 2 ^ 64) :
    (ns.map UInt64.ofNat).Pairwise (· < ·) := by
  rw [List.pairwise_map]
  refine h.imp_of_mem fun {n m} hn hm hlt => ?_
  rw [UInt64.lt_iff_toNat_lt,UInt64.toNat_ofNat_of_lt' (hfits n hn),
    UInt64.toNat_ofNat_of_lt' (hfits m hm)]
  exact hlt

theorem msgIdOf_bytes (call : Call) (msgId : UInt64) :
    msgIdOf (call.bytes msgId) = msgId.toNat := by
  rw [Call.bytes,frameBytes,buildHeader,Header.encode_new]
  exact congrArg Nat.cast (Wire.field_msgId _ msgId.toNat_lt)

theorem returnedFrames_ids (c : ℕ) (xs : List (Call × Outcome)) :
    ((returnedFrames c xs).map msgIdOf).Sublist
      ((returnedIds xs).map fun msgId => (msgId.toNat : ℤ)) := by
  induction xs with
  | nil => exact .slnil
  | cons x xs ih =>
    obtain ⟨call,outcome⟩ := x
    cases outcome with
    | notConnected => exact ih
    | ok d msgId =>
      by_cases hd : d = c
      · have hframes : returnedFrames c ((call,.ok d msgId) :: xs) =
            call.bytes msgId :: returnedFrames c xs := List.filterMap_cons_some (if_pos hd)
        rw [hframes,List.map_cons,msgIdOf_bytes]
        exact ih.cons_cons _
      · have hframes : returnedFrames c ((call,.ok d msgId) :: xs) = returnedFrames c xs :=
          List.filterMap_cons_none (if_neg hd)
        rw [hframes]
        exact ih.cons _

/-- In every run with a clock that is never set back and with no sum beyond 64 bits: the ids that
the calls of one caller return rise strictly, over all connections, and so do the ids of the
caller's frames among those written to a connection. -/
theorem callerIds_rise (options : MIPClientOptions) (events : List Event)
    (hclock : (events.filterMap Event.now?).Pairwise (· ≤ ·))
    (hfits : ∀ p ∈ steps step (init options) events, SumFits p.1 p.2) :
    ∀ s ∈ run step (init options) events, ∀ k,
      (returnedIds (s.returned k)).Pairwise (· < ·) ∧
      ∀ c, (((s.connections c).writtenFor k).map msgIdOf).Pairwise (· < ·) := by
  intro s hs k
  rw [List.filterMap_eq_flatMap_toList] at hclock
  have hstep (s : State) (e : Event) (t : State) (h : step s e = some t) := step_rises h k
  have hrises := Rises.of_run State.nextId_mono hstep hs
  have hdrawn := hrises.sorted hclock
  have hreturned : (returnedIds (s.returned k)).Pairwise (· < ·) := by
    have hids := map_ofNat_rises hdrawn fun n hn => by
      obtain ⟨p,hp,hn⟩ := List.mem_flatMap.mp hn
      exact (hfits p hp).drawn hn
    exact hids.sublist ((List.sublist_append_left _ _).trans (callerIds_sublist hs k))
  refine ⟨hreturned,fun c => ?_⟩
  have hstreams : Streams s :=
    invariant (fun _ _ _ hI h => hI.step h) (streams_init options) events s (run_mem_states hs)
  have hsub := ((hstreams.writtenFor c k).sublist.map msgIdOf).trans
    (returnedFrames_ids c (s.returned k))
  refine List.Pairwise.sublist hsub ?_
  rw [List.pairwise_map]
  exact hreturned.imp fun hlt => Int.ofNat_lt.mpr (UInt64.lt_iff_toNat_lt.mp hlt)

def twoCallersRun : List Event :=
  connectRun ++ [.call 0 .ping,.call 1 .ping,.sendFrame 0 7,.sendFrame 1 7,.sendFrame 1 7,
    .sendFrame 0 7,.call 0 .ping,.sendFrame 0 9,.sendFrame 0 9,.recv 0,.written 0,.recv 0,
    .written 0,.recv 0,.written 0,.recv 0]

/-- The ids of the caller rise, those of all callers together do not. -/
theorem callerIds_rise_two : ∃ s ∈ run step (init {}) twoCallersRun,
    (returnedIds (s.returned 0)).length = 2 ∧ (returnedIds (s.returned 0)).Pairwise (· < ·) ∧
      ((s.connections 0).writtenFor 0).length = 2 ∧
      (((s.connections 0).writtenFor 0).map msgIdOf).Pairwise (· < ·) ∧
      ¬((s.connections 0).written.map fun x => msgIdOf x.2).Pairwise (· < ·) := by
  have hrun : ∃ s ∈ run step (init {}) twoCallersRun, (returnedIds (s.returned 0)).length = 2 ∧
      ((s.connections 0).writtenFor 0).length = 2 ∧
      ¬((s.connections 0).written.map fun x => msgIdOf x.2).Pairwise (· < ·) := by
    decide +kernel
  obtain ⟨s,hs,hids,hframes,hmixed⟩ := hrun
  obtain ⟨hrise,hwritten⟩ := callerIds_rise {} twoCallersRun (by decide) (by decide +kernel) s hs 0
  exact ⟨s,hs,hids,hrise,hframes,hwritten 0,hmixed⟩

end Rust
end MipClients
