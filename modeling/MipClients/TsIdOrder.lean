import Mathlib.Data.Int.ConditionallyCompleteOrder
import MipClients.Rising
import MipClients.TsMessages

/-! The message ids that the TypeScript client puts on the wire (`generateMsgId` and its callers in
`index.ts`) rise along each socket's stream and from each socket to the later ones, as long as the
clock is not set back. -/
namespace MipClients
namespace Ts

open Transition
open Utf8 (Text)
open Wire (Emission FrameType)

def State.nextId (now : ℤ) (s : State) : ℤ := (s.generateMsgId now).1

theorem State.nextId_mono (s : State) : Monotone (State.nextId · s) := by
  intro now now' h
  have hscaled : now * 1000000 ≤ now' * 1000000 := mul_le_mul_of_nonneg_right h (by decide)
  exact Int.add_le_add_right hscaled _

theorem State.nextId_lt {s t : State} (h : s.msgIdCounter < t.msgIdCounter) (now : ℤ) :
    s.nextId now < t.nextId now := by
  unfold State.nextId State.generateMsgId
  dsimp only
  omega

theorem State.nextId_le {s t : State} (h : s.msgIdCounter ≤ t.msgIdCounter) (now : ℤ) :
    s.nextId now ≤ t.nextId now := by
  unfold State.nextId State.generateMsgId
  dsimp only
  omega

theorem msgIdOf_frameBytes {frameType : ℕ} {payload : List UInt8} {flags : ℕ} {msgId : ℤ}
    {bytes : List UInt8} (h : frameBytes frameType payload flags msgId = some bytes) :
    msgIdOf bytes = msgId := by
  obtain ⟨v,rfl,hid⟩ := parses_frameBytes h
  have hlen : 16 + 8 ≤ v.toList.length := by simp
  rw [msgIdOf,BigEndian.field_append hlen]
  exact hid

namespace State

variable (s : State)

theorem sendFrame_counts {frameType : ℕ} {payload : List UInt8} {flags : ℕ} {now : ℤ} {i : ℕ}
    (h : s.wire i (frameBytes frameType payload flags (s.generateMsgId now).1) ≠ []) :
    (s.sendFrame frameType payload flags now).2.msgIdCounter = s.msgIdCounter + 1 := by
  rcases s.sendFrame_cases frameType payload flags now with
    ⟨hcase,hno⟩ | ⟨hcase,-⟩ | ⟨j,bytes,-,-,-,hcase⟩ <;> rw [hcase]
  · exact absurd (wire_unconnected hno _) h
  · rfl
  · rfl

variable {s}

theorem composes_counts {e : Event} {frameType : ℕ} {payload : List UInt8} {flags : ℕ} {now : ℤ}
    (he : s.composes e = some (frameType,payload,flags)) (hnow : e.now? = some now) {i : ℕ}
    (h : s.writes i e ≠ []) :
    (s.sendFrame frameType payload flags now).2.msgIdCounter = s.msgIdCounter + 1 := by
  rw [writes,frame?,he,hnow] at h
  exact s.sendFrame_counts h

theorem call_counts {c : Call} {now : ℤ} (hc : (Event.call c now).sends = true) {i : ℕ}
    (h : s.writes i (.call c now) ≠ []) : (s.call now c).msgIdCounter = s.msgIdCounter + 1 := by
  rw [s.call_eq hc]
  cases hf : c.frame with
  | none =>
    refine absurd (writes_nil ?_ i) h
    rw [frame?,composes,hf]
    rfl
  | some x => exact composes_counts (e := .call c now) hf rfl h

theorem socket_of_mem_writes {i : ℕ} {e : Event} {bytes : List UInt8}
    (h : bytes ∈ s.writes i e) : s.socket = some i := by
  unfold writes wire at h
  split_ifs at h with hlive
  · exact hlive.1
  · cases h

theorem writes_cases (i : ℕ) (e : Event) : s.writes i e = [] ∨ ∃ bytes, s.writes i e = [bytes] := by
  unfold writes wire
  split_ifs
  · cases s.frame? e with
    | none => exact .inl rfl
    | some bytes => exact .inr ⟨bytes,rfl⟩
  · exact .inl rfl

end State

theorem counts_of_writes {s t : State} {e : Event} (h : step s e = some t) {i : ℕ}
    (hw : s.writes i e ≠ []) : t.msgIdCounter = s.msgIdCounter + 1 := by
  cases e with
  | call c now =>
    cases h
    cases c with
    | connect => exact absurd (State.writes_nil rfl i) hw
    | disconnect =>
      have hsent := State.composes_counts (s := (s.setAutoReconnect false).cleanup)
        (e := .call .disconnect now) rfl rfl hw
      rw [← State.sendClose_eq] at hsent
      obtain ⟨bytes,hbytes⟩ := List.exists_mem_of_ne_nil _ hw
      have hs : s.socket = some i := State.socket_of_mem_writes hbytes
      have hsocket : (s.setAutoReconnect false).cleanup.socket = some i := hs
      simp only [State.call,State.disconnect,hsocket]
      exact hsent
    | _ => exact State.call_counts rfl hw
  | listenersReturn now =>
    obtain ⟨k,hk,rfl⟩ := Option.map_eq_some_iff.mp h
    cases k with
    | onConnect j =>
      have hsent := State.composes_counts (State.composes_hello hk now) rfl hw
      simp only [State.resume,State.sayHello]
      split
      · next h =>
        rw [h] at hsent
        exact hsent
      · next h =>
        rw [h] at hsent
        exact hsent
    | _ =>
      refine absurd (State.writes_nil ?_ i) hw
      rw [State.frame?,State.composes,hk]
      rfl
  | listenerThrows => exact absurd (State.writes_nil rfl i) hw
  | host e =>
    obtain ⟨-,h⟩ := Option.ite_none_right_eq_some.mp h
    cases e with
    | interval timer now =>
      obtain ⟨-,h⟩ := Option.ite_none_right_eq_some.mp h
      cases h
      split_ifs with hc
      · exact State.composes_counts (e := .host (.interval timer now)) rfl rfl hw
      · rw [State.writes,State.wire,if_neg fun h => hc h.2.1] at hw
        exact absurd rfl hw
    | _ => exact absurd (State.writes_nil rfl i) hw

theorem step_rises {s t : State} {e : Event} (h : step s e = some t) (i : ℕ) :
    Rises State.nextId e.now?.toList ((s.writes i e).map msgIdOf) s t := by
  have hgrows : ∀ now, s.nextId now ≤ t.nextId now := by
    refine State.nextId_le ?_
    rcases msgIdCounter_of_step h with hsame | ⟨-,-,hnext⟩ <;> omega
  rcases s.writes_cases i e with hw | ⟨bytes,hw⟩
  · rw [hw]
    exact .silent hgrows
  · have hcounts := counts_of_writes h (i := i) (by rw [hw]; exact List.cons_ne_nil _ _)
    have hmem : bytes ∈ s.writes i e := hw ▸ List.mem_singleton_self bytes
    obtain ⟨x,now,-,hnow,hbytes⟩ := State.mem_writes hmem
    have hid : msgIdOf bytes = s.nextId now := msgIdOf_frameBytes hbytes
    rw [hw,hnow,List.map_singleton,hid]
    exact .single hgrows (State.nextId_lt (by omega) now)

theorem written_ids {options : Options} {events : List Event} {s : State}
    (h : run step (init options) events = some s) (i : ℕ) : (s.sockets i).written.map msgIdOf =
      (steps step (init options) events).flatMap fun p => (p.1.writes i p.2).map msgIdOf := by
  rw [written_eq h i,List.map_flatMap]

/-- What has been written to a socket when a later one is written to is all that ever is. -/
theorem written_before {options : Options} {events : List Event} {s : State}
    (h : run step (init options) events = some s) {i j : ℕ} (hij : i < j) {b : List UInt8}
    (hb : b ∈ (s.sockets j).written) : ∃ before e after t u, events = before ++ e :: after ∧
      run step (init options) before = some t ∧ step t e = some u ∧ b ∈ t.writes j e ∧
      (s.sockets i).written = (t.sockets i).written := by
  rw [written_eq h j,List.mem_flatMap] at hb
  obtain ⟨⟨t,e⟩,hp,hb⟩ := hb
  obtain ⟨before,after,u,rfl,hbefore,hu⟩ := mem_steps_iff.mp hp
  have hI : Made t := invariant (fun _ _ _ hI h => hI.step h) (made_init options) before t
    (run_mem_states hbefore)
  have hsocket := State.socket_of_mem_writes hb
  have hretired : t.Retired i := by
    refine ⟨hij.trans (hI.socket j hsocket),fun hi => ?_⟩
    cases hsocket.symm.trans hi
    exact absurd hij (Nat.lt_irrefl i)
  rw [run_append,hbefore] at h
  exact ⟨before,e,after,t,u,rfl,hbefore,hu,hb,
    hI.retired_run hretired (e :: after) s (run_mem_states h)⟩

/-- In every run with a clock that is never set back: the message ids of the frames given to a
socket rise strictly, all of them are below those of the frames given to a socket made later, and,
with the calls of the publishing interface, each of the three clients that has read any beginning of
the socket's stream has had its raw frame callback called with ids that rise strictly. -/
theorem socketIds_rise (options : Options) (events : List Event)
    (hclock : (events.filterMap Event.now?).Pairwise (· ≤ ·)) :
    ∀ s ∈ run step (init options) events, ∀ i,
      ((s.sockets i).written.map msgIdOf).Pairwise (· < ·) ∧
      (∀ j, i < j → ∀ a ∈ (s.sockets i).written, ∀ b ∈ (s.sockets j).written,
        msgIdOf a < msgIdOf b) ∧
      ((∀ e ∈ events, e.Calls Call.Plain) → ∀ (receiver : Client) (chunks : List (List UInt8)),
        chunks.flatten <+: (s.sockets i).written.flatten →
        (receiver.reportedIds chunks).Pairwise (· < ·)) := by
  intro s hs i
  rw [List.filterMap_eq_flatMap_toList] at hclock
  have hrises (i : ℕ) (s : State) (e : Event) (t : State) (h : step s e = some t) :=
    step_rises h i
  have hids : ((s.sockets i).written.map msgIdOf).Pairwise (· < ·) := by
    rw [written_ids hs i]
    exact (Rises.of_run State.nextId_mono (hrises i) hs).sorted hclock
  refine ⟨hids,fun j hij a ha b hb => ?_,fun hcalls receiver chunks hchunks => ?_⟩
  · obtain ⟨before,e,after,t,u,rfl,hbefore,hu,hb,hsame⟩ := written_before hs hij hb
    have ha' := List.mem_map_of_mem (f := msgIdOf) (hsame ▸ ha)
    rw [written_ids hbefore i] at ha'
    exact Rises.lt_of_run State.nextId_mono (hrises i) (hrises j) hbefore hu hclock ha'
      (List.mem_map_of_mem hb)
  · exact (tells_written hcalls hs i).heard_ids hids receiver hchunks

def reconnectedRun : List Event :=
  disconnectedRun ++ [.call .disconnect 8,.call .connect 8,.host (.connect 1),.listenersReturn 9]

theorem socketIds_rise_reconnected : ∃ s ∈ run step (init {}) reconnectedRun,
    (s.sockets 0).written.length = 3 ∧ (s.sockets 1).written.length = 1 ∧
      ((s.sockets 0).written.map msgIdOf).Pairwise (· < ·) ∧
      (∀ a ∈ (s.sockets 0).written, ∀ b ∈ (s.sockets 1).written, msgIdOf a < msgIdOf b) ∧
      ∀ (receiver : Client) (chunks : List (List UInt8)),
        chunks.flatten <+: (s.sockets 0).written.flatten →
        (receiver.reportedIds chunks).Pairwise (· < ·) := by
  have hrun : ∃ s ∈ run step (init {}) reconnectedRun, (s.sockets 0).written.length = 3 ∧
      (s.sockets 1).written.length = 1 := by
    decide +kernel
  have hplain : ∀ e ∈ reconnectedRun, e.Calls Call.Plain := by
    simp only [reconnectedRun,disconnectedRun,List.cons_append,List.nil_append,List.forall_mem_cons]
    exact ⟨trivial,trivial,trivial,⟨⟨['m'],rfl⟩,by decide⟩,trivial,trivial,trivial,trivial,
      fun _ h => (by cases h)⟩
  obtain ⟨s,hs,hfirst,hsecond⟩ := hrun
  obtain ⟨hids,hlater,hread⟩ := socketIds_rise {} reconnectedRun (by decide) s hs 0
  exact ⟨s,hs,hfirst,hsecond,hids,hlater 1 (by decide),hread hplain⟩

end Ts
end MipClients
