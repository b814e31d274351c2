import MipClients.Transition
import Mathlib.Algebra.Group.Nat.Defs
import Mathlib.Logic.Function.Basic

/-! Message ids of the Rust client (`generate_msg_id` in `client/internals.rs`): any number of callers,
each taking a count off the shared counter and then reading the clock, in any interleaving. -/
namespace MipClients
namespace Rust
namespace MsgId

open Transition

/-- A call that has returned: the count it took and the clock it read, in microseconds. -/
structure Call where
  count : ℕ
  timestamp : ℕ
  deriving DecidableEq

def Call.msgId (call : Call) : ℕ := (call.timestamp + call.count) % 2 ^ 64

structure State where
  counter : ℕ
  now : ℕ
  /-- The count of each caller that is between its two steps. -/
  taken : ℕ → Option ℕ := fun _ => none
  /-- The latest first. -/
  returned : List Call := []

inductive Event
  | fetchAdd (caller : ℕ)
  | readClock (caller : ℕ)
  /-- Time passes; the clock never goes backwards. -/
  | tick (micros : ℕ)
  deriving DecidableEq

def step (s : State) : Event → Option State
  | .fetchAdd caller =>
    match s.taken caller with
    | none => some { s with
        counter := s.counter + 1
        taken := Function.update s.taken caller (some s.counter) }
    | some _ => none
  | .readClock caller =>
    match s.taken caller with
    | some count => some { s with
        taken := Function.update s.taken caller none
        returned := ⟨count,s.now⟩ :: s.returned }
    | none => none
  | .tick micros => some { s with now := s.now + micros }

def init (counter now : ℕ) : State where
  counter := counter
  now := now

def SumFits (s : State) : Event → Prop
  | .readClock caller => ∀ count ∈ s.taken caller, s.now + count < 2 ^ 64
  | _ => True

/-- A caller that took its count `d` before another which has returned does not read the clock
exactly `d` microseconds after it. -/
def NotCaughtUp (s : State) : Event → Prop
  | .readClock caller => ∀ count ∈ s.taken caller, ∀ call ∈ s.returned, count < call.count →
      s.now ≠ call.timestamp + (call.count - count)
  | _ => True

instance (s : State) (e : Event) : Decidable (SumFits s e) :=
  match e with
  | .readClock caller => inferInstanceAs (Decidable (∀ count ∈ s.taken caller, _))
  | .fetchAdd _ | .tick _ => inferInstanceAs (Decidable True)

instance (s : State) (e : Event) : Decidable (NotCaughtUp s e) :=
  match e with
  | .readClock caller => inferInstanceAs (Decidable (∀ count ∈ s.taken caller, _))
  | .fetchAdd _ | .tick _ => inferInstanceAs (Decidable True)

/-- Counts are handed out once, and clock readings lie in the past. -/
structure Sound (s : State) : Prop where
  taken_lt : ∀ caller count, s.taken caller = some count → count < s.counter
  taken_inj : ∀ caller caller' count, s.taken caller = some count →
    s.taken caller' = some count → caller = caller'
  returned_lt : ∀ call ∈ s.returned, call.count < s.counter
  returned_le : ∀ call ∈ s.returned, call.timestamp ≤ s.now
  returned_ne : ∀ call ∈ s.returned, ∀ caller, s.taken caller ≠ some call.count
  returned_fits : ∀ call ∈ s.returned, call.timestamp + call.count < 2 ^ 64

theorem sound_init (counter now : ℕ) : Sound (init counter now) :=
  ⟨nofun,nofun,nofun,nofun,nofun,nofun⟩

theorem sound_fetchAdd {s : State} (h : Sound s) (caller : ℕ) :
    Sound { s with
      counter := s.counter + 1
      taken := Function.update s.taken caller (some s.counter) } := by
  have htaken : ∀ c count, Function.update s.taken caller (some s.counter) c = some count →
      (c = caller ∧ count = s.counter) ∨ s.taken c = some count := by
    intro c count hc
    by_cases hcc : c = caller
    · rw [hcc,Function.update_self] at hc
      exact .inl ⟨hcc,(Option.some.inj hc).symm⟩
    · rw [Function.update_of_ne hcc] at hc
      exact .inr hc
  refine ⟨?_,?_,?_,h.returned_le,?_,h.returned_fits⟩
  · intro c count hc
    rcases htaken c count hc with ⟨-,rfl⟩ | hc
    · exact Nat.lt_succ_self _
    · exact Nat.lt_succ_of_lt (h.taken_lt c count hc)
  · intro c c' count hc hc'
    rcases htaken c count hc with ⟨hcc,hcount⟩ | hold <;>
      rcases htaken c' count hc' with ⟨hcc',hcount'⟩ | hold'
    · exact hcc.trans hcc'.symm
    · exact absurd (h.taken_lt c' count hold') (by omega)
    · exact absurd (h.taken_lt c count hold) (by omega)
    · exact h.taken_inj c c' count hold hold'
  · exact fun call hcall => Nat.lt_succ_of_lt (h.returned_lt call hcall)
  · intro call hcall c hc
    rcases htaken c call.count hc with ⟨-,hcount⟩ | hc
    · exact absurd (h.returned_lt call hcall) (by omega)
    · exact h.returned_ne call hcall c hc

theorem sound_readClock {s : State} (h : Sound s) {caller count : ℕ}
    (htaken : s.taken caller = some count) (hfits : s.now + count < 2 ^ 64) :
    Sound { s with
      taken := Function.update s.taken caller none
      returned := ⟨count,s.now⟩ :: s.returned } := by
  have hother : ∀ c k, Function.update s.taken caller none c = some k →
      c ≠ caller ∧ s.taken c = some k := by
    intro c k hc
    by_cases hcc : c = caller
    · rw [hcc,Function.update_self] at hc
      cases hc
    · rw [Function.update_of_ne hcc] at hc
      exact ⟨hcc,hc⟩
  refine ⟨fun c k hc => h.taken_lt c k (hother c k hc).2,?_,?_,?_,?_,?_⟩
  · exact fun c c' k hc hc' => h.taken_inj c c' k (hother c k hc).2 (hother c' k hc').2
  · exact List.forall_mem_cons.mpr ⟨h.taken_lt caller count htaken,h.returned_lt⟩
  · exact List.forall_mem_cons.mpr ⟨Nat.le_refl _,h.returned_le⟩
  · refine List.forall_mem_cons.mpr ⟨fun c hc => ?_,fun call hcall c hc => ?_⟩
    · obtain ⟨hne,hc⟩ := hother c count hc
      exact hne (h.taken_inj c caller count hc htaken)
    · exact h.returned_ne call hcall c (hother c _ hc).2
  · exact List.forall_mem_cons.mpr ⟨hfits,h.returned_fits⟩

theorem sound_step (s : State) (e : Event) (t : State) (h : Sound s) (hfits : SumFits s e)
    (hs : step s e = some t) : Sound t := by
  cases e with
  | fetchAdd caller =>
    cases hfree : s.taken caller with
    | some count => simp [step,hfree] at hs
    | none =>
      simp only [step,hfree,Option.some.injEq] at hs
      exact hs ▸ sound_fetchAdd h caller
  | readClock caller =>
    cases htaken : s.taken caller with
    | none => simp [step,htaken] at hs
    | some count =>
      simp only [step,htaken,Option.some.injEq] at hs
      exact hs ▸ sound_readClock h htaken (hfits count htaken)
  | tick micros =>
    cases hs
    exact ⟨h.taken_lt,h.taken_inj,h.returned_lt,
      fun call hcall => Nat.le_add_right_of_le (h.returned_le call hcall),h.returned_ne,
      h.returned_fits⟩

/-- A call that reads the clock now can only repeat the id of a call with a larger count. -/
theorem msgId_eq_iff {s : State} (h : Sound s) {caller count : ℕ}
    (htaken : s.taken caller = some count) (hfits : s.now + count < 2 ^ 64) {call : Call}
    (hcall : call ∈ s.returned) : (⟨count,s.now⟩ : Call).msgId = call.msgId ↔
      count < call.count ∧ s.now = call.timestamp + (call.count - count) := by
  have hcf := h.returned_fits call hcall
  have hle := h.returned_le call hcall
  have hne : call.count ≠ count := fun heq => h.returned_ne call hcall caller (heq ▸ htaken)
  simp only [Call.msgId,Nat.mod_eq_of_lt hfits,Nat.mod_eq_of_lt hcf]
  omega

/-- One step keeps the ids distinct exactly when its caller has not caught up with another. -/
theorem nodup_step_iff (s : State) (e : Event) (t : State) (h : Sound s) (hfits : SumFits s e)
    (hnodup : (s.returned.map Call.msgId).Nodup) (hs : step s e = some t) :
    (t.returned.map Call.msgId).Nodup ↔ NotCaughtUp s e := by
  cases e with
  | fetchAdd caller =>
    cases hfree : s.taken caller with
    | some count => simp [step,hfree] at hs
    | none =>
      simp only [step,hfree,Option.some.injEq] at hs
      rw [← hs]
      exact iff_of_true hnodup trivial
  | readClock caller =>
    cases htaken : s.taken caller with
    | none => simp [step,htaken] at hs
    | some count =>
      simp only [step,htaken,Option.some.injEq] at hs
      rw [← hs]
      have hmem : (⟨count,s.now⟩ : Call).msgId ∉ s.returned.map Call.msgId ↔
          NotCaughtUp s (.readClock caller) := by
        simp only [List.mem_map,not_exists,not_and]
        constructor
        · rintro hno k hk call hcall hlt heq
          rw [htaken] at hk
          cases hk
          exact hno call hcall
            ((msgId_eq_iff h htaken (hfits count htaken) hcall).mpr ⟨hlt,heq⟩).symm
        · intro hno call hcall heq
          obtain ⟨hlt,hnow⟩ :=
            (msgId_eq_iff h htaken (hfits count htaken) hcall).mp heq.symm
          exact hno count htaken call hcall hlt hnow
      rw [List.map_cons,List.nodup_cons,hmem]
      exact and_iff_left hnodup
  | tick micros =>
    cases hs
    exact iff_of_true hnodup trivial

/-- The ids returned stay pairwise distinct exactly in the runs in which no caller reads the clock
as many microseconds after a caller with a later count as it took its own count before it. -/
theorem msgIds_nodup_iff (counter now : ℕ) (events : List Event)
    (hfits : ∀ p ∈ steps step (init counter now) events, SumFits p.1 p.2) :
    (∀ s ∈ states step (init counter now) events, (s.returned.map Call.msgId).Nodup) ↔
      ∀ p ∈ steps step (init counter now) events, NotCaughtUp p.1 p.2 :=
  invariant_iff_of_steps sound_step nodup_step_iff (sound_init counter now) List.nodup_nil hfits

def overtaking : List Event := [.fetchAdd 0,.fetchAdd 1,.readClock 1,.tick 2,.readClock 0]

theorem msgIds_nodup_overtaking : ∃ s ∈ states step (init 0 100) overtaking,
    s.returned.length = 2 ∧ (s.returned.map Call.msgId).Nodup := by
  have hlast : ∃ s ∈ states step (init 0 100) overtaking, s.returned.length = 2 := by decide
  obtain ⟨s,hs,hlength⟩ := hlast
  have hall := (msgIds_nodup_iff 0 100 overtaking (by decide)).mpr (by decide)
  exact ⟨s,hs,hlength,hall s hs⟩

/-- The first caller is preempted for one microsecond while the second takes its turn. -/
theorem msgIds_collide : ¬∀ (counter now : ℕ) (events : List Event),
    (∀ p ∈ steps step (init counter now) events, SumFits p.1 p.2) →
    ∀ s ∈ states step (init counter now) events, (s.returned.map Call.msgId).Nodup := by
  intro h
  have hrun := h 0 100 [.fetchAdd 0,.fetchAdd 1,.readClock 1,.tick 1,.readClock 0] (by decide)
  revert hrun
  decide

end MsgId
end Rust
end MipClients
