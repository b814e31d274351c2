import Mathlib.Order.Monotone.Defs
import MipClients.Transition

/-! Numbers that a machine makes of a clock's readings and of its own state, and that rise as long
as the clock is not set back: each state has a level at each reading, and what comes out of a step
lies between the level before it and the one behind it. -/
namespace MipClients

variable {σ ε ρ ν : Type*} [Preorder ρ] [Preorder ν]

/-- From one state to another, at these readings, the numbers come out. -/
structure Rises (level : ρ → σ → ν) (readings : List ρ) (numbers : List ν) (s t : σ) : Prop where
  grows : ∀ r, level r s ≤ level r t
  above : ∀ n ∈ numbers, ∃ r ∈ readings, level r s ≤ n
  below : ∀ n ∈ numbers, ∃ r ∈ readings, n < level r t
  sorted : readings.Pairwise (· ≤ ·) → numbers.Pairwise (· < ·)

namespace Rises

variable {level : ρ → σ → ν} {readings readings' : List ρ} {numbers numbers' : List ν} {s t u : σ}

theorem silent (h : ∀ r, level r s ≤ level r t) : Rises level readings [] s t :=
  ⟨h,nofun,nofun,fun _ => .nil⟩

theorem single {r : ρ} (h : ∀ r, level r s ≤ level r t) (hr : level r s < level r t) :
    Rises level [r] [level r s] s t where
  grows := h
  above := by
    intro n hn
    cases List.mem_singleton.mp hn
    exact ⟨r,List.mem_singleton_self r,le_rfl⟩
  below := by
    intro n hn
    cases List.mem_singleton.mp hn
    exact ⟨r,List.mem_singleton_self r,hr⟩
  sorted := fun _ => List.pairwise_singleton _ _

theorem grow (h : Rises level readings numbers s t) (h' : ∀ r, level r t ≤ level r u) :
    Rises level readings numbers s u where
  grows := fun r => (h.grows r).trans (h' r)
  above := h.above
  below := fun n hn =>
    have ⟨r,hr,hlt⟩ := h.below n hn
    ⟨r,hr,hlt.trans_le (h' r)⟩
  sorted := h.sorted

theorem grown (h : ∀ r, level r s ≤ level r t) (h' : Rises level readings numbers t u) :
    Rises level readings numbers s u where
  grows := fun r => (h r).trans (h'.grows r)
  above := fun n hn =>
    have ⟨r,hr,hle⟩ := h'.above n hn
    ⟨r,hr,(h r).trans hle⟩
  below := h'.below
  sorted := h'.sorted

section

variable (hlevel : ∀ s, Monotone (level · s))

include hlevel

theorem lt (h : Rises level readings numbers s t) (h' : Rises level readings' numbers' t u)
    (hclock : ∀ r ∈ readings, ∀ r' ∈ readings', r ≤ r') {n n' : ν} (hn : n ∈ numbers)
    (hn' : n' ∈ numbers') : n < n' := by
  obtain ⟨r,hr,hlt⟩ := h.below n hn
  obtain ⟨r',hr',hle⟩ := h'.above n' hn'
  calc n < level r t := hlt
    _ ≤ level r' t := hlevel t (hclock r hr r' hr')
    _ ≤ n' := hle

theorem append (h : Rises level readings numbers s t)
    (h' : Rises level readings' numbers' t u) :
    Rises level (readings ++ readings') (numbers ++ numbers') s u where
  grows := fun r => (h.grows r).trans (h'.grows r)
  above := by
    rw [List.forall_mem_append]
    refine ⟨fun n hn => ?_,fun n hn => ?_⟩
    · obtain ⟨r,hr,hle⟩ := h.above n hn
      exact ⟨r,List.mem_append_left _ hr,hle⟩
    · obtain ⟨r,hr,hle⟩ := h'.above n hn
      exact ⟨r,List.mem_append_right _ hr,(h.grows r).trans hle⟩
  below := by
    rw [List.forall_mem_append]
    refine ⟨fun n hn => ?_,fun n hn => ?_⟩
    · obtain ⟨r,hr,hlt⟩ := h.below n hn
      exact ⟨r,List.mem_append_left _ hr,hlt.trans_le (h'.grows r)⟩
    · obtain ⟨r,hr,hlt⟩ := h'.below n hn
      exact ⟨r,List.mem_append_right _ hr,hlt⟩
  sorted := by
    intro hclock
    obtain ⟨hr,hr',hcross⟩ := List.pairwise_append.mp hclock
    refine List.pairwise_append.mpr ⟨h.sorted hr,h'.sorted hr',fun n hn n' hn' => ?_⟩
    exact h.lt hlevel h' hcross hn hn'

/-- What the steps of a run put out rises over the whole run. -/
theorem of_run {step : σ → ε → Option σ} {clock : ε → List ρ} {out : σ → ε → List ν}
    (hstep : ∀ s e t, step s e = some t → Rises level (clock e) (out s e) s t) {es : List ε}
    (h : Transition.run step s es = some t) : Rises level (es.flatMap clock)
      ((Transition.steps step s es).flatMap fun p => out p.1 p.2) s t := by
  induction es generalizing s with
  | nil =>
    cases h
    exact silent fun _ => le_rfl
  | cons e es ih =>
    obtain ⟨u,hu,h⟩ := Option.bind_eq_some_iff.mp h
    rw [Transition.steps_cons hu]
    exact (hstep s e u hu).append hlevel (ih h)

/-- What the steps up to some point put out lies below what a step at that point does, though that
be another output. -/
theorem lt_of_run {step : σ → ε → Option σ} {clock : ε → List ρ} {out out' : σ → ε → List ν}
    (hout : ∀ s e t, step s e = some t → Rises level (clock e) (out s e) s t)
    (hout' : ∀ s e t, step s e = some t → Rises level (clock e) (out' s e) s t)
    {before after : List ε} {e : ε} (hrun : Transition.run step s before = some t)
    (hstep : step t e = some u)
    (hclock : ((before ++ e :: after).flatMap clock).Pairwise (· ≤ ·)) {n n' : ν}
    (hn : n ∈ (Transition.steps step s before).flatMap fun p => out p.1 p.2)
    (hn' : n' ∈ out' t e) : n < n' := by
  rw [List.flatMap_append,List.flatMap_cons] at hclock
  obtain ⟨-,-,hcross⟩ := List.pairwise_append.mp hclock
  have hbefore := of_run hlevel hout hrun
  exact hbefore.lt hlevel (hout' t e u hstep)
    (fun r hr r' hr' => hcross r hr r' (List.mem_append_left _ hr')) hn hn'

end

end Rises
end MipClients
