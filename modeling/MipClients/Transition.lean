import Mathlib.Data.List.Basic

/-! Runs of a machine given by a partial step function: the states a schedule of events visits, the
steps it takes, and the induction rules for what holds in all of them. -/
namespace MipClients
namespace Transition

variable {σ ε : Type*} (step : σ → ε → Option σ)

/-- The states visited, the first one included, up to the first event that cannot happen. -/
def states : σ → List ε → List σ
  | s, [] => [s]
  | s, e :: es => s :: match step s e with
    | none => []
    | some t => states t es

/-- The steps taken: the state before each, and its event. -/
def steps : σ → List ε → List (σ × ε)
  | _, [] => []
  | s, e :: es => match step s e with
    | none => []
    | some t => (s,e) :: steps t es

def run : σ → List ε → Option σ
  | s, [] => some s
  | s, e :: es => (step s e).bind fun t => run t es

variable {step}

@[simp] theorem self_mem_states (s : σ) (es : List ε) : s ∈ states step s es := by
  cases es <;> simp [states]

theorem states_cons {s t : σ} {e : ε} (h : step s e = some t) (es : List ε) :
    states step s (e :: es) = s :: states step t es := by
  simp [states,h]

theorem steps_cons {s t : σ} {e : ε} (h : step s e = some t) (es : List ε) :
    steps step s (e :: es) = (s,e) :: steps step t es := by
  simp [steps,h]

@[simp] theorem states_blocked {s : σ} {e : ε} (h : step s e = none) (es : List ε) :
    states step s (e :: es) = [s] := by
  simp [states,h]

@[simp] theorem steps_blocked {s : σ} {e : ε} (h : step s e = none) (es : List ε) :
    steps step s (e :: es) = [] := by
  simp [steps,h]

theorem run_cons {s t : σ} {e : ε} (h : step s e = some t) (es : List ε) :
    run step s (e :: es) = run step t es := by
  simp [run,h]

theorem run_append (s : σ) (es es' : List ε) :
    run step s (es ++ es') = (run step s es).bind fun t => run step t es' := by
  induction es generalizing s with
  | nil => rfl
  | cons e es ih => simp only [List.cons_append,run,Option.bind_assoc,ih]

theorem run_mem_states {s t : σ} {es : List ε} (h : run step s es = some t) :
    t ∈ states step s es := by
  induction es generalizing s with
  | nil => simpa [run,states] using h.symm
  | cons e es ih =>
    obtain ⟨u,hu,ht⟩ := Option.bind_eq_some_iff.mp h
    rw [states_cons hu]
    exact List.mem_cons_of_mem _ (ih ht)

theorem step_of_mem_steps {s : σ} {es : List ε} {p : σ × ε} (h : p ∈ steps step s es) :
    p.1 ∈ states step s es ∧ ∃ t ∈ states step s es, step p.1 p.2 = some t := by
  induction es generalizing s with
  | nil => cases h
  | cons e es ih =>
    cases he : step s e with
    | none =>
      rw [steps_blocked he] at h
      cases h
    | some t =>
      rw [steps_cons he] at h
      rw [states_cons he]
      rcases List.mem_cons.mp h with rfl | h
      · exact ⟨List.mem_cons_self,t,List.mem_cons_of_mem _ (self_mem_states t es),he⟩
      · obtain ⟨hp,u,hu,hstep⟩ := ih h
        exact ⟨List.mem_cons_of_mem _ hp,u,List.mem_cons_of_mem _ hu,hstep⟩

theorem mem_steps_iff {s : σ} {es : List ε} {p : σ × ε} : p ∈ steps step s es ↔
    ∃ before after t, es = before ++ p.2 :: after ∧ run step s before = some p.1 ∧
      step p.1 p.2 = some t := by
  induction es generalizing s with
  | nil => simp [steps]
  | cons e es ih =>
    constructor
    · intro h
      cases he : step s e with
      | none =>
        rw [steps_blocked he] at h
        cases h
      | some t =>
        rw [steps_cons he] at h
        rcases List.mem_cons.mp h with rfl | h
        · exact ⟨[],es,t,rfl,rfl,he⟩
        · obtain ⟨before,after,u,rfl,hrun,hu⟩ := ih.mp h
          exact ⟨e :: before,after,u,rfl,by rw [run_cons he,hrun],hu⟩
    · rintro ⟨before,after,u,hes,hrun,hu⟩
      cases before with
      | nil =>
        obtain ⟨rfl,rfl⟩ := List.cons.inj hes
        cases hrun
        rw [steps_cons hu]
        exact List.mem_cons_self
      | cons b before =>
        obtain ⟨rfl,rfl⟩ := List.cons.inj hes
        obtain ⟨t,ht,hrun⟩ := Option.bind_eq_some_iff.mp hrun
        rw [steps_cons ht]
        exact List.mem_cons_of_mem _ (ih.mpr ⟨before,after,u,rfl,hrun,hu⟩)

theorem mem_of_mem_steps {s : σ} {es : List ε} {p : σ × ε} (h : p ∈ steps step s es) :
    p.2 ∈ es := by
  obtain ⟨before,after,t,rfl,-,-⟩ := mem_steps_iff.mp h
  exact List.mem_append_right before List.mem_cons_self

/-- A property that the steps meeting a condition preserve holds in every state of a run all of
whose steps meet it. -/
theorem invariant_of_steps {I : σ → Prop} {C : σ → ε → Prop}
    (hstep : ∀ s e t, I s → C s e → step s e = some t → I t) {s : σ} {es : List ε} (hs : I s)
    (hC : ∀ p ∈ steps step s es, C p.1 p.2) : ∀ t ∈ states step s es, I t := by
  induction es generalizing s with
  | nil => simpa [states] using hs
  | cons e es ih =>
    cases he : step s e with
    | none => simpa [he] using hs
    | some t =>
      rw [steps_cons he,List.forall_mem_cons] at hC
      rw [states_cons he,List.forall_mem_cons]
      exact ⟨hs,ih (hstep s e t hs hC.1 he) hC.2⟩

/-- A property that every step preserves holds in every state of a run. -/
theorem invariant {I : σ → Prop} (hstep : ∀ s e t, I s → step s e = some t → I t) {s : σ}
    (hs : I s) (es : List ε) : ∀ t ∈ states step s es, I t :=
  invariant_of_steps (C := fun _ _ => True) (fun s e t h _ he => hstep s e t h he) hs
    fun _ _ => trivial

/-- Where a step out of a state with the property keeps it exactly when the step meets a condition,
a run keeps it throughout exactly when all its steps meet the condition. The equivalence may rest on
an invariant `I` of the runs whose steps all meet an assumption `A`. -/
theorem invariant_iff_of_steps {I P : σ → Prop} {A C : σ → ε → Prop}
    (hinv : ∀ s e t, I s → A s e → step s e = some t → I t)
    (hstep : ∀ s e t, I s → A s e → P s → step s e = some t → (P t ↔ C s e)) {s : σ} (hI : I s)
    (hP : P s) {es : List ε} (hA : ∀ p ∈ steps step s es, A p.1 p.2) :
    (∀ t ∈ states step s es, P t) ↔ ∀ p ∈ steps step s es, C p.1 p.2 := by
  induction es generalizing s with
  | nil => simp [states,steps,hP]
  | cons e es ih =>
    cases he : step s e with
    | none => simp [he,hP]
    | some t =>
      rw [steps_cons he,List.forall_mem_cons] at hA
      rw [states_cons he,List.forall_mem_cons,steps_cons he,List.forall_mem_cons]
      have ht := hstep s e t hI hA.1 hP he
      constructor
      · rintro ⟨-,hall⟩
        have hPt := hall t (self_mem_states t es)
        exact ⟨ht.mp hPt,(ih (hinv s e t hI hA.1 he) hPt hA.2).mp hall⟩
      · rintro ⟨hC,hall⟩
        exact ⟨hP,(ih (hinv s e t hI hA.1 he) (ht.mpr hC) hA.2).mpr hall⟩

/-- Conditions on steps that agree wherever an invariant holds are met by all steps of the same
runs. -/
theorem forall_steps_iff {I : σ → Prop} {A B : σ → ε → Prop}
    (hinv : ∀ s e t, I s → step s e = some t → I t)
    (hiff : ∀ s e t, I s → step s e = some t → (A s e ↔ B s e)) {s : σ} (hs : I s) (es : List ε) :
    (∀ p ∈ steps step s es, A p.1 p.2) ↔ ∀ p ∈ steps step s es, B p.1 p.2 := by
  have hall (p : σ × ε) (hp : p ∈ steps step s es) : A p.1 p.2 ↔ B p.1 p.2 := by
    obtain ⟨hmem,t,-,ht⟩ := step_of_mem_steps hp
    exact hiff p.1 p.2 t (invariant hinv hs es p.1 hmem) ht
  exact forall₂_congr hall

/-- Where a step brings a property about exactly when it meets a condition, and none takes it back, the
property holds behind a run exactly when it held before or one of the steps met the condition. -/
theorem run_iff {I P : σ → Prop} {B : σ → ε → Prop} (hinv : ∀ s e t, I s → step s e = some t → I t)
    (hstep : ∀ s e t, I s → step s e = some t → (P t ↔ P s ∨ B s e)) {s t : σ} {es : List ε}
    (hI : I s) (h : run step s es = some t) : P t ↔ P s ∨ ∃ p ∈ steps step s es, B p.1 p.2 := by
  induction es generalizing s with
  | nil =>
    cases h
    simp [steps]
  | cons e es ih =>
    obtain ⟨u,hu,h⟩ := Option.bind_eq_some_iff.mp h
    rw [ih (hinv s e u hI hu) h,hstep s e u hI hu,steps_cons hu,List.exists_mem_cons_iff,or_assoc]

/-- Where each step appends what it puts out, a run has put out what its steps have, one after the
other. -/
theorem output_of_run {α : Type*} {I : σ → Prop} (out : σ → List α) {f : σ → ε → List α}
    (hinv : ∀ s e t, I s → step s e = some t → I t)
    (hstep : ∀ s e t, I s → step s e = some t → out t = out s ++ f s e) {s t : σ} {es : List ε}
    (hI : I s) (h : run step s es = some t) :
    out t = out s ++ (steps step s es).flatMap fun p => f p.1 p.2 := by
  induction es generalizing s with
  | nil =>
    cases h
    simp [steps]
  | cons e es ih =>
    obtain ⟨u,hu,h⟩ := Option.bind_eq_some_iff.mp h
    rw [ih (hinv s e u hI hu) h,hstep s e u hI hu,steps_cons hu,List.flatMap_cons,List.append_assoc]

/-- Where each step adds at most what it puts out, a run has nothing but what its steps put out. -/
theorem sublist_of_run {α : Type*} (out : σ → List α) {f : σ → ε → List α}
    (hstep : ∀ s e t, step s e = some t → (out t).Sublist (out s ++ f s e)) {s t : σ} {es : List ε}
    (h : run step s es = some t) :
    (out t).Sublist (out s ++ (steps step s es).flatMap fun p => f p.1 p.2) := by
  induction es generalizing s with
  | nil =>
    cases h
    simp [steps]
  | cons e es ih =>
    obtain ⟨u,hu,h⟩ := Option.bind_eq_some_iff.mp h
    rw [steps_cons hu,List.flatMap_cons,← List.append_assoc]
    exact (ih h).trans ((hstep s e u hu).append_right _)

/-! Progress: what a machine can come to by events of a kind. -/

/-- At most `n` events of the kind, each of which can happen, lead to the property. -/
inductive Leads (step : σ → ε → Option σ) (E : ε → Prop) (P : σ → Prop) : ℕ → σ → Prop
  | here {n : ℕ} {s : σ} (h : P s) : Leads step E P n s
  | next {n : ℕ} {s t : σ} {e : ε} (he : E e) (h : step s e = some t) (ht : Leads step E P n t) :
    Leads step E P (n + 1) s

theorem Leads.mono {E : ε → Prop} {P : σ → Prop} {n m : ℕ} {s : σ} (h : Leads step E P n s)
    (hm : n ≤ m) : Leads step E P m s := by
  induction h generalizing m with
  | here h => exact .here h
  | next he hstep _ ih =>
    obtain ⟨k,rfl⟩ := Nat.exists_eq_add_of_le hm
    rw [Nat.add_right_comm]
    exact .next he hstep (ih (Nat.le_add_right _ k))

theorem Leads.trans {E : ε → Prop} {P Q : σ → Prop} {n m : ℕ} {s : σ} (h : Leads step E P n s)
    (hQ : ∀ t, P t → Leads step E Q m t) : Leads step E Q (n + m) s := by
  induction h with
  | here h => exact (hQ _ h).mono (Nat.le_add_left m _)
  | next he hstep _ ih =>
    rw [Nat.add_right_comm]
    exact .next he hstep ih

variable {ρ : Type*}

/-- The machine that carries a record of its steps along. -/
def recorded (step : σ → ε → Option σ) (next : ρ → σ → ε → σ → ρ) (x : σ × ρ) (e : ε) :
    Option (σ × ρ) :=
  (step x.1 e).map fun t => (t,next x.2 x.1 e t)

theorem recorded_eq_some {next : ρ → σ → ε → σ → ρ} {x y : σ × ρ} {e : ε}
    (h : recorded step next x e = some y) : step x.1 e = some y.1 ∧ y.2 = next x.2 x.1 e y.1 := by
  obtain ⟨t,ht,rfl⟩ := Option.map_eq_some_iff.mp h
  exact ⟨ht,rfl⟩

/-- Keeping a record changes nothing about the run. -/
theorem map_steps_recorded (next : ρ → σ → ε → σ → ρ) (x : σ × ρ) (es : List ε) :
    (steps (recorded step next) x es).map (fun p => (p.1.1,p.2)) = steps step x.1 es := by
  induction es generalizing x with
  | nil => rfl
  | cons e es ih =>
    cases he : step x.1 e with
    | none =>
      have hr : recorded step next x e = none := by rw [recorded,he,Option.map_none]
      rw [steps_blocked hr,steps_blocked he,List.map_nil]
    | some t =>
      have hr : recorded step next x e = some (t,next x.2 x.1 e t) := by
        rw [recorded,he,Option.map_some]
      rw [steps_cons hr,steps_cons he,List.map_cons,ih]

theorem forall_steps_recorded {C : σ → ε → Prop} (next : ρ → σ → ε → σ → ρ) (x : σ × ρ)
    (es : List ε) : (∀ p ∈ steps (recorded step next) x es, C p.1.1 p.2) ↔
      ∀ p ∈ steps step x.1 es, C p.1 p.2 := by
  rw [← map_steps_recorded next x es,List.forall_mem_map]

/-- What one step of a fold relates, the whole fold relates. -/
theorem foldl_related {α : Type*} {R : σ → σ → Prop} (hrefl : ∀ s, R s s)
    (htrans : ∀ {s t u}, R s t → R t u → R s u) {f : σ → α → σ} (hf : ∀ s a, R s (f s a))
    (l : List α) (s : σ) : R s (l.foldl f s) := by
  induction l generalizing s with
  | nil => exact hrefl s
  | cons a l ih => exact htrans (hf s a) (ih (f s a))

end Transition
end MipClients
