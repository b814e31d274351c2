import Mathlib.Data.List.Basic

/-! Incremental decoders: a loop that looks at the front of a receive buffer, takes complete units
off it and reports them, fed with the chunks of a stream. The results say when the reports depend
on the bytes alone and not on how the stream was cut. -/
namespace MipClients
namespace StreamDecoder

variable {α ε : Type*}

/-- What one pass of the loop does with the buffer it finds. -/
inductive Pass (α ε : Type*)
  | wait
  | deliver (out : List ε) (rest : List α)
  | stop (out : List ε) (rest : List α)
  | fail (out : List ε)

/-- A delivery shortens the buffer, and none of the exits is taken back when more input arrives. -/
structure Decoder (α ε : Type*) where
  pass : List α → Pass α ε
  deliver_length : ∀ {b rest : List α} {out : List ε}, pass b = .deliver out rest →
    rest.length < b.length
  deliver_stable : ∀ {b rest : List α} {out : List ε}, pass b = .deliver out rest →
    ∀ c, pass (b ++ c) = .deliver out (rest ++ c)
  stop_stable : ∀ {b rest : List α} {out : List ε}, pass b = .stop out rest →
    ∀ c, ∃ out' rest', pass (b ++ c) = .stop out' rest'
  fail_stable : ∀ {b : List α} {out : List ε}, pass b = .fail out → ∀ c, pass (b ++ c) = .fail out

structure Result (α ε : Type*) where
  out : List ε
  buffer : List α
  raised : Bool

def Result.after (out : List ε) (r : Result α ε) : Result α ε := { r with out := out ++ r.out }

def Result.map {ε' : Type*} (g : ε → ε') (r : Result α ε) : Result α ε' :=
  ⟨r.out.map g,r.buffer,r.raised⟩

@[simp] theorem Result.after_out (out : List ε) (r : Result α ε) :
    (r.after out).out = out ++ r.out := rfl
@[simp] theorem Result.after_buffer (out : List ε) (r : Result α ε) :
    (r.after out).buffer = r.buffer := rfl
@[simp] theorem Result.after_raised (out : List ε) (r : Result α ε) :
    (r.after out).raised = r.raised := rfl
@[simp] theorem Result.after_nil (r : Result α ε) : r.after [] = r := rfl
@[simp] theorem Result.after_after (out out' : List ε) (r : Result α ε) :
    (r.after out').after out = r.after (out ++ out') := by
  simp [Result.after]

variable (d : Decoder α ε)

def loop : ℕ → List α → Result α ε
  | 0, b => ⟨[],b,false⟩
  | n+1, b => match d.pass b with
    | .wait => ⟨[],b,false⟩
    | .deliver out rest => (loop n rest).after out
    | .stop out rest => ⟨out,rest,false⟩
    | .fail out => ⟨out,b,true⟩

/-- The loop on one buffer; every delivery shortens it, so its length bounds the passes. -/
def run (b : List α) : Result α ε := loop d (b.length+1) b

/-- Chunks appended to the buffer one after the other, until an exception stops the feed. -/
def feed : List α → List (List α) → Result α ε
  | b, [] => ⟨[],b,false⟩
  | b, c :: cs =>
    let r := run d (b ++ c)
    if r.raised then r else (feed r.buffer cs).after r.out

variable {d}

theorem loop_fuel {n m : ℕ} {b : List α} (hn : b.length < n) (hm : b.length < m) :
    loop d n b = loop d m b := by
  induction n generalizing m b with
  | zero => omega
  | succ n ih =>
    cases m with
    | zero => omega
    | succ m =>
      cases h : d.pass b with
      | wait => simp [loop,h]
      | stop out rest => simp [loop,h]
      | fail out => simp [loop,h]
      | deliver out rest =>
        have hl := d.deliver_length h
        simp only [loop,h]
        rw [ih (m := m) (by omega) (by omega)]

@[simp] theorem run_wait {b : List α} (h : d.pass b = .wait) : run d b = ⟨[],b,false⟩ := by
  simp [run,loop,h]

theorem run_stop {b rest : List α} {out : List ε} (h : d.pass b = .stop out rest) :
    run d b = ⟨out,rest,false⟩ := by
  simp [run,loop,h]

theorem run_fail {b : List α} {out : List ε} (h : d.pass b = .fail out) :
    run d b = ⟨out,b,true⟩ := by
  simp [run,loop,h]

theorem run_deliver {b rest : List α} {out : List ε} (h : d.pass b = .deliver out rest) :
    run d b = (run d rest).after out := by
  have hl := d.deliver_length h
  have hf : loop d b.length rest = run d rest := loop_fuel hl (Nat.lt_succ_self _)
  simp only [run,loop,h] at *
  rw [hf]

variable (d)

/-- `Boundary d b out r`: the loop reaches `r` from `b` by deliveries that report `out`. -/
inductive Boundary : List α → List ε → List α → Prop
  | here (b : List α) : Boundary b [] b
  | next {b rest r : List α} {out outs : List ε} (h : d.pass b = .deliver out rest)
      (hr : Boundary rest outs r) : Boundary b (out ++ outs) r

variable {d}

theorem Boundary.run_eq {b r : List α} {out : List ε} (h : Boundary d b out r) :
    run d b = (run d r).after out := by
  induction h with
  | here b => simp
  | next hp hr ih => rw [run_deliver hp,ih,Result.after_after]

theorem Boundary.trans {a b c : List α} {out out' : List ε} (h : Boundary d a out b)
    (h' : Boundary d b out' c) : Boundary d a (out ++ out') c := by
  induction h with
  | here b => simpa using h'
  | next hp hr ih => simpa using Boundary.next hp (ih h')

theorem Boundary.append {b r : List α} {out : List ε} (h : Boundary d b out r) (c : List α) :
    Boundary d (b ++ c) out (r ++ c) := by
  induction h with
  | here b => exact .here (b ++ c)
  | next hp hr ih => exact .next (d.deliver_stable hp c) ih

theorem Boundary.suffix (hd : ∀ b out rest, d.pass b = .deliver out rest → rest <:+ b)
    {b r : List α} {out : List ε} (h : Boundary d b out r) : r <:+ b := by
  induction h with
  | here b => exact List.suffix_refl b
  | next hp hr ih => exact ih.trans (hd _ _ _ hp)

/-- The loop is deterministic: it gets from any boundary to the place where it leaves. -/
theorem Boundary.remaining {b r t : List α} {out outs : List ε} (h : Boundary d b out r)
    (h' : Boundary d b outs t) (ht : ∀ o rest, d.pass t ≠ .deliver o rest) :
    ∃ o, outs = out ++ o ∧ Boundary d r o t := by
  induction h generalizing outs with
  | here b => exact ⟨outs,rfl,h'⟩
  | next hp hr ih =>
    cases h' with
    | here => exact absurd hp (ht _ _)
    | next hp' hr' =>
      rw [hp] at hp'
      injection hp' with ho hrest
      subst ho hrest
      obtain ⟨o,ho,hb⟩ := ih hr'
      exact ⟨o,by rw [ho,List.append_assoc],hb⟩

theorem exists_boundary (d : Decoder α ε) (b : List α) :
    ∃ out r, Boundary d b out r ∧ ∀ o rest, d.pass r ≠ .deliver o rest := by
  induction hn : b.length using Nat.strongRecOn generalizing b with
  | ind n ih =>
    cases h : d.pass b with
    | wait => exact ⟨[],b,.here b,by simp [h]⟩
    | stop out rest => exact ⟨[],b,.here b,by simp [h]⟩
    | fail out => exact ⟨[],b,.here b,by simp [h]⟩
    | deliver out rest =>
      obtain ⟨outs,r,hb,hr⟩ := ih rest.length (hn ▸ d.deliver_length h) rest rfl
      exact ⟨out ++ outs,r,.next h hb,hr⟩

theorem run_raised (hfail : ∀ b o, d.pass b ≠ .fail o) (b : List α) : (run d b).raised = false := by
  obtain ⟨out,r,hb,hr⟩ := exists_boundary d b
  rw [hb.run_eq]
  cases hp : d.pass r with
  | wait => simp [hp]
  | stop o rest => simp [run_stop hp]
  | fail o => exact absurd hp (hfail r o)
  | deliver o rest => exact absurd hp (hr o rest)

/-- A loop that never raises and waits with what its stops leave it, waits with what it leaves. -/
theorem run_waits (hwait : ∀ b o rest, d.pass b = .stop o rest → d.pass rest = .wait)
    (hfail : ∀ b o, d.pass b ≠ .fail o) (b : List α) : d.pass (run d b).buffer = .wait := by
  obtain ⟨out,r,hb,hr⟩ := exists_boundary d b
  rw [hb.run_eq]
  cases hp : d.pass r with
  | wait => rwa [run_wait hp]
  | stop o rest =>
    rw [run_stop hp]
    exact hwait r o rest hp
  | fail o => exact absurd hp (hfail r o)
  | deliver o rest => exact absurd hp (hr o rest)

/-! Decoders whose stop throws the rest of the buffer away, or may do so. -/

variable (d)

/-- The loop, run on `b`, leaves by a stop. -/
def StopsIn (b : List α) : Prop :=
  ∃ out r o rest, Boundary d b out r ∧ d.pass r = .stop o rest

variable {d}

theorem StopsIn.append {b : List α} (h : StopsIn d b) (c : List α) : StopsIn d (b ++ c) := by
  obtain ⟨out,r,o,rest,hb,hp⟩ := h
  obtain ⟨o',rest',hp'⟩ := d.stop_stable hp c
  exact ⟨out,r ++ c,o',rest',hb.append c,hp'⟩

theorem feed_nils {b : List α} (hb : d.pass b = .wait) {cs : List (List α)}
    (h : cs.flatten = []) : feed d b cs = ⟨[],b,false⟩ := by
  induction cs with
  | nil => rfl
  | cons c cs ih =>
    obtain ⟨rfl,hcs⟩ : c = [] ∧ cs.flatten = [] := by
      rw [List.flatten_cons] at h
      exact List.append_eq_nil_iff.mp h
    simp [feed,hb,ih hcs]

theorem StopsIn.of_boundary {b r : List α} {out : List ε} (hb : Boundary d b out r)
    (h : StopsIn d r) : StopsIn d b := by
  obtain ⟨out',r',o,rest,hr,hp⟩ := h
  exact ⟨out ++ out',r',o,rest,hb.trans hr,hp⟩

theorem not_stopsIn_of_wait {b : List α} (h : d.pass b = .wait) : ¬StopsIn d b := by
  rintro ⟨out,r,o,rest,hb,hp⟩
  cases hb with
  | here => rw [h] at hp; cases hp
  | next hp' _ => rw [h] at hp'; cases hp'

/-- When no proper prefix of the stream stops the loop, feeding it in chunks is running it at
once. -/
theorem feed_eq_run (hwait : ∀ b o rest, d.pass b = .stop o rest → d.pass rest = .wait)
    (hfail : ∀ b o, d.pass b ≠ .fail o) {b : List α} (hb : d.pass b = .wait)
    (cs : List (List α))
    (hstop : ∀ a c, b ++ cs.flatten = a ++ c → StopsIn d a → c = []) :
    feed d b cs = run d (b ++ cs.flatten) := by
  induction cs generalizing b with
  | nil => simp [feed,hb]
  | cons c cs ih =>
    obtain ⟨out,r,hbound,hr⟩ := exists_boundary d (b ++ c)
    have hwhole : Boundary d (b ++ (c :: cs).flatten) out (r ++ cs.flatten) := by
      simpa using hbound.append cs.flatten
    cases hp : d.pass r with
    | deliver o rest => exact absurd hp (hr o rest)
    | fail o => exact absurd hp (hfail r o)
    | wait =>
      have hrun : run d (b ++ c) = ⟨out,r,false⟩ := by
        rw [hbound.run_eq,run_wait hp]
        simp [Result.after]
      have hrest := ih hp fun a c' hac hs => by
        -- a prefix of what is left is a prefix of the stream, unless it ends inside `r`
        rcases List.append_eq_append_iff.mp hac with ⟨x,rfl,hx⟩ | ⟨y,rfl,-⟩
        · exact hstop (b ++ c ++ x) c' (by simp [hx]) (.of_boundary (hbound.append x) hs)
        · exact absurd (hs.append y) (not_stopsIn_of_wait hp)
      rw [feed,hrun,hwhole.run_eq]
      simp [hrest]
    | stop o rest =>
      have hnil : cs.flatten = [] :=
        hstop (b ++ c) cs.flatten (by simp) ⟨out,r,o,rest,hbound,hp⟩
      have hrun : run d (b ++ c) = ⟨out ++ o,rest,false⟩ := by
        rw [hbound.run_eq,run_stop hp]
        rfl
      rw [feed,hrun]
      simp [feed_nils (hwait r o rest hp) hnil,hnil,hrun,Result.after]

theorem StopsIn.run_buffer {b : List α} (h : StopsIn d b) :
    ∃ r o rest, d.pass r = .stop o rest ∧ (run d b).buffer = rest ∧ (run d b).raised = false := by
  obtain ⟨out,r,o,rest,hb,hp⟩ := h
  refine ⟨r,o,rest,hp,?_⟩
  rw [hb.run_eq,run_stop hp]
  exact ⟨rfl,rfl⟩

/-! Decoders whose stop leaves the buffer as it is and reports nothing that counts. -/

variable (d)

/-- A stop keeps the buffer, and its own reports are not among the `visible` ones. -/
def Steady (visible : ε → Bool) : Prop :=
  ∀ b out rest, d.pass b = .stop out rest → rest = b ∧ out.filter visible = []

/-- Nothing more is delivered from `b` without new input. -/
def Settled (b : List α) : Prop := d.pass b = .wait ∨ ∃ out rest, d.pass b = .stop out rest

variable {d}

theorem run_stopped_visible {visible : ε → Bool} (hs : Steady d visible) {b rest : List α}
    {out : List ε} (h : d.pass b = .stop out rest) (c : List α) :
    (run d (b ++ c)).out.filter visible = [] ∧ (run d (b ++ c)).buffer = b ++ c ∧
      (run d (b ++ c)).raised = false := by
  obtain ⟨out',rest',h'⟩ := d.stop_stable h c
  obtain ⟨hrest,hvis⟩ := hs _ _ _ h'
  rw [run_stop h']
  exact ⟨hvis,hrest,rfl⟩

/-- The visible reports of a steady decoder depend on the bytes alone. -/
theorem feed_visible_eq_run {visible : ε → Bool} (hs : Steady d visible) {b : List α}
    (hb : Settled d b) (cs : List (List α)) :
    (feed d b cs).out.filter visible = (run d (b ++ cs.flatten)).out.filter visible := by
  induction cs generalizing b with
  | nil =>
    rcases hb with hb | ⟨out,rest,hb⟩
    · simp [feed,hb]
    · simpa [feed] using (run_stopped_visible hs hb []).1.symm
  | cons c cs ih =>
    obtain ⟨out,r,hbound,hr⟩ := exists_boundary d (b ++ c)
    have hwhole : Boundary d (b ++ (c :: cs).flatten) out (r ++ cs.flatten) := by
      simpa using hbound.append cs.flatten
    rw [feed,hwhole.run_eq,hbound.run_eq]
    cases hp : d.pass r with
    | deliver o rest => exact absurd hp (hr o rest)
    | wait =>
      rw [run_wait hp]
      simp [List.filter_append,ih (.inl hp)]
    | stop o rest =>
      obtain ⟨hrest,hvis⟩ := hs _ _ _ hp
      subst hrest
      rw [run_stop hp]
      simp [List.filter_append,hvis,ih (.inr ⟨o,_,hp⟩)]
    | fail o =>
      rw [run_fail hp,run_fail (d.fail_stable hp cs.flatten)]
      simp

/-- Up to an exception, a steady decoder takes from the stream what the loop takes from it at once. -/
theorem feed_boundary {visible : ε → Bool} (hs : Steady d visible) {b : List α}
    (hb : Settled d b) {cs : List (List α)} (hr : (feed d b cs).raised = false) :
    ∃ out, Boundary d (b ++ cs.flatten) out (feed d b cs).buffer ∧
      (feed d b cs).out.filter visible = out.filter visible ∧ Settled d (feed d b cs).buffer := by
  induction cs generalizing b with
  | nil => exact ⟨[],by simpa [feed] using .here b,rfl,hb⟩
  | cons c cs ih =>
    obtain ⟨out,r,hbound,hleave⟩ := exists_boundary d (b ++ c)
    have hwhole : Boundary d (b ++ (c :: cs).flatten) out (r ++ cs.flatten) := by
      simpa using hbound.append cs.flatten
    rw [feed,hbound.run_eq] at hr ⊢
    cases hp : d.pass r with
    | deliver o rest => exact absurd hp (hleave o rest)
    | fail o =>
      rw [run_fail hp] at hr
      simp at hr
    | wait =>
      rw [run_wait hp] at hr ⊢
      obtain ⟨outs,hrest,hvis,hsettled⟩ := ih (.inl hp) (by simpa using hr)
      exact ⟨out ++ outs,hwhole.trans hrest,by simp [List.filter_append,hvis],by simpa using hsettled⟩
    | stop o rest =>
      obtain ⟨rfl,ho⟩ := hs _ _ _ hp
      rw [run_stop hp] at hr ⊢
      obtain ⟨outs,hrest,hvis,hsettled⟩ := ih (.inr ⟨o,_,hp⟩) (by simpa using hr)
      exact ⟨out ++ outs,hwhole.trans hrest,by simp [List.filter_append,hvis,ho],
        by simpa using hsettled⟩

variable (d)

/-- The loop, run on `b`, leaves by an exception. -/
def FailsIn (b : List α) : Prop := ∃ out r o, Boundary d b out r ∧ d.pass r = .fail o

variable {d}

theorem FailsIn.of_boundary {b r : List α} {out : List ε} (hb : Boundary d b out r)
    (h : FailsIn d r) : FailsIn d b := by
  obtain ⟨out',r',o,hr,hp⟩ := h
  exact ⟨out ++ out',r',o,hb.trans hr,hp⟩

/-- In any chunks, a steady decoder raises exactly on the streams on which the loop does at once. -/
theorem feed_raised_iff {visible : ε → Bool} (hs : Steady d visible) {b : List α}
    (hb : Settled d b) (cs : List (List α)) :
    (feed d b cs).raised = true ↔ FailsIn d (b ++ cs.flatten) := by
  constructor
  · intro hr
    induction cs generalizing b with
    | nil => cases hr
    | cons c cs ih =>
      obtain ⟨out,r,hbound,hleave⟩ := exists_boundary d (b ++ c)
      have hwhole : Boundary d (b ++ (c :: cs).flatten) out (r ++ cs.flatten) := by
        simpa using hbound.append cs.flatten
      rw [feed,hbound.run_eq] at hr
      refine .of_boundary hwhole ?_
      cases hp : d.pass r with
      | deliver o rest => exact absurd hp (hleave o rest)
      | fail o => exact ⟨[],_,o,.here _,d.fail_stable hp cs.flatten⟩
      | wait =>
        rw [run_wait hp] at hr
        exact ih (.inl hp) (by simpa using hr)
      | stop o rest =>
        obtain ⟨rfl,-⟩ := hs _ _ _ hp
        rw [run_stop hp] at hr
        exact ih (.inr ⟨o,_,hp⟩) (by simpa using hr)
  · rintro ⟨out,r,o,hbound,hp⟩
    by_contra hr
    obtain ⟨outs,hbuffer,-,hsettled⟩ := feed_boundary hs hb (Bool.eq_false_iff.mpr hr)
    -- from the place of the exception the loop gets no further
    obtain ⟨o',-,hrest⟩ := hbuffer.remaining hbound (by simp [hp])
    cases hrest with
    | here =>
      rcases hsettled with hw | ⟨_,_,hw⟩ <;>
        · rw [hp] at hw
          cases hw
    | next hd _ =>
      rcases hsettled with hw | ⟨_,_,hw⟩ <;>
        · rw [hd] at hw
          cases hw

/-- Once stopped, a steady decoder reports nothing visible for the rest of the stream. -/
theorem feed_stopped_visible {visible : ε → Bool} (hs : Steady d visible) {b rest : List α}
    {out : List ε} (h : d.pass b = .stop out rest) (cs : List (List α)) :
    (feed d b cs).out.filter visible = [] := by
  rw [feed_visible_eq_run hs (.inr ⟨out,rest,h⟩)]
  exact (run_stopped_visible hs h cs.flatten).1

theorem feed_append (b : List α) (cs cs' : List (List α)) :
    feed d b (cs ++ cs') = if (feed d b cs).raised then feed d b cs
      else (feed d (feed d b cs).buffer cs').after (feed d b cs).out := by
  induction cs generalizing b with
  | nil => simp [feed]
  | cons c cs ih =>
    by_cases hr : (run d (b ++ c)).raised
    · simp [feed,hr]
    · rw [List.cons_append,feed,feed,ih]
      simp only [hr,Bool.false_eq_true,if_false,Result.after_raised,Result.after_buffer]
      split_ifs <;> simp

theorem feed_not_raised (hfail : ∀ b o, d.pass b ≠ .fail o) (b : List α) (cs : List (List α)) :
    (feed d b cs).raised = false := by
  induction cs generalizing b with
  | nil => rfl
  | cons c cs ih =>
    rw [feed,run_raised hfail]
    exact ih _

theorem feed_concat {b : List α} {cs : List (List α)} (hr : (feed d b cs).raised = false)
    (c : List α) :
    feed d b (cs ++ [c]) = (run d ((feed d b cs).buffer ++ c)).after (feed d b cs).out := by
  rw [feed_append,hr]
  cases hrun : (run d ((feed d b cs).buffer ++ c)).raised <;> simp [feed,hrun,Result.after]

theorem feed_snoc (hfail : ∀ b o, d.pass b ≠ .fail o) (b : List α) (cs : List (List α))
    (c : List α) :
    feed d b (cs ++ [c]) = (run d ((feed d b cs).buffer ++ c)).after (feed d b cs).out :=
  feed_concat (feed_not_raised hfail b cs) c

/-- Chunks that leave a stopped buffer behind are the last to report anything visible. -/
theorem feed_append_visible {visible : ε → Bool} (hs : Steady d visible) {b rest : List α}
    {out : List ε} {cs : List (List α)} (h : d.pass (feed d b cs).buffer = .stop out rest)
    (cs' : List (List α)) :
    (feed d b (cs ++ cs')).out.filter visible = (feed d b cs).out.filter visible := by
  rw [feed_append]
  split_ifs
  · rfl
  · simp [List.filter_append,feed_stopped_visible hs h cs']

/-! Streams of complete units. -/

theorem boundary_units {υ : Type*} {unit : υ → List α} {report : υ → List ε}
    (us : List υ) (hu : ∀ u ∈ us, ∀ c, d.pass (unit u ++ c) = .deliver (report u) c)
    (tail : List α) : Boundary d (us.flatMap unit ++ tail) (us.flatMap report) tail := by
  induction us with
  | nil => exact .here tail
  | cons u us ih =>
    have hhead := hu u (by simp) (us.flatMap unit ++ tail)
    have htail := ih fun v hv => hu v (by simp [hv])
    simpa [List.flatMap_cons,List.append_assoc] using Boundary.next hhead htail

theorem feed_waiting {b tail : List α} {out : List ε} (hb : d.pass b = .wait)
    (ht : d.pass tail = .wait) (cs : List (List α))
    (h : Boundary d (b ++ cs.flatten) out tail) : feed d b cs = ⟨out,tail,false⟩ := by
  have hleave : ∀ o rest, d.pass tail ≠ .deliver o rest := by simp [ht]
  induction cs generalizing b out with
  | nil =>
    rw [List.flatten_nil,List.append_nil] at h
    cases h with
    | here => rfl
    | next hp hr => rw [hb] at hp; cases hp
  | cons c cs ih =>
    obtain ⟨out',r,hbound,hr⟩ := exists_boundary d (b ++ c)
    have hwhole : Boundary d (b ++ (c :: cs).flatten) out' (r ++ cs.flatten) := by
      simpa using hbound.append cs.flatten
    obtain ⟨o,rfl,hrest⟩ := hwhole.remaining h hleave
    cases hp : d.pass r with
    | deliver o' rest => exact absurd hp (hr o' rest)
    | wait =>
      have hrun : run d (b ++ c) = ⟨out',r,false⟩ := by
        rw [hbound.run_eq,run_wait hp]
        simp [Result.after]
      rw [feed,hrun]
      simp [ih hp hrest,Result.after]
    | stop o' rest =>
      obtain ⟨o'',rest'',hstop⟩ := d.stop_stable hp cs.flatten
      cases hrest with
      | here => rw [ht] at hstop; cases hstop
      | next hp' _ => rw [hstop] at hp'; cases hp'
    | fail o' =>
      have hfail := d.fail_stable hp cs.flatten
      cases hrest with
      | here => rw [ht] at hfail; cases hfail
      | next hp' _ => rw [hfail] at hp'; cases hp'

/-- Complete units followed by an incomplete one, in any chunks: each unit is reported once and in
order, and the incomplete one stays in the buffer. -/
theorem feed_units {υ : Type*} {unit : υ → List α} {report : υ → List ε} (us : List υ)
    (hu : ∀ u ∈ us, ∀ c, d.pass (unit u ++ c) = .deliver (report u) c) {tail : List α}
    (ht : d.pass tail = .wait) (he : d.pass [] = .wait) {cs : List (List α)}
    (hcs : cs.flatten = us.flatMap unit ++ tail) :
    feed d [] cs = ⟨us.flatMap report,tail,false⟩ := by
  apply feed_waiting he ht
  rw [List.nil_append,hcs]
  exact boundary_units us hu tail

end StreamDecoder
end MipClients
