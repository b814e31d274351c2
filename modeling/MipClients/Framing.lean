import MipClients.StreamDecoder

/-! Length-prefixed framing: decoding loops for units made of a fixed-size header, whose first check
is a marker and which announces the length of the payload behind it. -/
namespace MipClients
namespace StreamDecoder

variable {α ε : Type*}

/-- What a loop does with a complete header and payload: take both off, take the header alone off,
or leave both in place and raise. -/
inductive Act (ε : Type*)
  | frame (out : List ε)
  | header (out : List ε)
  | fail (out : List ε)

def Act.out : Act ε → List ε
  | .frame out | .header out | .fail out => out

structure Framing (α ε : Type*) where
  size : ℕ
  size_pos : 0 < size
  /-- The header carries the marker. -/
  good : Vector α size → Bool
  /-- The payload length it announces. -/
  length : Vector α size → ℕ
  /-- What a header without the marker makes the loop report before it leaves. -/
  bad : Vector α size → List ε
  /-- Whether the loop then leaves the buffer as it is, or empty. -/
  keeps : Bool
  act : Vector α size → List α → Act ε

namespace Framing

variable (F : Framing α ε)

def head (b : List α) (h : ¬b.length < F.size) : Vector α F.size :=
  ⟨(b.take F.size).toArray,by simpa using Nat.min_eq_left (Nat.le_of_not_lt h)⟩

def pass (b : List α) : Pass α ε :=
  if h : b.length < F.size then .wait
  else
    let header := F.head b h
    if ¬F.good header then .stop (F.bad header) (if F.keeps then b else [])
    else if b.length < F.size + F.length header then .wait
    else match F.act header ((b.drop F.size).take (F.length header)) with
      | .frame out => .deliver out (b.drop (F.size + F.length header))
      | .header out => .deliver out (b.drop F.size)
      | .fail out => .fail out

variable {F}

@[simp] theorem pass_short {b : List α} (h : b.length < F.size) : F.pass b = .wait := by
  simp [pass,h]

@[simp] theorem pass_nil : F.pass [] = .wait := pass_short F.size_pos

theorem head_append {b : List α} (h : ¬b.length < F.size) (c : List α)
    (h' : ¬(b ++ c).length < F.size) : F.head (b ++ c) h' = F.head b h := by
  simp only [head,List.take_append_of_le_length (Nat.le_of_not_lt h)]

theorem head_toList (v : Vector α F.size) (c : List α) (h : ¬(v.toList ++ c).length < F.size) :
    F.head (v.toList ++ c) h = v := by
  apply Vector.toList_inj.mp
  simp [head]

/-! The three ways out of a pass that does not wait. -/

theorem pass_bad {b : List α} (h : ¬b.length < F.size) (hg : F.good (F.head b h) = false) :
    F.pass b = .stop (F.bad (F.head b h)) (if F.keeps then b else []) := by
  simp [pass,h,hg]

theorem pass_incomplete {b : List α} (h : ¬b.length < F.size) (hg : F.good (F.head b h) = true)
    (hl : b.length < F.size + F.length (F.head b h)) : F.pass b = .wait := by
  simp [pass,h,hg,hl]

theorem pass_complete {b : List α} (h : ¬b.length < F.size) (hg : F.good (F.head b h) = true)
    (hl : ¬b.length < F.size + F.length (F.head b h)) :
    F.pass b = match F.act (F.head b h) ((b.drop F.size).take (F.length (F.head b h))) with
      | .frame out => .deliver out (b.drop (F.size + F.length (F.head b h)))
      | .header out => .deliver out (b.drop F.size)
      | .fail out => .fail out := by
  simp [pass,h,hg,hl]

theorem pass_complete_append {b : List α} (h : ¬b.length < F.size)
    (hg : F.good (F.head b h) = true) (hl : ¬b.length < F.size + F.length (F.head b h))
    (c : List α) :
    F.pass (b ++ c) = match F.act (F.head b h) ((b.drop F.size).take (F.length (F.head b h))) with
      | .frame out => .deliver out (b.drop (F.size + F.length (F.head b h)) ++ c)
      | .header out => .deliver out (b.drop F.size ++ c)
      | .fail out => .fail out := by
  have h' : ¬(b ++ c).length < F.size := by rw [List.length_append]; omega
  have hh := head_append h c h'
  have hl' : ¬(b ++ c).length < F.size + F.length (F.head (b ++ c) h') := by
    rw [hh,List.length_append]; omega
  have hd : (b ++ c).drop F.size = b.drop F.size ++ c :=
    List.drop_append_of_le_length (Nat.le_of_not_lt h)
  have hdl : (b ++ c).drop (F.size + F.length (F.head b h)) =
      b.drop (F.size + F.length (F.head b h)) ++ c :=
    List.drop_append_of_le_length (Nat.le_of_not_lt hl)
  rw [pass_complete h' (by rw [hh]; exact hg) hl',hh,hdl,hd,
    List.take_append_of_le_length (by rw [List.length_drop]; omega)]

/-- Every pass waits, meets a bad header, or has a complete header and payload. -/
theorem pass_cases (b : List α) :
    F.pass b = .wait ∨
    (∃ h, F.good (F.head b h) = false) ∨
    (∃ h, F.good (F.head b h) = true ∧ ¬b.length < F.size + F.length (F.head b h)) := by
  by_cases h : b.length < F.size
  · exact .inl (pass_short h)
  · cases hg : F.good (F.head b h) with
    | false => exact .inr (.inl ⟨h,hg⟩)
    | true =>
      by_cases hl : b.length < F.size + F.length (F.head b h)
      · exact .inl (pass_incomplete h hg hl)
      · exact .inr (.inr ⟨h,hg,hl⟩)

theorem pass_eq_wait_iff (b : List α) :
    F.pass b = .wait ↔ b.length < F.size ∨
      ∃ h, F.good (F.head b h) = true ∧ b.length < F.size + F.length (F.head b h) := by
  constructor
  · intro hw
    by_cases h : b.length < F.size
    · exact .inl h
    · right
      refine ⟨h,?_⟩
      cases hg : F.good (F.head b h) with
      | false =>
        rw [pass_bad h hg] at hw
        cases hw
      | true =>
        by_contra hl
        rw [pass_complete h hg fun hlt => hl ⟨rfl,hlt⟩] at hw
        split at hw <;> cases hw
  · rintro (h | ⟨h,hg,hl⟩)
    · exact pass_short h
    · exact pass_incomplete h hg hl

theorem pass_stop {b rest : List α} {out : List ε} (hp : F.pass b = .stop out rest) :
    ∃ h, F.good (F.head b h) = false ∧ out = F.bad (F.head b h) ∧
      rest = if F.keeps then b else [] := by
  rcases F.pass_cases b with hw | ⟨h,hg⟩ | ⟨h,hg,hl⟩
  · rw [hw] at hp; cases hp
  · rw [pass_bad h hg] at hp
    injection hp with ho hr
    exact ⟨h,hg,ho.symm,hr.symm⟩
  · rw [pass_complete h hg hl] at hp
    split at hp <;> cases hp

theorem pass_deliver_suffix {b rest : List α} {out : List ε}
    (hp : F.pass b = .deliver out rest) : rest <:+ b := by
  rcases F.pass_cases b with hw | ⟨h,hg⟩ | ⟨h,hg,hl⟩
  · rw [hw] at hp; cases hp
  · rw [pass_bad h hg] at hp; cases hp
  · rw [pass_complete h hg hl] at hp
    split at hp
    · injection hp with _ hr
      exact hr ▸ List.drop_suffix _ b
    · injection hp with _ hr
      exact hr ▸ List.drop_suffix _ b
    · cases hp

variable (F)

def decoder : Decoder α ε where
  pass := F.pass
  deliver_length := by
    intro b rest out hp
    have hpos := F.size_pos
    rcases F.pass_cases b with hw | ⟨h,hg⟩ | ⟨h,hg,hl⟩
    · rw [hw] at hp; cases hp
    · rw [pass_bad h hg] at hp; cases hp
    · rw [pass_complete h hg hl] at hp
      split at hp
      · injection hp with _ hr
        rw [← hr,List.length_drop]; omega
      · injection hp with _ hr
        rw [← hr,List.length_drop]; omega
      · cases hp
  deliver_stable := by
    intro b rest out hp c
    rcases F.pass_cases b with hw | ⟨h,hg⟩ | ⟨h,hg,hl⟩
    · rw [hw] at hp; cases hp
    · rw [pass_bad h hg] at hp; cases hp
    · rw [pass_complete_append h hg hl c]
      rw [pass_complete h hg hl] at hp
      split at hp
      · injection hp with ho hr
        rw [ho,hr]
      · injection hp with ho hr
        rw [ho,hr]
      · cases hp
  stop_stable := by
    intro b rest out hp c
    obtain ⟨h,hg,-,-⟩ := pass_stop hp
    have h' : ¬(b ++ c).length < F.size := by rw [List.length_append]; omega
    exact ⟨_,_,pass_bad h' (by rw [head_append h]; exact hg)⟩
  fail_stable := by
    intro b out hp c
    rcases F.pass_cases b with hw | ⟨h,hg⟩ | ⟨h,hg,hl⟩
    · rw [hw] at hp; cases hp
    · rw [pass_bad h hg] at hp; cases hp
    · rw [pass_complete_append h hg hl c]
      rw [pass_complete h hg hl] at hp
      split at hp
      · cases hp
      · cases hp
      · exact hp

@[simp] theorem decoder_pass (b : List α) : F.decoder.pass b = F.pass b := rfl

theorem decoder_pass_short {b : List α} (h : b.length < F.size) : F.decoder.pass b = .wait :=
  pass_short h

@[simp] theorem decoder_pass_nil : F.decoder.pass [] = .wait := pass_nil

variable {F}

/-- A loop that keeps its buffer at a bad header is steady for the reports that bad headers do not
make. -/
theorem steady {visible : ε → Bool} (hk : F.keeps = true)
    (hv : ∀ header, (F.bad header).filter visible = []) : Steady F.decoder visible := by
  intro b out rest hp
  obtain ⟨h,-,ho,hr⟩ := pass_stop hp
  exact ⟨by simpa [hk] using hr,by rw [ho]; exact hv _⟩

theorem feed_visible_congr {visible : ε → Bool} (hk : F.keeps = true)
    (hv : ∀ header, (F.bad header).filter visible = []) {cs cs' : List (List α)}
    (h : cs.flatten = cs'.flatten) :
    (feed F.decoder [] cs).out.filter visible = (feed F.decoder [] cs').out.filter visible := by
  have hs := steady hk hv
  have hb : Settled F.decoder [] := .inl pass_nil
  rw [feed_visible_eq_run hs hb,feed_visible_eq_run hs hb,h]

theorem run_buffer_suffix (b : List α) : (run F.decoder b).buffer <:+ b := by
  obtain ⟨out,r,hb,hr⟩ := exists_boundary F.decoder b
  have hs : r <:+ b := hb.suffix fun _ _ _ hp => pass_deliver_suffix hp
  rw [hb.run_eq]
  cases hp : F.decoder.pass r with
  | wait => simpa [run_wait hp] using hs
  | deliver o rest => exact absurd hp (hr o rest)
  | fail o => simpa [run_fail hp] using hs
  | stop o rest =>
    obtain ⟨-,-,-,rfl⟩ := pass_stop hp
    rw [run_stop hp]
    cases F.keeps with
    | true => simpa using hs
    | false => simp

theorem pass_ne_fail (hact : ∀ v p out, F.act v p ≠ .fail out) (b : List α) (out : List ε) :
    F.pass b ≠ .fail out := by
  rcases F.pass_cases b with hw | ⟨h,hg⟩ | ⟨h,hg,hl⟩
  · simp [hw]
  · simp [pass_bad h hg]
  · rw [pass_complete h hg hl]
    cases ha : F.act (F.head b h) ((b.drop F.size).take (F.length (F.head b h))) with
    | frame o => simp
    | header o => simp
    | fail o => exact absurd ha (hact _ _ _)

/-! A buffer taken apart into header, payload and rest. -/

theorem eq_head_append {b : List α} (h : ¬b.length < F.size) :
    b = (F.head b h).toList ++ b.drop F.size := by
  simp [head,List.take_append_drop]

theorem eq_parts {b : List α} (h : ¬b.length < F.size)
    (hl : ¬b.length < F.size + F.length (F.head b h)) :
    ∃ p rest, b = (F.head b h).toList ++ p ++ rest ∧ F.length (F.head b h) = p.length := by
  refine ⟨(b.drop F.size).take (F.length (F.head b h)),
    (b.drop F.size).drop (F.length (F.head b h)),?_,?_⟩
  · rw [List.append_assoc,List.take_append_drop]
    exact eq_head_append h
  · rw [List.length_take,List.length_drop]
    omega

section Parts

variable {v : Vector α F.size} {p : List α}

theorem pass_bad_head (hg : F.good v = false) (c : List α) :
    F.pass (v.toList ++ c) = .stop (F.bad v) (if F.keeps then v.toList ++ c else []) := by
  have h : ¬(v.toList ++ c).length < F.size := by
    simp only [List.length_append,Vector.length_toList]; omega
  have hh := head_toList v c h
  rw [pass_bad h (by rw [hh]; exact hg),hh]

theorem pass_parts (hg : F.good v = true) (hl : F.length v = p.length) (c : List α) :
    F.pass (v.toList ++ p ++ c) = match F.act v p with
      | .frame out => .deliver out c
      | .header out => .deliver out (p ++ c)
      | .fail out => .fail out := by
  have h : ¬(v.toList ++ p ++ c).length < F.size := by
    simp only [List.length_append,Vector.length_toList]; omega
  have hh : F.head (v.toList ++ p ++ c) h = v := by
    simp only [List.append_assoc]
    exact head_toList v (p ++ c) (by simp)
  have hlen : ¬(v.toList ++ p ++ c).length <
      F.size + F.length (F.head (v.toList ++ p ++ c) h) := by
    rw [hh,hl]
    simp only [List.length_append,Vector.length_toList]; omega
  have hd : (v.toList ++ p ++ c).drop F.size = p ++ c := by
    rw [List.append_assoc]
    exact List.drop_left' (by simp)
  have hdl : (v.toList ++ p ++ c).drop (F.size + p.length) = c :=
    List.drop_left' (by simp)
  rw [pass_complete h (by rw [hh]; exact hg) hlen,hh,hl,hd,List.take_left' rfl,hdl]

theorem pass_frame (hg : F.good v = true) (hl : F.length v = p.length) {out : List ε}
    (ha : F.act v p = .frame out) (c : List α) :
    F.pass (v.toList ++ p ++ c) = .deliver out c := by
  rw [pass_parts hg hl,ha]

theorem pass_header (hg : F.good v = true) (hl : F.length v = p.length) {out : List ε}
    (ha : F.act v p = .header out) (c : List α) :
    F.pass (v.toList ++ p ++ c) = .deliver out (p ++ c) := by
  rw [pass_parts hg hl,ha]

theorem pass_unfinished (hg : F.good v = true) (hl : F.length v = p.length) {t c : List α}
    (ht : v.toList ++ p = t ++ c) (hc : c ≠ []) : F.pass t = .wait := by
  by_cases h : t.length < F.size
  · exact pass_short h
  · have hpos : 0 < c.length := List.length_pos_of_ne_nil hc
    have hlen : F.size + p.length = t.length + c.length := by
      simpa using congrArg List.length ht
    have h' : ¬(t ++ c).length < F.size := by rw [List.length_append]; omega
    have hh : F.head t h = v := by
      rw [← head_append h c h']
      simp only [← ht]
      exact head_toList v p (by rw [ht]; exact h')
    exact pass_incomplete h (by rw [hh]; exact hg) (by rw [hh,hl]; omega)

end Parts

/-- Frames that the loop takes off whole, followed by a proper prefix of one more, in any chunks. -/
theorem feed_frames {υ : Type*} {header : υ → Vector α F.size} {payload : υ → List α}
    {report : υ → List ε} (hg : ∀ u, F.good (header u) = true)
    (hl : ∀ u, F.length (header u) = (payload u).length) {us : List υ}
    (ha : ∀ u ∈ us, F.act (header u) (payload u) = .frame (report u)) {next : υ}
    {tail rest : List α} (ht : (header next).toList ++ payload next = tail ++ rest)
    (hr : rest ≠ []) {cs : List (List α)}
    (hcs : cs.flatten = us.flatMap (fun u => (header u).toList ++ payload u) ++ tail) :
    feed F.decoder [] cs = ⟨us.flatMap report,tail,false⟩ :=
  feed_units us (fun u hu c => pass_frame (hg u) (hl u) (ha u hu) c)
    (pass_unfinished (hg next) (hl next) ht hr) F.decoder_pass_nil hcs

variable (F)

/-- Looking for headers from the front (behind every unit taken off whole, and behind the bare
header of one whose header is taken off alone) finds one without the marker. -/
inductive BadHead : List α → Prop
  | here {v : Vector α F.size} {rest : List α} (hg : F.good v = false) :
      BadHead (v.toList ++ rest)
  | frame {v : Vector α F.size} {p rest : List α} {out : List ε} (hg : F.good v = true)
      (hl : F.length v = p.length) (ha : F.act v p = .frame out) (h : BadHead rest) :
      BadHead (v.toList ++ p ++ rest)
  | header {v : Vector α F.size} {p rest : List α} {out : List ε} (hg : F.good v = true)
      (hl : F.length v = p.length) (ha : F.act v p = .header out) (h : BadHead (p ++ rest)) :
      BadHead (v.toList ++ p ++ rest)

variable {F}

theorem stopsIn_iff_badHead (b : List α) : StopsIn F.decoder b ↔ F.BadHead b := by
  constructor
  · rintro ⟨out,r,o,rest,hb,hp⟩
    induction hb with
    | here b =>
      obtain ⟨h,hg,-,-⟩ := pass_stop hp
      rw [eq_head_append h]
      exact .here hg
    | @next b rest' r out outs hd hr ih =>
      rcases F.pass_cases b with hw | ⟨h,hg⟩ | ⟨h,hg,hl⟩
      · rw [decoder_pass,hw] at hd; cases hd
      · rw [decoder_pass,pass_bad h hg] at hd; cases hd
      · obtain ⟨p,c,hb,hpl⟩ := eq_parts h hl
        generalize F.head b h = v at *
        subst hb
        rw [decoder_pass,pass_parts hg hpl] at hd
        cases ha : F.act v p with
        | frame o' =>
          simp only [ha] at hd
          injection hd with _ hrest
          exact .frame hg hpl ha (hrest ▸ ih hp)
        | header o' =>
          simp only [ha] at hd
          injection hd with _ hrest
          exact .header hg hpl ha (hrest ▸ ih hp)
        | fail o' => simp [ha] at hd
  · intro h
    induction h with
    | here hg => exact ⟨[],_,_,_,.here _,pass_bad_head hg _⟩
    | @frame v p rest out hg hl ha _ ih =>
      exact .of_boundary (.next (pass_frame hg hl ha rest) (.here rest)) ih
    | @header v p rest out hg hl ha _ ih =>
      exact .of_boundary (.next (pass_header hg hl ha rest) (.here (p ++ rest))) ih

variable (F)

/-- `Takes b out r`: a loop that empties its buffer at a bad header takes frames and bare headers, and
all of the rest behind a bad header, off `b`, reports `out` and leaves `r`. -/
inductive Takes : List α → List ε → List α → Prop
  | nothing {b : List α} (hw : F.pass b = .wait) : Takes b [] b
  | frame {v : Vector α F.size} {p rest r : List α} {out outs : List ε} (hg : F.good v = true)
      (hl : F.length v = p.length) (ha : F.act v p = .frame out) (h : Takes rest outs r) :
      Takes (v.toList ++ p ++ rest) (out ++ outs) r
  | header {v : Vector α F.size} {p rest r : List α} {out outs : List ε} (hg : F.good v = true)
      (hl : F.length v = p.length) (ha : F.act v p = .header out) (h : Takes (p ++ rest) outs r) :
      Takes (v.toList ++ p ++ rest) (out ++ outs) r
  | rest {v : Vector α F.size} {rest : List α} (hg : F.good v = false) :
      Takes (v.toList ++ rest) (F.bad v) []

variable {F}

theorem Takes.of_boundary {b r t : List α} {out outs : List ε} (hb : Boundary F.decoder b out r)
    (h : F.Takes r outs t) : F.Takes b (out ++ outs) t := by
  induction hb with
  | here b => exact h
  | @next b rest r out outs' hd _ ih =>
    have hrest := ih h
    rw [List.append_assoc]
    rcases F.pass_cases b with hw | ⟨h,hg⟩ | ⟨h,hg,hl⟩
    · rw [decoder_pass,hw] at hd; cases hd
    · rw [decoder_pass,pass_bad h hg] at hd; cases hd
    · obtain ⟨p,c,hb,hpl⟩ := eq_parts h hl
      generalize F.head b h = v at *
      subst hb
      rw [decoder_pass,pass_parts hg hpl] at hd
      cases ha : F.act v p with
      | frame o =>
        simp only [ha] at hd
        cases hd
        exact .frame hg hpl ha hrest
      | header o =>
        simp only [ha] at hd
        cases hd
        exact .header hg hpl ha hrest
      | fail o =>
        simp only [ha] at hd
        cases hd

/-- A loop that never raises and empties its buffer at a bad header accounts for all of it. -/
theorem takes_run (hk : F.keeps = false) (hact : ∀ v p out, F.act v p ≠ .fail out) (b : List α) :
    F.Takes b (run F.decoder b).out (run F.decoder b).buffer := by
  obtain ⟨out,r,hb,hr⟩ := exists_boundary F.decoder b
  rw [hb.run_eq]
  refine .of_boundary hb ?_
  cases hp : F.decoder.pass r with
  | wait =>
    rw [run_wait hp]
    exact .nothing hp
  | stop o rest =>
    obtain ⟨h,hg,ho,hrest⟩ := pass_stop hp
    rw [run_stop hp,ho,hrest,hk]
    nth_rewrite 1 [eq_head_append h]
    exact .rest hg
  | deliver o rest => exact absurd hp (hr o rest)
  | fail o => exact absurd hp (pass_ne_fail hact r o)

variable (F)

/-- Complete headers with the marker and their payloads, one after the other from the front of the
stream, and what is behind them. -/
inductive Cuts : List α → List (Vector α F.size × List α) → List α → Prop
  | nil (s : List α) : Cuts s [] s
  | cons {v : Vector α F.size} {p rest r : List α} {fs : List (Vector α F.size × List α)}
      (hg : F.good v = true) (hl : F.length v = p.length) (h : Cuts rest fs r) :
      Cuts (v.toList ++ p ++ rest) ((v,p) :: fs) r

variable {F}

theorem Cuts.snoc {s r : List α} {fs : List (Vector α F.size × List α)} {v : Vector α F.size}
    {p : List α} (h : F.Cuts s fs (v.toList ++ p ++ r)) (hg : F.good v = true)
    (hl : F.length v = p.length) : F.Cuts s (fs ++ [(v,p)]) r := by
  generalize ht : v.toList ++ p ++ r = t at h
  induction h with
  | nil s => exact ht ▸ .cons hg hl (.nil r)
  | cons hg' hl' _ ih => exact .cons hg' hl' (ih ht)

theorem cuts_of_boundary (hact : ∀ v p out, F.act v p ≠ .header out) {b r : List α} {out : List ε}
    (h : Boundary F.decoder b out r) : ∃ fs, F.Cuts b fs r ∧
      out = fs.flatMap (fun f => (F.act f.1 f.2).out) ∧
      ∀ f ∈ fs, F.act f.1 f.2 = .frame (F.act f.1 f.2).out := by
  induction h with
  | here b => exact ⟨[],.nil b,rfl,nofun⟩
  | @next b rest r out outs hd _ ih =>
    obtain ⟨fs,hcuts,hout,hframe⟩ := ih
    rw [decoder_pass] at hd
    rcases F.pass_cases b with hw | ⟨h,hg⟩ | ⟨h,hg,hl⟩
    · rw [hw] at hd; cases hd
    · rw [pass_bad h hg] at hd; cases hd
    · obtain ⟨p,c,hb,hpl⟩ := eq_parts h hl
      generalize F.head b h = v at *
      subst hb
      rw [pass_parts hg hpl] at hd
      cases ha : F.act v p with
      | frame o =>
        simp only [ha] at hd
        cases hd
        refine ⟨(v,p) :: fs,.cons hg hpl hcuts,?_,List.forall_mem_cons.mpr ⟨?_,hframe⟩⟩
        · rw [List.flatMap_cons,← hout]
          simp only [ha,Act.out]
        · simp only [ha,Act.out]
      | header o => exact absurd ha (hact v p o)
      | fail o =>
        simp only [ha] at hd
        cases hd

/-- Where no header is taken off alone, the loop raises exactly on the streams from which a header and
payload can be cut that make it raise. -/
theorem failsIn_iff (hact : ∀ v p out, F.act v p ≠ .header out) (s : List α) :
    FailsIn F.decoder s ↔ ∃ fs r, F.Cuts s fs r ∧ ∃ f ∈ fs, ∃ out, F.act f.1 f.2 = .fail out := by
  constructor
  · rintro ⟨out,r,o,hb,hp⟩
    obtain ⟨fs,hcuts,-,-⟩ := cuts_of_boundary hact hb
    rw [decoder_pass] at hp
    rcases F.pass_cases r with hw | ⟨h,hg⟩ | ⟨h,hg,hl⟩
    · rw [hw] at hp; cases hp
    · rw [pass_bad h hg] at hp; cases hp
    · obtain ⟨p,c,hr,hpl⟩ := eq_parts h hl
      generalize F.head r h = v at *
      subst hr
      rw [pass_parts hg hpl] at hp
      refine ⟨fs ++ [(v,p)],c,hcuts.snoc hg hpl,(v,p),by simp,?_⟩
      cases ha : F.act v p with
      | fail o' => exact ⟨o',rfl⟩
      | frame o' | header o' =>
        simp only [ha] at hp
        cases hp
  · rintro ⟨fs,r,hcuts,f,hf,out,ha⟩
    induction hcuts with
    | nil => cases hf
    | @cons v p rest r fs hg hl _ ih =>
      have hpass := pass_parts (ε := ε) hg hl rest
      cases hv : F.act v p with
      | fail o =>
        rw [hv] at hpass
        exact ⟨[],_,o,.here _,hpass⟩
      | header o => exact absurd hv (hact v p o)
      | frame o =>
        rw [hv] at hpass
        rcases List.mem_cons.mp hf with rfl | hf
        · rw [ha] at hv
          cases hv
        · exact .of_boundary (.next hpass (.here rest)) (ih hf)

theorem not_complete_of_settled (hact : ∀ v p out, F.act v p ≠ .header out) {b : List α}
    (h : Settled F.decoder b) {v : Vector α F.size} {p rest : List α} (hg : F.good v = true)
    (hl : F.length v = p.length) : b ≠ v.toList ++ p ++ rest := by
  rintro rfl
  have hpass := pass_parts (ε := ε) hg hl rest
  rcases h with hw | ⟨out,rest',hw⟩ <;>
    · rw [decoder_pass,hpass] at hw
      cases ha : F.act v p with
      | frame o | fail o =>
        rw [ha] at hw
        cases hw
      | header o => exact absurd ha (hact v p o)

end Framing

end StreamDecoder
end MipClients
