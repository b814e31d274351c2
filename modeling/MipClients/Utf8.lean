import Mathlib.Data.List.Basic
import Mathlib.Data.Option.Basic

/-! UTF-8 text: encoding of scalar values, and the standard incremental decoder in its two error
modes. A malformed sequence is reported once for each maximal prefix of a character; replacement
mode turns every report into U+FFFD, fatal mode rejects the whole input. -/
namespace MipClients
namespace Utf8

abbrev Text := List Char

def encode (t : Text) : List UInt8 := t.flatMap String.utf8EncodeChar

/-- Between characters, or inside one with `left` continuation bytes to come, the next of which
must lie in `lo .. hi`. -/
inductive State
  | start
  | more (code left lo hi : ℕ)

/-- A byte met between characters; `none` reports malformed input. -/
def lead (b : ℕ) : State × List (Option Char) :=
  if b ≤ 0x7F then (.start,[some (Char.ofNat b)])
  else if 0xC2 ≤ b ∧ b ≤ 0xDF then (.more (b - 0xC0) 1 0x80 0xBF,[])
  else if 0xE0 ≤ b ∧ b ≤ 0xEF then
    (.more (b - 0xE0) 2 (if b = 0xE0 then 0xA0 else 0x80) (if b = 0xED then 0x9F else 0xBF),[])
  else if 0xF0 ≤ b ∧ b ≤ 0xF4 then
    (.more (b - 0xF0) 3 (if b = 0xF0 then 0x90 else 0x80) (if b = 0xF4 then 0x8F else 0xBF),[])
  else (.start,[none])

/-- A byte that cannot continue the open character is read again as the start of the next. -/
def step : State → ℕ → State × List (Option Char)
  | .start, b => lead b
  | .more code left lo hi, b =>
    if lo ≤ b ∧ b ≤ hi then
      if left ≤ 1 then (.start,[some (Char.ofNat (code * 64 + (b - 0x80)))])
      else (.more (code * 64 + (b - 0x80)) (left - 1) 0x80 0xBF,[])
    else ((lead b).1,none :: (lead b).2)

def run : State → List UInt8 → List (Option Char)
  | .start, [] => []
  | .more _ _ _ _, [] => [none]
  | s, b :: bs => (step s b.toNat).2 ++ run (step s b.toNat).1 bs

def scalars (bs : List UInt8) : List (Option Char) := run .start bs

/-- Replacement mode. -/
def decodeLossy (bs : List UInt8) : Text := (scalars bs).map (·.getD '\uFFFD')

/-- Fatal mode. -/
def decodeStrict (bs : List UInt8) : Option Text := (scalars bs).mapM id

theorem run_cons (s : State) (b : UInt8) (bs : List UInt8) :
    run s (b :: bs) = (step s b.toNat).2 ++ run (step s b.toNat).1 bs := by
  cases s <;> rfl

theorem toNat_scalar (c : Char) :
    c.toNat < 0xD800 ∨ (0xDFFF < c.toNat ∧ c.toNat < 0x110000) := c.valid

theorem run_lead {b : ℕ} (hb : b < 256) (bs : List UInt8) :
    run .start (UInt8.ofNat b :: bs) = (lead b).2 ++ run (lead b).1 bs := by
  rw [run_cons,UInt8.toNat_ofNat',Nat.mod_eq_of_lt (by omega : b < 2 ^ 8)]
  rfl

theorem run_last {code lo hi b : ℕ} (hlo : lo ≤ b) (hhi : b ≤ hi) (hb : b < 256)
    (bs : List UInt8) :
    run (.more code 1 lo hi) (UInt8.ofNat b :: bs) =
      some (Char.ofNat (code * 64 + (b - 0x80))) :: run .start bs := by
  rw [run_cons,UInt8.toNat_ofNat',Nat.mod_eq_of_lt (by omega : b < 2 ^ 8)]
  simp [step,hlo,hhi]

theorem run_more {code left lo hi b : ℕ} (hl : 1 < left) (hlo : lo ≤ b) (hhi : b ≤ hi)
    (hb : b < 256) (bs : List UInt8) :
    run (.more code left lo hi) (UInt8.ofNat b :: bs) =
      run (.more (code * 64 + (b - 0x80)) (left - 1) 0x80 0xBF) bs := by
  rw [run_cons,UInt8.toNat_ofNat',Nat.mod_eq_of_lt (by omega : b < 2 ^ 8)]
  simp [step,hlo,hhi,Nat.not_le.mpr hl]

theorem run_encodeChar (c : Char) (bs : List UInt8) :
    run .start (String.utf8EncodeChar c ++ bs) = some c :: run .start bs := by
  have hv := toNat_scalar c
  have hc : Char.ofNat c.toNat = c := Char.ofNat_toNat c
  unfold String.utf8EncodeChar
  change run .start ((if c.toNat ≤ 0x7f then _ else _) ++ bs) = _
  generalize hn : c.toNat = v at *
  have hval : c.val.toNat = v := hn
  rw [hval]
  split_ifs with h1 h2 h3
  · rw [List.singleton_append,run_lead (by omega)]
    simp [lead,h1,hc]
  · rw [List.cons_append,List.singleton_append,run_lead (by omega)]
    have hlead : lead (v / 64 % 32 + 192) = (.more (v / 64) 1 0x80 0xBF,[]) := by
      have hq : v / 64 % 32 = v / 64 := by omega
      simp only [lead]
      rw [if_neg (by omega),if_pos (by omega),hq]
      simp
    rw [hlead,List.nil_append,run_last (by omega) (by omega) (by omega)]
    have hcode : v / 64 * 64 + (v % 64 + 128 - 128) = v := by omega
    rw [hcode,hc]
  · have hq : v / 4096 % 16 = v / 4096 := by omega
    rw [List.cons_append,List.cons_append,List.singleton_append,run_lead (by omega),hq]
    have hlead : lead (v / 4096 + 224) = (.more (v / 4096) 2
        (if v / 4096 + 224 = 0xE0 then 0xA0 else 0x80)
        (if v / 4096 + 224 = 0xED then 0x9F else 0xBF),[]) := by
      simp only [lead]
      rw [if_neg (by omega),if_neg (by omega),if_pos (by omega)]
      simp
    have hlo : (if v / 4096 + 224 = 0xE0 then 0xA0 else 0x80) ≤ v / 64 % 64 + 128 := by
      split_ifs <;> omega
    have hhi : v / 64 % 64 + 128 ≤ (if v / 4096 + 224 = 0xED then 0x9F else 0xBF) := by
      split_ifs <;> omega
    rw [hlead,List.nil_append,run_more (by omega) hlo hhi (by omega),
      run_last (by omega) (by omega) (by omega)]
    have hcode : (v / 4096 * 64 + (v / 64 % 64 + 128 - 128)) * 64 + (v % 64 + 128 - 128) = v := by
      omega
    rw [hcode,hc]
  · have hq : v / 262144 % 8 = v / 262144 := by omega
    rw [List.cons_append,List.cons_append,List.cons_append,List.singleton_append,
      run_lead (by omega),hq]
    have hlead : lead (v / 262144 + 240) = (.more (v / 262144) 3
        (if v / 262144 + 240 = 0xF0 then 0x90 else 0x80)
        (if v / 262144 + 240 = 0xF4 then 0x8F else 0xBF),[]) := by
      simp only [lead]
      rw [if_neg (by omega),if_neg (by omega),if_neg (by omega),if_pos (by omega)]
      simp
    have hlo : (if v / 262144 + 240 = 0xF0 then 0x90 else 0x80) ≤ v / 4096 % 64 + 128 := by
      split_ifs <;> omega
    have hhi : v / 4096 % 64 + 128 ≤ (if v / 262144 + 240 = 0xF4 then 0x8F else 0xBF) := by
      split_ifs <;> omega
    rw [hlead,List.nil_append,run_more (by omega) hlo hhi (by omega),
      run_more (by omega) (by omega) (by omega) (by omega),
      run_last (by omega) (by omega) (by omega)]
    have hcode : ((v / 262144 * 64 + (v / 4096 % 64 + 128 - 128)) * 64 +
        (v / 64 % 64 + 128 - 128)) * 64 + (v % 64 + 128 - 128) = v := by omega
    rw [hcode,hc]

theorem encode_cons (c : Char) (t : Text) :
    encode (c :: t) = String.utf8EncodeChar c ++ encode t := rfl

@[simp] theorem scalars_encode (t : Text) : scalars (encode t) = t.map some := by
  induction t with
  | nil => rfl
  | cons c t ih =>
    have h := run_encodeChar c (encode t)
    simpa [scalars,encode] using h.trans (congrArg (some c :: ·) ih)

@[simp] theorem decodeLossy_encode (t : Text) : decodeLossy (encode t) = t := by
  simp [decodeLossy,Function.comp_def]

@[simp] theorem decodeStrict_encode (t : Text) : decodeStrict (encode t) = some t := by
  rw [decodeStrict,scalars_encode]
  induction t with
  | nil => rfl
  | cons c t ih => simp [ih]

def Valid (bs : List UInt8) : Prop := ∃ t, encode t = bs

/-- The text that valid bytes encode. -/
def text (bs : List UInt8) : Text := (decodeStrict bs).getD []

@[simp] theorem text_encode (t : Text) : text (encode t) = t := by
  simp [text]

theorem Valid.decodeStrict_eq {bs : List UInt8} (h : Valid bs) :
    decodeStrict bs = some (text bs) := by
  obtain ⟨t,rfl⟩ := h
  rw [decodeStrict_encode,text_encode]

theorem Valid.decodeLossy_eq {bs : List UInt8} (h : Valid bs) : decodeLossy bs = text bs := by
  obtain ⟨t,rfl⟩ := h
  rw [decodeLossy_encode,text_encode]

theorem encode_injective : Function.Injective encode := by
  intro s t h
  have hd := congrArg decodeStrict h
  rw [decodeStrict_encode,decodeStrict_encode] at hd
  exact Option.some.inj hd

/-! What fatal mode accepts. -/

theorem utf8EncodeChar_ofNat {v : ℕ} (h : v < 0xD800 ∨ 0xDFFF < v ∧ v < 0x110000) :
    String.utf8EncodeChar (Char.ofNat v) =
      if v ≤ 0x7F then [UInt8.ofNat v]
      else if v ≤ 0x7FF then [UInt8.ofNat (v / 64 % 32 + 192),UInt8.ofNat (v % 64 + 128)]
      else if v ≤ 0xFFFF then
        [UInt8.ofNat (v / 4096 % 16 + 224),UInt8.ofNat (v / 64 % 64 + 128),
          UInt8.ofNat (v % 64 + 128)]
      else [UInt8.ofNat (v / 262144 % 8 + 240),UInt8.ofNat (v / 4096 % 64 + 128),
        UInt8.ofNat (v / 64 % 64 + 128),UInt8.ofNat (v % 64 + 128)] := by
  have hv : (Char.ofNat v).val.toNat = v := by
    have hn : v.isValidChar := h
    rw [Char.ofNat,dif_pos hn]
    rfl
  unfold String.utf8EncodeChar
  simp only [hv]

/-- Inside a character the decoder reports nothing malformed only if the next byte continues it. -/
theorem run_more_eq {code left lo hi : ℕ} {bs : List UInt8} {t : Text}
    (h : run (.more code left lo hi) bs = t.map some) :
    ∃ b rest, bs = b :: rest ∧ lo ≤ b.toNat ∧ b.toNat ≤ hi ∧
      (step (.more code left lo hi) b.toNat).2 ++ run (step (.more code left lo hi) b.toNat).1 rest =
        t.map some := by
  cases bs with
  | nil =>
    rw [run] at h
    cases t <;> simp at h
  | cons b rest =>
    rw [run_cons] at h
    by_cases hb : lo ≤ b.toNat ∧ b.toNat ≤ hi
    · exact ⟨b,rest,rfl,hb.1,hb.2,h⟩
    · simp only [step,if_neg hb] at h
      cases t <;> simp at h

theorem run_more_next {code left lo hi : ℕ} {bs : List UInt8} {t : Text} (hl : 0 < left)
    (h : run (.more code (left + 1) lo hi) bs = t.map some) :
    ∃ b rest, bs = b :: rest ∧ lo ≤ b.toNat ∧ b.toNat ≤ hi ∧
      run (.more (code * 64 + (b.toNat - 0x80)) left 0x80 0xBF) rest = t.map some := by
  obtain ⟨b,rest,hbs,hlo,hhi,h⟩ := run_more_eq h
  simp only [step,if_pos (And.intro hlo hhi),if_neg (Nat.not_le.mpr (Nat.succ_lt_succ hl)),
    List.nil_append,Nat.add_sub_cancel] at h
  exact ⟨b,rest,hbs,hlo,hhi,h⟩

theorem run_more_last {code lo hi : ℕ} {bs : List UInt8} {t : Text}
    (h : run (.more code 1 lo hi) bs = t.map some) :
    ∃ b rest t', bs = b :: rest ∧ lo ≤ b.toNat ∧ b.toNat ≤ hi ∧
      t = Char.ofNat (code * 64 + (b.toNat - 0x80)) :: t' ∧ run .start rest = t'.map some := by
  obtain ⟨b,rest,hbs,hlo,hhi,h⟩ := run_more_eq h
  simp only [step,if_pos (And.intro hlo hhi),Nat.le_refl,if_true,List.singleton_append] at h
  cases t with
  | nil => cases h
  | cons c t' =>
    rw [List.map_cons,List.cons.injEq,Option.some.injEq] at h
    exact ⟨b,rest,t',hbs,hlo,hhi,by rw [h.1],h.2⟩

theorem ofNat_eq {b : UInt8} {n : ℕ} (h : n = b.toNat) : UInt8.ofNat n = b := by
  rw [h,UInt8.ofNat_toNat]

theorem lead_cases (b : ℕ) :
    b ≤ 0x7F ∧ lead b = (.start,[some (Char.ofNat b)]) ∨
    (0xC2 ≤ b ∧ b ≤ 0xDF) ∧ lead b = (.more (b - 0xC0) 1 0x80 0xBF,[]) ∨
    (∃ lo hi, (0xE0 ≤ b ∧ b ≤ 0xEF) ∧ lead b = (.more (b - 0xE0) 2 lo hi,[]) ∧
      0x80 ≤ lo ∧ hi ≤ 0xBF ∧ (b = 0xE0 → lo = 0xA0) ∧ (b = 0xED → hi = 0x9F)) ∨
    (∃ lo hi, (0xF0 ≤ b ∧ b ≤ 0xF4) ∧ lead b = (.more (b - 0xF0) 3 lo hi,[]) ∧
      0x80 ≤ lo ∧ hi ≤ 0xBF ∧ (b = 0xF0 → lo = 0x90) ∧ (b = 0xF4 → hi = 0x8F)) ∨
    lead b = (.start,[none]) := by
  unfold lead
  by_cases h1 : b ≤ 0x7F
  · exact .inl ⟨h1,if_pos h1⟩
  rw [if_neg h1]
  by_cases h2 : 0xC2 ≤ b ∧ b ≤ 0xDF
  · exact .inr (.inl ⟨h2,if_pos h2⟩)
  rw [if_neg h2]
  by_cases h3 : 0xE0 ≤ b ∧ b ≤ 0xEF
  · refine .inr (.inr (.inl ⟨_,_,h3,if_pos h3,?_,?_,fun he => if_pos he,fun he => if_pos he⟩)) <;>
      split_ifs <;> decide
  rw [if_neg h3]
  by_cases h4 : 0xF0 ≤ b ∧ b ≤ 0xF4
  · refine .inr (.inr (.inr (.inl ⟨_,_,h4,if_pos h4,?_,?_,fun he => if_pos he,
      fun he => if_pos he⟩))) <;> split_ifs <;> decide
  exact .inr (.inr (.inr (.inr (if_neg h4))))

/-- The decoder reports nothing malformed only for what the encoder writes. -/
theorem encode_of_run {bs : List UInt8} {t : Text} (h : run .start bs = t.map some) :
    encode t = bs := by
  induction hn : bs.length using Nat.strongRecOn generalizing bs t with
  | ind n ih =>
    cases bs with
    | nil =>
      cases t with
      | nil => rfl
      | cons c t => cases h
    | cons b bs =>
      rw [List.length_cons] at hn
      rw [run_cons] at h
      change (lead b.toNat).2 ++ run (lead b.toNat).1 bs = t.map some at h
      rcases lead_cases b.toNat with ⟨hb,hlead⟩ | ⟨hb,hlead⟩ | ⟨lo,hi,hb,hlead,hlo,hhi,hE0,hED⟩ |
        ⟨lo,hi,hb,hlead,hlo,hhi,hF0,hF4⟩ | hlead <;> rw [hlead] at h
      · cases t with
        | nil => cases h
        | cons c t =>
          rw [List.singleton_append,List.map_cons,List.cons.injEq,Option.some.injEq] at h
          obtain ⟨rfl,h⟩ := h
          have hc := utf8EncodeChar_ofNat (v := b.toNat) (by omega)
          rw [if_pos hb,UInt8.ofNat_toNat] at hc
          rw [encode_cons,hc,ih bs.length (by omega) h rfl]
          rfl
      · obtain ⟨c,bs,t,rfl,hlo,hhi,rfl,ht⟩ := run_more_last h
        rw [List.length_cons] at hn
        have hc := utf8EncodeChar_ofNat (v := (b.toNat - 0xC0) * 64 + (c.toNat - 0x80)) (by omega)
        rw [if_neg (by omega),if_pos (by omega),ofNat_eq (b := b) (by omega),
          ofNat_eq (b := c) (by omega)] at hc
        rw [encode_cons,hc,ih bs.length (by omega) ht rfl]
        rfl
      · obtain ⟨c,bs,rfl,hlo',hhi',h⟩ := run_more_next (by decide) h
        obtain ⟨d,bs,t,rfl,hlo'',hhi'',rfl,ht⟩ := run_more_last h
        simp only [List.length_cons] at hn
        have hc := utf8EncodeChar_ofNat (v := ((b.toNat - 0xE0) * 64 + (c.toNat - 0x80)) * 64 +
          (d.toNat - 0x80)) (by omega)
        rw [if_neg (by omega),if_neg (by omega),if_pos (by omega),ofNat_eq (b := b) (by omega),
          ofNat_eq (b := c) (by omega),ofNat_eq (b := d) (by omega)] at hc
        rw [encode_cons,hc,ih bs.length (by omega) ht rfl]
        rfl
      · obtain ⟨c,bs,rfl,hlo',hhi',h⟩ := run_more_next (by decide) h
        obtain ⟨d,bs,rfl,hlo'',hhi'',h⟩ := run_more_next (by decide) h
        obtain ⟨e,bs,t,rfl,hlo3,hhi3,rfl,ht⟩ := run_more_last h
        simp only [List.length_cons] at hn
        have hc := utf8EncodeChar_ofNat (v := (((b.toNat - 0xF0) * 64 + (c.toNat - 0x80)) * 64 +
          (d.toNat - 0x80)) * 64 + (e.toNat - 0x80)) (by omega)
        rw [if_neg (by omega),if_neg (by omega),if_neg (by omega),ofNat_eq (b := b) (by omega),
          ofNat_eq (b := c) (by omega),ofNat_eq (b := d) (by omega),
          ofNat_eq (b := e) (by omega)] at hc
        rw [encode_cons,hc,ih bs.length (by omega) ht rfl]
        rfl
      · cases t <;> cases h

theorem mapM_id_eq_some {α : Type*} {l : List (Option α)} {t : List α} :
    l.mapM id = some t ↔ l = t.map some := by
  induction l generalizing t with
  | nil => cases t <;> simp
  | cons a l ih =>
    rw [List.mapM_cons]
    cases a with
    | none => cases t <;> simp
    | some a => cases t <;> simp [Option.bind_eq_some_iff,ih,and_comm]

theorem decodeStrict_eq_some_iff {bs : List UInt8} {t : Text} :
    decodeStrict bs = some t ↔ encode t = bs := by
  constructor
  · intro h
    exact encode_of_run (mapM_id_eq_some.mp h)
  · rintro rfl
    exact decodeStrict_encode t

/-- Fatal mode rejects exactly the bytes that encode no text. -/
theorem decodeStrict_eq_none_iff {bs : List UInt8} : decodeStrict bs = none ↔ ¬Valid bs := by
  simp only [Option.eq_none_iff_forall_ne_some,Valid,not_exists,ne_eq,decodeStrict_eq_some_iff]

/-! Truncated text. -/

theorem length_encode_le (t : Text) : (encode t).length ≤ 4 * t.length := by
  induction t with
  | nil => exact Nat.zero_le _
  | cons c t ih =>
    have hc := c.utf8Size_le_four
    have hcons : (encode (c :: t)).length = c.utf8Size + (encode t).length := by simp [encode]
    rw [hcons,List.length_cons]
    omega

/-- What the decoder has yet to report if the input ends here. -/
def State.pending : State → ℕ
  | .start => 0
  | .more _ _ _ _ => 1

theorem pending_lead (b : ℕ) : (lead b).2.length + (lead b).1.pending ≤ 1 := by
  unfold lead
  split_ifs <;> simp [State.pending]

theorem pending_step (s : State) (b : ℕ) :
    (step s b).2.length + (step s b).1.pending ≤ s.pending + 1 := by
  have hlead := pending_lead b
  cases s with
  | start => exact Nat.le_trans hlead (Nat.le_add_left 1 _)
  | more code left lo hi =>
    simp only [step]
    split_ifs
    · simp [State.pending]
    · simp [State.pending]
    · rw [List.length_cons,Nat.add_right_comm]
      exact Nat.add_le_add_right hlead 1

theorem length_run_le (s : State) (bs : List UInt8) :
    (run s bs).length ≤ s.pending + bs.length := by
  induction bs generalizing s with
  | nil => cases s <;> simp [run,State.pending]
  | cons b bs ih =>
    have hstep := pending_step s b.toNat
    have hrest := ih (step s b.toNat).1
    rw [run_cons,List.length_append,List.length_cons]
    omega

theorem length_decodeLossy_le (bs : List UInt8) : (decodeLossy bs).length ≤ bs.length := by
  have h := length_run_le .start bs
  rw [State.pending,Nat.zero_add] at h
  rwa [decodeLossy,scalars,List.length_map]

theorem decodeLossy_encodeChar_append (c : Char) (bs : List UInt8) :
    decodeLossy (String.utf8EncodeChar c ++ bs) = c :: decodeLossy bs := by
  simp only [decodeLossy,scalars,run_encodeChar,List.map_cons,Option.getD_some]

/-- A text that survives being cut off in its encoding has lost no more than the bytes of a
character there. -/
theorem length_encode_le_of_take {t : Text} {n : ℕ} (h : decodeLossy ((encode t).take n) = t) :
    (encode t).length ≤ n + 12 := by
  induction t generalizing n with
  | nil => exact Nat.zero_le _
  | cons c t ih =>
    have hsize := c.utf8Size_le_four
    have hlen : (String.utf8EncodeChar c).length = c.utf8Size := String.length_utf8EncodeChar c
    rw [encode_cons,List.take_append,hlen] at h
    rw [encode_cons,List.length_append,hlen]
    by_cases hn : c.utf8Size ≤ n
    · -- the first character is whole
      rw [List.take_of_length_le (by omega),decodeLossy_encodeChar_append] at h
      have hrest := ih (List.cons.inj h).2
      omega
    · rw [Nat.sub_eq_zero_of_le (by omega),List.take_zero,List.append_nil] at h
      have hfew := length_decodeLossy_le ((String.utf8EncodeChar c).take n)
      rw [h,List.length_cons,List.length_take] at hfew
      have htext := length_encode_le t
      omega

end Utf8
end MipClients
