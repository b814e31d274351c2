import MipClients.RustRecovery

/-! What one call of the Rust client's `handle_data` (`client/internals.rs`) does with every byte of
its buffer, and the state it leaves it in. -/
namespace MipClients
namespace Rust

open StreamDecoder

/-- What the loop removes from the front of the buffer in one go: a frame, a header that `try_from`
rejects, or all of the rest behind a bad magic. -/
inductive Removed
  | frame (f : ValidFrame)
  | header (v : Vector UInt8 headerSize) (error : String)
      (tryFrom_eq : Header.tryFrom v = .error error)
  | remainder (bytes : List UInt8) (long : headerSize ≤ bytes.length)
      (magic : bytes.take 4 ≠ msipMagic.toList)

namespace Removed

def bytes : Removed → List UInt8
  | frame f => f.bytes
  | header v _ _ => v.toList
  | remainder bytes _ _ => bytes

def report : Removed → List (Wire.Emission Header MIPError)
  | frame f => f.report
  | header _ error _ => [.error (.protocol error)]
  | remainder bytes _ _ => [.error (.invalidMagic (BigEndian.field bytes 0 4))]

def IsRemainder : Removed → Prop
  | remainder .. => True
  | _ => False

end Removed

def Incomplete (buffer : List UInt8) : Prop :=
  buffer.length < headerSize ∨ (buffer.take 4 = msipMagic.toList ∧
    buffer.length < headerSize + BigEndian.field buffer 12 4)

/-- `buffer` falls into the parts in `removed`, a remainder only as the last one and with nothing
left, and `left`; and `out` is what these parts call for. -/
structure Accounts (buffer : List UInt8) (out : List (Wire.Emission Header MIPError))
    (left : List UInt8) (removed : List Removed) : Prop where
  bytes : buffer = removed.flatMap Removed.bytes ++ left
  report : out = removed.flatMap Removed.report
  remainder : ∀ before r after, removed = before ++ r :: after → r.IsRemainder →
    after = [] ∧ left = []

structure Quiescent (buffer : List UInt8) : Prop where
  ends : (handleData buffer).raised = false
  suffix : (handleData buffer).buffer <:+ buffer
  incomplete : Incomplete (handleData buffer).buffer
  accounted : ∃ removed, Accounts buffer (handleData buffer).out (handleData buffer).buffer removed
  again : handleData (handleData buffer).buffer = ⟨[],(handleData buffer).buffer,false⟩

theorem field_take {b : List UInt8} {n i k : ℕ} (h : i + k ≤ n) :
    BigEndian.field (b.take n) i k = BigEndian.field b i k := by
  rw [BigEndian.field,BigEndian.field,List.drop_take,List.take_take,Nat.min_eq_left (by omega)]

theorem incomplete_of_wait {b : List UInt8} (h : framing.decoder.pass b = .wait) :
    Incomplete b := by
  rcases (Framing.pass_eq_wait_iff b).mp h with hshort | ⟨hsize,hgood,hlen⟩
  · exact .inl hshort
  · right
    have hhead : (framing.head b hsize).toList = b.take headerSize := by
      simp [Framing.head,framing]
    have hmagic : (b.take headerSize).take 4 = msipMagic.toList := by
      rw [← hhead]
      exact of_decide_eq_true hgood
    have hdeclared : framing.length (framing.head b hsize) = BigEndian.field b 12 4 := by
      rw [← field_take (b := b) (n := headerSize) (by decide),← hhead]
      rfl
    rw [List.take_take] at hmagic
    rw [hdeclared] at hlen
    exact ⟨hmagic,hlen⟩

theorem Accounts.nothing (b : List UInt8) : Accounts b [] b [] :=
  ⟨rfl,rfl,fun before r after h => by simp at h⟩

theorem Accounts.cons {b left : List UInt8} {out : List (Wire.Emission Header MIPError)}
    {removed : List Removed} (h : Accounts b out left removed) (r : Removed)
    (hr : ¬r.IsRemainder) : Accounts (r.bytes ++ b) (r.report ++ out) left (r :: removed) := by
  refine ⟨?_,?_,fun before r' after heq hrem => ?_⟩
  · rw [List.flatMap_cons,List.append_assoc,← h.bytes]
  · rw [List.flatMap_cons,← h.report]
  · cases before with
    | nil =>
      injection heq with hhead
      exact absurd (hhead ▸ hrem) hr
    | cons x before =>
      injection heq with _ htail
      exact h.remainder before r' after htail hrem

theorem exists_accounts_of_bad {v : Vector UInt8 headerSize} (hg : framing.good v = false)
    (rest : List UInt8) :
    ∃ removed, Accounts (v.toList ++ rest) (framing.bad v) [] removed := by
  have hlong : headerSize ≤ (v.toList ++ rest).length := by simp
  have hfour : 4 ≤ v.toList.length := by
    rw [Vector.length_toList]
    decide
  have hmagic : (v.toList ++ rest).take 4 ≠ msipMagic.toList := by
    rw [List.take_append_of_le_length hfour]
    exact of_decide_eq_false hg
  have hfield : BigEndian.field (v.toList ++ rest) 0 4 = BigEndian.field v.toList 0 4 := by
    rw [BigEndian.field,BigEndian.field,List.drop_zero,List.drop_zero,
      List.take_append_of_le_length hfour]
  refine ⟨[.remainder (v.toList ++ rest) hlong hmagic],?_,?_,fun before r after h _ => ?_⟩
  · simp [Removed.bytes]
  · simp only [List.flatMap_cons,List.flatMap_nil,List.append_nil,Removed.report,hfield]
    rfl
  · have hlen := congrArg List.length h
    simp only [List.length_append,List.length_cons,List.length_nil] at hlen
    exact ⟨List.length_eq_zero_iff.mp (by omega),rfl⟩

theorem exists_accounts {b left : List UInt8} {out : List (Wire.Emission Header MIPError)}
    (h : framing.Takes b out left) : ∃ removed, Accounts b out left removed := by
  induction h with
  | @nothing b _ => exact ⟨[],.nothing b⟩
  | @frame v p rest r out outs _ hl ha _ ih =>
    obtain ⟨removed,hremoved⟩ := ih
    have hact := framing_act v p
    rw [ha] at hact
    cases hok : Header.tryFrom v with
    | error e => simp [hok] at hact
    | ok parsed =>
      simp only [hok] at hact
      cases hact
      exact ⟨_,hremoved.cons (.frame ⟨v,p,parsed,hok,hl⟩) id⟩
  | @header v p rest r out outs _ hl ha _ ih =>
    obtain ⟨removed,hremoved⟩ := ih
    have hact := framing_act v p
    rw [ha] at hact
    cases herror : Header.tryFrom v with
    | ok parsed => simp [herror] at hact
    | error e =>
      simp only [herror] at hact
      cases hact
      rw [List.append_assoc]
      exact ⟨_,hremoved.cons (.header v e herror) id⟩
  | @rest v rest hg => exact exists_accounts_of_bad hg rest

/-- `handle_data` leaves a suffix of its buffer with which it has to wait for more bytes, and
reports what it has removed, part by part. -/
theorem handleData_quiescent (buffer : List UInt8) : Quiescent buffer := by
  have hwait : framing.decoder.pass (handleData buffer).buffer = .wait :=
    run_waits stop_waits pass_ne_fail buffer
  exact {
    ends := run_raised pass_ne_fail buffer
    suffix := Framing.run_buffer_suffix buffer
    incomplete := incomplete_of_wait hwait
    accounted := exists_accounts (Framing.takes_run rfl framing_ne_fail buffer)
    again := run_wait hwait }

end Rust
end MipClients
