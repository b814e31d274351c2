import MipClients.RustChecked

/-! The length arithmetic of the Rust client's `handle_data` (`client/internals.rs`) on the pointer
widths that the crate builds for, with and without overflow checks. -/
namespace MipClients
namespace Rust
namespace Panicking

open Checked

inductive PointerWidth
  | w32 | w64
  deriving DecidableEq

def PointerWidth.bits : PointerWidth → ℕ
  | .w32 => 32
  | .w64 => 64

/-- `HEADER_SIZE + payload_length` in a build whose additions wrap around. -/
def wrappingSum (w length : ℕ) : ℕ := cast w (headerSize + cast w length)

theorem eq_header_append {buffer : List UInt8} {length : ℕ}
    (h : declaredLength buffer = some length) : ∃ (v : Vector UInt8 headerSize) (c : List UInt8),
      buffer = v.toList ++ c ∧ framing.good v = true ∧ framing.length v = length := by
  have hno : ¬(buffer.length < headerSize ∨ buffer.take 4 ≠ msipMagic.toList) := by
    intro hno
    rw [declaredLength,if_pos hno] at h
    cases h
  obtain ⟨hlong,hmagic⟩ := not_or.mp hno
  obtain ⟨v,c,rfl⟩ : ∃ (v : Vector UInt8 headerSize) (c : List UInt8), buffer = v.toList ++ c :=
    ⟨_,_,StreamDecoder.Framing.eq_head_append (F := framing) hlong⟩
  have hlen : 4 ≤ v.toList.length := by
    rw [Vector.length_toList]
    decide
  have hgood : framing.good v = true := by
    rw [List.take_append_of_le_length hlen] at hmagic
    exact decide_eq_true (not_not.mp hmagic)
  rw [declaredLength_append c hgood] at h
  exact ⟨v,c,rfl,hgood,Option.some.inj h⟩

/-- What becomes of the others: with overflow checks the completeness test panics; without, a header
alone passes for the whole frame and the payload's slice ends before it starts. -/
theorem overflow_panics {buffer : List UInt8} {length : ℕ}
    (h : declaredLength buffer = some length) (hlong : 2 ^ 32 - headerSize ≤ length) :
    round 32 buffer = .error .overflow ∧ ¬buffer.length < wrappingSum 32 length ∧
      slice buffer headerSize (wrappingSum 32 length) = .error .slice := by
  obtain ⟨v,c,rfl,hgood,rfl⟩ := eq_header_append h
  have hlt : framing.length v < 2 ^ 32 := BigEndian.field_lt v.toList 12 4
  have hsum : wrappingSum 32 (framing.length v) < headerSize := by
    have hlong' : 2 ^ 32 - 24 ≤ framing.length v := hlong
    rw [wrappingSum,cast_of_lt hlt]
    show (24 + framing.length v) % 2 ^ 32 < 24
    omega
  refine ⟨?_,?_,if_neg (by omega)⟩
  · have hlen : fromBeBytes (v.toList ++ c) [12,13,14,15] = .ok (framing.length v) :=
      fromBeBytes_header v c (i := 12) (k := 4) (by decide)
    have heq : ¬v.toList.take 4 ≠ msipMagic.toList := by simpa [framing] using hgood
    have hadd : add 32 headerSize (cast 32 (framing.length v)) = .error .overflow := by
      rw [cast_of_lt hlt]
      exact if_neg (by omega)
    unfold round
    rw [if_neg (not_short v c),slice_marker]
    simp only [bind,Except.bind,if_neg heq,hlen,hadd]
  · have hshort := not_short v c
    omega

end Panicking
end Rust
end MipClients
