import Mathlib.Data.List.Basic
import Mathlib.Algebra.Order.Ring.Int
import Mathlib.Algebra.Order.Ring.Defs

/-! Stamps made of a clock reading and a running count, `reading * scale + count`: when the stamps
that a counter gives to a sequence of readings are distinct, increasing or bounded. -/
namespace MipClients
namespace Stamps

variable {σ ρ ι : Type*}

/-- The results of one call of `next` for each reading, one after the other. -/
def draws (next : σ → ρ → ι × σ) : σ → List ρ → List ι
  | _, [] => []
  | s, r :: rs => (next s r).1 :: draws next (next s r).2 rs

theorem draws_eq_mapIdx {next : σ → ρ → ι × σ} (count : σ → ℕ) (f : ℕ → ρ → ι)
    (hid : ∀ s r, (next s r).1 = f (count s) r) (hcount : ∀ s r, count (next s r).2 = count s + 1)
    (s : σ) (rs : List ρ) : draws next s rs = rs.mapIdx fun i r => f (count s + i) r := by
  induction rs generalizing s with
  | nil => rfl
  | cons r rs ih =>
    rw [draws,List.mapIdx_cons,hid,ih,hcount]
    simp only [Nat.add_assoc,Nat.add_comm 1,Nat.add_zero]

/-- The stamps of the readings, counted from `first` on. -/
def stamps (scale first : ℤ) (readings : List ℤ) : List ℤ :=
  readings.mapIdx fun i r => r * scale + (first + i)

/-- A later reading is never exactly as far behind an earlier one as there are calls from the one to
the other. -/
def NeverBehind (readings : List ℤ) : Prop :=
  ∀ i j (hij : i < j) (hj : j < readings.length), readings[i] ≠ readings[j] + (j - i)

variable {scale first : ℤ} {readings : List ℤ}

@[simp] theorem length_stamps : (stamps scale first readings).length = readings.length := by
  simp [stamps]

theorem getElem_stamps (scale first : ℤ) {i : ℕ} (h : i < readings.length)
    (hi : i < (stamps scale first readings).length) :
    (stamps scale first readings)[i] = readings[i] * scale + (first + i) := by
  simp [stamps]

theorem stamps_concat (scale first : ℤ) (readings : List ℤ) (r : ℤ) :
    stamps scale first (readings ++ [r]) =
      stamps scale first readings ++ [r * scale + (first + readings.length)] := by
  simp [stamps]

theorem NeverBehind.of_sorted (h : readings.Pairwise (· ≤ ·)) : NeverBehind readings := by
  intro i j hij hj heq
  have hle := List.pairwise_iff_getElem.mp h i j (by omega) hj hij
  omega

/-- Where readings count as much as calls, the stamps are distinct exactly when the clock never
falls behind in step with the count. -/
theorem nodup_stamps_iff : (stamps 1 first readings).Nodup ↔ NeverBehind readings := by
  rw [List.nodup_iff_pairwise_ne,List.pairwise_iff_getElem]
  constructor
  · intro h i j hij hj heq
    refine h i j (by rw [length_stamps]; omega) (by rwa [length_stamps]) hij ?_
    rw [getElem_stamps 1 first (by omega),getElem_stamps 1 first hj,heq]
    omega
  · intro h i j hi hj hij heq
    rw [length_stamps] at hi hj
    rw [getElem_stamps 1 first hi,getElem_stamps 1 first hj] at heq
    exact h i j hij hj (by omega)

/-- Fewer than `scale` calls apart, two stamps differ whatever the clock does. -/
theorem stamps_ne_of_close (first : ℤ) {i j : ℕ} (hij : i < j) (hj : j < readings.length)
    (hclose : (j : ℤ) - i < scale) :
    readings[i] * scale + (first + i) ≠ readings[j] * scale + (first + j) := by
  intro heq
  have hdiff : (readings[i] - readings[j]) * scale = j - i := by
    rw [sub_mul]
    omega
  have hpos : 0 < (readings[i] - readings[j]) * scale := by omega
  -- a positive multiple of the scale is at least the scale
  have hscale : 0 < scale := by omega
  have hone : 1 ≤ readings[i] - readings[j] := (mul_pos_iff_of_pos_right hscale).mp hpos
  have hle : 1 * scale ≤ (readings[i] - readings[j]) * scale :=
    mul_le_mul_of_nonneg_right hone hscale.le
  omega

/-- Readings that never decrease give increasing stamps. -/
theorem stamps_increasing (first : ℤ) (hscale : 0 ≤ scale) (h : readings.Pairwise (· ≤ ·)) :
    (stamps scale first readings).Pairwise (· < ·) := by
  rw [List.pairwise_iff_getElem] at h ⊢
  intro i j hi hj hij
  rw [length_stamps] at hi hj
  rw [getElem_stamps scale first hi,getElem_stamps scale first hj]
  have hle : readings[i] * scale ≤ readings[j] * scale :=
    mul_le_mul_of_nonneg_right (h i j hi hj hij) hscale
  omega

/-- A stamp lies between what the reading and the count come to at least and at most. -/
theorem stamp_bounds {latest r : ℤ} {n bound : ℕ} (hscale : 0 ≤ scale) (hr : 0 ≤ r ∧ r ≤ latest)
    (hn : n < bound) : 0 ≤ r * scale + n ∧ r * scale + n < latest * scale + bound := by
  have hle : r * scale ≤ latest * scale := mul_le_mul_of_nonneg_right hr.2 hscale
  have hpos : 0 ≤ r * scale := mul_nonneg hr.1 hscale
  omega

end Stamps
end MipClients
