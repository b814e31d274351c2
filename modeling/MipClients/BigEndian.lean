import Mathlib.Data.List.Induction
import Mathlib.Data.Nat.ModEq
import Mathlib.Tactic.Ring

/-! Big-endian byte codecs of naturals: `bytes w n` is the `w` bytes of `n`, most significant
first, and `value` reads any number of bytes back. -/
namespace MipClients
namespace BigEndian

def value (bs : List UInt8) : ℕ := bs.foldl (fun n b => n * 256 + b.toNat) 0

def bytes : ℕ → ℕ → List UInt8
  | 0, _ => []
  | w+1, n => bytes w (n / 256) ++ [UInt8.ofNat n]

/-- The `w`-byte field at byte offset `i`. -/
def field (bs : List UInt8) (i w : ℕ) : ℕ := value ((bs.drop i).take w)

@[simp] theorem value_nil : value [] = 0 := rfl

@[simp] theorem value_append_singleton (bs : List UInt8) (b : UInt8) :
    value (bs ++ [b]) = value bs * 256 + b.toNat := by
  simp [value,List.foldl_append]

@[simp] theorem bytes_zero (n : ℕ) : bytes 0 n = [] := rfl

@[simp] theorem length_bytes (w n : ℕ) : (bytes w n).length = w := by
  induction w generalizing n with
  | zero => rfl
  | succ w ih => simp [bytes,ih]

@[simp] theorem value_bytes (w n : ℕ) : value (bytes w n) = n % 256 ^ w := by
  induction w generalizing n with
  | zero => simp [bytes,Nat.mod_one]
  | succ w ih =>
    have hlast : (UInt8.ofNat n).toNat = n % 256 := by simp
    rw [bytes,value_append_singleton,ih,hlast,pow_succ',Nat.mod_mul]
    ring

theorem value_bytes_of_lt {w n : ℕ} (h : n < 256 ^ w) : value (bytes w n) = n := by
  rw [value_bytes,Nat.mod_eq_of_lt h]

theorem value_lt (bs : List UInt8) : value bs < 256 ^ bs.length := by
  induction bs using List.reverseRecOn with
  | nil => simp
  | append_singleton bs b ih =>
    have hb : b.toNat < 256 := b.toNat_lt
    rw [value_append_singleton,List.length_append,List.length_singleton,pow_succ]
    omega

theorem field_lt (bs : List UInt8) (i w : ℕ) : field bs i w < 256 ^ w :=
  (value_lt _).trans_le (Nat.pow_le_pow_right (by decide) (List.length_take_le w _))

theorem field_one {bs : List UInt8} {i : ℕ} (h : i < bs.length) : field bs i 1 = bs[i].toNat := by
  rw [field,List.drop_eq_getElem_cons h,List.take_succ_cons,List.take_zero]
  simpa using value_append_singleton [] bs[i]

theorem field_append {bs : List UInt8} {i w : ℕ} (h : i + w ≤ bs.length) (rest : List UInt8) :
    field (bs ++ rest) i w = field bs i w := by
  unfold field
  rw [List.drop_append_of_le_length (by omega),
    List.take_append_of_le_length (by rw [List.length_drop]; omega)]

theorem bytes_value (bs : List UInt8) : bytes bs.length (value bs) = bs := by
  induction bs using List.reverseRecOn with
  | nil => rfl
  | append_singleton bs b ih =>
    have hb : b.toNat < 256 := b.toNat_lt
    have hdiv : (value bs * 256 + b.toNat) / 256 = value bs := by omega
    have hlast : UInt8.ofNat (value bs * 256 + b.toNat) = b := by
      apply UInt8.toNat_inj.mp
      rw [UInt8.toNat_ofNat']
      omega
    rw [value_append_singleton,List.length_append,List.length_singleton,bytes,hdiv,ih,hlast]

/-- A field written back is the bytes it was read from. -/
theorem bytes_field {bs : List UInt8} {i w : ℕ} (h : i + w ≤ bs.length) :
    bytes w (field bs i w) = (bs.drop i).take w := by
  have hlen : ((bs.drop i).take w).length = w := by
    rw [List.length_take,List.length_drop]
    omega
  have hb := bytes_value ((bs.drop i).take w)
  rwa [hlen] at hb

theorem field_bytes {pre post : List UInt8} {i w n : ℕ} (hi : pre.length = i) (hn : n < 256 ^ w) :
    field (pre ++ (bytes w n ++ post)) i w = n := by
  unfold field
  rw [List.drop_left' hi,List.take_left' (length_bytes w n),value_bytes_of_lt hn]

end BigEndian
end MipClients
