import MipClients.BigEndian

/-! Computations that may panic: indexing, slicing, draining, conversion to a fixed length, and
additions on an unsigned type of `w` bits, each with the check that the machine makes. -/
namespace MipClients

inductive Panic
  | index | slice | drain | expect | overflow
  deriving DecidableEq

abbrev Checked (α : Type*) := Except Panic α

namespace Checked

variable {α : Type*}

def add (w a b : ℕ) : Checked ℕ :=
  if a + b < 2 ^ w then .ok (a + b) else .error .overflow

/-- A cast to `w` bits truncates and never panics. -/
def cast (w n : ℕ) : ℕ := n % 2 ^ w

def index (bs : List α) (i : ℕ) : Checked α :=
  match bs[i]? with
  | some b => .ok b
  | none => .error .index

def slice (bs : List α) (i j : ℕ) : Checked (List α) :=
  if i ≤ j ∧ j ≤ bs.length then .ok ((bs.drop i).take (j - i)) else .error .slice

def sliceFrom (bs : List α) (i : ℕ) : Checked (List α) :=
  if i ≤ bs.length then .ok (bs.drop i) else .error .slice

def drain (bs : List α) (j : ℕ) : Checked (List α) :=
  if j ≤ bs.length then .ok (bs.drop j) else .error .drain

/-- `try_into().expect(..)` on a slice. -/
def toArray (n : ℕ) (bs : List α) : Checked (Vector α n) :=
  if h : bs.length = n then .ok ⟨bs.toArray,by simpa using h⟩ else .error .expect

def fromBeBytes (bs : List UInt8) (is : List ℕ) : Checked ℕ :=
  (is.mapM (index bs)).map BigEndian.value

theorem add_ok {w a b : ℕ} (h : a + b < 2 ^ w) : add w a b = .ok (a + b) := if_pos h

theorem cast_of_lt {w n : ℕ} (h : n < 2 ^ w) : cast w n = n := Nat.mod_eq_of_lt h

theorem index_ok {bs : List α} {i : ℕ} (h : i < bs.length) : index bs i = .ok bs[i] := by
  simp [index,h]

theorem slice_ok {bs : List α} {i j : ℕ} (hij : i ≤ j) (hj : j ≤ bs.length) :
    slice bs i j = .ok ((bs.drop i).take (j - i)) := if_pos ⟨hij,hj⟩

theorem sliceFrom_ok {bs : List α} {i : ℕ} (h : i ≤ bs.length) :
    sliceFrom bs i = .ok (bs.drop i) := if_pos h

theorem drain_ok {bs : List α} {j : ℕ} (h : j ≤ bs.length) : drain bs j = .ok (bs.drop j) :=
  if_pos h

theorem toArray_ok {n : ℕ} {bs : List α} (h : bs.length = n) :
    toArray n bs = .ok ⟨bs.toArray,by simpa using h⟩ := dif_pos h

theorem mapM_index {bs : List α} {i k : ℕ} (h : i + k ≤ bs.length) :
    (List.range' i k).mapM (index bs) = .ok ((bs.drop i).take k) := by
  induction k generalizing i with
  | zero => simp [pure,Except.pure]
  | succ k ih =>
    have hi : i < bs.length := by omega
    rw [List.range'_succ,List.mapM_cons,index_ok hi,ih (by omega),List.drop_eq_getElem_cons hi]
    rfl

theorem fromBeBytes_ok {bs : List UInt8} {i k : ℕ} (h : i + k ≤ bs.length) :
    fromBeBytes bs (List.range' i k) = .ok (BigEndian.field bs i k) := by
  rw [fromBeBytes,mapM_index h]
  rfl

end Checked
end MipClients
