import MipClients.PyClient
import MipClients.RustClient
import MipClients.Stamps
import Mathlib.Data.List.Nodup

/-! The message ids of the Python client (`_generate_msg_id`) and of one caller of the Rust client
(`generate_msg_id`), generated one after the other from a wall clock that may be set back. -/
namespace MipClients

open Stamps

/-- The ids of one call for each clock reading. -/
def Py.msgIds (s : Py.State) (readings : List ℤ) : List ℤ :=
  draws Py.State.generateMsgId s readings

def Rust.msgIds (s : Rust.State) (readings : List ℕ) : List UInt64 :=
  draws Rust.State.generateMsgId s readings

def Rust.SumsFit (s : Rust.State) (readings : List ℕ) : Prop :=
  ∀ i (h : i < readings.length), readings[i] + (s.msgIdCounter + i) < 2 ^ 64

instance (s : Rust.State) (readings : List ℕ) : Decidable (Rust.SumsFit s readings) :=
  inferInstanceAs (Decidable (∀ i (_ : i < readings.length), _))

theorem Py.msgIds_eq (s : Py.State) (readings : List ℤ) :
    Py.msgIds s readings = stamps 1 (s.msgIdCounter + 1) readings := by
  rw [Py.msgIds,draws_eq_mapIdx Py.State.msgIdCounter (fun n r => r + ((n : ℤ) + 1))
    (fun _ _ => rfl) (fun _ _ => rfl),stamps]
  congr 1
  funext i r
  push_cast
  omega

theorem Rust.msgIds_eq (s : Rust.State) (readings : List ℕ) : Rust.msgIds s readings =
    readings.mapIdx fun i r => UInt64.ofNat (MsgId.Call.msgId ⟨s.msgIdCounter + i,r⟩) :=
  draws_eq_mapIdx Rust.State.msgIdCounter
    (fun n r => UInt64.ofNat (MsgId.Call.msgId ⟨n,r⟩)) (fun _ _ => rfl) (fun _ _ => rfl) s readings

theorem Rust.msgIds_toNat {s : Rust.State} {readings : List ℕ} (h : Rust.SumsFit s readings) :
    (Rust.msgIds s readings).map (fun id => (id.toNat : ℤ)) =
      stamps 1 s.msgIdCounter (readings.map (↑)) := by
  rw [Rust.msgIds_eq]
  apply List.ext_getElem
  · simp
  · intro i hi hi'
    have hlen : i < readings.length := by simpa using hi
    have hfits := h i hlen
    rw [getElem_stamps 1 _ (by simpa using hlen)]
    simp only [List.getElem_map,List.getElem_mapIdx,MsgId.Call.msgId,UInt64.toNat_ofNat']
    omega

/-- The ids of a client's calls are distinct exactly when no reading of the clock is as many
microseconds behind an earlier one as there are calls from the one to the other. -/
theorem sequentialMsgIds_nodup_iff (s : Py.State) (readings : List ℤ) (t : Rust.State)
    (micros : List ℕ) (hfits : Rust.SumsFit t micros) :
    ((Py.msgIds s readings).Nodup ↔ NeverBehind readings) ∧
      ((Rust.msgIds t micros).Nodup ↔ NeverBehind (micros.map (↑))) := by
  constructor
  · rw [Py.msgIds_eq,nodup_stamps_iff]
  · have hinj : Function.Injective fun id : UInt64 => (id.toNat : ℤ) :=
      Nat.cast_injective.comp fun a b => UInt64.toNat_inj.mp
    rw [← List.nodup_map_iff hinj,Rust.msgIds_toNat hfits,nodup_stamps_iff]

/-- A clock that stands still gives distinct ids. -/
theorem msgIds_nodup_still : (Py.msgIds (Py.init {}) [7,7,7]).Nodup ∧
    (Rust.msgIds (Rust.init {}) [7,7,7]).Nodup := by
  have hfits : Rust.SumsFit (Rust.init {}) [7,7,7] := by decide
  have h := sequentialMsgIds_nodup_iff (Py.init {}) [7,7,7] (Rust.init {}) [7,7,7] hfits
  exact ⟨h.1.mpr (.of_sorted (by decide)),h.2.mpr (.of_sorted (by decide))⟩

/-- A clock that is set back by a microsecond between two calls gives the same id twice. -/
theorem msgIds_repeat : ¬(∀ (s : Py.State) (readings : List ℤ), (Py.msgIds s readings).Nodup) ∧
    ¬∀ (t : Rust.State) (micros : List ℕ), Rust.SumsFit t micros →
      (Rust.msgIds t micros).Nodup := by
  constructor
  · intro h
    exact absurd (h (Py.init {}) [1,0]) (by decide)
  · intro h
    exact absurd (h (Rust.init {}) [1,0] (by decide)) (by decide)

end MipClients
