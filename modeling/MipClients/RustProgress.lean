import MipClients.RustDisconnect

/-! The calls of `connect()` and `disconnect()` on the Rust client do not get stuck: `connect()`
needs no one once the connection is open, and `disconnect()` at most the write task of its
connection. -/
namespace MipClients
namespace Rust

open State Transition

section Disconnect

variable {fails : Bool} {now : ℕ} {s : State}

/-- The state is one of a client that is in the same call with the same sender. -/
structure Waits (s t : State) : Prop where
  session : Session t
  disconnecting : Disconnecting t
  owner : t.owner = s.owner
  sender : t.commandTx = s.commandTx

theorem Waits.refl (hI : Session s) (hD : Disconnecting s) : Waits s s := ⟨hI,hD,rfl,rfl⟩

theorem Waits.step {t u : State} {e : Event} (h : Waits s t) (hstep : Rust.step t e = some u)
    (ha : e.actor ≠ .owner) : Waits s u := by
  obtain ⟨ho,-,-,hsender⟩ := (step_move hstep).elsewhere ha
  exact ⟨h.session.step hstep,h.disconnecting.step hstep,ho.trans h.owner,hsender.trans h.sender⟩

def Owner.left : Owner → ℕ
  | .storing _ => 10
  | .stored _ => 9
  | .readSpawned _ => 8
  | .writeSpawned _ => 7
  | .pingSpawned _ => 6
  | .hello _ => 5
  | .helloChecked _ => 4
  | .helloBuilt _ _ _ => 3
  | .helloFailed => 2
  | .helloCleared => 1
  | _ => 0

end Disconnect

end Rust
end MipClients
