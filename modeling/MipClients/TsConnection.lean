import MipClients.Transition
import MipClients.TsHandlers

/-! When `connected` of the TypeScript client tells the truth. Every handler works on the client,
whichever socket it was registered on, so the events of a socket that is no longer `this.socket`
decide. -/
namespace MipClients
namespace Ts

open Transition
open Wire (FrameType)

/-- `this.socket` is not null and has emitted 'connect', but neither delivered a CLOSE frame nor
emitted 'close'. -/
def State.established (s : State) : Bool :=
  match s.socket with
  | some i => (s.sockets i).phase = .connected
  | none => false

/-- Sockets other than `this.socket` connect only while the client is connected, and close only
while it is not. -/
def FromCurrentSocket (s : State) (e : Event) : Prop :=
  (∀ i, e = .host (.connect i) → s.socket = some i ∨ s.connected = true) ∧
  ∀ i, s.closes e = some i → s.socket = some i ∨ s.connected = false

/-- `connected` and what it should tell are the same in both states. -/
structure SameLink (s t : State) : Prop where
  connected : t.connected = s.connected
  established : t.established = s.established

theorem SameLink.refl (s : State) : SameLink s s := ⟨rfl,rfl⟩

theorem SameLink.trans {s t u : State} (h : SameLink s t) (h' : SameLink t u) : SameLink s u :=
  ⟨h'.connected.trans h.connected,h'.established.trans h.established⟩

theorem SameLink.truthful_iff {s t : State} (h : SameLink s t) :
    t.connected = t.established ↔ s.connected = s.established := by
  rw [h.connected,h.established]

namespace State

variable (s : State)

end State

namespace State

variable (s : State)

end State

def Event.connects : Event → Bool
  | .host (.connect _) => true
  | _ => false

theorem fromCurrentSocket_of_none {s : State} {e : Event} (hc : s.closes e = none)
    (he : e.connects = false) : FromCurrentSocket s e := by
  refine ⟨fun i hi => ?_,fun i hi => ?_⟩
  · rw [hi] at he
    cases he
  · rw [hc] at hi
    cases hi

theorem SameLink.step_iff {s t : State} {e : Event} (hl : SameLink s t)
    (h : s.connected = s.established) (hc : s.closes e = none) (he : e.connects = false) :
    t.connected = t.established ↔ FromCurrentSocket s e :=
  iff_of_true (hl.truthful_iff.mpr h) (fromCurrentSocket_of_none hc he)

end Ts
end MipClients
