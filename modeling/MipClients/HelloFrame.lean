import MipClients.Transition
import MipClients.Utf8
import MipClients.Wire

/-! The HELLO frame of a handshake: its place among the frames of a connection, and the client ids
that a run puts into it. -/
namespace MipClients
namespace HelloFrame

open Transition
open Utf8 (Text)
open Wire (FrameType)

/-- The first of the frames written on a connection, if there is one, is a HELLO frame. -/
def First (written : List (List UInt8)) : Prop :=
  ∀ bytes ∈ written.head?, BigEndian.field bytes 6 2 = FrameType.hello.code

@[simp] theorem first_nil : First [] := nofun

theorem First.append {written : List (List UInt8)} (h : First written) {bytes : List UInt8}
    (hb : written = [] → BigEndian.field bytes 6 2 = FrameType.hello.code) :
    First (written ++ [bytes]) := by
  cases written with
  | nil =>
    intro b hmem
    cases hmem
    exact hb rfl
  | cons first written => exact h

section Identity

variable (decimal : ℤ → Text) (configured : Text)

/-- The client id once HELLO frames with the given payloads and message ids, the latest first, have
been written: the handshake makes the message id the client id. -/
def clientIdAfter : List (List UInt8 × ℤ) → Text
  | [] => configured
  | (_,msgId) :: _ => decimal msgId

def Stable (hellos : List (List UInt8 × ℤ)) : Prop := ∀ h ∈ hellos, h.1 = Utf8.encode configured

/-- The next HELLO frame carries the configured client id exactly when it is the first, or the
message id of the one before it reads as the configured client id. -/
theorem stable_cons_iff {hellos : List (List UInt8 × ℤ)} (h : Stable configured hellos)
    (msgId : ℤ) :
    Stable configured
      ((Utf8.encode (clientIdAfter decimal configured hellos),msgId) :: hellos) ↔
    ∀ h ∈ hellos.head?, decimal h.2 = configured := by
  have hnext : Stable configured
      ((Utf8.encode (clientIdAfter decimal configured hellos),msgId) :: hellos) ↔
      clientIdAfter decimal configured hellos = configured := by
    rw [← Utf8.encode_injective.eq_iff]
    exact ⟨fun hs => hs _ List.mem_cons_self,fun he => List.forall_mem_cons.mpr ⟨he,h⟩⟩
  rw [hnext]
  cases hellos with
  | nil => exact iff_of_true rfl nofun
  | cons hello hellos =>
    rw [List.head?_cons]
    exact ⟨fun he h hh => Option.some.inj hh ▸ he,fun hall => hall hello rfl⟩

end Identity

/-- A machine whose handshake puts the client id into HELLO and makes the message id of HELLO the
next client id. -/
structure Handshaking {σ ε : Type*} (step : σ → ε → Option σ) (decimal : ℤ → Text) where
  configured : σ → Text
  clientId : σ → Text
  /-- The payloads and message ids of the HELLO frames written, the latest first. -/
  hellos : σ → List (List UInt8 × ℤ)
  saysHello : σ → ε → Bool
  keeps : ∀ s e t, step s e = some t → saysHello s e = false →
    configured t = configured s ∧ clientId t = clientId s ∧ hellos t = hellos s
  writes : ∀ s e t, step s e = some t → saysHello s e = true → ∃ msgId,
    configured t = configured s ∧ clientId t = decimal msgId ∧
      hellos t = (Utf8.encode (clientId s),msgId) :: hellos s

namespace Handshaking

variable {σ ε : Type*} {step : σ → ε → Option σ} {decimal : ℤ → Text}
  (H : Handshaking step decimal)

/-- The next HELLO is the first, or the message id of the one before it reads as the configured
client id. -/
def KeepsIdentity (s : σ) (e : ε) : Prop :=
  H.saysHello s e = true → ∀ h ∈ (H.hellos s).head?, decimal h.2 = H.configured s

structure Named (configured : Text) (s : σ) : Prop where
  unchanged : H.configured s = configured
  clientId : H.clientId s = clientIdAfter decimal configured (H.hellos s)

variable {H}

theorem named_step {configured : Text} (s : σ) (e : ε) (t : σ) (h : H.Named configured s)
    (hs : step s e = some t) : H.Named configured t := by
  cases hh : H.saysHello s e with
  | false =>
    obtain ⟨hconfigured,hid,hhellos⟩ := H.keeps s e t hs hh
    exact ⟨hconfigured.trans h.unchanged,by rw [hid,hhellos,h.clientId]⟩
  | true =>
    obtain ⟨msgId,hconfigured,hid,hhellos⟩ := H.writes s e t hs hh
    exact ⟨hconfigured.trans h.unchanged,by rw [hid,hhellos]; rfl⟩

/-- In every run of a machine that starts with its configured client id and without a HELLO, all
HELLO frames carry that client id exactly when every step keeps the identity. -/
theorem stable_iff {init : σ} (hid : H.clientId init = H.configured init)
    (hnone : H.hellos init = []) (events : List ε) :
    (∀ s ∈ states step init events, Stable (H.configured init) (H.hellos s)) ↔
      ∀ p ∈ steps step init events, H.KeepsIdentity p.1 p.2 := by
  have hinit : H.Named (H.configured init) init := ⟨rfl,by rw [hnone]; exact hid⟩
  have hstable : Stable (H.configured init) (H.hellos init) := by
    rw [hnone]
    exact fun h hmem => absurd hmem List.not_mem_nil
  refine invariant_iff_of_steps (I := H.Named (H.configured init)) (A := fun _ _ => True)
    (fun s e t h _ he => named_step s e t h he) ?_ hinit hstable fun _ _ => trivial
  intro s e t h _ hs he
  cases hh : H.saysHello s e with
  | false =>
    obtain ⟨-,-,hhellos⟩ := H.keeps s e t he hh
    rw [hhellos]
    exact iff_of_true hs fun hsays => by rw [hh] at hsays; cases hsays
  | true =>
    obtain ⟨msgId,-,-,hhellos⟩ := H.writes s e t he hh
    rw [hhellos,h.clientId,stable_cons_iff decimal _ hs msgId]
    unfold KeepsIdentity
    rw [h.unchanged]
    exact ⟨fun hall _ => hall,fun hall => hall hh⟩

end Handshaking

end HelloFrame
end MipClients
