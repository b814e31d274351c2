import MipClients.RustReconnect
import MipClients.TsReconnect

/-! Automatic reconnection of the TypeScript and the Rust client side by side. In both, `disconnect()`
clears the option that the loss of every later connection goes by. -/
namespace MipClients
namespace Reconnect

open Transition

/-- In every run of either client configured to reconnect, all losses of established connections lead
to the reconnect path if and only if each finds it open. -/
theorem losses_enter_reconnect_iff (tsOptions : Ts.Options) (hts : tsOptions.autoReconnect = true)
    (tsEvents : List Ts.Event) (rustOptions : Rust.MIPClientOptions)
    (hrust : rustOptions.autoReconnect = true) (rustEvents : List Rust.Event) :
    ((∀ p ∈ steps Ts.step (Ts.init tsOptions) tsEvents, Ts.LosesConnection p.1 p.2 →
        ∀ t ∈ Ts.step p.1 p.2, Ts.EntersReconnect p.1 t) ↔
      ∀ p ∈ steps Ts.step (Ts.init tsOptions) tsEvents, Ts.LosesConnection p.1 p.2 →
        Ts.ReconnectsStill p.1 p.2) ∧
    ((∀ p ∈ steps Rust.step (Rust.init rustOptions) rustEvents, Rust.LosesConnection p.1 p.2 →
        ∀ t ∈ Rust.step p.1 p.2, Rust.EntersReconnect p.1 t) ↔
      ∀ p ∈ steps Rust.step (Rust.init rustOptions) rustEvents, Rust.LosesConnection p.1 p.2 →
        Rust.ReconnectsStill p.1) :=
  ⟨Ts.losses_reconnect_iff tsOptions hts tsEvents,
    Rust.losses_reconnect_iff rustOptions hrust rustEvents⟩

def tsLoss : List Ts.Event :=
  [.call .connect 0,.host (.connect 0),.listenersReturn 0,.host (.close 0),.listenersReturn 0]

def rustEnd (c : ℕ) : List Rust.Event :=
  [.readStep c,.read c .eof] ++ List.replicate 3 (.readStep c)

theorem losses_enter_reconnect_first :
    (∀ p ∈ steps Ts.step (Ts.init {}) tsLoss, Ts.LosesConnection p.1 p.2 →
        ∀ t ∈ Ts.step p.1 p.2, Ts.EntersReconnect p.1 t) ∧
    ∀ p ∈ steps Rust.step (Rust.init {}) (Rust.connectRun ++ rustEnd 0),
      Rust.LosesConnection p.1 p.2 → ∀ t ∈ Rust.step p.1 p.2, Rust.EntersReconnect p.1 t := by
  have h := losses_enter_reconnect_iff {} rfl tsLoss {} rfl (Rust.connectRun ++ rustEnd 0)
  exact ⟨h.1.mpr (by decide +kernel),h.2.mpr (by decide +kernel)⟩

/-- The user connects, disconnects and connects again, and the server ends that connection. -/
theorem losses_not_reconnected :
    (¬∀ options : Ts.Options, options.autoReconnect = true → ∀ events,
      ∀ p ∈ steps Ts.step (Ts.init options) events, Ts.LosesConnection p.1 p.2 →
        ∀ t ∈ Ts.step p.1 p.2, Ts.EntersReconnect p.1 t) ∧
    ¬∀ options : Rust.MIPClientOptions, options.autoReconnect = true → ∀ events,
      ∀ p ∈ steps Rust.step (Rust.init options) events, Rust.LosesConnection p.1 p.2 →
        ∀ t ∈ Rust.step p.1 p.2, Rust.EntersReconnect p.1 t := by
  have hts : ∃ p ∈ steps Ts.step (Ts.init {})
      [.call .connect 0,.host (.connect 0),.listenersReturn 0,.call .disconnect 0,
        .call .connect 0,.host (.connect 1),.listenersReturn 0,.host (.close 1),
        .listenersReturn 0],
      Ts.LosesConnection p.1 p.2 ∧ ∃ t ∈ Ts.step p.1 p.2, t.log.length = p.1.log.length := by
    decide +kernel
  have hrust : ∃ p ∈ steps Rust.step (Rust.init {})
      (Rust.connectRun ++ [.disconnectCall] ++ List.replicate 6 (.advance 9) ++ [.timeout] ++
        List.replicate 3 (.advance 9) ++ Rust.connectRun ++ rustEnd 1),
      Rust.LosesConnection p.1 p.2 ∧ ∃ t ∈ Rust.step p.1 p.2, t.log.length = p.1.log.length := by
    decide +kernel
  refine ⟨fun h => ?_,fun h => ?_⟩
  · obtain ⟨p,hp,hloss,t,ht,hlen⟩ := hts
    rcases h {} rfl _ p hp hloss t ht with ⟨_,hlog⟩ | ⟨_,hlog⟩ <;>
      · simp only [hlog,List.length_cons] at hlen
        omega
  · obtain ⟨p,hp,hloss,t,ht,hlen⟩ := hrust
    rcases h {} rfl _ p hp hloss t ht with ⟨_,_,hlog⟩ | ⟨_,_,hlog⟩ <;>
      · rw [hlog,List.length_cons] at hlen
        omega

end Reconnect
end MipClients
