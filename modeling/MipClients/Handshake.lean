import MipClients.PyHandshake
import MipClients.TsHandshake

/-! The handshakes of the TypeScript and the Python client side by side. Both run the user's code
between becoming connected and sending HELLO, and both write the message id of HELLO over the client
id that the next HELLO is built from. -/
namespace MipClients
namespace Handshake

open HelloFrame
open Transition
open Utf8 (Text)
open Wire (FrameType)

def tsReconnection : List Ts.Event :=
  [.call .connect 0,.host (.connect 0),.listenersReturn 0,.host (.close 0),.listenersReturn 0,
    .listenersReturn 0,.host (.timeout 0),.host (.connect 1),.listenersReturn 0,.call .ping 0]

def pyReconnection : List Py.Event :=
  [.connectCall,.opened 0 [] none 0,.start 1,
    .read 1 (.data (Wire.headerBytes FrameType.close.code 0 1 0 0) ""),.read 1 .eof,.start 2,
    .start 3,.wake 3 0,.opened 3 [] none 0,.call .ping 0]

/-- In every run of either client in which the 'connect' callbacks neither send a frame before HELLO
nor raise, HELLO is the first frame on every connection. -/
theorem hello_goes_first (tsOptions : Ts.Options) (tsEvents : List Ts.Event)
    (hts : ∀ p ∈ steps Ts.step (Ts.init tsOptions) tsEvents, Ts.LetsGreet p.1 p.2)
    (pyOptions : Py.Options) (pyEvents : List Py.Event)
    (hpy : ∀ p ∈ steps Py.step (Py.init pyOptions) pyEvents, Py.LetsGreet p.1 p.2) :
    (∀ s ∈ states Ts.step (Ts.init tsOptions) tsEvents, Ts.HelloFirst s) ∧
    ∀ s ∈ states Py.step (Py.init pyOptions) pyEvents, Py.HelloFirst s :=
  ⟨Ts.helloFirst tsOptions tsEvents hts,Py.helloFirst pyOptions pyEvents hpy⟩

theorem hello_goes_first_reconnection :
    (∀ s ∈ states Ts.step (Ts.init {}) tsReconnection, Ts.HelloFirst s) ∧
    ∀ s ∈ states Py.step (Py.init {}) pyReconnection, Py.HelloFirst s :=
  hello_goes_first {} tsReconnection (by decide +kernel) {} pyReconnection (by decide +kernel)

def topic : Text := ['t']

/-- The callback for 'connect' subscribes again, as the clients' users are told to. -/
theorem subscribe_goes_first :
    (¬∀ (options : Ts.Options) (events : List Ts.Event),
      ∀ s ∈ states Ts.step (Ts.init options) events, Ts.HelloFirst s) ∧
    ¬∀ (options : Py.Options) (events : List Py.Event),
      ∀ s ∈ states Py.step (Py.init options) events, Py.HelloFirst s := by
  have hts : ∃ s ∈ states Ts.step (Ts.init {})
      [.call .connect 0,.host (.connect 0),.call (.subscribe topic true) 0],
      ∃ bytes ∈ (s.sockets 0).written.head?,
        BigEndian.field bytes 6 2 = FrameType.subscribe.code := by decide +kernel
  have hpy : ∃ s ∈ states Py.step (Py.init {})
      [.connectCall,.opened 0 [(.subscribe topic true,0)] none 0],
      ∃ bytes ∈ (s.connections 0).written.head?,
        BigEndian.field bytes 6 2 = FrameType.subscribe.code := by decide +kernel
  refine ⟨fun h => ?_,fun h => ?_⟩
  · obtain ⟨s,hs,bytes,hb,hsubscribe⟩ := hts
    have hhello := h {} _ s hs 0 bytes hb
    rw [hsubscribe] at hhello
    cases hhello
  · obtain ⟨s,hs,bytes,hb,hsubscribe⟩ := hpy
    have hhello := h {} _ s hs 0 bytes hb
    rw [hsubscribe] at hhello
    cases hhello

/-- In every run of either client, all HELLO frames carry the configured client id exactly when each
is the first of the run, or follows one with that client id for its message id. -/
theorem identities_stable_iff (tsOptions : Ts.Options) (tsEvents : List Ts.Event)
    (pyOptions : Py.Options) (pyEvents : List Py.Event) :
    ((∀ s ∈ states Ts.step (Ts.init tsOptions) tsEvents,
        Stable tsOptions.clientId (Ts.hellos s.log)) ↔
      ∀ p ∈ steps Ts.step (Ts.init tsOptions) tsEvents, Ts.KeepsIdentity p.1 p.2) ∧
    ((∀ s ∈ states Py.step (Py.init pyOptions) pyEvents,
        Stable pyOptions.clientId (Py.hellos s.log)) ↔
      ∀ p ∈ steps Py.step (Py.init pyOptions) pyEvents, Py.KeepsIdentity p.1 p.2) :=
  ⟨Ts.identity_stable_iff tsOptions tsEvents,Py.identity_stable_iff pyOptions pyEvents⟩

/-- After the reconnection, HELLO carries the message id of the HELLO before it. -/
theorem identities_drift :
    (¬∀ (options : Ts.Options) (events : List Ts.Event),
      ∀ s ∈ states Ts.step (Ts.init options) events,
        Stable options.clientId (Ts.hellos s.log)) ∧
    ¬∀ (options : Py.Options) (events : List Py.Event),
      ∀ s ∈ states Py.step (Py.init options) events,
        Stable options.clientId (Py.hellos s.log) := by
  have hts : ∃ s ∈ states Ts.step (Ts.init { clientId := ['a'] }) tsReconnection,
      ∃ h ∈ Ts.hellos s.log, h.1 = Utf8.encode ['1'] := by decide +kernel
  have hpy : ∃ s ∈ states Py.step (Py.init { clientId := ['a'] }) pyReconnection,
      ∃ h ∈ Py.hellos s.log, h.1 = Utf8.encode ['1'] := by decide +kernel
  refine ⟨fun h => ?_,fun h => ?_⟩
  · obtain ⟨s,hs,hello,hmem,hpayload⟩ := hts
    have hstable := h { clientId := ['a'] } tsReconnection s hs hello hmem
    rw [hpayload] at hstable
    exact absurd hstable (by decide)
  · obtain ⟨s,hs,hello,hmem,hpayload⟩ := hpy
    have hstable := h { clientId := ['a'] } pyReconnection s hs hello hmem
    rw [hpayload] at hstable
    exact absurd hstable (by decide)

end Handshake
end MipClients
