import MipClients.PyProtocol
import MipClients.TsProtocol

/-! The TypeScript and Python handlers report the same for every way of cutting a stream, garbage
included: a bad header stays at the front of the buffer for the rest of the connection. -/
namespace MipClients

open StreamDecoder
open Wire (Emission)

namespace Ts

def fromServer : Emission FrameHeader MIPError → Bool := Emission.fromServer MIPError.fault

theorem framing_bad_filter (v : Vector UInt8 headerSize) :
    (framing.bad v).filter fromServer = [] := by
  simp [framing,fromServer,Emission.fromServer,MIPError.fault]

theorem pass_wrong_magic {b : List UInt8} (hlen : headerSize ≤ b.length)
    (hmagic : BigEndian.field b 0 4 ≠ magic) :
    ∃ out rest, framing.decoder.pass b = .stop out rest := by
  have h : ¬b.length < framing.size := Nat.not_lt.mpr hlen
  have hhead : BigEndian.field (framing.head b h).toList 0 4 = BigEndian.field b 0 4 := by
    have hlist : (framing.head b h).toList = b.take headerSize := rfl
    simp [BigEndian.field,hlist,List.take_take,headerSize]
  have hgood : framing.good (framing.head b h) =
      decide (BigEndian.field (framing.head b h).toList 0 4 = magic) := rfl
  exact ⟨_,_,Framing.pass_bad h (by rw [hgood,hhead]; exact decide_eq_false hmagic)⟩

end Ts

namespace Py

def fromServer : Emission FrameHeader MIPError → Bool := Emission.fromServer MIPError.fault

theorem framing_bad_filter (v : Vector UInt8 headerSize) :
    (framing.bad v).filter fromServer = [] := by
  simp [framing,fromServer,Emission.fromServer,MIPError.fault]

theorem pass_wrong_magic {b : List UInt8} (hlen : headerSize ≤ b.length)
    (hmagic : BigEndian.field b 0 4 ≠ magic) :
    ∃ out rest, framing.decoder.pass b = .stop out rest := by
  have h : ¬b.length < framing.size := Nat.not_lt.mpr hlen
  have hhead : BigEndian.field (framing.head b h).toList 0 4 = BigEndian.field b 0 4 := by
    have hlist : (framing.head b h).toList = b.take headerSize := rfl
    simp [BigEndian.field,hlist,List.take_take,headerSize]
  have hgood : framing.good (framing.head b h) =
      decide (BigEndian.field (framing.head b h).toList 0 4 = magic) := rfl
  exact ⟨_,_,Framing.pass_bad h (by rw [hgood,hhead]; exact decide_eq_false hmagic)⟩

end Py

theorem filterMap_frame?_filter {H E : Type} (visible : Emission H E → Bool)
    (hv : ∀ h p, visible (.frame h p) = true) (out : List (Emission H E)) :
    (out.filter visible).filterMap Emission.frame? = out.filterMap Emission.frame? := by
  rw [List.filterMap_filter]
  congr 1
  funext e
  cases e with
  | frame h p => simp [hv]
  | _ => simp [Emission.frame?]

/-- The frame, event, message, ack, pong and server error callbacks and the close requests of both
handlers depend on the bytes alone; and after a wrong magic with 24 bytes buffered there is never
another frame callback. -/
theorem chunks_independent :
    (∀ cs cs' : List (List UInt8), cs.flatten = cs'.flatten →
      (Ts.handleChunks cs).out.filter Ts.fromServer =
        (Ts.handleChunks cs').out.filter Ts.fromServer) ∧
    (∀ cs cs' : List (List UInt8), cs.flatten = cs'.flatten →
      (Py.handleChunks cs).out.filter Py.fromServer =
        (Py.handleChunks cs').out.filter Py.fromServer) ∧
    (∀ before after : List (List UInt8),
      Ts.headerSize ≤ (Ts.handleChunks before).buffer.length →
      BigEndian.field (Ts.handleChunks before).buffer 0 4 ≠ Ts.magic →
      (Ts.handleChunks (before ++ after)).out.filterMap Emission.frame? =
        (Ts.handleChunks before).out.filterMap Emission.frame?) ∧
    (∀ before after : List (List UInt8),
      Py.headerSize ≤ (Py.handleChunks before).buffer.length →
      BigEndian.field (Py.handleChunks before).buffer 0 4 ≠ Py.magic →
      (Py.handleChunks (before ++ after)).out.filterMap Emission.frame? =
        (Py.handleChunks before).out.filterMap Emission.frame?) := by
  refine ⟨fun cs cs' h => Framing.feed_visible_congr rfl Ts.framing_bad_filter h,
    fun cs cs' h => Framing.feed_visible_congr rfl Py.framing_bad_filter h,?_,?_⟩
  · intro before after hlen hmagic
    obtain ⟨out,rest,hp⟩ := Ts.pass_wrong_magic hlen hmagic
    have h := feed_append_visible (Framing.steady rfl Ts.framing_bad_filter) hp after
    rw [← filterMap_frame?_filter Ts.fromServer fun _ _ => rfl,
      ← filterMap_frame?_filter Ts.fromServer (fun _ _ => rfl) (Ts.handleChunks before).out]
    exact congrArg _ h
  · intro before after hlen hmagic
    obtain ⟨out,rest,hp⟩ := Py.pass_wrong_magic hlen hmagic
    have h := feed_append_visible (Framing.steady rfl Py.framing_bad_filter) hp after
    rw [← filterMap_frame?_filter Py.fromServer fun _ _ => rfl,
      ← filterMap_frame?_filter Py.fromServer (fun _ _ => rfl) (Py.handleChunks before).out]
    exact congrArg _ h

end MipClients
