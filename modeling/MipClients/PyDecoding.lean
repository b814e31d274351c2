import MipClients.Delivery
import MipClients.Fragmentation
import MipClients.PyPassing

/-! The read loop of the Python client at work (`_read_loop` and `_handle_data` in
`mip_client/__init__.py`): since the last connection opened, the callbacks it has called for
received data are those that the decoder reports for the data. -/
namespace MipClients
namespace Py

open StreamDecoder Transition
open Wire (Emission Frame)

def State.received (s : State) : List (Emission FrameHeader MIPError) :=
  (s.log.filterMap Entry.received?).reverse

structure Unread (s t : State) : Prop where
  opened : t.opened = s.opened
  buffer : t.buffer = s.buffer
  received : t.received = s.received

namespace Unread

variable {s t u : State}

theorem refl (s : State) : Unread s s := ⟨rfl,rfl,rfl⟩

theorem trans (h : Unread s t) (h' : Unread t u) : Unread s u :=
  ⟨h'.opened.trans h.opened,h'.buffer.trans h.buffer,h'.received.trans h.received⟩

end Unread

namespace State

variable (s : State)

theorem record_received {e : Entry} :
    (s.record e).received = s.received ++ e.received?.toList := by
  rw [received,received,record,List.filterMap_cons]
  cases e.received? <;> simp

theorem passing_unread : Passing Unread where
  refl := Unread.refl
  trans := Unread.trans
  generateMsgId := fun _ _ => ⟨rfl,rfl,rfl⟩
  write := fun _ _ _ => ⟨rfl,rfl,rfl⟩
  update := ⟨rfl,rfl,rfl⟩
  record := fun s e he => by
    refine ⟨rfl,rfl,?_⟩
    rw [record_received,he,Option.toList_none,List.append_nil]
  setTask := fun _ _ _ _ => ⟨rfl,rfl,rfl⟩
  closeWriter := fun _ _ => ⟨rfl,rfl,rfl⟩
  drop := fun _ => ⟨rfl,rfl,rfl⟩

theorem readNext_unread (i : ℕ) : Unread s (s.readNext i) := by
  unfold readNext
  split <;> exact ⟨rfl,rfl,rfl⟩

theorem react_received (e : Emission FrameHeader MIPError) :
    (s.react e).opened = s.opened ∧ (s.react e).received = s.received ++ [e] := by
  have hrecord : (s.record (.received e)).received = s.received ++ [e] := s.record_received
  unfold react
  cases e with
  | close => exact ⟨rfl,hrecord⟩
  | error error =>
    dsimp only
    split
    · exact ⟨rfl,hrecord⟩
    · exact ⟨rfl,hrecord⟩
  | _ => exact ⟨rfl,hrecord⟩

theorem reacts_received (out : List (Emission FrameHeader MIPError)) :
    (out.foldl react s).opened = s.opened ∧ (out.foldl react s).received = s.received ++ out := by
  induction out generalizing s with
  | nil => exact ⟨rfl,(List.append_nil _).symm⟩
  | cons e out ih =>
    obtain ⟨hopened,hreceived⟩ := s.react_received e
    obtain ⟨ho,hr⟩ := ih (s.react e)
    rw [List.foldl_cons,ho,hr,hopened,hreceived,List.append_assoc]
    exact ⟨rfl,rfl⟩

theorem establish_opens : s.establish.opened = s.opened + 1 ∧ s.establish.buffer = [] ∧
    s.establish.received = s.received := by
  unfold establish setupPingInterval
  dsimp only
  split_ifs <;> exact ⟨rfl,rfl,rfl⟩

end State

inductive Decodes (s : State) (e : Event) (t : State) : Prop
  | goesOn (he : e.data? = none) (h : Unread s t)
  | emptied (he : e.data? = none) (ho : t.opened = s.opened + 1) (hbuffer : t.buffer = [])
      (hreceived : t.received = s.received)
  | received (data : List UInt8) (he : e.data? = some data) (ho : t.opened = s.opened)
      (hbuffer : t.buffer = (StreamDecoder.run framing.decoder (s.buffer ++ data)).buffer)
      (hreceived : t.received =
        s.received ++ (StreamDecoder.run framing.decoder (s.buffer ++ data)).out)

theorem handleData_decodes (s : State) (i : ℕ) (data : List UInt8) (message : String) :
    Decodes s (.read i (.data data message)) (s.handleData i data message) := by
  obtain ⟨hopened,hreceived⟩ :=
    s.reacts_received (StreamDecoder.run framing.decoder (s.buffer ++ data)).out
  have hrest {t : State} (ht : Unread
      { (StreamDecoder.run framing.decoder (s.buffer ++ data)).out.foldl State.react s with
        buffer := (StreamDecoder.run framing.decoder (s.buffer ++ data)).buffer } t) :
      Decodes s (.read i (.data data message)) t :=
    .received data rfl (ht.opened.trans hopened) ht.buffer (ht.received.trans hreceived)
  unfold State.handleData
  dsimp only
  split_ifs
  · exact hrest (State.passing_unread.readFailed _ i message)
  · exact hrest (State.readNext_unread _ i)

theorem step_decodes {s t : State} {e : Event} (h : step s e = some t) : Decodes s e t := by
  cases step_passage h with
  | passes he _ h => exact .goesOn he (h _ State.passing_unread)
  | checks i => exact .goesOn rfl (s.readNext_unread i)
  | handles i c data message => exact handleData_decodes s i data message
  | opens i connectCalls raised now h =>
    obtain ⟨ho,hbuffer,hreceived⟩ := s.establish_opens
    have hrest := h _ State.passing_unread
    exact .emptied rfl (hrest.opened.trans ho) (hrest.buffer.trans hbuffer)
      (hrest.received.trans hreceived)

/-- The client with the record of the data it is handed since the last connection opened. -/
def decodingStep : State × Stream → Event → Option (State × Stream) :=
  recorded step fun r s e t => r.next (s.opened < t.opened) t.received.length e.data?

/-- The callbacks and the buffer are the decoder's, unless it has raised. -/
structure Decoding (x : State × Stream) : Prop where
  base : x.2.base ≤ x.1.received.length
  decoded : (handleChunks x.2.chunks).raised = false →
    x.1.received.drop x.2.base = (handleChunks x.2.chunks).out ∧
      x.1.buffer = (handleChunks x.2.chunks).buffer

theorem Decoding.step {x y : State × Stream} {e : Event} (hI : Decoding x)
    (h : decodingStep x e = some y) : Decoding y := by
  obtain ⟨hstep,hrecord⟩ := recorded_eq_some h
  obtain ⟨t,r⟩ := y
  have hstep : Py.step x.1 e = some t := hstep
  have hrecord : r = x.2.next (x.1.opened < t.opened) t.received.length e.data? := hrecord
  subst hrecord
  cases step_decodes hstep with
  | goesOn he h =>
    rw [Stream.next,if_neg (by rw [h.opened]; exact lt_irrefl _),he,Option.toList_none,
      List.append_nil]
    refine ⟨h.received ▸ hI.base,fun hr => ?_⟩
    rw [h.received,h.buffer]
    exact hI.decoded hr
  | emptied he ho hbuffer hreceived =>
    rw [Stream.next,if_pos (by rw [ho]; exact Nat.lt_succ_self _)]
    refine ⟨le_rfl,fun _ => ⟨?_,hbuffer⟩⟩
    rw [List.drop_length]
    rfl
  | received data he ho hbuffer hreceived =>
    rw [Stream.next,if_neg (by rw [ho]; exact lt_irrefl _),he,Option.toList_some]
    refine ⟨?_,fun hr => ?_⟩
    · rw [hreceived,List.length_append]
      exact hI.base.trans (Nat.le_add_right _ _)
    · have hbefore : (handleChunks x.2.chunks).raised = false := by
        by_contra hraised
        have hraised : (feed framing.decoder [] x.2.chunks).raised = true :=
          Bool.not_eq_false _ ▸ hraised
        rw [handleChunks,feed_append,if_pos hraised] at hr
        cases hraised.symm.trans hr
      obtain ⟨hout,hkept⟩ := hI.decoded hbefore
      have hconcat : handleChunks (x.2.chunks ++ [data]) =
          (StreamDecoder.run framing.decoder (x.1.buffer ++ data)).after
            (handleChunks x.2.chunks).out := by
        rw [handleChunks,feed_concat hbefore,hkept]
        rfl
      rw [hconcat,Result.after_out,hreceived,hbuffer,List.drop_append_of_le_length hI.base,hout]
      exact ⟨rfl,rfl⟩

theorem Decoding.frames {x : State × Stream} (hI : Decoding x) {sent : List Frame}
    (htext : ∀ f ∈ sent, f.TextValid)
    (hsent : x.2.chunks.flatten <+: sent.flatMap Frame.bytes) :
    ∃ whole later tail, sent = whole ++ later ∧
      x.2.chunks.flatten = whole.flatMap Frame.bytes ++ tail ∧
      (tail = [] ∨ ∃ next after rest, later = next :: after ∧ next.bytes = tail ++ rest ∧
        rest ≠ []) ∧
      ((x.1.received.drop x.2.base).filterMap Emission.frame?).map (fun p => (p.1.info,p.2)) =
        whole.map (fun f => (f.info,f.payload)) ∧
      x.1.buffer = tail := by
  obtain ⟨whole,later,tail,hsplit,hbytes,hcut,hframes,htail,hraised,-⟩ :=
    Client.python.reads (fun _ => htext) x.2.chunks hsent
  obtain ⟨hout,hbuffer⟩ := hI.decoded hraised
  refine ⟨whole,later,tail,hsplit,hbytes,hcut,?_,hbuffer.trans htail⟩
  rw [← hframes,hout]
  exact (Emission.filterMap_frame?_map _ _ _).symm

/-- In every run, since the last connection opened: unless `_handle_data` has raised, the callbacks
called for received data are those that the decoder reports for the data, and the buffer is the
decoder's. If the data is the beginning of a stream of frames with valid text, it has not raised,
and `on_frame` has been called once for each frame that has arrived whole, in order and with what
was sent. -/
theorem read_loops_decode (options : Options) (events : List Event) :
    ∀ x ∈ states decodingStep (init options,{}) events,
      ((handleChunks x.2.chunks).raised = false →
        x.1.received.drop x.2.base = (handleChunks x.2.chunks).out ∧
        x.1.buffer = (handleChunks x.2.chunks).buffer) ∧
      ∀ sent : List Frame, (∀ f ∈ sent, f.TextValid) →
        x.2.chunks.flatten <+: sent.flatMap Frame.bytes →
        ∃ whole later tail, sent = whole ++ later ∧
          x.2.chunks.flatten = whole.flatMap Frame.bytes ++ tail ∧
          (tail = [] ∨ ∃ next after rest, later = next :: after ∧ next.bytes = tail ++ rest ∧
            rest ≠ []) ∧
          ((x.1.received.drop x.2.base).filterMap Emission.frame?).map
              (fun p => (p.1.info,p.2)) = whole.map (fun f => (f.info,f.payload)) ∧
          x.1.buffer = tail := by
  intro x hx
  have hI : Decoding x := Transition.invariant (fun _ _ _ hI h => hI.step h)
    ⟨Nat.zero_le _,fun _ => ⟨rfl,rfl⟩⟩ events x hx
  exact ⟨hI.decoded,fun sent htext hsent => hI.frames htext hsent⟩

def partsRun : List Event :=
  [.connectCall,.opened 0 [] none 0,.start 1,
    .read 1 (.data (Wire.headerBytes Wire.FrameType.ack.code 0 1 0 7 ++
      (Wire.headerBytes Wire.FrameType.pong.code 0 1 0 8).take 5) ""),
    .read 1 (.data ((Wire.headerBytes Wire.FrameType.pong.code 0 1 0 8).drop 5) "")]

theorem read_loops_decode_parts : ∃ x ∈ run decodingStep (init {},{}) partsRun,
    x.1.received.length = 4 ∧ x.1.received.drop x.2.base = (handleChunks x.2.chunks).out := by
  have hrun : ∃ x ∈ run decodingStep (init {},{}) partsRun,
      x.1.received.length = 4 ∧ (handleChunks x.2.chunks).raised = false := by
    decide +kernel
  obtain ⟨x,hx,hn,hraised⟩ := hrun
  exact ⟨x,hx,hn,((read_loops_decode {} partsRun x (run_mem_states hx)).1 hraised).1⟩

end Py
end MipClients
