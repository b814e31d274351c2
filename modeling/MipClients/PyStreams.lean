import MipClients.PyDecoding

/-! One connection's bytes and the next one's (`connect`, `_read_loop` and `_handle_data` in
`mip_client/__init__.py`): all read loops share the buffer, and a read loop that waits for data of a
connection goes on waiting when another opens. -/
namespace MipClients
namespace Py

open StreamDecoder Transition
open Wire (Emission)

/-- No connection opens while a read loop waits for data. -/
def OpensAlone (s : State) (e : Event) : Prop :=
  e.opens = true → ∀ i c, s.tasks i ≠ .live (.reading c)

/-- What the read loops wait for, and what they are to read next, is the latest connection. -/
structure Latest (s : State) : Prop where
  reading : ∀ i c, s.tasks i = .live (.reading c) → c + 1 = s.opened
  reader : ∀ c, s.reader = some c → c + 1 = s.opened

/-- No read loop comes to wait for data, no connection opens, and the reader is at most dropped. -/
structure Loops (s t : State) : Prop where
  reading : ∀ i c, t.tasks i = .live (.reading c) → s.tasks i = .live (.reading c)
  reader : ∀ c, t.reader = some c → s.reader = some c
  opened : t.opened = s.opened

theorem Loops.latest {s t : State} (h : Loops s t) (hs : Latest s) : Latest t where
  reading := fun i c hi => h.opened ▸ hs.reading i c (h.reading i c hi)
  reader := fun c hc => h.opened ▸ hs.reader c (h.reader c hc)

namespace State

variable (s : State)

theorem passing_loops : Passing Loops where
  refl := fun _ => ⟨fun _ _ => id,fun _ => id,rfl⟩
  trans := fun h h' => ⟨fun i c => h.reading i c ∘ h'.reading i c,fun c => h.reader c ∘ h'.reader c,
    h'.opened.trans h.opened⟩
  generateMsgId := fun _ _ => ⟨fun _ _ => id,fun _ => id,rfl⟩
  write := fun _ _ _ => ⟨fun _ _ => id,fun _ => id,rfl⟩
  update := ⟨fun _ _ => id,fun _ => id,rfl⟩
  record := fun _ _ _ => ⟨fun _ _ => id,fun _ => id,rfl⟩
  setTask := fun s i status h => by
    refine ⟨fun j c hj => ?_,fun _ => id,rfl⟩
    by_cases hji : j = i
    · refine absurd ?_ (h c)
      simpa [hji] using hj
    · simpa [hji] using hj
  closeWriter := fun _ _ => ⟨fun _ _ => id,fun _ => id,rfl⟩
  drop := fun _ => ⟨fun _ _ => id,fun _ h => (by cases h),rfl⟩

theorem readNext_latest {s : State} (h : Latest s) (i : ℕ) : Latest (s.readNext i) := by
  unfold readNext
  split
  · next c _ hc =>
    refine ⟨fun j d hj => ?_,h.reader⟩
    by_cases hji : j = i
    · have hd : Status.live (.reading c) = .live (.reading d) := by
        simpa [hji] using hj
      cases hd
      exact h.reader c hc
    · exact h.reading j d (by simpa [hji] using hj)
  · have hset : Loops s (s.setTask i .returned) := passing_loops.setTask s i fun _ h => (by cases h)
    exact hset.latest h

theorem react_loops (e : Emission FrameHeader MIPError) : Loops s (s.react e) := by
  have hr : Loops s (s.record (.received e)) := ⟨fun _ _ => id,fun _ => id,rfl⟩
  unfold react
  cases e with
  | close =>
    have hc := passing_loops.createTask (s.record (.received .close)) .handleCloseStart nofun
    exact passing_loops.trans (passing_loops.trans hr hc) passing_loops.update
  | error error =>
    dsimp only
    split
    · exact passing_loops.trans hr (passing_loops.closeWriter _ _)
    · exact hr
  | _ => exact hr

theorem handleData_latest {s : State} (h : Latest s) (i : ℕ) (data : List UInt8)
    (message : String) : Latest (s.handleData i data message) := by
  have hreacts := foldl_related passing_loops.refl passing_loops.trans react_loops
    (StreamDecoder.run framing.decoder (s.buffer ++ data)).out s
  have hread : Latest
      { (StreamDecoder.run framing.decoder (s.buffer ++ data)).out.foldl react s with
        buffer := (StreamDecoder.run framing.decoder (s.buffer ++ data)).buffer } :=
    ⟨(hreacts.latest h).reading,(hreacts.latest h).reader⟩
  unfold handleData
  dsimp only
  split_ifs
  · exact (passing_loops.readFailed _ i message).latest hread
  · exact readNext_latest hread i

theorem establish_latest (h : ∀ i c, s.tasks i ≠ .live (.reading c)) : Latest s.establish := by
  let t := { s with
    reader := some s.opened
    writer := some s.opened
    connections := Function.update s.connections s.opened {}
    opened := s.opened + 1
    connected := true
    reconnectAttempts := 0
    buffer := [] }
  have ht : Latest t :=
    ⟨fun i c hi => absurd hi (h i c),fun c hc => by cases hc; rfl⟩
  have hread : Latest { t.createTask .readLoopStart with readTask := some t.nextTask } :=
    (passing_loops.trans (passing_loops.createTask t .readLoopStart nofun)
      passing_loops.update).latest ht
  have hping (u : State) : Loops u u.setupPingInterval := by
    unfold setupPingInterval
    split_ifs
    · exact passing_loops.trans (passing_loops.createTask u .pingLoopStart nofun)
        passing_loops.update
    · exact passing_loops.refl u
  exact (passing_loops.trans (hping _) (passing_loops.record _ rfl)).latest hread

end State

theorem Latest.step {s t : State} {e : Event} (hI : Latest s) (he : OpensAlone s e)
    (h : Py.step s e = some t) : Latest t := by
  cases step_passage h with
  | passes _ _ h => exact (h _ State.passing_loops).latest hI
  | checks i => exact State.readNext_latest hI i
  | handles i c data message => exact State.handleData_latest hI i data message
  | opens i connectCalls raised now h =>
    exact (h _ State.passing_loops).latest (s.establish_latest (he rfl))

/-! The record of what has been read, for each connection. -/

/-- The chunks read on each connection, and how many callbacks had been called for data when the
latest one opened. -/
structure Readings where
  chunks : ℕ → List (List UInt8) := fun _ => []
  base : ℕ := 0

def Readings.next (r : Readings) (s : State) (e : Event) (t : State) : Readings where
  chunks := match e with
    | .read i (.data data _) =>
      match s.tasks i with
      | .live (.reading c) => Function.update r.chunks c (r.chunks c ++ [data])
      | _ => r.chunks
    | _ => r.chunks
  base := if s.opened < t.opened then t.received.length else r.base

def readingStep : State × Readings → Event → Option (State × Readings) :=
  recorded step Readings.next

def Readings.latest (r : Readings) (s : State) : Stream := ⟨r.chunks (s.opened - 1),r.base⟩

theorem Readings.next_base (r : Readings) (s : State) (e : Event) (t : State) :
    (r.next s e t).base = if s.opened < t.opened then t.received.length else r.base := rfl

theorem Readings.next_of_none {r : Readings} {s t : State} {e : Event} (he : e.data? = none) :
    (r.next s e t).chunks = r.chunks := by
  unfold next
  dsimp only
  split
  · cases he
  · rfl

theorem Readings.next_of_reading {r : Readings} {s t : State} {i c : ℕ}
    (hi : s.tasks i = .live (.reading c)) (data : List UInt8) (message : String) :
    (r.next s (.read i (.data data message)) t).chunks =
      Function.update r.chunks c (r.chunks c ++ [data]) := by
  simp only [next,hi]

/-- The buffer, and the callbacks called for data, are those of the latest connection alone. -/
structure Apart (x : State × Readings) : Prop where
  latest : Latest x.1
  unread : ∀ c, x.1.opened ≤ c → x.2.chunks c = []
  decoding : Decoding (x.1,x.2.latest x.1)

theorem Apart.next_latest {s t : State} {r : Readings} {e : Event} (hI : Apart (s,r))
    (h : Py.step s e = some t) : (r.next s e t).latest t =
      (r.latest s).next (s.opened < t.opened) t.received.length e.data? := by
  have hsame (ho : t.opened = s.opened) : ¬s.opened < t.opened := ho ▸ lt_irrefl _
  have hnone (ho : t.opened = s.opened) (he : e.data? = none) : (r.next s e t).latest t =
      (r.latest s).next (s.opened < t.opened) t.received.length e.data? := by
    rw [Stream.next,if_neg (hsame ho),he,Option.toList_none,List.append_nil,Readings.latest,
      Readings.next_of_none he,Readings.next_base,ho,if_neg (lt_irrefl _)]
    rfl
  cases step_passage h with
  | passes he _ h => exact hnone (h _ State.passing_unread).opened he
  | checks i => exact hnone (s.readNext_unread i).opened rfl
  | handles i c data message hi =>
    have ho : (s.handleData i data message).opened = s.opened := by
      cases handleData_decodes s i data message with
      | goesOn he => cases he
      | emptied he => cases he
      | received _ _ ho => exact ho
    have hc : s.opened - 1 = c := by rw [← hI.latest.reading i c hi]; rfl
    rw [Stream.next,if_neg (hsame ho),Readings.latest,Readings.next_of_reading hi,ho,hc,
      Function.update_self,Readings.next_base,if_neg (hsame ho),Readings.latest,hc]
    rfl
  | opens i connectCalls raised now h =>
    have ho : t.opened = s.opened + 1 := (h _ State.passing_unread).opened.trans s.establish_opens.1
    have hlt : s.opened < t.opened := ho ▸ Nat.lt_succ_self _
    rw [Stream.next,if_pos hlt,Readings.latest,Readings.next_of_none rfl,ho,Nat.add_sub_cancel,
      hI.unread _ le_rfl,Readings.next_base,if_pos hlt]

theorem Apart.step {x y : State × Readings} {e : Event} (hI : Apart x) (he : OpensAlone x.1 e)
    (h : readingStep x e = some y) : Apart y := by
  obtain ⟨s,r⟩ := x
  obtain ⟨t,r'⟩ := y
  obtain ⟨hstep,hrecord⟩ := recorded_eq_some h
  have hstep : Py.step s e = some t := hstep
  obtain rfl : r' = r.next s e t := hrecord
  refine ⟨hI.latest.step he hstep,fun c hc => ?_,?_⟩
  · have hopened : s.opened ≤ t.opened := by
      cases step_decodes hstep with
      | goesOn _ h => exact h.opened.ge
      | emptied _ ho => exact ho ▸ Nat.le_succ _
      | received _ _ ho => exact ho.ge
    have hbefore := hI.unread c (hopened.trans hc)
    cases hd : e.data? with
    | none => exact (congrFun (Readings.next_of_none hd) c).trans hbefore
    | some data =>
      cases step_passage hstep with
      | passes he => cases he.symm.trans hd
      | checks => cases hd
      | opens => cases hd
      | handles i d data message hi =>
        have hd := hI.latest.reading i d hi
        have hne : c ≠ d := by
          rintro rfl
          dsimp only at hc hd hopened
          omega
        dsimp only
        rw [Readings.next_of_reading hi,Function.update_of_ne hne]
        exact hbefore
  · have hdecoding : decodingStep (s,r.latest s) e = some (t,(r.next s e t).latest t) := by
      rw [hI.next_latest hstep,decodingStep,recorded,hstep]
      rfl
    exact hI.decoding.step hdecoding

/-- In every run in which no connection opens while a read loop waits for data: every read loop that
waits for data waits for that of the latest connection, and unless `_handle_data` has raised, the
callbacks called for data since the connection opened are what the decoder reports for the data read
on it alone, with the decoder's buffer. -/
theorem connections_apart (options : Options) (events : List Event)
    (hopens : ∀ p ∈ steps step (init options) events, OpensAlone p.1 p.2) :
    ∀ x ∈ states readingStep (init options,{}) events,
      (∀ i c, x.1.tasks i = .live (.reading c) → c + 1 = x.1.opened) ∧
      ((handleChunks (x.2.chunks (x.1.opened - 1))).raised = false →
        x.1.received.drop x.2.base = (handleChunks (x.2.chunks (x.1.opened - 1))).out ∧
        x.1.buffer = (handleChunks (x.2.chunks (x.1.opened - 1))).buffer) := by
  intro x hx
  have hI : Apart x := invariant_of_steps (I := Apart) (C := fun x e => OpensAlone x.1 e)
    (fun _ _ _ hI he h => hI.step he h)
    ⟨⟨fun _ _ hi => (by cases hi),fun _ hc => (by cases hc)⟩,fun _ _ => rfl,
      ⟨Nat.zero_le _,fun _ => ⟨rfl,rfl⟩⟩⟩
    ((forall_steps_recorded Readings.next (init options,{}) events).mpr hopens) x hx
  exact ⟨hI.latest.reading,hI.decoding.decoded⟩

def reopenedRun : List Event :=
  [.connectCall,.opened 0 [] none (-5),.start 1,.connectCall,.opened 2 [] none 0,.start 3,
    .read 3 (.data (Wire.headerBytes Wire.FrameType.pong.code 0 1 0 8) "")]

theorem opensAlone_reopenedRun : ∀ p ∈ steps step (init {}) reopenedRun, OpensAlone p.1 p.2 := by
  unfold reopenedRun
  iterate 7 rw [steps_cons rfl,List.forall_mem_cons]
  refine ⟨nofun,?_,nofun,nofun,?_,nofun,nofun,fun _ hp => absurd hp List.not_mem_nil⟩
  · rintro - (_ | i) c hi <;> cases hi
  · rintro - (_ | _ | _ | i) c hi <;> cases hi

theorem connections_apart_reopened : ∃ x ∈ run readingStep (init {},{}) reopenedRun,
    x.1.opened = 2 ∧ x.1.received.drop x.2.base = (handleChunks (x.2.chunks 1)).out ∧
      (handleChunks (x.2.chunks 1)).out.length = 2 := by
  have hrun : ∃ x ∈ run readingStep (init {},{}) reopenedRun, x.1.opened = 2 ∧
      (handleChunks (x.2.chunks (x.1.opened - 1))).raised = false ∧
      (handleChunks (x.2.chunks 1)).out.length = 2 := by
    decide +kernel
  obtain ⟨x,hx,hopened,hraised,hlength⟩ := hrun
  have hdecoded := (connections_apart {} reopenedRun opensAlone_reopenedRun x
    (run_mem_states hx)).2 hraised
  rw [hopened] at hdecoded
  exact ⟨x,hx,hopened,hdecoded.1,hlength⟩

end Py
end MipClients
