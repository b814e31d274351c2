import MipClients.RustDelivery
import MipClients.RustSession

/-! The start of every connection of the Rust client (`connect()` in `client/mod.rs`): HELLO with
the client's id goes before the frames of all calls, and only the ping task, which is spawned
earlier, can overtake it. -/
namespace MipClients
namespace Rust

open State Transition
open Utf8 (Text)

/-- A sending method borrows the client, which `connect()` and `disconnect()` have for themselves.
-/
def Shared (s : State) (e : Event) : Prop := e.actor.isCaller = true → s.owner = .idle

instance (s : State) (e : Event) : Decidable (Shared s e) := inferInstanceAs (Decidable (_ → _))

/-- What comes before HELLO are PINGs of the ping task, so that there is at most one HELLO; whatever
else there is comes behind it. -/
structure HelloFirst (clientId : Text) (xs : List (Source × List UInt8)) : Prop where
  hello : ∀ before data after, xs = before ++ (.connect,data) :: after →
    (∃ msgId, data = frameBytes .hello (Utf8.encode clientId) FrameFlags.none msgId) ∧
      ∀ x ∈ before, x.1 = .ping
  later : ∀ before source data after, xs = before ++ (source,data) :: after → source ≠ .connect →
    source ≠ .ping → ∃ hello, (.connect,hello) ∈ before

theorem HelloFirst.nil (clientId : Text) : HelloFirst clientId [] :=
  ⟨fun _ _ _ h => by simp at h,fun _ _ _ _ h => by simp at h⟩

theorem HelloFirst.of_cut {clientId : Text} {xs ys : List (Source × List UInt8)}
    (h : HelloFirst clientId ys) (hp : xs <+: ys) : HelloFirst clientId xs := by
  obtain ⟨rest,rfl⟩ := hp
  refine ⟨fun before data after hx => h.hello before data (after ++ rest) ?_,
    fun before source data after hx => h.later before source data (after ++ rest) ?_⟩ <;>
  · rw [hx,List.append_assoc]
    rfl

theorem HelloFirst.append {clientId : Text} {xs : List (Source × List UInt8)}
    (h : HelloFirst clientId xs) {source : Source} {data : List UInt8}
    (hhello : source = .connect →
      (∃ msgId, data = frameBytes .hello (Utf8.encode clientId) FrameFlags.none msgId) ∧
        ∀ x ∈ xs, x.1 = .ping)
    (hlater : source ≠ .connect → source ≠ .ping → ∃ hello, (.connect,hello) ∈ xs) :
    HelloFirst clientId (xs ++ [(source,data)]) := by
  have hsplit {before after : List (Source × List UInt8)} {y : Source × List UInt8}
      (hx : xs ++ [(source,data)] = before ++ y :: after) :
      before = xs ∧ y = (source,data) ∨ ∃ init, xs = before ++ y :: init := by
    rcases List.eq_nil_or_concat after with rfl | ⟨init,z,rfl⟩
    · obtain ⟨rfl,hy⟩ := List.append_inj' hx rfl
      exact .inl ⟨rfl,(List.singleton_inj.mp hy).symm⟩
    · rw [List.concat_eq_append,← List.cons_append,← List.append_assoc] at hx
      exact .inr ⟨init,(List.append_inj' hx rfl).1⟩
  constructor
  · intro before d after hx
    rcases hsplit hx with ⟨rfl,hy⟩ | ⟨init,hinit⟩
    · cases hy
      exact hhello rfl
    · exact h.hello before d init hinit
  · intro before other d after hx hc hp
    rcases hsplit hx with ⟨rfl,hy⟩ | ⟨init,hinit⟩
    · cases hy
      exact hlater hc hp
    · exact h.later before other d init hinit hc hp

theorem HelloFirst.pings {clientId : Text} {xs : List (Source × List UInt8)}
    (h : HelloFirst clientId xs) (hno : ∀ hello, (.connect,hello) ∉ xs) :
    ∀ x ∈ xs, x.1 = .ping := by
  intro x hx
  obtain ⟨before,after,rfl⟩ := List.append_of_mem hx
  by_cases hc : x.1 = .connect
  · obtain ⟨source,data⟩ := x
    cases hc
    exact absurd hx (hno data)
  · by_contra hp
    obtain ⟨hello,hmem⟩ := h.later before x.1 x.2 after rfl hc hp
    exact hno hello (List.mem_append_left _ hmem)

def Caller.sender? : Caller → Option ℕ
  | .idle => none
  | .checked _ c | .idTaken _ c _ => some c

theorem step_sender {s t : State} {e : Event} (h : step s e = some t) {k c : ℕ}
    (ht : (t.callers k).sender? = some c) :
    (s.callers k).sender? = some c ∨ s.sender = some c ∧ e.actor = .caller k := by
  by_cases ha : ∃ j, e.actor = .caller j
  swap
  · rw [(step_move h).callers fun j hj => ha ⟨j,hj⟩] at ht
    exact .inl ht
  have hset (j : ℕ) (caller : Caller) (callers : ℕ → Caller)
      (hj : callers = Function.update s.callers j caller)
      (hc : (callers k).sender? = some c) :
      (s.callers k).sender? = some c ∨ k = j ∧ caller.sender? = some c := by
    by_cases hkj : k = j
    · subst hkj
      rw [hj,Function.update_self] at hc
      exact .inr ⟨rfl,hc⟩
    · rw [hj,Function.update_of_ne hkj] at hc
      exact .inl hc
  cases e with
  | call j call =>
    obtain ⟨-,h⟩ := Option.ite_none_right_eq_some.mp h
    cases h
    unfold startCall at ht
    cases hs : s.sender with
    | none =>
      rw [hs] at ht
      rcases hset j .idle _ rfl ht with hc | ⟨-,hc⟩
      · exact .inl hc
      · cases hc
    | some d =>
      rw [hs] at ht
      rcases hset j (.checked call d) _ rfl ht with hc | ⟨rfl,hc⟩
      · exact .inl hc
      · exact .inr ⟨hc,rfl⟩
  | sendFrame j now =>
    simp only [step,State.sendFrame] at h
    cases hj : s.callers j with
    | idle =>
      rw [hj] at h
      cases h
    | checked call d =>
      rw [hj] at h
      cases h
      rcases hset j (.idTaken call d _) _ rfl ht with hc | ⟨rfl,hc⟩
      · exact .inl hc
      · cases hc
        exact .inl (by rw [hj]; rfl)
    | idTaken call d msgId =>
      rw [hj] at h
      dsimp only at h
      split at h <;>
      · cases h
        rcases hset j .idle _ rfl ht with hc | ⟨-,hc⟩
        · exact .inl hc
        · cases hc
  | _ =>
    obtain ⟨j,hj⟩ := ha
    cases hj

/-- A caller changes no connection but that of the sender it has taken. -/
theorem step_caller_connection {s t : State} {e : Event} (h : step s e = some t) {k c : ℕ}
    (ha : e.actor = .caller k) (hne : t.connections c ≠ s.connections c) :
    (s.callers k).sender? = some c := by
  cases e with
  | call j call =>
    obtain ⟨-,h⟩ := Option.ite_none_right_eq_some.mp h
    cases h
    unfold startCall at hne
    cases hs : s.sender with
    | none =>
      rw [hs] at hne
      exact absurd rfl hne
    | some d =>
      rw [hs] at hne
      exact absurd rfl hne
  | sendFrame j now =>
    cases ha
    simp only [step,State.sendFrame] at h
    cases hj : s.callers k with
    | idle =>
      rw [hj] at h
      cases h
    | checked call d =>
      rw [hj] at h
      cases h
      exact absurd rfl hne
    | idTaken call d msgId =>
      rw [hj] at h
      dsimp only at h
      split at h
      · cases h
        by_cases hcd : c = d
        · rw [hcd]
          rfl
        · exact absurd (Function.update_of_ne hcd _ _) hne
      · cases h
        exact absurd rfl hne
  | _ => cases ha

def Owner.closeDue : Owner → Option ℕ
  | .closeChecked c | .sendingClose c _ => some c
  | _ => none

theorem OwnerMove.closeDue {s t : State} (h : OwnerMove s t) {c : ℕ}
    (ht : t.owner.closeDue = some c) : s.owner.closeDue = some c ∨
      s.owner = .stopped ∧ t.owner = .closeChecked c := by
  cases h with
  | connected => exact .inl ht
  | closeChecked d ho =>
    cases ht
    exact .inr ⟨ho,rfl⟩
  | sendingClose d now frame ho =>
    cases ht
    exact .inl (by rw [ho]; rfl)
  | _ => cases ht

theorem OwnerMove.greets_before {s t : State} (h : OwnerMove s t) {c : ℕ}
    (hg : t.owner.greets = true) (ht : t.owner.connection = some c) :
    s.owner.greets = true ∧ s.owner.connection = some c ∨ c = s.opened := by
  cases h with
  | connected => exact .inl ⟨hg,ht⟩
  | tcpConnected =>
    cases ht
    exact .inr rfl
  | stored d ho | readSpawned d ho | writeSpawned d ho | onConnect d ho | helloChecked d ho =>
    cases ht
    exact .inl (by rw [ho]; exact ⟨rfl,rfl⟩)
  | pingSpawned d ho =>
    cases ht
    exact .inl (by rw [ho]; exact ⟨rfl,rfl⟩)
  | helloBuilt d now frame ho =>
    cases ht
    exact .inl (by rw [ho]; exact ⟨rfl,rfl⟩)
  | helloRefused | helloRejected => cases ht
  | _ => cases hg

theorem OwnerMove.hello_over {s t : State} (h : OwnerMove s t) {c : ℕ} {msgId : UInt64}
    {frame : List UInt8} (ho : s.owner = .helloBuilt c msgId frame) :
    t.owner.connection = none := by
  cases h with
  | helloAccepted d m f k hd => rfl
  | helloRejected d m f hd => rfl
  | closeSent d f k hd | disconnectSent d k hd => cases hd.symm.trans ho
  | connected hd => cases hd.symm.trans ho
  | _ =>
    rename_i hd
    cases hd.symm.trans ho

structure Greeting (clientId : Text) (s : State) : Prop where
  session : Session s
  composing : Composing clientId (fun _ => True) s
  due : ∀ c, Greeted s c → c < s.opened ∧
    (s.owner.greets = true → s.owner.connection ≠ some c)
  closing : ∀ c, s.owner.closeDue = some c → Greeted s c
  callers : ∀ k c, (s.callers k).sender? = some c → Greeted s c
  first : ∀ c, HelloFirst clientId (sends (s.connections c).commands.accepted)

section Step

variable {clientId : Text} {s t : State} {e : Event}

theorem Greeting.due_next (hI : Greeting clientId s) (h : Rust.step s e = some t) {c : ℕ}
    (hc : Greeted t c) : c < t.opened ∧ (t.owner.greets = true → t.owner.connection ≠ some c) := by
  have hle := (step_move h).opened_le
  by_cases hs : Greeted s c
  · obtain ⟨hlt,hdue⟩ := hI.due c hs
    refine ⟨hlt.trans_le hle,fun hg ht => ?_⟩
    rcases (step_move h).owner_or with hm | ⟨ho,-⟩
    · rcases hm.greets_before hg ht with ⟨hgs,hconn⟩ | rfl
      · exact hdue hgs hconn
      · exact lt_irrefl _ hlt
    · exact hdue (ho ▸ hg) (ho ▸ ht)
  · obtain ⟨frame,hframe⟩ := hc
    obtain ⟨xs,hflow,-⟩ := (step_move h).flow c
    rw [hflow.accepted] at hframe
    rcases List.mem_append.mp hframe with hold | hnew
    · exact absurd ⟨frame,hold⟩ hs
    rcases hflow.enqueues with rfl | ⟨x,rfl,he,-⟩
    · cases hnew
    obtain rfl := List.mem_singleton.mp hnew
    have hmove := step_move h
    generalize e.actor = a at he hmove
    cases he with
    | hello msgId frame ho =>
      cases hmove with
      | owner hm =>
        have hsender := hI.session.stage.inHand c (by rw [ho]; rfl)
        have hlatest := hI.session.stage.sender c hsender
        refine ⟨by omega,fun _ ht => ?_⟩
        rw [hm.hello_over ho] at ht
        cases ht

theorem Greeting.closing_next (hI : Greeting clientId s) (h : Rust.step s e = some t) {c : ℕ}
    (hc : t.owner.closeDue = some c) : Greeted t c := by
  rcases (step_move h).owner_or with hm | ⟨ho,-⟩
  · rcases hm.closeDue hc with hs | ⟨ho,hto⟩
    · exact (step_move h).greeted (hI.closing c hs)
    · obtain ⟨hsender,hconn⟩ := step_stopped h ho (c := c) (by rw [hto]; rfl)
      exact (hI.session.step h).greeted (hconn hto) (by rw [hto]; rfl) c hsender
  · exact (step_move h).greeted (hI.closing c (ho ▸ hc))

theorem Greeting.callers_next (hI : Greeting clientId s) (hB : Shared s e)
    (h : Rust.step s e = some t) {k c : ℕ} (hc : (t.callers k).sender? = some c) :
    Greeted t c := by
  rcases step_sender h hc with hs | ⟨hs,ha⟩
  · exact (step_move h).greeted (hI.callers k c hs)
  · have ho := hB (by rw [ha]; rfl)
    obtain ⟨hconn,hsender⟩ := Option.ite_none_right_eq_some.mp hs
    exact (step_move h).greeted (hI.session.greeted hconn (by rw [ho]; rfl) c hsender)

theorem Greeting.first_next (hI : Greeting clientId s) (h : Rust.step s e = some t) (c : ℕ) :
    HelloFirst clientId (sends (t.connections c).commands.accepted) := by
  obtain ⟨xs,hflow,-⟩ := (step_move h).flow c
  have hacc := hflow.accepted
  rw [hacc,sends_append]
  have hgreeted (hs : Greeted s c) :
      ∃ hello, (.connect,hello) ∈ sends (s.connections c).commands.accepted := by
    obtain ⟨frame,hframe⟩ := hs
    exact ⟨frame,mem_sends.mpr hframe⟩
  rcases hflow.enqueues with rfl | ⟨x,rfl,he,-⟩
  · exact (List.append_nil (sends _)).symm ▸ hI.first c
  generalize ha : e.actor = a at he
  cases he with
  | hello msgId frame ho =>
    refine (hI.first c).append (fun _ => ⟨?_,?_⟩) fun hne => absurd rfl hne
    · exact ⟨msgId,hI.composing.hello c msgId frame ho⟩
    · refine (hI.first c).pings fun hello hmem => ?_
      exact (hI.due c ⟨hello,mem_sends.mp hmem⟩).2 (by rw [ho]; rfl) (by rw [ho]; rfl)
  | close frame ho =>
    exact (hI.first c).append (fun hc => by cases hc) fun _ _ =>
      hgreeted (hI.closing c (by rw [ho]; rfl))
  | disconnect ho => exact (List.append_nil (sends _)).symm ▸ hI.first c
  | caller k data =>
    refine (hI.first c).append (fun hc => by cases hc) fun _ _ => hgreeted (hI.callers k c ?_)
    refine step_caller_connection h ha fun heq => ?_
    rw [heq] at hacc
    exact ne_append_singleton _ _ hacc
  | ping frame hp => exact (hI.first c).append (fun hc => by cases hc) fun _ hne => absurd rfl hne

theorem Greeting.step (hI : Greeting clientId s) (hB : Shared s e) (h : Rust.step s e = some t) :
    Greeting clientId t where
  session := hI.session.step h
  composing := hI.composing.step (fun _ _ => trivial) h
  due _ hc := hI.due_next h hc
  closing _ hc := hI.closing_next h hc
  callers _ _ hc := hI.callers_next hB h hc
  first := hI.first_next h

end Step

theorem not_greeted_init (options : MIPClientOptions) (c : ℕ) : ¬Greeted (init options) c :=
  fun ⟨_,hframe⟩ => by cases hframe

theorem greeting_init (options : MIPClientOptions) :
    Greeting options.clientId (init options) where
  session := session_init options
  composing := composing_init options _
  due c hc := absurd hc (not_greeted_init options c)
  closing _ := nofun
  callers _ _ := nofun
  first _ := .nil _

/-- Without an interval there is no ping task, and no PING of one. -/
structure Unpinged (s : State) : Prop where
  interval : s.options.pingIntervalMs = 0
  task : ∀ c, (s.connections c).ping = .absent ∨ (s.connections c).ping = .ended
  accepted : ∀ c data, (.ping,.send data) ∉ (s.connections c).commands.accepted

theorem Unpinged.step {s t : State} {e : Event} (hI : Unpinged s) (h : Rust.step s e = some t) :
    Unpinged t where
  interval := by
    rw [(step_move h).options_eq]
    exact hI.interval
  task c := by
    have hno {p : PingTask} (hp : (s.connections c).ping = p) (hab : p ≠ .absent)
        (hen : p ≠ .ended) : False :=
      (hI.task c).elim (fun ha => hab (hp ▸ ha)) fun ha => hen (hp ▸ ha)
    obtain ⟨d,xs,k,hc,htouch,-⟩ := (step_move h).changes
    by_cases hcd : c = d
    swap
    · rw [hc,Function.update_of_ne hcd]
      exact hI.task c
    subst hcd
    have hself : t.connections c = k := by rw [hc,Function.update_self]
    have hmove := step_move h
    generalize e.actor = a at htouch hmove
    cases htouch with
    | pingSpawned ho =>
      cases hmove with
      | owner hm =>
        cases hm with
        | pingSpawned d hd =>
          unfold spawnPingTask
          rw [if_pos hI.interval]
          exact hI.task c
        | helloAccepted d m f k hd | closeSent d f k hd | disconnectSent d k hd =>
          cases hd.symm.trans ho
        | connected hd => cases hd.symm.trans ho
        | _ =>
          rename_i hd
          cases hd.symm.trans ho
    | ticked hp | passed hp | idTaken _ hp | pingSent _ _ hp | pingLost _ hp =>
      exact (hno hp nofun nofun).elim
    | enqueued hq =>
      rw [hself,hq.ping]
      exact hI.task c
    | pingEnded =>
      rw [hself]
      exact .inr rfl
    | _ =>
      rw [hself]
      exact hI.task c
  accepted c data hmem := by
    obtain ⟨xs,hflow,-⟩ := (step_move h).flow c
    rw [hflow.accepted] at hmem
    rcases List.mem_append.mp hmem with hold | hnew
    · exact hI.accepted c data hold
    rcases hflow.enqueues with rfl | ⟨x,rfl,he,-⟩
    · cases hnew
    obtain rfl := List.mem_singleton.mp hnew
    generalize e.actor = a at he
    cases he with
    | ping frame hp =>
      rcases hI.task c with hno | hno
      · cases hp.symm.trans hno
      · cases hp.symm.trans hno

/-- In every run in which the sending methods borrow the client, what is written to a connection is
opened by HELLO with the client's id, overtaken by PINGs of the ping task at most; without a ping
interval HELLO is the very first frame. -/
theorem hello_opens (options : MIPClientOptions) (events : List Event)
    (hB : ∀ p ∈ steps Rust.step (init options) events, Shared p.1 p.2) :
    ∀ s ∈ states Rust.step (init options) events, ∀ c,
      HelloFirst options.clientId (s.connections c).written ∧
      (options.pingIntervalMs = 0 → ∀ x ∈ (s.connections c).written.head?,
        ∃ msgId, x = (.connect,
          frameBytes .hello (Utf8.encode options.clientId) FrameFlags.none msgId)) := by
  intro s hs c
  have hI : Greeting options.clientId s := invariant_of_steps (C := Shared)
    (fun _ _ _ hI hC h => hI.step hC h) (greeting_init options) hB s hs
  have hwritten := (hI.composing.streams.logged c).written_le
  have hfirst := (hI.first c).of_cut hwritten
  refine ⟨hfirst,fun hzero x hx => ?_⟩
  have hU : Unpinged s := invariant (I := Unpinged) (fun _ _ _ hI h => hI.step h)
    ⟨hzero,fun _ => .inl rfl,fun _ _ hm => by cases hm⟩ events s hs
  obtain ⟨source,data⟩ := x
  obtain ⟨rest,hrest⟩ := List.head?_eq_some_iff.mp hx
  have hmem : (source,data) ∈ sends (s.connections c).commands.accepted :=
    hwritten.subset (by rw [hrest]; exact List.mem_cons_self)
  by_cases hc : source = .connect
  · subst hc
    obtain ⟨⟨msgId,rfl⟩,-⟩ := hfirst.hello [] data rest hrest
    exact ⟨msgId,rfl⟩
  · have hp : source ≠ .ping := by
      rintro rfl
      exact hU.accepted c data (mem_sends.mp hmem)
    obtain ⟨hello,hnone⟩ := hfirst.later [] source data rest hrest hc hp
    cases hnone

theorem hello_opens_published : ∃ s ∈ run Rust.step (init {}) publishedRun,
    (s.connections 0).written.length = 2 ∧
      ∀ x ∈ (s.connections 0).written.head?,
        ∃ msgId, x = (.connect,frameBytes .hello (Utf8.encode []) FrameFlags.none msgId) := by
  have hrun : ∃ s ∈ run Rust.step (init {}) publishedRun,
      (s.connections 0).written.length = 2 := by
    decide +kernel
  obtain ⟨s,hs,hn⟩ := hrun
  exact ⟨s,hs,hn,(hello_opens {} publishedRun (by decide +kernel) s (run_mem_states hs) 0).2 rfl⟩

end Rust
end MipClients
