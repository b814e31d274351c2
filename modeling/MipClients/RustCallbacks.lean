import MipClients.RustDelivery
import MipClients.RustNotifications
import MipClients.RustReceive

/-! The callbacks of each connection of the Rust client, in the order its read task calls them
(`spawn_read_task` in `client/internals.rs`). The history of a connection is accepted by an
automaton, and the place of the read task tells which states of the automaton it can be in. -/
namespace MipClients
namespace Rust

open State Transition

def Entry.subject : Entry → Option ℕ
  | .stored c | .cleared c | .onDisconnect c | .onReconnecting c _ | .onError c _ => some c
  | _ => none

def State.story (s : State) (c : ℕ) : List Entry := s.log.filter fun e => e.subject = some c

inductive Chapter
  | unmade | stored | failed | cleared | lost | over
  deriving DecidableEq

/-- The histories of a connection, the latest entry first: `connect()` stores `connected = true`, a
read fails, the flag is cleared and the loss announced, and a reconnection is announced or given up;
in this order, each at most once. Behind a flag that has been cleared there is nothing unless the
loss has been announced. -/
inductive Story (max : UInt32) (c : ℕ) : Chapter → List Entry → Prop
  | unmade : Story max c .unmade []
  | stored : Story max c .stored [.stored c]
  | failed {log : List Entry} (h : Story max c .stored log) :
      Story max c .failed (.onError c .io :: log)
  | cleared {chapter : Chapter} {log : List Entry} (h : Story max c chapter log)
      (hup : chapter ∈ [.stored,.failed]) : Story max c .cleared (.cleared c :: log)
  | lost {log : List Entry} (h : Story max c .cleared log) :
      Story max c .lost (.onDisconnect c :: log)
  | reconnecting {chapter : Chapter} {log : List Entry} {attempt : UInt32}
      (h : Story max c chapter log) (hdown : chapter ∈ [.stored,.failed,.lost])
      (hmax : max = 0 ∨ attempt ≤ max) : Story max c .over (.onReconnecting c attempt :: log)
  | gaveUp {chapter : Chapter} {log : List Entry} (h : Story max c chapter log)
      (hdown : chapter ∈ [.stored,.failed,.lost]) (hmax : max ≠ 0) :
      Story max c .over (.onError c (.maxReconnectAttempts max) :: log)

def ReadTask.chapters : ReadTask → List Chapter
  | .absent | .checking | .reading | .handling | .failing => [.stored]
  | .leaving _ | .swapped false _ => [.stored,.failed]
  | .swapped true _ => [.cleared]
  | .reported _ => [.stored,.failed,.lost]
  | .sleeping => [.over]
  | .done => [.stored,.failed,.cleared,.lost,.over]

theorem ReadTask.chapters_subset (r : ReadTask) : r.chapters ⊆ ReadTask.done.chapters := by
  cases r with
  | swapped wasConnected lost => cases wasConnected <;> simp [chapters]
  | _ => simp [chapters]

def Owner.ahead : Owner → Option (ℕ × Chapter)
  | .storing c => some (c,.unmade)
  | .stored c => some (c,.stored)
  | _ => none

def State.chapters (s : State) (c : ℕ) : List Chapter :=
  if s.opened ≤ c then [.unmade]
  else match s.owner.ahead with
    | some (d,chapter) => if c = d then [chapter] else (s.connections c).read.chapters
    | none => (s.connections c).read.chapters

def Told (max : UInt32) (s : State) (c : ℕ) : Prop :=
  ∃ chapter ∈ s.chapters c, Story max c chapter (s.story c)

section

variable {s t : State} {c : ℕ}

theorem story_cons {e : Entry} (hlog : t.log = e :: s.log) (he : e.subject = some c) :
    t.story c = e :: s.story c := by
  unfold story
  rw [hlog]
  exact List.filter_cons_of_pos (decide_eq_true he)

theorem story_cons_of_ne {e : Entry} (hlog : t.log = e :: s.log) (he : e.subject ≠ some c) :
    t.story c = s.story c := by
  unfold story
  rw [hlog]
  exact List.filter_cons_of_neg fun h => he (of_decide_eq_true h)

theorem story_eq (hlog : t.log = s.log) (c : ℕ) : t.story c = s.story c := by
  unfold story
  rw [hlog]

theorem chapters_unmade (h : s.opened ≤ c) : s.chapters c = [.unmade] := if_pos h

theorem chapters_ahead (h : c < s.opened) {chapter : Chapter}
    (ho : s.owner.ahead = some (c,chapter)) : s.chapters c = [chapter] := by
  unfold chapters
  rw [if_neg h.not_ge,ho]
  exact if_pos rfl

theorem chapters_spawned (h : c < s.opened) (ho : ∀ chapter, s.owner.ahead ≠ some (c,chapter)) :
    s.chapters c = (s.connections c).read.chapters := by
  unfold chapters
  rw [if_neg h.not_ge]
  split
  · next d chapter hd => exact if_neg fun hc : c = d => ho chapter (hc ▸ hd)
  · rfl

theorem chapters_eq (hopened : t.opened = s.opened) (hahead : t.owner.ahead = s.owner.ahead)
    (hread : (t.connections c).read = (s.connections c).read) : t.chapters c = s.chapters c := by
  unfold chapters
  rw [hopened,hahead,hread]

/-- What a step that the connection's read task does not take means to its history. -/
inductive Aside (s t : State) (c : ℕ) : Prop
  | kept (hstory : t.story c = s.story c) (hchapters : t.chapters c = s.chapters c)
  | stored (hstory : t.story c = .stored c :: s.story c) (hs : s.chapters c = [.unmade])
      (ht : t.chapters c = [.stored])

theorem Aside.of_eq (hlog : t.log = s.log) (hopened : t.opened = s.opened)
    (hahead : t.owner.ahead = s.owner.ahead)
    (hread : (t.connections c).read = (s.connections c).read) : Aside s t c :=
  .kept (story_eq hlog c) (chapters_eq hopened hahead hread)

theorem OwnerMove.aside (h : OwnerMove s t) (hlatest : SpawnsLatest s) : Aside s t c := by
  cases h with
  | connected => exact .of_eq rfl rfl rfl rfl
  | tcpConnected ho =>
    refine .kept rfl ?_
    rcases lt_trichotomy c s.opened with hlt | rfl | hgt
    · rw [chapters_spawned (Nat.lt_succ_of_lt hlt) fun _ h => hlt.ne (by cases h; rfl),
        chapters_spawned hlt (by rw [ho]; exact nofun)]
      rfl
    · rw [chapters_ahead (Nat.lt_succ_self _) rfl,chapters_unmade le_rfl]
    · rw [chapters_unmade hgt,chapters_unmade hgt.le]
  | stored d ho =>
    have hmade : d < s.opened := Nat.lt_of_succ_le (hlatest d (by rw [ho]; rfl)).le
    by_cases hc : c = d
    · subst hc
      exact .stored (story_cons rfl rfl) (chapters_ahead hmade (by rw [ho]; rfl))
        (chapters_ahead (by exact hmade) rfl)
    · refine .kept (story_cons_of_ne rfl fun h => hc (Option.some.inj h).symm) ?_
      simp only [chapters,record,go,ho,Owner.ahead,if_neg hc]
  | readSpawned d ho =>
    have hmade : d < s.opened := Nat.lt_of_succ_le (hlatest d (by rw [ho]; rfl)).le
    refine .kept rfl ?_
    by_cases hc : c = d
    · subst hc
      rw [chapters_spawned (by exact hmade) (fun _ h => (by cases h)),
        chapters_ahead hmade (by rw [ho]; rfl)]
      simp only [go_connections,spawnReadTask,setConnection_self,ReadTask.chapters]
    · simp only [chapters,spawnReadTask,setConnection,go,ho,Owner.ahead,if_neg hc,
        Function.update_of_ne hc]
  | writeSpawned d ho => exact .of_eq rfl rfl (by rw [ho]; rfl) (read_update (by rfl) c)
  | pingSpawned d ho =>
    unfold spawnPingTask
    split_ifs
    · exact .of_eq rfl rfl (by rw [ho]; rfl) rfl
    · exact .of_eq rfl rfl (by rw [ho]; rfl) (read_update (by rfl) c)
  | onConnect d ho =>
    exact .kept (story_cons_of_ne rfl fun h => (by cases h))
      (chapters_eq rfl (by rw [ho]; rfl) rfl)
  | helloAccepted d msgId frame k ho hk =>
    exact .of_eq rfl rfl (by rw [ho]; rfl) (read_update (Connection.trySend_eq_some hk).read c)
  | disconnect ho =>
    exact .kept (story_cons_of_ne rfl fun h => (by cases h))
      (chapters_eq rfl (by rw [ho]; rfl) rfl)
  | closeSent d frame k ho hk | disconnectSent d k ho hk =>
    rcases Connection.send_eq_some hk with ⟨-,rfl⟩ | hq
    · exact .of_eq rfl rfl (by rw [ho]; rfl) (read_update (by rfl) c)
    · exact .of_eq rfl rfl (by rw [ho]; rfl) (read_update hq.read c)
  | pingAborted ho =>
    unfold abortPing
    split
    · exact .of_eq rfl rfl (by rw [ho]; rfl) (read_update (by rfl) c)
    · exact .of_eq rfl rfl (by rw [ho]; rfl) rfl
  | readAborted ho =>
    unfold abortRead
    split
    · exact .of_eq rfl rfl (by rw [ho]; rfl) (read_update (by rfl) c)
    · exact .of_eq rfl rfl (by rw [ho]; rfl) rfl
  | opening ho | tcpFailed ho | helloChecked d ho | helloRefused d ho | helloBuilt d now frame ho
  | helloRejected d msgId frame ho | helloCleared ho | helloStopped ho | stopped ho | notOpened ho
  | closeChecked d ho | closeLeftOut d ho | sendingClose d now frame ho | writeAwaited ho
  | cleared ho | disconnected ho | dropped ho =>
    exact .of_eq rfl rfl (by rw [ho]; rfl) rfl

theorem ReadMove.aside {d : ℕ} (h : ReadMove s d t) (hc : c ≠ d) : Aside s t c := by
  have hother {e : Entry} (he : e.subject = some d) : e.subject ≠ some c := fun h =>
    hc (Option.some.inj (h.symm.trans he))
  have hread (k : Connection) :
      (Function.update s.connections d k c).read = (s.connections c).read := by
    rw [Function.update_of_ne hc]
  cases h with
  | received | handled | before | unchanged | silent | ended => exact .of_eq rfl rfl rfl (hread _)
  | failed | cleared | onDisconnect =>
    exact .kept (story_cons_of_ne rfl (hother rfl)) (chapters_eq rfl rfl (hread _))
  | scheduled =>
    unfold scheduleReconnect
    dsimp only
    split_ifs
    · exact .kept (story_cons_of_ne rfl (hother rfl)) (chapters_eq rfl rfl (hread _))
    · exact .kept (story_cons_of_ne rfl (hother rfl)) (chapters_eq rfl rfl (hread _))
    · exact .of_eq rfl rfl rfl (hread _)

theorem Move.aside {a : Actor} (h : Move s a t) (ha : a ≠ .readTask c) (hlatest : SpawnsLatest s) :
    Aside s t c := by
  cases h with
  | owner h => exact h.aside hlatest
  | caller k h =>
    cases h with
    | accepted call d msgId connection hk =>
      exact .of_eq rfl rfl rfl (read_update (Connection.trySend_eq_some hk).read c)
    | _ => exact .of_eq rfl rfl rfl rfl
  | read d h => exact h.aside fun hc => ha (hc ▸ rfl)
  | write d h => cases h <;> exact .of_eq rfl rfl rfl (read_update (by rfl) c)
  | ping d h =>
    cases h with
    | passed | idTaken =>
      exact .kept (story_cons_of_ne rfl fun h => (by cases h))
        (chapters_eq rfl rfl (read_update (by rfl) c))
    | sent frame k hp hk =>
      rcases Connection.send_eq_some hk with ⟨-,rfl⟩ | hq
      · exact .of_eq rfl rfl rfl (read_update (by rfl) c)
      · exact .of_eq rfl rfl rfl (read_update (k := { k with ping := .ticking }) hq.read c)
    | _ => exact .of_eq rfl rfl rfl (read_update (by rfl) c)

@[simp] theorem setRead_read (s : State) (c : ℕ) (r : ReadTask) :
    ((s.setRead c r).connections c).read = r := by
  rw [setRead_self]

theorem setRead_emitted (s : State) (c : ℕ) (r : ReadTask) :
    ((s.setRead c r).connections c).emitted = (s.connections c).emitted := by
  rw [setRead_self]

theorem ReadTask.chapters_of_looping {r : ReadTask} (h : r.looping = true) :
    r.chapters = [.stored] := by
  cases r with
  | checking | reading | handling => rfl
  | _ => cases h

theorem ReadMove.story_of_stands (h : ReadMove s c t)
    (hs : (s.connections c).read.stands = true) : t.story c = s.story c := by
  cases h with
  | before r hr =>
    rw [ReadTask.stands_of_looping hr] at hs
    cases hs
  | failed hr | cleared lost hr | onDisconnect lost hr | scheduled lost hr =>
    rw [hr] at hs
    cases hs
  | _ => rfl

variable {max : UInt32} {chapter : Chapter}

/-- A step of the read task takes the history on as the automaton does. -/
theorem ReadMove.told (h : ReadMove s c t) (hmax : s.options.maxReconnectAttempts = max)
    (hat : chapter ∈ (s.connections c).read.chapters) (hstory : Story max c chapter (s.story c)) :
    ∃ chapter ∈ (t.connections c).read.chapters, Story max c chapter (t.story c) := by
  cases h with
  | received data hr =>
    rw [hr] at hat
    refine ⟨chapter,?_,hstory⟩
    rw [receive_self]
    exact hat
  | handled out rest r hr hmem =>
    have hnext : ∀ r ∈ [ReadTask.handling,.checking], r.chapters = [.stored] := by decide
    rw [hr] at hat
    refine ⟨chapter,?_,hstory⟩
    rw [handle_self]
    exact (hnext r hmem).symm ▸ hat
  | before r hr hmem =>
    have hnext : ∀ r ∈ [ReadTask.checking,.reading,.leaving false,.leaving true,.failing],
        Chapter.stored ∈ r.chapters := by decide
    rw [ReadTask.chapters_of_looping hr] at hat
    cases List.mem_singleton.mp hat
    exact ⟨.stored,by rw [setRead_read]; exact hnext r hmem,hstory⟩
  | failed hr =>
    rw [hr] at hat
    cases List.mem_singleton.mp hat
    rw [setRead_read,story_cons rfl rfl]
    exact ⟨.failed,by decide,.failed hstory⟩
  | cleared lost hr =>
    rw [hr] at hat
    rw [setRead_read,story_cons rfl rfl]
    exact ⟨.cleared,List.mem_cons_self,.cleared hstory hat⟩
  | unchanged lost hr =>
    rw [hr] at hat
    exact ⟨chapter,by rw [setRead_read]; exact hat,hstory⟩
  | onDisconnect lost hr =>
    rw [hr] at hat
    cases List.mem_singleton.mp hat
    rw [setRead_read,story_cons rfl rfl]
    exact ⟨.lost,by simp [ReadTask.chapters],.lost hstory⟩
  | silent lost hr =>
    rw [hr] at hat
    refine ⟨chapter,?_,hstory⟩
    rw [setRead_read]
    rcases List.mem_pair.mp hat with rfl | rfl <;> simp [ReadTask.chapters]
  | scheduled lost hr =>
    rw [hr] at hat
    unfold scheduleReconnect
    dsimp only
    rw [hmax]
    split_ifs with hauto hattempts
    · rw [setRead_read,story_cons rfl rfl]
      exact ⟨.over,by decide,.reconnecting hstory hat hattempts⟩
    · rw [setRead_read,story_cons rfl rfl]
      exact ⟨.over,by decide,.gaveUp hstory hat fun h => hattempts (.inl h)⟩
    · rw [setRead_read]
      exact ⟨chapter,ReadTask.chapters_subset _ hat,hstory⟩
  | ended =>
    rw [setRead_read]
    exact ⟨chapter,ReadTask.chapters_subset _ hat,hstory⟩

theorem ReadUnspawned.chapters_eq (hs : ReadUnspawned s c) (hopened : t.opened = s.opened)
    (ho : t.owner = s.owner) : t.chapters c = s.chapters c := by
  rcases Nat.lt_or_ge c s.opened with hlt | hge
  · have hahead : ∃ chapter, s.owner.ahead = some (c,chapter) := by
      rcases hs with hs | hs | hs
      · exact absurd hlt hs.not_gt
      · exact ⟨.unmade,by rw [hs]; rfl⟩
      · exact ⟨.stored,by rw [hs]; rfl⟩
    obtain ⟨chapter,hahead⟩ := hahead
    rw [chapters_ahead hlt hahead,chapters_ahead (hopened ▸ hlt) (ho ▸ hahead)]
  · rw [chapters_unmade hge,chapters_unmade (hopened ▸ hge)]

theorem chapters_of_spawned (hs : ¬ReadUnspawned s c) :
    s.chapters c = (s.connections c).read.chapters := by
  have hlt : c < s.opened := Nat.lt_of_not_le fun h => hs (.inl h)
  refine chapters_spawned hlt fun chapter h => hs ?_
  unfold Owner.ahead at h
  split at h
  · next d hd =>
    cases h
    exact .inr (.inl hd)
  · next d hd =>
    cases h
    exact .inr (.inr hd)
  · cases h

theorem Told.step {e : Event} (hI : Told max s c) (hN : Notified s)
    (hmax : s.options.maxReconnectAttempts = max) (h : Rust.step s e = some t) : Told max t c := by
  obtain ⟨chapter,hat,hstory⟩ := hI
  have hmove := step_move h
  by_cases ha : e.actor = .readTask c
  · rw [ha] at hmove
    obtain ⟨ho,hopened,-,-⟩ := hmove.elsewhere nofun
    cases hmove with
    | read _ hmove =>
      by_cases hu : ReadUnspawned s c
      · rw [Told,hmove.story_of_stands (hN.readUnspawned c hu).1,hu.chapters_eq hopened ho]
        exact ⟨chapter,hat,hstory⟩
      · have hut : ¬ReadUnspawned t c := by
          rw [ReadUnspawned,ho,hopened]
          exact hu
        rw [chapters_of_spawned hu] at hat
        rw [Told,chapters_of_spawned hut]
        exact hmove.told hmax hat hstory
  · cases hmove.aside ha hN.latest with
    | kept hkept hchapters =>
      rw [Told,hkept,hchapters]
      exact ⟨chapter,hat,hstory⟩
    | stored hnew hs ht =>
      rw [hs] at hat
      cases List.mem_singleton.mp hat
      cases hlog : s.story c with
      | nil =>
        rw [Told,hnew,ht,hlog]
        exact ⟨.stored,List.mem_cons_self,.stored⟩
      | cons e log =>
        rw [hlog] at hstory
        cases hstory

end

structure Telling (max : UInt32) (s : State) : Prop where
  notified : Notified s
  limit : s.options.maxReconnectAttempts = max
  told : ∀ c, Told max s c

theorem Telling.step {max : UInt32} {s t : State} {e : Event} (hI : Telling max s)
    (h : Rust.step s e = some t) : Telling max t where
  notified := hI.notified.step h
  limit := by
    rw [(step_move h).options_eq]
    exact hI.limit
  told c := (hI.told c).step hI.notified hI.limit h

theorem telling_init (options : MIPClientOptions) :
    Telling options.maxReconnectAttempts (init options) where
  notified := notified_init options
  limit := rfl
  told c := by
    rw [Told,chapters_unmade (Nat.zero_le c)]
    exact ⟨.unmade,List.mem_cons_self,.unmade⟩

theorem Touch.emitted {s t : State} {a : Actor} {c : ℕ} {xs : List (Source × ClientCommand)}
    {k : Connection} (h : Touch s c a t xs k) (ha : a ≠ .readTask c) :
    k.emitted = (s.connections c).emitted := by
  cases h with
  | enqueued hq => rw [hq.eq]
  | pingSent frame k hp hq =>
    change k.emitted = _
    rw [hq.eq]
  | read => exact absurd rfl ha
  | _ => rfl

/-- The callbacks for what is received are called in `handle_data`, which reports nothing else. -/
theorem Move.handling {s t : State} {a : Actor} (h : Move s a t) {c : ℕ}
    (he : (t.connections c).emitted ≠ (s.connections c).emitted) :
    (s.connections c).read = .handling ∧ t.log = s.log := by
  obtain ⟨d,xs,k,hc,htouch,-⟩ := h.changes
  by_cases hcd : c = d
  swap
  · exact absurd (by rw [hc,Function.update_of_ne hcd]) he
  subst hcd
  have hself : t.connections c = k := by rw [hc,Function.update_self]
  by_cases ha : a = .readTask c
  swap
  · exact absurd (by rw [hself,htouch.emitted ha]) he
  subst ha
  cases h with
  | read _ h =>
    cases h with
    | handled out rest r hr => exact ⟨hr,rfl⟩
    | received data hr => exact absurd (by rw [receive_self]) he
    | scheduled =>
      refine absurd ?_ he
      unfold scheduleReconnect
      dsimp only
      split_ifs <;> exact setRead_emitted _ c _
    | _ => exact absurd (setRead_emitted _ c _) he

theorem Telling.emitting {max : UInt32} {s t : State} {e : Event} {c : ℕ} (hI : Telling max s)
    (h : Rust.step s e = some t) (he : (t.connections c).emitted ≠ (s.connections c).emitted) :
    t.story c = [.stored c] := by
  obtain ⟨hr,hlog⟩ := (step_move h).handling he
  have hu : ¬ReadUnspawned s c := fun hu => by
    have hstands := (hI.notified.readUnspawned c hu).1
    rw [hr] at hstands
    cases hstands
  obtain ⟨chapter,hat,hstory⟩ := hI.told c
  rw [chapters_of_spawned hu,hr] at hat
  cases List.mem_singleton.mp hat
  rw [story_eq hlog]
  generalize s.story c = log at hstory
  cases hstory
  rfl

/-- In every interleaving of all connections, calls and tasks of a run, the history of each
connection is one that the automaton accepts: behind `connected = true`, the read error, the loss
and the reconnection are reported in this order, each at most once. The callbacks for what is
received on the connection come before all of them. -/
theorem callbacks_inOrder (options : MIPClientOptions) (events : List Event) :
    ∀ s ∈ states step (init options) events, ∀ c,
      (∃ chapter, Story options.maxReconnectAttempts c chapter (s.story c)) ∧
      ∀ e t, step s e = some t → (t.connections c).emitted ≠ (s.connections c).emitted →
        t.story c = [.stored c] := by
  intro s hs c
  have hI : Telling options.maxReconnectAttempts s :=
    invariant (fun _ _ _ hI h => hI.step h) (telling_init options) events s hs
  obtain ⟨chapter,-,hstory⟩ := hI.told c
  exact ⟨⟨chapter,hstory⟩,fun e t h he => hI.emitting h he⟩

def failedRun : List Event :=
  connectRun ++ [.readStep 0,.read 0 (.data pingBytes)] ++ List.replicate 3 (.readStep 0) ++
    [.read 0 .error] ++ List.replicate 5 (.readStep 0)

theorem callbacks_inOrder_failed : ∃ s ∈ run step (init {}) failedRun,
    s.story 0 = [.onReconnecting 0 1,.onDisconnect 0,.cleared 0,.onError 0 .io,.stored 0] ∧
      ∃ chapter, Story 10 0 chapter (s.story 0) := by
  have hrun : ∃ s ∈ run step (init {}) failedRun, s.story 0 =
      [.onReconnecting 0 1,.onDisconnect 0,.cleared 0,.onError 0 .io,.stored 0] := by
    decide +kernel
  obtain ⟨s,hs,hstory⟩ := hrun
  exact ⟨s,hs,hstory,(callbacks_inOrder {} failedRun s (run_mem_states hs) 0).1⟩

end Rust
end MipClients
