import Mathlib.Data.List.Basic

/-! A bounded first-in first-out channel. It remembers what it has accepted and what has been
received from it, and carries the proof that nothing was lost, duplicated or reordered between. -/
namespace MipClients

structure Channel (α : Type*) (capacity : ℕ) where
  queue : List α
  received : List α
  accepted : List α
  fifo : accepted = received ++ queue
  bounded : queue.length ≤ capacity

namespace Channel

variable {α : Type*} {capacity : ℕ}

def empty : Channel α capacity := ⟨[],[],[],rfl,Nat.zero_le _⟩

/-- `none` when the channel is full. -/
def send (ch : Channel α capacity) (a : α) : Option (Channel α capacity) :=
  if h : ch.queue.length < capacity then
    some ⟨ch.queue ++ [a],ch.received,ch.accepted ++ [a],
      by rw [ch.fifo,List.append_assoc],by rw [List.length_append]; exact h⟩
  else none

def recv (ch : Channel α capacity) : Option (α × Channel α capacity) :=
  match h : ch.queue with
  | [] => none
  | a :: queue => some (a,⟨queue,ch.received ++ [a],ch.accepted,
      by rw [ch.fifo,h,List.append_assoc]; rfl,
      Nat.le_of_succ_le (by simpa [h] using ch.bounded)⟩)

variable {ch ch' : Channel α capacity} {a : α}

theorem received_prefix (ch : Channel α capacity) : ch.received <+: ch.accepted :=
  ⟨ch.queue,ch.fifo.symm⟩

theorem send_eq_some (h : ch.send a = some ch') :
    ch'.accepted = ch.accepted ++ [a] ∧ ch'.received = ch.received := by
  unfold send at h
  split_ifs at h
  cases h
  exact ⟨rfl,rfl⟩

theorem send_eq_none_iff (ch : Channel α capacity) (a : α) :
    ch.send a = none ↔ ch.queue.length = capacity := by
  have hbounded := ch.bounded
  unfold send
  split_ifs with h
  · simp only [false_iff]
    omega
  · simp only [true_iff]
    omega

theorem queue_of_send (h : ch.send a = some ch') : ch'.queue = ch.queue ++ [a] := by
  unfold send at h
  split_ifs at h
  cases h
  rfl

theorem recv_eq_some (h : ch.recv = some (a,ch')) :
    ch'.accepted = ch.accepted ∧ ch'.received = ch.received ++ [a] := by
  unfold recv at h
  split at h
  · cases h
  · cases h
    exact ⟨rfl,rfl⟩

theorem received_of_recv_none (h : ch.recv = none) : ch.received = ch.accepted := by
  unfold recv at h
  split at h
  · next hq => rw [ch.fifo,hq,List.append_nil]
  · cases h

end Channel
end MipClients
