import Mathlib.Data.List.Range
import Mathlib.Data.List.Infix

/-! The history of a link that comes up, goes down and is tried again: an automaton that accepts it
mark by mark, and what acceptance says of the history as a whole. -/
namespace MipClients
namespace LinkLog

inductive Mark
  | up
  | down
  | attempt (number : ℕ)
  deriving DecidableEq

structure Link where
  isUp : Bool
  attempts : ℕ

/-- The histories that leave the link so, the latest mark first; no more than `max` attempts are
counted where that is positive. The link may also fail without a mark. -/
inductive Accepts (max : ℕ) : Link → List Mark → Prop
  | init : Accepts max ⟨false,0⟩ []
  | up {l : Link} {log : List Mark} (h : Accepts max l log) : Accepts max ⟨true,0⟩ (.up :: log)
  | down {n : ℕ} {log : List Mark} (h : Accepts max ⟨true,n⟩ log) :
      Accepts max ⟨false,n⟩ (.down :: log)
  | attempt {isUp : Bool} {n : ℕ} {log : List Mark} (h : Accepts max ⟨isUp,n⟩ log)
      (hmax : 0 < max → n < max) : Accepts max ⟨isUp,n + 1⟩ (.attempt (n + 1) :: log)
  | fails {isUp : Bool} {n : ℕ} {log : List Mark} (h : Accepts max ⟨isUp,n⟩ log) :
      Accepts max ⟨false,n⟩ log

def Linked (log : List Mark) : Prop := ∃ after before, log = after ++ .up :: before ∧ .down ∉ after

def attempts : List Mark → List ℕ
  | [] => []
  | .up :: _ => []
  | .attempt number :: log => attempts log ++ [number]
  | .down :: log => attempts log

/-- The link comes up before it goes down, and between any two times that it does; the attempts are
numbered from one each time it has come up, and are no more than `max`. -/
structure Orderly (max : ℕ) (log : List Mark) : Prop where
  downs : ∀ l, .down :: l <:+ log → Linked l
  numbers : ∀ l, l <:+ log → attempts l = List.range' 1 (attempts l).length
  bounded : ∀ l, l <:+ log → 0 < max → (attempts l).length ≤ max

theorem Linked.cons {log : List Mark} (h : Linked log) {m : Mark} (hm : m ≠ .down) :
    Linked (m :: log) := by
  obtain ⟨after,before,rfl,hafter⟩ := h
  exact ⟨m :: after,before,rfl,List.not_mem_cons_of_ne_of_not_mem hm.symm hafter⟩

namespace Accepts

variable {max : ℕ} {l : Link} {log : List Mark}

theorem linked (h : Accepts max l log) (hup : l.isUp = true) : Linked log := by
  induction h with
  | init | down | fails => cases hup
  | up h => exact ⟨[],_,rfl,List.not_mem_nil⟩
  | attempt h hmax ih => exact (ih hup).cons (fun h => (by cases h))

theorem attempts_eq (h : Accepts max l log) : attempts log = List.range' 1 l.attempts := by
  induction h with
  | init | up => rfl
  | down h ih | fails h ih => exact ih
  | attempt h hmax ih =>
    dsimp only at ih ⊢
    rw [attempts,ih,List.range'_1_concat,Nat.add_comm 1]

theorem attempts_le (h : Accepts max l log) (hpos : 0 < max) : l.attempts ≤ max := by
  induction h with
  | init | up => exact Nat.zero_le _
  | down h ih | fails h ih => exact ih
  | attempt h hmax ih => exact hmax hpos

theorem linked_of_down (h : Accepts max l (.down :: log)) : Linked log := by
  generalize hm : Mark.down :: log = marks at h
  induction h with
  | init | up | attempt => cases hm
  | down h =>
    cases hm
    exact h.linked rfl
  | fails h ih => exact ih hm

theorem suffix (h : Accepts max l log) {before : List Mark} (hb : before <:+ log) :
    ∃ l, Accepts max l before := by
  induction h with
  | init =>
    rw [List.suffix_nil.mp hb]
    exact ⟨_,.init⟩
  | up h ih =>
    rcases List.suffix_cons_iff.mp hb with rfl | hb
    · exact ⟨_,.up h⟩
    · exact ih hb
  | down h ih =>
    rcases List.suffix_cons_iff.mp hb with rfl | hb
    · exact ⟨_,.down h⟩
    · exact ih hb
  | attempt h hmax ih =>
    rcases List.suffix_cons_iff.mp hb with rfl | hb
    · exact ⟨_,.attempt h hmax⟩
    · exact ih hb
  | fails h ih => exact ih hb

theorem orderly (h : Accepts max l log) : Orderly max log where
  downs := fun before hb =>
    have ⟨_,hbefore⟩ := h.suffix hb
    hbefore.linked_of_down
  numbers := fun before hb => by
    obtain ⟨l,hbefore⟩ := h.suffix hb
    rw [hbefore.attempts_eq,List.length_range']
  bounded := fun before hb hpos => by
    obtain ⟨l,hbefore⟩ := h.suffix hb
    rw [hbefore.attempts_eq,List.length_range']
    exact hbefore.attempts_le hpos

end Accepts
end LinkLog
end MipClients
