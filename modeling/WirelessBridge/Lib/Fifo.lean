import Mathlib.Data.List.Basic
import Mathlib.Tactic.Common

/-!
# First in, first out

A queue beside the record of what went in and what came out. That nothing is lost, doubled or
overtaken is a field of the queue, so every state that holds one knows it.
-/

namespace Lib

structure Fifo (α : Type*) where
  content : List α
  pushed : List α
  popped : List α
  complete : popped ++ content = pushed

namespace Fifo

variable {α : Type*} {q : Fifo α} {a : α}

def empty : Fifo α := ⟨[], [], [], rfl⟩

def push (q : Fifo α) (a : α) : Fifo α :=
  ⟨q.content ++ [a], q.pushed ++ [a], q.popped, by rw [← List.append_assoc, q.complete]⟩

def front? (q : Fifo α) : Option α := q.content.head?

lemma toList_head?_append_tail (l : List α) : l.head?.toList ++ l.tail = l := by
  cases l <;> rfl

/-- The queue without its front element, if it has one. -/
def pop (q : Fifo α) : Fifo α :=
  ⟨q.content.tail, q.pushed, q.popped ++ q.front?.toList, by
    rw [List.append_assoc, front?, toList_head?_append_tail, q.complete]⟩

@[simp] lemma empty_pushed : (empty : Fifo α).pushed = [] := rfl

@[simp] lemma empty_popped : (empty : Fifo α).popped = [] := rfl

@[simp] lemma push_content : (q.push a).content = q.content ++ [a] := rfl

@[simp] lemma push_pushed : (q.push a).pushed = q.pushed ++ [a] := rfl

@[simp] lemma push_popped : (q.push a).popped = q.popped := rfl

@[simp] lemma pop_pushed : q.pop.pushed = q.pushed := rfl

@[simp] lemma pop_popped : q.pop.popped = q.popped ++ q.front?.toList := rfl

lemma front?_eq_none_iff : q.front? = none ↔ q.content = [] := List.head?_eq_none_iff

lemma length_complete (q : Fifo α) : q.popped.length + q.content.length = q.pushed.length := by
  rw [← q.complete, List.length_append]

lemma mem_pushed_of_front (h : q.front? = some a) : a ∈ q.pushed := by
  rw [← q.complete]
  exact List.mem_append_right _ (List.mem_of_head? h)

/-- As long as less has come out than went in, there is a front element. -/
lemma exists_front (h : q.popped.length < q.pushed.length) : ∃ a, q.front? = some a := by
  cases hfront : q.front? with
  | some a => exact ⟨a, rfl⟩
  | none =>
    have hnil := front?_eq_none_iff.mp hfront
    have hlen := q.length_complete
    rw [hnil, List.length_nil, Nat.add_zero] at hlen
    exact absurd hlen (Nat.ne_of_lt h)

end Fifo

end Lib
