import Mathlib.Data.List.Basic
import Mathlib.Tactic.Common

/-!
# Loops that end early

A loop over a list with a `break` behind its first item of some kind handles a prefix of the list.
What is handled, and when the items behind it would have made no difference.
-/

namespace Lib

variable {α β : Type*} {p q : α → Prop} [DecidablePred p] [DecidablePred q]

/-- The items up to the first one with `p`, and that one. -/
def upTo (p : α → Prop) [DecidablePred p] : List α → List α
  | [] => []
  | a :: rest => if p a then [a] else a :: upTo p rest

lemma upTo_cons_of_pos {a : α} (h : p a) (l : List α) : upTo p (a :: l) = [a] := if_pos h

lemma upTo_cons_of_neg {a : α} (h : ¬ p a) (l : List α) : upTo p (a :: l) = a :: upTo p l :=
  if_neg h

lemma upTo_sublist (p : α → Prop) [DecidablePred p] (l : List α) : (upTo p l).Sublist l := by
  induction l with
  | nil => exact List.Sublist.refl _
  | cons a rest ih =>
    rw [upTo]
    split
    · exact List.Sublist.cons_cons a (List.nil_sublist rest)
    · exact List.Sublist.cons_cons a ih

lemma mem_of_mem_upTo {a : α} {l : List α} (h : a ∈ upTo p l) : a ∈ l :=
  (upTo_sublist p l).subset h

lemma mem_upTo_of_mem_head? {a : α} {l : List α} (h : a ∈ l.head?) : a ∈ upTo p l := by
  cases l with
  | nil => simp at h
  | cons b rest =>
    obtain rfl : b = a := Option.some.inj h
    rw [upTo]
    split <;> exact List.mem_cons_self

lemma upTo_congr {l : List α} (h : ∀ a ∈ l, (p a ↔ q a)) : upTo p l = upTo q l := by
  induction l with
  | nil => rfl
  | cons a rest ih =>
    obtain ⟨ha, hrest⟩ := List.forall_mem_cons.mp h
    simp only [upTo, ha, ih hrest]

/-- The loop comes to what is behind items of the other kind. -/
lemma upTo_append {pre : List α} (hpre : ∀ b ∈ pre, ¬ p b) (l : List α) :
    upTo p (pre ++ l) = pre ++ upTo p l := by
  induction pre with
  | nil => rfl
  | cons b rest ih =>
    obtain ⟨hb, hrest⟩ := List.forall_mem_cons.mp hpre
    rw [List.cons_append, upTo_cons_of_neg hb, ih hrest, List.cons_append]

/-- Nothing ends a loop whose items are all of the other kind. -/
lemma upTo_eq_self {l : List α} (h : ∀ a ∈ l, ¬ p a) : upTo p l = l := by
  simpa [upTo] using upTo_append h []

/-- The loop over a list with an item that ends it ends with the first of these. -/
lemma upTo_append_cons {pre post : List α} {a : α} (hpre : ∀ b ∈ pre, ¬ p b) (ha : p a) :
    upTo p (pre ++ a :: post) = pre ++ [a] := by
  rw [upTo_append hpre, upTo_cons_of_pos ha]

/-- Its first item is always handled. -/
lemma exists_upTo_cons (p : α → Prop) [DecidablePred p] (a : α) (l : List α) :
    ∃ rest, upTo p (a :: l) = a :: rest := by
  rw [upTo]
  split
  · exact ⟨[], rfl⟩
  · exact ⟨_, rfl⟩

lemma forall_or_exists_first (p : α → Prop) (l : List α) :
    (∀ a ∈ l, ¬ p a) ∨ ∃ pre a post, l = pre ++ a :: post ∧ (∀ b ∈ pre, ¬ p b) ∧ p a := by
  induction l with
  | nil => exact .inl fun a ha => absurd ha List.not_mem_nil
  | cons a rest ih =>
    by_cases ha : p a
    · exact .inr ⟨[], a, rest, rfl, fun b hb => absurd hb List.not_mem_nil, ha⟩
    · rcases ih with h | ⟨pre, b, post, rfl, hpre, hb⟩
      · exact .inl (List.forall_mem_cons.mpr ⟨ha, h⟩)
      · exact .inr ⟨a :: pre, b, post, rfl, List.forall_mem_cons.mpr ⟨ha, hpre⟩, hb⟩

/-- Whether an item with `q` is handled does not depend on whether it would end the loop too. -/
lemma forall_mem_upTo_or {l : List α} :
    (∀ a ∈ upTo (fun a => p a ∨ q a) l, ¬ q a) ↔ ∀ a ∈ upTo p l, ¬ q a := by
  induction l with
  | nil => simp [upTo]
  | cons a rest ih =>
    simp only [upTo]
    by_cases hp : p a
    · rw [if_pos hp, if_pos (.inl hp)]
    · by_cases hq : q a
      · simp [hp, hq]
      · rw [if_neg hp, if_neg (not_or.mpr ⟨hp, hq⟩), List.forall_mem_cons, List.forall_mem_cons, ih]

/-- A loop that ended early yields as much as the whole loop just when nothing behind an item that
ends it yields anything. -/
lemma filterMap_upTo_eq_iff (f : α → Option β) (l : List α) :
    (upTo p l).filterMap f = l.filterMap f ↔ l.Pairwise fun a b => p a → f b = none := by
  induction l with
  | nil => simp [upTo]
  | cons a rest ih =>
    rw [List.pairwise_cons]
    by_cases ha : p a
    · -- Here the loop ends, so that the rest has to yield nothing at all.
      have hhead : (upTo p (a :: rest)).filterMap f = (a :: rest).filterMap f
          ↔ rest.filterMap f = [] := by
        rw [upTo_cons_of_pos ha, List.filterMap_cons, List.filterMap_cons]
        cases f a <;> simp [eq_comm]
      rw [hhead, List.filterMap_eq_nil_iff]
      constructor
      · intro h
        exact ⟨fun b hb _ => h b hb, List.pairwise_of_forall_mem_list fun _ _ b hb _ => h b hb⟩
      · intro h b hb
        exact h.1 b hb ha
    · have hhead : (upTo p (a :: rest)).filterMap f = (a :: rest).filterMap f
          ↔ (upTo p rest).filterMap f = rest.filterMap f := by
        rw [upTo_cons_of_neg ha, List.filterMap_cons, List.filterMap_cons]
        cases f a <;> simp
      rw [hhead, ih]
      constructor
      · exact fun h => ⟨fun b _ hpa => absurd hpa ha, h⟩
      · exact fun h => h.2

/-- When only items that end the loop yield nothing, the first item tells whether it yields
anything. -/
lemma filterMap_upTo_eq_nil_iff {f : α → Option β} {l : List α}
    (h : ∀ a ∈ l, f a = none → p a) :
    (upTo p l).filterMap f = [] ↔ ∀ a ∈ l.head?, f a = none := by
  cases l with
  | nil => simp [upTo]
  | cons a rest =>
    rw [List.filterMap_eq_nil_iff]
    constructor
    · intro hnil b hb
      exact hnil b (mem_upTo_of_mem_head? hb)
    · intro hhead b hb
      have ha : f a = none := hhead a rfl
      rw [upTo_cons_of_pos (h a List.mem_cons_self ha)] at hb
      rwa [List.mem_singleton.mp hb]

end Lib
