import Mathlib.Data.List.Basic
import Mathlib.Logic.Function.Basic
import Mathlib.Tactic.Common

/-!
# Unordered maps

An unordered map is given by its lookup function. The order in which a loop walks through it is
unspecified, and is given with every walk: any list of its keys without repetition.
-/

namespace Lib

abbrev KeyedMap (κ α : Type*) := κ → Option α

namespace KeyedMap

variable {κ α : Type*} [DecidableEq κ]

def empty : KeyedMap κ α := fun _ => none

/-- `emplace` and `insert` leave an entry that is already there. -/
def emplace (m : KeyedMap κ α) (k : κ) (a : α) : KeyedMap κ α :=
  if (m k).isSome then m else Function.update m k (some a)

def modify (m : KeyedMap κ α) (k : κ) (f : α → α) : KeyedMap κ α :=
  Function.update m k ((m k).map f)

def erase (m : KeyedMap κ α) (k : κ) : KeyedMap κ α :=
  Function.update m k none

structure IterationOrder (m : KeyedMap κ α) (order : List κ) : Prop where
  nodup : order.Nodup
  mem_iff : ∀ k, k ∈ order ↔ (m k).isSome

variable {m : KeyedMap κ α} {k k' : κ} {a b : α} {f : α → α}

@[simp] lemma modify_self : m.modify k f k = (m k).map f := by
  simp [modify]

lemma modify_of_ne (h : k' ≠ k) : m.modify k f k' = m k' := by
  simp [modify, h]

@[simp] lemma isSome_modify : (m.modify k f k').isSome = (m k').isSome := by
  by_cases h : k' = k
  · subst h
    simp
  · rw [modify_of_ne h]

lemma emplace_of_isSome (h : (m k).isSome) : m.emplace k a = m := by
  simp [emplace, h]

lemma emplace_self_of_eq_none (h : m k = none) : m.emplace k a k = some a := by
  simp [emplace, h]

lemma isSome_emplace_self : (m.emplace k a k).isSome := by
  simp only [emplace]
  split_ifs with h
  · exact h
  · simp

lemma emplace_of_ne (h : k' ≠ k) : m.emplace k a k' = m k' := by
  simp only [emplace]
  split_ifs
  · rfl
  · simp [h]

lemma emplace_of_eq_some (h : m k' = some b) : m.emplace k a k' = some b := by
  simp only [emplace]
  split_ifs with hk
  · exact h
  · have hne : k' ≠ k := by
      rintro rfl
      simp [h] at hk
    rw [Function.update_of_ne hne, h]

/-- An entry was there before, or is the new one. -/
lemma emplace_eq_some_cases (h : m.emplace k a k' = some b) :
    m k' = some b ∨ m k = none ∧ k' = k ∧ b = a := by
  simp only [emplace] at h
  split_ifs at h with hk
  · exact .inl h
  · by_cases heq : k' = k
    · subst heq
      rw [Function.update_self] at h
      exact .inr ⟨Option.not_isSome_iff_eq_none.mp hk, rfl, (Option.some.inj h).symm⟩
    · rw [Function.update_of_ne heq] at h
      exact .inl h

lemma erase_of_ne (h : k' ≠ k) : m.erase k k' = m k' := Function.update_of_ne h _ _

lemma erase_eq_some_iff : m.erase k k' = some b ↔ k' ≠ k ∧ m k' = some b := by
  by_cases h : k' = k
  · subst h
    simp [erase]
  · simp [erase_of_ne h, h]

omit [DecidableEq κ] in
lemma iterationOrder_congr {m' : KeyedMap κ α} (h : ∀ k, (m' k).isSome = (m k).isSome)
    {order : List κ} : m'.IterationOrder order ↔ m.IterationOrder order := by
  constructor
  · rintro ⟨hnodup, hmem⟩
    exact ⟨hnodup, fun k => by rw [hmem, h]⟩
  · rintro ⟨hnodup, hmem⟩
    exact ⟨hnodup, fun k => by rw [hmem, h]⟩

omit [DecidableEq κ] in
lemma iterationOrder_empty : (empty : KeyedMap κ α).IterationOrder [] :=
  ⟨List.nodup_nil, fun k => by simp [empty]⟩

lemma IterationOrder.emplace {order : List κ} (h : m.IterationOrder order) (hk : m k = none) :
    (m.emplace k a).IterationOrder (k :: order) := by
  refine ⟨List.nodup_cons.mpr ⟨fun hmem => ?_, h.nodup⟩, fun k' => ?_⟩
  · have hsome := (h.mem_iff k).mp hmem
    rw [hk] at hsome
    simp at hsome
  · by_cases hne : k' = k
    · subst hne
      simp [isSome_emplace_self]
    · simp [hne, emplace_of_ne hne, h.mem_iff]

end KeyedMap

end Lib
