import Mathlib.Data.List.Basic
import Mathlib.Tactic.Common

/-!
# What a routine did

A routine that acts on its surroundings and may be cut short is described by its effects, in
order, and by the fault that ended it. Effects that came before a fault stay.
-/

namespace Lib

structure Performed (α φ : Type*) where
  effects : List α
  fault : Option φ
  deriving DecidableEq

namespace Performed

variable {α φ : Type*}

def nothing : Performed α φ := ⟨[], none⟩

def does (a : α) : Performed α φ := ⟨[a], none⟩

def fails (f : φ) : Performed α φ := ⟨[], some f⟩

/-- One routine after another: the second one runs unless the first was cut short. -/
def andThen (p q : Performed α φ) : Performed α φ :=
  match p.fault with
  | none => ⟨p.effects ++ q.effects, q.fault⟩
  | some f => ⟨p.effects, some f⟩

variable {p q r : Performed α φ} {a : α} {f : φ}

@[simp] lemma nothing_effects : (nothing : Performed α φ).effects = [] := rfl

@[simp] lemma nothing_fault : (nothing : Performed α φ).fault = none := rfl

@[simp] lemma does_effects : (does a : Performed α φ).effects = [a] := rfl

@[simp] lemma does_fault : (does a : Performed α φ).fault = none := rfl

@[simp] lemma fails_effects : (fails f : Performed α φ).effects = [] := rfl

@[simp] lemma fails_fault : (fails f : Performed α φ).fault = some f := rfl

@[simp] lemma nothing_andThen : nothing.andThen q = q := rfl

@[simp] lemma fails_andThen : (fails f).andThen q = fails f := rfl

@[simp] lemma andThen_nothing : p.andThen nothing = p := by
  obtain ⟨e, f⟩ := p
  cases f <;> simp [andThen]

lemma andThen_of_fault_eq_none (h : p.fault = none) :
    p.andThen q = ⟨p.effects ++ q.effects, q.fault⟩ := by
  simp [andThen, h]

lemma andThen_of_fault_ne_none (h : p.fault ≠ none) : p.andThen q = p := by
  obtain ⟨e, f⟩ := p
  cases f with
  | none => exact absurd rfl h
  | some f => rfl

lemma andThen_assoc : (p.andThen q).andThen r = p.andThen (q.andThen r) := by
  obtain ⟨e, f⟩ := p
  obtain ⟨e', f'⟩ := q
  cases f <;> cases f' <;> simp [andThen]

lemma fault_andThen_eq_none :
    (p.andThen q).fault = none ↔ p.fault = none ∧ q.fault = none := by
  obtain ⟨e, f⟩ := p
  cases f <;> simp [andThen]

lemma fault_andThen_eq_some :
    (p.andThen q).fault = some f ↔ p.fault = some f ∨ (p.fault = none ∧ q.fault = some f) := by
  obtain ⟨e, g⟩ := p
  cases g <;> simp [andThen]

/-- Every effect of a sequence is an effect of one of its parts. -/
lemma mem_effects_andThen (h : a ∈ (p.andThen q).effects) :
    a ∈ p.effects ∨ (p.fault = none ∧ a ∈ q.effects) := by
  obtain ⟨e, f⟩ := p
  cases f <;> simp_all [andThen]

/-- The second routine ran to the point where it stopped, or not at all. -/
lemma effects_andThen (p q : Performed α φ) :
    (p.andThen q).effects = p.effects ∨ (p.andThen q).effects = p.effects ++ q.effects := by
  obtain ⟨e, f⟩ := p
  cases f with
  | none => exact .inr rfl
  | some f => exact .inl rfl

end Performed

end Lib
