import Mathlib.Data.List.Basic
import Mathlib.Tactic.Common

/-!
# What a machine answers

A machine takes one input after another, and answers each. Two states are indistinguishable when
every sequence of inputs is answered the same from both; a relation that the steps keep shows it.
-/

namespace Lib

variable {σ ι ο : Type*} (step : σ → ι → ο × σ)

def outcomes : σ → List ι → List ο
  | _, [] => []
  | s, i :: rest => (step s i).1 :: outcomes (step s i).2 rest

def finalState (s : σ) (inputs : List ι) : σ := inputs.foldl (fun s i => (step s i).2) s

def Indistinguishable (s t : σ) : Prop := ∀ inputs, outcomes step s inputs = outcomes step t inputs

variable {step} {s t : σ} {inputs : List ι} {R : σ → σ → Prop} {P : ι → Prop}

/-- A relation that steps keep, with equal answers, on inputs of some kind. -/
theorem outcomes_eq_of_kept
    (hkept : ∀ s t i, P i → R s t → (step s i).1 = (step t i).1 ∧ R (step s i).2 (step t i).2)
    (hinputs : ∀ i ∈ inputs, P i) (h : R s t) :
    outcomes step s inputs = outcomes step t inputs := by
  induction inputs generalizing s t with
  | nil => rfl
  | cons i rest ih =>
    obtain ⟨hi, hrest⟩ := List.forall_mem_cons.mp hinputs
    obtain ⟨hanswer, hnext⟩ := hkept s t i hi h
    rw [outcomes, outcomes, hanswer, ih hrest hnext]

theorem indistinguishable_of_kept
    (hkept : ∀ s t i, R s t → (step s i).1 = (step t i).1 ∧ R (step s i).2 (step t i).2)
    (h : R s t) : Indistinguishable step s t := by
  intro inputs
  exact outcomes_eq_of_kept (P := fun _ => True) (fun s t i _ => hkept s t i)
    (fun _ _ => trivial) h

/-- One input that is answered differently tells two states apart. -/
lemma Indistinguishable.answer_eq (h : Indistinguishable step s t) (i : ι) :
    (step s i).1 = (step t i).1 :=
  List.head_eq_of_cons_eq (h [i])

/-- What every step keeps holds in the end. -/
lemma finalState_of_kept {Q : σ → Prop} (hkept : ∀ s i, Q s → Q (step s i).2) (h : Q s) :
    Q (finalState step s inputs) := by
  induction inputs generalizing s with
  | nil => exact h
  | cons i rest ih => exact ih (hkept s i h)

end Lib
