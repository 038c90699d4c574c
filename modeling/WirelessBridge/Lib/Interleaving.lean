import Mathlib.Data.List.Basic
import Mathlib.Tactic.Common

/-!
# A program interleaved with a list of actions

Two parties share a state. One runs a program, whose next step depends on its program point and on
the shared state; the other performs a given list of actions. Every order of their steps is
covered, and both run to their end.
-/

namespace Lib

variable {π ε σ : Type*}

inductive Interleaved (step : π → σ → Option (π × σ)) (act : σ → ε → σ) :
    π → List ε → σ → σ → Prop where
  | done {p : π} {s : σ} (h : step p s = none) : Interleaved step act p [] s s
  | step {p p' : π} {es : List ε} {s s' t : σ} (h : step p s = some (p', s'))
      (hrest : Interleaved step act p' es s' t) : Interleaved step act p es s t
  | act {p : π} {e : ε} {es : List ε} {s t : σ}
      (hrest : Interleaved step act p es (act s e) t) : Interleaved step act p (e :: es) s t

namespace Interleaved

variable {step : π → σ → Option (π × σ)} {act : σ → ε → σ} {p p' : π} {es a b : List ε}
  {s t : σ}

lemma acts (a : List ε) (h : Interleaved step act p b (a.foldl act s) t) :
    Interleaved step act p (a ++ b) s t := by
  induction a generalizing s with
  | nil => exact h
  | cons e a ih => exact .act (ih h)

/-- From a point where the program has ended, only the actions are left. -/
lemma iff_of_ended (hp : ∀ s, step p s = none) :
    Interleaved step act p es s t ↔ t = es.foldl act s := by
  constructor
  · intro h
    induction h with
    | done => rfl
    | step h => simp [hp] at h
    | act _ ih => exact ih hp
  · rintro rfl
    have h : Interleaved step act p (es ++ []) s (es.foldl act s) := acts es (.done (hp _))
    rwa [List.append_nil] at h

/-- From a point where the program goes on, some of the actions come before its next step. -/
lemma iff_of_running {f : σ → π × σ} (hp : ∀ s, step p s = some (f s)) :
    Interleaved step act p es s t ↔
      ∃ a b, es = a ++ b ∧
        Interleaved step act (f (a.foldl act s)).1 b (f (a.foldl act s)).2 t := by
  constructor
  · intro h
    induction h with
    | done h => simp [hp] at h
    | @step p p' es s s' t h hrest _ =>
      refine ⟨[], es, rfl, ?_⟩
      rw [hp] at h
      rwa [List.foldl_nil, Option.some.inj h]
    | @act p e es s t _ ih =>
      obtain ⟨a, b, rfl, hrest⟩ := ih hp
      exact ⟨e :: a, b, rfl, hrest⟩
  · rintro ⟨a, b, rfl, hrest⟩
    exact acts a (.step (hp _) hrest)

end Interleaved

end Lib
