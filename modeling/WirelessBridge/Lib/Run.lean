import Mathlib.Data.List.Basic
import Mathlib.Data.List.Induction
import Mathlib.Tactic.Common

/-!
# Runs of a labelled step relation

A run is recorded as the list of its steps: for each one, the state it was taken from and the
event that caused it. What a run did is then a function of that list, and a condition on every
step of a run is a statement about its members.
-/

namespace Lib

variable {σ ε : Type*}

/-- `Run step s tr t`: from `s`, the recorded steps `tr` lead to `t`. -/
inductive Run (step : σ → ε → σ → Prop) : σ → List (σ × ε) → σ → Prop where
  | nil (s : σ) : Run step s [] s
  | cons {s t u : σ} {e : ε} {tr : List (σ × ε)} (hstep : step s e t) (hrun : Run step t tr u) :
      Run step s ((s, e) :: tr) u

namespace Run

variable {step : σ → ε → σ → Prop} {s t u : σ} {e : ε} {tr tr' : List (σ × ε)}

lemma nil_iff : Run step s [] t ↔ s = t := by
  constructor
  · rintro ⟨⟩; rfl
  · rintro rfl; exact .nil s

lemma cons_iff {p : σ × ε} :
    Run step s (p :: tr) u ↔ p.1 = s ∧ ∃ t, step s p.2 t ∧ Run step t tr u := by
  constructor
  · rintro (_ | ⟨hstep, hrun⟩)
    exact ⟨rfl, _, hstep, hrun⟩
  · obtain ⟨s', e⟩ := p
    rintro ⟨rfl, t, hstep, hrun⟩
    exact .cons hstep hrun

lemma append_iff : Run step s (tr ++ tr') u ↔ ∃ t, Run step s tr t ∧ Run step t tr' u := by
  induction tr generalizing s with
  | nil => simp [nil_iff]
  | cons p tr ih =>
    simp only [List.cons_append, cons_iff, ih]
    constructor
    · rintro ⟨hp, t, hstep, v, hv, hu⟩
      exact ⟨v, ⟨hp, t, hstep, hv⟩, hu⟩
    · rintro ⟨v, ⟨hp, t, hstep, hv⟩, hu⟩
      exact ⟨hp, t, hstep, v, hv, hu⟩

lemma append (h : Run step s tr t) (h' : Run step t tr' u) : Run step s (tr ++ tr') u :=
  append_iff.mpr ⟨t, h, h'⟩

lemma single (hstep : step s e t) : Run step s [(s, e)] t :=
  .cons hstep (.nil t)

lemma snoc_iff {p : σ × ε} :
    Run step s (tr ++ [p]) u ↔ Run step s tr p.1 ∧ step p.1 p.2 u := by
  simp only [append_iff, cons_iff, nil_iff]
  constructor
  · rintro ⟨t, hrun, rfl, v, hstep, rfl⟩
    exact ⟨hrun, hstep⟩
  · rintro ⟨hrun, hstep⟩
    exact ⟨_, hrun, rfl, u, hstep, rfl⟩

/-- A run, split at one of its recorded steps. -/
lemma split_at {p : σ × ε} (h : Run step s (tr ++ p :: tr') u) :
    Run step s tr p.1 ∧ ∃ t, step p.1 p.2 t ∧ Run step t tr' u := by
  obtain ⟨v, hv, hrest⟩ := append_iff.mp h
  obtain ⟨rfl, t, hstep, hu⟩ := cons_iff.mp hrest
  exact ⟨hv, t, hstep, hu⟩

/-- The invariant rule: what every recorded step of the run preserves holds at its end. -/
lemma preserves {P : σ → Prop} (h : Run step s tr t)
    (hstep : ∀ a e b, (a, e) ∈ tr → P a → step a e b → P b) (hs : P s) : P t := by
  induction h with
  | nil s => exact hs
  | cons hst hrun ih =>
    refine ih (fun a e b hmem => hstep a e b (List.mem_cons_of_mem _ hmem)) ?_
    exact hstep _ _ _ List.mem_cons_self hs hst

/-- The same for what every step preserves, from any state. -/
lemma invariant {P : σ → Prop} (h : Run step s tr t) (hstep : ∀ {a e b}, step a e b → P a → P b)
    (hs : P s) : P t :=
  h.preserves (fun _ _ _ _ ha hst => hstep hst ha) hs

/-- The rule of the measure: where every step keeps `P`, and a counted one lowers `μ` while the
others do not raise it, the counted steps of a run are bounded by `μ`. -/
lemma countP_add_le {P : σ → Prop} {μ : σ → ℕ} {counted : ε → Bool} (h : Run step s tr t)
    (hkept : ∀ {a e b}, step a e b → P a → P b)
    (hstep : ∀ {a e b}, step a e b → P a → μ b + (if counted e then 1 else 0) ≤ μ a)
    (hs : P s) : tr.countP (fun p => counted p.2) + μ t ≤ μ s := by
  induction h with
  | nil s => simp
  | @cons s u t e tr hst _ ih =>
    have hfirst := hstep hst hs
    have hrest := ih (hkept hst hs)
    calc ((s, e) :: tr).countP (fun p => counted p.2) + μ t
        = tr.countP (fun p => counted p.2) + (if counted e then 1 else 0) + μ t := by
          rw [List.countP_cons]
      _ ≤ μ u + (if counted e then 1 else 0) := by omega
      _ ≤ μ s := hfirst

/-- The rule of the account: what the steps of a run have taken out of a store, and what is in it at
the end, is what was in it and what they have put in. -/
lemma account {α : Type*} (held : σ → List α) (taken put : σ × ε → Option α)
    (h : Run step s tr t)
    (hstep : ∀ {a e b}, step a e b →
      ((taken (a, e)).toList ++ held b).Perm (held a ++ (put (a, e)).toList)) :
    (tr.filterMap taken ++ held t).Perm (held s ++ tr.filterMap put) := by
  simp only [List.filterMap_eq_flatMap_toList]
  induction h with
  | nil s => simp
  | @cons s u t e tr hst hrun ih =>
    rw [List.flatMap_cons, List.flatMap_cons]
    calc (taken (s, e)).toList ++ tr.flatMap (fun p => (taken p).toList) ++ held t
        = (taken (s, e)).toList ++ (tr.flatMap (fun p => (taken p).toList) ++ held t) :=
          List.append_assoc _ _ _
      List.Perm _ ((taken (s, e)).toList ++ (held u ++ tr.flatMap fun p => (put p).toList)) :=
          ih.append_left _
      _ = (taken (s, e)).toList ++ held u ++ tr.flatMap (fun p => (put p).toList) :=
          (List.append_assoc _ _ _).symm
      List.Perm _ (held s ++ (put (s, e)).toList ++ tr.flatMap fun p => (put p).toList) :=
          (hstep hst).append_right _
      _ = held s ++ ((put (s, e)).toList ++ tr.flatMap fun p => (put p).toList) :=
          List.append_assoc _ _ _

/-- The same for a queue, which keeps the order: what was in it and what has been put in is what has
been taken out and what is in it at the end. -/
lemma queue {α : Type*} (held : σ → List α) (put taken : σ × ε → Option α) (h : Run step s tr t)
    (hstep : ∀ {a e b}, step a e b →
      held a ++ (put (a, e)).toList = (taken (a, e)).toList ++ held b) :
    held s ++ tr.filterMap put = tr.filterMap taken ++ held t := by
  simp only [List.filterMap_eq_flatMap_toList]
  induction h with
  | nil s => simp
  | @cons s u t e tr hst hrun ih =>
    rw [List.flatMap_cons, List.flatMap_cons, ← List.append_assoc, hstep hst, List.append_assoc, ih,
      List.append_assoc]

/-- The same for a log, from which nothing is taken. -/
lemma log {α : Type*} (held : σ → List α) (put : σ × ε → Option α) (h : Run step s tr t)
    (hstep : ∀ {a e b}, step a e b → held b = held a ++ (put (a, e)).toList) :
    held t = held s ++ tr.filterMap put := by
  have hqueue := h.queue held put (fun _ => none) fun hst => (hstep hst).symm
  rw [hqueue, List.filterMap_none, List.nil_append]

/-- A run seen through another step relation, to which every one of its steps belongs. -/
lemma map {τ δ : Type*} {step' : τ → δ → τ → Prop} (f : σ → τ) (g : ε → δ)
    (hstep : ∀ {a e b}, step a e b → step' (f a) (g e) (f b)) (h : Run step s tr t) :
    Run step' (f s) (tr.map fun p => (f p.1, g p.2)) (f t) := by
  induction h with
  | nil s => exact .nil (f s)
  | cons hst hrun ih => exact .cons (hstep hst) ih

/-- A run seen through another step relation, which has nothing to do for some of its steps. -/
lemma observe {τ δ : Type*} {step' : τ → δ → τ → Prop} {P : σ → Prop} (f : σ → τ)
    (view : σ × ε → Option δ) (hkept : ∀ {a e b}, step a e b → P a → P b)
    (hsilent : ∀ {a e b}, step a e b → P a → view (a, e) = none → f b = f a)
    (hseen : ∀ {a e b d}, step a e b → P a → view (a, e) = some d → step' (f a) d (f b))
    (h : Run step s tr t) (hs : P s) :
    Run step' (f s) (tr.filterMap fun p => (view p).map fun d => (f p.1, d)) (f t) := by
  induction h with
  | nil s => exact .nil (f s)
  | @cons s u t e tr hst hrun ih =>
    have hrest := ih (hkept hst hs)
    cases hview : view (s, e) with
    | none =>
      rw [List.filterMap_cons_none (by rw [hview]; rfl), ← hsilent hst hs hview]
      exact hrest
    | some d =>
      rw [List.filterMap_cons_some (by rw [hview]; rfl)]
      exact .cons (hseen hst hs hview) hrest

/-- A forward simulation of steps is one of runs. -/
lemma simulate {τ δ : Type*} {step' : τ → δ → τ → Prop} {R : σ → τ → Prop} {g : ε → δ} {u : τ}
    (hstep : ∀ {a e b c}, step a e b → R a c → ∃ d, step' c (g e) d ∧ R b d)
    (h : Run step s tr t) (hs : R s u) :
    ∃ tr' v, Run step' u tr' v ∧ tr'.map (·.2) = tr.map (fun p => g p.2) ∧ R t v := by
  induction h generalizing u with
  | nil s => exact ⟨[], u, .nil u, rfl, hs⟩
  | cons hst hrun ih =>
    obtain ⟨d, hst', hd⟩ := hstep hst hs
    obtain ⟨tr', v, hrun', htr, hv⟩ := ih hd
    exact ⟨_, v, .cons hst' hrun', by simp [htr], hv⟩

/-- The same where a step is matched by a run. -/
lemma simulate_run {τ δ : Type*} {step' : τ → δ → τ → Prop} {R : σ → τ → Prop} {u : τ}
    (h : Run step s tr t)
    (hstep : ∀ {a e b c}, step a e b → R a c → ∃ tr' d, Run step' c tr' d ∧ R b d) (hs : R s u) :
    ∃ tr' v, Run step' u tr' v ∧ R t v := by
  induction h generalizing u with
  | nil s => exact ⟨[], u, .nil u, hs⟩
  | cons hst hrun ih =>
    obtain ⟨tr₁, d, hfirst, hd⟩ := hstep hst hs
    obtain ⟨tr₂, v, hrest, hv⟩ := ih hd
    exact ⟨_, v, hfirst.append hrest, hv⟩

end Run

/-! ### Transitions -/

/-- What comes about on the way through the given states and on to `t`. -/
def transitions {α : Type*} (out : σ → σ → List α) : List σ → σ → List α
  | [], _ => []
  | [s], t => out s t
  | s :: u :: l, t => out s u ++ transitions out (u :: l) t

section

variable {α : Type*} {out : σ → σ → List α} {step : σ → ε → σ → Prop} {s t u : σ} {l l' : List σ}
  {tr : List (σ × ε)}

lemma transitions_cons (h : l.headD t = u) :
    transitions out (s :: l) t = out s u ++ transitions out l t := by
  subst h
  cases l with
  | nil => simp [transitions]
  | cons v l => rfl

lemma transitions_append (h : l'.headD t = u) :
    transitions out (l ++ l') t = transitions out l u ++ transitions out l' t := by
  induction l with
  | nil => rfl
  | cons s l ih =>
    have hhead : (l ++ l').headD t = l.headD u := by
      cases l with
      | nil => exact h
      | cons v l => rfl
    rw [List.cons_append, transitions_cons hhead, transitions_cons rfl, ih, List.append_assoc]

namespace Run

lemma headD_eq (h : Run step s tr t) : (tr.map (·.1)).headD t = s := by
  cases h <;> rfl

/-- The rule of the history: an invariant of the state and of what has come about so far. -/
lemma history {Q : List α → σ → Prop} {g : List α} (h : Run step s tr t)
    (hstep : ∀ {g a e b}, step a e b → Q g a → Q (g ++ out a b) b) (hs : Q g s) :
    Q (g ++ transitions out (tr.map (·.1)) t) t := by
  induction h generalizing g with
  | nil s =>
    rw [List.map_nil, transitions, List.append_nil]
    exact hs
  | cons hst hrun ih =>
    rw [List.map_cons, transitions_cons hrun.headD_eq, ← List.append_assoc]
    exact ih (hstep hst hs)

end Run

end

end Lib
