import WirelessBridge.Components.FailedCall
import WirelessBridge.Lib.Ownership

/-!
# The end of the components

When the launcher leaves its scope, the manager gives up its components in the order in which the
map of the registry is taken down. Components hold others by shared pointers, which their
constructors have locked, and so may the launcher and, for a while, a worker.
-/

namespace HBE

open Lib

/-- The registered components, by their numbers. -/
def componentNumbers (registered : ComponentsRegistry) : List ℕ :=
  registered.toList.map (·.2.number)

variable {registered : ComponentsRegistry} {created : ℕ}

lemma mem_componentNumbers {n : ℕ} :
    n ∈ componentNumbers registered ↔ ∃ name c, registered.find? name = some c ∧ c.number = n := by
  simp [componentNumbers, OrderedMap.find?_eq_some_iff]

lemma Wired.nodup_componentNumbers (h : Wired registered created) :
    (componentNumbers registered).Nodup := by
  apply List.Nodup.map_on _ (List.Nodup.of_map _ registered.nodup_keys)
  rintro ⟨name, c⟩ hc ⟨name', c'⟩ hc' hnumber
  rw [← OrderedMap.find?_eq_some_iff] at hc hc'
  obtain rfl := h.unique name c name' c' hc hc' hnumber
  rw [Option.some.inj (hc.symm.trans hc')]

/-- What a component is bound to is registered as well. -/
lemma Wired.mem_componentNumbers_of_dependsOn (h : Wired registered created) {n n' : ℕ}
    (hn : DependsOn registered n n') : n' ∈ componentNumbers registered := by
  obtain ⟨name, c, k, i, hc, -, hi, rfl⟩ := hn
  obtain ⟨-, name', c', hc', hi'⟩ := h.bound name c hc k i hi
  exact mem_componentNumbers.mpr ⟨name', c', hc', (h.own name' c' hc' k i hi').symm⟩

open CComponentManager in
/-- Whatever was registered, in whatever order the registry and other holders of components give
them up, and whoever locks a reference in between: every component is destroyed once, behind all
that hold it, no reference outlives what it refers to, and when all holders are gone so are the
components. `keeps` tells which of the components that one is bound to it holds. -/
theorem destroyed_behind_dependents (calls : List (ComponentConfig × Imported))
    {keeps : ℕ → List ℕ} {others : List ℕ} {tr : List (Heap ℕ × HeapEvent ℕ)} {s : Heap ℕ} :
    let registered := (init.registerAll calls).registered
    (∀ n, ∀ n' ∈ keeps n, DependsOn registered n n') →
    (∀ n ∈ others, n ∈ componentNumbers registered) →
    Run (HeapStep keeps)
      ⟨componentNumbers registered, componentNumbers registered ++ others, []⟩ tr s →
    (s.alive ++ s.destroyed).Nodup ∧
    (∀ n, n ∈ s.alive ∨ n ∈ s.destroyed ↔ n ∈ componentNumbers registered) ∧
    (∀ n, s.Referenced keeps n → n ∈ s.alive) ∧
    (∀ before n after, s.destroyed = before ++ n :: after →
      ∀ m ∈ componentNumbers registered, n ∈ keeps m → m ∈ before) ∧
    (s.held = [] → ∃ tr' t, Run (HeapStep keeps) s tr' t ∧ (∀ p ∈ tr', p.2.IsDestroy) ∧
      t.alive = []) := by
  intro registered hkeeps hothers hrun
  have hwired : Wired registered _ := wired_registerAll wired_empty calls
  have hstart : (⟨componentNumbers registered, componentNumbers registered ++ others, []⟩ :
      Heap ℕ).Sound keeps (componentNumbers registered) := by
    refine Heap.sound_start ?_ ?_
    · intro n hn
      exact (List.mem_append.mp hn).elim id (hothers n)
    · intro m _ n hn
      exact hwired.mem_componentNumbers_of_dependsOn (hkeeps m n hn)
  have hsound : s.Sound keeps (componentNumbers registered) :=
    hrun.invariant HeapStep.sound hstart
  refine ⟨?_, ?_, hsound.referenced, hsound.ordered, ?_⟩
  · exact hsound.all.nodup_iff.mpr hwired.nodup_componentNumbers
  · intro n
    rw [← List.mem_append, hsound.all.mem_iff]
  · refine Heap.exists_all_destroyed fun n hcycle => hwired.acyclic n ?_
    exact Relation.TransGen.mono hkeeps n n hcycle

open CComponentManager in
/-- The registry gives up the error manager, which the launcher and the executor still hold, and
then the executor. -/
theorem destroyed_behind_dependents_executor :
    ∃ tr s, Run (HeapStep fun n => if n = 1 then [0] else []) ⟨[1, 0], [1, 0, 0], []⟩ tr s ∧
      tr.map (·.2) = [.release 0, .release 1, .destroy 1, .release 0, .destroy 0] ∧
      s.alive = [] ∧ (s.alive ++ s.destroyed).Nodup := by
  have hkeeps : ∀ n, ∀ n' ∈ (if n = 1 then [0] else []),
      DependsOn (init.registerAll [(finalHavenConfig, .ok (.ok finalHavenFactory)),
        (executorConfig, .ok (.ok executorFactory))]).registered n n' := by
    intro n n' hn'
    split at hn'
    · rename_i hn
      obtain rfl := hn
      obtain rfl := List.mem_singleton.mp hn'
      exact ⟨str "executor", _, str "FinalHaven", _, rfl, rfl, rfl, rfl⟩
    · exact absurd hn' List.not_mem_nil
  have h₁ : Run (HeapStep fun n => if n = 1 then [0] else []) ⟨[1, 0], [1, 0, 0], []⟩ _ _ :=
    .single (.release (n := 0) (by decide))
  have h₂ := h₁.append (.single (.release (n := 1) (by decide)))
  have h₃ := h₂.append (.single (.destroy (n := 1) (by decide) (by simp [Heap.Referenced])))
  have h₄ := h₃.append (.single (.release (n := 0) (by decide)))
  have h₅ := h₄.append (.single (.destroy (n := 0) (by decide) (by simp [Heap.Referenced])))
  have hall := @destroyed_behind_dependents [(finalHavenConfig, .ok (.ok finalHavenFactory)),
    (executorConfig, .ok (.ok executorFactory))] _ [0] _ _ hkeeps
    (fun n hn => by
      obtain rfl := List.mem_singleton.mp hn
      exact mem_componentNumbers.mpr ⟨str "final_haven", _, rfl, rfl⟩) h₅
  exact ⟨_, _, h₅, rfl, rfl, hall.1⟩

end HBE
