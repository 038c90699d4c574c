import WirelessBridge.System.Executor

/-!
# Stopping a cyclic function

`stop_cyclic` removes the entry of the table. What has been posted for it stays in the queue, and
a worker that runs it goes on.
-/

namespace System

open Lib

variable {F W : Type*}

namespace CExecutor

/-- Timers and the registrations that go with them are numbered below the counter. -/
structure Numbered (s : CExecutor F W) : Prop where
  items : ∀ id item, s.cycleItems id = some item → item.timer < s.timersMade
  tasks : ∀ t id timer, s.Pending t → t.origin = some (id, timer) → timer < s.timersMade

/-- Everything that is registered or posted under `id` belongs to a timer not below `n`. -/
structure Fresh (id : UInt32) (n : ℕ) (s : CExecutor F W) : Prop where
  made : n ≤ s.timersMade
  items : ∀ item, s.cycleItems id = some item → n ≤ item.timer
  tasks : ∀ t timer, s.Pending t → t.origin = some (id, timer) → n ≤ timer

end CExecutor

open CExecutor

variable {s s' t : CExecutor F W} {e : ExecEvent F W} {id : UInt32} {n : ℕ}
  {tr : List (CExecutor F W × ExecEvent F W)}

lemma numbered_init (now : ℤ) : (init now : CExecutor F W).Numbered := by
  refine ⟨nofun, ?_⟩
  rintro t id timer (h | ⟨w, h⟩)
  · simp [init] at h
  · cases h

/-- When nothing is pending under the id, stopping it makes it fresh. -/
lemma fresh_stopCyclic (h : ∀ t timer, s.Pending t → t.origin ≠ some (id, timer)) :
    (s.stopCyclic id).Fresh id s.timersMade := by
  constructor
  · rw [timersMade_stopCyclic]
  · intro item hitem
    rw [cycleItems_stopCyclic] at hitem
    exact absurd rfl (KeyedMap.erase_eq_some_iff.mp hitem).1
  · intro t timer ht horigin
    exact absurd horigin (h t timer (pending_stopCyclic.mp ht))

variable [DecidableEq W]

lemma ExecStep.numbered (h : ExecStep s e s') (hs : s.Numbered) : s'.Numbered := by
  constructor
  · intro id item hitem
    rcases h.cycleItems hitem with hold | ⟨hnew, hlt⟩
    · exact (hs.items id item hold).trans_le h.timersMade_le
    · rw [hnew]
      exact hlt
  · intro t id timer ht horigin
    rcases h.pending ht with hold | hnone | ⟨id', item, hitem, rfl⟩
    · exact (hs.tasks t id timer hold horigin).trans_le h.timersMade_le
    · rw [hnone] at horigin
      cases horigin
    · obtain ⟨rfl, rfl⟩ := Prod.mk.inj (Option.some.inj horigin)
      exact (hs.items _ item hitem).trans_le h.timersMade_le

lemma ExecStep.fresh (h : ExecStep s e s') (hs : s.Fresh id n) : s'.Fresh id n := by
  constructor
  · exact hs.made.trans h.timersMade_le
  · intro item hitem
    rcases h.cycleItems hitem with hold | ⟨hnew, -⟩
    · exact hs.items item hold
    · rw [hnew]
      exact hs.made
  · intro t timer ht horigin
    rcases h.pending ht with hold | hnone | ⟨id', item, hitem, rfl⟩
    · exact hs.tasks t timer hold horigin
    · rw [hnone] at horigin
      cases horigin
    · obtain ⟨rfl, rfl⟩ := Prod.mk.inj (Option.some.inj horigin)
      exact hs.items item hitem

lemma numbered_of_run (hrun : Run ExecStep s tr t) (hs : s.Numbered) : t.Numbered :=
  hrun.invariant ExecStep.numbered hs

lemma fresh_of_run (hrun : Run ExecStep s tr t) (hs : s.Fresh id n) : t.Fresh id n :=
  hrun.invariant ExecStep.fresh hs

/-- From the return of `stop_cyclic(id)` on, workers are inside a function for `id` only when it
has been registered after the call. -/
def StopIsFinal (id : UInt32) (s : CExecutor F W) : Prop :=
  ∀ tr t, Run ExecStep (s.stopCyclic id) tr t → ∀ w task timer, t.running w = some task →
    task.origin = some (id, timer) → s.timersMade ≤ timer

/-- `stop_cyclic` is final exactly when no function of the id waits in the queue or runs at the
call. -/
theorem stop_cyclic_final_iff [Nonempty W] {now : ℤ} (hrun : Run ExecStep (init now) tr s) :
    StopIsFinal id s ↔ ∀ task timer, s.Pending task → task.origin ≠ some (id, timer) := by
  constructor
  · intro hfinal task timer hpending horigin
    have hlt := (numbered_of_run hrun (numbered_init now)).tasks task id timer hpending horigin
    have hpending' : (s.stopCyclic id).Pending task := pending_stopCyclic.mpr hpending
    obtain ⟨tr', t, w, hrun', hw⟩ : ∃ tr' t w, Run ExecStep (s.stopCyclic id) tr' t ∧
        t.running w = some task := by
      rcases hpending' with hmem | ⟨w, hw⟩
      · obtain ⟨w⟩ := ‹Nonempty W›
        obtain ⟨l₁, l₂, hq⟩ := List.append_of_mem hmem
        obtain ⟨tr', t, hrun', -, -, hrunning⟩ := exists_start w hq
        exact ⟨tr', t, w, hrun', by simp [hrunning]⟩
      · exact ⟨[], _, w, .nil _, hw⟩
    exact absurd (hfinal tr' t hrun' w task timer hw horigin) (Nat.not_le.mpr hlt)
  · intro hidle tr' t hrun' w task timer hw horigin
    exact (fresh_of_run hrun' (fresh_stopCyclic hidle)).tasks task timer (.inr ⟨w, hw⟩) horigin

/-- A function stopped before its timer has expired is not executed any more. -/
theorem stop_cyclic_final_early :
    ∃ tr s, Run ExecStep (init 0 : CExecutor Unit Unit) tr s ∧ (s.cycleItems 7).isSome ∧
      StopIsFinal 7 s := by
  have h := Run.single (ExecStep.executeCyclic (init 0 : CExecutor Unit Unit) () 1000 7)
  refine ⟨_, _, h, rfl, (stop_cyclic_final_iff h).mpr ?_⟩
  rintro task timer (hmem | ⟨w, hw⟩)
  · exact absurd hmem List.not_mem_nil
  · cases hw

/-- A function posted before the call is started after it. -/
theorem started_after_stop :
    ¬ ∀ (F W : Type) (_ : DecidableEq W) (now : ℤ)
        (tr : List (CExecutor F W × ExecEvent F W)) (s : CExecutor F W) (id : UInt32),
        Run ExecStep (init now) tr s → StopIsFinal id s := by
  intro hclaim
  have h₁ := Run.single (ExecStep.executeCyclic (init 0 : CExecutor Unit Unit) () 1000 7)
  have h₂ := h₁.append (.single (.advance 1000 (by decide)))
  have h₃ := h₂.append (.single (.expire (rfl : _ = [] ++ _ :: _) (by decide)))
  have h₄ := h₃.append (.single (.timeout (w := ()) rfl (rfl : _ = [] ++ _ :: _)))
  have hfinal := hclaim Unit Unit _ 0 _ _ 7 h₄
  have hlate := hfinal _ _ (.single (.start (w := ()) rfl (rfl : _ = [] ++ _ :: _))) () _ 0 rfl rfl
  exact absurd hlate (by decide)

end System
