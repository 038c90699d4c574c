import Mathlib.Algebra.Order.BigOperators.Group.Finset
import Mathlib.Data.Fintype.BigOperators
import WirelessBridge.System.WorkerPool

/-!
# The way out of `stopExecution`

The call cancels the timers one by one, clears the table, stops the service and joins the workers.
From the stop on nothing is taken from the queue, so that a worker comes to the end of what it runs,
if it runs anything, and leaves.
-/

namespace System

open Lib

variable {F W : Type*}

/-- The steps of the call that are still to come. -/
def StopPoint.ahead : StopPoint → ℕ
  | .running | .joined => 0
  | .cancelling rest => rest.length + 3
  | .stopping => 2
  | .joining => 1

/-- The step is one of `stopExecution`, behind its call. -/
def PoolEvent.isStopping : PoolEvent F W → Bool
  | .cancel _ | .clear | .stop | .join => true
  | .create _ | .exec _ | .leave _ | .fail _ _ | .stopExecution _ => false

/-- The step brings a worker to the end of a function, or out of `run`. -/
def PoolEvent.isLeaving : PoolEvent F W → Bool
  | .exec (.finish _ _) | .leave _ | .fail _ _ => true
  | _ => false

namespace WorkerPool

/-- The steps that a worker needs to leave. -/
def workAhead (s : WorkerPool F W) (w : W) : ℕ :=
  match s.workers w with
  | .inRun => if (s.exec.running w).isSome then 2 else 1
  | .absent | .left => 0

lemma workAhead_le_two (s : WorkerPool F W) (w : W) : s.workAhead w ≤ 2 := by
  rw [workAhead]
  split
  · split_ifs <;> omega
  · omega
  · omega

end WorkerPool

variable [DecidableEq W] {s s' : WorkerPool F W} {e : PoolEvent F W} {w : W}
  {tr : List (WorkerPool F W × PoolEvent F W)} {x : ExecEvent F W} {u u' : CExecutor F W}

/-! ### The steps of the call -/

lemma PoolStep.stopPoint_ne_running (h : PoolStep s e s') (hs : s.stopPoint ≠ .running) :
    s'.stopPoint ≠ .running := by
  cases h with
  | create _ h | stopExecution h => exact absurd h hs
  | exec | leave | fail => exact hs
  | cancel | clear | stop | join => simp

lemma PoolStep.ahead (h : PoolStep s e s') (hs : s.stopPoint ≠ .running) :
    s'.stopPoint.ahead + (if e.isStopping then 1 else 0) ≤ s.stopPoint.ahead := by
  cases h with
  | create _ h | stopExecution h => exact absurd h hs
  | exec | leave | fail => simp [PoolEvent.isStopping]
  | cancel h | clear h | stop h | join h => simp [PoolEvent.isStopping, h, StopPoint.ahead]

/-! ### The steps of the workers -/

lemma PoolStep.startedTasks_of_stopped (h : PoolStep s e s') (hs : s.Stopped) :
    e.exec?.bind ExecEvent.started? = none := by
  cases h with
  | @exec x t hstep hworker htakes =>
    cases hstep with
    | start => exact absurd hs (htakes trivial)
    | _ => rfl
  | _ => rfl

/-- The stopped service starts nothing, so that functions can only come to their end. -/
lemma ExecStep.running_of_stopped (h : ExecStep u x u') (htakes : ¬ x.Takes) :
    (u'.running = u.running ∧ (PoolEvent.exec x : PoolEvent F W).isLeaving = false) ∨
    ∃ w t thrown, x = .finish w thrown ∧ u.running w = some t ∧
      u'.running = Function.update u.running w none := by
  cases h with
  | advance | execute | expire => exact .inl ⟨rfl, rfl⟩
  | executeCyclic => exact .inl ⟨CExecutor.running_executeCyclic, rfl⟩
  | stopCyclic => exact .inl ⟨CExecutor.running_stopCyclic, rfl⟩
  | timeout | start => exact absurd trivial htakes
  | @finish w t thrown h => exact .inr ⟨w, t, thrown, rfl, h, rfl⟩

lemma PoolStep.workAhead (h : PoolStep s e s') (hs : s.Stopped) :
    (s'.workAhead = s.workAhead ∧ e.isLeaving = false) ∨
    ∃ w, s'.workAhead w < s.workAhead w ∧ ∀ w' ≠ w, s'.workAhead w' = s.workAhead w' := by
  cases h with
  | @exec x t hstep hworker htakes =>
    rcases hstep.running_of_stopped fun htake => htakes htake hs with
      ⟨hsame, hnot⟩ | ⟨w, task, thrown, rfl, hrunning, hended⟩
    · refine .inl ⟨?_, hnot⟩
      funext w
      simp only [WorkerPool.workAhead, hsame]
    · refine .inr ⟨w, ?_, ?_⟩
      · have hin : s.workers w = .inRun := hworker w rfl
        simp [WorkerPool.workAhead, hin, hrunning, hended]
      · intro w' hne
        simp [WorkerPool.workAhead, hended, hne]
  | @leave w hin hfree | @fail w ec hin hfree =>
    refine .inr ⟨w, ?_, ?_⟩
    · simp [WorkerPool.workAhead, hin, hfree]
    · intro w' hne
      simp [WorkerPool.workAhead, hne]
  | create _ h | stopExecution h | cancel h | clear h | stop h =>
    simp [WorkerPool.Stopped, h] at hs
  | join => exact .inl ⟨rfl, rfl⟩

/-! ### Runs -/

section

variable [Fintype W]

lemma PoolStep.work (h : PoolStep s e s') (hs : s.Stopped) :
    ∑ w, s'.workAhead w + (if e.isLeaving then 1 else 0) ≤ ∑ w, s.workAhead w := by
  rcases h.workAhead hs with ⟨hsame, hnot⟩ | ⟨w, hless, hothers⟩
  · simp [hsame, hnot]
  · have hsum : ∑ w', s'.workAhead w' < ∑ w', s.workAhead w' := by
      apply Finset.sum_lt_sum
      · intro w' _
        by_cases hne : w' = w
        · exact (hne ▸ hless).le
        · exact (hothers w' hne).le
      · exact ⟨w, Finset.mem_univ w, hless⟩
    split_ifs <;> omega

lemma leaving_of_run (hrun : Run PoolStep s tr s') (hs : s.Stopped) :
    tr.countP (fun p => p.2.isLeaving) ≤ 2 * Fintype.card W := by
  have hwork := hrun.countP_add_le PoolStep.stopped PoolStep.work hs
  calc tr.countP (fun p => p.2.isLeaving)
      ≤ ∑ w, s.workAhead w := by omega
    _ ≤ ∑ _ : W, 2 := Finset.sum_le_sum fun w _ => s.workAhead_le_two w
    _ = 2 * Fintype.card W := by simp [mul_comm]

end

lemma startedTasks_of_stopped (hrun : Run PoolStep s tr s') (hs : s.Stopped) :
    startedTasks tr = [] := by
  rw [startedTasks, List.filterMap_eq_nil_iff]
  intro p hp
  obtain ⟨l₁, l₂, rfl⟩ := List.append_of_mem hp
  obtain ⟨hbefore, t, hstep, -⟩ := hrun.split_at
  exact hstep.startedTasks_of_stopped (hbefore.invariant PoolStep.stopped hs)

/-- Behind its call and short of its end, `stopExecution` or a worker can go on. -/
lemma exists_stopping (hs : s.stopPoint ≠ .running) (hnot : s.stopPoint ≠ .joined) :
    ∃ e t, (e.isStopping = true ∨ e.isLeaving = true) ∧ PoolStep s e t := by
  cases h : s.stopPoint with
  | running => exact absurd h hs
  | cancelling rest =>
    cases rest with
    | nil => exact ⟨.clear, _, .inl rfl, .clear h⟩
    | cons id rest => exact ⟨.cancel id, _, .inl rfl, .cancel h⟩
  | stopping => exact ⟨.stop, _, .inl rfl, .stop h⟩
  | joining =>
    by_cases hin : ∃ w, s.workers w = .inRun
    · obtain ⟨w, hw⟩ := hin
      cases hrunning : s.exec.running w with
      | none => exact ⟨.leave w, _, .inr rfl, .leave hw hrunning (.inl h)⟩
      | some task =>
        refine ⟨.exec (.finish w none), _, .inr rfl, .exec (.finish none hrunning) ?_ ?_⟩
        · rintro w' ⟨⟩
          exact hw
        · exact fun htake => htake.elim
    · exact ⟨.join, _, .inl rfl, .join h (not_exists.mp hin)⟩
  | joined => exact absurd h hnot

/-- From the call of `stopExecution` on: the call takes one step for each timer and three more. When
the service is stopped no function is started any more, and the workers take two steps each at most,
to the end of what they run and out of `run`. Until the workers are joined, the call or a worker can
go on. -/
theorem stop_returns [Fintype W] (hcalled : s.stopPoint ≠ .running)
    (hrun : Run PoolStep s tr s') :
    tr.countP (fun p => p.2.isStopping) ≤ s.stopPoint.ahead ∧
    (s.Stopped → startedTasks tr = [] ∧
      tr.countP (fun p => p.2.isLeaving) ≤ 2 * Fintype.card W) ∧
    (s'.stopPoint = .joined ∨
      ∃ e t, (e.isStopping = true ∨ e.isLeaving = true) ∧ PoolStep s' e t) := by
  have hsteps := hrun.countP_add_le PoolStep.stopPoint_ne_running PoolStep.ahead hcalled
  have hcalled' : s'.stopPoint ≠ .running := hrun.invariant PoolStep.stopPoint_ne_running hcalled
  refine ⟨by omega, fun hs => ⟨startedTasks_of_stopped hrun hs, leaving_of_run hrun hs⟩, ?_⟩
  by_cases hjoined : s'.stopPoint = .joined
  · exact .inl hjoined
  · exact .inr (exists_stopping hcalled' hjoined)

/-- A worker in a function when the service is stopped: it takes two steps, and is joined. -/
theorem stop_returns_executing :
    ∃ (tr tr' : List (WorkerPool Bool Unit × PoolEvent Bool Unit)) (s s' : WorkerPool Bool Unit),
      Run PoolStep (.start 0) tr s ∧ Run PoolStep s tr' s' ∧
      s.exec.running () = some ⟨true, none⟩ ∧ s'.stopPoint = .joined ∧ startedTasks tr' = [] ∧
      tr'.countP (fun p => p.2.isLeaving) ≤ 2 := by
  have h₁ : Run PoolStep (.start 0 : WorkerPool Bool Unit) _ _ :=
    .single (PoolStep.create (w := ()) rfl rfl)
  have h₂ := h₁.append (.single (.exec (.execute _ true) (fun _ hw => by cases hw)
    fun htake => htake.elim))
  have h₃ := h₂.append (.single (.exec (.start (w := ()) rfl (rfl : _ = [] ++ _ :: _))
    (fun _ _ => rfl) fun _ hstopped => by simp [WorkerPool.Stopped, WorkerPool.start] at hstopped))
  have h₄ := h₃.append (.single (.stopExecution rfl KeyedMap.iterationOrder_empty))
  have h₅ := h₄.append (.single (.clear rfl))
  have h₆ := h₅.append (.single (.stop rfl))
  let s : WorkerPool Bool Unit :=
    ⟨{ (CExecutor.init 0 : CExecutor Bool Unit) with running := fun _ => some ⟨true, none⟩ },
      fun _ => .inRun, .joining, []⟩
  have h₇ : Run PoolStep s _ _ :=
    .single (.exec (.finish (w := ()) none rfl) (fun _ _ => rfl) fun htake => htake.elim)
  have h₈ := h₇.append (.single (.leave (w := ()) rfl rfl (.inl rfl)))
  have h₉ := h₈.append (.single (.join rfl fun _ hin => by cases hin))
  obtain ⟨-, hstopped, -⟩ := stop_returns (fun hrunning => by cases hrunning) h₉
  obtain ⟨hnone, hleaving⟩ := hstopped (.inl rfl)
  exact ⟨_, _, s, _, h₆, h₉, rfl, rfl, hnone, hleaving⟩

end System
