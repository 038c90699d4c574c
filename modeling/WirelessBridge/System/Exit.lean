import WirelessBridge.System.FinalHaven

/-!
# The way to the exit

Once a report has asked for the exit, the launcher is a bounded number of its own steps away from
the end of its loop, whatever is reported in the meantime. Timeouts do not count: the pop waits
only while there is nothing in the queue. No signal comes under the mutex of the queue here.
-/

namespace System

open Lib

/-- The step is one of the launcher, or of the threads it waits for. -/
def LauncherEvent.isTurn : LauncherEvent → Bool
  | .report _ _ | .signal _ => false
  | .waitAction | .pop | .wake _ | .test | .take => true

def launcherTurns (tr : List (Launcher × LauncherEvent)) : ℕ := tr.countP (·.2.isTurn)

/-- Turns to the next pop, if a report is there to be popped. -/
def LauncherPc.ahead : LauncherPc → ℕ
  | .ended => 0
  | .pop | .waiting => 1
  | .call | .popped none => 2
  | .returned _ => 3
  | .popped (some _) => 4

/-- Turns until the first `k` reports are popped, and the last of them taken. -/
def Launcher.work (k : ℕ) (s : Launcher) : ℕ := 4 * (k - s.errQueue.popped.length) + s.pc.ahead

variable {s t : Launcher} {e : LauncherEvent} {tr tr' : List (Launcher × LauncherEvent)} {k : ℕ}
  {err : HbeError}

/-! ### One turn -/

/-- While the launcher holds nothing and goes on, nothing that is popped has asked for the exit. -/
lemma exitRequest_of_popped (hs : InOrder s) (hends : EndsAtRequest s) (hheld : s.pc.held = [])
    (hpc : s.pc ≠ .ended) (hpopped : err ∈ s.errQueue.popped) : exitRequest err.1 = false := by
  rw [InOrder, hheld, List.append_nil] at hs
  rw [EndsAtRequest, if_neg hpc] at hends
  exact hends err (hs ▸ hpopped)

/-- The next pop finds a report, and is among the first `k`. -/
lemma exists_front_of_request (hs : InOrder s) (hends : EndsAtRequest s) (hheld : s.pc.held = [])
    (hpc : s.pc ≠ .ended) (hmem : err ∈ s.errQueue.pushed.take k)
    (hfatal : exitRequest err.1 = true) :
    s.errQueue.popped.length < k ∧ ∃ front, s.errQueue.front? = some front := by
  have hnot : err ∉ s.errQueue.popped := by
    intro hpopped
    rw [exitRequest_of_popped hs hends hheld hpc hpopped] at hfatal
    cases hfatal
  constructor
  · by_contra hle
    apply hnot
    rw [← s.errQueue.complete, List.take_append_of_le_length (not_lt.mp hle)] at hmem
    exact List.mem_of_mem_take hmem
  · apply Fifo.exists_front
    by_contra hle
    apply hnot
    have hlen := s.errQueue.length_complete
    have hempty : s.errQueue.content = [] := List.eq_nil_of_length_eq_zero (by omega)
    rw [← s.errQueue.complete, hempty, List.append_nil] at hmem
    exact List.mem_of_mem_take hmem

lemma work_takeFront (hs : InOrder s) (hends : EndsAtRequest s) (hheld : s.pc.held = [])
    (hpc : s.pc ≠ .ended) (hmem : err ∈ s.errQueue.pushed.take k)
    (hfatal : exitRequest err.1 = true) (hahead : s.pc.ahead = 1) :
    s.takeFront.work k < s.work k := by
  obtain ⟨hlt, front, hfront⟩ := exists_front_of_request hs hends hheld hpc hmem hfatal
  have hnew : s.takeFront.work k = 4 * (k - (s.errQueue.popped.length + 1)) + 4 := by
    simp [Launcher.work, Launcher.takeFront, hfront, LauncherPc.ahead]
  rw [hnew, Launcher.work, hahead]
  omega

lemma LauncherStep.turn (h : LauncherStep s e t) (hturn : e.isTurn = true) (hs : InOrder s)
    (hends : EndsAtRequest s) (hmem : err ∈ s.errQueue.pushed.take k)
    (hfatal : exitRequest err.1 = true) : t.work k < s.work k := by
  cases h with
  | report | signal => cases hturn
  | waitAction hpc => simp [Launcher.work, hpc, LauncherPc.ahead]
  | pop hpc _ =>
    exact work_takeFront hs hends (by rw [hpc]; rfl) (by simp [hpc]) hmem hfatal (by rw [hpc]; rfl)
  | wait hpc hempty =>
    obtain ⟨-, front, hfront⟩ :=
      exists_front_of_request hs hends (by rw [hpc]; rfl) (by simp [hpc]) hmem hfatal
    rw [Fifo.front?_eq_none_iff.mpr hempty] at hfront
    cases hfront
  | wake _ hpc _ =>
    exact work_takeFront hs hends (by rw [hpc]; rfl) (by simp [hpc]) hmem hfatal (by rw [hpc]; rfl)
  | @test actionItem hpc =>
    cases actionItem <;> simp [Launcher.work, hpc, retry, LauncherPc.ahead]
  | @take r hpc =>
    simp only [Launcher.work, Launcher.take, hpc, LauncherPc.ahead]
    split_ifs <;> simp

/-- What others do costs the launcher no turn, and takes no report away. -/
lemma LauncherStep.work_eq (h : LauncherStep s e t) (hturn : e.isTurn = false) :
    t.work k = s.work k := by
  cases h <;> first | rfl | cases hturn

lemma LauncherStep.mem_take (h : LauncherStep s e t) (hmem : err ∈ s.errQueue.pushed.take k) :
    err ∈ t.errQueue.pushed.take k := by
  rw [h.pushed, List.take_append]
  exact List.mem_append_left _ hmem

/-! ### A run of turns -/

lemma work_of_launcherRun (hrun : Run LauncherStep s tr t) (hs : InOrder s)
    (hends : EndsAtRequest s) (hmem : err ∈ s.errQueue.pushed.take k)
    (hfatal : exitRequest err.1 = true) : launcherTurns tr + t.work k ≤ s.work k := by
  refine hrun.countP_add_le
    (P := fun s => InOrder s ∧ EndsAtRequest s ∧ err ∈ s.errQueue.pushed.take k)
    (μ := Launcher.work k) ?_ ?_ ⟨hs, hends, hmem⟩
  · rintro a e b hstep ⟨hs, hends, hmem⟩
    exact ⟨hstep.inOrder hs, hstep.endsAtRequest hends, hstep.mem_take hmem⟩
  · rintro a e b hstep ⟨hs, hends, hmem⟩
    cases hturn : e.isTurn with
    | true => exact hstep.turn hturn hs hends hmem hfatal
    | false => exact (hstep.work_eq hturn).le

/-- Short of its end, the launcher can always go on. -/
lemma exists_turn (hpc : s.pc ≠ .ended) : ∃ e t, e.isTurn = true ∧ LauncherStep s e t := by
  cases h : s.pc with
  | call => exact ⟨.waitAction, _, rfl, .waitAction h⟩
  | pop =>
    by_cases hempty : s.errQueue.content = []
    · exact ⟨.pop, _, rfl, .wait h hempty⟩
    · exact ⟨.pop, _, rfl, .pop h hempty⟩
  | waiting => exact ⟨.wake true, _, rfl, .wake true h (.inl rfl)⟩
  | popped actionItem => exact ⟨.test, _, rfl, .test h⟩
  | returned err => exact ⟨.take, _, rfl, .take h⟩
  | ended => exact absurd h hpc

/-- After a report that asks for the exit, the launcher takes at most four turns for it and for each
report before it that is still in the queue, and four more. Until its loop has ended it can take
another one. -/
theorem exit_within {pre post : List HbeError} {s' : Launcher}
    (hrun : Run LauncherStep .start tr s) (hreports : reports tr = pre ++ err :: post)
    (hfatal : exitRequest err.1 = true) (hnext : Run LauncherStep s tr' s') :
    launcherTurns tr' ≤ 4 * (pre.length + 1 - s.errQueue.popped.length) + 4 ∧
      (s'.pc = .ended ∨ ∃ e t, e.isTurn = true ∧ LauncherStep s' e t) := by
  have hs : InOrder s := hrun.invariant LauncherStep.inOrder rfl
  have hends : EndsAtRequest s := hrun.invariant LauncherStep.endsAtRequest nofun
  have hpushed : s.errQueue.pushed = reports tr := pushed_eq_reports hrun
  have hmem : err ∈ s.errQueue.pushed.take (pre.length + 1) := by
    rw [hpushed, hreports, List.take_length_add_append]
    simp
  have hwork := work_of_launcherRun hnext hs hends hmem hfatal
  have hahead : s.pc.ahead ≤ 4 := by
    cases h : s.pc with
    | popped actionItem => cases actionItem <;> simp [LauncherPc.ahead]
    | _ => simp [LauncherPc.ahead]
  constructor
  · simp only [Launcher.work] at hwork
    omega
  · by_cases hpc : s'.pc = .ended
    · exact .inl hpc
    · exact .inr (exists_turn hpc)

/-- A signal, and the four turns that it takes from then on. -/
theorem exit_within_signal :
    ∃ tr tr' s s', Run LauncherStep .start tr s ∧ Run LauncherStep s tr' s' ∧
      launcherTurns tr' = 4 ∧ 4 ≤ 4 * (0 + 1 - s.errQueue.popped.length) + 4 ∧
      s'.pc = .ended := by
  have h₁ := Run.single (LauncherStep.signal .start 15)
  have h₂ := Run.single (LauncherStep.waitAction (s := .report (signalError 15) .start) rfl)
  have h₃ := h₂.append (.single (.pop rfl (by exact List.cons_ne_nil _ _)))
  have h₄ := h₃.append (.single (.test rfl))
  have h₅ := h₄.append (.single (.take rfl))
  obtain ⟨hturns, -⟩ := exit_within h₁ (rfl : _ = [] ++ _ :: []) rfl h₅
  exact ⟨_, _, _, _, h₁, h₅, rfl, hturns, rfl⟩

end System
