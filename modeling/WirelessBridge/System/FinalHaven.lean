import WirelessBridge.Lib.Fifo
import WirelessBridge.Lib.Run
import WirelessBridge.System.Interfaces

/-!
# Reports and the exit of the application

`CFinalHaven` queues what components report and what a signal asks for. The launcher takes the
reports one by one, and ends its loop at the first one that is fatal.
-/

namespace System

open Lib

abbrev HbeError := ErrorLevel × Str

/-- The `switch` of the launcher, which sets `exit_request` in its default branch. -/
def exitRequest : ErrorLevel → Bool
  | .systemLevel => false
  | .componentLevel => false
  | .userLevel => true
  | .criticalLevel => true

/-- The numbers of `SIGINT` and `SIGTERM`. -/
def terminationSignals : List ℤ := [2, 15]

/-- What `signalHandlerLocal` reports. -/
def signalError (sig : ℤ) : HbeError :=
  if sig ∈ terminationSignals then
    (.userLevel, str "Application termination requested by user")
  else
    (.userLevel, str "Fatal signal obtained")

/-- Where the loop of the launcher stands, with `waitAction` and `pop` that it calls and waits for:
at the call of `waitAction`, at the mutex of the queue, in the timed wait, back with what was popped,
back from `waitAction`, or at its end. -/
inductive LauncherPc where
  | call
  | pop
  | waiting
  | popped (actionItem : Option HbeError)
  | returned (err : HbeError)
  | ended
  deriving DecidableEq

/-- The report that is taken from the queue and not yet by the launcher. -/
def LauncherPc.held : LauncherPc → List HbeError
  | .popped actionItem => actionItem.toList
  | .returned err => [err]
  | _ => []

/-- `while(!action_item)` in `waitAction`. -/
def retry : Option HbeError → LauncherPc
  | none => .pop
  | some err => .returned err

structure Launcher where
  errQueue : Fifo HbeError
  pc : LauncherPc
  /-- What the launcher has got from the futures. -/
  taken : List HbeError

namespace Launcher

def start : Launcher := ⟨.empty, .call, []⟩

/-- Each report is one push. -/
def report (err : HbeError) (s : Launcher) : Launcher := { s with errQueue := s.errQueue.push err }

/-- The end of `pop`: the front of the queue, if it has one. -/
def takeFront (s : Launcher) : Launcher :=
  { s with errQueue := s.errQueue.pop, pc := .popped s.errQueue.front? }

/-- From the ready future to the test of the loop the launcher only uses its own variables. -/
def take (err : HbeError) (s : Launcher) : Launcher :=
  { s with pc := if exitRequest err.1 then .ended else .call, taken := s.taken ++ [err] }

end Launcher

inductive LauncherEvent where
  | report (errLevel : ErrorLevel) (errorDescr : Str)
  | signal (sig : ℤ)
  | waitAction
  | pop
  | wake (timedOut : Bool)
  | test
  | take

/-- One step of a thread that reports, of a signal, or of the launcher and the threads it waits for.
What is done under the mutex of the queue is one step: no signal comes to a thread that holds it,
where its own push would wait for ever. -/
inductive LauncherStep : Launcher → LauncherEvent → Launcher → Prop where
  | report (s : Launcher) (errLevel : ErrorLevel) (errorDescr : Str) :
      LauncherStep s (.report errLevel errorDescr) (s.report (errLevel, errorDescr))
  | signal (s : Launcher) (sig : ℤ) : LauncherStep s (.signal sig) (s.report (signalError sig))
  | waitAction {s : Launcher} (h : s.pc = .call) :
      LauncherStep s .waitAction { s with pc := .pop }
  | pop {s : Launcher} (h : s.pc = .pop) (hready : s.errQueue.content ≠ []) :
      LauncherStep s .pop s.takeFront
  | wait {s : Launcher} (h : s.pc = .pop) (hempty : s.errQueue.content = []) :
      LauncherStep s .pop { s with pc := .waiting }
  | wake {s : Launcher} (timedOut : Bool) (h : s.pc = .waiting)
      (hawake : timedOut = true ∨ s.errQueue.content ≠ []) :
      LauncherStep s (.wake timedOut) s.takeFront
  | test {s : Launcher} {actionItem : Option HbeError} (h : s.pc = .popped actionItem) :
      LauncherStep s .test { s with pc := retry actionItem }
  | take {s : Launcher} {err : HbeError} (h : s.pc = .returned err) :
      LauncherStep s .take (s.take err)

def LauncherEvent.reported? : LauncherEvent → Option HbeError
  | .report errLevel errorDescr => some (errLevel, errorDescr)
  | .signal sig => some (signalError sig)
  | _ => none

/-- What a run reports, in the order of the pushes. -/
def reports (tr : List (Launcher × LauncherEvent)) : List HbeError := tr.filterMap (·.2.reported?)

variable {s s' t : Launcher} {e : LauncherEvent} {tr : List (Launcher × LauncherEvent)}

/-! ### No report is lost -/

lemma LauncherStep.pushed (h : LauncherStep s e s') :
    s'.errQueue.pushed = s.errQueue.pushed ++ e.reported?.toList := by
  cases h <;> simp [Launcher.report, Launcher.takeFront, Launcher.take, LauncherEvent.reported?]

lemma pushed_eq_reports (hrun : Run LauncherStep s tr t) :
    t.errQueue.pushed = s.errQueue.pushed ++ reports tr :=
  hrun.log (·.errQueue.pushed) (·.2.reported?) LauncherStep.pushed

/-- What has come out of the queue is with the launcher, or on its way to it. -/
def InOrder (s : Launcher) : Prop := s.errQueue.popped = s.taken ++ s.pc.held

lemma LauncherStep.inOrder (h : LauncherStep s e s') (hs : InOrder s) : InOrder s' := by
  rw [InOrder] at hs ⊢
  cases h with
  | report | signal => exact hs
  | waitAction h | wait h =>
    rw [h] at hs
    exact hs
  | pop h | wake _ h =>
    have htaken : s.errQueue.popped = s.taken := by simpa [h, LauncherPc.held] using hs
    show s.errQueue.popped ++ s.errQueue.front?.toList = s.taken ++ s.errQueue.front?.toList
    rw [htaken]
  | @test actionItem h =>
    rw [h] at hs
    cases actionItem <;> exact hs
  | @take err h =>
    rw [h] at hs
    show s.errQueue.popped = s.taken ++ [err] ++ (Launcher.take err s).pc.held
    have hnothing : (Launcher.take err s).pc.held = [] := by
      rw [Launcher.take]
      split <;> rfl
    rw [hnothing, List.append_nil]
    exact hs

/-! ### The end of the loop -/

/-- Before the end no report has asked for the exit. At the end the last one has, and no other. -/
def EndsAtRequest (s : Launcher) : Prop :=
  if s.pc = .ended then
    ∃ before last, s.taken = before ++ [last] ∧ exitRequest last.1 = true ∧
      ∀ err ∈ before, exitRequest err.1 = false
  else
    ∀ err ∈ s.taken, exitRequest err.1 = false

lemma LauncherStep.endsAtRequest (h : LauncherStep s e s') (hs : EndsAtRequest s) :
    EndsAtRequest s' := by
  cases h with
  | report | signal => exact hs
  | waitAction h | pop h | wait h | wake _ h =>
    rw [EndsAtRequest, if_neg (by simp [h])] at hs
    exact hs
  | @test actionItem h =>
    rw [EndsAtRequest, if_neg (by simp [h])] at hs
    cases actionItem <;> exact hs
  | @take err h =>
    rw [EndsAtRequest, if_neg (by simp [h])] at hs
    rw [EndsAtRequest, Launcher.take]
    cases herr : exitRequest err.1 with
    | true => exact ⟨s.taken, err, rfl, herr, hs⟩
    | false =>
      show ∀ r ∈ s.taken ++ [err], exitRequest r.1 = false
      intro r hr
      rcases List.mem_append.mp hr with hold | hnew
      · exact hs r hold
      · obtain rfl := List.mem_singleton.mp hnew
        exact herr

lemma EndsAtRequest.ended_iff (hs : EndsAtRequest s) :
    s.pc = .ended ↔ ∃ before last, s.taken = before ++ [last] ∧ exitRequest last.1 = true ∧
      ∀ err ∈ before, exitRequest err.1 = false := by
  rw [EndsAtRequest] at hs
  split at hs
  · rename_i hended
    exact iff_of_true hended hs
  · rename_i hrunning
    refine iff_of_false hrunning ?_
    rintro ⟨before, last, htaken, hlast, -⟩
    have hno := hs last (by simp [htaken])
    rw [hlast] at hno
    cases hno

lemma exitRequest_eq_true {lvl : ErrorLevel} :
    exitRequest lvl = true ↔ lvl = .userLevel ∨ lvl = .criticalLevel := by
  cases lvl <;> simp [exitRequest]

lemma exitRequest_eq_false {lvl : ErrorLevel} :
    exitRequest lvl = false ↔ lvl = .systemLevel ∨ lvl = .componentLevel := by
  cases lvl <;> simp [exitRequest]

/-- The launcher takes the reports in the order of their pushes, and ends at the first of the user
or critical level. -/
theorem exit_on_first_fatal (hrun : Run LauncherStep .start tr s) :
    s.taken ++ s.pc.held ++ s.errQueue.content = reports tr ∧
    (s.pc = .ended ↔ ∃ before last, s.taken = before ++ [last] ∧
      (last.1 = .userLevel ∨ last.1 = .criticalLevel) ∧
      ∀ err ∈ before, err.1 = .systemLevel ∨ err.1 = .componentLevel) := by
  constructor
  · have horder : InOrder s := hrun.invariant LauncherStep.inOrder rfl
    calc s.taken ++ s.pc.held ++ s.errQueue.content
        = s.errQueue.popped ++ s.errQueue.content := by rw [← horder]
      _ = s.errQueue.pushed := s.errQueue.complete
      _ = reports tr := pushed_eq_reports hrun
  · have hends : EndsAtRequest s := hrun.invariant LauncherStep.endsAtRequest nofun
    simp only [← exitRequest_eq_true, ← exitRequest_eq_false]
    exact hends.ended_iff

/-- A timeout of the pop, a report that is no reason to end, and a termination signal. -/
theorem exit_on_signal :
    ∃ tr s, Run LauncherStep .start tr s ∧ s.pc = .ended ∧
      s.taken ++ s.pc.held ++ s.errQueue.content = reports tr ∧
      ∃ before last, s.taken = before ++ [last] ∧
        (last.1 = .userLevel ∨ last.1 = .criticalLevel) ∧
        ∀ err ∈ before, err.1 = .systemLevel ∨ err.1 = .componentLevel := by
  have h₁ := Run.single (LauncherStep.waitAction (s := .start) rfl)
  have h₂ := h₁.append (.single (.wait rfl rfl))
  have h₃ := h₂.append (.single (.wake true rfl (.inl rfl)))
  have h₄ := h₃.append (.single (.test rfl))
  have h₅ := h₄.append (.single (.report _ .systemLevel (str "double insertion")))
  have h₆ := h₅.append (.single (.pop rfl (by exact List.cons_ne_nil _ _)))
  have h₇ := h₆.append (.single (.test rfl))
  have h₈ := h₇.append (.single (.take rfl))
  have h₉ := h₈.append (.single (.signal _ 15))
  have h₁₀ := h₉.append (.single (.waitAction rfl))
  have h₁₁ := h₁₀.append (.single (.pop rfl (by exact List.cons_ne_nil _ _)))
  have h₁₂ := h₁₁.append (.single (.test rfl))
  have h₁₃ := h₁₂.append (.single (.take rfl))
  obtain ⟨horder, hended⟩ := exit_on_first_fatal h₁₃
  exact ⟨_, _, h₁₃, rfl, horder, hended.mp rfl⟩

end System
