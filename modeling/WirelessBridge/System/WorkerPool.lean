import WirelessBridge.Lib.Numeral
import WirelessBridge.System.FinalHaven
import WirelessBridge.System.Overlap

/-!
# The workers of the executor

Each worker is in a loop around `io_service::run`. What a function throws leaves `run`, is caught,
reported, and the worker goes back into `run`; it ends when the service is stopped, or when `run`
gives an error. `stopExecution` stops the service and waits for the workers.
-/

namespace System

open Lib

variable {F W : Type*}

inductive WorkerPoint where
  | absent
  | inRun
  | left
  deriving DecidableEq

/-- How far `stopExecution` has come: not called, with the timers of these ids still to be
cancelled, before `stop`, in `join_all`, or back from it. -/
inductive StopPoint where
  | running
  | cancelling (rest : List UInt32)
  | stopping
  | joining
  | joined
  deriving DecidableEq

structure WorkerPool (F W : Type*) where
  exec : CExecutor F W
  workers : W → WorkerPoint
  stopPoint : StopPoint
  reports : List HbeError

/-- What a worker reports when a function has thrown. -/
def functionError (x : StdException) : HbeError :=
  (.systemLevel, str "Error while processing asynchronous function: " ++ x.what)

def serviceError (ec : ℤ) : HbeError :=
  (.criticalLevel, str "io_service error while operate: " ++ intText ec)

/-- The worker that a step belongs to. -/
def ExecEvent.worker? : ExecEvent F W → Option W
  | .timeout w _ _ | .start w _ | .finish w _ => some w
  | _ => none

/-- The step takes a handler from the queue. -/
def ExecEvent.Takes : ExecEvent F W → Prop
  | .timeout .. | .start .. => True
  | _ => False

def ExecEvent.error? : ExecEvent F W → Option HbeError
  | .finish _ (some x) => some (functionError x)
  | _ => none

namespace WorkerPool

def start (now : ℤ) : WorkerPool F W := ⟨.init now, fun _ => .absent, .running, []⟩

/-- The service has been stopped. -/
def Stopped (s : WorkerPool F W) : Prop := s.stopPoint = .joining ∨ s.stopPoint = .joined

end WorkerPool

/-- `timer->cancel()` for the entry of an id. -/
def CExecutor.cancelItem (id : UInt32) (s : CExecutor F W) : CExecutor F W :=
  match s.cycleItems id with
  | none => s
  | some item => s.cancelWaits item.timer

/-- The table holds the only references to the timers, so that clearing it destroys them all. -/
def CExecutor.clearItems (s : CExecutor F W) : CExecutor F W :=
  { s with
    cycleItems := KeyedMap.empty
    waits := []
    queue := s.queue ++ s.waits.map fun p => .timeout true p.2 }

inductive PoolEvent (F W : Type*) where
  | create (w : W)
  | exec (e : ExecEvent F W)
  | leave (w : W)
  | fail (w : W) (ec : ℤ)
  | stopExecution (order : List UInt32)
  | cancel (id : UInt32)
  | clear
  | stop
  | join

inductive PoolStep [DecidableEq W] : WorkerPool F W → PoolEvent F W → WorkerPool F W → Prop where
  | create {s : WorkerPool F W} {w : W} (h : s.workers w = .absent)
      (hrunning : s.stopPoint = .running) :
      PoolStep s (.create w) { s with workers := Function.update s.workers w .inRun }
  | exec {s : WorkerPool F W} {e : ExecEvent F W} {t : CExecutor F W} (hstep : ExecStep s.exec e t)
      (hworker : ∀ w ∈ e.worker?, s.workers w = .inRun) (htakes : e.Takes → ¬ s.Stopped) :
      PoolStep s (.exec e) { s with exec := t, reports := s.reports ++ e.error?.toList }
  | leave {s : WorkerPool F W} {w : W} (h : s.workers w = .inRun) (hfree : s.exec.running w = none)
      (hstopped : s.Stopped) :
      PoolStep s (.leave w) { s with workers := Function.update s.workers w .left }
  | fail {s : WorkerPool F W} {w : W} (ec : ℤ) (h : s.workers w = .inRun)
      (hfree : s.exec.running w = none) (hec : ec ≠ 0) :
      PoolStep s (.fail w ec)
        { s with
          workers := Function.update s.workers w .left
          reports := s.reports ++ [serviceError ec] }
  | stopExecution {s : WorkerPool F W} {order : List UInt32} (h : s.stopPoint = .running)
      (horder : s.exec.cycleItems.IterationOrder order) :
      PoolStep s (.stopExecution order) { s with stopPoint := .cancelling order }
  | cancel {s : WorkerPool F W} {id : UInt32} {rest : List UInt32}
      (h : s.stopPoint = .cancelling (id :: rest)) :
      PoolStep s (.cancel id)
        { s with exec := s.exec.cancelItem id, stopPoint := .cancelling rest }
  | clear {s : WorkerPool F W} (h : s.stopPoint = .cancelling []) :
      PoolStep s .clear { s with exec := s.exec.clearItems, stopPoint := .stopping }
  | stop {s : WorkerPool F W} (h : s.stopPoint = .stopping) :
      PoolStep s .stop { s with stopPoint := .joining }
  | join {s : WorkerPool F W} (h : s.stopPoint = .joining) (hleft : ∀ w, s.workers w ≠ .inRun) :
      PoolStep s .join { s with stopPoint := .joined }

/-! ### The accounts -/

def PoolEvent.exec? : PoolEvent F W → Option (ExecEvent F W)
  | .exec e => some e
  | _ => none

def startedTasks (tr : List (WorkerPool F W × PoolEvent F W)) : List (Task F) :=
  tr.filterMap fun p => p.2.exec?.bind ExecEvent.started?

/-- The functions that a worker has begun. -/
def startsOf [DecidableEq W] (w : W) (tr : List (WorkerPool F W × PoolEvent F W)) :
    List (Task F) :=
  tr.filterMap fun p => match p.2 with
    | .exec (.start w' t) => if w' = w then some t else none
    | _ => none

/-- The functions that it has come to the end of, by a return or an exception. -/
def endsOf [DecidableEq W] (w : W) (tr : List (WorkerPool F W × PoolEvent F W)) :
    List (Task F) :=
  tr.filterMap fun p => match p.2 with
    | .exec (.finish w' _) => if w' = w then p.1.exec.running w else none
    | _ => none

def PoolEvent.error? : PoolEvent F W → Option HbeError
  | .exec e => e.error?
  | .fail _ ec => some (serviceError ec)
  | _ => none

namespace CExecutor

variable {s : CExecutor F W} {t : Task F} {id : UInt32} {timer : ℕ}

@[simp] lemma queuedTasks_clearItems : s.clearItems.queuedTasks = s.queuedTasks :=
  queuedTasks_append_timeouts s.waits

lemma queuedTasks_cancelItem : (s.cancelItem id).queuedTasks = s.queuedTasks := by
  rw [cancelItem]
  split
  · rfl
  · exact queuedTasks_cancelWaits

lemma running_cancelItem : (s.cancelItem id).running = s.running := by
  rw [cancelItem]
  split <;> rfl

end CExecutor

open CExecutor

variable [DecidableEq W] {s s' : WorkerPool F W} {u u' : CExecutor F W} {e : PoolEvent F W}
  {x : ExecEvent F W} {w : W} {tr : List (WorkerPool F W × PoolEvent F W)} {now : ℤ}

/-! ### One step -/

lemma PoolStep.queuedTasks (h : PoolStep s e s') :
    ((e.exec?.bind ExecEvent.started?).toList ++ s'.exec.queuedTasks).Perm
      (s.exec.queuedTasks ++ (e.exec?.bind fun x => posted (s.exec, x)).toList) := by
  cases h with
  | @exec x t hstep hworker htakes => exact hstep.queuedTasks
  | cancel h => simp [PoolEvent.exec?, queuedTasks_cancelItem]
  | clear h => simp [PoolEvent.exec?]
  | create | leave | fail | stopExecution | stop | join => simp [PoolEvent.exec?]

/-- What a worker runs, it has begun and not ended. -/
lemma ExecStep.running (h : ExecStep u x u') (w : W) :
    (u.running w).toList ++ startsOf w [(s, .exec x)]
      = endsOf w [({ s with exec := u }, .exec x)] ++ (u'.running w).toList := by
  cases h with
  | advance | execute | expire => simp [startsOf, endsOf, CExecutor.execute, CExecutor.post]
  | executeCyclic => simp [startsOf, endsOf, running_executeCyclic]
  | stopCyclic => simp [startsOf, endsOf, running_stopCyclic]
  | timeout => simp [startsOf, endsOf, running_timeoutFunc]
  | @start w' t l₁ l₂ hfree hq =>
    by_cases hw : w' = w
    · subst hw
      simp [startsOf, endsOf, hfree]
    · simp [startsOf, endsOf, hw, Ne.symm hw]
  | @finish w' t thrown h =>
    by_cases hw : w' = w
    · subst hw
      simp [startsOf, endsOf, h]
    · simp [startsOf, endsOf, hw, Ne.symm hw]

lemma PoolStep.running (h : PoolStep s e s') (w : W) :
    (s.exec.running w).toList ++ startsOf w [(s, e)]
      = endsOf w [(s, e)] ++ (s'.exec.running w).toList := by
  cases h with
  | exec hstep hworker htakes => exact hstep.running w
  | cancel h => simp [startsOf, endsOf, running_cancelItem]
  | clear h => simp [startsOf, endsOf, clearItems]
  | create | leave | fail | stopExecution | stop | join => simp [startsOf, endsOf]

lemma PoolStep.stopped (h : PoolStep s e s') (hs : s.Stopped) : s'.Stopped := by
  cases h with
  | exec | leave | fail => exact hs
  | create _ h | stopExecution h | cancel h | clear h | stop h =>
    simp [WorkerPool.Stopped, h] at hs
  | join h => exact .inr rfl

end System
