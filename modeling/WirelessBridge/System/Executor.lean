import WirelessBridge.Lib.KeyedMap
import WirelessBridge.Lib.Run
import WirelessBridge.Lib.Text

/-!
# The executor

`CExecutor` runs functions on a pool of workers, at once or in cycles. Under it lies an
`io_service`: a queue of handlers, each of which some worker runs once, and timers. A wait on a
timer completes when the timer expires, or as aborted when its expiry is moved or the timer
destroyed; its handler is queued at that moment.
-/

namespace System

open Lib

/-- A posted function, with the cyclic id and the timer that it was posted for. A function of
`execute` has neither. -/
structure Task (F : Type*) where
  func : F
  origin : Option (UInt32 × ℕ)

/-- What waits in the `io_service`. -/
inductive Handler (F : Type*) where
  | timeout (aborted : Bool) (cycleFuncId : UInt32)
  | task (t : Task F)

/-- Timers are numbered in the order in which they are made. -/
structure TimerData (F : Type*) where
  timer : ℕ
  timeoutMs : ℤ
  execFunction : F

structure CExecutor (F W : Type*) where
  now : ℤ
  timersMade : ℕ
  expiresAt : ℕ → ℤ
  /-- The waits that have not completed: a timer, and the id bound to the handler. -/
  waits : List (ℕ × UInt32)
  queue : List (Handler F)
  cycleItems : KeyedMap UInt32 (TimerData F)
  running : W → Option (Task F)

variable {F W : Type*}

namespace CExecutor

def init (now : ℤ) : CExecutor F W :=
  ⟨now, 0, fun _ => 0, [], [], KeyedMap.empty, fun _ => none⟩

def post (t : Task F) (s : CExecutor F W) : CExecutor F W :=
  { s with queue := s.queue ++ [.task t] }

/-- `cancel`, which `expires_at` and the destructor of a timer start with. -/
def cancelWaits (timer : ℕ) (s : CExecutor F W) : CExecutor F W :=
  { s with
    waits := s.waits.filter (·.1 ≠ timer)
    queue := s.queue ++ (s.waits.filter (·.1 = timer)).map fun p => .timeout true p.2 }

def moveExpiry (timer : ℕ) (at' : ℤ) (s : CExecutor F W) : CExecutor F W :=
  { s.cancelWaits timer with expiresAt := Function.update s.expiresAt timer at' }

def asyncWait (timer : ℕ) (id : UInt32) (s : CExecutor F W) : CExecutor F W :=
  { s with waits := s.waits ++ [(timer, id)] }

def execute (execF : F) (s : CExecutor F W) : CExecutor F W := s.post ⟨execF, none⟩

end CExecutor

def TimerData.task (item : TimerData F) (id : UInt32) : Task F :=
  ⟨item.execFunction, some (id, item.timer)⟩

namespace CExecutor

/-- The handler of a timer. It does not look at its error code. -/
def timeoutFunc (cycleFuncId : UInt32) (s : CExecutor F W) : CExecutor F W :=
  match s.cycleItems cycleFuncId with
  | none => s
  | some item =>
    ((s.post (item.task cycleFuncId)).moveExpiry item.timer
      (s.expiresAt item.timer + item.timeoutMs)).asyncWait item.timer cycleFuncId

/-- `drawn` is the value of `rand()`, and the id that is returned. If it is taken, `insert` leaves
the entry that is there, and the new timer is destroyed at the end of the function. -/
def executeCyclic (execF : F) (time : ℤ) (drawn : UInt32) (s : CExecutor F W) : CExecutor F W :=
  let timer := s.timersMade
  let armed := ({ s with
    timersMade := timer + 1
    expiresAt := Function.update s.expiresAt timer (s.now + time)
    cycleItems := s.cycleItems.emplace drawn ⟨timer, time, execF⟩ } : CExecutor F W).asyncWait
      timer drawn
  if (s.cycleItems drawn).isSome then armed.cancelWaits timer else armed

/-- The timer is destroyed with the entry. -/
def stopCyclic (cyclicId : UInt32) (s : CExecutor F W) : CExecutor F W :=
  match s.cycleItems cyclicId with
  | none => s
  | some item =>
    ({ s with cycleItems := s.cycleItems.erase cyclicId } : CExecutor F W).cancelWaits item.timer

end CExecutor

inductive ExecEvent (F W : Type*) where
  | advance (now : ℤ)
  | execute (execF : F)
  | executeCyclic (execF : F) (time : ℤ) (drawn : UInt32)
  | stopCyclic (cyclicId : UInt32)
  | expire (timer : ℕ) (id : UInt32)
  | timeout (w : W) (aborted : Bool) (id : UInt32)
  | start (w : W) (t : Task F)
  | finish (w : W) (thrown : Option StdException)

open CExecutor in
/-- Handlers are taken from the queue in any order, by any worker that is free. The handler of a
timer runs under the mutex of the table, so it is one step; a function takes its time. -/
inductive ExecStep [DecidableEq W] : CExecutor F W → ExecEvent F W → CExecutor F W → Prop where
  | advance {s : CExecutor F W} (now : ℤ) (h : s.now ≤ now) :
      ExecStep s (.advance now) { s with now := now }
  | execute (s : CExecutor F W) (execF : F) : ExecStep s (.execute execF) (s.execute execF)
  | executeCyclic (s : CExecutor F W) (execF : F) (time : ℤ) (drawn : UInt32) :
      ExecStep s (.executeCyclic execF time drawn) (s.executeCyclic execF time drawn)
  | stopCyclic (s : CExecutor F W) (cyclicId : UInt32) :
      ExecStep s (.stopCyclic cyclicId) (s.stopCyclic cyclicId)
  | expire {s : CExecutor F W} {timer : ℕ} {id : UInt32} {l₁ l₂ : List (ℕ × UInt32)}
      (h : s.waits = l₁ ++ (timer, id) :: l₂) (hdue : s.expiresAt timer ≤ s.now) :
      ExecStep s (.expire timer id)
        { s with waits := l₁ ++ l₂, queue := s.queue ++ [.timeout false id] }
  | timeout {s : CExecutor F W} {w : W} {aborted : Bool} {id : UInt32} {l₁ l₂ : List (Handler F)}
      (hfree : s.running w = none) (h : s.queue = l₁ ++ .timeout aborted id :: l₂) :
      ExecStep s (.timeout w aborted id) (timeoutFunc id { s with queue := l₁ ++ l₂ })
  | start {s : CExecutor F W} {w : W} {t : Task F} {l₁ l₂ : List (Handler F)}
      (hfree : s.running w = none) (h : s.queue = l₁ ++ .task t :: l₂) :
      ExecStep s (.start w t)
        { s with queue := l₁ ++ l₂, running := Function.update s.running w (some t) }
  | finish {s : CExecutor F W} {w : W} {t : Task F} (thrown : Option StdException)
      (h : s.running w = some t) :
      ExecStep s (.finish w thrown) { s with running := Function.update s.running w none }

/-- The function that a step posts. -/
def posted (p : CExecutor F W × ExecEvent F W) : Option (Task F) :=
  match p.2 with
  | .execute execF => some ⟨execF, none⟩
  | .timeout _ _ id => (p.1.cycleItems id).map (·.task id)
  | _ => none

/-! ### Functions that wait to be run, or run -/

namespace CExecutor

variable {s : CExecutor F W} {t : Task F} {id : UInt32} {item : TimerData F} {timer : ℕ}

def Pending (s : CExecutor F W) (t : Task F) : Prop :=
  .task t ∈ s.queue ∨ ∃ w, s.running w = some t

@[simp] lemma pending_post {t' : Task F} : (s.post t').Pending t ↔ s.Pending t ∨ t = t' := by
  simp only [Pending, post, List.mem_append, List.mem_singleton, Handler.task.injEq]
  exact or_right_comm

@[simp] lemma pending_cancelWaits : (s.cancelWaits timer).Pending t ↔ s.Pending t := by
  simp [Pending, cancelWaits]

@[simp] lemma pending_moveExpiry {at' : ℤ} : (s.moveExpiry timer at').Pending t ↔ s.Pending t :=
  pending_cancelWaits

@[simp] lemma pending_asyncWait : (s.asyncWait timer id).Pending t ↔ s.Pending t := Iff.rfl

@[simp] lemma pending_execute {execF : F} :
    (s.execute execF).Pending t ↔ s.Pending t ∨ t = ⟨execF, none⟩ := pending_post

lemma pending_timeoutFunc :
    (s.timeoutFunc id).Pending t ↔
      s.Pending t ∨ ∃ item, s.cycleItems id = some item ∧ t = item.task id := by
  simp only [timeoutFunc]
  split
  · rename_i hnone
    simp [hnone]
  · rename_i item hitem
    simp [hitem]

@[simp] lemma pending_executeCyclic {execF : F} {time : ℤ} {drawn : UInt32} :
    (s.executeCyclic execF time drawn).Pending t ↔ s.Pending t := by
  simp only [executeCyclic]
  split_ifs
  · exact pending_cancelWaits
  · exact Iff.rfl

@[simp] lemma pending_stopCyclic : (s.stopCyclic id).Pending t ↔ s.Pending t := by
  simp only [stopCyclic]
  split
  · exact Iff.rfl
  · exact pending_cancelWaits

/-! ### The table -/

@[simp] lemma cycleItems_timeoutFunc : (s.timeoutFunc id).cycleItems = s.cycleItems := by
  simp only [timeoutFunc]
  split <;> rfl

@[simp] lemma timersMade_timeoutFunc : (s.timeoutFunc id).timersMade = s.timersMade := by
  simp only [timeoutFunc]
  split <;> rfl

@[simp] lemma cycleItems_executeCyclic {execF : F} {time : ℤ} {drawn : UInt32} :
    (s.executeCyclic execF time drawn).cycleItems
      = s.cycleItems.emplace drawn ⟨s.timersMade, time, execF⟩ := by
  simp only [executeCyclic]
  split_ifs <;> rfl

@[simp] lemma timersMade_executeCyclic {execF : F} {time : ℤ} {drawn : UInt32} :
    (s.executeCyclic execF time drawn).timersMade = s.timersMade + 1 := by
  simp only [executeCyclic]
  split_ifs <;> rfl

@[simp] lemma timersMade_stopCyclic : (s.stopCyclic id).timersMade = s.timersMade := by
  simp only [stopCyclic]
  split <;> rfl

lemma cycleItems_stopCyclic : (s.stopCyclic id).cycleItems = s.cycleItems.erase id := by
  simp only [stopCyclic]
  split
  · rename_i hnone
    funext k
    by_cases hk : k = id <;> simp [KeyedMap.erase, hk, hnone]
  · rfl

end CExecutor

/-! ### Functions in the queue -/

def Handler.task? : Handler F → Option (Task F)
  | .task t => some t
  | .timeout _ _ => none

def CExecutor.queuedTasks (s : CExecutor F W) : List (Task F) := s.queue.filterMap Handler.task?

def ExecEvent.started? : ExecEvent F W → Option (Task F)
  | .start _ t => some t
  | _ => none

namespace CExecutor

variable {s : CExecutor F W} {t : Task F} {id : UInt32} {timer : ℕ}

lemma queuedTasks_append_timeouts (l : List (ℕ × UInt32)) :
    ({ s with queue := s.queue ++ l.map fun p => .timeout true p.2 } : CExecutor F W).queuedTasks
      = s.queuedTasks := by
  simp [queuedTasks, Handler.task?, Function.comp_def]

lemma tasks_append_timeout (l : List (Handler F)) (aborted : Bool) :
    (l ++ [Handler.timeout aborted id]).filterMap Handler.task? = l.filterMap Handler.task? :=
  List.filterMap_append.trans (List.append_nil _)

@[simp] lemma queuedTasks_post : (s.post t).queuedTasks = s.queuedTasks ++ [t] := by
  simp [queuedTasks, post, Handler.task?]

@[simp] lemma queuedTasks_cancelWaits : (s.cancelWaits timer).queuedTasks = s.queuedTasks :=
  queuedTasks_append_timeouts _

@[simp] lemma queuedTasks_moveExpiry {at' : ℤ} :
    (s.moveExpiry timer at').queuedTasks = s.queuedTasks := queuedTasks_cancelWaits

@[simp] lemma queuedTasks_asyncWait : (s.asyncWait timer id).queuedTasks = s.queuedTasks := rfl

lemma queuedTasks_timeoutFunc :
    (s.timeoutFunc id).queuedTasks
      = s.queuedTasks ++ ((s.cycleItems id).map (·.task id)).toList := by
  rw [timeoutFunc]
  cases s.cycleItems id <;> simp

lemma queuedTasks_executeCyclic {execF : F} {time : ℤ} {drawn : UInt32} :
    (s.executeCyclic execF time drawn).queuedTasks = s.queuedTasks := by
  simp only [executeCyclic]
  split
  · rw [queuedTasks_cancelWaits]
    rfl
  · rfl

lemma queuedTasks_stopCyclic : (s.stopCyclic id).queuedTasks = s.queuedTasks := by
  rw [stopCyclic]
  split
  · rfl
  · rw [queuedTasks_cancelWaits]
    rfl

end CExecutor

/-! ### What one step can do -/

section

open CExecutor

variable [DecidableEq W] {s s' : CExecutor F W} {e : ExecEvent F W} {t : Task F} {id : UInt32}
  {item : TimerData F}

/-- What is left of a list was there before. -/
lemma mem_of_taken {α : Type*} {l l₁ l₂ : List α} {a b : α} (hl : l = l₁ ++ a :: l₂)
    (h : b ∈ l₁ ++ l₂) : b ∈ l := by
  rw [hl]
  exact ((List.sublist_cons_self a l₂).append_left l₁).subset h

omit [DecidableEq W] in
lemma CExecutor.Pending.of_take {h : Handler F} {l₁ l₂ : List (Handler F)}
    (hq : s.queue = l₁ ++ h :: l₂)
    (ht : ({ s with queue := l₁ ++ l₂ } : CExecutor F W).Pending t) : s.Pending t :=
  ht.imp_left (mem_of_taken hq)

/-- A function that waits or runs did so before, or has just been posted: by `execute`, or for an
entry of the table. -/
lemma ExecStep.pending (h : ExecStep s e s') (ht : s'.Pending t) :
    s.Pending t ∨ t.origin = none ∨
      ∃ id item, s.cycleItems id = some item ∧ t = item.task id := by
  cases h with
  | advance => exact .inl ht
  | execute execF =>
    rcases pending_execute.mp ht with h | rfl
    · exact .inl h
    · exact .inr (.inl rfl)
  | executeCyclic execF time drawn => exact .inl (pending_executeCyclic.mp ht)
  | stopCyclic cyclicId => exact .inl (pending_stopCyclic.mp ht)
  | expire hw hdue =>
    left
    apply ht.imp_left
    intro hmem
    simpa using hmem
  | timeout hfree hq =>
    rcases pending_timeoutFunc.mp ht with h | ⟨item, hitem, rfl⟩
    · exact .inl (h.of_take hq)
    · exact .inr (.inr ⟨_, item, hitem, rfl⟩)
  | @start w t' l₁ l₂ hfree hq =>
    left
    rcases ht with hmem | ⟨w', hw'⟩
    · exact Pending.of_take hq (.inl hmem)
    · by_cases hw : w' = w
      · subst hw
        obtain rfl : t' = t := by simpa using hw'
        left
        rw [hq]
        simp
      · right
        refine ⟨w', ?_⟩
        simpa [hw] using hw'
  | @finish w t' thrown hrun =>
    left
    refine ht.imp_right fun ⟨w', hw'⟩ => ?_
    by_cases hw : w' = w
    · subst hw
      simp at hw'
    · refine ⟨w', ?_⟩
      simpa [hw] using hw'

/-- What waits in the queue afterwards, and what has been taken from it, is what waited before and
what has been posted. -/
lemma ExecStep.queuedTasks (h : ExecStep s e s') :
    (e.started?.toList ++ s'.queuedTasks).Perm (s.queuedTasks ++ (posted (s, e)).toList) := by
  cases h with
  | advance now h => simp [ExecEvent.started?, posted, CExecutor.queuedTasks]
  | execute execF => simp [ExecEvent.started?, posted, CExecutor.execute]
  | executeCyclic execF time drawn =>
    simp [ExecEvent.started?, posted, queuedTasks_executeCyclic]
  | stopCyclic cyclicId => simp [ExecEvent.started?, posted, queuedTasks_stopCyclic]
  | expire h hdue => exact .of_eq ((tasks_append_timeout _ _).trans (List.append_nil _).symm)
  | @timeout w aborted id l₁ l₂ hfree hq =>
    have hrest : ({ s with queue := l₁ ++ l₂ } : CExecutor F W).queuedTasks = s.queuedTasks := by
      simp only [CExecutor.queuedTasks, hq, List.filterMap_append, List.filterMap_cons]
      rfl
    rw [queuedTasks_timeoutFunc, hrest]
    exact .refl _
  | @start w t l₁ l₂ hfree hq =>
    simpa [ExecEvent.started?, posted, CExecutor.queuedTasks, hq, Handler.task?]
      using List.perm_middle.symm
  | finish thrown h => simp [ExecEvent.started?, posted, CExecutor.queuedTasks]

/-- An entry of the table was there before, or belongs to the timer that has just been made. -/
lemma ExecStep.cycleItems (h : ExecStep s e s') (hitem : s'.cycleItems id = some item) :
    s.cycleItems id = some item ∨ (item.timer = s.timersMade ∧ s.timersMade < s'.timersMade) := by
  cases h with
  | advance | execute | expire | start | finish => exact .inl hitem
  | timeout hfree hq =>
    rw [cycleItems_timeoutFunc] at hitem
    exact .inl hitem
  | executeCyclic execF time drawn =>
    rw [cycleItems_executeCyclic] at hitem
    rw [timersMade_executeCyclic]
    rcases KeyedMap.emplace_eq_some_cases hitem with hold | ⟨-, -, rfl⟩
    · exact .inl hold
    · exact .inr ⟨rfl, Nat.lt_succ_self _⟩
  | stopCyclic cyclicId =>
    rw [cycleItems_stopCyclic] at hitem
    exact .inl (KeyedMap.erase_eq_some_iff.mp hitem).2

lemma ExecStep.timersMade_le (h : ExecStep s e s') : s.timersMade ≤ s'.timersMade := by
  cases h with
  | advance | execute | expire | start | finish => exact le_rfl
  | timeout => rw [timersMade_timeoutFunc]
  | executeCyclic execF time drawn =>
    rw [timersMade_executeCyclic]
    exact Nat.le_succ _
  | stopCyclic cyclicId => rw [timersMade_stopCyclic]

/-- A worker can always be had for a function in the queue: what it runs may end first. -/
lemma exists_start (w : W) {l₁ l₂ : List (Handler F)} (hq : s.queue = l₁ ++ .task t :: l₂) :
    ∃ tr s', Run ExecStep s tr s' ∧ s'.queue = l₁ ++ l₂ ∧ s'.cycleItems = s.cycleItems ∧
      s'.running = Function.update s.running w (some t) := by
  cases hw : s.running w with
  | none => exact ⟨_, _, Run.single (.start hw hq), rfl, rfl, rfl⟩
  | some other =>
    have hend := Run.single (ExecStep.finish none hw)
    have hfree : Function.update s.running w none w = none := by simp
    have hstart := hend.append (.single (.start hfree hq))
    refine ⟨_, _, hstart, rfl, rfl, ?_⟩
    simp

end

end System
