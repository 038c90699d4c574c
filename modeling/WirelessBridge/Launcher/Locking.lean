import Mathlib.Order.Fin.Basic
import WirelessBridge.Bridge.Watchdog
import WirelessBridge.Lib.LockOrder
import WirelessBridge.System.ConnMan
import WirelessBridge.System.Executor

/-!
# The mutexes of the application

Four mutexes are shared by the threads of the application: that of the connection table, that of the
cyclic functions, and those of the two queues. A routine is given here by the mutexes it takes and
releases on its way and by the containers that it comes to, as far as its effects decide that. The
handler of a termination signal reports as everyone else does, and interrupts whatever its thread
was doing.
-/

namespace System

open Lib HBE Mqtt WBridge

/-- `m_connection_mutex`, `m_cycle_mutex`, and `m_queue_mutex` of the events and of the errors. -/
inductive Mutex where
  | connection
  | cycle
  | events
  | errQueue
  deriving DecidableEq

namespace Mutex

def rank : Mutex → Fin 4
  | connection => 0
  | cycle => 1
  | events => 2
  | errQueue => 3

instance : LT Mutex := ⟨fun a b => a.rank < b.rank⟩

instance : WellFoundedGT Mutex := ⟨InvImage.wf rank wellFounded_gt⟩

lemma lt_errQueue {m : Mutex} (h : m ≠ errQueue) : m < errQueue := by
  cases m with
  | errQueue => exact absurd rfl h
  | connection | cycle | events => exact Fin.mk_lt_mk.mpr (by norm_num)

end Mutex

/-- `m_connectable_items`, `m_cycle_items`, the two queues, `m_device_items` and `m_topics_list`. -/
inductive Container where
  | connectableItems
  | cycleItems
  | events
  | errors
  | deviceItems
  | topicsList
  deriving DecidableEq

/-- The mutex that goes with the container, if one does. -/
def Container.guard : Container → Option Mutex
  | .connectableItems => some .connection
  | .cycleItems => some .cycle
  | .events => some .events
  | .errors => some .errQueue
  | .deviceItems | .topicsList => none

/-- An access to a container. That of the loop in `stopExecution`, which cancels the timer of an
entry of `m_cycle_items`, takes no mutex. -/
inductive Access where
  | item (c : Container)
  | cancelTimer
  deriving DecidableEq

namespace Access

def container : Access → Container
  | item c => c
  | cancelTimer => .cycleItems

def guard : Access → Option Mutex
  | item c => c.guard
  | cancelTimer => none

end Access

abbrev Locking := List (LockOp Mutex Access)

def touch (c : Container) : Locking := [.access (.item c)]

/-- A block with a `unique_lock`, which is released however the block is left. -/
def locked (m : Mutex) (body : Locking) : Locking := .acquire m :: (body ++ [.release m])

def push (m : Mutex) (c : Container) : Locking := locked m (touch c)

/-- A `wait_for` looks into the queue, releases the mutex, and takes it again at every wake-up. -/
def pop (m : Mutex) (c : Container) (wakeUps : ℕ) : Locking :=
  locked m (touch c ++
    (List.replicate wakeUps ([.release m, .acquire m] ++ touch c)).flatten ++ touch c)

def Action.locking : Action → Locking
  | .report _ _ => push .errQueue .errors
  | .getState _ _ | .connect _ _ => []

def effectLocking : Effect → Locking
  | .report _ _ => push .errQueue .errors
  | .spentAttempt _ _ | .timeToAttempt _ _ => touch .deviceItems
  | .setTopic _ _ => []

def callLocking : Call → Locking
  | .sendEvent _ => push .events .events
  | .publish _ _ _ _ | .subscribe _ _ | .connectAsync _ _ _ => []

/-- The loop of `processTopicUpdate`, which looks the device up where the topic is that of its
inputs. An exception ends it. -/
def topicLocking (known : Str → Bool) (topic msg : Str) : GwtTable → (ℕ → ℤ) → Locking
  | [], _ => []
  | r :: rest, clk =>
    let p := processDevice known topic msg (clk 0) r
    (if topic = r.inputMqttTopic then touch .deviceItems else []) ++
      p.effects.flatMap effectLocking ++
      if p.fault = none then topicLocking known topic msg rest fun n => clk (n + 1) else []

/-- The routines that the threads call. `report` stands for the reports of a worker and of
`on_error`, and `pop` for the one in `waitAction`. -/
inductive MutexUser (κ : Type*) where
  | subscribe (name : Str) (client : κ) (items : ConnTable κ)
  | unsubscribe
  | connectionHandler (view : κ → Option ClientView) (itrTime : ℤ) (order : List Str)
      (items : ConnTable κ)
  | executeCyclic
  | stopCyclic
  | timeoutFunc
  | stopExecution (timers : ℕ)
  | subscribeTopic (c : CMqttConnection) (topic : Str)
  | onConnect (c : CMqttConnection) (rc : ℤ)
  | onDisconnect (c : CMqttConnection)
  | onMessage (message : MosquittoMessage)
  | consumeEvent (wakeUps : ℕ)
  | mqttEventProcessFunc (known : Str → Bool) (table : GwtTable) (clk : ℕ → ℤ)
      (ev : TMqttEventVariant)
  | createDeviceList (table : GwtTable)
  | processDeviceList (table : GwtTable) (itrTime : ℤ) (order : List Str)
      (items : KeyedMap Str DevServiceBlk)
  | report
  | pop (wakeUps : ℕ)

def MutexUser.locking {κ : Type*} : MutexUser κ → Locking
  | subscribe name client items =>
    locked .connection
      (touch .connectableItems ++ (System.subscribe name client items).1.flatMap Action.locking)
  | unsubscribe => locked .connection (touch .connectableItems)
  | connectionHandler view itrTime order items =>
    -- what is done for a client depends on its entry, and is noted there
    locked .connection (touch .connectableItems ++
      (System.connectionHandler view itrTime order items).1.effects.flatMap fun a =>
        touch .connectableItems ++ a.locking)
  | executeCyclic | stopCyclic | timeoutFunc => locked .cycle (touch .cycleItems)
  | stopExecution timers =>
    List.replicate timers (.access .cancelTimer) ++ locked .cycle (touch .cycleItems)
  | subscribeTopic c topic =>
    (Mqtt.subscribeTopic c topic).2.flatMap callLocking ++ touch .topicsList
  | onConnect c rc =>
    (if 0 = rc then touch .topicsList else []) ++ (Mqtt.onConnect c rc).2.flatMap callLocking
  | onDisconnect c => (Mqtt.onDisconnect c).2.flatMap callLocking
  | onMessage message =>
    match Mqtt.onMessage message with
    | .ok call => callLocking call
    | .error _ => []
  | consumeEvent wakeUps => System.pop .events .events wakeUps
  | mqttEventProcessFunc known table clk ev =>
    match ev with
    | .online _ => []
    | .topicUpdate topic msg =>
      topicLocking known topic msg table clk ++
        match (processTopicUpdate known topic msg table clk).fault with
        | some (.exception _) => push .errQueue .errors
        | _ => []
  | createDeviceList table => table.flatMap fun _ => touch .deviceItems
  | processDeviceList table itrTime order items =>
    order.flatMap fun name =>
      touch .deviceItems ++ (watchdogEffects table itrTime items name).flatMap effectLocking
  | report => push .errQueue .errors
  | pop wakeUps => System.pop .errQueue .errors wakeUps

def IsRoutine (κ : Type*) (p : Locking) : Prop := ∃ c : MutexUser κ, p = c.locking

/-- The handler of a signal reports. -/
def signalHandler : LockHandler Mutex Access := ⟨.errQueue, .item .errors⟩

/-! ### Every routine takes its mutexes in order, and the one that guards what it comes to -/

variable {κ : Type*} {m : Mutex} {c : Container} {held : List Mutex} {p q : Locking}

lemma balanced_touch (h : ∀ l ∈ c.guard, l ∈ held) : Balanced Access.guard held (touch c) :=
  balanced_access h

lemma balanced_touch_of_guard (h : c.guard = some m) :
    Balanced Access.guard (m :: held) (touch c) := by
  apply balanced_touch
  intro l hl
  rw [h] at hl
  exact Option.some.inj hl ▸ List.mem_cons_self

lemma balanced_touch_of_unguarded (h : c.guard = none) :
    Balanced Access.guard held (touch c) := by
  apply balanced_touch
  intro l hl
  rw [h] at hl
  cases hl

lemma balanced_push (hbelow : ∀ l ∈ held, l < m) (h : c.guard = some m) :
    Balanced Access.guard held (push m c) :=
  (balanced_touch_of_guard h).block hbelow

lemma disciplined_pop (h : c.guard = some m) (wakeUps : ℕ) :
    Disciplined Access.guard [] (pop m c wakeUps) := by
  have htouch : Balanced Access.guard [m] (touch c) := balanced_touch_of_guard h
  have hwait : Disciplined Access.guard [m]
      ((List.replicate wakeUps ([.release m, .acquire m] ++ touch c)).flatten ++
        (touch c ++ [.release m])) := by
    induction wakeUps with
    | zero => exact htouch _ (.release .nil)
    | succ wakeUps ih => exact .release (.acquire (List.forall_mem_nil _) (htouch _ ih))
  refine .acquire (List.forall_mem_nil _) ?_
  rw [List.append_assoc, List.append_assoc]
  exact htouch _ hwait

lemma connection_lt : ∀ l ∈ [Mutex.connection], l < .errQueue := by
  intro l hl
  rw [List.mem_singleton.mp hl]
  exact Mutex.lt_errQueue (by decide)

/-- Reports are made with the connection table locked, and never the other way round. -/
lemma balanced_action (a : Action) : Balanced Access.guard [.connection] a.locking := by
  cases a with
  | report _ _ => exact balanced_push connection_lt rfl
  | getState _ _ | connect _ _ => exact balanced_nil

lemma balanced_connection (h : Balanced Access.guard [.connection] q) :
    Balanced Access.guard [] (locked .connection (touch .connectableItems ++ q)) :=
  ((balanced_touch_of_guard rfl).append h).block (List.forall_mem_nil _)

lemma balanced_effect (e : Effect) : Balanced Access.guard [] (effectLocking e) := by
  cases e with
  | report _ _ => exact balanced_push (List.forall_mem_nil _) rfl
  | spentAttempt _ _ | timeToAttempt _ _ => exact balanced_touch_of_unguarded rfl
  | setTopic _ _ => exact balanced_nil

lemma balanced_call (c : Call) : Balanced Access.guard [] (callLocking c) := by
  cases c with
  | sendEvent _ => exact balanced_push (List.forall_mem_nil _) rfl
  | publish _ _ _ _ | subscribe _ _ | connectAsync _ _ _ => exact balanced_nil

lemma balanced_topicLocking (known : Str → Bool) (topic msg : Str) (table : GwtTable)
    (clk : ℕ → ℤ) : Balanced Access.guard [] (topicLocking known topic msg table clk) := by
  induction table generalizing clk with
  | nil => exact balanced_nil
  | cons r rest ih =>
    refine (Balanced.append ?_ (balanced_flatMap balanced_effect _)).append ?_
    · split_ifs
      · exact balanced_touch_of_unguarded rfl
      · exact balanced_nil
    · split_ifs
      · exact ih _
      · exact balanced_nil

lemma disciplined_of_isRoutine (h : IsRoutine κ p) : Disciplined Access.guard [] p := by
  obtain ⟨c, rfl⟩ := h
  cases c with
  | subscribe name client items =>
    exact (balanced_connection (balanced_flatMap balanced_action _)).disciplined
  | unsubscribe => exact (balanced_push (List.forall_mem_nil _) rfl).disciplined
  | connectionHandler view itrTime order items =>
    refine (balanced_connection (balanced_flatMap ?_ _)).disciplined
    exact fun a => (balanced_touch_of_guard rfl).append (balanced_action a)
  | executeCyclic | stopCyclic | timeoutFunc | report =>
    exact (balanced_push (List.forall_mem_nil _) rfl).disciplined
  | stopExecution timers =>
    refine (Balanced.append ?_ (balanced_push (List.forall_mem_nil _) rfl)).disciplined
    induction timers with
    | zero => exact balanced_nil
    | succ timers ih => exact (balanced_access fun _ hl => by cases hl).append ih
  | subscribeTopic c topic =>
    exact ((balanced_flatMap balanced_call _).append
      (balanced_touch_of_unguarded rfl)).disciplined
  | onConnect c rc =>
    refine (Balanced.append ?_ (balanced_flatMap balanced_call _)).disciplined
    split_ifs
    · exact balanced_touch_of_unguarded rfl
    · exact balanced_nil
  | onDisconnect c => exact (balanced_flatMap balanced_call _).disciplined
  | onMessage message =>
    simp only [MutexUser.locking]
    cases Mqtt.onMessage message with
    | ok call => exact (balanced_call call).disciplined
    | error _ => exact .nil
  | consumeEvent wakeUps | pop wakeUps => exact disciplined_pop rfl wakeUps
  | mqttEventProcessFunc known table clk ev =>
    cases ev with
    | online _ => exact .nil
    | topicUpdate topic msg =>
      refine ((balanced_topicLocking known topic msg table clk).append ?_).disciplined
      split
      · exact balanced_push (List.forall_mem_nil _) rfl
      · exact balanced_nil
  | createDeviceList table =>
    exact (balanced_flatMap (fun _ => balanced_touch_of_unguarded rfl) _).disciplined
  | processDeviceList table itrTime order items =>
    refine (balanced_flatMap (fun name => ?_) _).disciplined
    exact (balanced_touch_of_unguarded rfl).append (balanced_flatMap balanced_effect _)

/-! ### Signals -/

variable {ι : Type*} [DecidableEq ι] {s : LockState ι Mutex Access}
  {tr : List (LockState ι Mutex Access × LockEvent ι Mutex Access)}

/-- The threads need a bounded number of steps to be done with what they have begun. Whatever order
these steps are taken in, every routine completes, just when no signal has come to a thread that
was at work on the queue of errors. -/
theorem routines_complete_iff [Fintype ι]
    (hrun : Run (LockStep (IsRoutine κ) signalHandler) .idle tr s) :
    (∀ tr' t, Played (IsRoutine κ) signalHandler s tr' t → tr'.length ≤ remaining s) ∧
    ((∀ tr' t, Played (IsRoutine κ) signalHandler s tr' t → ∀ i, (t i).todo = []) ↔
      ∀ p ∈ tr, Spares .errQueue p) := by
  refine ⟨fun tr' t => Played.length_le, ?_⟩
  exact completes_iff (fun p => disciplined_of_isRoutine) (fun l => Mutex.lt_errQueue) rfl hrun

/-- A thread that reports, while it pushes. -/
def pushing : LockState Unit Mutex Access :=
  fun _ => ⟨[.errQueue], [.access (.item .errors), .release .errQueue]⟩

/-- The same thread, when a signal has come to it. -/
def pushingInterrupted : LockState Unit Mutex Access :=
  fun _ => ⟨[.errQueue], signalHandler.ops ++ [.access (.item .errors), .release .errQueue]⟩

theorem not_complete_pushingInterrupted :
    ¬ ∀ tr' t, Played (IsRoutine Unit) signalHandler pushingInterrupted tr' t →
      ∀ i, (t i).todo = [] := by
  have hcall : IsRoutine Unit (push .errQueue .errors) := ⟨.report, rfl⟩
  have hrun : Run (LockStep (IsRoutine Unit) signalHandler) .idle
      [(.idle, .call () (push .errQueue .errors)),
        (fun _ => ⟨[], push .errQueue .errors⟩, .op ()), (pushing, .interrupt ())]
      pushingInterrupted :=
    .cons (.call rfl hcall) (.cons (.acquire rfl (fun _ => List.not_mem_nil))
      (.cons (.interrupt pushing ()) (.nil _)))
  intro hcomplete
  have hspares := (routines_complete_iff hrun).2.mp hcomplete (pushing, .interrupt ()) (by simp)
  exact hspares () rfl (List.mem_singleton_self _)

/-! ### Containers that two threads come to at the same time -/

/-- In every interleaving, signals included, two threads that are at the same container at the same
time are at the device blocks or at the list of topics, or one of them is in the loop of
`stopExecution` over the timers. -/
theorem unguarded_of_simultaneous (hrun : Run (LockStep (IsRoutine κ) signalHandler) .idle tr s)
    {i j : ι} {a b : Access} (hij : i ≠ j) (hi : (s i).todo = .access a :: p)
    (hj : (s j).todo = .access b :: q) (hsame : a.container = b.container) :
    a.container = .deviceItems ∨ a.container = .topicsList ∨
      a = .cancelTimer ∨ b = .cancelTimer := by
  have hguarded : ∀ p, IsRoutine κ p → Guarded Access.guard [] p :=
    fun p hp => (disciplined_of_isRoutine hp).guarded
  cases a with
  | cancelTimer => exact .inr (.inr (.inl rfl))
  | item c =>
    cases b with
    | cancelTimer => exact .inr (.inr (.inr rfl))
    | item c' =>
      obtain rfl : c = c' := hsame
      cases hc : c.guard with
      | some m =>
        have ha : (Access.item c).guard = some m := hc
        exact absurd ha (guard_ne_of_accesses hguarded rfl hrun hij hi hj ha)
      | none =>
        cases c with
        | deviceItems => exact .inl rfl
        | topicsList => exact .inr (.inl rfl)
        | connectableItems | cycleItems | events | errors => cases hc

/-- A worker whose timer has expired, while another thread stops the executor. -/
theorem unguarded_of_simultaneous_stopExecution :
    ∃ (tr : List (LockState Bool Mutex Access × LockEvent Bool Mutex Access))
      (s : LockState Bool Mutex Access),
      Run (LockStep (IsRoutine Unit) signalHandler) .idle tr s ∧
      (s true).todo.head? = some (.access .cancelTimer) ∧
      (s false).todo.head? = some (.access (.item .cycleItems)) ∧
      (Access.cancelTimer.container = .deviceItems ∨ Access.cancelTimer.container = .topicsList ∨
        Access.cancelTimer = .cancelTimer ∨ Access.item .cycleItems = .cancelTimer) := by
  have hstop : IsRoutine Unit _ := ⟨.stopExecution 1, rfl⟩
  have htimeout : IsRoutine Unit _ := ⟨.timeoutFunc, rfl⟩
  have h₁ : Run (LockStep (IsRoutine Unit) signalHandler) .idle
      [((.idle : LockState Bool Mutex Access), .call true _)] _ :=
    .single (.call rfl hstop)
  have h₂ := h₁.append (.single (.call (i := false) rfl htimeout))
  have h₃ := h₂.append (.single (.acquire (i := false) rfl (by decide)))
  exact ⟨_, _, h₃, rfl, rfl,
    unguarded_of_simultaneous h₃ (by decide : true ≠ false) rfl rfl rfl⟩

end System
