import WirelessBridge.Lib.Fifo
import WirelessBridge.Lib.Run
import WirelessBridge.Lib.Text

/-!
# The event loop and its listener

`TEventLoop` is a queue that any number of threads push to. One listener thread pops from it, with
a timeout, and gives what it gets to the function it was made with. An event is a unique pointer,
which is null when a pop has timed out.
-/

namespace Common

open Lib

/-- `TBlockingQueue::pop(U&)` once its wait is over: of an empty queue it leaves the item alone. -/
def popInto {T : Type*} (q : Fifo T) (item : T) : T × Fifo T :=
  (q.front?.getD item, q.pop)

/-- Every sender makes its event by `std::make_unique`, so it is not null. -/
def sendEvent {E : Type*} (q : Fifo (Option E)) (ev : E) : Fifo (Option E) := q.push (some ev)

def consumeEvent {E : Type*} (q : Fifo (Option E)) : Option E × Fifo (Option E) := popInto q none

/-- Where the listener thread stands in `eventLoop`: at the loop condition, at the weak pointer to
the holder, at the mutex of the queue, waiting inside the pop, back with what it got, inside the
function, or out of the loop. -/
inductive Pc (E : Type*) where
  | test
  | lockHolder
  | consume
  | waiting
  | received (ev : Option E)
  | processing (ev : E)
  | left
  deriving DecidableEq

/-- The event that is popped and not yet given. -/
def Pc.held {E : Type*} : Pc E → List E
  | .received ev => ev.toList
  | _ => []

/-- `if (ev) m_event_prc_func(ev);` -/
def branch {E : Type*} : Option E → Pc E
  | some e => .processing e
  | none => .test

/-- The `catch` stands outside of the loop, so an exception leaves it. -/
def resume {E : Type*} : Option StdException → Pc E
  | none => .test
  | some _ => .left

structure EventLoop (E : Type*) where
  queue : Fifo (Option E)
  /-- The weak pointer to the holder of the queue can still be locked. -/
  holder : Bool
  interrupted : Bool
  pc : Pc E

def EventLoop.start {E : Type*} : EventLoop E := ⟨.empty, true, false, .test⟩

inductive LoopEvent (E : Type*) where
  | send (ev : E)
  | interrupt
  | releaseHolder
  | test
  | lockHolder
  | consume
  | wake (timedOut : Bool)
  | dispatch
  | return (thrown : Option StdException)
  deriving DecidableEq

variable {E : Type*}

/-- The events that are steps of the listener thread. -/
def LoopEvent.isTurn : LoopEvent E → Bool
  | .send _ | .interrupt | .releaseHolder => false
  | _ => true

def LoopEvent.sent? : LoopEvent E → Option E
  | .send ev => some ev
  | _ => none

/-- One step, of a sender, of the owner or of the listener. `outcome e r` says that the function,
called with `e`, may return (`r = none`) or throw. The owner keeps the holder alive until it has
interrupted the listener. From the test of the queue to the pop the mutex is held, so both are one
step. -/
inductive Step (outcome : E → Option StdException → Prop) :
    EventLoop E → LoopEvent E → EventLoop E → Prop where
  | send (s : EventLoop E) (ev : E) :
      Step outcome s (.send ev) { s with queue := sendEvent s.queue ev }
  | interrupt (s : EventLoop E) : Step outcome s .interrupt { s with interrupted := true }
  | releaseHolder {s : EventLoop E} (h : s.interrupted = true) :
      Step outcome s .releaseHolder { s with holder := false }
  | test {s : EventLoop E} (h : s.pc = .test) :
      Step outcome s .test { s with pc := if s.interrupted then .left else .lockHolder }
  | lockHolder {s : EventLoop E} (h : s.pc = .lockHolder) :
      Step outcome s .lockHolder { s with pc := if s.holder then .consume else .left }
  | consume {s : EventLoop E} (h : s.pc = .consume) (hready : s.queue.content ≠ []) :
      Step outcome s .consume
        { s with queue := (consumeEvent s.queue).2, pc := .received (consumeEvent s.queue).1 }
  | wait {s : EventLoop E} (h : s.pc = .consume) (hempty : s.queue.content = []) :
      Step outcome s .consume { s with pc := .waiting }
  | wake {s : EventLoop E} (timedOut : Bool) (h : s.pc = .waiting)
      (hawake : timedOut = true ∨ s.queue.content ≠ []) :
      Step outcome s (.wake timedOut)
        { s with queue := (consumeEvent s.queue).2, pc := .received (consumeEvent s.queue).1 }
  | dispatch {s : EventLoop E} {ev : Option E} (h : s.pc = .received ev) :
      Step outcome s .dispatch { s with pc := branch ev }
  | return {s : EventLoop E} {e : E} {r : Option StdException} (h : s.pc = .processing e)
      (hr : outcome e r) :
      Step outcome s (.return r) { s with pc := resume r }

/-- The events sent in a run, in the order of their pushes. -/
def sends (tr : List (EventLoop E × LoopEvent E)) : List E := tr.filterMap (·.2.sent?)

/-- What the function is called with between two states: the thread comes to be inside it. -/
def called (s t : EventLoop E) : List E :=
  match s.pc, t.pc with
  | .processing _, _ => []
  | _, .processing e => [e]
  | _, _ => []

/-- What the function has been called with in a run to `t`, the calls in their order. -/
def calls (tr : List (EventLoop E × LoopEvent E)) (t : EventLoop E) : List E :=
  transitions called (tr.map (·.1)) t

/-- How many steps the listener takes in a run. -/
def turns (tr : List (EventLoop E × LoopEvent E)) : ℕ := tr.countP (·.2.isTurn)

variable {outcome : E → Option StdException → Prop} {s t : EventLoop E} {e : LoopEvent E}
  {tr : List (EventLoop E × LoopEvent E)} {given : List E}

/-- As long as the thread does not move, nothing is called. -/
lemma called_of_pc_eq (h : t.pc = s.pc) : called s t = [] := by
  unfold called
  rw [h]
  cases s.pc <;> rfl

lemma interrupted_of_run (hrun : Run (Step outcome) s tr t) (hs : s.interrupted = true) :
    t.interrupted = true := by
  refine hrun.invariant (P := fun s => s.interrupted = true) ?_ hs
  intro a e b hstep ha
  cases hstep <;> first | exact ha | rfl

lemma Step.pushed (h : Step outcome s e t) :
    t.queue.pushed = s.queue.pushed ++ (e.sent?.map some).toList := by
  cases h <;> simp [sendEvent, consumeEvent, popInto, LoopEvent.sent?]

lemma pushed_of_run (hrun : Run (Step outcome) s tr t) :
    t.queue.pushed = s.queue.pushed ++ (sends tr).map some := by
  rw [sends, List.map_filterMap]
  exact hrun.log (·.queue.pushed) (fun p => p.2.sent?.map some) Step.pushed

/-- What the listener has popped it has given, or still holds. It is in the loop as long as it is
not interrupted. -/
structure Sound (given : List E) (s : EventLoop E) : Prop where
  nonnull : none ∉ s.queue.pushed
  popped : (given ++ s.pc.held).map some = s.queue.popped
  holder : s.interrupted = false → s.holder = true
  inside : s.interrupted = false → s.pc ≠ .left

lemma sound_start : Sound [] (EventLoop.start : EventLoop E) :=
  ⟨List.not_mem_nil, rfl, fun _ => rfl, fun _ => nofun⟩

/-- The steps that pop. -/
lemma Sound.consumeEvent (h : Sound given s) (hheld : s.pc.held = []) :
    Sound given { s with
      queue := (consumeEvent s.queue).2, pc := .received (consumeEvent s.queue).1 } := by
  refine ⟨h.nonnull, ?_, h.holder, fun _ => nofun⟩
  have hpopped := h.popped
  rw [hheld, List.append_nil] at hpopped
  simp only [Common.consumeEvent, popInto, Fifo.pop_popped, List.map_append, hpopped, Pc.held]
  cases hfront : s.queue.front? with
  | none => rfl
  | some ev =>
    cases ev with
    | none => exact absurd (Fifo.mem_pushed_of_front hfront) h.nonnull
    | some e => rfl

/-- The function is called by a dispatch only. -/
lemma Step.called_eq_nil (h : Step outcome s e t) (he : e ≠ .dispatch) : called s t = [] := by
  cases h with
  | send | interrupt | releaseHolder => exact called_of_pc_eq rfl
  | test hpc => cases hint : s.interrupted <;> simp [called, hpc]
  | lockHolder hpc => cases hholder : s.holder <;> simp [called, hpc]
  | consume hpc _ | wait hpc _ | wake _ hpc _ => simp [called, hpc]
  | dispatch => exact absurd rfl he
  | «return» hpc _ => simp [called, hpc]

/-- What the thread has in its hands it gives to the function. -/
lemma Step.sound_of_dispatch (h : Step outcome s .dispatch t) (hs : Sound given s) :
    Sound (given ++ called s t) t := by
  cases h with
  | @dispatch ev hpc =>
    have hpopped := hs.popped
    rw [hpc] at hpopped
    refine ⟨hs.nonnull, ?_, hs.holder, fun _ => ?_⟩
    · rw [← hpopped]
      cases ev <;> simp [called, hpc, branch, Pc.held]
    · cases ev <;> nofun

section

variable (hcaught : ∀ e x, ¬ outcome e (some x))
include hcaught

lemma Step.sound (h : Step outcome s e t) (hs : Sound given s) :
    Sound (given ++ called s t) t := by
  by_cases he : e = .dispatch
  · subst he
    exact h.sound_of_dispatch hs
  · rw [h.called_eq_nil he, List.append_nil]
    cases h with
    | send ev =>
      refine ⟨?_, hs.popped, hs.holder, hs.inside⟩
      simpa [sendEvent] using hs.nonnull
    | interrupt => exact ⟨hs.nonnull, hs.popped, nofun, nofun⟩
    | releaseHolder hint =>
      refine ⟨hs.nonnull, hs.popped, fun h => ?_, hs.inside⟩
      rw [hint] at h
      cases h
    | test hpc =>
      refine ⟨hs.nonnull, ?_, hs.holder, fun h => ?_⟩
      · rw [← hs.popped, hpc]
        split_ifs <;> rfl
      · have hs' : s.interrupted = false := h
        simp [hs']
    | lockHolder hpc =>
      refine ⟨hs.nonnull, ?_, hs.holder, fun h => ?_⟩
      · rw [← hs.popped, hpc]
        split_ifs <;> rfl
      · have hs' := hs.holder h
        simp [hs']
    | consume hpc _ => exact hs.consumeEvent (by rw [hpc]; rfl)
    | wait hpc _ =>
      refine ⟨hs.nonnull, ?_, hs.holder, fun _ => nofun⟩
      rw [← hs.popped, hpc]
      rfl
    | wake timedOut hpc _ => exact hs.consumeEvent (by rw [hpc]; rfl)
    | dispatch => exact absurd rfl he
    | @«return» ev r hpc hr =>
      cases r with
      | some x => exact absurd hr (hcaught ev x)
      | none =>
        refine ⟨hs.nonnull, ?_, hs.holder, fun _ => nofun⟩
        rw [← hs.popped, hpc]
        rfl

lemma sound_of_run (hrun : Run (Step outcome) s tr t) (hs : Sound given s) :
    Sound (given ++ calls tr t) t :=
  hrun.history (Step.sound hcaught) hs

end

/-- Given, held and queued events are the events sent, in the order of the pushes. -/
lemma Sound.delivered (h : Sound given s) (l : List E) (hpushed : s.queue.pushed = l.map some) :
    (given ++ s.pc.held).map some ++ s.queue.content = l.map some := by
  rw [h.popped, s.queue.complete, hpushed]

/-! ### Progress -/

/-- Turns to the next pop of a queue that has something, at most. -/
def Pc.ahead : Pc E → ℕ
  | .consume | .waiting | .left => 0
  | .lockHolder => 1
  | .test => 2
  | .processing _ => 3
  | .received _ => 4

/-- Turns until the first `k` events are popped, and the last of them given. A timeout costs nothing
here, since it happens only when there is nothing left to pop. -/
def work (k : ℕ) (s : EventLoop E) : ℕ := 5 * (k - s.queue.popped.length) + s.pc.ahead

lemma Sound.length_popped (h : Sound given s) :
    s.queue.popped.length = given.length + s.pc.held.length := by
  rw [← h.popped, List.length_map, List.length_append]

/-- What a pop does to the work that is left. -/
lemma work_consumeEvent {k : ℕ} (h : Sound given s) (hheld : s.pc.held = [])
    (hk : k ≤ s.queue.pushed.length) :
    k ≤ given.length ∨
      5 * (k - (consumeEvent s.queue).2.popped.length) + 4 < work k s := by
  have hlen := h.length_popped
  rw [hheld, List.length_nil, Nat.add_zero] at hlen
  by_cases hlt : s.queue.popped.length < k
  · right
    obtain ⟨ev, hfront⟩ := Fifo.exists_front (hlt.trans_le hk)
    simp only [consumeEvent, popInto, Fifo.pop_popped, hfront, Option.toList_some,
      List.length_append, List.length_singleton, work]
    omega
  · left
    rw [← hlen]
    exact not_lt.mp hlt

section

variable (hcaught : ∀ e x, ¬ outcome e (some x))
include hcaught

/-- A turn of a listener that is not interrupted. -/
lemma Step.turn {k : ℕ} (h : Step outcome s e t) (hs : Sound given s)
    (hint : s.interrupted = false) (hturn : e.isTurn = true) (hk : k ≤ s.queue.pushed.length) :
    k ≤ given.length ∨ work k t < work k s := by
  cases h with
  | send | interrupt | releaseHolder => cases hturn
  | test hpc => right; simp [work, hpc, hint, Pc.ahead]
  | lockHolder hpc => right; simp [work, hpc, hs.holder hint, Pc.ahead]
  | consume hpc _ => exact work_consumeEvent hs (by rw [hpc]; rfl) hk
  | wait hpc hempty =>
    left
    have hall := s.queue.length_complete
    have hlen := hs.length_popped
    simp only [hempty, hpc, Pc.held, List.length_nil, Nat.add_zero] at hall hlen
    rwa [← hlen, hall]
  | wake timedOut hpc _ => exact work_consumeEvent hs (by rw [hpc]; rfl) hk
  | @dispatch ev hpc =>
    right
    cases ev <;> simp [work, hpc, branch, Pc.ahead]
  | @«return» ev r hpc hr =>
    cases r with
    | some x => exact absurd hr (hcaught ev x)
    | none => right; simp [work, hpc, resume, Pc.ahead]

end

/-- Whatever is not a turn leaves the listener where it is. -/
lemma Step.work_eq {k : ℕ} (h : Step outcome s e t) (hturn : e.isTurn = false) :
    work k t = work k s := by
  cases h <;> first | rfl | cases hturn

lemma Step.pushed_le (h : Step outcome s e t) :
    s.queue.pushed.length ≤ t.queue.pushed.length := by
  cases h <;> simp [sendEvent, consumeEvent, popInto]

lemma not_interrupted_of_run (hrun : Run (Step outcome) s tr t) (hint : t.interrupted = false) :
    s.interrupted = false := by
  cases hs : s.interrupted with
  | false => rfl
  | true =>
    rw [interrupted_of_run hrun hs] at hint
    cases hint

section

variable (hcaught : ∀ e x, ¬ outcome e (some x))
include hcaught

lemma work_of_run {k : ℕ} (hrun : Run (Step outcome) s tr t) (hs : Sound given s)
    (hint : t.interrupted = false) (hk : k ≤ s.queue.pushed.length) :
    k ≤ (given ++ calls tr t).length ∨ work k t + turns tr ≤ work k s := by
  induction hrun generalizing given with
  | nil s => exact .inr le_rfl
  | @cons s u t e tr hstep hrun ih =>
    have hrest := ih (hstep.sound hcaught hs) hint (hk.trans hstep.pushed_le)
    have hcalls : calls ((s, e) :: tr) t = called s u ++ calls tr t :=
      transitions_cons hrun.headD_eq
    have hturns : turns ((s, e) :: tr) = turns tr + if e.isTurn then 1 else 0 := by
      simp [turns, List.countP_cons]
    rw [hcalls, ← List.append_assoc]
    cases hturn : e.isTurn with
    | false =>
      rw [hturns, hturn, ← hstep.work_eq hturn]
      exact hrest
    | true =>
      have hintS := not_interrupted_of_run (.cons hstep hrun) hint
      rcases hstep.turn hcaught hs hintS hturn hk with hdone | hless
      · left
        rw [List.append_assoc, List.length_append]
        exact hdone.trans (Nat.le_add_right _ _)
      · apply hrest.imp_right
        intro hle
        rw [hturns, hturn, if_pos rfl]
        omega

/-- As long as the listener is not interrupted, five turns for each queued event and a few more
see to it that everything sent so far has been given. -/
theorem given_after_turns (hrun : Run (Step outcome) s tr t) (hs : Sound given s)
    (hint : t.interrupted = false) (hturns : 5 * s.queue.content.length + 4 < turns tr) :
    s.queue.pushed <+: (given ++ calls tr t).map some := by
  have hcount := s.queue.length_complete
  have hahead : s.pc.ahead ≤ 4 := by cases s.pc <;> simp [Pc.ahead]
  have hgiven : s.queue.pushed.length ≤ (given ++ calls tr t).length := by
    apply (work_of_run hcaught hrun hs hint le_rfl).resolve_right
    intro hle
    have hwork : work s.queue.pushed.length s ≤ 5 * s.queue.content.length + 4 := by
      simp only [work, ← hcount, Nat.add_sub_cancel_left]
      exact Nat.add_le_add_left hahead _
    exact absurd (hle.trans hwork) (by omega)
  have ht := sound_of_run hcaught hrun hs
  have hfront : (given ++ calls tr t).map some <+: t.queue.pushed := by
    rw [← t.queue.complete, ← ht.popped]
    exact ((List.prefix_append _ _).map some).trans (List.prefix_append _ _)
  have hsent : s.queue.pushed <+: t.queue.pushed := by
    rw [pushed_of_run hrun]
    exact List.prefix_append _ _
  exact List.prefix_of_prefix_length_le hsent hfront (by rwa [List.length_map])

end

end Common
