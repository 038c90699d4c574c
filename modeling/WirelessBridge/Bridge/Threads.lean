import Mathlib.Logic.Function.Basic
import WirelessBridge.Bridge.Race

/-!
# The bridge and its threads

No lock is held while a message is handled or the watchdog goes over the devices, so the steps of
the listener thread, of any number of workers and of mosquitto's thread mix. Every write to a block
and every `setTopic` is a step of its own, and so is every change of the connection status, which
`setTopic` reads anew each time.
-/

namespace WBridge

open Lib HBE System Mqtt

/-- One step of the pass of the watchdog over a block: where it goes on, and what it does. -/
def watchdogStep (item : RouterDeviceItem) (itrTime : ℤ) (name : Str) (blk : DevServiceBlk) :
    TickPoint → TickPoint × List Effect
  | .readDeadline => (if blk.timeToAttempt < itrTime then .compare else .done, [])
  | .compare =>
    (if blk.spentAttempt < item.nodeConnectionAttempt then .increment else .incrementPast, [])
  | .increment => (.writeDeadline, [.spentAttempt name (blk.spentAttempt + 1)])
  | .writeDeadline => (.done, [.timeToAttempt name (itrTime + seconds item.nodeTimeoutInSec)])
  | .incrementPast =>
    (if blk.spentAttempt = item.nodeConnectionAttempt then .announce else .done,
      [.spentAttempt name (blk.spentAttempt + 1)])
  | .announce => (.done, [.setTopic item.statusMqttTopic (str "error")])
  | .done => (.done, [])

/-- A call of `processDeviceList`: the devices that it is not done with, and where it stands with
the first of them. -/
structure Watch where
  itrTime : ℤ
  names : List Str
  point : TickPoint

namespace Watch

def begin (itrTime : ℤ) (order : List Str) : Watch := ⟨itrTime, order, .readDeadline⟩

/-- On to the point `p`, or to the next device. -/
def goOn (itrTime : ℤ) (name : Str) (rest : List Str) (p : TickPoint) : Watch :=
  if p = .done then begin itrTime rest else ⟨itrTime, name :: rest, p⟩

/-- The next step of the call. -/
def next (table : GwtTable) (items : KeyedMap Str DevServiceBlk) (w : Watch) :
    Watch × List Effect :=
  match w.names with
  | [] => (w, [])
  | name :: rest =>
    match items name, getGwtItem table name with
    | some blk, some item =>
      let (p, es) := watchdogStep item w.itrTime name blk w.point
      (goOn w.itrTime name rest p, es)
    | _, _ => (begin w.itrTime rest, [])

end Watch

structure Threads where
  bridge : Bridge
  /-- What the call of `mqttEventProcessFunc` still has to do. -/
  handler : List Effect
  /-- The calls of `processDeviceList`, one for each worker. -/
  watches : ℕ → Watch

namespace Threads

def start (b : Bridge) : Threads := ⟨b, [], fun _ => .begin 0 []⟩

end Threads

inductive ThreadEvent where
  | handle (topic msg : Str) (clk : ℕ → ℤ)
  | effect
  | tick (i : ℕ) (itrTime : ℤ) (order : List Str)
  | watch (i : ℕ)
  | onConnect (rc : ℤ)
  | onDisconnect

/-- What a call of `mqttEventProcessFunc` does depends on the message, on which devices have a
block, which never changes, and on the clock, so it is known when the call begins. The calls of the
watchdog read the blocks as they go. An increment is one step. -/
inductive ThreadStep (table : GwtTable) : Threads → ThreadEvent → Threads → Prop where
  | handle {s : Threads} (topic msg : Str) (clk : ℕ → ℤ) (hidle : s.handler = [])
      (hdefined : (s.bridge.handle table topic msg clk).fault = none) :
      ThreadStep table s (.handle topic msg clk)
        { s with handler := (s.bridge.handle table topic msg clk).effects }
  | effect {s : Threads} {e : Effect} {rest : List Effect} (h : s.handler = e :: rest) :
      ThreadStep table s .effect { s with bridge := s.bridge.perform e, handler := rest }
  | tick {s : Threads} (i : ℕ) (itrTime : ℤ) {order : List Str} (hidle : (s.watches i).names = [])
      (horder : s.bridge.deviceItems.IterationOrder order) :
      ThreadStep table s (.tick i itrTime order)
        { s with watches := Function.update s.watches i (.begin itrTime order) }
  | watch {s : Threads} {i : ℕ} {w : Watch} {es : List Effect} (hbusy : (s.watches i).names ≠ [])
      (hnext : (s.watches i).next table s.bridge.deviceItems = (w, es)) :
      ThreadStep table s (.watch i)
        { s with bridge := s.bridge.performAll es, watches := Function.update s.watches i w }
  | onConnect (s : Threads) (rc : ℤ) :
      ThreadStep table s (.onConnect rc)
        { s with bridge := { s.bridge with mqtt := (onConnect s.bridge.mqtt rc).1 } }
  | onDisconnect (s : Threads) :
      ThreadStep table s .onDisconnect
        { s with bridge := { s.bridge with mqtt := (onDisconnect s.bridge.mqtt).1 } }

variable {table : GwtTable} {s t : Threads} {d : ThreadEvent} {b b' : Bridge}
  {item : RouterDeviceItem} {blk : DevServiceBlk} {itrTime : ℤ} {name : Str} {rest : List Str}
  {i : ℕ} {p : TickPoint} {es : List Effect} {σ : Shared}

/-- On the block and the status topic of one device, these are the steps of its race with a
message. -/
theorem tickStep_eq (hp : p ≠ .done) :
    tickStep item itrTime p σ
      = some ((watchdogStep item itrTime item.devName σ.blk p).1,
          σ.performAll item (watchdogStep item itrTime item.devName σ.blk p).2) := by
  cases p with
  | done => exact absurd rfl hp
  | _ => rfl

lemma ThreadStep.known_eq (h : ThreadStep table s d t) : t.bridge.known = s.bridge.known := by
  cases h with
  | effect => exact Bridge.known_perform ..
  | watch => exact Bridge.known_performAll ..
  | handle | tick | onConnect | onDisconnect => rfl

/-! ### One thread after the other -/

lemma run_handler (es : List Effect) (h : s.handler = es) :
    ∃ tr, Run (ThreadStep table) s tr
      { s with bridge := s.bridge.performAll es, handler := [] } := by
  induction es generalizing s with
  | nil =>
    obtain ⟨bridge, handler, watches⟩ := s
    obtain rfl : handler = [] := h
    exact ⟨[], .nil _⟩
  | cons e es ih =>
    obtain ⟨tr, hrun⟩ := @ih { s with bridge := s.bridge.perform e, handler := es } rfl
    exact ⟨_, .cons (.effect h) hrun⟩

/-- The state with this bridge, and worker `i` at this place. -/
def Threads.at (s : Threads) (i : ℕ) (b : Bridge) (w : Watch) : Threads :=
  { s with bridge := b, watches := Function.update s.watches i w }

/-- One step of a worker, at a device that has a block and an entry. -/
lemma step_at (hblk : b.deviceItems name = some blk) (hitem : getGwtItem table name = some item) :
    ThreadStep table (s.at i b ⟨itrTime, name :: rest, p⟩) (.watch i)
      (s.at i (b.performAll (watchdogStep item itrTime name blk p).2)
        (.goOn itrTime name rest (watchdogStep item itrTime name blk p).1)) := by
  have hnext : (Watch.mk itrTime (name :: rest) p).next table b.deviceItems
      = (.goOn itrTime name rest (watchdogStep item itrTime name blk p).1,
          (watchdogStep item itrTime name blk p).2) := by
    simp only [Watch.next, hblk, hitem]
  have hstep : ThreadStep table (s.at i b ⟨itrTime, name :: rest, p⟩) (.watch i) _ :=
    .watch (by simp [Threads.at]) (by simpa [Threads.at] using hnext)
  simpa only [Threads.at, Function.update_idem] using hstep

/-- A worker that is left alone makes a pass over the block of a device. -/
lemma run_pass (hblk : b.deviceItems name = some blk) (hitem : getGwtItem table name = some item) :
    ∃ tr, Run (ThreadStep table) (s.at i b (.begin itrTime (name :: rest))) tr
      (s.at i (b.performAll (watchdogPass item itrTime name blk)) (.begin itrTime rest)) := by
  have hblk' : (b.perform (.spentAttempt name (blk.spentAttempt + 1))).deviceItems name
      = some { blk with spentAttempt := blk.spentAttempt + 1 } := by
    simp [Bridge.deviceItems_perform, hblk, DevServiceBlk.perform]
  have h₁ := Run.single (@step_at table s b item blk itrTime name rest i .readDeadline hblk hitem)
  rw [watchdogPass]
  by_cases hdue : blk.timeToAttempt < itrTime
  · simp only [watchdogStep, if_pos hdue] at h₁ ⊢
    have h₂ := h₁.append (.single (step_at hblk hitem))
    by_cases hlt : blk.spentAttempt < item.nodeConnectionAttempt
    · simp only [watchdogStep, if_pos hlt] at h₂ ⊢
      have h₃ := h₂.append (.single (step_at hblk hitem))
      exact ⟨_, h₃.append (.single (step_at hblk' hitem))⟩
    · simp only [watchdogStep, if_neg hlt] at h₂ ⊢
      have h₃ := h₂.append (.single (step_at hblk hitem))
      by_cases heq : blk.spentAttempt = item.nodeConnectionAttempt
      · simp only [watchdogStep, if_pos heq] at h₃ ⊢
        exact ⟨_, h₃.append (.single (step_at hblk' hitem))⟩
      · simp only [watchdogStep, if_neg heq] at h₃ ⊢
        exact ⟨_, h₃⟩
  · simp only [watchdogStep, if_neg hdue] at h₁ ⊢
    exact ⟨_, h₁⟩

/-- A device without a block or without an entry is passed over. -/
lemma step_skip
    (hnone : b.deviceItems name = none ∨ getGwtItem table name = none) :
    ThreadStep table (s.at i b (.begin itrTime (name :: rest))) (.watch i)
      (s.at i b (.begin itrTime rest)) := by
  have hnext : (Watch.begin itrTime (name :: rest)).next table b.deviceItems
      = (.begin itrTime rest, []) := by
    rcases hnone with hblk | hitem
    · simp [Watch.next, Watch.begin, hblk]
    · cases hblk : b.deviceItems name <;> simp [Watch.next, Watch.begin, hblk, hitem]
  have hstep : ThreadStep table (s.at i b (.begin itrTime (name :: rest))) (.watch i) _ :=
    .watch (by simp [Threads.at, Watch.begin]) (by simpa [Threads.at] using hnext)
  simpa only [Threads.at, Function.update_idem, Bridge.performAll_nil] using hstep

lemma run_device :
    ∃ tr, Run (ThreadStep table) (s.at i b (.begin itrTime (name :: rest))) tr
      (s.at i (b.performAll (watchdogEffects table itrTime b.deviceItems name))
        (.begin itrTime rest)) := by
  cases hblk : b.deviceItems name with
  | none =>
    simp only [watchdogEffects, hblk, Bridge.performAll_nil]
    exact ⟨_, .single (step_skip (.inl hblk))⟩
  | some blk =>
    cases hitem : getGwtItem table name with
    | none =>
      simp only [watchdogEffects, hblk, hitem, Bridge.performAll_nil]
      exact ⟨_, .single (step_skip (.inr hitem))⟩
    | some item =>
      simp only [watchdogEffects, hblk, hitem]
      exact run_pass hblk hitem

/-- A call of `processDeviceList` that is left alone. -/
lemma run_processDeviceList (order : List Str) :
    ∃ tr, Run (ThreadStep table) (s.at i b (.begin itrTime order)) tr
      (s.at i (processDeviceList table itrTime order b) (.begin itrTime [])) := by
  induction order generalizing b with
  | nil => exact ⟨[], .nil _⟩
  | cons name rest ih =>
    obtain ⟨tr, hdevice⟩ := @run_device table s b itrTime name rest i
    obtain ⟨tr', hrest⟩ := ih
    exact ⟨_, hdevice.append hrest⟩

/-- The calls of the threads are over, and have left the bridge as `b`. -/
structure Threads.Rests (s : Threads) (b : Bridge) : Prop where
  handler : s.handler = []
  watches : ∀ i, (s.watches i).names = []
  bridge : s.bridge = b

/-- A step of the sequential bridge is a run of the threads, one call after the other. -/
lemma Step.threads {e : Event} (h : Step table b e b') (hs : s.Rests b) :
    ∃ tr t, Run (ThreadStep table) s tr t ∧ t.Rests b' := by
  obtain ⟨hhandler, hwatches, rfl⟩ := hs
  cases h with
  | @tick itrTime order horder =>
    have hbegin : ThreadStep table s (.tick 0 itrTime order)
        (s.at 0 s.bridge (.begin itrTime order)) := .tick 0 itrTime (hwatches 0) horder
    obtain ⟨tr, hrun⟩ := @run_processDeviceList table s s.bridge itrTime 0 order
    refine ⟨_, _, .cons hbegin hrun, hhandler, fun i => ?_, rfl⟩
    by_cases hi : i = 0
    · subst hi
      simp [Threads.at, Watch.begin]
    · simpa [Threads.at, hi] using hwatches i
  | update topic msg clk hdefined =>
    have hbegin : ThreadStep table s (.handle topic msg clk) _ :=
      .handle topic msg clk hhandler hdefined
    obtain ⟨tr, hrun⟩ := @run_handler table _ _ rfl
    exact ⟨_, _, .cons hbegin hrun, rfl, hwatches, rfl⟩
  | connect => exact ⟨_, _, .single (.onConnect s 0), hhandler, hwatches, rfl⟩
  | disconnect => exact ⟨_, _, .single (.onDisconnect s), hhandler, hwatches, rfl⟩

/-- Calls that do not mix are one way for the threads to run: whatever the sequential bridge comes
to, the threads can come to. -/
theorem threads_of_run {tr : List (Bridge × Event)} (hrun : Run (Step table) b tr b') :
    ∃ tr' t, Run (ThreadStep table) (.start b) tr' t ∧ t.Rests b' :=
  hrun.simulate_run (R := fun b (s : Threads) => s.Rests b) Step.threads ⟨rfl, fun _ => rfl, rfl⟩

end WBridge
