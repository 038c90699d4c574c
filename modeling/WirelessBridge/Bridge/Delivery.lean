import WirelessBridge.Bridge.Router
import WirelessBridge.Events.Listener

/-!
# Delivery of events to the bridge

The listener of the bridge calls `mqttEventProcessFunc`, which lets no exception out.
-/

namespace WBridge

open Lib Mqtt Common

/-- How the handling of an event can end, for some state of the device table and some clock. An
access outside of a vector is no end: the language says nothing of what follows it. -/
def processed (table : GwtTable) (ev : TMqttEventVariant) (thrown : Option StdException) : Prop :=
  ∃ known clk, (mqttEventProcessFunc known table clk ev).fault = thrown.map .exception

lemma not_processed_some {table : GwtTable} (ev : TMqttEventVariant) (x : StdException) :
    ¬ processed table ev (some x) := by
  rintro ⟨known, clk, h⟩
  cases ev with
  | online b => cases h
  | topicUpdate topic message =>
    simp only [mqttEventProcessFunc, catchAndReport] at h
    split at h
    · cases h
    · rename_i hother
      exact hother _ h

/-- Until the listener is interrupted, the events with which `mqttEventProcessFunc` has been called,
the one that is popped and not given, and those in the queue are the events sent, in the order of
their pushes; a pop that times out gives nothing; and the listener stays in its loop, where it needs
at most five steps for each event in the queue, and four more, to give all that was sent. -/
theorem events_delivered {table : GwtTable} {s : EventLoop TMqttEventVariant}
    {tr : List (EventLoop TMqttEventVariant × LoopEvent TMqttEventVariant)}
    (hrun : Run (Common.Step (processed table)) EventLoop.start tr s)
    (hint : s.interrupted = false) :
    (calls tr s ++ s.pc.held).map some ++ s.queue.content = (sends tr).map some ∧
    (∀ t, s.queue.content = [] → Common.Step (processed table) s (.wake true) t →
      t.pc = .received none) ∧
    (∀ t, s.pc = .received none → Common.Step (processed table) s .dispatch t →
      t.pc = .test ∧ called s t = []) ∧
    s.pc ≠ .left ∧
    ∀ tr' t, Run (Common.Step (processed table)) s tr' t → t.interrupted = false →
      5 * s.queue.content.length + 4 < turns tr' → sends tr <+: calls (tr ++ tr') t := by
  have hsound : Sound (calls tr s) s := sound_of_run not_processed_some hrun sound_start
  have hpushed : s.queue.pushed = (sends tr).map some := pushed_of_run hrun
  refine ⟨hsound.delivered _ hpushed, ?_, ?_, hsound.inside hint, ?_⟩
  · intro t hempty hstep
    cases hstep with
    | wake timedOut hpc _ => simp [consumeEvent, popInto, Fifo.front?, hempty]
  · intro t hpc hstep
    cases hstep with
    | @dispatch ev hpc' =>
      obtain rfl := Pc.received.inj (hpc.symm.trans hpc')
      exact ⟨rfl, by simp [called, hpc, branch]⟩
  · intro tr' t hrun' hint' hturns
    have hcalls : calls (tr ++ tr') t = calls tr s ++ calls tr' t := by
      rw [calls, List.map_append]
      exact transitions_append hrun'.headD_eq
    have hprefix := given_after_turns not_processed_some hrun' hsound hint' hturns
    rw [hpushed, ← hcalls] at hprefix
    exact (List.prefix_map_iff_of_injective (Option.some_injective _)).mp hprefix

/-- A pop times out, an event is popped and given, another one is popped, and a third waits. -/
theorem events_delivered_online :
    ∃ tr s, Run (Common.Step (processed [])) EventLoop.start tr s ∧
      calls tr s = [.online true] ∧ s.pc.held = [.online false] ∧
      s.queue.content = [some (.online true)] ∧
      (calls tr s ++ s.pc.held).map some ++ s.queue.content = (sends tr).map some := by
  have h₁ := Run.single (.test rfl : Common.Step (processed []) EventLoop.start _ _)
  have h₂ := h₁.append (.single (.lockHolder rfl))
  have h₃ := h₂.append (.single (.wait rfl rfl))
  have h₄ := h₃.append (.single (.wake true rfl (.inl rfl)))
  have h₅ := h₄.append (.single (.dispatch rfl))
  have h₆ := h₅.append (.single (.send _ (.online true)))
  have h₇ := h₆.append (.single (.test rfl))
  have h₈ := h₇.append (.single (.lockHolder rfl))
  have h₉ := h₈.append (.single (.consume rfl (List.cons_ne_nil _ _)))
  have h₁₀ := h₉.append (.single (.dispatch rfl))
  have h₁₁ := h₁₀.append (.single (.return (r := none) rfl ⟨fun _ => false, fun _ => 0, rfl⟩))
  have h₁₂ := h₁₁.append (.single (.send _ (.online false)))
  have h₁₃ := h₁₂.append (.single (.send _ (.online true)))
  have h₁₄ := h₁₃.append (.single (.test rfl))
  have h₁₅ := h₁₄.append (.single (.lockHolder rfl))
  have h₁₆ := h₁₅.append (.single (.consume rfl (List.cons_ne_nil _ _)))
  exact ⟨_, _, h₁₆, rfl, rfl, rfl, (events_delivered h₁₆ rfl).1⟩

end WBridge
