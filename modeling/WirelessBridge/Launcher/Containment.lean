import WirelessBridge.Bridge.Step
import WirelessBridge.System.ConnMan
import WirelessBridge.System.FinalHaven
import WirelessBridge.System.WorkerPool

/-!
# Faults that do not end the application

Everything that a component reports of its own accord has a level at which the launcher goes on,
whatever goes wrong. What ends the application is a signal, or an error of the `io_service` itself.
-/

namespace System

open Lib HBE Mqtt WBridge

/-- The reports that the components make, wherever one is made. -/
inductive ComponentReport (κ : Type*) : HbeError → Prop where
  | subscribe {name : Str} {client : κ} {items : ConnTable κ} {lvl : ErrorLevel} {descr : Str}
      (h : .report lvl descr ∈ (System.subscribe name client items).1) :
      ComponentReport κ (lvl, descr)
  | connectionHandler {view : κ → Option ClientView} {itrTime : ℤ} {order : List Str}
      {items : ConnTable κ} {lvl : ErrorLevel} {descr : Str}
      (h : .report lvl descr ∈ (System.connectionHandler view itrTime order items).1.effects) :
      ComponentReport κ (lvl, descr)
  | mqttEventProcessFunc {known : Str → Bool} {table : GwtTable} {clk : ℕ → ℤ}
      {ev : TMqttEventVariant} {lvl : ErrorLevel} {descr : Str}
      (h : .report lvl descr ∈ (WBridge.mqttEventProcessFunc known table clk ev).effects) :
      ComponentReport κ (lvl, descr)
  /-- The watchdog has the same handler around it, for whatever the allocator may throw. -/
  | processDeviceList (e : StdException) :
      ComponentReport κ
        (.componentLevel, str "processDeviceList" ++ str ": Error: " ++ e.what ++ str "\n")
  | onError : ComponentReport κ (.componentLevel, str "mqtt internal error!!!")
  | functionError (x : StdException) : ComponentReport κ (System.functionError x)
  | serviceError (ec : ℤ) : ComponentReport κ (System.serviceError ec)

variable {κ : Type*} {err : HbeError} {lvl : ErrorLevel} {descr : Str}

/-! ### The levels of the reports -/

lemma systemLevel_of_subscribe {name : Str} {client : κ} {items : ConnTable κ}
    (h : .report lvl descr ∈ (subscribe name client items).1) : lvl = .systemLevel := by
  rw [subscribe] at h
  split_ifs at h
  · exact (Action.report.inj (List.mem_singleton.mp h)).1
  · cases h

lemma systemLevel_of_connectionHandler {view : κ → Option ClientView} {itrTime : ℤ}
    {order : List Str} {items : ConnTable κ}
    (h : .report lvl descr ∈ (connectionHandler view itrTime order items).1.effects) :
    lvl = .systemLevel := by
  have hitem : ∀ {name blk}, .report lvl descr ∈
      (processItem view itrTime name blk).1.effects → lvl = .systemLevel := by
    intro name blk hmem
    rcases mem_processItem hmem with ⟨st, heq⟩ | heq | heq
    · cases heq
    · cases heq
    · exact (Action.report.inj heq).1
  induction order generalizing items with
  | nil => cases h
  | cons name rest ih =>
    rw [connectionHandler] at h
    split at h
    · exact ih h
    · simp only at h
      split_ifs at h with hfault
      · rw [Performed.andThen_of_fault_eq_none hfault] at h
        rcases List.mem_append.mp h with hfirst | hrest
        · exact hitem hfirst
        · exact ih hrest
      · exact hitem h

lemma componentLevel_of_mqttEventProcessFunc {known : Str → Bool} {table : GwtTable} {clk : ℕ → ℤ}
    {ev : TMqttEventVariant}
    (h : .report lvl descr ∈ (mqttEventProcessFunc known table clk ev).effects) :
    lvl = .componentLevel := by
  cases ev with
  | online _ => cases h
  | topicUpdate topic msg =>
    rcases mem_effects_catchAndReport h with hrouted | ⟨_, heq⟩
    · obtain ⟨n, r, -, hmem⟩ := mem_processTopicUpdate hrouted
      rcases mem_processDevice hmem with ⟨-, heq | heq | heq⟩ | ⟨_, -, _, heq⟩ <;> cases heq
    · exact (Effect.report.inj heq).1

/-- Of all reports, those of the `io_service` alone are fatal. -/
lemma ComponentReport.serviceError_of_exitRequest (h : ComponentReport κ err)
    (hfatal : exitRequest err.1 = true) : ∃ ec, err = System.serviceError ec := by
  cases h with
  | serviceError ec => exact ⟨ec, rfl⟩
  | subscribe h =>
    rw [systemLevel_of_subscribe h] at hfatal
    cases hfatal
  | connectionHandler h =>
    rw [systemLevel_of_connectionHandler h] at hfatal
    cases hfatal
  | mqttEventProcessFunc h =>
    rw [componentLevel_of_mqttEventProcessFunc h] at hfatal
    cases hfatal
  | processDeviceList | onError | functionError => cases hfatal

lemma exitRequest_signalError (sig : ℤ) : exitRequest (signalError sig).1 = true := by
  rw [signalError]
  split_ifs <;> rfl

/-! ### The end of the application -/

variable {s : Launcher} {tr : List (Launcher × LauncherEvent)}

/-- A report that the launcher has taken has been made. -/
lemma mem_reports_of_taken (hrun : Run LauncherStep .start tr s) (htaken : err ∈ s.taken) :
    err ∈ reports tr := by
  have horder : InOrder s := hrun.invariant LauncherStep.inOrder rfl
  have hpushed : s.errQueue.pushed = reports tr := pushed_eq_reports hrun
  rw [← hpushed, ← s.errQueue.complete, horder]
  exact List.mem_append_left _ (List.mem_append_left _ htaken)

/-- In every run in which the reports are those of the components, the launcher leaves its loop just
when it has taken the report of a signal or of a failed `io_service`. -/
theorem ended_iff_signal_or_service (hrun : Run LauncherStep .start tr s)
    (hreports : ∀ p ∈ tr, ∀ lvl descr, p.2 = .report lvl descr → ComponentReport κ (lvl, descr)) :
    s.pc = .ended ↔
      ∃ err ∈ s.taken, (∃ sig, err = signalError sig) ∨ ∃ ec, err = serviceError ec := by
  have hends : EndsAtRequest s := hrun.invariant LauncherStep.endsAtRequest nofun
  constructor
  · intro hpc
    obtain ⟨before, last, htaken, hfatal, -⟩ := hends.ended_iff.mp hpc
    have hlast : last ∈ s.taken := by simp [htaken]
    refine ⟨last, hlast, ?_⟩
    obtain ⟨p, hp, hreported⟩ := List.mem_filterMap.mp (mem_reports_of_taken hrun hlast)
    cases he : p.2 with
    | report lvl descr =>
      rw [he] at hreported
      obtain rfl := Option.some.inj hreported
      exact .inr ((hreports p hp lvl descr he).serviceError_of_exitRequest hfatal)
    | signal sig =>
      rw [he] at hreported
      exact .inl ⟨sig, (Option.some.inj hreported).symm⟩
    | waitAction | pop | wake | test | take =>
      rw [he] at hreported
      cases hreported
  · rintro ⟨err, htaken, hcause⟩
    by_contra hpc
    rw [EndsAtRequest, if_neg hpc] at hends
    have hno := hends err htaken
    rcases hcause with ⟨sig, rfl⟩ | ⟨ec, rfl⟩
    · rw [exitRequest_signalError] at hno
      cases hno
    · cases hno

/-- An error of the client, at which the launcher goes on, and a signal. -/
theorem ended_iff_signal_or_service_interrupted :
    ∃ tr s, Run LauncherStep .start tr s ∧ s.pc = .ended ∧
      ∃ err ∈ s.taken, (∃ sig, err = signalError sig) ∨ ∃ ec, err = serviceError ec := by
  have h₁ := Run.single (LauncherStep.report .start .componentLevel (str "mqtt internal error!!!"))
  have h₂ := h₁.append (.single (.waitAction rfl))
  have h₃ := h₂.append (.single (.pop rfl (by exact List.cons_ne_nil _ _)))
  have h₄ := h₃.append (.single (.test rfl))
  have h₅ := h₄.append (.single (.take rfl))
  have h₆ := h₅.append (.single (.signal _ 15))
  have h₇ := h₆.append (.single (.waitAction rfl))
  have h₈ := h₇.append (.single (.pop rfl (by exact List.cons_ne_nil _ _)))
  have h₉ := h₈.append (.single (.test rfl))
  have h₁₀ := h₉.append (.single (.take rfl))
  refine ⟨_, _, h₁₀, rfl, (ended_iff_signal_or_service (κ := Unit) h₁₀ ?_).mp rfl⟩
  intro p hp lvl descr hreport
  simp only [List.mem_append, List.mem_singleton] at hp
  rcases hp with ((((((((rfl | rfl) | rfl) | rfl) | rfl) | rfl) | rfl) | rfl) | rfl) | rfl <;>
    cases hreport
  exact .onError

end System
