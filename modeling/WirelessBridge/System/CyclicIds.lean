import Mathlib.Data.List.Nodup
import WirelessBridge.System.Executor

/-!
# The ids of cyclic functions

`execute_cyclic` draws its id at random, and returns it. If the id is in the table already, the
entry that is there stays: two tasks then go by one id, and the table knows the first of them only.
-/

namespace System

open Lib

variable {F W : Type*}

/-- A cyclic task: the id that its caller got, and the timer, period and function that it was
registered with. -/
structure Registration (F : Type*) where
  id : UInt32
  data : TimerData F

/-- Tasks are active from their registration until `stop_cyclic` is called with their id. -/
def record (regs : List (Registration F)) (p : CExecutor F W × ExecEvent F W) :
    List (Registration F) :=
  match p.2 with
  | .executeCyclic execF time drawn => regs ++ [⟨drawn, p.1.timersMade, time, execF⟩]
  | .stopCyclic id => regs.filter (·.id ≠ id)
  | _ => regs

def active (tr : List (CExecutor F W × ExecEvent F W)) : List (Registration F) :=
  tr.foldl record []

/-- Ids tell tasks apart: in what callers hold, in the table, and in what `stop_cyclic` removes. -/
structure Identified (regs : List (Registration F)) (s : CExecutor F W) : Prop where
  distinct : (regs.map (·.id)).Nodup
  mapped : ∀ reg ∈ regs, s.cycleItems reg.id = some reg.data
  removed : ∀ reg ∈ regs, (s.stopCyclic reg.id).cycleItems reg.id = none
  kept : ∀ reg ∈ regs, ∀ other ∈ regs, other ≠ reg →
    (s.stopCyclic reg.id).cycleItems other.id = some other.data

/-- The condition: `rand()` draws an id that is not in the table. -/
def DrawnFree (p : CExecutor F W × ExecEvent F W) : Prop :=
  ∀ execF time drawn, p.2 = .executeCyclic execF time drawn → p.1.cycleItems drawn = none

open CExecutor

variable {s s' t : CExecutor F W} {e : ExecEvent F W} {regs : List (Registration F)}
  {tr : List (CExecutor F W × ExecEvent F W)}

lemma identified_of_mapped (hdistinct : (regs.map (·.id)).Nodup)
    (hmapped : ∀ reg ∈ regs, s.cycleItems reg.id = some reg.data) : Identified regs s where
  distinct := hdistinct
  mapped := hmapped
  removed := by
    intro reg _
    rw [cycleItems_stopCyclic]
    exact Function.update_self _ _ _
  kept := by
    intro reg hreg other hother hne
    have hid : other.id ≠ reg.id :=
      fun h => hne (List.inj_on_of_nodup_map hdistinct hother hreg h)
    rw [cycleItems_stopCyclic, KeyedMap.erase_of_ne hid]
    exact hmapped other hother

variable [DecidableEq W]

/-- Only the two calls change the table, or what is active. -/
lemma ExecStep.record_cases (h : ExecStep s e s') (regs : List (Registration F)) :
    (record regs (s, e) = regs ∧ s'.cycleItems = s.cycleItems) ∨
    (∃ execF time drawn, e = .executeCyclic execF time drawn ∧
      s'.cycleItems = s.cycleItems.emplace drawn ⟨s.timersMade, time, execF⟩) ∨
    ∃ id, e = .stopCyclic id ∧ s'.cycleItems = s.cycleItems.erase id := by
  cases h with
  | advance | execute | expire | start | finish => exact .inl ⟨rfl, rfl⟩
  | timeout hfree hq => exact .inl ⟨rfl, cycleItems_timeoutFunc⟩
  | executeCyclic execF time drawn =>
    exact .inr (.inl ⟨execF, time, drawn, rfl, cycleItems_executeCyclic⟩)
  | stopCyclic cyclicId => exact .inr (.inr ⟨cyclicId, rfl, cycleItems_stopCyclic⟩)

lemma ExecStep.identified (h : ExecStep s e s') (hfree : DrawnFree (s, e))
    (hs : Identified regs s) : Identified (record regs (s, e)) s' := by
  rcases h.record_cases regs with ⟨hsame, hitems⟩ | ⟨execF, time, drawn, rfl, hitems⟩ |
    ⟨id, rfl, hitems⟩
  · rw [hsame]
    apply identified_of_mapped hs.distinct
    rw [hitems]
    exact hs.mapped
  · have hnew := hfree execF time drawn rfl
    have hne : ∀ reg ∈ regs, reg.id ≠ drawn := by
      rintro reg hreg rfl
      rw [hs.mapped reg hreg] at hnew
      cases hnew
    apply identified_of_mapped
    · simp only [record, List.map_append, List.map_singleton]
      apply List.Nodup.append hs.distinct (List.nodup_singleton _)
      simpa using hne
    · intro reg hreg
      rw [hitems]
      rcases List.mem_append.mp hreg with hold | hadd
      · exact KeyedMap.emplace_of_eq_some (hs.mapped reg hold)
      · obtain rfl := List.mem_singleton.mp hadd
        exact KeyedMap.emplace_self_of_eq_none hnew
  · apply identified_of_mapped
    · exact hs.distinct.sublist (List.filter_sublist.map _)
    · intro reg hreg
      obtain ⟨hold, hid⟩ := List.mem_filter.mp hreg
      rw [hitems]
      exact KeyedMap.erase_eq_some_iff.mpr ⟨of_decide_eq_true hid, hs.mapped reg hold⟩

lemma identified_of_run (hrun : Run ExecStep s tr t) (hfree : ∀ p ∈ tr, DrawnFree p)
    (hs : Identified regs s) : Identified (tr.foldl record regs) t := by
  induction hrun generalizing regs with
  | nil s => exact hs
  | cons hstep _ ih =>
    obtain ⟨hfirst, hrest⟩ := List.forall_mem_cons.mp hfree
    exact ih hrest (hstep.identified hfirst hs)

/-- Whatever is drawn, an entry of the table goes by the id of an active task. -/
lemma ExecStep.covered (h : ExecStep s e s')
    (hs : ∀ id, (s.cycleItems id).isSome → ∃ reg ∈ regs, reg.id = id) :
    ∀ id, (s'.cycleItems id).isSome → ∃ reg ∈ record regs (s, e), reg.id = id := by
  intro id hid
  obtain ⟨item, hitem⟩ := Option.isSome_iff_exists.mp hid
  rcases h.record_cases regs with ⟨hsame, hitems⟩ | ⟨execF, time, drawn, rfl, hitems⟩ |
    ⟨id', rfl, hitems⟩
  · rw [hsame]
    exact hs id (hitems ▸ hid)
  · rw [hitems] at hitem
    rcases KeyedMap.emplace_eq_some_cases hitem with hold | ⟨-, rfl, -⟩
    · obtain ⟨reg, hreg, hsame⟩ := hs id (Option.isSome_of_eq_some hold)
      exact ⟨reg, List.mem_append_left _ hreg, hsame⟩
    · exact ⟨_, List.mem_append_right _ (List.mem_singleton_self _), rfl⟩
  · rw [hitems] at hitem
    obtain ⟨hne, hold⟩ := KeyedMap.erase_eq_some_iff.mp hitem
    obtain ⟨reg, hreg, rfl⟩ := hs id (Option.isSome_of_eq_some hold)
    exact ⟨reg, List.mem_filter.mpr ⟨hreg, decide_eq_true hne⟩, rfl⟩

lemma covered_of_run (hrun : Run ExecStep s tr t)
    (hs : ∀ id, (s.cycleItems id).isSome → ∃ reg ∈ regs, reg.id = id) :
    ∀ id, (t.cycleItems id).isSome → ∃ reg ∈ tr.foldl record regs, reg.id = id := by
  induction hrun generalizing regs with
  | nil s => exact hs
  | cons hstep _ ih => exact ih (hstep.covered hs)

omit [DecidableEq W] in
lemma identified_init (now : ℤ) : Identified [] (init now : CExecutor F W) :=
  identified_of_mapped List.nodup_nil (List.forall_mem_nil _)

/-- In every state that a run goes through, ids tell the active tasks apart just when every
registration in the run has drawn an id that was not in the table. -/
theorem identified_iff {now : ℤ} (hrun : Run ExecStep (init now) tr t) :
    (∀ tr₁ s tr₂, tr = tr₁ ++ tr₂ → Run ExecStep (init now) tr₁ s → Run ExecStep s tr₂ t →
      Identified (active tr₁) s) ↔ ∀ p ∈ tr, DrawnFree p := by
  constructor
  · rintro h ⟨s, e⟩ hp execF time drawn rfl
    obtain ⟨tr₁, tr₂, rfl⟩ := List.append_of_mem hp
    obtain ⟨hbefore, s', hstep, hafter⟩ := hrun.split_at
    rw [← Option.not_isSome_iff_eq_none]
    intro htaken
    have hempty : ∀ id, ((init now : CExecutor F W).cycleItems id).isSome →
        ∃ reg ∈ ([] : List (Registration F)), reg.id = id := nofun
    obtain ⟨reg, hreg, rfl⟩ := covered_of_run hbefore hempty drawn htaken
    have hthere := h (tr₁ ++ [(s, .executeCyclic execF time reg.id)]) s' tr₂ (by simp)
      (hbefore.append (.single hstep)) hafter
    have hdistinct := hthere.distinct
    rw [active, List.foldl_append, List.foldl_cons, List.foldl_nil] at hdistinct
    simp only [record, List.map_append, List.map_singleton] at hdistinct
    exact (List.nodup_append.mp hdistinct).2.2 reg.id (List.mem_map_of_mem hreg) reg.id
      (List.mem_singleton_self _) rfl
  · rintro hfree tr₁ s tr₂ rfl hbefore -
    exact identified_of_run hbefore (fun p hp => hfree p (List.mem_append_left _ hp))
      (identified_init now)

/-- Two functions under different ids. -/
theorem identified_two :
    ∃ tr t, Run ExecStep (init 0 : CExecutor Bool Unit) tr t ∧
      (active tr).map (·.id) = [7, 9] ∧ Identified (active tr) t := by
  have hfirst := Run.single (ExecStep.executeCyclic (init 0 : CExecutor Bool Unit) false 1000 7)
  have hrun := hfirst.append (.single (.executeCyclic _ true 500 9))
  refine ⟨_, _, hrun, rfl,
    (identified_iff hrun).mpr ?_ _ _ [] (List.append_nil _).symm hrun (.nil _)⟩
  intro p hp execF time drawn he
  rcases List.mem_pair.mp hp with rfl | rfl
  · obtain ⟨-, -, rfl⟩ := ExecEvent.executeCyclic.inj he
    rfl
  · obtain ⟨-, -, rfl⟩ := ExecEvent.executeCyclic.inj he
    rfl

/-- The second registration draws the id of the first one. Both callers hold it, and only the first
function is in the table. -/
theorem not_identified_clash :
    ¬ ∀ (now : ℤ) (tr : List (CExecutor Bool Unit × ExecEvent Bool Unit)) (t : CExecutor Bool Unit),
        Run ExecStep (init now) tr t →
        ∀ tr₁ s tr₂, tr = tr₁ ++ tr₂ → Run ExecStep (init now) tr₁ s → Run ExecStep s tr₂ t →
          Identified (active tr₁) s := by
  intro hclaim
  have hfirst := Run.single (ExecStep.executeCyclic (init 0 : CExecutor Bool Unit) false 1000 7)
  have hrun := hfirst.append (.single (.executeCyclic _ true 500 7))
  have hidentified := hclaim 0 _ _ hrun _ _ [] (List.append_nil _).symm hrun (.nil _)
  exact absurd hidentified.distinct (by decide)

end System
