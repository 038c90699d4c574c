import WirelessBridge.System.Executor

/-!
# Copies of a cyclic function

Every expiry posts the function of a registration anew, for whichever worker is free. The executor
does not look whether an earlier copy still waits, or is being executed.
-/

namespace System

open Lib

variable {F W : Type*}

def Handler.isTask (origin : UInt32 × ℕ) : Handler F → Bool
  | .timeout _ _ => false
  | .task t => t.origin = some origin

/-- How many copies there are in what a step posts, or takes from the queue. -/
def copies (origin : UInt32 × ℕ) (t : Option (Task F)) : ℕ :=
  if t.any (·.origin = some origin) then 1 else 0

/-- The function that a step starts. -/
def started (p : CExecutor F W × ExecEvent F W) : Option (Task F) :=
  match p.2 with
  | .start _ t => some t
  | _ => none

namespace CExecutor

/-- How many copies of the function of a registration wait for a worker. -/
def waiting (origin : UInt32 × ℕ) (s : CExecutor F W) : ℕ := s.queue.countP (·.isTask origin)

/-- The worker is inside the function of the registration. -/
def Executing (origin : UInt32 × ℕ) (s : CExecutor F W) (w : W) : Prop :=
  ∃ t, s.running w = some t ∧ t.origin = some origin

/-- No two workers are inside the function of an active id. -/
def NoOverlap (s : CExecutor F W) : Prop :=
  ∀ id item w w', s.cycleItems id = some item → s.Executing (id, item.timer) w →
    s.Executing (id, item.timer) w' → w = w'

/-- The registration has one copy at most, which waits or is being executed. -/
structure OneCopy (origin : UInt32 × ℕ) (s : CExecutor F W) : Prop where
  waiting_le : s.waiting origin ≤ 1
  apart : ∀ w, s.Executing origin w → s.waiting origin = 0
  alone : ∀ w w', s.Executing origin w → s.Executing origin w' → w = w'

variable {s s' t : CExecutor F W} {origin : UInt32 × ℕ} {id : UInt32}

lemma waiting_pos_iff : 0 < s.waiting origin ↔ ∃ t, .task t ∈ s.queue ∧ t.origin = some origin := by
  rw [waiting, List.countP_pos_iff]
  constructor
  · rintro ⟨h, hmem, horigin⟩
    cases h with
    | timeout aborted id => simp [Handler.isTask] at horigin
    | task t => exact ⟨t, hmem, of_decide_eq_true horigin⟩
  · rintro ⟨t, hmem, horigin⟩
    exact ⟨.task t, hmem, decide_eq_true horigin⟩

@[simp] lemma waiting_post {t : Task F} :
    (s.post t).waiting origin = s.waiting origin + copies origin (some t) := by
  simp [waiting, post, copies, Handler.isTask, List.countP_cons]

@[simp] lemma waiting_cancelWaits (timer : ℕ) :
    (s.cancelWaits timer).waiting origin = s.waiting origin := by
  simp [waiting, cancelWaits, Handler.isTask]

@[simp] lemma waiting_executeCyclic {execF : F} {time : ℤ} :
    (s.executeCyclic execF time id).waiting origin = s.waiting origin := by
  simp only [executeCyclic]
  split_ifs
  · exact waiting_cancelWaits _
  · rfl

@[simp] lemma waiting_stopCyclic : (s.stopCyclic id).waiting origin = s.waiting origin := by
  simp only [stopCyclic]
  split
  · rfl
  · exact waiting_cancelWaits _

lemma waiting_timeoutFunc :
    (s.timeoutFunc id).waiting origin
      = s.waiting origin + copies origin ((s.cycleItems id).map (·.task id)) := by
  simp only [timeoutFunc]
  split
  · rename_i hnone
    simp [hnone, copies]
  · rename_i item hitem
    rw [hitem]
    exact (waiting_cancelWaits item.timer).trans waiting_post

@[simp] lemma running_executeCyclic {execF : F} {time : ℤ} :
    (s.executeCyclic execF time id).running = s.running := by
  simp only [executeCyclic]
  split_ifs <;> rfl

@[simp] lemma running_stopCyclic : (s.stopCyclic id).running = s.running := by
  simp only [stopCyclic]
  split <;> rfl

@[simp] lemma running_timeoutFunc : (s.timeoutFunc id).running = s.running := by
  simp only [timeoutFunc]
  split <;> rfl

end CExecutor

open CExecutor

variable [DecidableEq W] {s s' t : CExecutor F W} {e : ExecEvent F W} {origin : UInt32 × ℕ}
  {id : UInt32} {w : W}
  {tr : List (CExecutor F W × ExecEvent F W)}

/-! ### One step -/

/-- Copies come in when they are posted, and go out when they are started. -/
lemma ExecStep.waiting (h : ExecStep s e s') (origin : UInt32 × ℕ) :
    s'.waiting origin + copies origin (started (s, e))
      = s.waiting origin + copies origin (posted (s, e)) := by
  cases h with
  | advance now hle => rfl
  | execute execF => exact waiting_post
  | executeCyclic execF time drawn => exact waiting_executeCyclic
  | stopCyclic cyclicId => exact waiting_stopCyclic
  | expire hw hdue => simp [CExecutor.waiting, started, posted, Handler.isTask]
  | timeout hfree hq =>
    have htaken : ∀ aborted id l₁ l₂, s.queue = l₁ ++ .timeout aborted id :: l₂ →
        ({ s with queue := l₁ ++ l₂ } : CExecutor F W).waiting origin = s.waiting origin := by
      intro aborted id l₁ l₂ hq
      simp [CExecutor.waiting, hq, Handler.isTask]
    rw [waiting_timeoutFunc, htaken _ _ _ _ hq]
    rfl
  | start hfree hq =>
    simp [CExecutor.waiting, started, posted, copies, hq, Handler.isTask, List.countP_cons,
      Nat.add_assoc]
  | finish thrown hrun => rfl

/-- A worker is inside a function that it was inside before, or has just started. -/
lemma ExecStep.executing (h : ExecStep s e s') (hw : s'.Executing origin w) :
    s.Executing origin w ∨ ∃ t, e = .start w t ∧ t.origin = some origin := by
  obtain ⟨t, hrunning, horigin⟩ := hw
  cases h with
  | advance | execute | expire => exact .inl ⟨t, hrunning, horigin⟩
  | executeCyclic execF time drawn => exact .inl ⟨t, by simpa using hrunning, horigin⟩
  | stopCyclic cyclicId => exact .inl ⟨t, by simpa using hrunning, horigin⟩
  | timeout hfree hq => exact .inl ⟨t, by simpa using hrunning, horigin⟩
  | @start w' t' _ _ hfree hq =>
    by_cases hw : w = w'
    · subst hw
      obtain rfl : t' = t := by simpa using hrunning
      exact .inr ⟨t', rfl, horigin⟩
    · exact .inl ⟨t, by simpa [hw] using hrunning, horigin⟩
  | @finish w' _ thrown hrun =>
    by_cases hw : w = w'
    · subst hw
      simp at hrunning
    · exact .inl ⟨t, by simpa [hw] using hrunning, horigin⟩

/-- The handler of a timer finds no copy of the function it posts: none waits, and no worker is
inside one. -/
def FindsNoCopy (p : CExecutor F W × ExecEvent F W) : Prop :=
  ∀ w aborted id item, p.2 = .timeout w aborted id → p.1.cycleItems id = some item →
    ∀ t, p.1.Pending t → t.origin ≠ some (id, item.timer)

lemma copies_pos_iff {t : Option (Task F)} :
    0 < copies origin t ↔ ∃ t', t = some t' ∧ t'.origin = some origin := by
  cases t with
  | none => simp [copies]
  | some t =>
    rw [copies]
    split_ifs with h
    · simpa using h
    · simpa using h

lemma copies_le_one (origin : UInt32 × ℕ) (t : Option (Task F)) : copies origin t ≤ 1 := by
  rw [copies]
  split_ifs <;> simp

omit [DecidableEq W] in
/-- What is posted for a registration is posted by the handler of its timer. -/
lemma FindsNoCopy.of_posted (hfresh : FindsNoCopy (s, e)) {t : Task F}
    (hposted : posted (s, e) = some t) (horigin : t.origin = some origin) :
    started (s, e) = none ∧ s.waiting origin = 0 ∧ ∀ w, ¬ s.Executing origin w := by
  cases e with
  | timeout w aborted id =>
    simp only [posted, Option.map_eq_some_iff] at hposted
    obtain ⟨item, hitem, rfl⟩ := hposted
    obtain rfl : (id, item.timer) = origin := Option.some.inj horigin
    have hnone := hfresh w aborted id item rfl hitem
    refine ⟨rfl, ?_, ?_⟩
    · by_contra hpos
      obtain ⟨t, hmem, ht⟩ := waiting_pos_iff.mp (Nat.pos_of_ne_zero hpos)
      exact hnone t (.inl hmem) ht
    · rintro w' ⟨t, hrunning, ht⟩
      exact hnone t (.inr ⟨w', hrunning⟩) ht
  | execute execF =>
    obtain rfl := Option.some.inj hposted
    simp at horigin
  | advance | executeCyclic | stopCyclic | expire | start | finish => simp [posted] at hposted

/-- The copy of a step that posts one is the only one: the handler has found none. -/
lemma ExecStep.oneCopy_of_posted (h : ExecStep s e s') (hfresh : FindsNoCopy (s, e))
    (hposted : 0 < copies origin (posted (s, e))) : s'.OneCopy origin := by
  obtain ⟨t, hpost, horigin⟩ := copies_pos_iff.mp hposted
  obtain ⟨hstarted, hnone, hidle⟩ := hfresh.of_posted hpost horigin
  have hidle' : ∀ w, ¬ s'.Executing origin w := by
    intro w hw
    rcases h.executing hw with hold | ⟨t, rfl, -⟩
    · exact hidle w hold
    · cases hstarted
  constructor
  · calc s'.waiting origin
        ≤ s'.waiting origin + copies origin (started (s, e)) := Nat.le_add_right _ _
      _ = s.waiting origin + copies origin (posted (s, e)) := h.waiting origin
      _ ≤ 1 := by
        rw [hnone, Nat.zero_add]
        exact copies_le_one origin _
  · intro w hw
    exact absurd hw (hidle' w)
  · intro w w' hw
    exact absurd hw (hidle' w)

/-- A step that posts no copy may let the one that waits be started. -/
lemma ExecStep.oneCopy_of_not_posted (h : ExecStep s e s')
    (hposted : copies origin (posted (s, e)) = 0) (hs : s.OneCopy origin) : s'.OneCopy origin := by
  have hwaiting := h.waiting origin
  rw [hposted, Nat.add_zero] at hwaiting
  have hstart : ∀ w t, e = .start w t → t.origin = some origin →
      s'.waiting origin + 1 = s.waiting origin := by
    rintro w t rfl horigin
    rw [← hwaiting]
    simp [copies, started, horigin]
  constructor
  · calc s'.waiting origin ≤ s.waiting origin := hwaiting ▸ Nat.le_add_right _ _
      _ ≤ 1 := hs.waiting_le
  · intro w hw
    rcases h.executing hw with hold | ⟨t, he, horigin⟩
    · have := hs.apart w hold
      omega
    · have := hstart w t he horigin
      have := hs.waiting_le
      omega
  · intro w w' hw hw'
    rcases h.executing hw with hold | ⟨t, he, horigin⟩
    · rcases h.executing hw' with hold' | ⟨t', he', horigin'⟩
      · exact hs.alone w w' hold hold'
      · have := hstart w' t' he' horigin'
        have := hs.apart w hold
        omega
    · rcases h.executing hw' with hold' | ⟨t', he', horigin'⟩
      · have := hstart w t he horigin
        have := hs.apart w' hold'
        omega
      · rw [he] at he'
        cases he'
        rfl

lemma ExecStep.oneCopy (h : ExecStep s e s') (hfresh : FindsNoCopy (s, e)) (hs : s.OneCopy origin) :
    s'.OneCopy origin := by
  rcases Nat.eq_zero_or_pos (copies origin (posted (s, e))) with hzero | hpos
  · exact h.oneCopy_of_not_posted hzero hs
  · exact h.oneCopy_of_posted hfresh hpos

/-! ### Runs -/

omit [DecidableEq W] in
lemma oneCopy_init (now : ℤ) : (init now : CExecutor F W).OneCopy origin := by
  constructor
  · exact Nat.zero_le _
  · rintro w ⟨t, hrunning, -⟩
    cases hrunning
  · rintro w w' ⟨t, hrunning, -⟩
    cases hrunning

lemma oneCopy {now : ℤ} (hrun : Run ExecStep (init now) tr s) (hfresh : ∀ p ∈ tr, FindsNoCopy p) :
    s.OneCopy origin := by
  apply hrun.preserves _ (oneCopy_init now)
  intro a e b hmem ha hstep
  exact hstep.oneCopy (hfresh _ hmem) ha

/-- A cyclic function never overlaps itself if there is one worker, or if its timer only fires when
the copy before has come to its end. -/
theorem no_overlap {now : ℤ} (hrun : Run ExecStep (init now) tr s)
    (hcond : Subsingleton W ∨ ∀ p ∈ tr, FindsNoCopy p) : s.NoOverlap := by
  intro id item w w' hitem hw hw'
  rcases hcond with hone | hfresh
  · exact Subsingleton.elim w w'
  · exact (oneCopy hrun hfresh).alone w w' hw hw'

/-- A function whose copy is executed before the timer fires again. -/
theorem no_overlap_first :
    ∃ tr s, Run ExecStep (init 0 : CExecutor Unit Bool) tr s ∧ s.Executing (7, 0) true ∧
      s.NoOverlap := by
  have h₁ := Run.single (ExecStep.executeCyclic (init 0 : CExecutor Unit Bool) () 10 7)
  have h₂ := h₁.append (.single (.advance 10 (by decide)))
  have h₃ := h₂.append (.single (.expire (rfl : _ = [] ++ _ :: _) (by decide)))
  have h₄ := h₃.append (.single (.timeout (w := true) rfl (rfl : _ = [] ++ _ :: _)))
  have h₅ := h₄.append (.single (.start (w := true) rfl (rfl : _ = [] ++ _ :: _)))
  refine ⟨_, _, h₅, ⟨_, rfl, rfl⟩, no_overlap h₅ (.inr ?_)⟩
  simp only [List.cons_append, List.nil_append, List.forall_mem_cons]
  refine ⟨?_, ?_, ?_, ?_, ?_, nofun⟩
  · rintro w aborted id item ⟨⟩
  · rintro w aborted id item ⟨⟩
  · rintro w aborted id item ⟨⟩
  · rintro w aborted id item ⟨⟩ - t (hmem | ⟨w', hrunning⟩)
    · have hnone : Handler.task t ∈ [.timeout false 7] := hmem
      simp at hnone
    · cases hrunning
  · rintro w aborted id item ⟨⟩

/-- The timer has fired twice before a worker comes to the first copy. -/
theorem not_no_overlap :
    ¬ ∀ (F W : Type) (_ : DecidableEq W) (now : ℤ)
        (tr : List (CExecutor F W × ExecEvent F W)) (s : CExecutor F W),
        Run ExecStep (init now) tr s → s.NoOverlap := by
  intro hclaim
  have h₁ := Run.single (ExecStep.executeCyclic (init 0 : CExecutor Unit Bool) () 10 7)
  have h₂ := h₁.append (.single (.advance 20 (by decide)))
  have h₃ := h₂.append (.single (.expire (rfl : _ = [] ++ _ :: _) (by decide)))
  have h₄ := h₃.append (.single (.timeout (w := true) rfl (rfl : _ = [] ++ _ :: _)))
  have h₅ := h₄.append (.single (.expire (rfl : _ = [] ++ _ :: _) (by decide)))
  have h₆ := h₅.append (.single (.timeout (w := true) rfl (rfl : _ = [_] ++ _ :: _)))
  have h₇ := h₆.append (.single (.start (w := true) rfl (rfl : _ = [] ++ _ :: _)))
  have h₈ := h₇.append (.single (.start (w := false) rfl (rfl : _ = [] ++ _ :: _)))
  have hno := hclaim Unit Bool _ 0 _ _ h₈
  have := hno 7 ⟨0, 10, ()⟩ true false rfl ⟨_, rfl, rfl⟩ ⟨_, rfl, rfl⟩
  exact absurd this (by decide)

/-! ### A copy too many -/

lemma exists_start_copy (w : W) (hpos : 0 < s.waiting origin) :
    ∃ tr s', Run ExecStep s tr s' ∧ s'.cycleItems = s.cycleItems ∧
      s'.waiting origin + 1 = s.waiting origin ∧ s'.Executing origin w ∧
      ∀ w', w' ≠ w → s'.running w' = s.running w' := by
  obtain ⟨t, hmem, horigin⟩ := waiting_pos_iff.mp hpos
  obtain ⟨l₁, l₂, hq⟩ := List.append_of_mem hmem
  obtain ⟨tr, s', hrun, hqueue, hitems, hrunning⟩ := exists_start w hq
  refine ⟨tr, s', hrun, hitems, ?_, ⟨t, ?_, horigin⟩, ?_⟩
  · simp [waiting, hq, hqueue, Handler.isTask, horigin, Nat.add_assoc]
  · rw [hrunning]
    exact Function.update_self w _ _
  · intro w' hne
    rw [hrunning]
    exact Function.update_of_ne hne _ _

/-- Two workers can start two copies that wait. -/
lemma overlap_of_two_waiting {item : TimerData F} (hitem : s.cycleItems id = some item)
    (htwo : 1 < s.waiting (id, item.timer)) {w w' : W} (hne : w ≠ w') :
    ∃ tr t, Run ExecStep s tr t ∧ ¬ t.NoOverlap := by
  obtain ⟨tr, t, hrun, hitems, hwaiting, ⟨task, hrunning, horigin⟩, -⟩ :=
    exists_start_copy w (Nat.zero_lt_of_lt htwo)
  have hone : 0 < t.waiting (id, item.timer) := by omega
  obtain ⟨tr', t', hrun', hitems', -, hexec', hothers⟩ := exists_start_copy w' hone
  refine ⟨tr ++ tr', t', hrun.append hrun', ?_⟩
  intro hno
  rw [← hothers w hne] at hrunning
  have hactive : t'.cycleItems id = some item := by rw [hitems', hitems, hitem]
  exact hne (hno id item w w' hactive ⟨task, hrunning, horigin⟩ hexec')

/-- One worker is inside the function, and another can start a copy that waits. -/
lemma overlap_of_executing {item : TimerData F} (hitem : s.cycleItems id = some item)
    (hwait : 0 < s.waiting (id, item.timer)) {w w' : W} (hw : s.Executing (id, item.timer) w)
    (hne : w ≠ w') : ∃ tr t, Run ExecStep s tr t ∧ ¬ t.NoOverlap := by
  obtain ⟨task, hrunning, horigin⟩ := hw
  obtain ⟨tr, t, hrun, hitems, -, hexec, hothers⟩ := exists_start_copy w' hwait
  refine ⟨tr, t, hrun, ?_⟩
  intro hno
  rw [← hothers w hne] at hrunning
  have hactive : t.cycleItems id = some item := by rw [hitems, hitem]
  exact hne (hno id item w w' hactive ⟨task, hrunning, horigin⟩ hexec)

/-- With a second worker the condition is needed: after a handler that found a copy, the workers can
go on in such a way that the function overlaps itself. -/
theorem overlap_reachable [Nontrivial W] (h : ExecStep s e s') (hfound : ¬ FindsNoCopy (s, e)) :
    ∃ tr t, Run ExecStep s' tr t ∧ ¬ t.NoOverlap := by
  simp only [FindsNoCopy, not_forall, not_not] at hfound
  obtain ⟨w, aborted, id, item, rfl, hitem, task, hpending, horigin⟩ := hfound
  have hitem' : s'.cycleItems id = some item := by
    cases h
    rw [cycleItems_timeoutFunc]
    exact hitem
  have hwaiting : s'.waiting (id, item.timer) = s.waiting (id, item.timer) + 1 := by
    have := h.waiting (id, item.timer)
    simpa [started, posted, hitem, copies, TimerData.task] using this
  rcases hpending with hmem | ⟨w, hrunning⟩
  · obtain ⟨w, w', hne⟩ := exists_pair_ne W
    have hold : 0 < s.waiting (id, item.timer) := waiting_pos_iff.mpr ⟨task, hmem, horigin⟩
    exact overlap_of_two_waiting hitem' (by omega) hne
  · obtain ⟨w', hne⟩ := exists_ne w
    have hrunning' : s'.running w = some task := by
      cases h
      rw [running_timeoutFunc]
      exact hrunning
    exact overlap_of_executing hitem' (by omega) ⟨task, hrunning', horigin⟩ hne.symm

end System
