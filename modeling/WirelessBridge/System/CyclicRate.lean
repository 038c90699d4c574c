import WirelessBridge.System.Executor
import Mathlib.Tactic.Linarith

/-!
# The rate of a cyclic function

The handler of a timer ignores its error code, and moves the expiry, which aborts whatever waits on
the timer. What keeps this from feeding on itself is that an active id never has more than one wait
or completion. With it, a function is posted only when its timer was due, and each time the timer is
set one period further.
-/

namespace System

open Lib

variable {F W : Type*}

def Handler.isTimeout (id : UInt32) : Handler F → Bool
  | .timeout _ i => i = id
  | .task _ => false

namespace CExecutor

/-- The waits for an id, and its completions that no worker has run yet. -/
def inFlight (id : UInt32) (s : CExecutor F W) : ℕ :=
  s.waits.countP (·.2 = id) + s.queue.countP (·.isTimeout id)

/-- Each active id has a timer of its own, with one wait on it or one completion of it, which was
due and is no abort; and nobody else waits. -/
structure Armed (s : CExecutor F W) : Prop where
  keyed : ∀ p ∈ s.waits, ∃ item, s.cycleItems p.2 = some item ∧ item.timer = p.1
  distinct : ∀ id id' item item', s.cycleItems id = some item → s.cycleItems id' = some item' →
    item.timer = item'.timer → id = id'
  numbered : ∀ id item, s.cycleItems id = some item → item.timer < s.timersMade
  one : ∀ id item, s.cycleItems id = some item → s.inFlight id = 1
  notAborted : ∀ id item, s.cycleItems id = some item → .timeout true id ∉ s.queue
  due : ∀ id item, s.cycleItems id = some item → .timeout false id ∈ s.queue →
    s.expiresAt item.timer ≤ s.now

variable {s s' : CExecutor F W} {id : UInt32} {item : TimerData F} {aborted : Bool}
  {l₁ l₂ : List (Handler F)}

lemma armed_init (now : ℤ) : (init now : CExecutor F W).Armed where
  keyed := nofun
  distinct := nofun
  numbered := nofun
  one := nofun
  notAborted := nofun
  due := nofun

/-! ### Waits of an active id -/

lemma Armed.timer_eq_iff (hs : s.Armed) (hitem : s.cycleItems id = some item) {p : ℕ × UInt32}
    (hp : p ∈ s.waits) : p.1 = item.timer ↔ p.2 = id := by
  obtain ⟨item', hitem', htimer⟩ := hs.keyed p hp
  constructor
  · intro h
    exact hs.distinct _ _ _ _ hitem' hitem (htimer.trans h)
  · rintro rfl
    obtain rfl := Option.some.inj (hitem'.symm.trans hitem)
    exact htimer.symm

lemma not_isTimeout_of_notMem (h : ∀ aborted, .timeout aborted id ∉ s.queue) :
    s.queue.countP (·.isTimeout id) = 0 := by
  rw [List.countP_eq_zero]
  intro a ha
  cases a with
  | timeout aborted i =>
    have hne : i ≠ id := fun hi => h aborted (hi ▸ ha)
    simpa [Handler.isTimeout] using hne
  | task t => simp [Handler.isTimeout]

/-- When its completion has been taken from the queue, an active id has nothing else in flight. -/
lemma Armed.quiet_of_taken (hs : s.Armed) (hitem : s.cycleItems id = some item)
    (hq : s.queue = l₁ ++ .timeout aborted id :: l₂) :
    (∀ p ∈ s.waits, p.2 ≠ id) ∧ (l₁ ++ l₂).countP (·.isTimeout id) = 0 := by
  have hone := hs.one id item hitem
  rw [inFlight, hq, List.countP_append, List.countP_cons_of_pos (by simp [Handler.isTimeout])] at hone
  constructor
  · have hzero : s.waits.countP (·.2 = id) = 0 := by omega
    simpa using List.countP_eq_zero.mp hzero
  · rw [List.countP_append]
    omega

/-- The completion of an active id is no abort, so its timer was due. -/
lemma Armed.due_of_completion (hs : s.Armed) (hitem : s.cycleItems id = some item)
    (hmem : .timeout aborted id ∈ s.queue) : s.expiresAt item.timer ≤ s.now := by
  cases aborted with
  | true => exact absurd hmem (hs.notAborted id item hitem)
  | false => exact hs.due id item hitem hmem

lemma timeoutFunc_of_none (hitem : s.cycleItems id = none) : s.timeoutFunc id = s := by
  simp [timeoutFunc, hitem]

lemma timeoutFunc_eq (hitem : s.cycleItems id = some item)
    (hwaits : ∀ p ∈ s.waits, p.1 ≠ item.timer) :
    s.timeoutFunc id = { s with
      queue := s.queue ++ [.task (item.task id)]
      expiresAt := Function.update s.expiresAt item.timer
        (s.expiresAt item.timer + item.timeoutMs)
      waits := s.waits ++ [(item.timer, id)] } := by
  have hkeep : s.waits.filter (·.1 ≠ item.timer) = s.waits := by
    simpa [List.filter_eq_self] using hwaits
  have hdrop : s.waits.filter (·.1 = item.timer) = [] := by
    simpa [List.filter_eq_nil_iff] using hwaits
  simp only [timeoutFunc, hitem, moveExpiry, cancelWaits, post, asyncWait, hkeep, hdrop,
    List.map_nil, List.append_nil]

/-! ### What each operation keeps -/

/-- Other entries of the queue come and go. -/
lemma Armed.of_queue (hs : s.Armed) {queue : List (Handler F)} (running : W → Option (Task F))
    (hcount : ∀ id item, s.cycleItems id = some item →
      queue.countP (·.isTimeout id) = s.queue.countP (·.isTimeout id))
    (hmem : ∀ aborted id, .timeout aborted id ∈ queue → .timeout aborted id ∈ s.queue) :
    ({ s with queue := queue, running := running } : CExecutor F W).Armed where
  keyed := hs.keyed
  distinct := hs.distinct
  numbered := hs.numbered
  one := by
    intro id item hitem
    have hone := hs.one id item hitem
    rwa [inFlight, ← hcount id item hitem] at hone
  notAborted := fun id item hitem h => hs.notAborted id item hitem (hmem true id h)
  due := fun id item hitem h => hs.due id item hitem (hmem false id h)

lemma Armed.advance (hs : s.Armed) {now : ℤ} (h : s.now ≤ now) :
    ({ s with now := now } : CExecutor F W).Armed :=
  { keyed := hs.keyed, distinct := hs.distinct, numbered := hs.numbered, one := hs.one,
    notAborted := hs.notAborted
    due := fun id item hitem hmem => (hs.due id item hitem hmem).trans h }

lemma Armed.execute (hs : s.Armed) (execF : F) : (s.execute execF).Armed := by
  apply hs.of_queue s.running
  · intro id item _
    simp [Handler.isTimeout]
  · intro aborted id hmem
    simpa using hmem

lemma Armed.start (hs : s.Armed) {t : Task F} (hq : s.queue = l₁ ++ .task t :: l₂)
    (running : W → Option (Task F)) :
    ({ s with queue := l₁ ++ l₂, running := running } : CExecutor F W).Armed := by
  apply hs.of_queue running
  · intro id item _
    simp [hq, Handler.isTimeout]
  · intro aborted id hmem
    simpa [hq] using hmem

/-- A wait on a timer completes. -/
lemma Armed.expire (hs : s.Armed) {timer : ℕ} {k₁ k₂ : List (ℕ × UInt32)}
    (hw : s.waits = k₁ ++ (timer, id) :: k₂) (hdue : s.expiresAt timer ≤ s.now) :
    ({ s with waits := k₁ ++ k₂, queue := s.queue ++ [.timeout false id] } :
      CExecutor F W).Armed where
  keyed := by
    intro p hp
    exact hs.keyed p (mem_of_taken hw hp)
  distinct := hs.distinct
  numbered := hs.numbered
  one := by
    intro id' item' hitem'
    have hone := hs.one id' item' hitem'
    rw [inFlight, hw] at hone
    by_cases hid : id = id' <;> simp [inFlight, Handler.isTimeout, hid] at hone ⊢ <;> omega
  notAborted := by
    intro id' item' hitem' hmem
    exact hs.notAborted id' item' hitem' (by simpa using hmem)
  due := by
    intro id' item' hitem' hmem
    rcases List.mem_append.mp hmem with hold | hnew
    · exact hs.due id' item' hitem' hold
    · obtain ⟨-, rfl⟩ := Handler.timeout.inj (List.mem_singleton.mp hnew)
      have htimer : timer = item'.timer :=
        (hs.timer_eq_iff hitem' (p := (timer, id')) (by simp [hw])).mpr rfl
      exact htimer ▸ hdue

/-- A registration under an id that is neither in the table nor in flight. -/
lemma Armed.executeCyclic (hs : s.Armed) (execF : F) (time : ℤ)
    (hnew : s.cycleItems id = none) (hflight : ∀ aborted, .timeout aborted id ∉ s.queue) :
    (s.executeCyclic execF time id).Armed := by
  have hadded : (s.executeCyclic execF time id) = { s with
      timersMade := s.timersMade + 1
      expiresAt := Function.update s.expiresAt s.timersMade (s.now + time)
      cycleItems := s.cycleItems.emplace id ⟨s.timersMade, time, execF⟩
      waits := s.waits ++ [(s.timersMade, id)] } := by
    simp [CExecutor.executeCyclic, hnew, asyncWait]
  rw [hadded]
  have hitems : ∀ id' item, s.cycleItems.emplace id ⟨s.timersMade, time, execF⟩ id' = some item →
      (id' = id ∧ item = ⟨s.timersMade, time, execF⟩) ∨
        (id' ≠ id ∧ s.cycleItems id' = some item) := by
    intro id' item hitem
    rcases KeyedMap.emplace_eq_some_cases hitem with hold | ⟨-, hid, hitem⟩
    · right
      refine ⟨?_, hold⟩
      rintro rfl
      simp [hnew] at hold
    · exact .inl ⟨hid, hitem⟩
  constructor
  · intro p hp
    rcases List.mem_append.mp hp with hold | hadd
    · obtain ⟨item, hitem, htimer⟩ := hs.keyed p hold
      exact ⟨item, KeyedMap.emplace_of_eq_some hitem, htimer⟩
    · obtain rfl := List.mem_singleton.mp hadd
      exact ⟨_, KeyedMap.emplace_self_of_eq_none hnew, rfl⟩
  · intro id₁ id₂ item₁ item₂ h₁ h₂ htimer
    rcases hitems id₁ item₁ h₁ with ⟨rfl, rfl⟩ | ⟨-, hold₁⟩ <;>
      rcases hitems id₂ item₂ h₂ with ⟨rfl, rfl⟩ | ⟨-, hold₂⟩
    · rfl
    · exact absurd htimer (hs.numbered _ _ hold₂).ne'
    · exact absurd htimer (hs.numbered _ _ hold₁).ne
    · exact hs.distinct _ _ _ _ hold₁ hold₂ htimer
  · intro id' item hitem
    rcases hitems id' item hitem with ⟨rfl, rfl⟩ | ⟨-, hold⟩
    · exact Nat.lt_succ_self _
    · exact Nat.lt_succ_of_lt (hs.numbered _ _ hold)
  · intro id' item hitem
    rcases hitems id' item hitem with ⟨rfl, rfl⟩ | ⟨hne, hold⟩
    · -- Nothing waits under the new id, since it has no entry, and nothing is in flight.
      have hwaits : s.waits.countP (·.2 = id') = 0 := by
        rw [List.countP_eq_zero]
        intro p hp h
        obtain ⟨item, hitem, -⟩ := hs.keyed p hp
        rw [of_decide_eq_true h, hnew] at hitem
        cases hitem
      simp [inFlight, hwaits, not_isTimeout_of_notMem hflight]
    · have hone := hs.one id' item hold
      simpa [inFlight, Ne.symm hne] using hone
  · intro id' item hitem
    rcases hitems id' item hitem with ⟨rfl, rfl⟩ | ⟨-, hold⟩
    · exact hflight true
    · exact hs.notAborted id' item hold
  · intro id' item hitem hmem
    rcases hitems id' item hitem with ⟨rfl, rfl⟩ | ⟨-, hold⟩
    · exact absurd hmem (hflight false)
    · have hne : item.timer ≠ s.timersMade := (hs.numbered _ _ hold).ne
      simpa [hne] using hs.due id' item hold hmem

/-- The wait of the removed entry is aborted; it was the only one on its timer. -/
lemma Armed.stopCyclic (hs : s.Armed) (cyclicId : UInt32) : (s.stopCyclic cyclicId).Armed := by
  simp only [CExecutor.stopCyclic]
  split
  · exact hs
  · rename_i item hitem
    have haborted : ∀ id' aborted, id' ≠ cyclicId → .timeout aborted id' ∈
        s.queue ++ (s.waits.filter (·.1 = item.timer)).map (fun p => Handler.timeout true p.2) →
        .timeout aborted id' ∈ s.queue := by
      intro id' aborted hne hmem
      rcases List.mem_append.mp hmem with hold | hnew
      · exact hold
      · obtain ⟨p, hp, heq⟩ := List.mem_map.mp hnew
        obtain ⟨-, rfl⟩ := Handler.timeout.inj heq
        obtain ⟨hp, htimer⟩ := List.mem_filter.mp hp
        exact absurd ((hs.timer_eq_iff hitem hp).mp (of_decide_eq_true htimer)) hne
    constructor
    · intro p hp
      obtain ⟨hp, htimer⟩ := List.mem_filter.mp hp
      obtain ⟨item', hitem', heq⟩ := hs.keyed p hp
      have hne : p.2 ≠ cyclicId :=
        fun h => of_decide_eq_true htimer ((hs.timer_eq_iff hitem hp).mpr h)
      exact ⟨item', KeyedMap.erase_eq_some_iff.mpr ⟨hne, hitem'⟩, heq⟩
    · intro id₁ id₂ item₁ item₂ h₁ h₂
      exact hs.distinct _ _ _ _ (KeyedMap.erase_eq_some_iff.mp h₁).2
        (KeyedMap.erase_eq_some_iff.mp h₂).2
    · intro id' item' hitem'
      exact hs.numbered _ _ (KeyedMap.erase_eq_some_iff.mp hitem').2
    · intro id' item' hitem'
      obtain ⟨hne, hold⟩ := KeyedMap.erase_eq_some_iff.mp hitem'
      have hkept : (s.waits.filter (·.1 ≠ item.timer)).countP (·.2 = id')
          = s.waits.countP (·.2 = id') := by
        rw [List.countP_filter]
        apply List.countP_congr
        intro p hp
        have hiff := hs.timer_eq_iff hitem hp
        simp only [Bool.and_eq_true, decide_eq_true_eq, and_iff_left_iff_imp]
        intro hid htimer
        exact hne (hid.symm.trans (hiff.mp htimer))
      have hadded : ((s.waits.filter (·.1 = item.timer)).map
          fun p => Handler.timeout (F := F) true p.2).countP (·.isTimeout id') = 0 := by
        rw [List.countP_eq_zero]
        intro a ha h
        obtain ⟨p, hp, rfl⟩ := List.mem_map.mp ha
        obtain ⟨hp, htimer⟩ := List.mem_filter.mp hp
        have hid := (hs.timer_eq_iff hitem hp).mp (of_decide_eq_true htimer)
        exact hne ((of_decide_eq_true h).symm.trans hid)
      have hone := hs.one id' item' hold
      simp only [inFlight, cancelWaits, List.countP_append] at hone ⊢
      rw [hkept, hadded]
      omega
    · intro id' item' hitem' hmem
      obtain ⟨hne, hold⟩ := KeyedMap.erase_eq_some_iff.mp hitem'
      exact hs.notAborted id' item' hold (haborted id' true hne hmem)
    · intro id' item' hitem' hmem
      obtain ⟨hne, hold⟩ := KeyedMap.erase_eq_some_iff.mp hitem'
      exact hs.due id' item' hold (haborted id' false hne hmem)

/-- The handler of a timer. Its own completion was all that was in flight for the id, so moving the
expiry aborts nothing. -/
lemma Armed.timeout (hs : s.Armed) (hq : s.queue = l₁ ++ .timeout aborted id :: l₂) :
    (timeoutFunc id { s with queue := l₁ ++ l₂ }).Armed := by
  have hmem : ∀ a id', .timeout a id' ∈ l₁ ++ l₂ → .timeout a id' ∈ s.queue := by
    intro a id' h
    exact mem_of_taken hq h
  cases hitem : s.cycleItems id with
  | none =>
    rw [timeoutFunc_of_none (s := { s with queue := l₁ ++ l₂ }) hitem]
    apply hs.of_queue s.running
    · intro id' item' hitem'
      have hne : id ≠ id' := by
        rintro rfl
        simp [hitem] at hitem'
      simp [hq, Handler.isTimeout, hne]
    · exact hmem
  | some item =>
    obtain ⟨hquiet, hzero⟩ := hs.quiet_of_taken hitem hq
    have hwaits : ∀ p ∈ s.waits, p.1 ≠ item.timer :=
      fun p hp h => hquiet p hp ((hs.timer_eq_iff hitem hp).mp h)
    rw [timeoutFunc_eq (s := { s with queue := l₁ ++ l₂ }) hitem hwaits]
    have hnone : ∀ a, .timeout a id ∉ l₁ ++ l₂ := by
      intro a h
      have := List.countP_eq_zero.mp hzero _ h
      simp [Handler.isTimeout] at this
    constructor
    · intro p hp
      rcases List.mem_append.mp hp with hold | hnew
      · exact hs.keyed p hold
      · obtain rfl := List.mem_singleton.mp hnew
        exact ⟨item, hitem, rfl⟩
    · exact hs.distinct
    · exact hs.numbered
    · intro id' item' hitem'
      by_cases hid : id' = id
      · subst hid
        have hidle : s.waits.countP (·.2 = id') = 0 := by
          rw [List.countP_eq_zero]
          intro p hp h
          exact hquiet p hp (of_decide_eq_true h)
        simp only [inFlight, List.countP_append, hidle] at hzero ⊢
        simp [Handler.isTimeout] at hzero ⊢
        omega
      · have hone := hs.one id' item' hitem'
        rw [inFlight, hq] at hone
        simpa [inFlight, Handler.isTimeout, Ne.symm hid] using hone
    · intro id' item' hitem' h
      exact hs.notAborted id' item' hitem' (hmem true id' (by simpa using h))
    · intro id' item' hitem' h
      have h' : .timeout false id' ∈ l₁ ++ l₂ := by simpa using h
      have hne : id' ≠ id := by
        rintro rfl
        exact hnone false h'
      have htimer : item'.timer ≠ item.timer :=
        fun h => hne (hs.distinct _ _ _ _ hitem' hitem h)
      simpa [htimer] using hs.due id' item' hitem' (hmem false id' h')

@[simp] lemma expiresAt_executeCyclic {execF : F} {time : ℤ} :
    (s.executeCyclic execF time id).expiresAt
      = Function.update s.expiresAt s.timersMade (s.now + time) := by
  simp only [CExecutor.executeCyclic]
  split_ifs <;> rfl

@[simp] lemma now_executeCyclic {execF : F} {time : ℤ} :
    (s.executeCyclic execF time id).now = s.now := by
  simp only [CExecutor.executeCyclic]
  split_ifs <;> rfl

@[simp] lemma expiresAt_stopCyclic : (s.stopCyclic id).expiresAt = s.expiresAt := by
  simp only [CExecutor.stopCyclic]
  split <;> rfl

@[simp] lemma now_stopCyclic : (s.stopCyclic id).now = s.now := by
  simp only [CExecutor.stopCyclic]
  split <;> rfl

@[simp] lemma now_timeoutFunc : (s.timeoutFunc id).now = s.now := by
  simp only [timeoutFunc]
  split <;> rfl

lemma expiresAt_timeoutFunc (hitem : s.cycleItems id = some item) :
    (s.timeoutFunc id).expiresAt
      = Function.update s.expiresAt item.timer (s.expiresAt item.timer + item.timeoutMs) := by
  simp only [timeoutFunc, hitem]
  rfl

end CExecutor

open CExecutor

variable [DecidableEq W] {s s' t : CExecutor F W} {e : ExecEvent F W} {id : UInt32} {timer n : ℕ}
  {t₀ period : ℤ} {tr : List (CExecutor F W × ExecEvent F W)}

/-- What is assumed of a registration: `rand()` draws an id that is neither in the table nor in
flight, and the period is positive. -/
def Drawn (p : CExecutor F W × ExecEvent F W) : Prop :=
  ∀ execF time drawn, p.2 = .executeCyclic execF time drawn →
    p.1.cycleItems drawn = none ∧ (∀ aborted, .timeout aborted drawn ∉ p.1.queue) ∧ 0 < time

lemma ExecStep.armed (h : ExecStep s e s') (hdrawn : Drawn (s, e)) (hs : s.Armed) : s'.Armed := by
  cases h with
  | advance now hle => exact hs.advance hle
  | execute execF => exact hs.execute execF
  | executeCyclic execF time drawn =>
    obtain ⟨hnew, hflight, -⟩ := hdrawn execF time drawn rfl
    exact hs.executeCyclic execF time hnew hflight
  | stopCyclic cyclicId => exact hs.stopCyclic cyclicId
  | expire hw hdue => exact hs.expire hw hdue
  | timeout hfree hq => exact hs.timeout hq
  | start hfree hq => exact hs.start hq _
  | finish thrown hrun => exact hs.of_queue _ (fun _ _ _ => rfl) fun _ _ => id

lemma armed_of_run (hrun : Run ExecStep s tr t) (hdrawn : ∀ p ∈ tr, Drawn p) (hs : s.Armed) :
    t.Armed :=
  hrun.preserves (fun a e _ hmem ha hst => hst.armed (hdrawn (a, e) hmem) ha) hs

/-! ### Postings -/

/-- When the function of a registration was posted; the registration is given by its id and its
timer. -/
def postTimes (origin : UInt32 × ℕ) (tr : List (CExecutor F W × ExecEvent F W)) : List ℤ :=
  tr.filterMap fun p => if (posted p).any (·.origin = some origin) then some p.1.now else none

/-- A registration made at `t₀` that has been posted for `n` times: that many periods are over, and
if it is still active its timer is set one period further. -/
structure OnSchedule (id : UInt32) (timer : ℕ) (t₀ period : ℤ) (n : ℕ) (s : CExecutor F W) :
    Prop where
  made : timer < s.timersMade
  elapsed : t₀ + n * period ≤ s.now
  next : ∀ item, s.cycleItems id = some item → item.timer = timer →
    item.timeoutMs = period ∧ s.expiresAt timer = t₀ + (n + 1) * period

/-- One step posts nothing for the registration, or posts its function when the next period is
over. -/
lemma ExecStep.onSchedule (h : ExecStep s e s') (hs : s.Armed)
    (hsched : OnSchedule id timer t₀ period n s) :
    (postTimes (id, timer) [(s, e)] = [] ∧ OnSchedule id timer t₀ period n s') ∨
    (postTimes (id, timer) [(s, e)] = [s.now] ∧ t₀ + (n + 1) * period ≤ s.now ∧
      OnSchedule id timer t₀ period (n + 1) s') := by
  obtain ⟨hmade, helapsed, hnext⟩ := hsched
  cases h with
  | advance now hle => exact .inl ⟨rfl, hmade, helapsed.trans hle, hnext⟩
  | execute execF => exact .inl ⟨rfl, hmade, helapsed, hnext⟩
  | executeCyclic execF time drawn =>
    left
    refine ⟨rfl, ?_, ?_, ?_⟩
    · rw [timersMade_executeCyclic]
      exact Nat.lt_succ_of_lt hmade
    · rwa [now_executeCyclic]
    · intro item hitem htimer
      have hstep := ExecStep.executeCyclic s execF time drawn
      rcases hstep.cycleItems hitem with hold | ⟨hnew, -⟩
      · rw [expiresAt_executeCyclic, Function.update_of_ne hmade.ne]
        exact hnext item hold htimer
      · exact absurd (htimer.symm.trans hnew) hmade.ne
  | stopCyclic cyclicId =>
    left
    refine ⟨rfl, ?_, ?_, ?_⟩
    · rwa [timersMade_stopCyclic]
    · rwa [now_stopCyclic]
    · intro item hitem htimer
      have hstep := ExecStep.stopCyclic s cyclicId
      rcases hstep.cycleItems hitem with hold | ⟨-, hlt⟩
      · rw [expiresAt_stopCyclic]
        exact hnext item hold htimer
      · rw [timersMade_stopCyclic] at hlt
        exact absurd hlt (lt_irrefl _)
  | expire hw hdue => exact .inl ⟨rfl, hmade, helapsed, hnext⟩
  | @timeout w aborted id' l₁ l₂ hfree hq =>
    cases hitem' : s.cycleItems id' with
    | none =>
      left
      have hnone : postTimes (id, timer) [(s, .timeout w aborted id')] = [] := by
        simp [postTimes, posted, hitem']
      rw [timeoutFunc_of_none (s := { s with queue := l₁ ++ l₂ }) hitem']
      exact ⟨hnone, hmade, helapsed, hnext⟩
    | some item' =>
      have hexpires := expiresAt_timeoutFunc (s := { s with queue := l₁ ++ l₂ }) hitem'
      by_cases horigin : id' = id ∧ item'.timer = timer
      · obtain ⟨rfl, rfl⟩ := horigin
        obtain ⟨hperiod, hset⟩ := hnext item' hitem' rfl
        have hmem : .timeout aborted id' ∈ s.queue := by simp [hq]
        have hdue := hs.due_of_completion hitem' hmem
        rw [hset] at hdue
        right
        refine ⟨?_, hdue, ?_, ?_, ?_⟩
        · simp [postTimes, posted, hitem', TimerData.task]
        · rwa [timersMade_timeoutFunc]
        · rw [now_timeoutFunc]
          push_cast
          exact hdue
        · intro item hitem _
          rw [cycleItems_timeoutFunc] at hitem
          obtain rfl := Option.some.inj (hitem.symm.trans hitem')
          refine ⟨hperiod, ?_⟩
          rw [hexpires, Function.update_self, hperiod]
          push_cast
          linarith
      · left
        refine ⟨?_, ?_, ?_, ?_⟩
        · have hother : ¬ (id' = id ∧ item'.timer = timer) := horigin
          simp [postTimes, posted, hitem', TimerData.task, hother]
        · rwa [timersMade_timeoutFunc]
        · rwa [now_timeoutFunc]
        · intro item hitem htimer
          rw [cycleItems_timeoutFunc] at hitem
          have hne : timer ≠ item'.timer := by
            intro heq
            exact horigin ⟨hs.distinct _ _ _ _ hitem' hitem (heq.symm.trans htimer.symm), heq.symm⟩
          rw [hexpires, Function.update_of_ne hne]
          exact hnext item hitem htimer
  | start hfree hq => exact .inl ⟨rfl, hmade, helapsed, hnext⟩
  | finish thrown hrun => exact .inl ⟨rfl, hmade, helapsed, hnext⟩

omit [DecidableEq W] in
lemma postTimes_cons (origin : UInt32 × ℕ) (p : CExecutor F W × ExecEvent F W)
    (tr : List (CExecutor F W × ExecEvent F W)) :
    postTimes origin (p :: tr) = postTimes origin [p] ++ postTimes origin tr :=
  List.filterMap_append (l := [p])

/-- A whole run, from a state in which the registration has been posted for `n` times. -/
lemma onSchedule_of_run (hrun : Run ExecStep s tr t) (hdrawn : ∀ p ∈ tr, Drawn p) (hs : s.Armed)
    (hsched : OnSchedule id timer t₀ period n s) :
    (∀ k (h : k < (postTimes (id, timer) tr).length),
      t₀ + (n + k + 1) * period ≤ (postTimes (id, timer) tr)[k]) ∧
    OnSchedule id timer t₀ period (n + (postTimes (id, timer) tr).length) t := by
  induction hrun generalizing n with
  | nil s => exact ⟨fun k h => absurd h (Nat.not_lt_zero k), hsched⟩
  | @cons s s' t e tr hstep _ ih =>
    obtain ⟨hfirst, hrest⟩ := List.forall_mem_cons.mp hdrawn
    have hs' := hstep.armed hfirst hs
    simp only [postTimes_cons (id, timer) (s, e) tr]
    rcases hstep.onSchedule hs hsched with ⟨hnone, hsched'⟩ | ⟨hone, hlate, hsched'⟩
    · simp only [hnone, List.nil_append]
      exact ih hrest hs' hsched'
    · obtain ⟨htimes, hend⟩ := ih hrest hs' hsched'
      simp only [hone, List.singleton_append, List.length_cons]
      constructor
      · intro k hk
        cases k with
        | zero => simpa using hlate
        | succ k =>
          have hlater := htimes k (Nat.lt_of_succ_lt_succ hk)
          rw [List.getElem_cons_succ]
          push_cast at hlater ⊢
          linarith
      · have hlen : n + ((postTimes (id, timer) tr).length + 1)
            = n + 1 + (postTimes (id, timer) tr).length := by omega
        rw [hlen]
        exact hend

omit [DecidableEq W] in
/-- The state right after a registration. -/
lemma onSchedule_executeCyclic (execF : F) (time : ℤ) (hnew : s.cycleItems id = none) :
    OnSchedule id s.timersMade s.now time 0 (s.executeCyclic execF time id) where
  made := by
    rw [timersMade_executeCyclic]
    exact Nat.lt_succ_self _
  elapsed := by simp
  next := by
    intro item hitem _
    rw [cycleItems_executeCyclic, KeyedMap.emplace_self_of_eq_none hnew] at hitem
    obtain rfl := Option.some.inj hitem
    simp

/-- In every run whose registrations draw fresh ids with positive periods, an active id has exactly
one wait or completion, never an aborted one, and the function of a registration is posted for the
k-th time no earlier than `k` periods after it, so no more often than whole periods have passed.
What counts as posted is what workers have taken from the queue, and what is left in it. -/
theorem cyclic_rate {now : ℤ} (hrun : Run ExecStep (init now) tr s) (hdrawn : ∀ p ∈ tr, Drawn p) :
    (∀ id item, s.cycleItems id = some item →
      s.inFlight id = 1 ∧ .timeout true id ∉ s.queue) ∧
    (∀ tr₁ s₁ execF time id tr₂, tr = tr₁ ++ (s₁, .executeCyclic execF time id) :: tr₂ →
      (∀ k (h : k < (postTimes (id, s₁.timersMade) tr₂).length),
        s₁.now + (k + 1) * time ≤ (postTimes (id, s₁.timersMade) tr₂)[k]) ∧
      ((postTimes (id, s₁.timersMade) tr₂).length : ℤ) ≤ (s.now - s₁.now) / time) ∧
    (tr.filterMap (·.2.started?) ++ s.queuedTasks).Perm (tr.filterMap posted) := by
  refine ⟨?_, ?_,
    hrun.account CExecutor.queuedTasks (·.2.started?) posted ExecStep.queuedTasks⟩
  · intro id item hitem
    have hs := armed_of_run hrun hdrawn (armed_init now)
    exact ⟨hs.one id item hitem, hs.notAborted id item hitem⟩
  · rintro tr₁ s₁ execF time id tr₂ rfl
    obtain ⟨hbefore, s₂, hstep, hafter⟩ := hrun.split_at
    have hdrawn₁ : ∀ p ∈ tr₁, Drawn p := fun p hp => hdrawn p (List.mem_append_left _ hp)
    have hdrawn₂ : ∀ p ∈ tr₂, Drawn p :=
      fun p hp => hdrawn p (List.mem_append_right _ (List.mem_cons_of_mem _ hp))
    have hregistered : Drawn (s₁, .executeCyclic execF time id) := hdrawn _ (by simp)
    have hs₂ := hstep.armed hregistered (armed_of_run hbefore hdrawn₁ (armed_init now))
    obtain ⟨hnew, -, hpos⟩ := hregistered execF time id rfl
    cases hstep with
    | executeCyclic =>
      obtain ⟨htimes, hend⟩ :=
        onSchedule_of_run hafter hdrawn₂ hs₂ (onSchedule_executeCyclic execF time hnew)
      constructor
      · intro k hk
        have hlate := htimes k hk
        push_cast at hlate
        linarith
      · rw [Int.le_ediv_iff_mul_le hpos]
        have helapsed := hend.elapsed
        push_cast at helapsed
        linarith

/-- A function with a period of 1000 ms, whose handler runs late. -/
theorem cyclic_rate_late :
    ∃ tr s, Run ExecStep (init 0 : CExecutor Unit Unit) tr s ∧
      postTimes (7, 0) tr = [2500] ∧ s.inFlight 7 = 1 ∧ .timeout true 7 ∉ s.queue := by
  have h₁ := Run.single (ExecStep.executeCyclic (init 0 : CExecutor Unit Unit) () 1000 7)
  have h₂ := h₁.append (.single (.advance 2500 (by decide)))
  have h₃ := h₂.append (.single (.expire (rfl : _ = [] ++ _ :: _) (by decide)))
  have h₄ := h₃.append (.single (.timeout (w := ()) rfl (rfl : _ = [] ++ _ :: _)))
  refine ⟨_, _, h₄, rfl, (cyclic_rate h₄ ?_).1 7 _ rfl⟩
  intro p hp execF time drawn he
  simp only [List.mem_append, List.mem_singleton] at hp
  rcases hp with ((rfl | rfl) | rfl) | rfl
  · obtain ⟨-, rfl, rfl⟩ := ExecEvent.executeCyclic.inj he
    exact ⟨rfl, fun _ => List.not_mem_nil, by decide⟩
  · cases he
  · cases he
  · cases he

end System
