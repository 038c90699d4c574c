import WirelessBridge.Bridge.State
import WirelessBridge.Lib.AttemptBudget
import Mathlib.Data.List.Nodup

/-!
# The watchdog

`createDeviceList` gives every device a block, and `processDeviceList` goes over the blocks once a
second. The block of a device is a budget of attempts: its limit is the number of connection
attempts of the device and its period the node timeout.
-/

namespace WBridge

open Lib HBE System Mqtt

/-- `clk n` is the clock reading for entry `n` of the table. -/
def createDeviceList : GwtTable → (ℕ → ℤ) → KeyedMap Str DevServiceBlk → KeyedMap Str DevServiceBlk
  | [], _, m => m
  | r :: rest, clk, m =>
    createDeviceList rest (fun n => clk (n + 1))
      (m.emplace r.devName ⟨0, clk 0 + seconds r.nodeTimeoutInSec⟩)

/-- What the watchdog does with the block of one device. -/
def watchdogPass (item : RouterDeviceItem) (itrTime : ℤ) (name : Str) (blk : DevServiceBlk) :
    List Effect :=
  if blk.timeToAttempt < itrTime then
    if blk.spentAttempt < item.nodeConnectionAttempt then
      [.spentAttempt name (blk.spentAttempt + 1),
        .timeToAttempt name (itrTime + seconds item.nodeTimeoutInSec)]
    else if blk.spentAttempt = item.nodeConnectionAttempt then
      -- the increment comes before the topic is set, in the comparison itself
      [.spentAttempt name (blk.spentAttempt + 1), .setTopic item.statusMqttTopic (str "error")]
    else [.spentAttempt name (blk.spentAttempt + 1)]
  else []

/-- The effects of the loop body for one key of the device map. -/
def watchdogEffects (table : GwtTable) (itrTime : ℤ) (items : KeyedMap Str DevServiceBlk)
    (name : Str) : List Effect :=
  match items name, getGwtItem table name with
  | some blk, some item => watchdogPass item itrTime name blk
  | _, _ => []

/-- `order` is the order in which the unordered device map is walked through. -/
def processDeviceList (table : GwtTable) (itrTime : ℤ) (order : List Str) (s : Bridge) : Bridge :=
  order.foldl (fun s name => s.performAll (watchdogEffects table itrTime s.deviceItems name)) s

variable {table : GwtTable} {item : RouterDeviceItem} {itrTime : ℤ} {name : Str}
  {blk : DevServiceBlk} {e : Effect} {s : Bridge} {order : List Str}

/-! ### One tick -/

lemma mem_watchdogPass (h : e ∈ watchdogPass item itrTime name blk) :
    (∃ v, e = .spentAttempt name v) ∨ (∃ t, e = .timeToAttempt name t) ∨
      e = .setTopic item.statusMqttTopic (str "error") := by
  simp only [watchdogPass] at h
  split_ifs at h
  · simp only [List.mem_cons, List.not_mem_nil, or_false] at h
    rcases h with rfl | rfl
    · exact .inl ⟨_, rfl⟩
    · exact .inr (.inl ⟨_, rfl⟩)
  · simp only [List.mem_cons, List.not_mem_nil, or_false] at h
    rcases h with rfl | rfl
    · exact .inl ⟨_, rfl⟩
    · exact .inr (.inr rfl)
  · exact .inl ⟨_, by simpa using h⟩
  · simp at h

lemma mem_watchdogEffects {items : KeyedMap Str DevServiceBlk}
    (h : e ∈ watchdogEffects table itrTime items name) :
    (∃ v, e = .spentAttempt name v) ∨ (∃ t, e = .timeToAttempt name t) ∨
      ∃ topic, e = .setTopic topic (str "error") := by
  simp only [watchdogEffects] at h
  split at h
  · rcases mem_watchdogPass h with h | h | h
    · exact .inl h
    · exact .inr (.inl h)
    · exact .inr (.inr ⟨_, h⟩)
  · simp at h

lemma device_watchdogEffects {items : KeyedMap Str DevServiceBlk} {name' : Str}
    (h : e ∈ watchdogEffects table itrTime items name) (hne : name ≠ name') :
    e.device? ≠ some name' := by
  rcases mem_watchdogEffects h with ⟨v, rfl⟩ | ⟨t, rfl⟩ | ⟨topic, rfl⟩ <;>
    simp [Effect.device?, hne]

/-- A pass of the loop sees of the map only the block it is for. -/
lemma watchdogEffects_congr {items items' : KeyedMap Str DevServiceBlk}
    (h : items name = items' name) :
    watchdogEffects table itrTime items name = watchdogEffects table itrTime items' name := by
  simp only [watchdogEffects, h]

/-- Since every pass writes its own block only, a tick performs the effects that each block had
coming when the tick began. -/
theorem processDeviceList_eq (hnodup : order.Nodup) :
    processDeviceList table itrTime order s
      = s.performAll (order.flatMap (watchdogEffects table itrTime s.deviceItems)) := by
  induction order generalizing s with
  | nil => rfl
  | cons name rest ih =>
    obtain ⟨hnotin, hrest⟩ := List.nodup_cons.mp hnodup
    have hstep : processDeviceList table itrTime (name :: rest) s
        = processDeviceList table itrTime rest
            (s.performAll (watchdogEffects table itrTime s.deviceItems name)) := rfl
    have hcongr : rest.flatMap (watchdogEffects table itrTime
          (s.performAll (watchdogEffects table itrTime s.deviceItems name)).deviceItems)
        = rest.flatMap (watchdogEffects table itrTime s.deviceItems) := by
      refine List.flatMap_congr fun name' hname' => watchdogEffects_congr ?_
      have hne : name ≠ name' := fun h => hnotin (h ▸ hname')
      rw [Bridge.deviceItems_performAll]
      have hsame : ∀ b : DevServiceBlk, (watchdogEffects table itrTime s.deviceItems name).foldl
          (DevServiceBlk.perform name') b = b := fun b =>
        DevServiceBlk.foldl_perform_of_device_ne (fun e he => device_watchdogEffects he hne) b
      simp [hsame]
    rw [hstep, ih hrest, hcongr, List.flatMap_cons, Bridge.performAll_append]

/-- The block of a device after a tick: its own pass, once. -/
theorem deviceItems_processDeviceList (h : s.deviceItems.IterationOrder order) (name : Str) :
    (processDeviceList table itrTime order s).deviceItems name
      = (s.deviceItems name).map fun b =>
          (watchdogEffects table itrTime s.deviceItems name).foldl
            (DevServiceBlk.perform name) b := by
  rw [processDeviceList_eq h.nodup, Bridge.deviceItems_performAll]
  cases hblk : s.deviceItems name with
  | none => rfl
  | some b =>
    have hmem : name ∈ order := (h.mem_iff name).mpr (by simp [hblk])
    obtain ⟨l₁, l₂, rfl⟩ := List.append_of_mem hmem
    have hnodup := List.nodup_middle.mp h.nodup
    have hnotin : name ∉ l₁ ++ l₂ := (List.nodup_cons.mp hnodup).1
    simp only [List.mem_append, not_or] at hnotin
    have hother : ∀ l : List Str, name ∉ l → ∀ b : DevServiceBlk,
        (l.flatMap (watchdogEffects table itrTime s.deviceItems)).foldl
          (DevServiceBlk.perform name) b = b := by
      intro l hl b
      refine DevServiceBlk.foldl_perform_of_device_ne (fun e he => ?_) b
      obtain ⟨name', hname', he⟩ := List.mem_flatMap.mp he
      exact device_watchdogEffects he fun h => hl (h ▸ hname')
    simp [List.flatMap_append, hother _ hnotin.1, hother _ hnotin.2]

/-! ### The block as a budget -/

def DevServiceBlk.budget (b : DevServiceBlk) : Budget := ⟨b.spentAttempt, b.timeToAttempt⟩

lemma DevServiceBlk.verdict_budget (limit : UInt32) (b : DevServiceBlk) (now : ℤ) :
    b.budget.verdict limit now
      = if b.timeToAttempt < now then
          if b.spentAttempt < limit then .attempt
          else if b.spentAttempt = limit then .giveUp
          else .silent
        else .wait := rfl

/-- The pass of the watchdog announces the failure of the device. -/
def Announces (item : RouterDeviceItem) (itrTime : ℤ) (blk : DevServiceBlk) : Prop :=
  blk.budget.verdict item.nodeConnectionAttempt itrTime = .giveUp

instance : Decidable (Announces item itrTime blk) :=
  inferInstanceAs (Decidable (_ = _))

/-- The branch "all attempt exhausted" is the one that sets the status to "error". -/
lemma announces_iff :
    Announces item itrTime blk ↔
      Effect.setTopic item.statusMqttTopic (str "error") ∈ watchdogPass item itrTime name blk := by
  simp only [Announces, DevServiceBlk.verdict_budget, watchdogPass]
  split_ifs <;> simp

/-- The pass does to the block what a poll does to its budget. -/
theorem budget_watchdogPass :
    ((watchdogPass item itrTime name blk).foldl (DevServiceBlk.perform name) blk).budget
      = blk.budget.next item.nodeConnectionAttempt (seconds item.nodeTimeoutInSec)
          (.poll itrTime) := by
  simp only [Budget.next, DevServiceBlk.verdict_budget, watchdogPass]
  split_ifs <;> simp [DevServiceBlk.perform, DevServiceBlk.budget]

lemma watchdogEffects_of_getGwtItem (hitem : getGwtItem table item.devName = some item)
    (hblk : s.deviceItems item.devName = some blk) :
    watchdogEffects table itrTime s.deviceItems item.devName
      = watchdogPass item itrTime item.devName blk := by
  rw [watchdogEffects, hblk, hitem]

/-- A tick polls the budget of every device that has an entry. -/
lemma deviceItems_of_tick (itrTime : ℤ) (hitem : getGwtItem table item.devName = some item)
    (horder : s.deviceItems.IterationOrder order) (hblk : s.deviceItems item.devName = some blk) :
    ∃ blk', (processDeviceList table itrTime order s).deviceItems item.devName = some blk' ∧
      blk'.budget = blk.budget.next item.nodeConnectionAttempt (seconds item.nodeTimeoutInSec)
        (.poll itrTime) := by
  refine ⟨_, ?_, @budget_watchdogPass item itrTime item.devName blk⟩
  rw [deviceItems_processDeviceList horder, hblk, watchdogEffects_of_getGwtItem hitem hblk]
  rfl

/-! ### The initial blocks -/

lemma createDeviceList_of_isSome (m : KeyedMap Str DevServiceBlk) (clk : ℕ → ℤ)
    (h : (m name).isSome) : createDeviceList table clk m name = m name := by
  induction table generalizing m clk with
  | nil => rfl
  | cons r rest ih =>
    rw [createDeviceList]
    by_cases hname : name = r.devName
    · subst hname
      rw [KeyedMap.emplace_of_isSome h, ih m _ h]
    · have hsame : m.emplace r.devName ⟨0, clk 0 + seconds r.nodeTimeoutInSec⟩ name = m name :=
        KeyedMap.emplace_of_ne hname
      rw [ih _ _ (by rwa [hsame]), hsame]

lemma createDeviceList_of_ne (m : KeyedMap Str DevServiceBlk) (clk : ℕ → ℤ)
    (h : ∀ r ∈ table, r.devName ≠ name) : createDeviceList table clk m name = m name := by
  induction table generalizing m clk with
  | nil => rfl
  | cons r rest ih =>
    have hne : name ≠ r.devName := (h r List.mem_cons_self).symm
    rw [createDeviceList, ih _ _ fun r' hr' => h r' (List.mem_cons_of_mem _ hr'),
      KeyedMap.emplace_of_ne hne]

/-- Every device of the table has a block. -/
lemma isSome_createDeviceList (m : KeyedMap Str DevServiceBlk) (clk : ℕ → ℤ)
    {r : RouterDeviceItem} (hr : r ∈ table) : (createDeviceList table clk m r.devName).isSome := by
  induction table generalizing m clk with
  | nil => simp at hr
  | cons r' rest ih =>
    rw [createDeviceList]
    rcases List.mem_cons.mp hr with rfl | hr
    · have hsome : (m.emplace r.devName
          ⟨0, clk 0 + seconds r.nodeTimeoutInSec⟩ r.devName).isSome :=
        KeyedMap.isSome_emplace_self
      rwa [createDeviceList_of_isSome _ _ hsome]
    · exact ih _ _ hr

/-- The first entry of a name decides its block; the ones after it are ignored. -/
lemma createDeviceList_first {pre post : GwtTable} (clk : ℕ → ℤ)
    (hpre : ∀ r ∈ pre, r.devName ≠ item.devName) :
    createDeviceList (pre ++ item :: post) clk KeyedMap.empty item.devName
      = some ⟨0, clk pre.length + seconds item.nodeTimeoutInSec⟩ := by
  suffices ∀ (m : KeyedMap Str DevServiceBlk) (clk : ℕ → ℤ), m item.devName = none →
      createDeviceList (pre ++ item :: post) clk m item.devName
        = some ⟨0, clk pre.length + seconds item.nodeTimeoutInSec⟩ from this _ clk rfl
  intro m clk hm
  induction pre generalizing m clk with
  | nil =>
    rw [List.nil_append, createDeviceList, createDeviceList_of_isSome]
    · exact KeyedMap.emplace_self_of_eq_none hm
    · simp [KeyedMap.emplace_self_of_eq_none hm]
  | cons r rest ih =>
    have hne : item.devName ≠ r.devName := (hpre r List.mem_cons_self).symm
    rw [List.cons_append, createDeviceList,
      ih (fun r' hr' => hpre r' (List.mem_cons_of_mem _ hr'))]
    · rfl
    · rw [KeyedMap.emplace_of_ne hne, hm]

end WBridge
