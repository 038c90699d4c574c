import WirelessBridge.Bridge.Step

/-!
# When the watchdog announces a failure

A device is armed when its block is created and whenever a message resets it. From then on its
block is a budget polled by the ticks, so what the watchdog does, and when, is what
`Lib.Budget.giveUps` says of the tick times.
-/

namespace WBridge

open Lib HBE System Mqtt

def Event.tickTime? : Event → Option ℤ
  | .tick itrTime _ => some itrTime
  | _ => none

def tickTimes (tr : List (Bridge × Event)) : List ℤ := tr.filterMap (·.2.tickTime?)

/-- The ticks at which `processDeviceList`, in its pass for the device, sets the status topic of
the device to "error". -/
def errorTimes (table : GwtTable) (item : RouterDeviceItem) (tr : List (Bridge × Event)) :
    List ℤ :=
  tr.flatMap fun p => match p.2 with
    | .tick itrTime _ =>
      ((watchdogEffects table itrTime p.1.deviceItems item.devName).filter
        (· = .setTopic item.statusMqttTopic (str "error"))).map fun _ => itrTime
    | _ => []

/-- The same for a topic and all passes of the loop. -/
def topicErrorTimes (table : GwtTable) (topic : Str) (tr : List (Bridge × Event)) : List ℤ :=
  tr.flatMap fun p => match p.2 with
    | .tick itrTime order =>
      ((order.flatMap (watchdogEffects table itrTime p.1.deviceItems)).filter
        (· = .setTopic topic (str "error"))).map fun _ => itrTime
    | _ => []

/-- The step is a message that resets the block of the device, the clock being at `t₀`. -/
def ResetAt (table : GwtTable) (item : RouterDeviceItem) (t₀ : ℤ) (p : Bridge × Event) : Prop :=
  ∃ topic msg clk, p.2 = .update topic msg clk ∧
    .timeToAttempt item.devName (t₀ + seconds item.nodeTimeoutInSec) ∈
      (p.1.handle table topic msg clk).effects

/-- The block of the device was last written at `t₀`: by `createDeviceList`, when nothing has
happened yet, or by the message that came last. -/
def ArmedAt (pre : GwtTable) (item : RouterDeviceItem) (post : GwtTable) (clk : ℕ → ℤ) (t₀ : ℤ)
    (tr : List (Bridge × Event)) : Prop :=
  (tr = [] ∧ t₀ = clk pre.length) ∨
    ∃ tr' p, tr = tr' ++ [p] ∧ ResetAt (pre ++ item :: post) item t₀ p

variable {table pre post : GwtTable} {item r : RouterDeviceItem} {s t : Bridge} {e : Event}
  {tr : List (Bridge × Event)} {known : Str → Bool} {topic msg name : Str} {now t₀ : ℤ}
  {clk : ℕ → ℤ} {blk : DevServiceBlk}

/-! ### The part of a message that concerns one block -/

/-- The effects that write the block of `name`. -/
def onBlock (name : Str) (es : List Effect) : List Effect := es.filter (·.device? = some name)

lemma foldl_perform_onBlock (name : Str) (es : List Effect) (b : DevServiceBlk) :
    (onBlock name es).foldl (DevServiceBlk.perform name) b
      = es.foldl (DevServiceBlk.perform name) b := by
  induction es generalizing b with
  | nil => rfl
  | cons e es ih =>
    by_cases h : e.device? = some name
    · simpa [onBlock, h] using ih (b.perform name e)
    · simpa [onBlock, h, DevServiceBlk.perform_of_device_ne h] using ih b

lemma onBlock_append (name : Str) (es es' : List Effect) :
    onBlock name (es ++ es') = onBlock name es ++ onBlock name es' :=
  List.filter_append ..

lemma onBlock_eq_nil {es : List Effect} (h : ∀ e ∈ es, e.device? ≠ some name) :
    onBlock name es = [] := by
  simpa [onBlock] using h

lemma mem_onBlock_timeToAttempt {es : List Effect} :
    .timeToAttempt name now ∈ onBlock name es ↔ .timeToAttempt name now ∈ es := by
  simp [onBlock, Effect.device?]

lemma onBlock_andThen {p q : Routine} (h : onBlock name q.effects = []) :
    onBlock name (p.andThen q).effects = onBlock name p.effects := by
  rcases Performed.effects_andThen p q with heq | heq
  · rw [heq]
  · rw [heq, onBlock_append, h, List.append_nil]

lemma onBlock_andThen_of_left {p q : Routine} (h : onBlock name p.effects = []) :
    onBlock name (p.andThen q).effects = [] ∨
      onBlock name (p.andThen q).effects = onBlock name q.effects := by
  rcases Performed.effects_andThen p q with heq | heq
  · left
    rw [heq, h]
  · right
    rw [heq, onBlock_append, h, List.nil_append]

lemma onBlock_processDevice :
    onBlock item.devName (processDevice known topic msg now item).effects = [] ∨
      onBlock item.devName (processDevice known topic msg now item).effects
        = [.spentAttempt item.devName 0,
            .timeToAttempt item.devName (now + seconds item.nodeTimeoutInSec)] := by
  by_cases htopic : topic = item.inputMqttTopic
  · by_cases hknown : known item.devName
    · right
      rw [processDevice, if_pos htopic, if_pos hknown, onBlock_andThen]
      · simp [resetBlock, Performed.andThen, onBlock, Effect.device?]
      · rw [onBlock_andThen rfl]
        apply onBlock_eq_nil
        intro e he
        obtain ⟨c, -, m, rfl⟩ := mem_updateFields he
        simp [Effect.device?]
    · left
      rw [processDevice, if_pos htopic, if_neg hknown]
      rfl
  · left
    rw [processDevice, if_neg htopic]
    apply onBlock_eq_nil
    intro e he
    obtain ⟨m, rfl⟩ := mem_updateOutputs he
    simp [Effect.device?]

lemma onBlock_processTopicUpdate_of_ne (h : ∀ r ∈ table, r.devName ≠ name) :
    onBlock name (processTopicUpdate known topic msg table clk).effects = [] := by
  apply onBlock_eq_nil
  intro e he
  obtain ⟨n, r, hr, he⟩ := mem_processTopicUpdate he
  exact device_processDevice he (h r (List.mem_of_getElem? hr))

/-- A message writes a block whose name occurs once in the table with a whole reset, or not at
all. -/
lemma onBlock_handle (hname : ∀ r ∈ pre ++ post, r.devName ≠ item.devName) (s : Bridge)
    (topic msg : Str) (clk : ℕ → ℤ) :
    onBlock item.devName (s.handle (pre ++ item :: post) topic msg clk).effects = [] ∨
      onBlock item.devName (s.handle (pre ++ item :: post) topic msg clk).effects
        = [.spentAttempt item.devName 0,
            .timeToAttempt item.devName (clk pre.length + seconds item.nodeTimeoutInSec)] := by
  have hpre : ∀ r ∈ pre, r.devName ≠ item.devName := fun r hr => hname r (by simp [hr])
  have hpost : ∀ r ∈ post, r.devName ≠ item.devName := fun r hr => hname r (by simp [hr])
  have hcatch : onBlock item.devName (s.handle (pre ++ item :: post) topic msg clk).effects
      = onBlock item.devName
          (processTopicUpdate s.known topic msg (pre ++ item :: post) clk).effects := by
    simp only [Bridge.handle, mqttEventProcessFunc, catchAndReport]
    split
    · rw [onBlock_append]
      simp [onBlock, Effect.device?]
    · rfl
  rw [hcatch, processTopicUpdate_append, processTopicUpdate]
  rcases onBlock_andThen_of_left (onBlock_processTopicUpdate_of_ne hpre) with hnil | heq
  · exact .inl hnil
  · rw [heq, onBlock_andThen (onBlock_processTopicUpdate_of_ne hpost)]
    exact onBlock_processDevice

/-- A reset leaves no attempt spent, and the deadline a whole timeout away. -/
lemma deviceItems_of_resetAt (hname : ∀ r ∈ pre ++ post, r.devName ≠ item.devName)
    (h : Step (pre ++ item :: post) s e t) (hreset : ResetAt (pre ++ item :: post) item t₀ (s, e))
    (hknown : s.known item.devName = true) :
    t.deviceItems item.devName = some ⟨0, t₀ + seconds item.nodeTimeoutInSec⟩ := by
  obtain ⟨topic, msg, clk, rfl, hmem⟩ := hreset
  obtain ⟨blk, hblk⟩ := Option.isSome_iff_exists.mp hknown
  cases h with
  | update _ _ _ hdefined =>
    rw [Bridge.deviceItems_performAll, hblk, Option.map_some, ← foldl_perform_onBlock]
    rw [← mem_onBlock_timeToAttempt] at hmem
    rcases onBlock_handle hname s topic msg clk with hnil | heq
    · simp [hnil] at hmem
    · rw [heq] at hmem ⊢
      have ht₀ : t₀ = clk pre.length := by simpa using hmem
      simp [DevServiceBlk.perform, ht₀]

/-- A step that is neither a tick nor a reset leaves the block alone. -/
lemma deviceItems_of_not_reset (hname : ∀ r ∈ pre ++ post, r.devName ≠ item.devName)
    (h : Step (pre ++ item :: post) s e t) (htick : e.tickTime? = none)
    (hreset : ∀ t₀, ¬ ResetAt (pre ++ item :: post) item t₀ (s, e)) :
    t.deviceItems item.devName = s.deviceItems item.devName := by
  cases h with
  | tick itrTime horder => simp [Event.tickTime?] at htick
  | update topic msg clk hdefined =>
    rw [Bridge.deviceItems_performAll]
    cases hblk : s.deviceItems item.devName with
    | none => rfl
    | some blk =>
      rw [Option.map_some, ← foldl_perform_onBlock]
      rcases onBlock_handle hname s topic msg clk with hnil | heq
      · rw [hnil]
        rfl
      · refine absurd ⟨topic, msg, clk, rfl, ?_⟩ (hreset (clk pre.length))
        rw [← mem_onBlock_timeToAttempt, heq]
        simp
  | connect => rfl
  | disconnect => rfl

/-! ### The ticks as polls of a budget -/

/-- The pass announces the failure when, and as often as, the budget gives up. -/
lemma errors_watchdogPass (name : Str) (itrTime : ℤ) :
    ((watchdogPass item itrTime name blk).filter
        (· = .setTopic item.statusMqttTopic (str "error"))).map (fun _ => itrTime)
      = (blk.budget.outcome item.nodeConnectionAttempt (.poll itrTime)).filterMap
          Budget.Outcome.giveUp? := by
  simp only [Budget.outcome, DevServiceBlk.verdict_budget, watchdogPass]
  split_ifs <;> simp [Budget.Outcome.giveUp?]

lemma getGwtItem_self (hname : ∀ r ∈ pre ++ post, r.devName ≠ item.devName) :
    getGwtItem (pre ++ item :: post) item.devName = some item :=
  getGwtItem_eq_some fun r hr => hname r (List.mem_append_left _ hr)

lemma errorTimes_tick (hname : ∀ r ∈ pre ++ post, r.devName ≠ item.devName) (itrTime : ℤ)
    (order : List Str) (hblk : s.deviceItems item.devName = some blk) :
    errorTimes (pre ++ item :: post) item [(s, .tick itrTime order)]
      = (blk.budget.outcome item.nodeConnectionAttempt (.poll itrTime)).filterMap
          Budget.Outcome.giveUp? := by
  rw [← errors_watchdogPass item.devName itrTime,
    ← watchdogEffects_of_getGwtItem (getGwtItem_self hname) hblk]
  simp [errorTimes]

/-- As long as nothing resets the block of a device, its failure is announced when its budget is
given up. -/
theorem errorTimes_eq_giveUps (hname : ∀ r ∈ pre ++ post, r.devName ≠ item.devName)
    (hrun : Run (Step (pre ++ item :: post)) s tr t)
    (hreset : ∀ p ∈ tr, ∀ t₀, ¬ ResetAt (pre ++ item :: post) item t₀ p)
    (hblk : s.deviceItems item.devName = some blk) :
    errorTimes (pre ++ item :: post) item tr
      = Budget.giveUps item.nodeConnectionAttempt (seconds item.nodeTimeoutInSec) blk.budget
          (tickTimes tr) := by
  induction hrun generalizing blk with
  | nil s => rfl
  | @cons s s' t e tr hstep hrun ih =>
    have hrest : ∀ p ∈ tr, ∀ t₀, ¬ ResetAt (pre ++ item :: post) item t₀ p :=
      fun p hp => hreset p (List.mem_cons_of_mem _ hp)
    have hcons : errorTimes (pre ++ item :: post) item ((s, e) :: tr)
        = errorTimes (pre ++ item :: post) item [(s, e)]
          ++ errorTimes (pre ++ item :: post) item tr := by
      simp [errorTimes]
    rw [hcons]
    cases htick : e.tickTime? with
    | none =>
      have hsame := deviceItems_of_not_reset hname hstep htick (hreset _ List.mem_cons_self)
      have hnone : errorTimes (pre ++ item :: post) item [(s, e)] = [] := by
        cases e <;> simp [errorTimes, Event.tickTime?] at htick ⊢
      have htimes : tickTimes ((s, e) :: tr) = tickTimes tr := by simp [tickTimes, htick]
      rw [hnone, htimes, ih hrest (hsame.trans hblk), List.nil_append]
    | some itrTime =>
      have htimes : tickTimes ((s, e) :: tr) = itrTime :: tickTimes tr := by
        simp [tickTimes, htick]
      cases hstep with
      | tick itrTime' horder =>
        obtain rfl : itrTime' = itrTime := Option.some.inj htick
        obtain ⟨blk', hblk', hbudget⟩ :=
          deviceItems_of_tick itrTime' (getGwtItem_self hname) horder hblk
        rw [htimes, errorTimes_tick hname _ _ hblk, ih hrest hblk', hbudget,
          Budget.giveUps_cons]
      | update topic msg clk hdefined => simp [Event.tickTime?] at htick
      | connect => simp [Event.tickTime?] at htick
      | disconnect => simp [Event.tickTime?] at htick

/-! ### The bounds -/

/-- The block of an armed device. -/
lemma deviceItems_of_armedAt (hname : ∀ r ∈ pre ++ post, r.devName ≠ item.devName)
    {mqtt : CMqttConnection}
    (hrun : Run (Step (pre ++ item :: post)) (.started (pre ++ item :: post) clk mqtt) tr s)
    (harmed : ArmedAt pre item post clk t₀ tr) :
    s.deviceItems item.devName = some ⟨0, t₀ + seconds item.nodeTimeoutInSec⟩ := by
  have hpre : ∀ r ∈ pre, r.devName ≠ item.devName := fun r hr => hname r (by simp [hr])
  have hfirst := @createDeviceList_first item pre post clk hpre
  rcases harmed with ⟨rfl, rfl⟩ | ⟨tr', p, rfl, hreset⟩
  · obtain rfl := Run.nil_iff.mp hrun
    exact hfirst
  · obtain ⟨hrun, hstep⟩ := Run.snoc_iff.mp hrun
    apply deviceItems_of_resetAt hname hstep hreset
    rw [known_eq_of_run hrun]
    simp [Bridge.known, Bridge.started, hfirst]

lemma setTopic_mem_watchdogEffects {itrTime : ℤ} {items : KeyedMap Str DevServiceBlk}
    (h : .setTopic topic msg ∈ watchdogEffects table itrTime items name) :
    ∃ r ∈ table, r.devName = name ∧ r.statusMqttTopic = topic := by
  simp only [watchdogEffects] at h
  split at h
  · rename_i r _ hr
    refine ⟨r, List.mem_of_find?_eq_some hr, ?_, ?_⟩
    · simpa [eq_comm] using List.find?_some hr
    · rcases mem_watchdogPass h with ⟨v, hv⟩ | ⟨dl, hdl⟩ | hset
      · simp at hv
      · simp at hdl
      · simp only [Effect.setTopic.injEq] at hset
        exact hset.1.symm
  · simp at h

/-- A tick goes once through every block there is. -/
lemma order_of_tick_mem (hrun : Run (Step table) s tr t) (hknown : s.known name = true)
    {s' : Bridge} {itrTime : ℤ} {order : List Str} (hp : (s', .tick itrTime order) ∈ tr) :
    order.Nodup ∧ name ∈ order := by
  obtain ⟨tr₁, tr₂, rfl⟩ := List.append_of_mem hp
  obtain ⟨hbefore, _, hstep, -⟩ := hrun.split_at
  cases hstep with
  | tick _ horder =>
    exact ⟨horder.nodup, (horder.mem_iff name).mpr
      ((congrFun (known_eq_of_run hbefore) name).trans hknown)⟩

/-- If no other entry has the status topic of the device, nothing but its own pass sets that topic
to "error". -/
theorem topicErrorTimes_eq
    (hstatus : ∀ r ∈ pre ++ post, r.statusMqttTopic ≠ item.statusMqttTopic)
    (hrun : Run (Step (pre ++ item :: post)) s tr t)
    (hknown : s.known item.devName = true) :
    topicErrorTimes (pre ++ item :: post) item.statusMqttTopic tr
      = errorTimes (pre ++ item :: post) item tr := by
  have hother : ∀ itrTime items (l : List Str), item.devName ∉ l →
      (l.flatMap (watchdogEffects (pre ++ item :: post) itrTime items)).filter
        (· = .setTopic item.statusMqttTopic (str "error")) = [] := by
    intro itrTime items l hl
    simp only [List.filter_eq_nil_iff, decide_eq_true_eq]
    rintro e he rfl
    obtain ⟨name, hname', he⟩ := List.mem_flatMap.mp he
    obtain ⟨r, hr, rfl, hr'⟩ := setTopic_mem_watchdogEffects he
    have hne : r ≠ item := fun h => hl (h ▸ hname')
    exact hstatus r (by simpa [hne] using hr) hr'
  apply List.flatMap_congr
  rintro ⟨s', e⟩ hp
  cases e with
  | tick itrTime order =>
    obtain ⟨hnodup, hmem⟩ := order_of_tick_mem hrun hknown hp
    obtain ⟨l₁, l₂, rfl⟩ := List.append_of_mem hmem
    have hnotin := (List.nodup_cons.mp (List.nodup_middle.mp hnodup)).1
    simp only [List.mem_append, not_or] at hnotin
    simp [List.flatMap_append, hother _ _ _ hnotin.1, hother _ _ _ hnotin.2]
  | update | connect | disconnect => rfl

/-- The watchdog of a device with timeout `T` and `N` connection attempts, armed at `t₀`: it
announces the failure at most once, never before `N + 1` timeouts are over, and, when ticks are
at most `δ` apart, no later than `N + 1` times `T + δ` after `t₀`. The settings that are counted are
those that the ticks perform. -/
theorem watchdog_timing (hname : ∀ r ∈ pre ++ post, r.devName ≠ item.devName)
    {mqtt : CMqttConnection} {tr₁ tr₂ : List (Bridge × Event)}
    (hrun₁ : Run (Step (pre ++ item :: post)) (.started (pre ++ item :: post) clk mqtt) tr₁ s)
    (harmed : ArmedAt pre item post clk t₀ tr₁)
    (hrun₂ : Run (Step (pre ++ item :: post)) s tr₂ t)
    (hreset : ∀ p ∈ tr₂, ∀ t', ¬ ResetAt (pre ++ item :: post) item t' p)
    (hclock : (t₀ :: tickTimes tr₂).Pairwise (· ≤ ·)) (hlen : (tickTimes tr₂).length ≤ 2 ^ 32) :
    let N : ℤ := item.nodeConnectionAttempt.toNat
    let T : ℤ := seconds item.nodeTimeoutInSec
    let errors := errorTimes (pre ++ item :: post) item tr₂
    errors.length ≤ 1 ∧
      (∀ τ ∈ errors, t₀ + (N + 1) * T < τ) ∧
      (∀ δ, (t₀ :: tickTimes tr₂).IsChain (fun τ τ' => τ' ≤ τ + δ) →
        (∃ τ ∈ tickTimes tr₂, t₀ + (N + 1) * (T + δ) < τ) →
        ∃ τ, errors = [τ] ∧ τ ≤ t₀ + (N + 1) * (T + δ)) ∧
      ((∀ r ∈ pre ++ post, r.statusMqttTopic ≠ item.statusMqttTopic) →
        topicErrorTimes (pre ++ item :: post) item.statusMqttTopic tr₂ = errors) ∧
      (∀ s' itrTime order, (s', .tick itrTime order) ∈ tr₂ → item.devName ∈ order ∧
        processDeviceList (pre ++ item :: post) itrTime order s' = s'.performAll
          (order.flatMap (watchdogEffects (pre ++ item :: post) itrTime s'.deviceItems))) := by
  intro N T errors
  have hblk := deviceItems_of_armedAt hname hrun₁ harmed
  have herrors : errors = Budget.giveUps item.nodeConnectionAttempt T
      ⟨0, t₀ + T⟩ (tickTimes tr₂) := errorTimes_eq_giveUps hname hrun₂ hreset hblk
  have hT : 0 ≤ T := seconds_nonneg _
  have honce : errors.length ≤ 1 := by
    rw [herrors]
    exact Budget.length_giveUps_le_one rfl hlen
  have hknown : s.known item.devName = true := by simp [Bridge.known, hblk]
  refine ⟨honce, ?_, ?_, ?_, ?_⟩
  · rw [herrors]
    exact Budget.giveUp_late (k := 0) rfl (Nat.zero_le _) (by simp) (List.pairwise_cons.mp hclock).2
  · intro δ hchain hpast
    have hboth : (t₀ :: tickTimes tr₂).IsChain (fun τ τ' => τ ≤ τ' ∧ τ' ≤ τ + δ) := by
      rw [List.isChain_iff_getElem] at hchain ⊢
      exact fun i hi => ⟨hclock.isChain.getElem i hi, hchain i hi⟩
    have hex : ∃ τ ∈ errors, τ ≤ t₀ + (N + 1) * (T + δ) := by
      rw [herrors]
      exact Budget.exists_giveUp_within (k := 0) hT rfl (Nat.zero_le _) (by simpa using hT)
        (by simp) hboth hpast
    obtain ⟨τ, hτ, hle⟩ := hex
    have hone : errors.length = 1 := le_antisymm honce (List.length_pos_of_mem hτ)
    obtain ⟨τ', hτ'⟩ := List.length_eq_one_iff.mp hone
    rw [hτ', List.mem_singleton] at hτ
    exact ⟨τ', hτ', hτ ▸ hle⟩
  · intro hstatus
    exact topicErrorTimes_eq hstatus hrun₂ hknown
  · intro s' itrTime order hp
    obtain ⟨hnodup, hmem⟩ := order_of_tick_mem hrun₂ hknown hp
    exact ⟨hmem, processDeviceList_eq hnodup⟩

/-- The ten second timeout of the station, with two of them to go through and ticks twelve
seconds apart. -/
theorem watchdog_timing_station :
    ∃ tr t, Run (Step [station]) stationStarted tr t ∧
      tickTimes tr = [12000, 24000, 36000, 48000] ∧
      ∃ τ, errorTimes [station] station tr = [τ] ∧ τ ≤ 44000 := by
  have h₁ := Run.single (Step.tick_station 12000 (.nil _))
  have h₂ := h₁.append (.single (Step.tick_station 24000 h₁))
  have h₃ := h₂.append (.single (Step.tick_station 36000 h₂))
  have h₄ := h₃.append (.single (Step.tick_station 48000 h₃))
  refine ⟨_, _, h₄, rfl, ?_⟩
  have hname : ∀ r ∈ ([] : GwtTable) ++ [], r.devName ≠ station.devName := by simp
  have htiming := watchdog_timing hname (.nil _) (.inl ⟨rfl, rfl⟩) h₄ (by simp [ResetAt])
    (by decide) (by decide)
  exact htiming.2.2.1 12000 (by decide) ⟨48000, by decide, by decide⟩

end WBridge
