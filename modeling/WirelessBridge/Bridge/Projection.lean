import WirelessBridge.Bridge.Feedback
import WirelessBridge.Bridge.Timing

/-!
# One device among many

What the bridge does for a device that shares neither its name nor its topics is what a bridge with
this device alone would do, over whole runs: the other entries of the table, their messages and
their failures make no difference to it.
-/

namespace WBridge

open Lib HBE System Mqtt

/-- The topics that the handling of an entry can set, as mosquitto gets them. -/
def RouterDeviceItem.setTopics (r : RouterDeviceItem) : List Str :=
  (r.statusMqttTopic ::
    (r.inputMapping.map (·.mqttTopic) ++ [r.outputMqttTopic].filter (· ≠ []))).map cStr

/-- No other entry has the name of the device or sets a topic that the device sets, and no entry
before it takes its messages from a topic that the device listens to. -/
structure Separate (pre : GwtTable) (item : RouterDeviceItem) (post : GwtTable) : Prop where
  devName : ∀ r ∈ pre ++ post, r.devName ≠ item.devName
  setTopics : ∀ r ∈ pre ++ post, r.setTopics.Disjoint item.setTopics
  heard : ∀ r ∈ pre, r.inputMqttTopic ∉ heard [item]

/-- The effect is one that the handling of the entry can have. -/
def Concerns (item : RouterDeviceItem) : Effect → Bool
  | .spentAttempt d _ => d = item.devName
  | .timeToAttempt d _ => d = item.devName
  | .setTopic topic _ => item.setTopics.contains (cStr topic)
  | .report _ _ => false

/-- The event, at a bridge with this device alone. The pass for the entry reads the clock where it
does behind those for `pre`. -/
def Event.alone (pre : GwtTable) (item : RouterDeviceItem) : Event → Event
  | .tick itrTime _ => .tick itrTime [item.devName]
  | .update topic msg clk => .update topic msg fun n => clk (pre.length + n)
  | .connect => .connect
  | .disconnect => .disconnect

/-- `u` is the part of `s` that belongs to the device. -/
structure Projects (item : RouterDeviceItem) (s u : Bridge) : Prop where
  block : u.deviceItems item.devName = s.deviceItems item.devName
  known : ∀ name, u.known name = (name == item.devName)
  mqtt : u.mqtt = s.mqtt
  published : u.published = s.published.filter fun p => p.1 ∈ item.setTopics

variable {pre post table : GwtTable} {item r : RouterDeviceItem} {known : Str → Bool}
  {topic msg t : Str} {clk : ℕ → ℤ} {now : ℤ} {s u s' : Bridge} {e : Effect}

/-! ### The effects that concern a device -/

lemma mem_setTopics_of_mem_answers (h : t ∈ r.answers topic) : cStr t ∈ r.setTopics := by
  apply List.mem_map_of_mem
  rw [RouterDeviceItem.answers] at h
  split at h
  · rcases List.mem_cons.mp h with rfl | h
    · exact List.mem_cons_self
    · exact List.mem_cons_of_mem _ (List.mem_append_left _ h)
  · split at h
    · rename_i hout
      obtain rfl := List.mem_singleton.mp h
      exact List.mem_cons_of_mem _ (List.mem_append_right _ (by simpa using hout.1))
    · simp at h

/-- The pass for an entry has no report among its effects. -/
lemma concerns_of_mem_processDevice (h : e ∈ (processDevice known topic msg now item).effects) :
    Concerns item e = true := by
  cases e with
  | setTopic t v => exact List.contains_iff_mem.mpr (mem_setTopics_of_mem_answers (mem_answers h))
  | spentAttempt d v | timeToAttempt d v =>
    rcases mem_processDevice h with ⟨-, heq | heq | heq⟩ | ⟨t, -, m, heq⟩ <;> cases heq
    exact decide_eq_true rfl
  | report level descr =>
    rcases mem_processDevice h with ⟨-, heq | heq | heq⟩ | ⟨t, -, m, heq⟩ <;> cases heq

lemma not_concerns_of_mem_processDevice (hname : r.devName ≠ item.devName)
    (htopics : r.setTopics.Disjoint item.setTopics)
    (h : e ∈ (processDevice known topic msg now r).effects) : ¬ Concerns item e = true := by
  cases e with
  | setTopic t v =>
    have hmem := mem_setTopics_of_mem_answers (mem_answers h)
    exact fun hconcerns => htopics hmem (List.contains_iff_mem.mp hconcerns)
  | spentAttempt d v | timeToAttempt d v =>
    rcases mem_processDevice h with ⟨-, heq | heq | heq⟩ | ⟨t, -, m, heq⟩ <;> cases heq
    exact fun hconcerns => hname (of_decide_eq_true hconcerns)
  | report level descr => exact Bool.false_ne_true

lemma filter_concerns_processDevice :
    (processDevice known topic msg now item).effects.filter (Concerns item)
      = (processDevice known topic msg now item).effects :=
  List.filter_eq_self.mpr fun _ => concerns_of_mem_processDevice

/-- What a message brings about for entries that are all separate from the device. -/
lemma filter_concerns_others (known : Str → Bool) (topic msg : Str) (clk : ℕ → ℤ)
    (hname : ∀ r ∈ table, r.devName ≠ item.devName)
    (htopics : ∀ r ∈ table, r.setTopics.Disjoint item.setTopics) :
    (processTopicUpdate known topic msg table clk).effects.filter (Concerns item) = [] := by
  rw [List.filter_eq_nil_iff]
  intro e he
  obtain ⟨n, r, hr, he⟩ := mem_processTopicUpdate he
  have hmem := List.mem_of_getElem? hr
  exact not_concerns_of_mem_processDevice (hname r hmem) (htopics r hmem) he

/-- A device that does not listen to the topic has no part in the message. -/
lemma processDevice_of_not_heard (h : topic ∉ heard [item]) :
    processDevice known topic msg now item = .nothing := by
  simp only [heard, List.flatMap_singleton, List.mem_cons, not_or] at h
  obtain ⟨hin, hout⟩ := h
  rw [processDevice, if_neg hin, updateOutputs_eq]
  have hnil : outputSettings item topic msg = [] := by
    rw [List.eq_nil_iff_forall_not_mem]
    exact fun e he => hout (mem_outputSettings_topic he).2
  rw [hnil]
  rfl

lemma fault_before (hsep : Separate pre item post) (h : topic ∈ heard [item]) :
    (processTopicUpdate known topic msg pre clk).fault = none :=
  fault_processTopicUpdate_eq_none.mpr fun r hr haborts => hsep.heard r hr (haborts.1.1 ▸ h)

/-- Of all that a message brings about, the part of the device is its own pass. -/
lemma filter_concerns_processTopicUpdate (hsep : Separate pre item post) :
    (processTopicUpdate known topic msg (pre ++ item :: post) clk).effects.filter (Concerns item)
      = (processDevice known topic msg (clk pre.length) item).effects := by
  have hpre := filter_concerns_others known topic msg clk
    (fun r hr => hsep.devName r (List.mem_append_left _ hr))
    (fun r hr => hsep.setTopics r (List.mem_append_left _ hr))
  have hpost := filter_concerns_others known topic msg (fun n => clk (pre.length + (n + 1)))
    (fun r hr => hsep.devName r (List.mem_append_right _ hr))
    (fun r hr => hsep.setTopics r (List.mem_append_right _ hr))
  rw [processTopicUpdate_append, processTopicUpdate]
  by_cases hheard : topic ∈ heard [item]
  · rw [Performed.andThen_of_fault_eq_none (fault_before hsep hheard), List.filter_append, hpre,
      List.nil_append]
    rcases Performed.effects_andThen (processDevice known topic msg (clk (pre.length + 0)) item)
      (processTopicUpdate known topic msg post fun n => clk (pre.length + (n + 1))) with heq | heq
    · rw [heq, filter_concerns_processDevice, Nat.add_zero]
    · rw [heq, List.filter_append, hpost, filter_concerns_processDevice, List.append_nil,
        Nat.add_zero]
  · rw [processDevice_of_not_heard hheard, processDevice_of_not_heard hheard,
      Performed.nothing_andThen]
    rcases Performed.effects_andThen (processTopicUpdate known topic msg pre clk)
      (processTopicUpdate known topic msg post fun n => clk (pre.length + (n + 1))) with heq | heq
    · rw [heq, hpre]
      rfl
    · rw [heq, List.filter_append, hpre, hpost]
      rfl

/-! ### The part of a state -/

lemma Projects.perform (h : Projects item s u) (e : Effect) :
    Projects item (s.perform e) (if Concerns item e then u.perform e else u) := by
  split
  · rename_i hconcerns
    refine ⟨?_, ?_, ?_, ?_⟩
    · rw [Bridge.deviceItems_perform, Bridge.deviceItems_perform, h.block]
    · rw [Bridge.known_perform]
      exact h.known
    · rw [Bridge.mqtt_perform, Bridge.mqtt_perform, h.mqtt]
    · have hs := Bridge.published_performAll s [e]
      have hu := Bridge.published_performAll u [e]
      rw [Bridge.performAll_cons, Bridge.performAll_nil] at hs hu
      rw [hs, hu, h.mqtt, h.published, List.filter_append]
      congr 1
      split
      · cases e with
        | setTopic t v =>
          have hmem : cStr t ∈ item.setTopics := List.contains_iff_mem.mp hconcerns
          simp [Effect.setting?, hmem]
        | spentAttempt | timeToAttempt | report => rfl
      · rfl
  · rename_i hconcerns
    refine ⟨?_, h.known, ?_, ?_⟩
    · have hdevice : e.device? ≠ some item.devName := by
        cases e <;> simp_all [Concerns, Effect.device?]
      rw [Bridge.deviceItems_perform, h.block]
      cases s.deviceItems item.devName with
      | none => rfl
      | some b => rw [Option.map_some, DevServiceBlk.perform_of_device_ne hdevice]
    · rw [Bridge.mqtt_perform, h.mqtt]
    · have hs := Bridge.published_performAll s [e]
      rw [Bridge.performAll_cons, Bridge.performAll_nil] at hs
      rw [hs, h.published, List.filter_append]
      have hnil : (if .connected = s.mqtt.connStatus then [e].filterMap Effect.setting?
          else []).filter (fun p => p.1 ∈ item.setTopics) = [] := by
        split
        · cases e with
          | setTopic t v => simpa [Effect.setting?, Concerns] using hconcerns
          | spentAttempt | timeToAttempt | report => rfl
        · rfl
      rw [hnil, List.append_nil]

lemma Projects.performAll (h : Projects item s u) (es : List Effect) :
    Projects item (s.performAll es) (u.performAll (es.filter (Concerns item))) := by
  induction es generalizing s u with
  | nil => exact h
  | cons e es ih =>
    have hnext := ih (h.perform e)
    rw [Bridge.performAll_cons, List.filter_cons]
    split at hnext
    · rename_i hconcerns
      rw [if_pos hconcerns]
      exact hnext
    · rename_i hconcerns
      rw [if_neg hconcerns]
      exact hnext

/-- A report is nothing that the projection sees. -/
lemma Projects.report (h : Projects item s u) (level : ErrorLevel) (descr : Str) :
    Projects item s (u.perform (.report level descr)) :=
  ⟨h.block, h.known, h.mqtt, h.published⟩

/-! ### The part of a step -/

lemma effects_catchAndReport (func : String) (p : Routine) :
    (catchAndReport func p).effects = p.effects ∨
      ∃ descr, (catchAndReport func p).effects = p.effects ++ [.report .componentLevel descr] := by
  rw [catchAndReport]
  split
  · exact .inr ⟨_, rfl⟩
  · exact .inl rfl

lemma fault_catchAndReport_eq_none {func : String} {p : Routine} :
    (catchAndReport func p).fault = none ↔ ∀ i n, p.fault ≠ some (.outOfBounds i n) := by
  rw [catchAndReport]
  split
  · rename_i e he
    simp [he]
  · rename_i hother
    cases hfault : p.fault with
    | none => simp
    | some f =>
      cases f with
      | exception e => exact absurd hfault (hother e)
      | outOfBounds i n => simp

lemma processDevice_congr {known' : Str → Bool} (h : known r.devName = known' r.devName) :
    processDevice known topic msg now r = processDevice known' topic msg now r := by
  simp only [processDevice, h]

lemma processTopicUpdate_singleton :
    processTopicUpdate known topic msg [item] clk = processDevice known topic msg (clk 0) item := by
  rw [processTopicUpdate, processTopicUpdate, Performed.andThen_nothing]

/-- What cuts the pass for the device short cuts the whole handling short. -/
lemma fault_of_fault_processDevice {f : Fault} (hsep : Separate pre item post)
    (h : (processDevice known topic msg (clk pre.length) item).fault = some f) :
    (processTopicUpdate known topic msg (pre ++ item :: post) clk).fault = some f := by
  by_cases hheard : topic ∈ heard [item]
  · rw [processTopicUpdate_append, Performed.fault_andThen_eq_some, processTopicUpdate,
      Performed.fault_andThen_eq_some]
    exact .inr ⟨fault_before hsep hheard, .inl h⟩
  · rw [processDevice_of_not_heard hheard] at h
    cases h

lemma Projects.known_eq (h : Projects item s u) : s.known item.devName = u.known item.devName := by
  rw [Bridge.known, Bridge.known, h.block]

lemma Projects.update (hsep : Separate pre item post) (h : Projects item s u) (topic msg : Str)
    (clk : ℕ → ℤ) (hdefined : (s.handle (pre ++ item :: post) topic msg clk).fault = none) :
    (u.handle [item] topic msg fun n => clk (pre.length + n)).fault = none ∧
    Projects item (s.performAll (s.handle (pre ++ item :: post) topic msg clk).effects)
      (u.performAll (u.handle [item] topic msg fun n => clk (pre.length + n)).effects) := by
  have halone : processTopicUpdate u.known topic msg [item] (fun n => clk (pre.length + n))
      = processDevice s.known topic msg (clk pre.length) item :=
    processTopicUpdate_singleton.trans (processDevice_congr h.known_eq.symm)
  constructor
  · refine fault_catchAndReport_eq_none.mpr fun i n hfault => ?_
    rw [halone] at hfault
    exact fault_catchAndReport_eq_none.mp hdefined i n (fault_of_fault_processDevice hsep hfault)
  · have hpart : (s.handle (pre ++ item :: post) topic msg clk).effects.filter (Concerns item)
        = (processDevice s.known topic msg (clk pre.length) item).effects := by
      rw [← filter_concerns_processTopicUpdate hsep, Bridge.handle, mqttEventProcessFunc]
      rcases effects_catchAndReport "mqttEventProcessFunc"
        (processTopicUpdate s.known topic msg (pre ++ item :: post) clk) with heq | ⟨descr, heq⟩
      · rw [heq]
      · rw [heq, List.filter_append]
        exact List.append_nil _
    have hnext := h.performAll (s.handle (pre ++ item :: post) topic msg clk).effects
    rw [hpart] at hnext
    have hsolo := effects_catchAndReport "mqttEventProcessFunc"
      (processTopicUpdate u.known topic msg [item] fun n => clk (pre.length + n))
    rw [halone] at hsolo
    have hhandle : (u.handle [item] topic msg fun n => clk (pre.length + n)).effects
        = (catchAndReport "mqttEventProcessFunc"
            (processDevice s.known topic msg (clk pre.length) item)).effects := by
      rw [← halone]
      rfl
    rw [hhandle]
    rcases hsolo with heq | ⟨descr, heq⟩
    · rw [heq]
      exact hnext
    · rw [heq, Bridge.performAll_append]
      exact hnext.report _ _

/-- The pass of the watchdog for another device does not concern this one. -/
lemma filter_concerns_watchdogEffects (hsep : Separate pre item post) {itrTime : ℤ} {name : Str}
    (hne : name ≠ item.devName) (items : KeyedMap Str DevServiceBlk) :
    (watchdogEffects (pre ++ item :: post) itrTime items name).filter (Concerns item) = [] := by
  rw [List.filter_eq_nil_iff]
  intro e he
  rcases mem_watchdogEffects he with ⟨v, rfl⟩ | ⟨t, rfl⟩ | ⟨topic, rfl⟩
  · exact fun hconcerns => hne (of_decide_eq_true hconcerns)
  · exact fun hconcerns => hne (of_decide_eq_true hconcerns)
  · obtain ⟨r, hr, rfl, rfl⟩ := setTopic_mem_watchdogEffects he
    have hother : r ∈ pre ++ post := by
      have hr' : r ≠ item := fun heq => hne (congrArg (·.devName) heq)
      simpa [hr'] using hr
    have hstatus : cStr r.statusMqttTopic ∈ r.setTopics := List.mem_cons_self
    exact fun hconcerns => hsep.setTopics r hother hstatus (List.contains_iff_mem.mp hconcerns)

lemma concerns_of_mem_watchdogPass {itrTime : ℤ} {blk : DevServiceBlk}
    (h : e ∈ watchdogPass item itrTime item.devName blk) : Concerns item e = true := by
  rcases mem_watchdogPass h with ⟨v, rfl⟩ | ⟨t, rfl⟩ | rfl
  · exact decide_eq_true rfl
  · exact decide_eq_true rfl
  · exact List.contains_iff_mem.mpr List.mem_cons_self

lemma Projects.tick (hsep : Separate pre item post) (h : Projects item s u) (itrTime : ℤ)
    {order : List Str} (horder : s.deviceItems.IterationOrder order) :
    u.deviceItems.IterationOrder [item.devName] ∧
    Projects item (processDeviceList (pre ++ item :: post) itrTime order s)
      (processDeviceList [item] itrTime [item.devName] u) := by
  have hknown : u.known item.devName = true := by rw [h.known, beq_self_eq_true]
  obtain ⟨blk, hu⟩ := Option.isSome_iff_exists.mp hknown
  have hs : s.deviceItems item.devName = some blk := h.block ▸ hu
  constructor
  · refine ⟨List.nodup_singleton _, fun name => ?_⟩
    have hname : (u.deviceItems name).isSome = (name == item.devName) := h.known name
    simp [hname]
  · have hpart : (order.flatMap (watchdogEffects (pre ++ item :: post) itrTime
        s.deviceItems)).filter (Concerns item) = watchdogPass item itrTime item.devName blk := by
      have hmem : item.devName ∈ order := (horder.mem_iff _).mpr (by rw [hs]; rfl)
      obtain ⟨l₁, l₂, rfl⟩ := List.append_of_mem hmem
      have hnotin := (List.nodup_cons.mp (List.nodup_middle.mp horder.nodup)).1
      have hother : ∀ l : List Str, item.devName ∉ l → (l.flatMap (watchdogEffects
          (pre ++ item :: post) itrTime s.deviceItems)).filter (Concerns item) = [] := by
        intro l hl
        rw [List.filter_flatMap, List.flatMap_eq_nil_iff]
        intro name hname
        exact filter_concerns_watchdogEffects hsep (fun heq => hl (heq ▸ hname)) _
      rw [List.flatMap_append, List.flatMap_cons, List.filter_append, List.filter_append,
        hother l₁ fun hl => hnotin (List.mem_append_left _ hl),
        hother l₂ fun hl => hnotin (List.mem_append_right _ hl), List.nil_append, List.append_nil,
        watchdogEffects_of_getGwtItem (getGwtItem_self hsep.devName) hs]
      exact List.filter_eq_self.mpr fun _ => concerns_of_mem_watchdogPass
    have hitem : getGwtItem [item] item.devName = some item := by simp [getGwtItem]
    have halone : processDeviceList [item] itrTime [item.devName] u
        = u.performAll (watchdogPass item itrTime item.devName blk) := by
      rw [processDeviceList_eq (List.nodup_singleton _), List.flatMap_singleton,
        watchdogEffects_of_getGwtItem hitem hu]
    rw [processDeviceList_eq horder.nodup, halone, ← hpart]
    exact h.performAll _

lemma Projects.step (hsep : Separate pre item post) {e : Event}
    (hstep : Step (pre ++ item :: post) s e s') (h : Projects item s u) :
    ∃ u', Step [item] u (e.alone pre item) u' ∧ Projects item s' u' := by
  cases hstep with
  | tick itrTime horder =>
    obtain ⟨horder', hnext⟩ := h.tick hsep itrTime horder
    exact ⟨_, .tick itrTime horder', hnext⟩
  | update topic msg clk hdefined =>
    obtain ⟨hdefined', hnext⟩ := h.update hsep topic msg clk hdefined
    exact ⟨_, .update topic msg _ hdefined', hnext⟩
  | connect =>
    refine ⟨_, .connect u, h.block, h.known, ?_, h.published⟩
    rw [h.mqtt]
  | disconnect =>
    refine ⟨_, .disconnect u, h.block, h.known, ?_, h.published⟩
    rw [h.mqtt]

/-! ### Runs -/

lemma Projects.started (hsep : Separate pre item post) (clk : ℕ → ℤ) (mqtt : CMqttConnection) :
    Projects item (.started (pre ++ item :: post) clk mqtt)
      (.started [item] (fun n => clk (pre.length + n)) mqtt) where
  block := by
    have hfirst := @createDeviceList_first item pre post clk
      fun r hr => hsep.devName r (List.mem_append_left _ hr)
    have halone := @createDeviceList_first item [] [] (fun n => clk (pre.length + n)) (by simp)
    exact halone.trans hfirst.symm
  known := by
    intro name
    by_cases hname : name = item.devName
    · subst hname
      rw [beq_self_eq_true]
      exact isSome_createDeviceList _ _ (List.mem_singleton_self item)
    · have hnone : (Bridge.started [item] (fun n => clk (pre.length + n)) mqtt).deviceItems name
          = none := createDeviceList_of_ne _ _ (by simpa using Ne.symm hname)
      simp [Bridge.known, hnone, hname]
  mqtt := rfl
  published := rfl

/-- In every run of the bridge, a separate device has the block, and is the cause of the
publications, that it would have in a bridge of its own to which the same has happened. -/
theorem alone_of_run (hsep : Separate pre item post) {mqtt : CMqttConnection}
    {tr : List (Bridge × Event)}
    (hrun : Run (Step (pre ++ item :: post)) (.started (pre ++ item :: post) clk mqtt) tr s) :
    ∃ tr' u, Run (Step [item]) (.started [item] (fun n => clk (pre.length + n)) mqtt) tr' u ∧
      tr'.map (·.2) = tr.map (fun p => p.2.alone pre item) ∧
      u.deviceItems item.devName = s.deviceItems item.devName ∧ u.mqtt = s.mqtt ∧
      u.published = s.published.filter fun p => p.1 ∈ item.setTopics := by
  obtain ⟨tr', u, hrun', htr, hu⟩ :=
    hrun.simulate (fun hst h => Projects.step hsep hst h) (Projects.started hsep clk mqtt)
  exact ⟨tr', u, hrun', htr, hu.block, hu.mqtt, hu.published⟩

/-! ### The lamp without the button -/

lemma separate_lamp : Separate [button] lamp [] where
  devName := by decide
  setTopics := by
    intro r hr
    obtain rfl := List.mem_singleton.mp hr
    simp only [List.Disjoint]
    decide
  heard := by decide

/-- The button is pressed, and its value comes back to the lamp. -/
theorem alone_of_run_lamp :
    ∃ tr s tr' u, Run (Step [button, lamp]) pressed.bridge tr s ∧
      s.published = [(str "room/lamp", str "on"), (str "button/status", str "ok"),
        (str "out", str "3:on")] ∧
      Run (Step [lamp]) lampOnline tr' u ∧ u.published = [(str "out", str "3:on")] := by
  have h₁ : Run (Step [button, lamp]) pressed.bridge _ _ :=
    .single (.update (str "button") (str "on") (fun _ => 0) rfl)
  have h₂ := h₁.append (.single (.update (str "room/lamp") (str "on") (fun _ => 0) rfl))
  obtain ⟨tr', u, hrun, -, -, -, hpublished⟩ := alone_of_run separate_lamp h₂
  exact ⟨_, _, tr', u, h₂, rfl, hrun, hpublished⟩

end WBridge
