import WirelessBridge.Bridge.Payload
import WirelessBridge.Bridge.Pipeline
import WirelessBridge.Bridge.Timing

/-!
# What the bridge relays

The values that a message makes the bridge set depend on the message and the device table, and on
nothing else: not on what the device blocks hold, on the clock, on what came before or on what the
other threads do meanwhile. So the bridge behind its queue translates a stream of messages, one by
one, and leaves out what it sets while the broker is away.
-/

namespace WBridge

open Lib HBE System Mqtt Common

def statusTopics (table : GwtTable) : List Str := table.map fun r => cStr r.statusMqttTopic

/-- The publications on other topics than these, which the watchdog sets too. -/
def relayed (table : GwtTable) (ps : List (Str × Str)) : List (Str × Str) :=
  ps.filter fun p => !(statusTopics table).contains p.1

/-- What the bridge makes of a message when every device has its block. -/
def translation (table : GwtTable) (m : Str × Str) : List (Str × Str) :=
  relayed table (settings (mqttEventProcessFunc (table.map (·.devName)).contains table
    (fun _ => 0) (.topicUpdate m.1 m.2)))

/-- What has been relayed, and what the call for a message that is being handled has still to. -/
def Threads.output (table : GwtTable) (s : Threads) : List (Str × Str) :=
  relayed table (s.bridge.published ++ s.handler.filterMap Effect.setting?)

/-- The broker is lost, or has refused a connection. -/
def ThreadEvent.loses : ThreadEvent → Bool
  | .onDisconnect => true
  | .onConnect rc => rc ≠ 0
  | _ => false

variable {table : GwtTable} {known : Str → Bool} {topic msg : Str} {clk : ℕ → ℤ}
  {r : RouterDeviceItem} {p p' q q' : Routine} {b : Bridge} {d : ThreadEvent} {s t : Threads}
  {es : List Effect}

/-! ### The clock has no part in the values -/

lemma settings_andThen_congr (h : settings p = settings p') (hfault : p.fault = p'.fault)
    (hq : settings q = settings q') : settings (p.andThen q) = settings (p'.andThen q') := by
  by_cases hnone : p.fault = none
  · rw [settings_andThen hnone, settings_andThen (hfault ▸ hnone), h, hq]
  · rw [Performed.andThen_of_fault_ne_none hnone,
      Performed.andThen_of_fault_ne_none (hfault ▸ hnone), h]

lemma settings_processDevice_clock (now now' : ℤ) :
    settings (processDevice known topic msg now r)
      = settings (processDevice known topic msg now' r) := by
  rw [processDevice, processDevice]
  split
  · split
    · exact settings_andThen_congr rfl rfl rfl
    · rfl
  · rfl

lemma fault_processDevice_clock (now now' : ℤ) :
    (processDevice known topic msg now r).fault = (processDevice known topic msg now' r).fault := by
  rw [processDevice, processDevice]
  split
  · split <;> rfl
  · rfl

lemma settings_processTopicUpdate_clock (clk clk' : ℕ → ℤ) :
    settings (processTopicUpdate known topic msg table clk)
      = settings (processTopicUpdate known topic msg table clk') := by
  induction table generalizing clk clk' with
  | nil => rfl
  | cons r rest ih =>
    exact settings_andThen_congr (settings_processDevice_clock _ _)
      (fault_processDevice_clock _ _) (ih _ _)

/-! ### One step -/

lemma known_started (clk : ℕ → ℤ) (mqtt : CMqttConnection) :
    (Bridge.started table clk mqtt).known = (table.map (·.devName)).contains := by
  funext name
  by_cases hname : name ∈ table.map (·.devName)
  · rw [List.contains_iff_mem.mpr hname]
    obtain ⟨r, hr, rfl⟩ := List.mem_map.mp hname
    exact isSome_createDeviceList _ _ hr
  · have hnone : (Bridge.started table clk mqtt).deviceItems name = none :=
      createDeviceList_of_ne _ _ fun r hr heq => hname (heq ▸ List.mem_map_of_mem hr)
    have hcontains : (table.map (·.devName)).contains name = false := by simpa using hname
    rw [hcontains, Bridge.known, hnone]
    rfl

lemma relayed_handle (hknown : b.known = (table.map (·.devName)).contains) :
    relayed table (settings (b.handle table topic msg clk)) = translation table (topic, msg) := by
  rw [translation, Bridge.handle, hknown, mqttEventProcessFunc, mqttEventProcessFunc,
    settings_catchAndReport, settings_catchAndReport,
    settings_processTopicUpdate_clock clk fun _ => 0]

lemma relayed_append (ps qs : List (Str × Str)) :
    relayed table (ps ++ qs) = relayed table ps ++ relayed table qs := List.filter_append ..

lemma setTopic_mem_watchdogStep {item : RouterDeviceItem} {itrTime : ℤ} {name : Str}
    {blk : DevServiceBlk} {point : TickPoint}
    (h : .setTopic topic msg ∈ (watchdogStep item itrTime name blk point).2) :
    item.statusMqttTopic = topic := by
  cases point with
  | announce => exact (Effect.setTopic.inj (List.mem_singleton.mp h)).1.symm
  | readDeadline | compare | done => cases h
  | increment | writeDeadline | incrementPast => cases List.mem_singleton.mp h

lemma setTopic_mem_next {items : KeyedMap Str DevServiceBlk} {w : Watch}
    (h : .setTopic topic msg ∈ (w.next table items).2) :
    ∃ r ∈ table, r.statusMqttTopic = topic := by
  simp only [Watch.next] at h
  split at h
  · cases h
  · split at h
    · rename_i hitem
      exact ⟨_, List.mem_of_find?_eq_some hitem, setTopic_mem_watchdogStep h⟩
    · cases h

/-- What the watchdog sets is on status topics. -/
lemma relayed_of_next {items : KeyedMap Str DevServiceBlk} {w w' : Watch}
    (h : w.next table items = (w', es)) : relayed table (es.filterMap Effect.setting?) = [] := by
  refine List.filter_eq_nil_iff.mpr fun p hp => ?_
  obtain ⟨e, he, hset⟩ := List.mem_filterMap.mp hp
  cases e with
  | setTopic topic v =>
    obtain rfl := Option.some.inj hset
    obtain ⟨r, hr, rfl⟩ := setTopic_mem_next (by rw [h]; exact he)
    have hmem : cStr r.statusMqttTopic ∈ statusTopics table := List.mem_map_of_mem hr
    simpa using hmem
  | spentAttempt | timeToAttempt | report => cases hset

/-- A step of the threads takes a message into the output, and otherwise leaves the output as it is,
unless it sets a value without the broker. -/
lemma ThreadStep.output_eq (h : ThreadStep table s d t)
    (hknown : s.bridge.known = (table.map (·.devName)).contains)
    (hconn : d = .effect → .connected = s.bridge.mqtt.connStatus) :
    t.output table = s.output table ++ d.message?.toList.flatMap (translation table) := by
  cases h with
  | handle topic msg clk hidle hdefined =>
    have htranslation := @relayed_handle table topic msg clk s.bridge hknown
    rw [settings] at htranslation
    simp only [Threads.output, hidle, relayed_append, htranslation]
    simp [relayed, ThreadEvent.message?]
  | @effect e rest h =>
    have hpublished := Bridge.published_performAll s.bridge [e]
    rw [if_pos (hconn rfl), Bridge.performAll_cons, Bridge.performAll_nil] at hpublished
    simp only [Threads.output, hpublished, h]
    cases hset : e.setting? <;> simp [hset, ThreadEvent.message?]
  | tick => simp [Threads.output, ThreadEvent.message?]
  | @watch i w es hbusy hnext =>
    have hnone : relayed table (if .connected = s.bridge.mqtt.connStatus
        then es.filterMap Effect.setting? else []) = [] := by
      split
      · exact relayed_of_next hnext
      · rfl
    simp only [Threads.output, Bridge.published_performAll, relayed_append, hnone]
    simp [ThreadEvent.message?]
  | onConnect | onDisconnect => simp [Threads.output, ThreadEvent.message?]

/-- What is set without the broker is left out. -/
lemma ThreadStep.output_sublist (h : ThreadStep table s d t)
    (hknown : s.bridge.known = (table.map (·.devName)).contains) :
    (t.output table).Sublist
      (s.output table ++ d.message?.toList.flatMap (translation table)) := by
  by_cases hconn : d = .effect → .connected = s.bridge.mqtt.connStatus
  · rw [h.output_eq hknown hconn]
  · obtain ⟨rfl, haway⟩ := Classical.not_imp.mp hconn
    cases h with
    | @effect e rest h =>
      have hpublished := Bridge.published_performAll s.bridge [e]
      rw [if_neg haway, Bridge.performAll_cons, Bridge.performAll_nil] at hpublished
      simp only [Threads.output, hpublished, h, List.append_nil, ThreadEvent.message?,
        Option.toList_none, List.flatMap_nil]
      refine List.Sublist.filter _ (List.Sublist.append_left ?_ _)
      exact (List.sublist_cons_self e rest).filterMap _

lemma ThreadStep.connected (h : ThreadStep table s d t) (hd : d.loses = false)
    (hconn : .connected = s.bridge.mqtt.connStatus) : .connected = t.bridge.mqtt.connStatus := by
  cases h with
  | handle | tick => exact hconn
  | effect =>
    rw [Bridge.mqtt_perform]
    exact hconn
  | watch =>
    rw [Bridge.mqtt_performAll]
    exact hconn
  | onConnect rc =>
    obtain rfl : rc = 0 := by simpa [ThreadEvent.loses] using hd
    rfl
  | onDisconnect => cases hd

/-! ### Whole runs -/

section

variable {tr : List (Threads × ThreadEvent)}
  (hknown : s.bridge.known = (table.map (·.devName)).contains)
include hknown

lemma output_sublist_of_run (hrun : Run (ThreadStep table) s tr t) :
    (t.output table).Sublist (s.output table ++ (begun tr).flatMap (translation table)) := by
  induction hrun with
  | nil s => simp [begun]
  | @cons s u t d tr hstep _ ih =>
    rw [begun_cons, List.flatMap_append, ← List.append_assoc]
    exact (ih (hstep.known_eq.trans hknown)).trans
      (List.Sublist.append_right (hstep.output_sublist hknown) _)

lemma output_eq_of_run (hrun : Run (ThreadStep table) s tr t)
    (hconn : .connected = s.bridge.mqtt.connStatus) (hstays : ∀ p ∈ tr, p.2.loses = false) :
    t.output table = s.output table ++ (begun tr).flatMap (translation table) := by
  induction hrun with
  | nil s => simp [begun]
  | @cons s u t d tr hstep _ ih =>
    obtain ⟨hd, hrest⟩ := List.forall_mem_cons.mp hstays
    rw [ih (hstep.known_eq.trans hknown) (hstep.connected hd hconn) hrest,
      hstep.output_eq hknown fun _ => hconn, begun_cons, List.flatMap_append, List.append_assoc]

end

/-- In any interleaving, what has been relayed, what is about to be, and the translation of what
waits are a part of the translation of all that has arrived, message by message and in its order.
Unless the broker is lost, they are the whole of it. -/
theorem relayed_of_run {mqtt : CMqttConnection} {tr : List (Pipeline × PipelineEvent)}
    {s : Pipeline} (hrun : Run (PipelineStep table) (.start (.started table clk mqtt)) tr s) :
    (s.threads.output table ++ s.waiting.flatMap (translation table)).Sublist
      ((arrived tr).flatMap (translation table)) ∧
    (mqtt.connStatus = .connected → (∀ p ∈ threadSteps tr, p.2.loses = false) →
      s.threads.output table ++ s.waiting.flatMap (translation table)
        = (arrived tr).flatMap (translation table)) := by
  have hsteps := run_threadSteps hrun
  have harrived : (arrived tr).flatMap (translation table)
      = (begun (threadSteps tr)).flatMap (translation table)
        ++ s.waiting.flatMap (translation table) := by
    rw [← List.flatMap_append]
    exact congrArg (List.flatMap (translation table)) (waiting_of_run hrun)
  rw [harrived]
  constructor
  · exact List.Sublist.append_right (output_sublist_of_run (known_started clk mqtt) hsteps) _
  · intro hconn hstays
    rw [output_eq_of_run (known_started clk mqtt) hsteps hconn.symm hstays]
    rfl

/-- One value of a message is relayed and one is about to be; another message waits in the queue. -/
theorem relayed_of_run_room :
    ∃ tr s, Run (PipelineStep roomTable) roomStart tr s ∧
      arrived tr = [(str "in", str "0,50"), (str "in", str "1,70")] ∧
      s.threads.bridge.published = [(str "room", str "50")] ∧
      s.threads.output roomTable = [(str "room", str "50"), (str "room", str "down")] ∧
      s.waiting = [(str "in", str "1,70")] ∧
      s.threads.output roomTable ++ s.waiting.flatMap (translation roomTable)
        = (arrived tr).flatMap (translation roomTable) := by
  have h₁ : Run (PipelineStep roomTable) roomStart _ _ :=
    .single (.message rfl (rfl : onMessage (.ofPayload (str "in") (str "0,50")) = .ok _))
  have h₂ := h₁.append (.single (.call rfl))
  have h₃ := h₂.append (.single (.listen (e := .test) rfl nofun (.test rfl) rfl))
  have h₄ := h₃.append (.single (.listen (e := .lockHolder) rfl nofun (.lockHolder rfl) rfl))
  have h₅ := h₄.append (.single (.listen (e := .consume) rfl nofun
    (.consume rfl (by exact List.cons_ne_nil _ _)) rfl))
  have h₆ := h₅.append (.single (.handle (fun _ => 0) (.dispatch rfl) rfl rfl))
  have h₇ := h₆.append (.single (.threads rfl (.effect rfl)))
  have h₈ := h₇.append (.single (.threads rfl (.effect rfl)))
  have h₉ := h₈.append (.single (.message rfl
    (rfl : onMessage (.ofPayload (str "in") (str "1,70")) = .ok _)))
  have h₁₀ := h₉.append (.single (.threads rfl (.effect rfl)))
  have h₁₁ := h₁₀.append (.single (.call rfl))
  obtain ⟨-, hall⟩ := relayed_of_run h₁₁
  refine ⟨_, _, h₁₁, rfl, rfl, rfl, rfl, hall rfl ?_⟩
  intro p hp
  have hmem : p.2.loses ∈ List.replicate 4 false :=
    List.mem_map_of_mem (f := fun p => p.2.loses) hp
  exact List.eq_of_mem_replicate hmem

end WBridge
