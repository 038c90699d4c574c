import WirelessBridge.Bridge.Locality
import WirelessBridge.Lib.Cascade

/-!
# The bridge and its echo

A broker hands a publication to every client that has subscribed its topic, also to the one it came
from. What the bridge sets on a topic that it listens to comes back to it as a message, and may have
it set another topic. Whether that comes to an end is a matter of the device table.
-/

namespace WBridge

open Lib HBE System Mqtt

/-- The topics that `mqttSubscribe` subscribes. -/
def mqttSubscribe (table : GwtTable) : List Str :=
  table.flatMap fun r =>
    r.inputMqttTopic :: ((r.inputMapping ++ r.outputMapping).filter (·.mqttSubscribe)).map
      (·.mqttTopic)

/-- The topics that a message is compared with. -/
def heard (table : GwtTable) : List Str :=
  table.flatMap fun r => r.inputMqttTopic :: r.outputMapping.map (·.mqttTopic)

/-- What one message can set at most. -/
def fanOut (table : GwtTable) : ℕ :=
  (table.map fun r => r.inputMapping.length + r.outputMapping.length + 1).sum

/-- The topics that the pass for an entry can set. -/
def RouterDeviceItem.answers (r : RouterDeviceItem) (topic : Str) : List Str :=
  if topic = r.inputMqttTopic then r.statusMqttTopic :: r.inputMapping.map (·.mqttTopic)
  else if r.outputMqttTopic ≠ [] ∧ topic ∈ r.outputMapping.map (·.mqttTopic) then
    [r.outputMqttTopic]
  else []

/-- A message on `a` can make the bridge set `b`, from where it comes back. `delivers` holds of the
topics that some subscription of the bridge covers. -/
def Feeds (table : GwtTable) (delivers : Str → Bool) (a b : Str) : Prop :=
  delivers b = true ∧ ∃ r ∈ table, b ∈ (r.answers a).map cStr

/-- Every message on `a` has the bridge set `b`, from where it comes back: `a` is no input topic,
and of the channels of some entry the first on `a` has no value mapping. -/
def Relays (table : GwtTable) (delivers : Str → Bool) (a b : Str) : Prop :=
  delivers b = true ∧ (∀ r ∈ table, r.inputMqttTopic ≠ a) ∧
    ∃ r ∈ table, b = cStr r.outputMqttTopic ∧ r.outputMqttTopic ≠ [] ∧
      ∃ c ∈ r.outputMapping.find? fun c => a = c.mqttTopic, ¬ c.Mapped

/-! ### The bridge at its broker -/

/-- The bridge, and the messages on their way to it, in the broker or in the event queue. -/
structure Loop where
  bridge : Bridge
  pending : List (Str × Str)

/-- What has been published between two states and comes back. -/
def echo (delivers : Str → Bool) (s t : Bridge) : List (Str × Str) :=
  (t.published.drop s.published.length).filter fun p => delivers p.1

inductive LoopEvent where
  | deliver (m : Str × Str) (clk : ℕ → ℤ)
  | arrive (ms : List (Str × Str))
  | other (e : Event) (echoed : List (Str × Str))

def Event.IsUpdate : Event → Prop
  | .update .. => True
  | _ => False

/-- Pending messages may be handled in any order. Others put in messages as they like, the retained
ones of the broker included, and so does the watchdog. -/
inductive LoopStep (table : GwtTable) (delivers : Str → Bool) : Loop → LoopEvent → Loop → Prop where
  | deliver {s : Loop} {pre post : List (Str × Str)} {m : Str × Str} (clk : ℕ → ℤ)
      (h : s.pending = pre ++ m :: post)
      (hdefined : m.2 ≠ [] → (s.bridge.handle table (cStr m.1) (cStr m.2) clk).fault = none) :
      LoopStep table delivers s (.deliver m clk)
        ⟨s.bridge.receive table clk (.ofPayload m.1 m.2),
          pre ++ post ++ echo delivers s.bridge (s.bridge.receive table clk (.ofPayload m.1 m.2))⟩
  | arrive (s : Loop) (ms : List (Str × Str)) :
      LoopStep table delivers s (.arrive ms) ⟨s.bridge, s.pending ++ ms⟩
  | other {s : Loop} {e : Event} {t : Bridge} (he : ¬ e.IsUpdate)
      (hstep : Step table s.bridge e t) :
      LoopStep table delivers s (.other e (echo delivers s.bridge t))
        ⟨t, s.pending ++ echo delivers s.bridge t⟩

/-- The event, for the messages that are pending. -/
def LoopEvent.move : LoopEvent → CascadeMove
  | .deliver _ _ => .replace
  | .arrive ms => .insert ms.length
  | .other _ echoed => .insert echoed.length

def deliveries (tr : List (Loop × LoopEvent)) : ℕ := (tr.map (·.2.move.replaced)).sum

/-- The messages that were no answer of the bridge to another one. -/
def arrivals (tr : List (Loop × LoopEvent)) : ℕ := (tr.map (·.2.move.inserted)).sum

variable {table : GwtTable} {delivers : Str → Bool} {known : Str → Bool} {topic msg t : Str}
  {a b : Str} {now : ℤ} {clk : ℕ → ℤ} {r : RouterDeviceItem} {s s' : Loop} {e : LoopEvent}
  {m p : Str × Str} {tr : List (Loop × LoopEvent)}

/-! ### What a message can set, and how much -/

lemma mem_outputSettings_topic {e : Effect} (h : e ∈ outputSettings r topic msg) :
    r.outputMqttTopic ≠ [] ∧ topic ∈ r.outputMapping.map (·.mqttTopic) := by
  rw [outputSettings] at h
  split at h
  · rename_i hout
    obtain ⟨c, hc, -⟩ := List.mem_filterMap.mp h
    obtain ⟨hc, htopic⟩ := List.mem_filter.mp (mem_of_mem_upTo hc)
    have htopic : topic = c.mqttTopic := by simpa using htopic
    exact ⟨hout, htopic ▸ List.mem_map_of_mem hc⟩
  · simp at h

lemma mem_answers {v : Str} (h : .setTopic t v ∈ (processDevice known topic msg now r).effects) :
    t ∈ r.answers topic := by
  rw [processDevice] at h
  rw [RouterDeviceItem.answers]
  split at h
  · rename_i htopic
    rw [if_pos htopic]
    split at h
    · rcases Performed.mem_effects_andThen h with h | ⟨-, h⟩
      · simp [resetBlock, Performed.andThen] at h
      · rcases Performed.mem_effects_andThen h with h | ⟨-, h⟩
        · obtain ⟨c, hc, m, heq⟩ := mem_updateFields h
          obtain ⟨rfl, rfl⟩ := Effect.setTopic.inj heq
          exact List.mem_cons_of_mem _ (List.mem_map_of_mem hc)
        · simp only [Performed.does_effects, List.mem_singleton] at h
          obtain ⟨rfl, rfl⟩ := Effect.setTopic.inj h
          exact List.mem_cons_self
    · simp at h
  · rename_i htopic
    rw [updateOutputs_eq] at h
    obtain ⟨m, heq, -⟩ := mem_outputSettings h
    obtain ⟨rfl, rfl⟩ := Effect.setTopic.inj heq
    rw [if_neg htopic, if_pos (mem_outputSettings_topic h)]
    exact List.mem_singleton_self _

/-- Every value that a message sets is an answer of some entry. -/
lemma mem_settings_handle {s : Bridge} (h : p ∈ settings (s.handle table topic msg clk)) :
    ∃ r ∈ table, p.1 ∈ (r.answers topic).map cStr := by
  obtain ⟨eff, heff, hset⟩ := List.mem_filterMap.mp h
  rcases mem_handle heff with ⟨n, r, hr, heff⟩ | ⟨descr, rfl⟩
  · cases eff with
    | setTopic t v =>
      obtain rfl := Option.some.inj hset
      exact ⟨r, List.mem_of_getElem? hr, List.mem_map_of_mem (mem_answers heff)⟩
    | spentAttempt _ _ => cases hset
    | timeToAttempt _ _ => cases hset
    | report _ _ => cases hset
  · cases hset

lemma length_settings_andThen_le (p q : Routine) :
    (settings (p.andThen q)).length ≤ (settings p).length + (settings q).length := by
  rcases Performed.effects_andThen p q with heq | heq <;> simp [settings, heq]

lemma length_settings_updateFields_le (r : RouterDeviceItem) (msg : Str) :
    (settings (updateFields r msg)).length ≤ r.inputMapping.length := by
  rw [settings, effects_updateFields, inputSettings]
  split
  · refine (List.length_filterMap_le _ _).trans ((List.length_filterMap_le _ _).trans ?_)
    exact (upTo_sublist _ _).length_le
  · exact Nat.zero_le _

lemma length_settings_updateOutputs_le (r : RouterDeviceItem) (topic msg : Str) :
    (settings (updateOutputs r topic msg r.outputMapping)).length ≤ r.outputMapping.length := by
  rw [settings, updateOutputs_eq, outputSettings]
  split
  · refine (List.length_filterMap_le _ _).trans ((List.length_filterMap_le _ _).trans ?_)
    exact ((upTo_sublist _ _).length_le).trans (List.length_filter_le _ _)
  · exact Nat.zero_le _

lemma length_settings_processDevice_le :
    (settings (processDevice known topic msg now r)).length
      ≤ r.inputMapping.length + r.outputMapping.length + 1 := by
  rw [processDevice]
  split
  · split
    · have hfields := length_settings_updateFields_le r msg
      have hrest := length_settings_andThen_le (updateFields r msg)
        (.does (.setTopic r.statusMqttTopic (str "ok")))
      have hall := length_settings_andThen_le (resetBlock r now)
        ((updateFields r msg).andThen (.does (.setTopic r.statusMqttTopic (str "ok"))))
      have hreset : (settings (resetBlock r now)).length = 0 := rfl
      have hstatus : (settings (.does (.setTopic r.statusMqttTopic (str "ok")))).length = 1 := rfl
      omega
    · exact Nat.zero_le _
  · have houtputs := length_settings_updateOutputs_le r topic msg
    omega

lemma length_settings_processTopicUpdate_le :
    (settings (processTopicUpdate known topic msg table clk)).length ≤ fanOut table := by
  induction table generalizing clk with
  | nil => exact Nat.zero_le _
  | cons r rest ih =>
    rw [processTopicUpdate]
    have hfirst := @length_settings_processDevice_le known topic msg (clk 0) r
    have hrest := @ih fun n => clk (n + 1)
    have hall := length_settings_andThen_le (processDevice known topic msg (clk 0) r)
      (processTopicUpdate known topic msg rest fun n => clk (n + 1))
    simp only [fanOut, List.map_cons, List.sum_cons] at hrest ⊢
    omega

/-! ### The echo of a message -/

lemma echo_performAll {t : Bridge} {es : List Effect} :
    echo delivers t (t.performAll es)
      = if .connected = t.mqtt.connStatus then
          (es.filterMap Effect.setting?).filter fun p => delivers p.1
        else [] := by
  rw [echo, Bridge.published_performAll, List.drop_left]
  split <;> simp

/-- What a delivered message brings about. -/
lemma echo_receive (t : Bridge) (m : Str × Str) (clk : ℕ → ℤ) :
    echo delivers t (t.receive table clk (.ofPayload m.1 m.2))
      = if m.2 ≠ [] ∧ .connected = t.mqtt.connStatus then
          (settings (t.handle table (cStr m.1) (cStr m.2) clk)).filter fun p => delivers p.1
        else [] := by
  by_cases hpayload : m.2 = []
  · rw [hpayload, receive_empty, if_neg fun h => h.1 rfl]
    simp [echo]
  · simp only [Bridge.receive, onMessage, MosquittoMessage.ofPayload, if_neg hpayload]
    rw [echo_performAll, ← Bridge.handle]
    simp [hpayload, settings]

lemma feeds_of_mem_echo {t : Bridge}
    (h : p ∈ echo delivers t (t.receive table clk (.ofPayload m.1 m.2))) :
    Feeds table delivers (cStr m.1) (cStr p.1) := by
  rw [echo_receive] at h
  split at h
  · obtain ⟨hp, hdelivers⟩ := List.mem_filter.mp h
    obtain ⟨r, hr, hmem⟩ := mem_settings_handle hp
    have hcStr : cStr p.1 = p.1 := by
      obtain ⟨t, -, ht⟩ := List.mem_map.mp hmem
      rw [← ht, cStr_cStr]
    rw [hcStr]
    exact ⟨hdelivers, r, hr, hmem⟩
  · simp at h

lemma length_echo_le {t : Bridge} :
    (echo delivers t (t.receive table clk (.ofPayload m.1 m.2))).length ≤ fanOut table := by
  rw [echo_receive]
  split
  · refine (List.length_filter_le _ _).trans ?_
    rw [Bridge.handle, mqttEventProcessFunc, settings_catchAndReport]
    exact length_settings_processTopicUpdate_le
  · exact Nat.zero_le _

lemma mem_heard_of_feeds (h : Feeds table delivers a b) : a ∈ heard table := by
  obtain ⟨-, r, hr, hmem⟩ := h
  refine List.mem_flatMap.mpr ⟨r, hr, ?_⟩
  rw [RouterDeviceItem.answers] at hmem
  split at hmem
  · rename_i htopic
    exact htopic ▸ List.mem_cons_self
  · split at hmem
    · rename_i hout
      exact List.mem_cons_of_mem _ hout.2
    · simp at hmem

/-! ### A bridge without cycles -/

def Loop.topics (s : Loop) : List Str := s.pending.map fun m => cStr m.1

/-- The topics of the pending messages are a cascade. -/
lemma LoopStep.cascade (h : LoopStep table delivers s e s') :
    CascadeStep (Feeds table delivers) (fanOut table) s.topics e.move s'.topics := by
  cases h with
  | @deliver pre post m clk h hdefined =>
    simp only [Loop.topics, h, List.map_append, List.map_cons]
    refine .replace ?_ ?_
    · intro b hb
      obtain ⟨p, hp, rfl⟩ := List.mem_map.mp hb
      exact feeds_of_mem_echo hp
    · rw [List.length_map]
      exact length_echo_le
  | arrive ms =>
    simp only [Loop.topics, List.map_append]
    have hstep : CascadeStep (Feeds table delivers) (fanOut table) _ _ _ :=
      .insert (s.pending.map fun m => cStr m.1) (ms.map fun m => cStr m.1)
    rwa [List.length_map] at hstep
  | @other e t he hstep =>
    simp only [Loop.topics, List.map_append]
    have hstep : CascadeStep (Feeds table delivers) (fanOut table) _ _ _ :=
      .insert (s.pending.map fun m => cStr m.1)
        ((echo delivers s.bridge t).map fun m => cStr m.1)
    rwa [List.length_map] at hstep

/-- When no topic feeds itself, in however many steps, every message is answered by a bounded number
of others in all, and the bridge comes to rest when nothing new arrives. -/
theorem deliveries_le (hacyclic : ∀ t, ¬ Relation.TransGen (Feeds table delivers) t t)
    (hrun : Run (LoopStep table delivers) s tr s') :
    deliveries tr + s'.pending.length
      ≤ (fanOut table + 1) ^ (heard table).length * (s.pending.length + arrivals tr) := by
  have hcascade := hrun.map Loop.topics LoopEvent.move LoopStep.cascade
  have hbound := replacements_le hacyclic (fun _ _ => mem_heard_of_feeds) hcascade
  simpa [replacements, insertions, deliveries, arrivals, Loop.topics, Function.comp_def]
    using hbound

/-! ### A bridge with a cycle -/

lemma fault_handle_of_relays (h : Relays table delivers a b) (t : Bridge) (msg : Str)
    (clk : ℕ → ℤ) : (t.handle table a msg clk).fault = none := by
  have hplain : (processTopicUpdate t.known a msg table clk).fault = none :=
    fault_processTopicUpdate_eq_none.mpr fun r hr haborts => h.2.1 r hr haborts.1.1.symm
  rw [Bridge.handle, mqttEventProcessFunc, catchAndReport, hplain]
  exact hplain

/-- A message on a relayed topic comes back on the next one, and it is not empty. -/
lemma exists_echo_of_relays {t : Bridge} (h : Relays table delivers a b) (ha : cStr m.1 = a)
    (hpayload : m.2 ≠ []) (hconn : t.mqtt.connStatus = .connected) (clk : ℕ → ℤ) :
    ∃ p ∈ echo delivers t (t.receive table clk (.ofPayload m.1 m.2)), cStr p.1 = b ∧ p.2 ≠ [] := by
  obtain ⟨hdelivers, hin, r, hr, rfl, hout, c, hc, hplain⟩ := h
  let v := decimal c.number.toNat ++ str ":" ++ cStr m.2
  have hset : outputSetting r (cStr m.2) c = some (.setTopic r.outputMqttTopic v) := by
    simp [outputSetting, outputValue, not_not.mp hplain, v]
  have hmem : .setTopic r.outputMqttTopic v ∈ outputSettings r a (cStr m.2) := by
    rw [outputSettings, if_pos hout]
    refine List.mem_filterMap.mpr ⟨c, mem_upTo_of_mem_head? ?_, hset⟩
    rwa [List.head?_filter]
  have hnone : ∀ r ∈ table, ¬ Aborts t.known a (cStr m.2) r :=
    fun r hr haborts => hin r hr haborts.1.1.symm
  have heffect : .setTopic r.outputMqttTopic v
      ∈ (processTopicUpdate t.known a (cStr m.2) table clk).effects := by
    obtain ⟨n, hn⟩ := List.getElem?_of_mem hr
    refine mem_effects_processTopicUpdate_iff.mpr ⟨n, r, ?_, ?_⟩
    · rwa [upTo_eq_self hnone]
    · rwa [processDevice_of_not_addressed fun haddr => hin r hr haddr.1.symm,
        if_neg fun htopic => hin r hr htopic.symm]
  refine ⟨(cStr r.outputMqttTopic, v), ?_, cStr_cStr _, by simp [v, str]⟩
  rw [echo_receive, if_pos ⟨hpayload, hconn.symm⟩, ha, settings_handle]
  exact List.mem_filter.mpr ⟨List.mem_filterMap.mpr ⟨_, heffect, rfl⟩, hdelivers⟩

/-- The bridge is connected, and a message is on its way that it will relay for ever. -/
def Circulating (table : GwtTable) (delivers : Str → Bool) (s : Loop) : Prop :=
  s.bridge.mqtt.connStatus = .connected ∧
    ∃ m ∈ s.pending, m.2 ≠ [] ∧
      Relation.TransGen (Relays table delivers) (cStr m.1) (cStr m.1)

lemma Circulating.step (h : Circulating table delivers s) :
    ∃ m clk s', LoopStep table delivers s (.deliver m clk) s' ∧ Circulating table delivers s' := by
  obtain ⟨hconn, m, hm, hpayload, hcycle⟩ := h
  obtain ⟨pre, post, hsplit⟩ := List.append_of_mem hm
  obtain ⟨b, hrelays, hback⟩ := Relation.TransGen.head'_iff.mp hcycle
  obtain ⟨p, hp, hb, hpayload'⟩ :=
    exists_echo_of_relays hrelays rfl hpayload hconn fun _ => 0
  refine ⟨m, fun _ => 0, _, .deliver _ hsplit fun _ => fault_handle_of_relays hrelays _ _ _,
    ?_, p, List.mem_append_right _ hp, hpayload', ?_⟩
  · simp only [Bridge.receive, onMessage, MosquittoMessage.ofPayload, if_neg hpayload]
    rw [Bridge.mqtt_performAll, hconn]
  · -- the cycle, begun one topic later
    rw [hb]
    exact Relation.TransGen.tail' hback hrelays

/-- A message on a topic of a cycle keeps the bridge busy without end: however many messages it has
handled, it goes on with its own. -/
theorem endless_of_cycle (h : Circulating table delivers s) (n : ℕ) :
    ∃ tr s', Run (LoopStep table delivers) s tr s' ∧ deliveries tr = n ∧ arrivals tr = 0 ∧
      Circulating table delivers s' := by
  induction n generalizing s with
  | zero => exact ⟨[], s, .nil s, rfl, rfl, h⟩
  | succ n ih =>
    obtain ⟨m, clk, s₁, hstep, h₁⟩ := h.step
    obtain ⟨tr, s', hrun, hdeliveries, harrivals, h'⟩ := ih h₁
    refine ⟨_, s', .cons hstep hrun, ?_, ?_, h'⟩
    · rw [deliveries, List.map_cons, List.sum_cons, ← deliveries, hdeliveries, add_comm]
      rfl
    · rw [arrivals, List.map_cons, List.sum_cons, ← arrivals, harrivals]
      rfl

/-! ### A button and a lamp -/

/-- One input channel, which sets the topic of the lamp. -/
def button : RouterDeviceItem where
  devName := str "button"
  inputMqttTopic := str "button"
  outputMqttTopic := []
  statusMqttTopic := str "button/status"
  nodeTimeoutInSec := 60
  nodeConnectionAttempt := 3
  inputMapping := [⟨0, str "button", str "room/lamp", false, []⟩]
  outputMapping := []

/-- The broker delivers what is subscribed by name. -/
def byName (table : GwtTable) (topic : Str) : Bool := topic ∈ (mqttSubscribe table).map cStr

lemma feeds_buttonAndLamp (h : Feeds [button, lamp] (byName [button, lamp]) a b) :
    a = str "button" ∧ b = str "room/lamp" := by
  obtain ⟨hdelivers, r, hr, hmem⟩ := h
  rw [RouterDeviceItem.answers] at hmem
  rcases List.mem_pair.mp hr with rfl | rfl
  · split at hmem
    · rename_i htopic
      refine ⟨htopic, ?_⟩
      rcases List.mem_pair.mp hmem with rfl | rfl
      · exact absurd hdelivers (by decide)
      · rfl
    · simp [button] at hmem
  · split at hmem
    · obtain rfl := List.mem_singleton.mp hmem
      exact absurd hdelivers (by decide)
    · split at hmem
      · obtain rfl := List.mem_singleton.mp hmem
        exact absurd hdelivers (by decide)
      · simp at hmem

lemma acyclic_buttonAndLamp (t : Str) :
    ¬ Relation.TransGen (Feeds [button, lamp] (byName [button, lamp])) t t := by
  intro hcycle
  obtain ⟨b, hfirst, -⟩ := Relation.TransGen.head'_iff.mp hcycle
  obtain ⟨c, -, hlast⟩ := Relation.TransGen.tail'_iff.mp hcycle
  have hne : str "button" ≠ str "room/lamp" := by decide
  exact hne ((feeds_buttonAndLamp hfirst).1.symm.trans (feeds_buttonAndLamp hlast).2)

/-- A press of the button, on its way to the bridge. -/
def pressed : Loop :=
  ⟨.started [button, lamp] (fun _ => 0) ⟨.connected, []⟩, [(str "button", str "on")]⟩

/-- The press of the button comes back on the topic of the lamp, and that is all. -/
theorem deliveries_le_pressed :
    ∃ tr s', Run (LoopStep [button, lamp] (byName [button, lamp])) pressed tr s' ∧
      deliveries tr = 2 ∧ deliveries tr + s'.pending.length ≤ 5 ^ 3 * (1 + 0) := by
  have h₁ : Run (LoopStep [button, lamp] (byName [button, lamp])) pressed _ _ :=
    .single (@LoopStep.deliver _ _ _ [] [] (str "button", str "on") (fun _ => 0) rfl fun _ => rfl)
  have h₂ := h₁.append
    (.single (@LoopStep.deliver _ _ _ [] [] (str "room/lamp", str "on") (fun _ => 0) rfl
      fun _ => rfl))
  exact ⟨_, _, h₂, rfl, deliveries_le acyclic_buttonAndLamp h₂⟩

/-- A lamp whose node reports on the topic from which it is told. -/
def chattyLamp : RouterDeviceItem := { lamp with outputMqttTopic := str "room/lamp" }

def switchedOn : Loop :=
  ⟨.started [chattyLamp] (fun _ => 0) ⟨.connected, []⟩, [(str "room/lamp", str "on")]⟩

/-- What the bridge tells the lamp it takes for the next thing to tell it. -/
theorem endless_switchedOn :
    ∃ tr s', Run (LoopStep [chattyLamp] (byName [chattyLamp])) switchedOn tr s' ∧
      deliveries tr = 1000 ∧ arrivals tr = 0 ∧
      Circulating [chattyLamp] (byName [chattyLamp]) s' := by
  refine endless_of_cycle ⟨rfl, (str "room/lamp", str "on"), List.mem_singleton_self _, ?_, ?_⟩ 1000
  · exact List.cons_ne_nil _ _
  · refine .single ⟨by decide, by decide, chattyLamp, List.mem_singleton_self _, rfl, ?_,
      lampChannel, rfl, ?_⟩
    · exact List.cons_ne_nil _ _
    · exact not_not.mpr rfl

end WBridge
