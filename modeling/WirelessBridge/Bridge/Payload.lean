import WirelessBridge.Bridge.Step

/-!
# The way of a payload

A payload comes in as a pointer and a length, is read as a C string, waits in the event queue as
a `std::string`, and goes out as a pointer and a size. Only the second of these representations
loses anything.
-/

namespace WBridge

open Lib HBE System Mqtt

/-- A message from mosquitto, handled once its event has come through the queue. When the
exception for a null payload leaves `on_message` there is no event. -/
def Bridge.receive (table : GwtTable) (clk : ℕ → ℤ) (s : Bridge) (m : MosquittoMessage) : Bridge :=
  match onMessage m with
  | .ok (.sendEvent ev) => s.performAll (mqttEventProcessFunc s.known table clk ev).effects
  | _ => s

/-- What a routine sets: values, and topics as mosquitto gets them. -/
def settings (p : Routine) : List (Str × Str) := p.effects.filterMap Effect.setting?

/-- Where the handling of a message comes to output channel `c` of the entry `r`: behind what the
entries `pre` and the channels `cpre` have set. The value set there has the bytes of the payload,
after the number of the channel. -/
def PublishedAsSent (pre : GwtTable) (r : RouterDeviceItem) (post : GwtTable)
    (cpre : List RouterDeviceChannel) (c : RouterDeviceChannel) (clk : ℕ → ℤ) (s : Bridge)
    (topic payload : Str) : Prop :=
  let before := (processTopicUpdate s.known c.mqttTopic (cStr payload) pre clk).andThen
    (updateOutputs r c.mqttTopic (cStr payload) cpre)
  ∃ rest, (s.receive (pre ++ r :: post) clk (.ofPayload topic payload)).published
    = s.published ++ settings before ++
      (cStr r.outputMqttTopic, decimal c.number.toNat ++ str ":" ++ payload) :: rest

variable {pre post : GwtTable} {r : RouterDeviceItem} {cpre cpost cs : List RouterDeviceChannel}
  {c : RouterDeviceChannel} {clk : ℕ → ℤ} {s : Bridge} {topic msg payload : Str} {p q : Routine}

/-! ### Settings of a sequence -/

lemma settings_andThen (h : p.fault = none) : settings (p.andThen q) = settings p ++ settings q := by
  simp [settings, Performed.andThen_of_fault_eq_none h]

lemma settings_catchAndReport (func : String) (p : Routine) :
    settings (catchAndReport func p) = settings p := by
  simp only [catchAndReport]
  split
  · simp [settings, Effect.setting?]
  · rfl

/-! ### The output channels of an entry -/

lemma updateOutputs_append
    (h : ∀ c' ∈ cpre, ¬ (topic = c'.mqttTopic ∧ c'.valueMapping ≠ [])) :
    updateOutputs r topic msg (cpre ++ cs)
      = (updateOutputs r topic msg cpre).andThen (updateOutputs r topic msg cs) := by
  induction cpre with
  | nil => rfl
  | cons c' rest ih =>
    obtain ⟨hc', hrest⟩ := List.forall_mem_cons.mp h
    simp only [List.cons_append, updateOutputs]
    split
    · rename_i hmatch
      have hplain : ¬ c'.valueMapping ≠ [] := fun hmap => hc' ⟨hmatch.1, hmap⟩
      rw [if_neg hplain, if_neg hplain, ih hrest, Performed.andThen_assoc]
    · exact ih hrest

lemma updateOutputs_plain (hplain : c.valueMapping = []) (hout : r.outputMqttTopic ≠ [])
    (cs : List RouterDeviceChannel) :
    updateOutputs r c.mqttTopic msg (c :: cs)
      = (Performed.does (.setTopic r.outputMqttTopic
          (decimal c.number.toNat ++ str ":" ++ msg))).andThen
            (updateOutputs r c.mqttTopic msg cs) := by
  rw [updateOutputs, if_pos ⟨rfl, hout⟩, if_neg (by simp [hplain])]

/-- The settings of a message that comes to the channel `c`, in their order. -/
lemma settings_processTopicUpdate {known : Str → Bool} (post : GwtTable)
    (hpre : (processTopicUpdate known c.mqttTopic msg pre clk).fault = none)
    (hin : c.mqttTopic ≠ r.inputMqttTopic) (hout : r.outputMqttTopic ≠ [])
    (hchannels : r.outputMapping = cpre ++ c :: cpost)
    (hcpre : ∀ c' ∈ cpre, ¬ (c.mqttTopic = c'.mqttTopic ∧ c'.valueMapping ≠ []))
    (hplain : c.valueMapping = []) :
    ∃ rest, settings (processTopicUpdate known c.mqttTopic msg (pre ++ r :: post) clk)
      = settings ((processTopicUpdate known c.mqttTopic msg pre clk).andThen
          (updateOutputs r c.mqttTopic msg cpre)) ++
        (cStr r.outputMqttTopic, decimal c.number.toNat ++ str ":" ++ msg) :: rest := by
  have hdevice : ∀ now, processDevice known c.mqttTopic msg now r
      = (updateOutputs r c.mqttTopic msg cpre).andThen
          (updateOutputs r c.mqttTopic msg (c :: cpost)) := by
    intro now
    rw [processDevice, if_neg hin, hchannels, updateOutputs_append hcpre]
  rw [processTopicUpdate_append, processTopicUpdate, hdevice, Performed.andThen_assoc,
    settings_andThen hpre, settings_andThen hpre, settings_andThen (updateOutputs_fault ..),
    updateOutputs_plain hplain hout, Performed.andThen_assoc, settings_andThen rfl]
  exact ⟨_, by simp [settings, Effect.setting?]; rfl⟩

/-! ### From end to end -/

lemma published_receive (hconn : s.mqtt.connStatus = .connected) (htopic : cStr topic = c.mqttTopic)
    (hpayload : payload ≠ []) :
    (s.receive (pre ++ r :: post) clk (.ofPayload topic payload)).published
      = s.published ++
        settings (processTopicUpdate s.known c.mqttTopic (cStr payload) (pre ++ r :: post) clk) := by
  simp only [Bridge.receive, onMessage, MosquittoMessage.ofPayload, if_neg hpayload]
  rw [Bridge.published_performAll, hconn, if_pos rfl, htopic]
  exact congrArg (s.published ++ ·) (settings_catchAndReport _ _)

lemma receive_empty (table : GwtTable) (clk : ℕ → ℤ) (s : Bridge) (topic : Str) :
    s.receive table clk (.ofPayload topic []) = s := rfl

/-- A payload comes out of the bridge as it went in just when it is not empty, for which there is
no event, and holds no zero byte, at which it would be cut off. -/
theorem publishedAsSent_iff (hconn : s.mqtt.connStatus = .connected)
    (htopic : cStr topic = c.mqttTopic) (hin : c.mqttTopic ≠ r.inputMqttTopic)
    (hout : r.outputMqttTopic ≠ []) (hchannels : r.outputMapping = cpre ++ c :: cpost)
    (hplain : c.valueMapping = [])
    (hcpre : ∀ c' ∈ cpre, ¬ (c.mqttTopic = c'.mqttTopic ∧ c'.valueMapping ≠ []))
    (hpre : payload ≠ [] →
      (processTopicUpdate s.known c.mqttTopic (cStr payload) pre clk).fault = none) :
    PublishedAsSent pre r post cpre c clk s topic payload ↔ payload ≠ [] ∧ 0 ∉ payload := by
  by_cases hpayload : payload = []
  · subst hpayload
    simp only [PublishedAsSent, receive_empty, ne_eq, not_true_eq_false, false_and, iff_false]
    rintro ⟨rest, heq⟩
    have hlen := congrArg List.length heq
    simp at hlen
  · obtain ⟨rest, hsettings⟩ :=
      settings_processTopicUpdate post (hpre hpayload) hin hout hchannels hcpre hplain
    have hbytes : PublishedAsSent pre r post cpre c clk s topic payload ↔ cStr payload = payload := by
      simp only [PublishedAsSent, published_receive hconn htopic hpayload, hsettings,
        List.append_assoc, List.append_cancel_left_eq, List.cons.injEq, Prod.mk.injEq, true_and,
        exists_and_left, exists_eq', and_true]
    rw [hbytes, cStr_eq_self]
    exact (and_iff_right hpayload).symm

/-! ### A lamp -/

/-- One output channel, number 3, without value mapping. -/
def lampChannel : RouterDeviceChannel := ⟨3, str "lamp", str "room/lamp", true, []⟩

def lamp : RouterDeviceItem where
  devName := str "lamp"
  inputMqttTopic := str "in"
  outputMqttTopic := str "out"
  statusMqttTopic := str "status"
  nodeTimeoutInSec := 60
  nodeConnectionAttempt := 3
  inputMapping := []
  outputMapping := [lampChannel]

def lampOnline : Bridge := .started [lamp] (fun _ => 0) ⟨.connected, []⟩

theorem publishedAsSent_lamp :
    PublishedAsSent [] lamp [] [] lampChannel (fun _ => 0) lampOnline (str "room/lamp")
      (str "on") :=
  (publishedAsSent_iff rfl (by decide) (by decide) (by decide) rfl rfl (by simp)
    fun _ => rfl).mpr (by decide)

/-- The empty payload, with which a retained message is cleared, never gets to the lamp. -/
theorem not_publishedAsSent_empty :
    ¬ ∀ (pre : GwtTable) (r : RouterDeviceItem) (post : GwtTable)
        (cpre cpost : List RouterDeviceChannel) (c : RouterDeviceChannel) (clk : ℕ → ℤ)
        (s : Bridge) (topic payload : Str),
        s.mqtt.connStatus = .connected → cStr topic = c.mqttTopic →
        c.mqttTopic ≠ r.inputMqttTopic → r.outputMqttTopic ≠ [] →
        r.outputMapping = cpre ++ c :: cpost → c.valueMapping = [] →
        (∀ c' ∈ cpre, ¬ (c.mqttTopic = c'.mqttTopic ∧ c'.valueMapping ≠ [])) →
        (processTopicUpdate s.known c.mqttTopic (cStr payload) pre clk).fault = none →
        PublishedAsSent pre r post cpre c clk s topic payload := by
  intro hclaim
  obtain ⟨rest, heq⟩ := hclaim [] lamp [] [] [] lampChannel (fun _ => 0) lampOnline
    (str "room/lamp") [] rfl (by decide) (by decide) (by decide) rfl rfl (by simp) rfl
  have hlen := congrArg List.length heq
  simp [receive_empty] at hlen

end WBridge
