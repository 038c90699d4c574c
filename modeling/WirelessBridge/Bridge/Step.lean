import WirelessBridge.Bridge.Watchdog
import WirelessBridge.Lib.Run

/-!
# Steps of the bridge

Ticks of the watchdog, messages, and the broker coming and going, each as one atomic step. A
message whose handling reads outside a vector has no step: the language says nothing of what
follows.
-/

namespace WBridge

open Lib HBE System Mqtt

inductive Event where
  | tick (itrTime : ℤ) (order : List Str)
  | update (topic msg : Str) (clk : ℕ → ℤ)
  | connect
  | disconnect

namespace Bridge

/-- The handling of a message in this state. -/
def handle (table : GwtTable) (s : Bridge) (topic msg : Str) (clk : ℕ → ℤ) : Routine :=
  mqttEventProcessFunc s.known table clk (.topicUpdate topic msg)

/-- The bridge once `startComponent` has created the device blocks, with the connection as it
was found by then. -/
def started (table : GwtTable) (clk : ℕ → ℤ) (mqtt : CMqttConnection) : Bridge :=
  ⟨createDeviceList table clk KeyedMap.empty, mqtt, [], []⟩

end Bridge

inductive Step (table : GwtTable) : Bridge → Event → Bridge → Prop where
  | tick {s : Bridge} (itrTime : ℤ) {order : List Str}
      (horder : s.deviceItems.IterationOrder order) :
      Step table s (.tick itrTime order) (processDeviceList table itrTime order s)
  | update {s : Bridge} (topic msg : Str) (clk : ℕ → ℤ)
      (hdefined : (s.handle table topic msg clk).fault = none) :
      Step table s (.update topic msg clk) (s.performAll (s.handle table topic msg clk).effects)
  | connect (s : Bridge) : Step table s .connect { s with mqtt := (onConnect s.mqtt 0).1 }
  | disconnect (s : Bridge) : Step table s .disconnect { s with mqtt := (onDisconnect s.mqtt).1 }

variable {table : GwtTable} {s t : Bridge} {e : Event} {tr : List (Bridge × Event)}

/-! ### Effects of a handled message -/

lemma mem_effects_catchAndReport {func : String} {p : Routine} {e : Effect}
    (h : e ∈ (catchAndReport func p).effects) :
    e ∈ p.effects ∨ ∃ descr, e = .report .componentLevel descr := by
  simp only [catchAndReport] at h
  split at h
  · rcases List.mem_append.mp h with h | h
    · exact .inl h
    · exact .inr ⟨_, List.mem_singleton.mp h⟩
  · exact .inl h

lemma mem_handle {topic msg : Str} {clk : ℕ → ℤ} {e : Effect}
    (h : e ∈ (s.handle table topic msg clk).effects) :
    (∃ n r, table[n]? = some r ∧ e ∈ (processDevice s.known topic msg (clk n) r).effects) ∨
      ∃ descr, e = .report .componentLevel descr := by
  rcases mem_effects_catchAndReport h with h | h
  · exact .inl (mem_processTopicUpdate h)
  · exact .inr h

/-! ### Which devices have a block never changes -/

lemma Step.known_eq (h : Step table s e t) : t.known = s.known := by
  cases h with
  | tick itrTime horder => rw [processDeviceList_eq horder.nodup, Bridge.known_performAll]
  | update topic msg clk hdefined => rw [Bridge.known_performAll]
  | connect => rfl
  | disconnect => rfl

lemma known_eq_of_run (h : Run (Step table) s tr t) : t.known = s.known :=
  h.invariant (fun hst ha => hst.known_eq.trans ha) rfl

/-! ### A single device -/

/-- A device with a ten second timeout and one connection attempt, and no channels. -/
def station : RouterDeviceItem where
  devName := str "station"
  inputMqttTopic := str "in"
  outputMqttTopic := []
  statusMqttTopic := str "status"
  nodeTimeoutInSec := 10
  nodeConnectionAttempt := 1
  inputMapping := []
  outputMapping := []

/-- The bridge of this device alone, started at time 0. -/
abbrev stationStarted : Bridge := .started [station] (fun _ => 0) .init

abbrev stationTick (itrTime : ℤ) : Event := .tick itrTime [station.devName]

lemma known_stationStarted : stationStarted.known = fun name => name == station.devName := by
  funext name
  by_cases h : name = station.devName
  · subst h
    rfl
  · have hnone : stationStarted.deviceItems name = none :=
      createDeviceList_of_ne _ _ (by simpa using Ne.symm h)
    simp [Bridge.known, hnone, h]

/-- In whatever state it comes to, the one device is all there is to go over. -/
lemma Step.tick_station {tr : List (Bridge × Event)} {s : Bridge} (itrTime : ℤ)
    (hrun : Run (Step [station]) stationStarted tr s) :
    Step [station] s (stationTick itrTime)
      (processDeviceList [station] itrTime [station.devName] s) := by
  have hknown : s.known = fun name => name == station.devName :=
    (known_eq_of_run hrun).trans known_stationStarted
  refine .tick itrTime ⟨List.nodup_singleton _, fun name => ?_⟩
  have hname : (s.deviceItems name).isSome = (name == station.devName) := congrFun hknown name
  simp [hname]

end WBridge
