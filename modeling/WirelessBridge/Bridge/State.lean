import WirelessBridge.Bridge.Router
import WirelessBridge.Lib.KeyedMap

/-!
# The state of the bridge

The device blocks, the connection, and what has left the bridge so far: the values that reached
the broker, and the reports. Effects act on it one at a time.
-/

namespace WBridge

open Lib HBE System Mqtt

structure DevServiceBlk where
  spentAttempt : UInt32
  timeToAttempt : ℤ
  deriving DecidableEq

structure Bridge where
  deviceItems : KeyedMap Str DevServiceBlk
  mqtt : CMqttConnection
  published : List (Str × Str)
  reports : List (ErrorLevel × Str)

namespace Bridge

/-- Which devices have a block. -/
def known (s : Bridge) (name : Str) : Bool := (s.deviceItems name).isSome

def perform (s : Bridge) : Effect → Bridge
  | .spentAttempt d v =>
    { s with deviceItems := s.deviceItems.modify d fun b => { b with spentAttempt := v } }
  | .timeToAttempt d t =>
    { s with deviceItems := s.deviceItems.modify d fun b => { b with timeToAttempt := t } }
  | .setTopic topic msg =>
    { s with published := s.published ++ (setTopic s.mqtt topic msg).filterMap Call.published? }
  | .report level descr => { s with reports := s.reports ++ [(level, descr)] }

def performAll (s : Bridge) (es : List Effect) : Bridge := es.foldl perform s

@[simp] lemma performAll_nil (s : Bridge) : s.performAll [] = s := rfl

@[simp] lemma performAll_cons (s : Bridge) (e : Effect) (es : List Effect) :
    s.performAll (e :: es) = (s.perform e).performAll es := rfl

lemma performAll_append (s : Bridge) (es es' : List Effect) :
    s.performAll (es ++ es') = (s.performAll es).performAll es' := by
  simp [performAll]

@[simp] lemma mqtt_perform (s : Bridge) (e : Effect) : (s.perform e).mqtt = s.mqtt := by
  cases e <;> rfl

@[simp] lemma mqtt_performAll (s : Bridge) (es : List Effect) :
    (s.performAll es).mqtt = s.mqtt := by
  induction es generalizing s with
  | nil => rfl
  | cons e es ih => simp [ih]

@[simp] lemma known_perform (s : Bridge) (e : Effect) : (s.perform e).known = s.known := by
  funext name
  cases e <;> simp [perform, known]

@[simp] lemma known_performAll (s : Bridge) (es : List Effect) :
    (s.performAll es).known = s.known := by
  induction es generalizing s with
  | nil => rfl
  | cons e es ih => simp [ih]

end Bridge

/-! ### One block -/

/-- What an effect does to the block of `name`. -/
def DevServiceBlk.perform (name : Str) (b : DevServiceBlk) : Effect → DevServiceBlk
  | .spentAttempt d v => if d = name then { b with spentAttempt := v } else b
  | .timeToAttempt d t => if d = name then { b with timeToAttempt := t } else b
  | _ => b

/-- The device whose block an effect writes. -/
def Effect.device? : Effect → Option Str
  | .spentAttempt d _ => some d
  | .timeToAttempt d _ => some d
  | _ => none

lemma DevServiceBlk.perform_of_device_ne {name : Str} {e : Effect} (h : e.device? ≠ some name)
    (b : DevServiceBlk) : b.perform name e = b := by
  cases e <;> simp_all [DevServiceBlk.perform, Effect.device?]

lemma DevServiceBlk.foldl_perform_of_device_ne {name : Str} {es : List Effect}
    (h : ∀ e ∈ es, e.device? ≠ some name) (b : DevServiceBlk) :
    es.foldl (DevServiceBlk.perform name) b = b := by
  induction es generalizing b with
  | nil => rfl
  | cons e es ih =>
    rw [List.foldl_cons, perform_of_device_ne (h e List.mem_cons_self)]
    exact ih (fun e' he' => h e' (List.mem_cons_of_mem _ he')) b

/-- The pass for an entry writes no block but that of its device. -/
lemma device_processDevice {known : Str → Bool} {topic msg name : Str} {now : ℤ}
    {r : RouterDeviceItem} {e : Effect}
    (h : e ∈ (processDevice known topic msg now r).effects)
    (hne : r.devName ≠ name) : e.device? ≠ some name := by
  rcases mem_processDevice h with ⟨-, rfl | rfl | rfl⟩ | ⟨t, -, m, rfl⟩ <;>
    simp [Effect.device?, hne]

namespace Bridge

lemma deviceItems_perform (s : Bridge) (e : Effect) (name : Str) :
    (s.perform e).deviceItems name = (s.deviceItems name).map fun b => b.perform name e := by
  cases e with
  | spentAttempt d v =>
    by_cases h : name = d
    · subst h
      simp [perform, DevServiceBlk.perform]
    · simp [perform, DevServiceBlk.perform, KeyedMap.modify_of_ne h, Ne.symm h]
  | timeToAttempt d t =>
    by_cases h : name = d
    · subst h
      simp [perform, DevServiceBlk.perform]
    · simp [perform, DevServiceBlk.perform, KeyedMap.modify_of_ne h, Ne.symm h]
  | setTopic topic msg => simp [perform, DevServiceBlk.perform]
  | report level descr => simp [perform, DevServiceBlk.perform]

/-- The block of a device sees the effects of a handler one after the other. -/
lemma deviceItems_performAll (s : Bridge) (es : List Effect) (name : Str) :
    (s.performAll es).deviceItems name
      = (s.deviceItems name).map fun b => es.foldl (DevServiceBlk.perform name) b := by
  induction es generalizing s with
  | nil => simp
  | cons e es ih => simp [ih, deviceItems_perform, Function.comp_def]

end Bridge

/-! ### What reaches the broker -/

/-- The value an effect sets, and the topic as mosquitto gets it. -/
def Effect.setting? : Effect → Option (Str × Str)
  | .setTopic topic msg => some (cStr topic, msg)
  | _ => none

namespace Bridge

/-- A handler publishes everything it sets while connected, and nothing otherwise. -/
lemma published_performAll (s : Bridge) (es : List Effect) :
    (s.performAll es).published
      = s.published ++ if .connected = s.mqtt.connStatus then es.filterMap Effect.setting?
          else [] := by
  induction es generalizing s with
  | nil => simp
  | cons e es ih =>
    rw [performAll_cons, ih, mqtt_perform]
    cases e with
    | setTopic topic msg =>
      simp only [perform, published_setTopic, List.filterMap_cons, Effect.setting?]
      split_ifs <;> simp
    | spentAttempt _ _ => rfl
    | timeToAttempt _ _ => rfl
    | report _ _ => rfl

end Bridge

/-- The last value that reached the broker on a topic. -/
def lastPublished (ps : List (Str × Str)) (topic : Str) : Option Str :=
  (ps.reverse.find? (·.1 = topic)).map (·.2)

lemma lastPublished_append_of_ne {ps qs : List (Str × Str)} {topic : Str}
    (h : ∀ q ∈ qs, q.1 ≠ topic) : lastPublished (ps ++ qs) topic = lastPublished ps topic := by
  have hnone : qs.reverse.find? (·.1 = topic) = none := by
    rw [List.find?_eq_none]
    intro q hq
    simpa using h q (List.mem_reverse.mp hq)
  simp [lastPublished, List.find?_append, hnone]

/-- When all the new values on a topic agree, and there is one, it is the last. -/
lemma lastPublished_append_of_mem {ps qs : List (Str × Str)} {topic v : Str}
    (h : ∀ q ∈ qs, q.1 = topic → q.2 = v) (hmem : ∃ q ∈ qs, q.1 = topic) :
    lastPublished (ps ++ qs) topic = some v := by
  obtain ⟨q, hq, htopic⟩ := hmem
  have hsome : (qs.reverse.find? (·.1 = topic)).isSome := by
    rw [List.find?_isSome]
    exact ⟨q, List.mem_reverse.mpr hq, by simpa using htopic⟩
  obtain ⟨q', hq'⟩ := Option.isSome_iff_exists.mp hsome
  have hv : q'.2 = v := by
    refine h q' (List.mem_reverse.mp (List.mem_of_find?_eq_some hq')) ?_
    simpa using List.find?_some hq'
  simp [lastPublished, List.find?_append, hq', hv]

/-- A last value stays as long as every new value on the topic is the same. -/
lemma lastPublished_append_of_agree {ps qs : List (Str × Str)} {topic v : Str}
    (h : ∀ q ∈ qs, q.1 = topic → q.2 = v) (hlast : lastPublished ps topic = some v) :
    lastPublished (ps ++ qs) topic = some v := by
  by_cases hmem : ∃ q ∈ qs, q.1 = topic
  · exact lastPublished_append_of_mem h hmem
  · push Not at hmem
    rw [lastPublished_append_of_ne hmem, hlast]

end WBridge
