import WirelessBridge.System.Interfaces

/-!
# The connection to the MQTT broker

`CMqttConnection` as its callers see it: each member function is what it does to the stored state,
and the calls it makes to the mosquitto library and to the event queue.
-/

namespace Mqtt

open Lib System

inductive TMqttEventVariant where
  | online (commStatus : Bool)
  | topicUpdate (topic message : Str)
  deriving DecidableEq

structure CMqttConnection where
  connStatus : EConnectionStatus
  topicsList : List Str
  deriving DecidableEq

inductive Call where
  | publish (topic payload : Str) (qos : ℕ) (retain : Bool)
  | subscribe (topic : Str) (qos : ℕ)
  | sendEvent (ev : TMqttEventVariant)
  | connectAsync (host : Str) (port : ℤ) (keepalive : ℕ)
  deriving DecidableEq

/-- The part of the stored configuration that `connect` reads. -/
structure MqttConfig where
  mqttBroker : Str
  mqttBrokerPort : Str
  deriving DecidableEq

/-- The constructor leaves the connection down and no topic stored. -/
def CMqttConnection.init : CMqttConnection := ⟨.disconnected, []⟩

/-- The port is converted first, and an exception of `std::stoi` is not caught. -/
def connect (cfg : MqttConfig) : Except StdException Call := do
  let port ← stoi cfg.mqttBrokerPort
  return .connectAsync (cStr cfg.mqttBroker) port 120

def connectThrows (cfg : MqttConfig) : Option StdException :=
  match connect cfg with
  | .error e => some e
  | .ok _ => none

/-- Mosquitto gets a topic as a C string, here and below. -/
def subscribeTopic (c : CMqttConnection) (topic : Str) : CMqttConnection × List Call :=
  let calls := if .connected = c.connStatus then [.subscribe (cStr topic) 1] else []
  ({ c with topicsList := c.topicsList ++ [topic] }, calls)

/-- The payload goes out by pointer and size, so all its bytes do. -/
def setTopic (c : CMqttConnection) (topic msg : Str) : List Call :=
  if .connected = c.connStatus then [.publish (cStr topic) msg 1 true] else []

def onConnect (c : CMqttConnection) (rc : ℤ) : CMqttConnection × List Call :=
  if 0 = rc then
    ({ c with connStatus := .connected },
      c.topicsList.map (fun topic => .subscribe (cStr topic) 1) ++ [.sendEvent (.online true)])
  else ({ c with connStatus := .disconnected }, [])

def onDisconnect (c : CMqttConnection) : CMqttConnection × List Call :=
  ({ c with connStatus := .disconnected }, [.sendEvent (.online false)])

/-- A message as mosquitto hands it over: `payload` is `none` for a null pointer, and otherwise
the `payloadlen` bytes that it points to, which a zero byte follows. -/
structure MosquittoMessage where
  topic : Str
  payload : Option Str
  payloadlen : ℕ
  deriving DecidableEq

/-- Mosquitto gives no buffer to an empty payload. -/
def MosquittoMessage.ofPayload (topic payload : Str) : MosquittoMessage :=
  ⟨topic, if payload = [] then none else some payload, payload.length⟩

/-- Both strings are built from a bare `char*`, which for the payload may be null. -/
def onMessage (m : MosquittoMessage) : Except StdException Call :=
  match m.payload with
  | none => .error (.logicError (str "basic_string: construction from null is not valid"))
  | some p => .ok (.sendEvent (.topicUpdate (cStr m.topic) (cStr p)))

/-- The topic and the bytes of a publication. -/
def Call.published? : Call → Option (Str × Str)
  | .publish topic payload _ _ => some (topic, payload)
  | _ => none

/-- The topic of a subscription. -/
def Call.subscribed? : Call → Option Str
  | .subscribe topic _ => some topic
  | _ => none

lemma published_setTopic (c : CMqttConnection) (topic msg : Str) :
    (setTopic c topic msg).filterMap Call.published?
      = if .connected = c.connStatus then [(cStr topic, msg)] else [] := by
  simp only [setTopic]
  split_ifs <;> rfl

end Mqtt
