import WirelessBridge.Lib.PropertyTree

/-!
# The device table

The table of wireless devices and its construction from the configuration file. Reading the file
into a property tree is the library's part; everything after that is below.
-/

namespace WBridge

open Lib

structure RouterDeviceChannel where
  number : UInt32
  name : Str
  mqttTopic : Str
  mqttSubscribe : Bool
  valueMapping : List (UInt16 × Str)
  deriving DecidableEq

structure RouterDeviceItem where
  devName : Str
  inputMqttTopic : Str
  outputMqttTopic : Str
  statusMqttTopic : Str
  nodeTimeoutInSec : UInt32
  nodeConnectionAttempt : UInt32
  inputMapping : List RouterDeviceChannel
  outputMapping : List RouterDeviceChannel
  deriving DecidableEq

/-- The device table, `m_wb_vector`. -/
abbrev GwtTable := List RouterDeviceItem

def readMapping (t : PTree) : Option (UInt16 × Str) := do
  let valueInt ← t.getUInt16 (str "value")
  let valueStr ← t.getStr (str "mapp_to")
  return (valueInt, valueStr)

def readChannel (t : PTree) : Option RouterDeviceChannel := do
  let number ← t.getUInt32 (str "number")
  let name ← t.getStr (str "name")
  let mqttTopic ← t.getStr (str "mqtt_topic")
  let mqttSubscribe ← t.getBool (str "mqtt_subscribe")
  let mapping ← t.getChild (str "value_mapping")
  let valueMapping ← mapping.children.mapM fun c => readMapping c.2
  return { number, name, mqttTopic, mqttSubscribe, valueMapping }

def readDevice (t : PTree) : Option RouterDeviceItem := do
  let devName ← t.getStr (str "dev_name")
  let inputMqttTopic ← t.getStr (str "input_mqtt_topic")
  let outputMqttTopic ← t.getStr (str "output_mqtt_topic")
  let statusMqttTopic ← t.getStr (str "status_mqtt_topic")
  let nodeTimeoutInSec ← t.getUInt32 (str "node_timeout_in_sec")
  let nodeConnectionAttempt ← t.getUInt32 (str "node_connection_attempt")
  let inputs ← t.getChild (str "input_mapping")
  let inputMapping ← inputs.children.mapM fun c => readChannel c.2
  let outputs ← t.getChild (str "output_mapping")
  let outputMapping ← outputs.children.mapM fun c => readChannel c.2
  return { devName, inputMqttTopic, outputMqttTopic, statusMqttTopic, nodeTimeoutInSec,
           nodeConnectionAttempt, inputMapping, outputMapping }

def readTable (t : PTree) : Option GwtTable := do
  let list ← t.getChild (str "wireless_list")
  list.children.mapM fun c => readDevice c.2

/-- What the constructor finds under its path: no file, a file that is not JSON, or a tree. -/
inductive ConfigFile where
  | absent
  | malformed
  | parsed (tree : PTree)

/-- The constructor. Whatever goes wrong while the tree is walked ends in the same exception. -/
def CDeviceConfig (cfgPath : Str) : ConfigFile → Except StdException GwtTable
  | .absent =>
    .error (.runtimeError
      (str "device configuration unavailable: file is not exist: " ++ cfgPath))
  | .malformed => .error (.runtimeError (str "configuration error: config parsing error"))
  | .parsed tree =>
    match readTable tree with
    | some table => .ok table
    | none => .error (.runtimeError (str "configuration error: config parsing error"))

/-- The first entry of that name. -/
def getGwtItem (table : GwtTable) (name : Str) : Option RouterDeviceItem :=
  table.find? fun data => name = data.devName

/-! ### Entries whose name occurs once -/

variable {pre post : GwtTable} {item : RouterDeviceItem}

lemma getGwtItem_eq_some (hpre : ∀ r ∈ pre, r.devName ≠ item.devName) :
    getGwtItem (pre ++ item :: post) item.devName = some item := by
  simp only [getGwtItem, List.find?_append]
  have hnone : pre.find? (fun data => item.devName = data.devName) = none := by
    rw [List.find?_eq_none]
    intro r hr
    simpa using (hpre r hr).symm
  simp [hnone]

end WBridge
