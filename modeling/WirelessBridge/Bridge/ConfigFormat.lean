import WirelessBridge.Lib.TreeFormat
import WirelessBridge.Bridge.DeviceConfig

/-!
# The format of the device configuration

Which files the constructor accepts, and what it makes of them. The format is stated field by field
as a relation between a tree and a table. The constructor decides it, and every table can be
written down in it.
-/

namespace WBridge

open Lib Lib.PTree

structure DescribesMapping (t : PTree) (m : UInt16 × Str) : Prop where
  value : t.HasField (str "value") (IsUnsigned 16 m.1.toNat)
  mappTo : t.HasField (str "mapp_to") (IsText m.2)

structure DescribesChannel (t : PTree) (c : RouterDeviceChannel) : Prop where
  number : t.HasField (str "number") (IsUnsigned 32 c.number.toNat)
  name : t.HasField (str "name") (IsText c.name)
  mqttTopic : t.HasField (str "mqtt_topic") (IsText c.mqttTopic)
  mqttSubscribe : t.HasField (str "mqtt_subscribe") (IsBool c.mqttSubscribe)
  valueMapping : t.HasField (str "value_mapping") (IsList DescribesMapping c.valueMapping)

structure DescribesDevice (t : PTree) (r : RouterDeviceItem) : Prop where
  devName : t.HasField (str "dev_name") (IsText r.devName)
  inputMqttTopic : t.HasField (str "input_mqtt_topic") (IsText r.inputMqttTopic)
  outputMqttTopic : t.HasField (str "output_mqtt_topic") (IsText r.outputMqttTopic)
  statusMqttTopic : t.HasField (str "status_mqtt_topic") (IsText r.statusMqttTopic)
  nodeTimeoutInSec :
    t.HasField (str "node_timeout_in_sec") (IsUnsigned 32 r.nodeTimeoutInSec.toNat)
  nodeConnectionAttempt :
    t.HasField (str "node_connection_attempt") (IsUnsigned 32 r.nodeConnectionAttempt.toNat)
  inputMapping : t.HasField (str "input_mapping") (IsList DescribesChannel r.inputMapping)
  outputMapping : t.HasField (str "output_mapping") (IsList DescribesChannel r.outputMapping)

def DescribesTable (t : PTree) (table : GwtTable) : Prop :=
  t.HasField (str "wireless_list") (IsList DescribesDevice table)

/-! ### The readers decide the format -/

lemma readMapping_eq_some (t : PTree) (m : UInt16 × Str) :
    readMapping t = some m ↔ DescribesMapping t m := by
  simp only [readMapping, Option.bind_eq_bind, Option.bind_eq_some_iff, Option.pure_def,
    Option.some.injEq, getUInt16_eq_some, getStr_eq_some]
  constructor
  · rintro ⟨v, hv, s, hs, rfl⟩
    exact ⟨hv, hs⟩
  · rintro ⟨hv, hs⟩
    exact ⟨m.1, hv, m.2, hs, rfl⟩

lemma readChannel_eq_some (t : PTree) (c : RouterDeviceChannel) :
    readChannel t = some c ↔ DescribesChannel t c := by
  have hmapping : ∀ {M}, (∃ l, t.getChild (str "value_mapping") = some l ∧
      l.children.mapM (fun e => readMapping e.2) = some M) ↔
        t.HasField (str "value_mapping") (IsList DescribesMapping M) :=
    getChild_mapM_eq_some readMapping_eq_some
  simp only [readChannel, Option.bind_eq_bind, Option.bind_eq_some_iff, Option.pure_def,
    Option.some.injEq, getUInt32_eq_some, getStr_eq_some, getBool_eq_some]
  constructor
  · rintro ⟨number, hnumber, name, hname, topic, htopic, sub, hsub, l, hl, M, hM, rfl⟩
    exact ⟨hnumber, hname, htopic, hsub, hmapping.mp ⟨l, hl, hM⟩⟩
  · rintro ⟨hnumber, hname, htopic, hsub, hM⟩
    obtain ⟨l, hl, hM⟩ := hmapping.mpr hM
    exact ⟨_, hnumber, _, hname, _, htopic, _, hsub, l, hl, _, hM, rfl⟩

lemma readDevice_eq_some (t : PTree) (r : RouterDeviceItem) :
    readDevice t = some r ↔ DescribesDevice t r := by
  have hchannels : ∀ {key C}, (∃ l, t.getChild key = some l ∧
      l.children.mapM (fun e => readChannel e.2) = some C) ↔
        t.HasField key (IsList DescribesChannel C) :=
    getChild_mapM_eq_some readChannel_eq_some
  simp only [readDevice, Option.bind_eq_bind, Option.bind_eq_some_iff, Option.pure_def,
    Option.some.injEq, getUInt32_eq_some, getStr_eq_some]
  constructor
  · rintro ⟨name, hname, i, hi, o, ho, s, hs, time, htime, n, hn, li, hli, I, hI, lo, hlo, O, hO,
      rfl⟩
    exact ⟨hname, hi, ho, hs, htime, hn, hchannels.mp ⟨li, hli, hI⟩, hchannels.mp ⟨lo, hlo, hO⟩⟩
  · rintro ⟨hname, hi, ho, hs, htime, hn, hI, hO⟩
    obtain ⟨li, hli, hI⟩ := hchannels.mpr hI
    obtain ⟨lo, hlo, hO⟩ := hchannels.mpr hO
    exact ⟨_, hname, _, hi, _, ho, _, hs, _, htime, _, hn, li, hli, _, hI, lo, hlo, _, hO, rfl⟩

lemma readTable_eq_some (t : PTree) (table : GwtTable) :
    readTable t = some table ↔ DescribesTable t table := by
  simp only [readTable, Option.bind_eq_bind, Option.bind_eq_some_iff]
  exact getChild_mapM_eq_some readDevice_eq_some

/-- A file is accepted just when it is JSON and says what the table holds, field by field. -/
theorem config_accepted_iff (cfgPath : Str) (file : ConfigFile) (table : GwtTable) :
    CDeviceConfig cfgPath file = .ok table ↔
      ∃ tree, file = .parsed tree ∧ DescribesTable tree table := by
  cases file with
  | absent => simp [CDeviceConfig]
  | malformed => simp [CDeviceConfig]
  | parsed tree =>
    simp only [← readTable_eq_some, ConfigFile.parsed.injEq, exists_eq_left', CDeviceConfig]
    cases readTable tree with
    | none => simp
    | some table' => simp

/-! ### Tables written down -/

def writeMapping (m : UInt16 × Str) : PTree :=
  .node [] [(str "value", leafOf (decimal m.1.toNat)), (str "mapp_to", leafOf m.2)]

def writeChannel (c : RouterDeviceChannel) : PTree :=
  .node []
    [(str "number", leafOf (decimal c.number.toNat)), (str "name", leafOf c.name),
      (str "mqtt_topic", leafOf c.mqttTopic),
      (str "mqtt_subscribe", leafOf (boolName c.mqttSubscribe)),
      (str "value_mapping", listOf writeMapping c.valueMapping)]

def writeDevice (r : RouterDeviceItem) : PTree :=
  .node []
    [(str "dev_name", leafOf r.devName), (str "input_mqtt_topic", leafOf r.inputMqttTopic),
      (str "output_mqtt_topic", leafOf r.outputMqttTopic),
      (str "status_mqtt_topic", leafOf r.statusMqttTopic),
      (str "node_timeout_in_sec", leafOf (decimal r.nodeTimeoutInSec.toNat)),
      (str "node_connection_attempt", leafOf (decimal r.nodeConnectionAttempt.toNat)),
      (str "input_mapping", listOf writeChannel r.inputMapping),
      (str "output_mapping", listOf writeChannel r.outputMapping)]

def writeTable (table : GwtTable) : PTree :=
  .node [] [(str "wireless_list", listOf writeDevice table)]

lemma describes_writeMapping (m : UInt16 × Str) : DescribesMapping (writeMapping m) m where
  value := ⟨_, rfl, isUnsigned_leafOf m.1.toNat_lt⟩
  mappTo := ⟨_, rfl, isText_leafOf⟩

lemma describes_writeChannel (c : RouterDeviceChannel) : DescribesChannel (writeChannel c) c where
  number := ⟨_, rfl, isUnsigned_leafOf c.number.toNat_lt⟩
  name := ⟨_, rfl, isText_leafOf⟩
  mqttTopic := ⟨_, rfl, isText_leafOf⟩
  mqttSubscribe := ⟨_, rfl, isBool_leafOf⟩
  valueMapping := ⟨_, rfl, isList_listOf describes_writeMapping _⟩

lemma describes_writeDevice (r : RouterDeviceItem) : DescribesDevice (writeDevice r) r where
  devName := ⟨_, rfl, isText_leafOf⟩
  inputMqttTopic := ⟨_, rfl, isText_leafOf⟩
  outputMqttTopic := ⟨_, rfl, isText_leafOf⟩
  statusMqttTopic := ⟨_, rfl, isText_leafOf⟩
  nodeTimeoutInSec := ⟨_, rfl, isUnsigned_leafOf r.nodeTimeoutInSec.toNat_lt⟩
  nodeConnectionAttempt := ⟨_, rfl, isUnsigned_leafOf r.nodeConnectionAttempt.toNat_lt⟩
  inputMapping := ⟨_, rfl, isList_listOf describes_writeChannel _⟩
  outputMapping := ⟨_, rfl, isList_listOf describes_writeChannel _⟩

/-- Every table can be configured, and what is read back is the table. -/
theorem config_of_written (cfgPath : Str) (table : GwtTable) :
    CDeviceConfig cfgPath (.parsed (writeTable table)) = .ok table := by
  have hread : readTable (writeTable table) = some table :=
    (readTable_eq_some _ _).mpr ⟨_, rfl, isList_listOf describes_writeDevice table⟩
  simp only [CDeviceConfig, hread]

end WBridge
