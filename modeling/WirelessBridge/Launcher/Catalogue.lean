import Mathlib.Data.List.Nodup
import WirelessBridge.Launcher.Startup

/-!
# The components of the bridge application

The five component types, as their annotations declare them, and the list of components that the
configuration files come with.
-/

namespace System

open Lib HBE WBridge

def executorDependency : Str × InterfaceTypeInfo := (str "Executor", ⟨str "System::IExecutor"⟩)

def connManDependency : Str × InterfaceTypeInfo := (str "ConnMan", ⟨str "System::IConnMan"⟩)

def mqttConnDependency : Str × InterfaceTypeInfo :=
  (str "MqttConn", ⟨str "Mqtt::IMqttConnection"⟩)

/-- What `cfg.get<std::string>("config." + key)` throws, if it throws. -/
def badPath (cfg : PTree) (key : Str) : Option StdException :=
  match (cfg.getChild (str "config")).bind (·.getStr key) with
  | some _ => none
  | none => some (.runtimeError (str "No such node (config." ++ key ++ str ")"))

def finalHavenType : ComponentType where
  interfaces := [finalHavenDependency]
  depends := []
  construct _ := none
  depends_nodup := List.nodup_nil

def executorType : ComponentType where
  interfaces := [executorDependency]
  depends := [finalHavenDependency]
  construct _ := none
  depends_nodup := List.nodup_singleton _

def connManType : ComponentType where
  interfaces := [connManDependency]
  depends := [finalHavenDependency, executorDependency]
  construct _ := none
  depends_nodup := by decide

def mqttConnType : ComponentType where
  interfaces := [mqttConnDependency]
  depends := [connManDependency, finalHavenDependency]
  construct cfg :=
    [str "mqtt_broker", str "mqtt_broker_port", str "mqtt_username", str "mqtt_password"].findSome?
      (badPath cfg)
  depends_nodup := by decide

/-- The constructor reads the device table, from whatever there is at the configured path. -/
def wirelessBridgeType (files : Str → ConfigFile) : ComponentType where
  interfaces := [(str "WirelessBridge", ⟨str "WBridge::IWirelessBridge"⟩)]
  depends := [mqttConnDependency, executorDependency, finalHavenDependency]
  construct cfg :=
    match (cfg.getChild (str "config")).bind (·.getStr (str "bridge_cfg_path")) with
    | none => some (.runtimeError (str "No such node (config.bridge_cfg_path)"))
    | some cfgPath =>
      match CDeviceConfig cfgPath (files cfgPath) with
      | .error e => some e
      | .ok _ => none
  depends_nodup := by decide

/-! ### Their configuration -/

def leaf (data : Str) : PTree := .node data []

def componentTree (c : ComponentConfig) : PTree :=
  .node [] [(str "name", leaf c.name), (str "lib_path", leaf c.libPath), (str "config", c.config)]

/-- The file that lists these components. -/
def componentsTree (components : List ComponentConfig) : PTree :=
  .node [] [(str "components", .node [] (components.map fun c => ([], componentTree c)))]

/-- Every list of components can be written down. -/
lemma readComponents_componentsTree (components : List ComponentConfig) :
    readComponents (componentsTree components) = some components := by
  have hread : ((components.map fun c => (([] : Str), componentTree c)).mapM
      fun c => readComponent c.2) = some components := by
    rw [List.mapM_map]
    induction components with
    | nil => rfl
    | cons c rest ih =>
      rw [List.mapM_cons, ih]
      rfl
  exact hread

def configOf (entries : List (Str × PTree)) : PTree := .node [] [(str "config", .node [] entries)]

def hostComponents : List ComponentConfig :=
  [⟨str "final_haven", str "system/components/finalhaven/libfinalhaven.so",
      configOf [(str "data", leaf (str "long long string"))]⟩,
    ⟨str "executor", str "system/components/executor/libexecutor.so",
      configOf [(str "data", leaf (str "long long string"))]⟩,
    ⟨str "connman", str "system/components/connman/libconnman.so",
      configOf [(str "data", leaf (str "long long string"))]⟩,
    ⟨str "mqttconn", str "bridge/mqtt/libmqttconn.so",
      configOf [(str "mqtt_broker", leaf (str "192.168.1.188")),
        (str "mqtt_broker_port", leaf (str "8097")),
        (str "mqtt_username", leaf (str "homebrain")),
        (str "mqtt_password", leaf (str "123!@#"))]⟩,
    ⟨str "bridge", str "bridge/bridge/libbridge.so",
      configOf [(str "bridge_cfg_path", leaf (str "wireless_table_gen.json"))]⟩]

/-- The libraries that are built, and components that come up without an exception. -/
def host (files : Str → ConfigFile) : Surroundings where
  types libPath :=
    if libPath = str "system/components/finalhaven/libfinalhaven.so" then .ok finalHavenType
    else if libPath = str "system/components/executor/libexecutor.so" then .ok executorType
    else if libPath = str "system/components/connman/libconnman.so" then .ok connManType
    else if libPath = str "bridge/mqtt/libmqttconn.so" then .ok mqttConnType
    else if libPath = str "bridge/bridge/libbridge.so" then .ok (wirelessBridgeType files)
    else .error (.runtimeError (str "boost::dll::shared_library::load() failed"))
  initThrows _ := none
  startThrows _ := none

/-- The bridge gets an empty device table. -/
def hostWithoutDevices : Surroundings :=
  host fun _ => .parsed (.node [] [(str "wireless_list", .node [] [])])

end System
