import WirelessBridge.Bridge.DeviceConfig
import WirelessBridge.Components.Manager

/-!
# The list of components

`CComponentConfigParser` keeps the names of the components as the file lists them and, apart from
that, what the file says of each name. There `insert` leaves the first entry of a name.
-/

namespace HBE

open Lib WBridge

structure CComponentConfigParser where
  componentsName : List Str
  componentsMap : KeyedMap Str (Str × PTree)

def readComponent (t : PTree) : Option ComponentConfig := do
  let name ← t.getStr (str "name")
  let libPath ← t.getStr (str "lib_path")
  let config ← t.getChild (str "config")
  return ⟨name, libPath, config⟩

def readComponents (t : PTree) : Option (List ComponentConfig) := do
  let list ← t.getChild (str "components")
  list.children.mapM fun c => readComponent c.2

namespace CComponentConfigParser

def push (p : CComponentConfigParser) (c : ComponentConfig) : CComponentConfigParser :=
  ⟨p.componentsName ++ [c.name], p.componentsMap.emplace c.name (c.libPath, c.config)⟩

def ofComponents (components : List ComponentConfig) : CComponentConfigParser :=
  components.foldl push ⟨[], KeyedMap.empty⟩

/-- The constructor. -/
def parse (cfgPath : Str) : ConfigFile → Except StdException CComponentConfigParser
  | .absent =>
    .error (.runtimeError (str "configuration unavailable: file is not exist: " ++ cfgPath))
  | .malformed => .error (.runtimeError (str "configuration error: config parsing error"))
  | .parsed tree =>
    match readComponents tree with
    | some components => .ok (ofComponents components)
    | none => .error (.runtimeError (str "configuration error: config parsing error"))

def getComponentList (p : CComponentConfigParser) : List Str := p.componentsName

def getComponentLib (p : CComponentConfigParser) (cmpName : Str) : Except StdException Str :=
  match p.componentsMap cmpName with
  | some item => .ok item.1
  | none => .error (.runtimeError (str "configuration error: unknown component name"))

def getComponentConfig (p : CComponentConfigParser) (cmpName : Str) : Except StdException PTree :=
  match p.componentsMap cmpName with
  | some item => .ok item.2
  | none => .error (.runtimeError (str "configuration error: unknown component name"))

variable {p : CComponentConfigParser} {components : List ComponentConfig} {name : Str}

lemma componentsName_foldl :
    (components.foldl push p).componentsName = p.componentsName ++ components.map (·.name) := by
  induction components generalizing p with
  | nil => simp
  | cons c rest ih =>
    rw [List.foldl_cons, ih, push, List.append_assoc]
    rfl

lemma componentsMap_foldl :
    (components.foldl push p).componentsMap name
      = (p.componentsMap name).or
          ((components.find? (·.name = name)).map fun c => (c.libPath, c.config)) := by
  induction components generalizing p with
  | nil => simp
  | cons c rest ih =>
    rw [List.foldl_cons, ih, push]
    cases hold : p.componentsMap name with
    | some item => simp only [KeyedMap.emplace_of_eq_some hold, Option.some_or]
    | none =>
      by_cases hname : c.name = name
      · subst hname
        simp [KeyedMap.emplace_self_of_eq_none hold]
      · simp [KeyedMap.emplace_of_ne (Ne.symm hname), hold, hname]

@[simp] lemma getComponentList_ofComponents :
    (ofComponents components).getComponentList = components.map (·.name) := by
  rw [getComponentList, ofComponents, componentsName_foldl, List.nil_append]

/-- The first entry of a name is the one that counts. -/
lemma componentsMap_ofComponents :
    (ofComponents components).componentsMap name
      = (components.find? (·.name = name)).map fun c => (c.libPath, c.config) := by
  rw [ofComponents, componentsMap_foldl]
  rfl

end CComponentConfigParser

end HBE
