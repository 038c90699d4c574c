import WirelessBridge.Components.ConfigParser
import WirelessBridge.Components.Factory
import WirelessBridge.Lib.Performed

/-!
# The start of the application

`CLauncher::startApplication` registers the components in the order of the file, initialises all of
them and then starts all of them, in the order of their names, and waits for the error manager to
ask for the exit. An exception anywhere ends it.
-/

namespace System

open Lib HBE WBridge

/-- The calls by which the launcher brings a component up. -/
inductive LifecycleCall where
  | registerComponent (name : Str)
  | initComponent (name : Str)
  | startComponent (name : Str)
  deriving DecidableEq

/-- What the launcher finds: the component types in the libraries, and what `initComponent` and
`startComponent` throw for the component of a name. Each is called once at most. -/
structure Surroundings where
  types : Str → Except StdException ComponentType
  initThrows : Str → Option StdException
  startThrows : Str → Option StdException

/-- The library at the path exports `createComponentFactory`, if it can be loaded. -/
def Surroundings.imported (env : Surroundings) (libPath : Str) : Imported :=
  match env.types libPath with
  | .error e => .error e
  | .ok T => .ok (.ok (TComponentFactory T))

/-- The calls that have returned, and the exception of the one that has not. -/
abbrev Startup := Performed LifecycleCall StdException

/-- The loop of the launcher over the list of components. -/
def registerListed (env : Surroundings) (cfg : CComponentConfigParser) :
    List Str → CComponentManager → Startup × CComponentManager
  | [], m => (.nothing, m)
  | name :: rest, m =>
    match cfg.getComponentLib name, cfg.getComponentConfig name with
    | .ok libPath, .ok config =>
      match m.registerComponent ⟨name, libPath, config⟩ (env.imported libPath) with
      | (.error e, m') => (.fails e, m')
      | (.ok (), m') =>
        let q := registerListed env cfg rest m'
        ((Performed.does (.registerComponent name)).andThen q.1, q.2)
    | .error e, _ => (.fails e, m)
    | _, .error e => (.fails e, m)

/-- A loop of `initAndStartComponents`. -/
def callEach (call : Str → LifecycleCall) (throws : Str → Option StdException) :
    List Str → Startup
  | [] => .nothing
  | name :: rest =>
    match throws name with
    | some e => .fails (CComponentManager.rethrow e)
    | none => (Performed.does (call name)).andThen (callEach call throws rest)

def registeredNames (registered : ComponentsRegistry) : List Str :=
  registered.toList.map Prod.fst

def initAndStartComponents (env : Surroundings) (registered : ComponentsRegistry) : Startup :=
  (callEach .initComponent env.initThrows (registeredNames registered)).andThen
    (callEach .startComponent env.startThrows (registeredNames registered))

/-- How `startApplication` goes on: it returns at once, with one code or the other, or waits for
actions of the error manager. -/
inductive Ending where
  | exitFailure (e : StdException)
  | exitSuccess
  | waits (fh : Interface)

def finalHavenDependency : Str × InterfaceTypeInfo :=
  (str "FinalHaven", ⟨str "System::IFinalHaven"⟩)

/-- The cast to `IFinalHaven` gives a null pointer for an interface of another type. -/
def findFinalHaven (m : CComponentManager) : Ending :=
  match m.getComponent (str "final_haven") with
  | .error e => .exitFailure e
  | .ok finalHaven =>
    match finalHaven.provided.find? finalHavenDependency.1 with
    | none => .exitSuccess
    | some fh => if fh.typeInfo = finalHavenDependency.2 then .waits fh else .exitSuccess

def bringUp (env : Surroundings) (cfg : CComponentConfigParser) : Startup × CComponentManager :=
  let r := registerListed env cfg cfg.getComponentList .init
  (r.1.andThen (initAndStartComponents env r.2.registered), r.2)

def startApplication (env : Surroundings) (cfgPath : Str) (file : ConfigFile) :
    List LifecycleCall × Ending :=
  match CComponentConfigParser.parse cfgPath file with
  | .error e => ([], .exitFailure e)
  | .ok cfg =>
    let r := bringUp env cfg
    match r.1.fault with
    | some e => (r.1.effects, .exitFailure e)
    | none => (r.1.effects, findFinalHaven r.2)

end System
