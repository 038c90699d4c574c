import WirelessBridge.Components.Component
import WirelessBridge.Lib.KeyedMap

/-!
# The component manager

`CComponentManager` loads the library of a component, resolves the dependencies that its factory
declares among the components registered so far, creates the component and registers it.
-/

namespace HBE

open Lib

/-! ### The loader -/

structure Library where
  /-- `library_fn` is not null. -/
  loaded : Bool
  factory : Option ComponentFactory

abbrev CComponentLoader := KeyedMap Str Library

/-- What there is at a path: nothing that `import_alias` can load, or a function that makes a
factory, given by its result. -/
abbrev Imported := Except StdException (Except StdException ComponentFactory)

/-- The subscript inserts an empty entry for a new path. -/
def loadComponent (path : Str) (imported : Imported) (libraries : CComponentLoader) :
    Except StdException ComponentFactory × CComponentLoader :=
  let lib := (libraries path).getD ⟨false, none⟩
  if lib.loaded then (.error (.runtimeError (str "component reload")), libraries)
  else
    match imported with
    | .error e => (.error e, Function.update libraries path (some lib))
    | .ok (.error e) => (.error e, Function.update libraries path (some ⟨true, lib.factory⟩))
    | .ok (.ok factory) =>
      (.ok factory, Function.update libraries path (some ⟨true, some factory⟩))

/-! ### Dependencies -/

abbrev ComponentsRegistry := OrderedMap Str Component

def notSatisfied (dependency : Str × InterfaceTypeInfo) : StdException :=
  .runtimeError (str "dependency : " ++ str " '" ++ dependency.1 ++ str " - " ++
    dependency.2.typeName ++ str "' NOT satisfied !!!")

/-- The interface of that name, if it is of the type. -/
def Component.offer (c : Component) (dependency : Str × InterfaceTypeInfo) : Option Interface :=
  match c.provided.find? dependency.1 with
  | none => none
  | some i => if dependency.2.typeName = i.typeInfo.typeName then some i else none

/-- The inner loop of `resolveDependencies`, with what it has resolved and its `result`. It does not
stop at the first match, and leaves it to `insert` to keep that. -/
def searchComponents (dependency : Str × InterfaceTypeInfo) (registered : List (Str × Component))
    (resolved : ResolvedDependencies) (result : Bool) : ResolvedDependencies × Bool :=
  match registered with
  | [] => (resolved, result)
  | p :: rest =>
    match p.2.offer dependency with
    | some i => searchComponents dependency rest (resolved.insert dependency.1 i) true
    | none => searchComponents dependency rest resolved result

/-- The outer loop. -/
def resolveAll (registered : ComponentsRegistry) (dependencies : List (Str × InterfaceTypeInfo))
    (resolved : ResolvedDependencies) : Except StdException ResolvedDependencies :=
  match dependencies with
  | [] => .ok resolved
  | d :: rest =>
    match searchComponents d registered.toList resolved false with
    | (_, false) => .error (notSatisfied d)
    | (resolved, true) => resolveAll registered rest resolved

def resolveDependencies (registered : ComponentsRegistry) (dependencies : DependenciesInfo) :
    Except StdException ResolvedDependencies :=
  resolveAll registered dependencies.toList .empty

/-! ### The registry -/

structure CComponentManager where
  loader : CComponentLoader
  registered : ComponentsRegistry
  /-- How many components have been created. -/
  created : ℕ

namespace CComponentManager

def init : CComponentManager := ⟨KeyedMap.empty, .empty, 0⟩

/-- The loop over the interfaces of a new component, which inserts it once for each. -/
def insertPerInterface (name : Str) (component : Component) (registered : ComponentsRegistry) :
    List (Str × Interface) → ComponentsRegistry
  | [] => registered
  | _ :: rest => insertPerInterface name component (registered.insert name component) rest

/-- The `catch` throws what it has caught as a `CComponentRegisterException`. -/
def rethrow (e : StdException) : StdException := .runtimeError e.what

def registerComponent (config : ComponentConfig) (imported : Imported) (m : CComponentManager) :
    Except StdException Unit × CComponentManager :=
  match loadComponent config.libPath imported m.loader with
  | (.error e, loader) => (.error (rethrow e), { m with loader })
  | (.ok factory, loader) =>
    match resolveDependencies m.registered factory.getDependencies with
    | .error e => (.error (rethrow e), { m with loader })
    | .ok resolved =>
      match factory.createInstance config.config resolved with
      | .error e => (.error (rethrow e), { m with loader })
      | .ok interfaces =>
        let component : Component := ⟨m.created, provideInterfaces m.created interfaces, resolved⟩
        (.ok (), ⟨loader, insertPerInterface config.name component m.registered
          component.provided.toList, m.created + 1⟩)

def getComponent (name : Str) (m : CComponentManager) : Except StdException Component :=
  if m.registered.toList = [] then .error (.runtimeError (str "Component map is empty"))
  else
    match m.registered.find? name with
    | some c => .ok c
    | none =>
      .error (.runtimeError (str "Component '" ++ name ++ str "' is absent in registry"))

/-- One call after another, each with what it finds at its path. -/
def registerAll (m : CComponentManager) : List (ComponentConfig × Imported) → CComponentManager
  | [] => m
  | (config, imported) :: rest => registerAll (m.registerComponent config imported).2 rest

variable {m m' : CComponentManager} {config : ComponentConfig} {imported : Imported}

/-- Only the first of the insertions changes the registry. -/
lemma insertPerInterface_eq {name : Str} {c : Component} {registered : ComponentsRegistry}
    {l : List (Str × Interface)} :
    insertPerInterface name c registered l
      = if l = [] then registered else registered.insert name c := by
  induction l generalizing registered with
  | nil => rfl
  | cons p rest ih =>
    rw [insertPerInterface, ih, if_neg (List.cons_ne_nil p rest)]
    split_ifs
    · rfl
    · exact OrderedMap.insert_insert_self

/-- The call loads the library, resolves the dependencies, and creates the component `c`, which
provides the interfaces. -/
inductive Creates (m : CComponentManager) (config : ComponentConfig) (imported : Imported) :
    List (Str × InterfaceTypeInfo) → Component → Prop where
  | intro {factory : ComponentFactory} {loader : CComponentLoader} {resolved : ResolvedDependencies}
      {interfaces : List (Str × InterfaceTypeInfo)}
      (hload : loadComponent config.libPath imported m.loader = (.ok factory, loader))
      (hresolved : resolveDependencies m.registered factory.getDependencies = .ok resolved)
      (hcreate : factory.createInstance config.config resolved = .ok interfaces) :
      Creates m config imported interfaces
        ⟨m.created, provideInterfaces m.created interfaces, resolved⟩

/-- A call that creates a component returns, and inserts it if it has any interface. -/
lemma registerComponent_of_creates {interfaces : List (Str × InterfaceTypeInfo)} {c : Component}
    (h : Creates m config imported interfaces c) :
    m.registerComponent config imported
      = (.ok (), ⟨(loadComponent config.libPath imported m.loader).2,
          if interfaces = [] then m.registered else m.registered.insert config.name c,
          m.created + 1⟩) := by
  obtain ⟨hload, hresolved, hcreate⟩ := h
  have hnone : (provideInterfaces m.created interfaces).toList = [] ↔ interfaces = [] := by
    rw [provideInterfaces, OrderedMap.toList_insertAll_empty_eq_nil, List.map_eq_nil_iff]
  simp only [registerComponent, hload, hresolved, hcreate, insertPerInterface_eq, hnone]

/-- A call creates a component, or throws and changes the loader only. -/
lemma registerComponent_cases (m : CComponentManager) (config : ComponentConfig)
    (imported : Imported) :
    (∃ interfaces c, Creates m config imported interfaces c) ∨
    ∃ e, m.registerComponent config imported
      = (.error e, { m with loader := (loadComponent config.libPath imported m.loader).2 }) := by
  cases hload : loadComponent config.libPath imported m.loader with
  | mk result loader =>
    cases result with
    | error e =>
      right
      exact ⟨rethrow e, by simp only [registerComponent, hload]⟩
    | ok factory =>
      cases hresolved : resolveDependencies m.registered factory.getDependencies with
      | error e =>
        right
        exact ⟨rethrow e, by simp only [registerComponent, hload, hresolved]⟩
      | ok resolved =>
        cases hcreate : factory.createInstance config.config resolved with
        | error e =>
          right
          exact ⟨rethrow e, by simp only [registerComponent, hload, hresolved, hcreate]⟩
        | ok interfaces => exact .inl ⟨interfaces, _, hload, hresolved, hcreate⟩

lemma getComponent_eq_ok_iff {name : Str} {c : Component} :
    m.getComponent name = .ok c ↔ m.registered.find? name = some c := by
  rw [getComponent]
  split_ifs with hempty
  · have hnone : m.registered.find? name = none := by
      simp [OrderedMap.find?, hempty]
    simp [hnone]
  · cases m.registered.find? name <;> simp

end CComponentManager

end HBE
