import WirelessBridge.Components.Resolution

/-!
# Component types

Every library is made by `DEFINE_COMPONENT`, whose factory is the template `TComponentFactory` at
one component type: a list of interfaces, a list of dependencies, and a constructor, which lets
`TDepends` cast the dependencies before its own body runs.
-/

namespace HBE

open Lib

/-- `std::get<Dependency>` needs the dependencies to be of different types, and so of different
names. -/
structure ComponentType where
  /-- `Interfaces`, and what `registerInterfaces` registers. -/
  interfaces : List (Str × InterfaceTypeInfo)
  depends : List (Str × InterfaceTypeInfo)
  /-- What the body of the constructor throws, if it throws. -/
  construct : PTree → Option StdException
  depends_nodup : (depends.map Prod.fst).Nodup

namespace ComponentType

/-- The component type has an interface of that name and type. -/
def Provides (T : ComponentType) (dependency : Str × InterfaceTypeInfo) : Prop :=
  (fillInfo T.interfaces).find? dependency.1 = some dependency.2

/-- `InstanceCreator::create`, and then `registerInterfaces`. -/
def createInstance (T : ComponentType) (config : PTree) (dependencies : ResolvedDependencies) :
    Except StdException (List (Str × InterfaceTypeInfo)) :=
  match castDependencies T.depends dependencies with
  | .error e => .error e
  | .ok _ =>
    match T.construct config with
    | some e => .error e
    | none => .ok T.interfaces

end ComponentType

def TComponentFactory (T : ComponentType) : ComponentFactory := ⟨T.depends, T.createInstance⟩

variable {T : ComponentType} {registered : ComponentsRegistry} {r : ResolvedDependencies}
  {config : PTree} {interfaces : List (Str × InterfaceTypeInfo)} {d : Str × InterfaceTypeInfo}

lemma ComponentType.Provides.interfaces_ne_nil (h : T.Provides d) : T.interfaces ≠ [] := by
  intro hnil
  rw [ComponentType.Provides, hnil] at h
  cases h

/-- On what the manager has resolved, only the body of the constructor can throw. -/
lemma createInstance_resolved
    (hr : resolveDependencies registered (TComponentFactory T).getDependencies = .ok r) :
    (TComponentFactory T).createInstance config r = .ok interfaces ↔
      T.construct config = none ∧ interfaces = T.interfaces := by
  have hnames : ((TComponentFactory T).depends.map Prod.fst).Nodup := T.depends_nodup
  obtain ⟨l, hl⟩ := castDependencies_resolved hnames hr
  have hcast : castDependencies T.depends r = .ok l := hl
  show T.createInstance config r = .ok interfaces ↔ _
  rw [ComponentType.createInstance, hcast]
  cases T.construct config with
  | some e => simp
  | none =>
    simp only [Except.ok.injEq, true_and]
    exact eq_comm

/-- A component provides what its type has interfaces for. -/
lemma provides_iff {c : Component} (h : c.provided = provideInterfaces c.number T.interfaces) :
    c.Provides d ↔ T.Provides d := by
  rw [Component.Provides, ComponentType.Provides, h, provideInterfaces, fillInfo]
  simp only [OrderedMap.find?_insertAll, OrderedMap.find?_empty, Option.none_or, List.find?_map,
    Option.map_map, Function.comp_def]
  cases T.interfaces.find? (fun p => decide (p.1 = d.1)) with
  | none => simp
  | some p => simp

end HBE
