import WirelessBridge.Lib.OrderedMap
import WirelessBridge.Lib.PropertyTree

/-!
# Components, and the interfaces between them

A component provides interfaces under names, and depends on interfaces of other components by name
and type. Its factory declares what it depends on.
-/

namespace HBE

open Lib

@[ext]
structure InterfaceTypeInfo where
  typeName : Str
  deriving DecidableEq

/-- An interface of a component, components being numbered in the order of their creation. It lives
as long as the component, so a weak pointer to it can be locked while the component is registered. -/
structure Interface where
  component : ℕ
  typeInfo : InterfaceTypeInfo
  deriving DecidableEq

abbrev ProvidedInterfaces := OrderedMap Str Interface

abbrev DependenciesInfo := OrderedMap Str InterfaceTypeInfo

abbrev ResolvedDependencies := OrderedMap Str Interface

/-- A component, with the dependencies that it was created with. -/
structure Component where
  number : ℕ
  provided : ProvidedInterfaces
  resolved : ResolvedDependencies

structure ComponentConfig where
  name : Str
  libPath : Str
  config : PTree

/-- `pushInterface` for one interface after another. -/
def fillInfo (descriptions : List (Str × InterfaceTypeInfo)) : DependenciesInfo :=
  OrderedMap.empty.insertAll descriptions

/-- The calls of `provideInterface` by `registerInterfaces`. -/
def provideInterfaces (number : ℕ) (interfaces : List (Str × InterfaceTypeInfo)) :
    ProvidedInterfaces :=
  OrderedMap.empty.insertAll (interfaces.map fun i => (i.1, ⟨number, i.2⟩))

structure ComponentFactory where
  /-- The types that `Depends` lists, and the names that stand for them. -/
  depends : List (Str × InterfaceTypeInfo)
  /-- The constructor, which may throw, and what `registerInterfaces` then provides. -/
  createInstance : PTree → ResolvedDependencies → Except StdException (List (Str × InterfaceTypeInfo))

def ComponentFactory.getDependencies (f : ComponentFactory) : DependenciesInfo := fillInfo f.depends

/-! ### The dependencies of a component, as it casts them -/

def missingDependency (name : Str) : StdException :=
  .runtimeError (str "Cannot find instance for dependency " ++ name)

def typeMismatch (name requested actual : Str) : StdException :=
  .runtimeError (str "Type mismatch in dependency " ++ name ++ str ". Requested: " ++ requested ++
    str ", Actual: " ++ actual)

/-- `TDepends::cast`. -/
def castDependency (dependencies : ResolvedDependencies) (dependency : Str × InterfaceTypeInfo) :
    Except StdException Interface :=
  match dependencies.find? dependency.1 with
  | none => .error (missingDependency dependency.1)
  | some instance' =>
    if instance'.typeInfo.typeName ≠ dependency.2.typeName then
      .error (typeMismatch dependency.1 dependency.2.typeName instance'.typeInfo.typeName)
    else .ok instance'

/-- The constructor of `TDepends`. -/
def castDependencies (depends : List (Str × InterfaceTypeInfo))
    (dependencies : ResolvedDependencies) : Except StdException (List Interface) :=
  depends.mapM (castDependency dependencies)

variable {depends : List (Str × InterfaceTypeInfo)} {dependencies : ResolvedDependencies}
  {interfaces : List (Str × InterfaceTypeInfo)} {number : ℕ} {k : Str} {i : Interface}

lemma castDependency_eq_ok {dependency : Str × InterfaceTypeInfo} :
    castDependency dependencies dependency = .ok i ↔
      dependencies.find? dependency.1 = some i ∧ i.typeInfo = dependency.2 := by
  rw [castDependency]
  cases dependencies.find? dependency.1 with
  | none => simp
  | some instance' =>
    rw [InterfaceTypeInfo.ext_iff]
    simp only [ne_eq, ite_not, Option.some.injEq]
    split_ifs with htype
    · simp only [Except.ok.injEq, iff_self_and]
      rintro rfl
      exact htype
    · simp only [false_iff, not_and]
      rintro rfl
      exact htype

/-- `TDepends` accepts what binds every dependency to an interface of its type. -/
lemma castDependencies_isOk
    (h : ∀ d ∈ depends, ∃ i, dependencies.find? d.1 = some i ∧ i.typeInfo = d.2) :
    ∃ l, castDependencies depends dependencies = .ok l := by
  induction depends with
  | nil => exact ⟨[], rfl⟩
  | cons d rest ih =>
    obtain ⟨i, hi⟩ := h d List.mem_cons_self
    obtain ⟨l, hl⟩ := ih fun d' hd' => h d' (List.mem_cons_of_mem d hd')
    refine ⟨i :: l, ?_⟩
    rw [castDependencies] at hl ⊢
    rw [List.mapM_cons, castDependency_eq_ok.mpr hi, hl]
    rfl

lemma find?_fillInfo (h : (depends.map Prod.fst).Nodup) {info : InterfaceTypeInfo} :
    (fillInfo depends).find? k = some info ↔ (k, info) ∈ depends :=
  OrderedMap.find?_insertAll_empty h

/-- An interface that a component provides belongs to it. -/
lemma component_of_provided (h : (provideInterfaces number interfaces).find? k = some i) :
    i.component = number := by
  obtain ⟨j, -, hj⟩ := List.mem_map.mp (OrderedMap.mem_of_find?_insertAll_empty h)
  rw [← (Prod.mk.inj hj).2]

end HBE
