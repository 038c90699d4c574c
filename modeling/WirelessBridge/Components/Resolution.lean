import Mathlib.Logic.Relation
import WirelessBridge.Components.Manager

/-!
# What dependencies are resolved to

`resolveDependencies` binds a name to the interface of that name and type in the component whose own
name is least. Since it only looks among the components registered so far, a component depends on
components created before it.
-/

namespace HBE

open Lib

/-- The component provides an interface of the name and type. -/
def Component.Provides (c : Component) (dependency : Str × InterfaceTypeInfo) : Prop :=
  ∃ i, c.provided.find? dependency.1 = some i ∧ i.typeInfo = dependency.2

/-- The first match of the inner loop. -/
def provider (registered : ComponentsRegistry) (dependency : Str × InterfaceTypeInfo) :
    Option Interface :=
  registered.toList.findSome? (·.2.offer dependency)

/-- What the outer loop inserts. -/
def bindings (registered : ComponentsRegistry) (dependencies : List (Str × InterfaceTypeInfo)) :
    List (Str × Interface) :=
  dependencies.filterMap fun d => (provider registered d).map (d.1, ·)

variable {c : Component} {d : Str × InterfaceTypeInfo} {i : Interface} {k : Str}
  {registered : ComponentsRegistry} {resolved r : ResolvedDependencies}

lemma Component.offer_eq_some :
    c.offer d = some i ↔ c.provided.find? d.1 = some i ∧ i.typeInfo = d.2 := by
  rw [Component.offer]
  cases c.provided.find? d.1 with
  | none => simp
  | some j =>
    rw [InterfaceTypeInfo.ext_iff]
    simp only [Option.some.injEq]
    split_ifs with htype
    · simp only [Option.some.injEq, iff_self_and]
      rintro rfl
      exact htype.symm
    · simp only [false_iff, not_and]
      rintro rfl heq
      exact htype heq.symm

lemma Component.isSome_offer : (c.offer d).isSome ↔ c.Provides d := by
  simp only [Option.isSome_iff_exists, Component.offer_eq_some, Component.Provides]

/-! ### The loops -/

/-- The inner loop keeps its first match. -/
lemma searchComponents_eq {l : List (Str × Component)} {result : Bool} :
    searchComponents d l resolved result =
      match l.findSome? (·.2.offer d) with
      | some i => (resolved.insert d.1 i, true)
      | none => (resolved, result) := by
  induction l generalizing resolved result with
  | nil => rfl
  | cons p rest ih =>
    rw [searchComponents, List.findSome?_cons]
    cases p.2.offer d with
    | none => exact ih
    | some i =>
      simp only [ih]
      cases rest.findSome? (·.2.offer d) with
      | none => rfl
      | some j => simp only [OrderedMap.insert_insert_self]

lemma resolveAll_eq_ok {l : List (Str × InterfaceTypeInfo)} :
    resolveAll registered l resolved = .ok r ↔
      (∀ d ∈ l, (provider registered d).isSome) ∧ r = resolved.insertAll (bindings registered l) := by
  induction l generalizing resolved with
  | nil =>
    constructor
    · rintro ⟨⟩
      exact ⟨fun d hd => absurd hd List.not_mem_nil, rfl⟩
    · rintro ⟨-, rfl⟩
      rfl
  | cons d rest ih =>
    rw [resolveAll, searchComponents_eq, List.forall_mem_cons, bindings, List.filterMap_cons]
    cases hprovider : provider registered d with
    | none =>
      rw [provider] at hprovider
      simp [hprovider]
    | some i =>
      rw [provider] at hprovider
      simp only [hprovider, ih, Option.isSome_some, true_and, Option.map_some,
        OrderedMap.insertAll_cons]
      rfl

lemma keys_bindings (registered : ComponentsRegistry) (l : List (Str × InterfaceTypeInfo)) :
    ((bindings registered l).map Prod.fst).Sublist (l.map Prod.fst) := by
  induction l with
  | nil => exact List.Sublist.refl _
  | cons d rest ih =>
    rw [bindings, List.filterMap_cons]
    cases provider registered d with
    | none => exact ih.cons d.1
    | some i => exact ih.cons_cons d.1

/-! ### A whole resolution -/

variable {dependencies : DependenciesInfo}

lemma resolveDependencies_isOk :
    (∃ r, resolveDependencies registered dependencies = .ok r) ↔
      ∀ d ∈ dependencies.toList, ∃ name c, registered.find? name = some c ∧ c.Provides d := by
  simp only [resolveDependencies, resolveAll_eq_ok, exists_and_left, exists_eq, and_true, provider,
    OrderedMap.isSome_findSome?_iff, Component.isSome_offer]

lemma find?_of_resolveDependencies (h : resolveDependencies registered dependencies = .ok r) :
    r.find? k = some i ↔
      ∃ info, dependencies.find? k = some info ∧ provider registered (k, info) = some i := by
  obtain ⟨-, rfl⟩ := resolveAll_eq_ok.mp h
  have hnodup := dependencies.nodup_keys.sublist (keys_bindings registered _)
  rw [OrderedMap.find?_insertAll_empty hnodup, bindings, List.mem_filterMap]
  constructor
  · rintro ⟨⟨name, info⟩, hd, hbound⟩
    obtain ⟨j, hj, heq⟩ := Option.map_eq_some_iff.mp hbound
    obtain ⟨rfl, rfl⟩ := Prod.mk.inj heq
    exact ⟨info, OrderedMap.find?_eq_some_iff.mpr hd, hj⟩
  · rintro ⟨info, hinfo, hi⟩
    refine ⟨(k, info), OrderedMap.find?_eq_some_iff.mp hinfo, ?_⟩
    rw [hi]
    rfl

/-- Where the provider of a dependency comes from. -/
lemma exists_of_provider (h : provider registered d = some i) :
    ∃ name c, registered.find? name = some c ∧ c.provided.find? d.1 = some i ∧ i.typeInfo = d.2 ∧
      ∀ name' c', registered.find? name' = some c' → c'.Provides d → name ≤ name' := by
  obtain ⟨name, c, hc, hoffer, hleast⟩ := OrderedMap.find?_of_findSome?_eq_some h
  obtain ⟨hfind, htype⟩ := Component.offer_eq_some.mp hoffer
  refine ⟨name, c, hc, hfind, htype, ?_⟩
  intro name' c' hc' hprovides
  exact hleast name' c' hc' (Component.isSome_offer.mpr hprovides)

/-! ### The dependencies of a factory -/

section

variable {factory : ComponentFactory}

lemma mem_getDependencies (hnames : (factory.depends.map Prod.fst).Nodup) :
    d ∈ factory.getDependencies.toList ↔ d ∈ factory.depends :=
  OrderedMap.find?_eq_some_iff.symm.trans (find?_fillInfo hnames)

lemma resolve_isOk (hnames : (factory.depends.map Prod.fst).Nodup) :
    (∃ r, resolveDependencies registered factory.getDependencies = .ok r) ↔
      ∀ d ∈ factory.depends, ∃ name c, registered.find? name = some c ∧ c.Provides d := by
  simp only [resolveDependencies_isOk, mem_getDependencies hnames]

/-- Every declared dependency is bound to its provider. -/
lemma exists_bound (hnames : (factory.depends.map Prod.fst).Nodup)
    (hr : resolveDependencies registered factory.getDependencies = .ok r)
    (hd : d ∈ factory.depends) :
    ∃ i, r.find? d.1 = some i ∧ provider registered d = some i := by
  have hmem := (mem_getDependencies hnames).mpr hd
  obtain ⟨i, hi⟩ := Option.isSome_iff_exists.mp ((resolveAll_eq_ok.mp hr).1 d hmem)
  refine ⟨i, (find?_of_resolveDependencies hr).mpr ⟨d.2, ?_, hi⟩, hi⟩
  exact OrderedMap.find?_eq_some_iff.mpr hmem

/-- The result has the declared names as its keys. -/
lemma isSome_resolved (hnames : (factory.depends.map Prod.fst).Nodup)
    (hr : resolveDependencies registered factory.getDependencies = .ok r) :
    (r.find? k).isSome ↔ k ∈ factory.depends.map Prod.fst := by
  constructor
  · intro hk
    obtain ⟨i, hi⟩ := Option.isSome_iff_exists.mp hk
    obtain ⟨info, hinfo, -⟩ := (find?_of_resolveDependencies hr).mp hi
    exact List.mem_map.mpr ⟨(k, info), (find?_fillInfo hnames).mp hinfo, rfl⟩
  · intro hk
    obtain ⟨d, hd, rfl⟩ := List.mem_map.mp hk
    obtain ⟨i, hi, -⟩ := exists_bound hnames hr hd
    rw [hi]
    rfl

/-- What the manager has resolved, `TDepends` accepts. -/
lemma castDependencies_resolved (hnames : (factory.depends.map Prod.fst).Nodup)
    (hr : resolveDependencies registered factory.getDependencies = .ok r) :
    ∃ l, castDependencies factory.depends r = .ok l := by
  apply castDependencies_isOk
  intro d hd
  obtain ⟨i, hi, hprovider⟩ := exists_bound hnames hr hd
  obtain ⟨name, c, -, -, htype, -⟩ := exists_of_provider hprovider
  exact ⟨i, hi, htype⟩

end

/-! ### The registry -/

/-- Components are numbered in the order of their creation; they provide interfaces of their own,
and depend on interfaces of registered components created before them. -/
structure Wired (registered : ComponentsRegistry) (created : ℕ) : Prop where
  numbered : ∀ name c, registered.find? name = some c → c.number < created
  unique : ∀ name c name' c', registered.find? name = some c → registered.find? name' = some c' →
    c.number = c'.number → name = name'
  own : ∀ name c, registered.find? name = some c →
    ∀ k i, c.provided.find? k = some i → i.component = c.number
  bound : ∀ name c, registered.find? name = some c → ∀ k i, c.resolved.find? k = some i →
    i.component < c.number ∧
    ∃ name' c', registered.find? name' = some c' ∧ c'.provided.find? k = some i

variable {created created' : ℕ} {name : Str} {interfaces : List (Str × InterfaceTypeInfo)}

lemma wired_empty : Wired .empty 0 := ⟨nofun, nofun, nofun, nofun⟩

lemma Wired.mono (h : Wired registered created) (hle : created ≤ created') :
    Wired registered created' :=
  ⟨fun name c hc => (h.numbered name c hc).trans_le hle, h.unique, h.own, h.bound⟩

/-- What a new component is bound to was registered before it was created. -/
lemma Wired.bound_of_resolved (h : Wired registered created)
    (hr : resolveDependencies registered dependencies = .ok r) (hi : r.find? k = some i) :
    i.component < created ∧
      ∃ name c, registered.find? name = some c ∧ c.provided.find? k = some i := by
  obtain ⟨info, -, hprovider⟩ := (find?_of_resolveDependencies hr).mp hi
  obtain ⟨name, c, hc, hfind, -, -⟩ := exists_of_provider hprovider
  refine ⟨?_, name, c, hc, hfind⟩
  rw [h.own name c hc k i hfind]
  exact h.numbered name c hc

lemma Wired.insert (h : Wired registered created)
    (hr : resolveDependencies registered dependencies = .ok r) :
    Wired (registered.insert name ⟨created, provideInterfaces created interfaces, r⟩)
      (created + 1) := by
  constructor
  · intro name' c hc
    rcases OrderedMap.find?_insert_cases hc with hold | ⟨-, rfl, -⟩
    · exact (h.numbered name' c hold).trans (Nat.lt_succ_self _)
    · exact Nat.lt_succ_self _
  · intro name₁ c₁ name₂ c₂ hc₁ hc₂ heq
    rcases OrderedMap.find?_insert_cases hc₁ with hold₁ | ⟨rfl, rfl, -⟩
    · rcases OrderedMap.find?_insert_cases hc₂ with hold₂ | ⟨rfl, rfl, -⟩
      · exact h.unique name₁ c₁ name₂ c₂ hold₁ hold₂ heq
      · exact absurd heq (h.numbered name₁ c₁ hold₁).ne
    · rcases OrderedMap.find?_insert_cases hc₂ with hold₂ | ⟨rfl, rfl, -⟩
      · exact absurd heq.symm (h.numbered name₂ c₂ hold₂).ne
      · rfl
  · intro name' c hc k i hi
    rcases OrderedMap.find?_insert_cases hc with hold | ⟨-, rfl, -⟩
    · exact h.own name' c hold k i hi
    · exact component_of_provided hi
  · intro name' c hc k i hi
    have hbound : i.component < c.number ∧
        ∃ name' c', registered.find? name' = some c' ∧ c'.provided.find? k = some i := by
      rcases OrderedMap.find?_insert_cases hc with hold | ⟨-, rfl, -⟩
      · exact h.bound name' c hold k i hi
      · exact h.bound_of_resolved hr hi
    obtain ⟨hlt, name'', c'', hc'', hi''⟩ := hbound
    exact ⟨hlt, name'', c'', OrderedMap.find?_insert_of_some hc'', hi''⟩

/-- A registered component, given by its number, is bound to an interface of another one. -/
def DependsOn (registered : ComponentsRegistry) (n n' : ℕ) : Prop :=
  ∃ name c k i, registered.find? name = some c ∧ c.number = n ∧ c.resolved.find? k = some i ∧
    i.component = n'

lemma Wired.lt_of_dependsOn (h : Wired registered created) {n n' : ℕ}
    (hn : DependsOn registered n n') : n' < n := by
  obtain ⟨name, c, k, i, hc, rfl, hi, rfl⟩ := hn
  exact (h.bound name c hc k i hi).1

/-- Chains of dependencies go back in time. -/
lemma Wired.acyclic (h : Wired registered created) (n : ℕ) :
    ¬ Relation.TransGen (DependsOn registered) n n := by
  have hlt : ∀ n', Relation.TransGen (DependsOn registered) n n' → n' < n := by
    intro n' hn'
    induction hn' with
    | single hdep => exact h.lt_of_dependsOn hdep
    | tail _ hdep ih => exact (h.lt_of_dependsOn hdep).trans ih
  intro hcycle
  exact lt_irrefl n (hlt n hcycle)

namespace CComponentManager

variable {m : CComponentManager}

lemma wired_registerComponent (h : Wired m.registered m.created) (config : ComponentConfig)
    (imported : Imported) : Wired (m.registerComponent config imported).2.registered
      (m.registerComponent config imported).2.created := by
  rcases registerComponent_cases m config imported with ⟨interfaces, c, hc⟩ | ⟨e, heq⟩
  · rw [registerComponent_of_creates hc]
    obtain ⟨-, hresolved, -⟩ := hc
    simp only
    split_ifs
    · exact h.mono (Nat.le_succ _)
    · exact h.insert hresolved
  · rw [heq]
    exact h

lemma wired_registerAll (h : Wired m.registered m.created)
    (calls : List (ComponentConfig × Imported)) :
    Wired (m.registerAll calls).registered (m.registerAll calls).created := by
  induction calls generalizing m with
  | nil => exact h
  | cons call rest ih => exact ih (wired_registerComponent h call.1 call.2)

end CComponentManager

open CComponentManager in
/-- In every registry that calls of `registerComponent` lead to, dependencies are resolved if and
only if every one has a provider of its name and type; each is bound to the provider whose component
has the least name, and `TDepends` accepts them. A registered component is bound to interfaces of
components that were created before it. -/
theorem dependencies_resolved (calls : List (ComponentConfig × Imported))
    (factory : ComponentFactory) (hnames : (factory.depends.map Prod.fst).Nodup) :
    let registered := (init.registerAll calls).registered
    ((∃ r, resolveDependencies registered factory.getDependencies = .ok r) ↔
      ∀ d ∈ factory.depends, ∃ name c, registered.find? name = some c ∧ c.Provides d) ∧
    (∀ r, resolveDependencies registered factory.getDependencies = .ok r →
      (∀ k, (r.find? k).isSome ↔ k ∈ factory.depends.map Prod.fst) ∧
      (∀ d ∈ factory.depends, ∃ name c i, registered.find? name = some c ∧
        c.provided.find? d.1 = some i ∧ i.typeInfo = d.2 ∧ r.find? d.1 = some i ∧
        ∀ name' c', registered.find? name' = some c' → c'.Provides d → name ≤ name') ∧
      ∃ l, castDependencies factory.depends r = .ok l) ∧
    (∀ name c, registered.find? name = some c → ∀ k i, c.resolved.find? k = some i →
      ∃ name' c', registered.find? name' = some c' ∧ c'.provided.find? k = some i ∧
        c'.number = i.component ∧ c'.number < c.number) ∧
    ∀ n, ¬ Relation.TransGen (DependsOn registered) n n := by
  intro registered
  have hwired : Wired registered _ := wired_registerAll wired_empty calls
  refine ⟨resolve_isOk hnames, ?_, ?_, hwired.acyclic⟩
  · intro r hr
    refine ⟨fun k => isSome_resolved hnames hr, ?_, castDependencies_resolved hnames hr⟩
    intro d hd
    obtain ⟨i, hi, hprovider⟩ := exists_bound hnames hr hd
    obtain ⟨name, c, hc, hfind, htype, hleast⟩ := exists_of_provider hprovider
    exact ⟨name, c, i, hc, hfind, htype, hi, hleast⟩
  · intro name c hc k i hi
    obtain ⟨hlt, name', c', hc', hi'⟩ := hwired.bound name c hc k i hi
    have hown := hwired.own name' c' hc' k i hi'
    refine ⟨name', c', hc', hi', hown.symm, ?_⟩
    rw [← hown]
    exact hlt

def finalHavenFactory : ComponentFactory :=
  ⟨[], fun _ _ => .ok [(str "FinalHaven", ⟨str "System::IFinalHaven"⟩)]⟩

def executorFactory : ComponentFactory :=
  ⟨[(str "FinalHaven", ⟨str "System::IFinalHaven"⟩)],
    fun _ _ => .ok [(str "Executor", ⟨str "System::IExecutor"⟩)]⟩

def finalHavenConfig : ComponentConfig :=
  ⟨str "final_haven", str "system/components/finalhaven/libfinalhaven.so", .node [] []⟩

open CComponentManager in
/-- The executor depends on the error manager, which is registered before it. -/
theorem dependencies_resolved_executor :
    ∃ r, resolveDependencies
        (init.registerAll [(finalHavenConfig, .ok (.ok finalHavenFactory))]).registered
        executorFactory.getDependencies = .ok r ∧
      ∃ l, castDependencies executorFactory.depends r = .ok l := by
  obtain ⟨hresolves, hbinds, -, -⟩ := dependencies_resolved
    [(finalHavenConfig, .ok (.ok finalHavenFactory))] executorFactory (by decide)
  have hprovided : ∀ d ∈ executorFactory.depends, ∃ name c,
      (init.registerAll [(finalHavenConfig, .ok (.ok finalHavenFactory))]).registered.find? name
        = some c ∧ c.Provides d := by
    intro d hd
    obtain rfl := List.mem_singleton.mp hd
    exact ⟨finalHavenConfig.name, _, rfl, _, rfl, rfl⟩
  obtain ⟨r, hr⟩ := hresolves.mpr hprovided
  exact ⟨r, hr, (hbinds r hr).2.2⟩

end HBE
