import Mathlib.Data.List.Nodup
import WirelessBridge.Components.Registration
import WirelessBridge.Launcher.Startup
import WirelessBridge.Lib.Topological

/-!
# Which lists of components come up

The components of a list are registered one after another. A name or a library that occurs twice,
and a dependency that no component before provides, end the start of the application.
-/

namespace System

open Lib HBE WBridge

/-- What a component needs of those listed before it. -/
structure Ready (env : Surroundings) (before : List ComponentConfig) (c : ComponentConfig) :
    Prop where
  name_new : c.name ∉ before.map (·.name)
  path_new : c.libPath ∉ before.map (·.libPath)
  loads : ∃ T, env.types c.libPath = .ok T ∧ T.construct c.config = none ∧
    ∀ d ∈ T.depends, ∃ b ∈ before, ∃ T', env.types b.libPath = .ok T' ∧ T'.Provides d

/-- Every component of the list is ready when its turn comes. -/
def Listed (env : Surroundings) (components : List ComponentConfig) : Prop :=
  ∀ before c after, components = before ++ c :: after → Ready env before c

/-- The component is that of an entry of the list: it is numbered by its place, and bound to
interfaces of entries. -/
structure ComponentOf (env : Surroundings) (components : List ComponentConfig)
    (cfg : ComponentConfig) (T : ComponentType) (c : Component) : Prop where
  entry : components[c.number]? = some cfg
  type : env.types cfg.libPath = .ok T
  provided : c.provided = provideInterfaces c.number T.interfaces
  nonempty : T.interfaces ≠ []
  resolved : ∀ k, (c.resolved.find? k).isSome ↔ k ∈ T.depends.map Prod.fst
  bound : ∀ k i, c.resolved.find? k = some i → ∃ info, (k, info) ∈ T.depends ∧
    ∃ b T', components[i.component]? = some b ∧ env.types b.libPath = .ok T' ∧
      T'.Provides (k, info)

/-- The manager once the listed components have been registered. -/
structure Booted (env : Surroundings) (components : List ComponentConfig)
    (m : CComponentManager) : Prop where
  loaded : ∀ path,
    ((m.loader path).getD ⟨false, none⟩).loaded = true ↔ path ∈ components.map (·.libPath)
  created : m.created = components.length
  names_nodup : (components.map (·.name)).Nodup
  registered : ∀ name c, m.registered.find? name = some c →
    ∃ cfg T, cfg.name = name ∧ ComponentOf env components cfg T c
  complete : ∀ cfg ∈ components, ∀ T, env.types cfg.libPath = .ok T → T.interfaces ≠ [] →
    (m.registered.find? cfg.name).isSome

variable {env : Surroundings} {components before rest : List ComponentConfig}
  {cfg : ComponentConfig} {T : ComponentType} {c : Component} {m : CComponentManager}
  {d : Str × InterfaceTypeInfo}

/-! ### One registration -/

lemma booted_init : Booted env [] .init where
  loaded _ := iff_of_false Bool.false_ne_true List.not_mem_nil
  created := rfl
  names_nodup := List.nodup_nil
  registered _ _ h := by cases h
  complete _ h := by cases h

lemma loadComponent_eq_ok {path : Str} {libraries loader : CComponentLoader}
    {factory : ComponentFactory} :
    loadComponent path (env.imported path) libraries = (.ok factory, loader) ↔
      ((libraries path).getD ⟨false, none⟩).loaded = false ∧
      (∃ T, env.types path = .ok T ∧ factory = TComponentFactory T) ∧
      loader = Function.update libraries path (some ⟨true, some factory⟩) := by
  rw [loadComponent.eq_def, Surroundings.imported]
  cases hloaded : ((libraries path).getD ⟨false, none⟩).loaded with
  | true => simp [hloaded]
  | false =>
    cases env.types path with
    | error e => simp [hloaded]
    | ok T =>
      simp only [hloaded, Bool.false_eq_true, if_false, Prod.mk.injEq, Except.ok.injEq, true_and,
        exists_eq_left']
      constructor
      · rintro ⟨rfl, rfl⟩
        exact ⟨rfl, rfl⟩
      · rintro ⟨rfl, rfl⟩
        exact ⟨rfl, rfl⟩

/-- The entries of a list of components have different names. -/
lemma eq_of_name_eq {b : ComponentConfig} (hnodup : (components.map (·.name)).Nodup)
    (hcfg : cfg ∈ components) (hb : b ∈ components) (hname : cfg.name = b.name) : cfg = b :=
  List.inj_on_of_nodup_map hnodup hcfg hb hname

lemma Booted.exists_provider (h : Booted env components m) :
    (∃ name c, m.registered.find? name = some c ∧ c.Provides d) ↔
      ∃ b ∈ components, ∃ T, env.types b.libPath = .ok T ∧ T.Provides d := by
  constructor
  · rintro ⟨name, c, hc, hprovides⟩
    obtain ⟨cfg, T, -, hof⟩ := h.registered name c hc
    exact ⟨cfg, List.mem_of_getElem? hof.entry, T, hof.type,
      (provides_iff hof.provided).mp hprovides⟩
  · rintro ⟨b, hb, T, hT, hprovides⟩
    obtain ⟨c, hc⟩ := Option.isSome_iff_exists.mp (h.complete b hb T hT hprovides.interfaces_ne_nil)
    obtain ⟨cfg, T', hname, hof⟩ := h.registered b.name c hc
    obtain rfl := eq_of_name_eq h.names_nodup (List.mem_of_getElem? hof.entry) hb hname
    obtain rfl : T' = T := Except.ok.inj (hof.type.symm.trans hT)
    exact ⟨cfg.name, c, hc, (provides_iff hof.provided).mpr hprovides⟩

lemma resolve_TComponentFactory_isOk {registered : ComponentsRegistry} :
    (∃ r, resolveDependencies registered (TComponentFactory T).getDependencies = .ok r) ↔
      ∀ d ∈ T.depends, ∃ name c, registered.find? name = some c ∧ c.Provides d := by
  have hnames : ((TComponentFactory T).depends.map Prod.fst).Nodup := T.depends_nodup
  exact resolve_isOk hnames

/-- The calls that create a component. -/
lemma Booted.creates_iff (h : Booted env components m)
    {interfaces : List (Str × InterfaceTypeInfo)} :
    CComponentManager.Creates m cfg (env.imported cfg.libPath) interfaces c ↔
      cfg.libPath ∉ components.map (·.libPath) ∧
      ∃ T r, env.types cfg.libPath = .ok T ∧ T.construct cfg.config = none ∧
        resolveDependencies m.registered (TComponentFactory T).getDependencies = .ok r ∧
        interfaces = T.interfaces ∧
        c = ⟨components.length, provideInterfaces components.length T.interfaces, r⟩ := by
  constructor
  · intro hc
    cases hc with
    | intro hload hresolved hcreate =>
      obtain ⟨hnew, ⟨T, hT, rfl⟩, -⟩ := loadComponent_eq_ok.mp hload
      obtain ⟨hconstruct, rfl⟩ := (createInstance_resolved hresolved).mp hcreate
      refine ⟨?_, T, _, hT, hconstruct, hresolved, rfl, by rw [h.created]⟩
      rw [← h.loaded, hnew]
      exact Bool.false_ne_true
  · rintro ⟨hnew, T, r, hT, hconstruct, hresolved, rfl, rfl⟩
    rw [← h.created]
    refine .intro (loadComponent_eq_ok.mpr ⟨?_, ⟨T, hT, rfl⟩, rfl⟩) hresolved
      ((createInstance_resolved hresolved).mpr ⟨hconstruct, rfl⟩)
    rw [← h.loaded] at hnew
    exact Bool.eq_false_of_not_eq_true hnew

/-- A component with a new name is registered if it is ready. -/
lemma Booted.registers_iff (h : Booted env components m)
    (hname : cfg.name ∉ components.map (·.name)) :
    (m.registerComponent cfg (env.imported cfg.libPath)).1 = .ok () ↔ Ready env components cfg := by
  rw [CComponentManager.registerComponent_eq_ok_iff]
  simp only [h.creates_iff]
  constructor
  · rintro ⟨_, _, hnew, T, r, hT, hconstruct, hresolved, -, -⟩
    refine ⟨hname, hnew, T, hT, hconstruct, ?_⟩
    intro d hd
    exact h.exists_provider.mp (resolve_TComponentFactory_isOk.mp ⟨r, hresolved⟩ d hd)
  · rintro ⟨-, hnew, T, hT, hconstruct, hdepends⟩
    have hprovided : ∀ d ∈ T.depends, ∃ name c, m.registered.find? name = some c ∧ c.Provides d :=
      fun d hd => h.exists_provider.mpr (hdepends d hd)
    obtain ⟨r, hresolved⟩ := resolve_TComponentFactory_isOk.mpr hprovided
    exact ⟨_, _, hnew, T, r, hT, hconstruct, hresolved, rfl, rfl⟩

/-! ### The manager after it -/

lemma ComponentOf.append (h : ComponentOf env components cfg T c) (rest : List ComponentConfig) :
    ComponentOf env (components ++ rest) cfg T c := by
  have hmono : ∀ {i : ℕ} {b}, components[i]? = some b → (components ++ rest)[i]? = some b := by
    intro i b hb
    rw [List.getElem?_append_left (List.getElem?_eq_some_iff.mp hb).1, hb]
  refine ⟨hmono h.entry, h.type, h.provided, h.nonempty, h.resolved, ?_⟩
  intro k i hi
  obtain ⟨info, hinfo, b, T', hb, hT'⟩ := h.bound k i hi
  exact ⟨info, hinfo, b, T', hmono hb, hT'⟩

/-- A new component is bound to what the resolution has found. -/
lemma Booted.componentOf (h : Booted env components m) {r : ResolvedDependencies}
    (hT : env.types cfg.libPath = .ok T) (hne : T.interfaces ≠ [])
    (hr : resolveDependencies m.registered (TComponentFactory T).getDependencies = .ok r) :
    ComponentOf env (components ++ [cfg]) cfg T
      ⟨components.length, provideInterfaces components.length T.interfaces, r⟩ where
  entry := List.getElem?_concat_length
  type := hT
  provided := rfl
  nonempty := hne
  resolved _ := by
    have hnames : ((TComponentFactory T).depends.map Prod.fst).Nodup := T.depends_nodup
    exact isSome_resolved hnames hr
  bound := by
    intro k i hi
    obtain ⟨info, hinfo, hprovider⟩ := (find?_of_resolveDependencies hr).mp hi
    refine ⟨info, (find?_fillInfo T.depends_nodup).mp hinfo, ?_⟩
    obtain ⟨name, c, hc, hfind, htype, -⟩ := exists_of_provider hprovider
    obtain ⟨b, T', -, hof⟩ := h.registered name c hc
    have hnumber : i.component = c.number := by
      rw [hof.provided] at hfind
      exact component_of_provided hfind
    refine ⟨b, T', ?_, hof.type, (provides_iff hof.provided).mp ⟨i, hfind, htype⟩⟩
    rw [hnumber]
    exact (hof.append [cfg]).entry

lemma Booted.step (h : Booted env components m) (hready : Ready env components cfg) :
    Booted env (components ++ [cfg])
      (m.registerComponent cfg (env.imported cfg.libPath)).2 := by
  have hcreated := CComponentManager.registerComponent_eq_ok_iff.mp
    ((h.registers_iff hready.name_new).mpr hready)
  obtain ⟨interfaces, c, hc⟩ := hcreated
  rw [CComponentManager.registerComponent_of_creates hc]
  obtain ⟨hnew, T, r, hT, -, hr, rfl, rfl⟩ := h.creates_iff.mp hc
  constructor
  · intro path
    have hload : (loadComponent cfg.libPath (env.imported cfg.libPath) m.loader).2
        = Function.update m.loader cfg.libPath (some ⟨true, some (TComponentFactory T)⟩) := by
      have hunloaded := (h.loaded cfg.libPath).not.mpr hnew
      rw [loadComponent_eq_ok.mpr ⟨Bool.eq_false_of_not_eq_true hunloaded, ⟨T, hT, rfl⟩, rfl⟩]
    simp only [hload, List.map_append, List.map_cons, List.map_nil, List.mem_append,
      List.mem_singleton]
    by_cases hpath : path = cfg.libPath
    · subst hpath
      simp
    · simp [h.loaded, hpath]
  · simp [h.created]
  · rw [List.map_append]
    exact List.nodup_append.mpr ⟨h.names_nodup, List.nodup_singleton _, by
      rintro a ha b hb rfl
      obtain rfl := List.mem_singleton.mp hb
      exact hready.name_new ha⟩
  · intro name c' hc'
    split_ifs at hc' with hnone
    · obtain ⟨b, T', hname, hof⟩ := h.registered name c' hc'
      exact ⟨b, T', hname, hof.append [cfg]⟩
    · rcases OrderedMap.find?_insert_cases hc' with hold | ⟨rfl, rfl, -⟩
      · obtain ⟨b, T', hname, hof⟩ := h.registered name c' hold
        exact ⟨b, T', hname, hof.append [cfg]⟩
      · exact ⟨cfg, T, rfl, h.componentOf hT hnone hr⟩
  · intro b hb T' hT' hne
    rcases List.mem_append.mp hb with hold | hnew'
    · obtain ⟨c', hc'⟩ := Option.isSome_iff_exists.mp (h.complete b hold T' hT' hne)
      split_ifs
      · rw [hc']
        rfl
      · rw [OrderedMap.find?_insert_of_some hc']
        rfl
    · obtain rfl := List.mem_singleton.mp hnew'
      obtain rfl : T = T' := Except.ok.inj (hT.symm.trans hT')
      rw [if_neg hne, OrderedMap.find?_insert, if_pos rfl]
      cases m.registered.find? b.name <;> rfl

/-! ### The whole list -/

/-- What the parser has kept of a name: the entry itself, or one before it. -/
lemma componentsMap_at (before rest : List ComponentConfig) (cfg : ComponentConfig) :
    ∃ b, (cfg.name ∉ before.map (·.name) → b = cfg) ∧
      (cfg.name ∈ before.map (·.name) → b ∈ before) ∧
      (CComponentConfigParser.ofComponents (before ++ cfg :: rest)).componentsMap cfg.name
        = some (b.libPath, b.config) := by
  simp only [CComponentConfigParser.componentsMap_ofComponents, List.find?_append]
  cases hfind : before.find? (fun c => decide (c.name = cfg.name)) with
  | some b =>
    have hmem := List.mem_of_find?_eq_some hfind
    have hname : b.name = cfg.name := by simpa using List.find?_some hfind
    refine ⟨b, fun hnew => absurd (hname ▸ List.mem_map_of_mem hmem) hnew, fun _ => hmem, rfl⟩
  | none =>
    refine ⟨cfg, fun _ => rfl, fun hmem => ?_, by simp⟩
    obtain ⟨b, hb, hname⟩ := List.mem_map.mp hmem
    have hno := List.find?_eq_none.mp hfind b hb
    simp [hname] at hno

lemma registerListed_cons_of_ok {p : CComponentConfigParser} {name : Str} {names : List Str}
    {m' : CComponentManager} (hmap : p.componentsMap name = some (cfg.libPath, cfg.config))
    (hname : cfg.name = name)
    (hreturns : m.registerComponent cfg (env.imported cfg.libPath) = (.ok (), m')) :
    registerListed env p (name :: names) m
      = ((Performed.does (.registerComponent name)).andThen (registerListed env p names m').1,
          (registerListed env p names m').2) := by
  subst hname
  simp only [registerListed, CComponentConfigParser.getComponentLib,
    CComponentConfigParser.getComponentConfig, hmap, hreturns]

lemma registerListed_cons_of_error {p : CComponentConfigParser} {name : Str} {names : List Str}
    (hmap : p.componentsMap name = some (cfg.libPath, cfg.config)) (hname : cfg.name = name)
    (hthrows : (m.registerComponent cfg (env.imported cfg.libPath)).1 ≠ .ok ()) :
    ∃ e, (registerListed env p (name :: names) m).1 = .fails e := by
  subst hname
  simp only [registerListed, CComponentConfigParser.getComponentLib,
    CComponentConfigParser.getComponentConfig, hmap]
  cases hr : m.registerComponent cfg (env.imported cfg.libPath) with
  | mk result m' =>
    rw [hr] at hthrows
    cases result with
    | error e => exact ⟨e, rfl⟩
    | ok u => exact absurd rfl hthrows

/-- A component that is not ready is not registered. Where its name is taken, it is the library of
an earlier component that is loaded again. -/
lemma Booted.not_registers (h : Booted env before m) {b : ComponentConfig}
    (hnew : cfg.name ∉ before.map (·.name) → b = cfg)
    (hold : cfg.name ∈ before.map (·.name) → b ∈ before) (hready : ¬ Ready env before cfg) :
    (m.registerComponent ⟨cfg.name, b.libPath, b.config⟩ (env.imported b.libPath)).1 ≠ .ok () := by
  by_cases hname : cfg.name ∈ before.map (·.name)
  · rw [ne_eq, CComponentManager.registerComponent_eq_ok_iff]
    rintro ⟨interfaces, c, hc⟩
    exact (h.creates_iff.mp hc).1 (List.mem_map.mpr ⟨b, hold hname, rfl⟩)
  · obtain rfl := hnew hname
    exact (h.registers_iff hname).not.mpr hready

/-- A list is registered as a whole, or up to the first component that is not ready. -/
lemma Booted.registerListed_cases (h : Booted env before m) :
    (∀ pre c post, rest = pre ++ c :: post → Ready env (before ++ pre) c) ∧
      Booted env (before ++ rest) (registerListed env
        (.ofComponents (before ++ rest)) (rest.map (·.name)) m).2 ∧
      (registerListed env (.ofComponents (before ++ rest)) (rest.map (·.name)) m).1
        = ⟨rest.map fun c => .registerComponent c.name, none⟩ ∨
    ∃ pre c post e, rest = pre ++ c :: post ∧ ¬ Ready env (before ++ pre) c ∧
      (registerListed env (.ofComponents (before ++ rest)) (rest.map (·.name)) m).1
        = ⟨pre.map fun c => .registerComponent c.name, some e⟩ := by
  induction rest generalizing before m with
  | nil =>
    left
    rw [List.append_nil]
    refine ⟨?_, h, rfl⟩
    intro pre c post heq
    exact absurd heq.symm (List.append_ne_nil_of_right_ne_nil pre (List.cons_ne_nil c post))
  | cons cfg rest ih =>
    obtain ⟨b, hnew, hold, hmap⟩ := componentsMap_at before rest cfg
    rw [forall_split_cons_from, List.map_cons, List.map_cons]
    by_cases hready : Ready env before cfg
    · obtain rfl := hnew hready.name_new
      have hreturns := (h.registers_iff hready.name_new).mpr hready
      rw [registerListed_cons_of_ok hmap rfl (Prod.ext hreturns rfl)]
      have hrest := ih (h.step hready)
      rw [List.append_assoc, List.singleton_append] at hrest
      rcases hrest with ⟨hall, hbooted, heq⟩ | ⟨pre, c, post, e, rfl, hc, heq⟩
      · left
        rw [heq]
        exact ⟨⟨hready, hall⟩, hbooted, rfl⟩
      · right
        rw [heq]
        refine ⟨b :: pre, c, post, e, rfl, ?_, rfl⟩
        rwa [List.append_assoc] at hc
    · right
      have hthrows := h.not_registers hnew hold hready
      obtain ⟨e, he⟩ := @registerListed_cons_of_error env ⟨cfg.name, b.libPath, b.config⟩ m
        (.ofComponents (before ++ cfg :: rest)) cfg.name (rest.map (·.name)) hmap rfl hthrows
      refine ⟨[], cfg, rest, e, rfl, ?_, he⟩
      rwa [List.append_nil]

end System
