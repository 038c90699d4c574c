import Mathlib.Data.List.Sort
import WirelessBridge.Launcher.Boot
import WirelessBridge.Launcher.Catalogue

/-!
# The calls of a start

Whatever is listed, the launcher registers in the order of the list, and initialises and starts in
the order of the names; nothing is initialised before everything is registered, nor started before
everything is initialised.
-/

namespace System

open Lib HBE WBridge

/-- A component without interfaces is registered nowhere. -/
def Surroundings.hasInterfaces (env : Surroundings) (c : ComponentConfig) : Bool :=
  match env.types c.libPath with
  | .ok T => !T.interfaces.isEmpty
  | .error _ => false

/-- The names of the components that are brought up, in the order of the map. -/
def Surroundings.broughtUp (env : Surroundings) (components : List ComponentConfig) : List Str :=
  ((components.filter env.hasInterfaces).map (·.name)).insertionSort (· ≤ ·)

variable {env : Surroundings} {components : List ComponentConfig} {cfg : ComponentConfig}
  {m : CComponentManager} {name : Str} {call : Str → LifecycleCall}
  {throws : Str → Option StdException} {names : List Str}

lemma hasInterfaces_iff :
    env.hasInterfaces cfg = true ↔
      ∃ T, env.types cfg.libPath = .ok T ∧ T.interfaces ≠ [] := by
  rw [Surroundings.hasInterfaces]
  cases env.types cfg.libPath with
  | error e => simp
  | ok T => simp

lemma mem_broughtUp :
    name ∈ env.broughtUp components ↔
      ∃ cfg ∈ components, env.hasInterfaces cfg = true ∧ cfg.name = name := by
  simp [Surroundings.broughtUp, and_assoc]

/-- The registry of a whole list holds the components that have interfaces. -/
lemma Booted.registeredNames_eq (h : Booted env components m) :
    registeredNames m.registered = env.broughtUp components := by
  have hsorted : (registeredNames m.registered).Pairwise (· ≤ ·) := by
    rw [registeredNames, List.pairwise_map]
    exact m.registered.sorted.imp le_of_lt
  have hnodup : (env.broughtUp components).Nodup := by
    apply (List.perm_insertionSort _ _).nodup_iff.mpr
    exact h.names_nodup.sublist (List.filter_sublist.map _)
  have hmem : ∀ n, n ∈ registeredNames m.registered ↔ n ∈ env.broughtUp components := by
    intro n
    rw [registeredNames, ← OrderedMap.isSome_find?_iff, mem_broughtUp]
    constructor
    · intro hsome
      obtain ⟨c, hc⟩ := Option.isSome_iff_exists.mp hsome
      obtain ⟨cfg, T, hname, hof⟩ := h.registered n c hc
      exact ⟨cfg, List.mem_of_getElem? hof.entry, hasInterfaces_iff.mpr ⟨T, hof.type, hof.nonempty⟩,
        hname⟩
    · rintro ⟨cfg, hcfg, hinterfaces, rfl⟩
      obtain ⟨T, hT, hne⟩ := hasInterfaces_iff.mp hinterfaces
      exact h.complete cfg hcfg T hT hne
  have hperm : (registeredNames m.registered).Perm (env.broughtUp components) :=
    (List.perm_ext_iff_of_nodup m.registered.nodup_keys hnodup).mpr hmem
  exact hperm.eq_of_pairwise' hsorted (List.pairwise_insertionSort _ _)

/-! ### The loops over the registry -/

/-- A loop calls for every name, or up to the first call that throws. -/
lemma callEach_cases (call : Str → LifecycleCall) (throws : Str → Option StdException)
    (names : List Str) :
    (∀ name ∈ names, throws name = none) ∧ callEach call throws names = ⟨names.map call, none⟩ ∨
    ∃ pre name post e, names = pre ++ name :: post ∧ throws name = some e ∧
      callEach call throws names = ⟨pre.map call, some (CComponentManager.rethrow e)⟩ := by
  induction names with
  | nil => exact .inl ⟨List.forall_mem_nil _, rfl⟩
  | cons name rest ih =>
    rw [callEach]
    cases hname : throws name with
    | some e => exact .inr ⟨[], name, rest, e, rfl, hname, rfl⟩
    | none =>
      rcases ih with ⟨hall, heq⟩ | ⟨pre, n, post, e, rfl, hn, heq⟩
      · left
        rw [heq]
        exact ⟨List.forall_mem_cons.mpr ⟨hname, hall⟩, rfl⟩
      · right
        rw [heq]
        exact ⟨name :: pre, n, post, e, rfl, hn, rfl⟩

/-! ### The start as a whole -/

/-- The component of the error manager has been listed. -/
def FinalHavenListed (env : Surroundings) (components : List ComponentConfig) : Prop :=
  ∃ cfg ∈ components, cfg.name = str "final_haven" ∧
    ∃ T, env.types cfg.libPath = .ok T ∧ T.Provides finalHavenDependency

/-- The ways in which a start goes: it ends at the first component that is not ready, at the first
call of `initComponent` or of `startComponent` that throws, or gets to the error manager. -/
inductive Course (env : Surroundings) (components : List ComponentConfig) :
    List LifecycleCall → Ending → Prop where
  | notReady {pre post : List ComponentConfig} {c : ComponentConfig} {e : StdException}
      (h : components = pre ++ c :: post) (hready : ¬ Ready env pre c) :
      Course env components (pre.map fun c => .registerComponent c.name) (.exitFailure e)
  | initThrows {pre post : List Str} {name : Str} {e : StdException}
      (hlisted : Listed env components)
      (h : env.broughtUp components = pre ++ name :: post) (he : env.initThrows name = some e) :
      Course env components
        (components.map (fun c => .registerComponent c.name) ++ pre.map .initComponent)
        (.exitFailure (CComponentManager.rethrow e))
  | startThrows {pre post : List Str} {name : Str} {e : StdException}
      (hlisted : Listed env components)
      (hinit : ∀ name ∈ env.broughtUp components, env.initThrows name = none)
      (h : env.broughtUp components = pre ++ name :: post) (he : env.startThrows name = some e) :
      Course env components
        (components.map (fun c => .registerComponent c.name) ++
          (env.broughtUp components).map .initComponent ++ pre.map .startComponent)
        (.exitFailure (CComponentManager.rethrow e))
  | up {m : CComponentManager} (hlisted : Listed env components)
      (hbooted : Booted env components m)
      (hinit : ∀ name ∈ env.broughtUp components, env.initThrows name = none)
      (hstart : ∀ name ∈ env.broughtUp components, env.startThrows name = none) :
      Course env components
        (components.map (fun c => .registerComponent c.name) ++
          (env.broughtUp components).map .initComponent ++
          (env.broughtUp components).map .startComponent)
        (findFinalHaven m)

/-- Every start takes one of these courses. -/
lemma startApplication_course {cfgPath : Str} {tree : PTree}
    (h : readComponents tree = some components) :
    Course env components (startApplication env cfgPath (.parsed tree)).1
      (startApplication env cfgPath (.parsed tree)).2 := by
  have hcases := @Booted.registerListed_cases env [] components .init booted_init
  simp only [List.nil_append] at hcases
  simp only [startApplication, CComponentConfigParser.parse, h, bringUp,
    CComponentConfigParser.getComponentList_ofComponents]
  rcases hcases with ⟨hready, hbooted, heq⟩ | ⟨pre, c, post, e, rfl, hc, heq⟩
  · generalize registerListed env (.ofComponents components) (components.map (·.name)) .init = r
      at hbooted heq
    obtain ⟨p, m⟩ := r
    simp only at hbooted heq
    subst heq
    simp only [initAndStartComponents, hbooted.registeredNames_eq]
    rcases callEach_cases .initComponent env.initThrows (env.broughtUp components) with
      ⟨hinit, heq⟩ | ⟨pre, name, post, e, hsplit, he, heq⟩
    · rcases callEach_cases .startComponent env.startThrows (env.broughtUp components) with
        ⟨hstart, heq'⟩ | ⟨pre, name, post, e, hsplit, he, heq'⟩
      · rw [heq, heq']
        simpa [Performed.andThen] using Course.up hready hbooted hinit hstart
      · rw [heq, heq']
        simpa [Performed.andThen] using Course.startThrows hready hinit hsplit he
    · rw [heq]
      simpa [Performed.andThen] using Course.initThrows hready hsplit he
  · rw [heq]
    exact .notReady rfl hc

lemma findFinalHaven_eq_waits {fh : Interface} :
    findFinalHaven m = .waits fh ↔ ∃ c, m.registered.find? (str "final_haven") = some c ∧
      c.provided.find? finalHavenDependency.1 = some fh ∧ fh.typeInfo = finalHavenDependency.2 := by
  simp only [← CComponentManager.getComponent_eq_ok_iff, findFinalHaven]
  cases m.getComponent (str "final_haven") with
  | error e => simp
  | ok c =>
    simp only [Except.ok.injEq, exists_eq_left']
    cases c.provided.find? finalHavenDependency.1 with
    | none => simp
    | some i =>
      simp only [Option.some.injEq]
      split_ifs with htype
      · simp only [Ending.waits.injEq, iff_self_and]
        rintro rfl
        exact htype
      · simp only [false_iff, not_and]
        rintro rfl
        exact htype

/-- The launcher waits if the error manager is among the components. -/
lemma Booted.waits_iff_finalHaven (h : Booted env components m) :
    (∃ fh, findFinalHaven m = .waits fh) ↔ FinalHavenListed env components := by
  simp only [findFinalHaven_eq_waits]
  constructor
  · rintro ⟨fh, c, hc, hfh⟩
    obtain ⟨cfg, T, hname, hof⟩ := h.registered _ c hc
    exact ⟨cfg, List.mem_of_getElem? hof.entry, hname, T, hof.type,
      (provides_iff hof.provided).mp ⟨fh, hfh⟩⟩
  · rintro ⟨cfg, hcfg, hname, T, hT, hprovides⟩
    obtain ⟨c, hc⟩ :=
      Option.isSome_iff_exists.mp (h.complete cfg hcfg T hT hprovides.interfaces_ne_nil)
    obtain ⟨cfg', T', hname', hof⟩ := h.registered _ c hc
    obtain rfl := eq_of_name_eq h.names_nodup (List.mem_of_getElem? hof.entry) hcfg hname'
    obtain rfl : T' = T := Except.ok.inj (hof.type.symm.trans hT)
    obtain ⟨fh, hfh⟩ := (provides_iff hof.provided).mpr hprovides
    rw [hname] at hc
    exact ⟨fh, c, hc, hfh⟩

lemma Course.waits_iff_listed {calls : List LifecycleCall} {ending : Ending}
    (h : Course env components calls ending) :
    (∃ fh, ending = .waits fh) ↔
      Listed env components ∧
      (∀ name ∈ env.broughtUp components,
        env.initThrows name = none ∧ env.startThrows name = none) ∧
      FinalHavenListed env components := by
  have hfailure : ∀ e, ¬ ∃ fh, Ending.exitFailure e = .waits fh := by
    rintro e ⟨fh, hfh⟩
    cases hfh
  cases h with
  | notReady hsplit hready =>
    refine iff_of_false (hfailure _) ?_
    rintro ⟨hlisted, -⟩
    exact hready (hlisted _ _ _ hsplit)
  | initThrows _ hsplit he =>
    refine iff_of_false (hfailure _) ?_
    rintro ⟨-, hnone, -⟩
    have hname := (hnone _ (hsplit ▸ List.mem_append_right _ List.mem_cons_self)).1
    rw [he] at hname
    cases hname
  | startThrows _ _ hsplit he =>
    refine iff_of_false (hfailure _) ?_
    rintro ⟨-, hnone, -⟩
    have hname := (hnone _ (hsplit ▸ List.mem_append_right _ List.mem_cons_self)).2
    rw [he] at hname
    cases hname
  | up hlisted hbooted hinit hstart =>
    rw [hbooted.waits_iff_finalHaven]
    exact ⟨fun hhaven => ⟨hlisted, fun name hname => ⟨hinit name hname, hstart name hname⟩, hhaven⟩,
      fun hall => hall.2.2⟩

lemma listed_of_waits (cfgPath : Str) {fh : Interface}
    (h : (startApplication env cfgPath (.parsed (componentsTree components))).2 = .waits fh) :
    Listed env components :=
  ((startApplication_course (readComponents_componentsTree components)).waits_iff_listed.mp ⟨fh, h⟩).1

/-- The launcher gets to its loop if and only if every listed component is ready when its turn
comes, no call of `initComponent` or `startComponent` throws, and the error manager is among the
components. -/
theorem waits_iff {cfgPath : Str} {tree : PTree} (h : readComponents tree = some components) :
    (∃ fh, (startApplication env cfgPath (.parsed tree)).2 = .waits fh) ↔
      Listed env components ∧
      (∀ name ∈ env.broughtUp components,
        env.initThrows name = none ∧ env.startThrows name = none) ∧
      FinalHavenListed env components :=
  (startApplication_course h).waits_iff_listed

set_option maxRecDepth 10000 in
/-- The shipped list of components comes up. -/
theorem waits_host :
    Listed hostWithoutDevices hostComponents ∧
      (∀ name ∈ hostWithoutDevices.broughtUp hostComponents,
        hostWithoutDevices.initThrows name = none ∧ hostWithoutDevices.startThrows name = none) ∧
      FinalHavenListed hostWithoutDevices hostComponents :=
  (@waits_iff hostWithoutDevices hostComponents (str "bridge_config_host.json")
    (componentsTree hostComponents) (readComponents_componentsTree hostComponents)).mp ⟨_, rfl⟩

end System
