import WirelessBridge.Launcher.Lifecycle
import WirelessBridge.Lib.Topological

/-!
# The order of the list

Where no interface has two providers, the order of the list decides whether the components come up,
and nothing else: what they are bound to, and the order in which they are initialised and started,
is the same for every order that comes up. There is one unless components need each other in a
cycle.
-/

namespace System

open Lib HBE WBridge

/-- No interface has two providers. -/
def SoleProviders (env : Surroundings) (components : List ComponentConfig) : Prop :=
  ∀ b ∈ components, ∀ b' ∈ components, ∀ T T' d, env.types b.libPath = .ok T →
    env.types b'.libPath = .ok T' → T.Provides d → T'.Provides d → b = b'

/-- `b` provides what `c` depends on. -/
def NeededBy (env : Surroundings) (components : List ComponentConfig)
    (b c : ComponentConfig) : Prop :=
  b ∈ components ∧ c ∈ components ∧ ∃ T T' d, env.types b.libPath = .ok T ∧
    env.types c.libPath = .ok T' ∧ T.Provides d ∧ d ∈ T'.depends

/-- The name of the component that a dependency is bound to. -/
def boundTo (components : List ComponentConfig) (c : Component) (k : Str) : Option Str :=
  (c.resolved.find? k).bind fun i => (components[i.component]?).map (·.name)

variable {env : Surroundings} {components components' : List ComponentConfig}
  {m m' : CComponentManager} {c c' : Component} {name k : Str}

lemma Listed.booted (h : Listed env components) :
    Booted env components (bringUp env (.ofComponents components)).2 := by
  have hcases := @Booted.registerListed_cases env [] components .init booted_init
  simp only [List.nil_append] at hcases
  rw [bringUp, CComponentConfigParser.getComponentList_ofComponents]
  rcases hcases with ⟨-, hbooted, -⟩ | ⟨pre, c, post, -, hsplit, hready, -⟩
  · exact hbooted
  · exact absurd (h pre c post hsplit) hready

/-! ### What components are bound to -/

lemma broughtUp_of_perm (hperm : components.Perm components') :
    env.broughtUp components = env.broughtUp components' := by
  have hnames := (hperm.filter env.hasInterfaces).map (·.name)
  have hsorted := (List.perm_insertionSort (· ≤ ·) _).trans
    (hnames.trans (List.perm_insertionSort (· ≤ ·) _).symm)
  exact hsorted.eq_of_pairwise' (List.pairwise_insertionSort _ _) (List.pairwise_insertionSort _ _)

/-- A name stands for the same type in both lists, and what it is bound to has a sole provider. -/
lemma Booted.boundTo_eq (h : Booted env components m) (h' : Booted env components' m')
    (hperm : components.Perm components') (hsole : SoleProviders env components)
    (hc : m.registered.find? name = some c) (hc' : m'.registered.find? name = some c') (k : Str) :
    boundTo components c k = boundTo components' c' k := by
  obtain ⟨cfg, T, rfl, hof⟩ := h.registered name c hc
  obtain ⟨cfg', T', hname, hof'⟩ := h'.registered _ c' hc'
  have hentry := List.mem_of_getElem? hof.entry
  have hentry' := hperm.mem_iff.mpr (List.mem_of_getElem? hof'.entry)
  obtain rfl := eq_of_name_eq h.names_nodup hentry' hentry hname
  obtain rfl : T = T' := Except.ok.inj (hof.type.symm.trans hof'.type)
  rw [boundTo, boundTo]
  cases hi : c.resolved.find? k with
  | none =>
    have hnone : ¬ (c'.resolved.find? k).isSome := by
      rw [hof'.resolved, ← hof.resolved, hi]
      exact Bool.false_ne_true
    rw [Option.not_isSome_iff_eq_none.mp hnone]
    rfl
  | some i =>
    have hsome : (c'.resolved.find? k).isSome := by
      rw [hof'.resolved, ← hof.resolved, hi]
      rfl
    obtain ⟨i', hi'⟩ := Option.isSome_iff_exists.mp hsome
    obtain ⟨info, hinfo, b, T₁, hb, hT₁, hprovides⟩ := hof.bound k i hi
    obtain ⟨info', hinfo', b', T₂, hb', hT₂, hprovides'⟩ := hof'.bound k i' hi'
    obtain rfl : info = info' := by
      have hfind := (find?_fillInfo T.depends_nodup).mpr hinfo
      rw [(find?_fillInfo T.depends_nodup).mpr hinfo'] at hfind
      exact (Option.some.inj hfind).symm
    have hmem' := hperm.mem_iff.mpr (List.mem_of_getElem? hb')
    obtain rfl := hsole b (List.mem_of_getElem? hb) b' hmem' T₁ T₂ (k, info) hT₁ hT₂ hprovides
      hprovides'
    rw [hi']
    simp only [Option.bind_some, hb, hb', Option.map_some]

/-- Two orders of a list that both come up bind every component to the same components, and
initialise and start them by the same calls. -/
theorem wiring_of_perm (hperm : components.Perm components') (hsole : SoleProviders env components)
    (h : Listed env components) (h' : Listed env components') :
    let m := (bringUp env (.ofComponents components)).2
    let m' := (bringUp env (.ofComponents components')).2
    initAndStartComponents env m.registered = initAndStartComponents env m'.registered ∧
    (∀ name, (m.registered.find? name).isSome = (m'.registered.find? name).isSome) ∧
    ∀ name c c', m.registered.find? name = some c → m'.registered.find? name = some c' →
      ∀ k, boundTo components c k = boundTo components' c' k := by
  intro m m'
  have hbooted := h.booted
  have hbooted' := h'.booted
  have hnames : registeredNames m.registered = registeredNames m'.registered := by
    rw [hbooted.registeredNames_eq, hbooted'.registeredNames_eq, broughtUp_of_perm hperm]
  refine ⟨by rw [initAndStartComponents, initAndStartComponents, hnames], ?_, ?_⟩
  · intro name
    rw [Bool.eq_iff_iff, OrderedMap.isSome_find?_iff, OrderedMap.isSome_find?_iff]
    show name ∈ registeredNames m.registered ↔ name ∈ registeredNames m'.registered
    rw [hnames]
  · intro name c c' hc hc'
    exact hbooted.boundTo_eq hbooted' hperm hsole hc hc'

/-! ### Two components that need the error manager, and not each other -/

def spareType : ComponentType where
  interfaces := [(str "Spare", ⟨str "System::ISpare"⟩)]
  depends := [finalHavenDependency]
  construct _ := none
  depends_nodup := by decide

def pairSurroundings : Surroundings where
  types libPath :=
    if libPath = str "libfinalhaven.so" then .ok finalHavenType
    else if libPath = str "libexecutor.so" then .ok executorType
    else .ok spareType
  initThrows _ := none
  startThrows _ := none

def neededByPair : ComponentConfig := ⟨str "final_haven", str "libfinalhaven.so", leaf []⟩

def firstOfPair : ComponentConfig := ⟨str "executor", str "libexecutor.so", leaf []⟩

def secondOfPair : ComponentConfig := ⟨str "spare", str "libspare.so", leaf []⟩

/-- What each of the three provides. -/
lemma provides_pair {c : ComponentConfig} {T : ComponentType} {d : Str × InterfaceTypeInfo}
    (hc : c ∈ [neededByPair, firstOfPair, secondOfPair])
    (hT : pairSurroundings.types c.libPath = .ok T) (hprovides : T.Provides d) :
    c = neededByPair ∧ d.1 = str "FinalHaven" ∨ c = firstOfPair ∧ d.1 = str "Executor" ∨
      c = secondOfPair ∧ d.1 = str "Spare" := by
  have hname : ∀ {e : Str × InterfaceTypeInfo}, T.interfaces = [e] → d.1 = e.1 := by
    intro e he
    rw [ComponentType.Provides, he] at hprovides
    exact congrArg Prod.fst
      (List.mem_singleton.mp (OrderedMap.mem_of_find?_insertAll_empty hprovides))
  simp only [List.mem_cons, List.not_mem_nil, or_false] at hc
  rcases hc with rfl | rfl | rfl
  · obtain rfl : finalHavenType = T := Except.ok.inj hT
    exact .inl ⟨rfl, hname rfl⟩
  · obtain rfl : executorType = T := Except.ok.inj hT
    exact .inr (.inl ⟨rfl, hname rfl⟩)
  · obtain rfl : spareType = T := Except.ok.inj hT
    exact .inr (.inr ⟨rfl, hname rfl⟩)

lemma soleProviders_pair :
    SoleProviders pairSurroundings [neededByPair, firstOfPair, secondOfPair] := by
  intro b hb b' hb' T T' d hT hT' hprovides hprovides'
  rcases provides_pair hb hT hprovides with ⟨rfl, hd⟩ | ⟨rfl, hd⟩ | ⟨rfl, hd⟩ <;>
    rcases provides_pair hb' hT' hprovides' with ⟨rfl, hd'⟩ | ⟨rfl, hd'⟩ | ⟨rfl, hd'⟩ <;>
    first
    | rfl
    | exact absurd (hd.symm.trans hd') (by decide)

/-- Both orders of the two come up. -/
lemma listed_pair : Listed pairSurroundings [neededByPair, firstOfPair, secondOfPair] :=
  listed_of_waits [] rfl

lemma listed_pair_swapped :
    Listed pairSurroundings [neededByPair, secondOfPair, firstOfPair] :=
  listed_of_waits [] rfl

/-- In both orders the same calls are made, and the two are bound to the error manager. -/
theorem wiring_of_swap :
    let m := (bringUp pairSurroundings
      (.ofComponents [neededByPair, firstOfPair, secondOfPair])).2
    let m' := (bringUp pairSurroundings
      (.ofComponents [neededByPair, secondOfPair, firstOfPair])).2
    initAndStartComponents pairSurroundings m.registered
      = initAndStartComponents pairSurroundings m'.registered ∧
    ∀ name ∈ [firstOfPair.name, secondOfPair.name], ∃ c c',
      m.registered.find? name = some c ∧ m'.registered.find? name = some c' ∧
      boundTo [neededByPair, firstOfPair, secondOfPair] c (str "FinalHaven")
        = some neededByPair.name ∧
      boundTo [neededByPair, secondOfPair, firstOfPair] c' (str "FinalHaven")
        = some neededByPair.name := by
  intro m m'
  have hwiring := wiring_of_perm (.cons neededByPair (.swap secondOfPair firstOfPair []))
    soleProviders_pair listed_pair listed_pair_swapped
  refine ⟨hwiring.1, ?_⟩
  have hbound : ∀ name c c', m.registered.find? name = some c →
      m'.registered.find? name = some c' →
      boundTo [neededByPair, firstOfPair, secondOfPair] c (str "FinalHaven")
        = some neededByPair.name →
      ∃ c c', m.registered.find? name = some c ∧ m'.registered.find? name = some c' ∧
        boundTo [neededByPair, firstOfPair, secondOfPair] c (str "FinalHaven")
          = some neededByPair.name ∧
        boundTo [neededByPair, secondOfPair, firstOfPair] c' (str "FinalHaven")
          = some neededByPair.name := by
    intro name c c' hc hc' hto
    have hsame := hwiring.2.2 name c c' hc hc' (str "FinalHaven")
    exact ⟨c, c', hc, hc', hto, hsame.symm.trans hto⟩
  intro name hname
  simp only [List.mem_cons, List.not_mem_nil, or_false] at hname
  rcases hname with rfl | rfl
  · exact hbound _ _ _ rfl rfl rfl
  · exact hbound _ _ _ rfl rfl rfl

/-! ### Whether there is an order that comes up -/

/-- Where every dependency has one provider, that provider is listed before. -/
lemma Listed.topological (h : Listed env components) (hsole : SoleProviders env components) :
    Topological (NeededBy env components) components := by
  rintro pre c post hsplit b hb ⟨-, hc, T, T', d, hT, hT', hprovides, hd⟩
  obtain ⟨T₁, hT₁, -, hdepends⟩ := (h pre c post hsplit).loads
  obtain rfl : T' = T₁ := Except.ok.inj (hT'.symm.trans hT₁)
  obtain ⟨b', hb', T₂, hT₂, hprovides'⟩ := hdepends d hd
  have hmem : b' ∈ components := by
    rw [hsplit]
    exact List.mem_append_left _ hb'
  rw [hsole b hb b' hmem T T₂ d hT hT₂ hprovides hprovides']
  exact hb'

/-- Components can be listed so that they come up if and only if names and libraries occur once,
every component can be constructed, every dependency is provided, and none needs itself. -/
theorem exists_listed_iff (hsole : SoleProviders env components) :
    (∃ l : List ComponentConfig, l.Perm components ∧ Listed env l) ↔
      (components.map (·.name)).Nodup ∧ (components.map (·.libPath)).Nodup ∧
      (∀ c ∈ components, ∃ T, env.types c.libPath = .ok T ∧ T.construct c.config = none ∧
        ∀ d ∈ T.depends, ∃ b ∈ components, ∃ T', env.types b.libPath = .ok T' ∧ T'.Provides d) ∧
      ∀ c, ¬ Relation.TransGen (NeededBy env components) c c := by
  constructor
  · rintro ⟨l, hperm, hlisted⟩
    have hnames : (l.map (·.name)).Nodup :=
      nodup_map_iff_new.mpr fun pre c post hsplit => (hlisted pre c post hsplit).name_new
    have hpaths : (l.map (·.libPath)).Nodup :=
      nodup_map_iff_new.mpr fun pre c post hsplit => (hlisted pre c post hsplit).path_new
    refine ⟨(hperm.map _).nodup_iff.mp hnames, (hperm.map _).nodup_iff.mp hpaths, ?_, ?_⟩
    · intro c hc
      obtain ⟨pre, post, hsplit⟩ := List.append_of_mem (hperm.mem_iff.mpr hc)
      obtain ⟨T, hT, hconstruct, hdepends⟩ := (hlisted pre c post hsplit).loads
      refine ⟨T, hT, hconstruct, ?_⟩
      intro d hd
      obtain ⟨b, hb, hprovider⟩ := hdepends d hd
      exact ⟨b, hperm.mem_iff.mp (hsplit ▸ List.mem_append_left _ hb), hprovider⟩
    · have hsole' : SoleProviders env l := fun b hb b' hb' =>
        hsole b (hperm.mem_iff.mp hb) b' (hperm.mem_iff.mp hb')
      have hsame : NeededBy env l = NeededBy env components := by
        funext b c
        simp only [NeededBy, hperm.mem_iff]
      have htop := hlisted.topological hsole'
      rw [hsame] at htop
      refine htop.acyclic (hnames.of_map _) ?_
      rintro a b ⟨ha, hb, -⟩
      exact ⟨hperm.mem_iff.mpr ha, hperm.mem_iff.mpr hb⟩
  · rintro ⟨hnames, hpaths, hloads, hacyclic⟩
    obtain ⟨l, hperm, htop⟩ := exists_topological hacyclic components
    refine ⟨l, hperm, ?_⟩
    intro pre c post hsplit
    have hc : c ∈ components := hperm.mem_iff.mp (by simp [hsplit])
    obtain ⟨T, hT, hconstruct, hdepends⟩ := hloads c hc
    refine ⟨nodup_map_iff_new.mp ((hperm.map _).nodup_iff.mpr hnames) pre c post hsplit,
      nodup_map_iff_new.mp ((hperm.map _).nodup_iff.mpr hpaths) pre c post hsplit,
      T, hT, hconstruct, ?_⟩
    intro d hd
    obtain ⟨b, hb, T', hT', hprovides⟩ := hdepends d hd
    have hneeded : NeededBy env components b c := ⟨hb, hc, T', T, d, hT', hT, hprovides, hd⟩
    exact ⟨b, htop pre c post hsplit b (hperm.mem_iff.mpr hb) hneeded, T', hT', hprovides⟩

/-- The three have an order: two need the first, and none needs itself. -/
theorem not_neededBy_pair :
    let components := [neededByPair, firstOfPair, secondOfPair]
    NeededBy pairSurroundings components neededByPair firstOfPair ∧
    NeededBy pairSurroundings components neededByPair secondOfPair ∧
    ∀ c, ¬ Relation.TransGen (NeededBy pairSurroundings components) c c := by
  intro components
  have hneeded : ∀ {c T}, c ∈ components → pairSurroundings.types c.libPath = .ok T →
      finalHavenDependency ∈ T.depends → NeededBy pairSurroundings components neededByPair c := by
    intro c T hc hT hdepends
    exact ⟨List.mem_cons_self, hc, finalHavenType, T, finalHavenDependency, rfl, hT, rfl, hdepends⟩
  have hacyclic := ((exists_listed_iff soleProviders_pair).mp
    ⟨components, .refl _, listed_pair⟩).2.2.2
  refine ⟨?_, ?_, hacyclic⟩
  · exact hneeded (List.mem_cons_of_mem _ List.mem_cons_self) rfl List.mem_cons_self
  · exact hneeded (List.mem_cons_of_mem _ (List.mem_cons_of_mem _ List.mem_cons_self)) rfl
      List.mem_cons_self

end System
