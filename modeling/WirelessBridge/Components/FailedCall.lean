import WirelessBridge.Components.Resolution
import WirelessBridge.Lib.Observation

/-!
# What a failed registration leaves behind

A call of `registerComponent` can throw before its library is loaded, or after. The registry is as
before in both cases, but the loader keeps a library that has been loaded, and refuses to load it
once more.
-/

namespace HBE

open Lib

/-- `library_fn` is set in the entry for the path. -/
def isLoaded (libraries : CComponentLoader) (path : Str) : Bool :=
  ((libraries path).getD ⟨false, none⟩).loaded

inductive ManagerCall where
  | registerComponent (config : ComponentConfig) (imported : Imported)
  | getComponent (name : Str)

/-- The call registers from a library at this path. -/
def ManagerCall.LoadsFrom (path : Str) : ManagerCall → Prop
  | .registerComponent config _ => config.libPath = path
  | .getComponent _ => False

def componentReload : StdException := .runtimeError (str "component reload")

namespace CComponentManager

/-- What a call returns or throws, and the manager after it. -/
def call (m : CComponentManager) :
    ManagerCall → Except StdException (Option Component) × CComponentManager
  | .registerComponent config imported =>
    let (result, m') := m.registerComponent config imported
    (result.map fun _ => none, m')
  | .getComponent name => ((m.getComponent name).map some, m)

/-- The call loads its library: there is one at the path, and it has not been loaded before. -/
def LoadsLibrary (m : CComponentManager) (config : ComponentConfig) (imported : Imported) : Prop :=
  isLoaded m.loader config.libPath = false ∧ ∃ factory, imported = .ok factory

/-- Managers that differ at most in the libraries outside `P`. -/
structure AgreeOn (P : Str → Prop) (m m' : CComponentManager) : Prop where
  registered : m.registered = m'.registered
  created : m.created = m'.created
  loaded : ∀ path, P path → isLoaded m.loader path = isLoaded m'.loader path

variable {m m' : CComponentManager} {config : ComponentConfig} {imported : Imported}
  {libraries libraries' : CComponentLoader} {path : Str} {P : Str → Prop}

/-! ### The loader -/

lemma loadComponent_of_loaded (h : isLoaded libraries path = true) :
    loadComponent path imported libraries = (.error componentReload, libraries) := if_pos h

lemma loadComponent_of_not_loaded (imported : Imported) (h : isLoaded libraries path = false) :
    ∃ factory, loadComponent path imported libraries
      = (imported.bind id, Function.update libraries path (some ⟨imported.isOk, factory⟩)) := by
  have hnot : ¬ ((libraries path).getD ⟨false, none⟩).loaded = true := Bool.eq_false_iff.mp h
  have hsame : (libraries path).getD ⟨false, none⟩
      = ⟨false, ((libraries path).getD ⟨false, none⟩).factory⟩ :=
    congrArg (Library.mk · ((libraries path).getD ⟨false, none⟩).factory) h
  simp only [loadComponent, if_neg hnot]
  cases imported with
  | error e => exact ⟨_, congrArg (fun lib => (_, Function.update libraries path (some lib))) hsame⟩
  | ok result =>
    cases result with
    | error e => exact ⟨_, rfl⟩
    | ok factory => exact ⟨_, rfl⟩

/-- The result depends on whether the library has been loaded, and not on what else is there. -/
lemma loadComponent_congr (imported : Imported)
    (h : isLoaded libraries path = isLoaded libraries' path) :
    (loadComponent path imported libraries).1 = (loadComponent path imported libraries').1 := by
  cases hloaded : isLoaded libraries path with
  | true => rw [loadComponent_of_loaded hloaded, loadComponent_of_loaded (h ▸ hloaded)]
  | false =>
    obtain ⟨factory, hload⟩ := loadComponent_of_not_loaded imported hloaded
    obtain ⟨factory', hload'⟩ := loadComponent_of_not_loaded imported (h ▸ hloaded)
    rw [hload, hload']

/-- A call loads the library at its path, if there is one. -/
lemma isLoaded_loadComponent (other : Str) :
    isLoaded (loadComponent path imported libraries).2 other
      = (isLoaded libraries other || (decide (other = path) && imported.isOk)) := by
  cases hloaded : isLoaded libraries path with
  | true =>
    rw [loadComponent_of_loaded hloaded]
    by_cases hpath : other = path
    · subst hpath
      simp [hloaded]
    · simp [hpath]
  | false =>
    obtain ⟨factory, hload⟩ := loadComponent_of_not_loaded imported hloaded
    rw [hload]
    by_cases hpath : other = path
    · subst hpath
      have hnew : isLoaded (Function.update libraries other (some ⟨imported.isOk, factory⟩)) other
          = imported.isOk := by simp [isLoaded]
      simp [hnew, hloaded]
    · simp [isLoaded, hpath]

lemma loader_registerComponent :
    (m.registerComponent config imported).2.loader
      = (loadComponent config.libPath imported m.loader).2 := by
  rcases registerComponent_cases m config imported with ⟨interfaces, c, hc⟩ | ⟨e, heq⟩
  · rw [registerComponent_of_creates hc]
  · rw [heq]

/-! ### Managers that agree -/

/-- What `registerComponent` does once it has the result of the loader. -/
lemma registerComponent_congr (hregistered : m.registered = m'.registered)
    (hcreated : m.created = m'.created)
    (hload : (loadComponent config.libPath imported m.loader).1
      = (loadComponent config.libPath imported m'.loader).1) :
    (m.registerComponent config imported).1 = (m'.registerComponent config imported).1 ∧
    (m.registerComponent config imported).2.registered
      = (m'.registerComponent config imported).2.registered ∧
    (m.registerComponent config imported).2.created
      = (m'.registerComponent config imported).2.created := by
  simp only [registerComponent]
  rw [← hregistered, ← hcreated]
  generalize loadComponent config.libPath imported m.loader = load at *
  generalize loadComponent config.libPath imported m'.loader = load' at *
  obtain ⟨result, loader⟩ := load
  obtain ⟨result', loader'⟩ := load'
  obtain rfl : result = result' := hload
  cases result with
  | error e => exact ⟨rfl, rfl, rfl⟩
  | ok factory =>
    cases hresolved : resolveDependencies m.registered factory.getDependencies with
    | error e => simp [hresolved]
    | ok resolved => cases hcreate : factory.createInstance config.config resolved <;>
        simp [hresolved, hcreate]

lemma AgreeOn.registerComponent (h : AgreeOn P m m') (imported : Imported)
    (hpath : P config.libPath) :
    (m.registerComponent config imported).1 = (m'.registerComponent config imported).1 ∧
    AgreeOn P (m.registerComponent config imported).2 (m'.registerComponent config imported).2 := by
  obtain ⟨hresult, hregistered, hcreated⟩ := registerComponent_congr h.registered h.created
    (loadComponent_congr imported (h.loaded _ hpath))
  refine ⟨hresult, hregistered, hcreated, ?_⟩
  intro path hP
  rw [loader_registerComponent, loader_registerComponent, isLoaded_loadComponent,
    isLoaded_loadComponent, h.loaded path hP]

lemma AgreeOn.call (h : AgreeOn P m m') (i : ManagerCall)
    (hpath : ∀ path, i.LoadsFrom path → P path) :
    (m.call i).1 = (m'.call i).1 ∧ AgreeOn P (m.call i).2 (m'.call i).2 := by
  cases i with
  | registerComponent config imported =>
    obtain ⟨hresult, hagree⟩ := h.registerComponent imported (hpath config.libPath rfl)
    exact ⟨congrArg (Except.map fun _ => none) hresult, hagree⟩
  | getComponent name =>
    refine ⟨?_, h⟩
    simp only [CComponentManager.call, getComponent, h.registered]

/-- A failed call leaves the registry as it is, and all libraries but its own. -/
lemma agreeOn_of_error {e : StdException} (h : (m.registerComponent config imported).1 = .error e)
    (hpath : ∀ path, P path → path = config.libPath → ¬ m.LoadsLibrary config imported) :
    AgreeOn P (m.registerComponent config imported).2 m := by
  have hloaded : ∀ path, P path →
      isLoaded (m.registerComponent config imported).2.loader path = isLoaded m.loader path := by
    intro path hP
    rw [loader_registerComponent, isLoaded_loadComponent]
    by_cases heq : path = config.libPath
    · subst heq
      have hnot := hpath _ hP rfl
      cases hold : isLoaded m.loader config.libPath with
      | true => rfl
      | false =>
        cases imported with
        | error e => simp [Except.isOk, Except.toBool]
        | ok factory => exact absurd ⟨hold, factory, rfl⟩ hnot
    · simp [heq]
  rcases registerComponent_cases m config imported with ⟨interfaces, c, hc⟩ | ⟨e', heq⟩
  · rw [registerComponent_of_creates hc] at h
    cases h
  · refine ⟨?_, ?_, hloaded⟩ <;> rw [heq]

/-! ### Libraries that have been loaded -/

lemma isLoaded_call (i : ManagerCall) (h : isLoaded m.loader path = true) :
    isLoaded (m.call i).2.loader path = true := by
  cases i with
  | registerComponent config imported =>
    have hloader : (m.call (.registerComponent config imported)).2.loader
        = (loadComponent config.libPath imported m.loader).2 := loader_registerComponent
    rw [hloader, isLoaded_loadComponent, h, Bool.true_or]
  | getComponent name => exact h

lemma registerComponent_of_loaded (imported : Imported)
    (h : isLoaded m.loader config.libPath = true) :
    (m.registerComponent config imported).1 = .error (rethrow componentReload) := by
  simp only [CComponentManager.registerComponent, loadComponent_of_loaded h]

lemma LoadsLibrary.isLoaded (h : m.LoadsLibrary config imported) :
    isLoaded (m.registerComponent config imported).2.loader config.libPath = true := by
  obtain ⟨-, factory, rfl⟩ := h
  rw [loader_registerComponent, isLoaded_loadComponent]
  simp [Except.isOk, Except.toBool]

/-- A component that depends on nothing. -/
def freeFactory : ComponentFactory := ⟨[], fun _ _ => .ok []⟩

/-- A library that has been loaded shows in the next call for its path. -/
lemma LoadsLibrary.not_indistinguishable (h : m.LoadsLibrary config imported) :
    ¬ Indistinguishable call (m.registerComponent config imported).2 m := by
  intro hsame
  have hanswer := hsame.answer_eq (.registerComponent config (.ok (.ok freeFactory)))
  have hfails := registerComponent_of_loaded (.ok (.ok freeFactory)) h.isLoaded
  obtain ⟨factory, hload⟩ := loadComponent_of_not_loaded (.ok (.ok freeFactory)) h.1
  have hreturns : (m.registerComponent config (.ok (.ok freeFactory))).1 = .ok () := by
    rw [registerComponent_of_creates (.intro hload rfl rfl)]
  simp only [call, hfails, hreturns] at hanswer
  cases hanswer

/-- After a call that has thrown, every sequence of calls that do not load from its path goes as if
it had not been made. So does every sequence at all just when it has not loaded its library;
otherwise every later registration from there is refused as a reload. -/
theorem failed_registration {e : StdException}
    (h : (m.registerComponent config imported).1 = .error e) :
    (∀ later : List ManagerCall, (∀ i ∈ later, ¬ i.LoadsFrom config.libPath) →
      outcomes call (m.registerComponent config imported).2 later = outcomes call m later) ∧
    (Indistinguishable call (m.registerComponent config imported).2 m ↔
      ¬ m.LoadsLibrary config imported) ∧
    (m.LoadsLibrary config imported → ∀ (later : List ManagerCall) (config' : ComponentConfig)
      (imported' : Imported), config'.libPath = config.libPath →
      ((finalState call (m.registerComponent config imported).2 later).registerComponent
        config' imported').1 = .error (rethrow componentReload)) := by
  refine ⟨?_, ⟨?_, ?_⟩, ?_⟩
  · intro later hlater
    have hagree : AgreeOn (· ≠ config.libPath) (m.registerComponent config imported).2 m :=
      agreeOn_of_error h fun path hne heq => absurd heq hne
    apply outcomes_eq_of_kept _ hlater hagree
    intro m₁ m₂ i hi hagree
    refine hagree.call i fun path hfrom heq => hi (heq ▸ hfrom)
  · exact fun hsame hloads => hloads.not_indistinguishable hsame
  · intro hnot
    have hagree : AgreeOn (fun _ => True) (m.registerComponent config imported).2 m :=
      agreeOn_of_error h fun _ _ _ => hnot
    exact indistinguishable_of_kept (fun m₁ m₂ i hagree => hagree.call i fun _ _ => trivial) hagree
  · intro hloads later config' imported' hpath
    apply registerComponent_of_loaded
    rw [hpath]
    have hkept : ∀ (m : CComponentManager) (i : ManagerCall),
        HBE.isLoaded m.loader config.libPath = true →
        HBE.isLoaded (m.call i).2.loader config.libPath = true :=
      fun m i => isLoaded_call i
    exact finalState_of_kept hkept hloads.isLoaded

/-! ### An executor that comes too early -/

def executorConfig : ComponentConfig :=
  ⟨str "executor", str "system/components/executor/libexecutor.so", .node [] []⟩

/-- The executor is refused, since nothing provides the interface of the error manager yet. -/
theorem failed_registration_executor :
    ((finalState call (init.registerComponent executorConfig (.ok (.ok executorFactory))).2
      [.registerComponent finalHavenConfig (.ok (.ok finalHavenFactory))]).registerComponent
        executorConfig (.ok (.ok executorFactory))).1 = .error (rethrow componentReload) := by
  have hrefused : (init.registerComponent executorConfig (.ok (.ok executorFactory))).1
      = .error (rethrow (notSatisfied (str "FinalHaven", ⟨str "System::IFinalHaven"⟩))) := rfl
  exact (failed_registration hrefused).2.2 ⟨rfl, _, rfl⟩ _ executorConfig _ rfl

/-- The error manager is registered then, but the executor is refused once more. -/
theorem not_traceless_executor :
    ¬ ∀ (calls : List (ComponentConfig × Imported)) (config : ComponentConfig) (imported : Imported)
        (e : StdException),
        ((init.registerAll calls).registerComponent config imported).1 = .error e →
        Indistinguishable call ((init.registerAll calls).registerComponent config imported).2
          (init.registerAll calls) := by
  intro hclaim
  have hsame := hclaim [] executorConfig (.ok (.ok executorFactory)) _ rfl
    [.registerComponent finalHavenConfig (.ok (.ok finalHavenFactory)),
      .registerComponent executorConfig (.ok (.ok executorFactory))]
  have hanswers := congrArg (List.map Except.isOk) hsame
  exact absurd hanswers (by decide)

end CComponentManager

end HBE
