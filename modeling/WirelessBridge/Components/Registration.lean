import WirelessBridge.Components.Resolution

/-!
# Whether a component that has been registered can be got

`registerComponent` inserts the new component in its loop over the interfaces, and does not look at
what `insert` returns. A component without interfaces is not inserted, and one whose name is taken
is dropped; the call returns all the same.
-/

namespace HBE

open Lib

namespace CComponentManager

/-- After the calls, `getComponent` returns for the name of each call that has returned the very
component that was created by it. -/
def Registered (calls : List (ComponentConfig × Imported)) : Prop :=
  ∀ before config imported after interfaces c, calls = before ++ (config, imported) :: after →
    Creates (init.registerAll before) config imported interfaces c →
    (init.registerAll calls).getComponent config.name = .ok c

variable {m : CComponentManager} {config : ComponentConfig} {imported : Imported}
  {calls calls' : List (ComponentConfig × Imported)} {interfaces : List (Str × InterfaceTypeInfo)}
  {name : Str} {c : Component}

/-- The calls that return are those that create a component. -/
lemma registerComponent_eq_ok_iff :
    (m.registerComponent config imported).1 = .ok () ↔
      ∃ interfaces c, Creates m config imported interfaces c := by
  constructor
  · intro h
    rcases registerComponent_cases m config imported with hc | ⟨e, heq⟩
    · exact hc
    · rw [heq] at h
      cases h
  · rintro ⟨interfaces, c, hc⟩
    rw [registerComponent_of_creates hc]

lemma registerAll_append :
    m.registerAll (calls ++ calls') = (m.registerAll calls).registerAll calls' := by
  induction calls generalizing m with
  | nil => rfl
  | cons call rest ih => exact ih

lemma Creates.number_eq (h : Creates m config imported interfaces c) : c.number = m.created := by
  cases h
  rfl

/-! ### What calls do to the registry -/

/-- A call leaves the entries as they are, and adds at most one, for a component that it creates. -/
lemma find?_registerComponent
    (h : (m.registerComponent config imported).2.registered.find? name = some c) :
    m.registered.find? name = some c ∨ m.created ≤ c.number := by
  rcases registerComponent_cases m config imported with ⟨interfaces, c', hc'⟩ | ⟨e, heq⟩
  · rw [registerComponent_of_creates hc'] at h
    simp only at h
    split_ifs at h
    · exact .inl h
    · rcases OrderedMap.find?_insert_cases h with hold | ⟨-, rfl, -⟩
      · exact .inl hold
      · exact .inr hc'.number_eq.ge
  · rw [heq] at h
    exact .inl h

lemma find?_registerComponent_of_some (h : m.registered.find? name = some c) :
    (m.registerComponent config imported).2.registered.find? name = some c := by
  rcases registerComponent_cases m config imported with ⟨interfaces, c', hc'⟩ | ⟨e, heq⟩
  · rw [registerComponent_of_creates hc']
    simp only
    split_ifs
    · exact h
    · exact OrderedMap.find?_insert_of_some h
  · rw [heq]
    exact h

lemma created_le_registerComponent :
    m.created ≤ (m.registerComponent config imported).2.created := by
  rcases registerComponent_cases m config imported with ⟨interfaces, c, hc⟩ | ⟨e, heq⟩
  · rw [registerComponent_of_creates hc]
    show m.created ≤ m.created + 1
    exact Nat.le_succ _
  · rw [heq]

/-- Names that are registered stay so, whatever is called. -/
lemma find?_registerAll_of_some (h : m.registered.find? name = some c) :
    (m.registerAll calls).registered.find? name = some c := by
  induction calls generalizing m with
  | nil => exact h
  | cons call rest ih => exact ih (find?_registerComponent_of_some h)

lemma find?_registerAll (h : (m.registerAll calls).registered.find? name = some c) :
    m.registered.find? name = some c ∨ m.created ≤ c.number := by
  induction calls generalizing m with
  | nil => exact .inl h
  | cons call rest ih =>
    rcases ih h with hold | hnew
    · exact find?_registerComponent hold
    · exact .inr (created_le_registerComponent.trans hnew)

/-! ### What becomes of a new component -/

lemma find?_of_creates (hc : Creates m config imported interfaces c) (hne : interfaces ≠ [])
    (hfree : m.registered.find? config.name = none) :
    (m.registerComponent config imported).2.registered.find? config.name = some c := by
  rw [registerComponent_of_creates hc]
  simp only [if_neg hne]
  rw [OrderedMap.find?_insert, if_pos rfl, hfree, Option.none_or]

/-- A component that later calls find under its name has been inserted by its own call. -/
lemma inserted_of_find? (hwired : Wired m.registered m.created)
    (hc : Creates m config imported interfaces c)
    (h : ((m.registerComponent config imported).2.registerAll calls).registered.find? config.name
      = some c) :
    interfaces ≠ [] ∧ m.registered.find? config.name = none := by
  have hcreated : (m.registerComponent config imported).2.created = m.created + 1 := by
    rw [registerComponent_of_creates hc]
  -- The number of `c` is that of the call, so neither earlier nor later calls have inserted it.
  have hfresh : m.registered.find? config.name ≠ some c := by
    intro hold
    have hlt := hwired.numbered _ c hold
    rw [hc.number_eq] at hlt
    exact lt_irrefl _ hlt
  have hthere : (m.registerComponent config imported).2.registered.find? config.name = some c := by
    rcases find?_registerAll h with hold | hnew
    · exact hold
    · rw [hcreated, hc.number_eq] at hnew
      exact absurd hnew (Nat.not_succ_le_self _)
  rw [registerComponent_of_creates hc] at hthere
  simp only at hthere
  split_ifs at hthere with hnone
  · exact absurd hthere hfresh
  · rcases OrderedMap.find?_insert_cases hthere with hold | ⟨-, -, hfree⟩
    · exact absurd hold hfresh
    · exact ⟨hnone, hfree⟩

/-- What has been registered can be got, under every sequence of calls, just when each call that
returns has created a component with an interface, under a name that was not taken. -/
theorem registered_iff (calls : List (ComponentConfig × Imported)) :
    Registered calls ↔
      ∀ before config imported after interfaces c, calls = before ++ (config, imported) :: after →
        Creates (init.registerAll before) config imported interfaces c →
        interfaces ≠ [] ∧ (init.registerAll before).registered.find? config.name = none := by
  constructor
  · rintro h before config imported after interfaces c rfl hc
    have hfind := getComponent_eq_ok_iff.mp (h before config imported after interfaces c rfl hc)
    rw [registerAll_append] at hfind
    exact inserted_of_find? (wired_registerAll wired_empty before) hc hfind
  · rintro h before config imported after interfaces c rfl hc
    obtain ⟨hne, hfree⟩ := h before config imported after interfaces c rfl hc
    rw [getComponent_eq_ok_iff, registerAll_append, registerAll]
    exact find?_registerAll_of_some (find?_of_creates hc hne hfree)

/-! ### Two components under one name -/

def spareConfig : ComponentConfig :=
  ⟨str "final_haven", str "system/components/finalhaven/libspare.so", .node [] []⟩

/-- Both calls return, and the component of the second one is gone. -/
theorem not_registered_nameTaken :
    ¬ ∀ calls : List (ComponentConfig × Imported), Registered calls := by
  intro hclaim
  have hfirst : Creates (init.registerAll [(finalHavenConfig, .ok (.ok finalHavenFactory))])
      spareConfig (.ok (.ok finalHavenFactory)) [(str "FinalHaven", ⟨str "System::IFinalHaven"⟩)]
      ⟨1, provideInterfaces 1 [(str "FinalHaven", ⟨str "System::IFinalHaven"⟩)], .empty⟩ :=
    .intro rfl rfl rfl
  have hgot := hclaim [(finalHavenConfig, .ok (.ok finalHavenFactory)),
    (spareConfig, .ok (.ok finalHavenFactory))] [(finalHavenConfig, .ok (.ok finalHavenFactory))]
    spareConfig (.ok (.ok finalHavenFactory)) [] _ _ rfl hfirst
  have hnumber := congrArg (fun c : Component => c.number)
    (Option.some.inj ((getComponent_eq_ok_iff.mp hgot).symm.trans rfl))
  exact absurd hnumber (by decide)

end CComponentManager

end HBE
