import Mathlib.Data.List.Nodup
import Mathlib.Data.Fintype.Card
import Mathlib.Data.Set.Finite.List
import Mathlib.Logic.Relation

/-!
# Topological orders of lists

A list is in topological order for a relation if every element stands behind all that are related
to it. Without cycles every list has such an order, and with sources in front of their targets a
list has no cycles.
-/

namespace Lib

variable {α β : Type*} {r : α → α → Prop} {l pre post : List α} {a b c : α}

/-- `r b c` says that `b` has to come before `c`. -/
def Topological (r : α → α → Prop) (l : List α) : Prop :=
  ∀ pre c post, l = pre ++ c :: post → ∀ b ∈ l, r b c → b ∈ pre

/-- Some element comes before no other that is related to it. -/
lemma exists_source (hacyclic : ∀ a, ¬ Relation.TransGen r a a) (hne : l ≠ []) :
    ∃ a ∈ l, ∀ b ∈ l, ¬ r b a := by
  let s : {a // a ∈ l} → {a // a ∈ l} → Prop := fun a b => Relation.TransGen r a.1 b.1
  have htrans : IsTrans {a // a ∈ l} s := ⟨fun _ _ _ => Relation.TransGen.trans⟩
  have hirrefl : Std.Irrefl s := ⟨fun a => hacyclic a.1⟩
  have hfinite : Finite {a // a ∈ l} := List.finite_toSet l
  have hwf : WellFounded s := Finite.wellFounded_of_trans_of_irrefl s
  obtain ⟨first, hfirst⟩ := List.exists_mem_of_ne_nil l hne
  obtain ⟨a, -, hmin⟩ := hwf.has_min Set.univ ⟨⟨first, hfirst⟩, trivial⟩
  refine ⟨a.1, a.2, ?_⟩
  intro b hb hba
  exact hmin ⟨b, hb⟩ trivial (.single hba)

/-- Taking the sources one after another sorts a list without cycles. -/
theorem exists_topological (hacyclic : ∀ a, ¬ Relation.TransGen r a a) (l : List α) :
    ∃ l', l'.Perm l ∧ Topological r l' := by
  classical
  induction hn : l.length generalizing l with
  | zero =>
    obtain rfl := List.length_eq_zero_iff.mp hn
    refine ⟨[], .nil, ?_⟩
    intro pre c post heq
    exact absurd heq.symm (List.append_ne_nil_of_right_ne_nil pre (List.cons_ne_nil c post))
  | succ n ih =>
    have hne : l ≠ [] := List.ne_nil_of_length_eq_add_one hn
    obtain ⟨a, ha, hsource⟩ := exists_source hacyclic hne
    have hperm : l.Perm (a :: l.erase a) := List.perm_cons_erase ha
    obtain ⟨rest, hrest, htop⟩ := ih (l.erase a) (by rw [List.length_erase_of_mem ha, hn]; rfl)
    have hperm' : (a :: rest).Perm l := (hrest.cons a).trans hperm.symm
    refine ⟨a :: rest, hperm', ?_⟩
    intro pre c post heq b hb hbc
    cases pre with
    | nil =>
      obtain ⟨rfl, -⟩ := List.cons.inj heq
      exact absurd hbc (hsource b (hperm'.subset hb))
    | cons a' pre =>
      obtain ⟨rfl, hsplit⟩ := List.cons.inj heq
      rcases List.mem_cons.mp hb with rfl | hb
      · exact List.mem_cons_self
      · exact List.mem_cons_of_mem a (htop pre c post hsplit b hb hbc)

/-! ### Order gives acyclicity -/

/-- In a list without repetitions that is in topological order, chains go forward. -/
theorem Topological.acyclic (hnodup : l.Nodup) (htop : Topological r l)
    (hmem : ∀ a b, r a b → a ∈ l ∧ b ∈ l) (a : α) : ¬ Relation.TransGen r a a := by
  classical
  have hlt : ∀ a b, r a b → l.idxOf a < l.idxOf b := by
    intro a b hab
    obtain ⟨ha, hb⟩ := hmem a b hab
    obtain ⟨pre, post, rfl⟩ := List.append_of_mem hb
    have hpre := htop pre b post rfl a ha hab
    have hnot : b ∉ pre := fun h =>
      List.disjoint_of_nodup_append hnodup h List.mem_cons_self
    rw [List.idxOf_append_of_mem hpre, List.idxOf_append_of_notMem hnot, List.idxOf_cons_self]
    exact (List.idxOf_lt_length_of_mem hpre).trans_le (Nat.le_add_right _ _)
  have hchain : ∀ b, Relation.TransGen r a b → l.idxOf a < l.idxOf b := by
    intro b hab
    induction hab with
    | single h => exact hlt _ _ h
    | tail _ h ih => exact ih.trans (hlt _ _ h)
  intro hcycle
  exact lt_irrefl _ (hchain a hcycle)

/-! ### Splits of a list -/

/-- The first element of a list that goes on another, and then its other elements. -/
lemma forall_split_cons_from {before : List α} {P : List α → α → Prop} :
    (∀ pre c post, a :: l = pre ++ c :: post → P (before ++ pre) c) ↔
      P before a ∧ ∀ pre c post, l = pre ++ c :: post → P (before ++ [a] ++ pre) c := by
  constructor
  · intro h
    refine ⟨by simpa using h [] a l rfl, ?_⟩
    rintro pre c post rfl
    simpa using h (a :: pre) c post rfl
  · rintro ⟨hfirst, hrest⟩ pre c post heq
    cases pre with
    | nil =>
      obtain ⟨rfl, rfl⟩ := List.cons.inj heq
      simpa using hfirst
    | cons b pre =>
      obtain ⟨rfl, rfl⟩ := List.cons.inj heq
      simpa using hrest pre c post rfl

lemma nodup_map_iff_new {f : α → β} :
    (l.map f).Nodup ↔ ∀ pre c post, l = pre ++ c :: post → f c ∉ pre.map f := by
  constructor
  · rintro hnodup pre c post rfl hmem
    rw [List.map_append] at hnodup
    exact List.disjoint_of_nodup_append hnodup hmem List.mem_cons_self
  · intro h
    induction l using List.reverseRecOn with
    | nil => exact List.nodup_nil
    | append_singleton l a ih =>
      have hl : (l.map f).Nodup := by
        apply ih
        rintro pre c post rfl
        exact h pre c (post ++ [a]) (by simp)
      rw [List.map_append]
      refine List.nodup_append.mpr ⟨hl, List.nodup_singleton _, ?_⟩
      rintro x hx y hy rfl
      obtain rfl := List.mem_singleton.mp hy
      exact h l a [] rfl hx

end Lib
