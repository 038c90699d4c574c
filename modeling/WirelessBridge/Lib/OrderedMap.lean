import Mathlib.Data.List.Pairwise
import Mathlib.Order.Lattice
import Mathlib.Tactic.Common

/-!
# Ordered maps

An ordered map is the list of its entries by ascending keys, which is the order in which a loop
walks through it. The order is a field of the map.
-/

namespace Lib

@[ext]
structure OrderedMap (κ α : Type*) [LinearOrder κ] where
  toList : List (κ × α)
  sorted : toList.Pairwise (·.1 < ·.1)

namespace OrderedMap

variable {κ α β : Type*} [LinearOrder κ]

def empty : OrderedMap κ α := ⟨[], .nil⟩

def find? (m : OrderedMap κ α) (k : κ) : Option α := (m.toList.find? (·.1 = k)).map (·.2)

/-- An entry that is already there stays as it is. -/
def insertEntry (k : κ) (a : α) : List (κ × α) → List (κ × α)
  | [] => [(k, a)]
  | p :: rest =>
    if k < p.1 then (k, a) :: p :: rest
    else if k = p.1 then p :: rest
    else p :: insertEntry k a rest

section

variable {l : List (κ × α)} {k : κ} {a : α} {p : κ × α}

lemma mem_of_mem_insertEntry (h : p ∈ insertEntry k a l) : p = (k, a) ∨ p ∈ l := by
  induction l with
  | nil => exact .inl (List.mem_singleton.mp h)
  | cons q rest ih =>
    rw [insertEntry] at h
    split_ifs at h
    · exact List.mem_cons.mp h
    · exact .inr h
    · rcases List.mem_cons.mp h with rfl | h
      · exact .inr List.mem_cons_self
      · exact (ih h).imp_right (List.mem_cons_of_mem q)

lemma sorted_insertEntry (h : l.Pairwise (·.1 < ·.1)) :
    (insertEntry k a l).Pairwise (·.1 < ·.1) := by
  induction l with
  | nil => exact List.pairwise_singleton _ _
  | cons q rest ih =>
    obtain ⟨hq, hrest⟩ := List.pairwise_cons.mp h
    rw [insertEntry]
    split_ifs with hlt heq
    · refine List.pairwise_cons.mpr ⟨?_, h⟩
      intro p hp
      rcases List.mem_cons.mp hp with rfl | hp
      · exact hlt
      · exact lt_trans hlt (hq p hp)
    · exact h
    · refine List.pairwise_cons.mpr ⟨?_, ih hrest⟩
      intro p hp
      rcases mem_of_mem_insertEntry hp with rfl | hp
      · exact lt_of_le_of_ne (not_lt.mp hlt) (Ne.symm heq)
      · exact hq p hp

lemma subset_insertEntry : l ⊆ insertEntry k a l := by
  induction l with
  | nil => exact List.nil_subset _
  | cons q rest ih =>
    rw [insertEntry]
    split_ifs
    · exact List.subset_cons_self _ _
    · exact List.Subset.refl _
    · exact List.cons_subset_cons q ih

/-- The new entry comes in if its key is new. -/
lemma mem_insertEntry_self (h : ∀ q ∈ l, q.1 ≠ k) : (k, a) ∈ insertEntry k a l := by
  induction l with
  | nil => exact List.mem_singleton_self _
  | cons q rest ih =>
    rw [insertEntry]
    split_ifs with hlt heq
    · exact List.mem_cons_self
    · exact absurd heq.symm (h q List.mem_cons_self)
    · exact List.mem_cons_of_mem q (ih fun r hr => h r (List.mem_cons_of_mem q hr))

end

/-- `insert`, which leaves an entry that is already there. -/
def insert (m : OrderedMap κ α) (k : κ) (a : α) : OrderedMap κ α :=
  ⟨insertEntry k a m.toList, sorted_insertEntry m.sorted⟩

def insertAll (m : OrderedMap κ α) (l : List (κ × α)) : OrderedMap κ α :=
  l.foldl (fun m p => m.insert p.1 p.2) m

variable {m : OrderedMap κ α} {k k' : κ} {a b : α}

@[simp] lemma find?_empty : (empty : OrderedMap κ α).find? k = none := rfl

lemma nodup_keys (m : OrderedMap κ α) : (m.toList.map Prod.fst).Nodup := by
  rw [List.Nodup, List.pairwise_map]
  exact m.sorted.imp ne_of_lt

/-- Where no key occurs twice, the first entry of a key is its only one. -/
lemma find?_map_eq_some_iff {l : List (κ × α)} (h : (l.map Prod.fst).Nodup) :
    (l.find? (·.1 = k)).map (·.2) = some a ↔ (k, a) ∈ l := by
  induction l with
  | nil => simp
  | cons q rest ih =>
    obtain ⟨hq, hrest⟩ := List.nodup_cons.mp h
    rw [List.mem_cons]
    by_cases heq : q.1 = k
    · subst heq
      have hnot : (q.1, a) ∉ rest := fun hmem => hq (List.mem_map.mpr ⟨_, hmem, rfl⟩)
      simp [hnot, Prod.ext_iff, eq_comm]
    · have hne : (k, a) ≠ q := fun h => heq (h ▸ rfl)
      simp [heq, hne, ih hrest]

lemma find?_eq_some_iff : m.find? k = some a ↔ (k, a) ∈ m.toList :=
  find?_map_eq_some_iff m.nodup_keys

lemma find?_eq_none_iff : m.find? k = none ↔ ∀ q ∈ m.toList, q.1 ≠ k := by
  simp [find?]

lemma isSome_find?_iff : (m.find? k).isSome ↔ k ∈ m.toList.map Prod.fst := by
  simp [Option.isSome_iff_exists, find?_eq_some_iff]

lemma find?_insert :
    (m.insert k a).find? k' = if k' = k then (m.find? k).or (some a) else m.find? k' := by
  cases hold : m.find? k' with
  | some b =>
    have hmem := subset_insertEntry (a := a) (k := k) (find?_eq_some_iff.mp hold)
    rw [find?_eq_some_iff.mpr hmem]
    split_ifs with hk
    · rw [← hk, hold, Option.or_some]
      rfl
    · rfl
  | none =>
    split_ifs with hk
    · subst hk
      rw [hold]
      exact find?_eq_some_iff.mpr (mem_insertEntry_self (find?_eq_none_iff.mp hold))
    · rw [find?_eq_none_iff] at hold ⊢
      intro q hq
      rcases mem_of_mem_insertEntry hq with rfl | hq
      · exact Ne.symm hk
      · exact hold q hq

lemma find?_insert_of_some (h : m.find? k' = some b) : (m.insert k a).find? k' = some b := by
  rw [find?_insert]
  split_ifs with hk
  · rw [← hk, h, Option.some_or]
  · exact h

/-- An entry was there before, or is the new one. -/
lemma find?_insert_cases (h : (m.insert k a).find? k' = some b) :
    m.find? k' = some b ∨ k' = k ∧ b = a ∧ m.find? k = none := by
  rw [find?_insert] at h
  split_ifs at h with hk
  · cases hold : m.find? k with
    | some b' =>
      rw [hold, Option.some_or] at h
      left
      rw [hk, hold, h]
    | none =>
      rw [hold, Option.none_or] at h
      exact .inr ⟨hk, (Option.some.inj h).symm, rfl⟩
  · exact .inl h

lemma insertEntry_of_mem {l : List (κ × α)} (hl : l.Pairwise (·.1 < ·.1))
    (hmem : k ∈ l.map Prod.fst) : insertEntry k a l = l := by
  induction l with
  | nil => cases hmem
  | cons q rest ih =>
    obtain ⟨hq, hrest⟩ := List.pairwise_cons.mp hl
    rw [insertEntry]
    rcases List.mem_cons.mp hmem with rfl | hmem
    · simp
    · obtain ⟨p, hp, rfl⟩ := List.mem_map.mp hmem
      have hlt := hq p hp
      rw [if_neg (not_lt_of_gt hlt), if_neg (ne_of_gt hlt), ih hrest hmem]

lemma insert_of_isSome (h : (m.find? k).isSome) : m.insert k a = m := by
  apply OrderedMap.ext
  exact insertEntry_of_mem m.sorted (isSome_find?_iff.mp h)

lemma insert_insert_self : (m.insert k a).insert k b = m.insert k a := by
  apply insert_of_isSome
  rw [find?_insert, if_pos rfl]
  cases m.find? k <;> rfl

@[simp] lemma insertAll_nil : m.insertAll [] = m := rfl

@[simp] lemma insertAll_cons {p : κ × α} {l : List (κ × α)} :
    m.insertAll (p :: l) = (m.insert p.1 p.2).insertAll l := rfl

/-- Of several entries with one key, the first one comes in. -/
lemma find?_insertAll {l : List (κ × α)} :
    (m.insertAll l).find? k = (m.find? k).or ((l.find? (·.1 = k)).map (·.2)) := by
  induction l generalizing m with
  | nil => simp
  | cons p rest ih =>
    rw [insertAll_cons, ih, find?_insert]
    by_cases hk : k = p.1
    · subst hk
      simp
    · simp [hk, Ne.symm hk]

lemma mem_of_find?_insertAll_empty {l : List (κ × α)} (h : (empty.insertAll l).find? k = some a) :
    (k, a) ∈ l := by
  rw [find?_insertAll, find?_empty, Option.none_or, Option.map_eq_some_iff] at h
  obtain ⟨p, hp, rfl⟩ := h
  have hkey : p.1 = k := by simpa using List.find?_some hp
  rw [← hkey]
  exact List.mem_of_find?_eq_some hp

/-- A list without two entries for one key comes in as it is. -/
lemma find?_insertAll_empty {l : List (κ × α)} (h : (l.map Prod.fst).Nodup) :
    (empty.insertAll l).find? k = some a ↔ (k, a) ∈ l := by
  rw [find?_insertAll, find?_empty, Option.none_or]
  exact find?_map_eq_some_iff h

lemma toList_insertAll_empty_eq_nil {l : List (κ × α)} :
    (empty.insertAll l).toList = [] ↔ l = [] := by
  cases l with
  | nil => exact iff_of_true rfl rfl
  | cons p rest =>
    have hfind : (empty.insertAll (p :: rest)).find? p.1 = some p.2 := by
      rw [find?_insertAll, find?_empty, Option.none_or, List.find?_cons_of_pos (by simp),
        Option.map_some]
    exact iff_of_false (List.ne_nil_of_mem (find?_eq_some_iff.mp hfind)) (List.cons_ne_nil p rest)

/-- What a walk through the map comes to first stands at the least key. -/
lemma find?_of_findSome?_eq_some {f : κ × α → Option β} {b : β}
    (h : m.toList.findSome? f = some b) :
    ∃ k a, m.find? k = some a ∧ f (k, a) = some b ∧
      ∀ k' a', m.find? k' = some a' → (f (k', a')).isSome → k ≤ k' := by
  obtain ⟨l₁, ⟨k, a⟩, l₂, hl, hb, hbefore⟩ := List.findSome?_eq_some_iff.mp h
  refine ⟨k, a, find?_eq_some_iff.mpr (by simp [hl]), hb, ?_⟩
  intro k' a' hfind hsome
  have hmem := find?_eq_some_iff.mp hfind
  have hsorted := m.sorted
  rw [hl] at hmem hsorted
  rcases List.mem_append.mp hmem with hmem | hmem
  · rw [hbefore _ hmem] at hsome
    cases hsome
  · rcases List.mem_cons.mp hmem with heq | hmem
    · exact le_of_eq (Prod.mk.inj heq).1.symm
    · have hrest := (List.pairwise_append.mp hsorted).2.1
      exact le_of_lt ((List.pairwise_cons.mp hrest).1 _ hmem)

lemma isSome_findSome?_iff {f : κ × α → Option β} :
    (m.toList.findSome? f).isSome ↔ ∃ k a, m.find? k = some a ∧ (f (k, a)).isSome := by
  simp [find?_eq_some_iff]

end OrderedMap

end Lib
