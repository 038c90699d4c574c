import WirelessBridge.Lib.Run
import WirelessBridge.Lib.Topological

/-!
# Shared ownership

Objects that hold counted references to others, and references held from outside. An object is
destroyed once nothing refers to it any more, which takes its own references with it. Without a
cycle of references everything goes in the end, and owners go before what they own.
-/

namespace Lib

variable {ν : Type*}

structure Heap (ν : Type*) where
  alive : List ν
  /-- The references from outside, one entry for each. -/
  held : List ν
  /-- The objects that have been destroyed, in this order. -/
  destroyed : List ν

inductive HeapEvent (ν : Type*) where
  | acquire (n : ν)
  | release (n : ν)
  | destroy (n : ν)

def HeapEvent.IsDestroy : HeapEvent ν → Prop
  | .destroy _ => True
  | _ => False

/-- The count of references to the object is not zero. -/
def Heap.Referenced (owns : ν → List ν) (s : Heap ν) (n : ν) : Prop :=
  n ∈ s.held ∨ ∃ m ∈ s.alive, n ∈ owns m

/-- References are taken where there is another one, and given up in any order. -/
inductive HeapStep [DecidableEq ν] (owns : ν → List ν) : Heap ν → HeapEvent ν → Heap ν → Prop where
  | acquire {s : Heap ν} {n : ν} (h : s.Referenced owns n) :
      HeapStep owns s (.acquire n) { s with held := n :: s.held }
  | release {s : Heap ν} {n : ν} (h : n ∈ s.held) :
      HeapStep owns s (.release n) { s with held := s.held.erase n }
  | destroy {s : Heap ν} {n : ν} (halive : n ∈ s.alive) (hfree : ¬ s.Referenced owns n) :
      HeapStep owns s (.destroy n)
        { s with alive := s.alive.erase n, destroyed := s.destroyed ++ [n] }

variable {owns : ν → List ν} {s s' : Heap ν} {e : HeapEvent ν} {tr : List (Heap ν × HeapEvent ν)}
  {objects l pre post : List ν} {n c : ν}

/-- What there is: the objects that are alive and those destroyed are the same as ever, nobody
refers to what has been destroyed, and owners have been destroyed before what they own. -/
structure Heap.Sound (owns : ν → List ν) (objects : List ν) (s : Heap ν) : Prop where
  all : (s.alive ++ s.destroyed).Perm objects
  referenced : ∀ n, s.Referenced owns n → n ∈ s.alive
  ordered : ∀ pre n post, s.destroyed = pre ++ n :: post → ∀ m ∈ objects, n ∈ owns m → m ∈ pre

/-- At the beginning everything is alive. -/
lemma Heap.sound_start {held : List ν} (hheld : ∀ n ∈ held, n ∈ objects)
    (howns : ∀ m ∈ objects, ∀ n ∈ owns m, n ∈ objects) :
    (⟨objects, held, []⟩ : Heap ν).Sound owns objects where
  all := by simp
  referenced := by
    rintro n (hn | ⟨m, hm, hn⟩)
    · exact hheld n hn
    · exact howns m hm n hn
  ordered := by
    intro pre n post hsplit
    exact absurd hsplit.symm (List.append_ne_nil_of_right_ne_nil pre (List.cons_ne_nil n post))

/-- A split of a list is one at its last element, or goes through the rest. -/
lemma split_concat (h : l ++ [n] = pre ++ c :: post) :
    (pre = l ∧ c = n) ∨ ∃ post', l = pre ++ c :: post' := by
  rcases List.eq_nil_or_concat post with rfl | ⟨post', b, rfl⟩
  · obtain ⟨hpre, hc⟩ := List.append_inj' h rfl
    exact .inl ⟨hpre.symm, (List.singleton_inj.mp hc).symm⟩
  · rw [List.concat_eq_append, ← List.cons_append, ← List.append_assoc] at h
    exact .inr ⟨post', (List.append_inj' h rfl).1⟩

variable [DecidableEq ν]

lemma HeapStep.sound (h : HeapStep owns s e s') (hs : s.Sound owns objects) :
    s'.Sound owns objects := by
  cases h with
  | @acquire n href =>
    refine ⟨hs.all, ?_, hs.ordered⟩
    rintro b (hb | hb)
    · rcases List.mem_cons.mp hb with rfl | hb
      · exact hs.referenced b href
      · exact hs.referenced b (.inl hb)
    · exact hs.referenced b (.inr hb)
  | @release n hn =>
    refine ⟨hs.all, ?_, hs.ordered⟩
    rintro b (hb | hb)
    · exact hs.referenced b (.inl (List.mem_of_mem_erase hb))
    · exact hs.referenced b (.inr hb)
  | @destroy n halive hfree =>
    refine ⟨?_, ?_, ?_⟩
    · calc List.Perm (s.alive.erase n ++ (s.destroyed ++ [n]))
            (s.alive.erase n ++ (n :: s.destroyed)) :=
          (List.perm_append_singleton n s.destroyed).append_left _
        List.Perm _ (n :: s.alive.erase n ++ s.destroyed) := List.perm_middle
        List.Perm _ (s.alive ++ s.destroyed) :=
          (List.perm_cons_erase halive).symm.append_right _
        List.Perm _ objects := hs.all
    · intro b hb
      have hold : s.Referenced owns b := by
        rcases hb with hb | ⟨m, hm, hb⟩
        · exact .inl hb
        · exact .inr ⟨m, List.mem_of_mem_erase hm, hb⟩
      have hne : b ≠ n := fun heq => hfree (heq ▸ hold)
      exact (List.mem_erase_of_ne hne).mpr (hs.referenced b hold)
    · intro pre c post hsplit m hm hc
      rcases split_concat hsplit with ⟨rfl, rfl⟩ | ⟨post', hold⟩
      · -- the owners are not alive, so they have been destroyed
        rcases List.mem_append.mp (hs.all.mem_iff.mpr hm) with hmalive | hmdestroyed
        · exact absurd (.inr ⟨m, hmalive, hc⟩) hfree
        · exact hmdestroyed
      · exact hs.ordered pre c post' hold m hm hc

/-! ### Nothing is left -/

/-- When nothing is held from outside, some object can be destroyed. -/
lemma Heap.exists_destroy (hacyclic : ∀ a, ¬ Relation.TransGen (fun m n => n ∈ owns m) a a)
    (hheld : s.held = []) (halive : s.alive ≠ []) :
    ∃ n s', HeapStep owns s (.destroy n) s' ∧ s'.held = [] ∧
      s'.alive.length < s.alive.length := by
  obtain ⟨n, hn, hsource⟩ := exists_source hacyclic halive
  refine ⟨n, _, .destroy hn ?_, hheld, ?_⟩
  · rintro (hn | ⟨m, hm, hmn⟩)
    · rw [hheld] at hn
      exact List.not_mem_nil hn
    · exact hsource m hm hmn
  · show (s.alive.erase n).length < s.alive.length
    rw [List.length_erase_of_mem hn]
    exact Nat.sub_lt (List.length_pos_of_mem hn) Nat.one_pos

/-- When nothing is held from outside, everything goes. -/
lemma Heap.exists_all_destroyed
    (hacyclic : ∀ a, ¬ Relation.TransGen (fun m n => n ∈ owns m) a a) (hheld : s.held = []) :
    ∃ tr t, Run (HeapStep owns) s tr t ∧ (∀ p ∈ tr, p.2.IsDestroy) ∧ t.alive = [] := by
  induction hk : s.alive.length using Nat.strong_induction_on generalizing s with
  | _ k ih =>
    by_cases halive : s.alive = []
    · exact ⟨[], s, .nil s, fun p hp => absurd hp List.not_mem_nil, halive⟩
    · obtain ⟨n, s', hstep, hheld', hlt⟩ := Heap.exists_destroy hacyclic hheld halive
      obtain ⟨tr, t, hrun, hall, ht⟩ := ih _ (hk ▸ hlt) hheld' rfl
      exact ⟨_, t, .cons hstep hrun, List.forall_mem_cons.mpr ⟨trivial, hall⟩, ht⟩

end Lib
