import WirelessBridge.Lib.Run
import WirelessBridge.Lib.Topological
import Mathlib.Algebra.BigOperators.Ring.List
import Mathlib.Algebra.Order.BigOperators.Group.List
import Mathlib.Tactic.Ring

/-!
# Cascades

A collection of items, each of which can be replaced by a bounded number of others that it is
related to. When the relation has no cycle, an item weighs more than all that can replace it
together, so that the number of replacements is bounded by the number of items put in from outside,
whatever the order in which they are taken.
-/

namespace Lib

variable {α : Type*} {r : α → α → Prop} {sources l l' : List α} {a b : α} {B : ℕ}

inductive CascadeMove where
  | replace
  | insert (n : ℕ)

/-- `r a b` says that `b` can come of the item `a`. -/
inductive CascadeStep (r : α → α → Prop) (B : ℕ) : List α → CascadeMove → List α → Prop where
  | replace {pre post new : List α} {a : α} (hnew : ∀ b ∈ new, r a b) (hlen : new.length ≤ B) :
      CascadeStep r B (pre ++ a :: post) .replace (pre ++ post ++ new)
  | insert (l new : List α) : CascadeStep r B l (.insert new.length) (l ++ new)

def CascadeMove.replaced : CascadeMove → ℕ
  | .replace => 1
  | .insert _ => 0

def CascadeMove.inserted : CascadeMove → ℕ
  | .replace => 0
  | .insert n => n

def replacements (tr : List (List α × CascadeMove)) : ℕ := (tr.map (·.2.replaced)).sum

def insertions (tr : List (List α × CascadeMove)) : ℕ := (tr.map (·.2.inserted)).sum

/-! ### Weights -/

/-- Without cycles there are weights, of at least one and at most `(B + 1) ^ sources.length`, by
which an item outweighs `B` others that can come of it. -/
theorem exists_weight (hacyclic : ∀ a, ¬ Relation.TransGen r a a)
    (hsources : ∀ a b, r a b → a ∈ sources) (B : ℕ) :
    ∃ w : α → ℕ, (∀ a, 1 ≤ w a ∧ w a ≤ (B + 1) ^ sources.length) ∧
      ∀ a b, r a b → (B + 1) * w b ≤ w a := by
  classical
  obtain ⟨order, hperm, htop⟩ := exists_topological hacyclic sources
  have hlength : order.length = sources.length := hperm.length_eq
  -- what is no source comes at the end, where the weight is one
  have hlt : ∀ a b, r a b → order.idxOf a < order.idxOf b := by
    intro a b hab
    have ha : a ∈ order := hperm.symm.subset (hsources a b hab)
    by_cases hb : b ∈ order
    · obtain ⟨pre, post, hsplit, hnot⟩ := List.eq_append_cons_of_mem hb
      have hpre : a ∈ pre := htop pre b post hsplit a ha hab
      rw [hsplit, List.idxOf_append_of_mem hpre, List.idxOf_append_of_notMem hnot,
        List.idxOf_cons_self]
      exact (List.idxOf_lt_length_of_mem hpre).trans_le (Nat.le_add_right _ _)
    · rw [List.idxOf_eq_length hb]
      exact List.idxOf_lt_length_of_mem ha
  refine ⟨fun a => (B + 1) ^ (order.length - order.idxOf a), ?_, ?_⟩
  · intro a
    refine ⟨Nat.one_le_pow _ _ B.succ_pos, ?_⟩
    rw [← hlength]
    exact Nat.pow_le_pow_right B.succ_pos (Nat.sub_le _ _)
  · intro a b hab
    have ha := List.idxOf_lt_length_of_mem (hperm.symm.subset (hsources a b hab))
    have hab := hlt a b hab
    have hstep : (B + 1) * (B + 1) ^ (order.length - order.idxOf b)
        = (B + 1) ^ (order.length - order.idxOf b + 1) := by ring
    rw [hstep]
    exact Nat.pow_le_pow_right B.succ_pos (by omega)

def totalWeight (w : α → ℕ) (l : List α) : ℕ := (l.map w).sum

lemma totalWeight_append (w : α → ℕ) (l l' : List α) :
    totalWeight w (l ++ l') = totalWeight w l + totalWeight w l' := by
  simp [totalWeight]

lemma totalWeight_cons (w : α → ℕ) (a : α) (l : List α) :
    totalWeight w (a :: l) = w a + totalWeight w l := by
  simp [totalWeight]

lemma totalWeight_le {w : α → ℕ} {c : ℕ} (h : ∀ a ∈ l, w a ≤ c) :
    totalWeight w l ≤ l.length * c := by
  have hbound := List.sum_le_card_nsmul (l.map w) c (by simpa using h)
  simpa [totalWeight] using hbound

lemma length_le_totalWeight {w : α → ℕ} (h : ∀ a, 1 ≤ w a) (l : List α) :
    l.length ≤ totalWeight w l := by
  induction l with
  | nil => exact Nat.zero_le _
  | cons a l ih =>
    rw [totalWeight_cons, List.length_cons, add_comm]
    exact Nat.add_le_add (h a) ih

/-- The items that come of one weigh less than it does. -/
lemma totalWeight_lt {w : α → ℕ} (hone : ∀ a, 1 ≤ w a) (hr : ∀ b, r a b → (B + 1) * w b ≤ w a)
    (hnew : ∀ b ∈ l, r a b) (hlen : l.length ≤ B) : totalWeight w l < w a := by
  have hmul : ∀ b ∈ l, (B + 1) * w b ≤ w a := fun b hb => hr b (hnew b hb)
  have hsum : (B + 1) * totalWeight w l ≤ l.length * w a := by
    have hscaled : (B + 1) * totalWeight w l = totalWeight (fun b => (B + 1) * w b) l := by
      simp [totalWeight, List.sum_map_mul_left]
    rw [hscaled]
    exact totalWeight_le hmul
  have ha : 0 < w a := hone a
  have hlt : l.length * w a < (B + 1) * w a :=
    Nat.mul_lt_mul_of_pos_right (Nat.lt_succ_of_le hlen) ha
  exact Nat.lt_of_mul_lt_mul_left (hsum.trans_lt hlt)

/-! ### Runs -/

/-- A step pays for its replacement with weight. -/
lemma CascadeStep.totalWeight_add_le {w : α → ℕ} {K : ℕ} {m : CascadeMove}
    (hone : ∀ a, 1 ≤ w a) (hK : ∀ a, w a ≤ K) (hr : ∀ a b, r a b → (B + 1) * w b ≤ w a)
    (h : CascadeStep r B l m l') :
    totalWeight w l' + m.replaced ≤ totalWeight w l + K * m.inserted := by
  cases h with
  | @replace pre post new a hnew hlen =>
    have hlt := totalWeight_lt hone (hr a) hnew hlen
    simp only [totalWeight_append, totalWeight_cons, CascadeMove.replaced, CascadeMove.inserted]
    omega
  | insert _ new =>
    have hle : totalWeight w new ≤ new.length * K := totalWeight_le fun a _ => hK a
    rw [mul_comm] at hle
    simp only [totalWeight_append, CascadeMove.replaced, CascadeMove.inserted]
    omega

/-- Without cycles, the items that are left and the replacements made are bounded by the items that
were there and those put in. -/
theorem replacements_le (hacyclic : ∀ a, ¬ Relation.TransGen r a a)
    (hsources : ∀ a b, r a b → a ∈ sources) {tr : List (List α × CascadeMove)}
    (hrun : Run (CascadeStep r B) l tr l') :
    replacements tr + l'.length ≤ (B + 1) ^ sources.length * (l.length + insertions tr) := by
  obtain ⟨w, hw, hr⟩ := exists_weight hacyclic hsources B
  have hpaid : totalWeight w l' + replacements tr
      ≤ totalWeight w l + (B + 1) ^ sources.length * insertions tr := by
    induction hrun with
    | nil l => simp [replacements, insertions]
    | cons hstep hrun ih =>
      have hle := hstep.totalWeight_add_le (fun a => (hw a).1) (fun a => (hw a).2) hr
      simp only [replacements, insertions, List.map_cons, List.sum_cons, Nat.mul_add] at ih ⊢
      omega
  have hleft := length_le_totalWeight (fun a => (hw a).1) l'
  have hstart : totalWeight w l ≤ l.length * (B + 1) ^ sources.length :=
    totalWeight_le fun a _ => (hw a).2
  rw [mul_comm] at hstart
  rw [Nat.mul_add]
  omega

end Lib
