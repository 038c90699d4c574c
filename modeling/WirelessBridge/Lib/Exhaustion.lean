import WirelessBridge.Lib.AttemptBudget
import WirelessBridge.Lib.Run

/-!
# After giving up

A budget that has given up is silent, and counts on. Its 32-bit counter comes round to zero, and
from there the budget makes attempts again. How many polls it takes to get there.
-/

namespace Lib

namespace Run

variable {σ ε : Type*} {step : σ → ε → σ → Prop} {s t : σ} {tr : List (σ × ε)}

/-- A stock that counted steps draw on, one piece each: every step of a run is fine as long as the
counted ones do not outnumber the pieces. A counted step with nothing left is never fine. -/
theorem forall_iff_countP_le (left : ℕ → σ → Prop) (fine counted : σ × ε → Prop)
    [DecidablePred counted] {r : ℕ} (hrun : Run step s tr t)
    (hstep : ∀ p ∈ tr, ∀ r b, left r p.1 → step p.1 p.2 b →
      (¬ counted p ∧ fine p ∧ left r b) ∨
      (counted p ∧ ∃ r', r = r' + 1 ∧ fine p ∧ left r' b) ∨
      (counted p ∧ r = 0 ∧ ¬ fine p))
    (hleft : left r s) : (∀ p ∈ tr, fine p) ↔ tr.countP counted ≤ r := by
  induction hrun generalizing r with
  | nil s => simp
  | @cons s s' t e tr hst _ ih =>
    have hrest : ∀ p ∈ tr, ∀ r b, left r p.1 → step p.1 p.2 b → _ :=
      fun p hp => hstep p (List.mem_cons_of_mem _ hp)
    rw [List.forall_mem_cons]
    rcases hstep _ List.mem_cons_self r s' hleft hst with
      ⟨hnot, hfine, hleft⟩ | ⟨hcount, r', rfl, hfine, hleft⟩ | ⟨hcount, rfl, hbad⟩
    · rw [List.countP_cons_of_neg (by simpa using hnot), ih hrest hleft]
      exact and_iff_right hfine
    · rw [List.countP_cons_of_pos (by simpa using hcount), ih hrest hleft,
        Nat.add_le_add_iff_right]
      exact and_iff_right hfine
    · rw [List.countP_cons_of_pos (by simpa using hcount)]
      simp [hbad]

end Run

namespace Budget

/-- The counter stands above the limit, and is `r` polls away from zero. -/
structure Left (limit : UInt32) (r : ℕ) (b : Budget) : Prop where
  above : r + limit.toNat < 2 ^ 32
  spent : b.spent.toNat = (2 ^ 32 - r) % 2 ^ 32

variable {limit : UInt32} {now : ℤ} {b : Budget} {r : ℕ}

/-- The poll that gives up leaves the counter one above the limit. -/
lemma left_of_spent_eq (h : b.spent = limit) :
    Left limit (2 ^ 32 - 1 - limit.toNat) { b with spent := b.spent + 1 } := by
  have hlt : limit.toNat < 2 ^ 32 := limit.toNat_lt
  constructor
  · omega
  · rw [UInt32.toNat_add, h]
    simp only [UInt32.toNat_one]
    omega

/-- What a poll can do then: with nothing left it makes an attempt, or gives up once more when no
attempts are allowed at all. -/
lemma Left.verdict_cases (h : Left limit r b) (now : ℤ) :
    (¬ b.deadline < now ∧ verdict limit now b = .wait) ∨
    (b.deadline < now ∧ ∃ r', r = r' + 1 ∧ verdict limit now b = .silent ∧
      Left limit r' { b with spent := b.spent + 1 }) ∨
    (b.deadline < now ∧ r = 0 ∧ (verdict limit now b = .attempt ∨ verdict limit now b = .giveUp)) := by
  obtain ⟨habove, hspent⟩ := h
  by_cases hdue : b.deadline < now
  · cases r with
    | zero =>
      right; right
      refine ⟨hdue, rfl, ?_⟩
      simp only [verdict, if_pos hdue, UInt32.lt_iff_toNat_lt, ← UInt32.toNat_inj]
      have hzero : b.spent.toNat = 0 := hspent
      rcases Nat.eq_zero_or_pos limit.toNat with hlimit | hlimit
      · right
        simp [hzero, hlimit]
      · left
        simp [hzero, hlimit]
    | succ r =>
      right; left
      have habove' : limit.toNat < b.spent.toNat := by omega
      refine ⟨hdue, r, rfl, ?_, ⟨by omega, ?_⟩⟩
      · simp only [verdict, if_pos hdue, UInt32.lt_iff_toNat_lt, ← UInt32.toNat_inj,
          if_neg habove'.not_gt, if_neg habove'.ne']
      · rw [UInt32.toNat_add]
        simp only [UInt32.toNat_one]
        omega
  · exact .inl ⟨hdue, by simp [verdict, hdue]⟩

end Budget

end Lib
