import Mathlib.Data.List.DropRight
import Mathlib.Data.List.Induction
import Mathlib.Tactic.Common
import Mathlib.Tactic.Linarith
import Mathlib.Tactic.Ring

/-!
# A bounded number of attempts, each with a deadline

A budget counts the attempts made on some task, in a 32-bit counter, and keeps the time up to
which the last one is given. It is polled with clock readings: a poll past the deadline makes an
attempt while the counter is below a limit, gives up when it stands at the limit, and is silent
above it. The counter moves on at every poll past the deadline, so it is the number of such polls
only as long as it has not wrapped around.
-/

namespace Lib

/-- Attempts spent so far, and the time that has to pass before the next poll counts. -/
structure Budget where
  spent : UInt32
  deadline : ℤ
  deriving DecidableEq

namespace Budget

inductive Verdict where
  | wait | attempt | giveUp | silent
  deriving DecidableEq

inductive Input where
  | poll (now : ℤ)
  | clear
  deriving DecidableEq

inductive Outcome where
  | cleared
  | attempted (now : ℤ)
  | gaveUp (now : ℤ)
  deriving DecidableEq

def verdict (limit : UInt32) (now : ℤ) (b : Budget) : Verdict :=
  if b.deadline < now then
    if b.spent < limit then .attempt
    else if b.spent = limit then .giveUp
    else .silent
  else .wait

/-- Clearing a budget gives its attempts back and leaves the deadline as it is. -/
def next (limit : UInt32) (period : ℤ) (b : Budget) : Input → Budget
  | .clear => { b with spent := 0 }
  | .poll now =>
    match verdict limit now b with
    | .wait => b
    | .attempt => ⟨b.spent + 1, now + period⟩
    | .giveUp => { b with spent := b.spent + 1 }
    | .silent => { b with spent := b.spent + 1 }

def outcome (limit : UInt32) (b : Budget) : Input → List Outcome
  | .clear => [.cleared]
  | .poll now =>
    match verdict limit now b with
    | .wait => []
    | .attempt => [.attempted now]
    | .giveUp => [.gaveUp now]
    | .silent => []

def after (limit : UInt32) (period : ℤ) (b : Budget) (is : List Input) : Budget :=
  is.foldl (next limit period) b

/-- Everything that happened to a budget over a list of inputs. -/
def log (limit : UInt32) (period : ℤ) : Budget → List Input → List Outcome
  | _, [] => []
  | b, i :: is => outcome limit b i ++ log limit period (next limit period b i) is

def Input.time? : Input → Option ℤ
  | .poll now => some now
  | .clear => none

def Outcome.isAttempt : Outcome → Bool
  | .attempted _ => true
  | _ => false

def Outcome.isGiveUp : Outcome → Bool
  | .gaveUp _ => true
  | _ => false

/-- How many polls a list of inputs holds. -/
def polls (is : List Input) : ℕ := (is.filterMap Input.time?).length

/-- The part of a log after its last clearing. -/
def sinceCleared (os : List Outcome) : List Outcome :=
  os.rtakeWhile (· ≠ .cleared)

section

variable {limit : UInt32} {period now : ℤ} {b : Budget} {i : Input} {is is' : List Input}

@[simp] lemma after_nil : after limit period b [] = b := rfl

@[simp] lemma after_append :
    after limit period b (is ++ is') = after limit period (after limit period b is) is' := by
  simp [after]

@[simp] lemma after_singleton : after limit period b [i] = next limit period b i := rfl

@[simp] lemma log_nil : log limit period b [] = [] := rfl

@[simp] lemma log_append :
    log limit period b (is ++ is')
      = log limit period b is ++ log limit period (after limit period b is) is' := by
  induction is generalizing b with
  | nil => rfl
  | cons i is ih => simp [log, ih, after]

@[simp] lemma log_singleton : log limit period b [i] = outcome limit b i := by
  simp [log]

@[simp] lemma polls_nil : polls [] = 0 := rfl

@[simp] lemma polls_append : polls (is ++ is') = polls is + polls is' := by
  simp [polls]

@[simp] lemma polls_poll : polls [.poll now] = 1 := rfl

@[simp] lemma polls_clear : polls [.clear] = 0 := rfl

@[simp] lemma sinceCleared_nil : sinceCleared [] = [] := rfl

@[simp] lemma sinceCleared_cleared (os : List Outcome) :
    sinceCleared (os ++ [.cleared]) = [] := by
  simp [sinceCleared]

lemma sinceCleared_append {os os' : List Outcome} (h : Outcome.cleared ∉ os') :
    sinceCleared (os ++ os') = sinceCleared os ++ os' := by
  induction os' using List.reverseRecOn with
  | nil => simp
  | append_singleton os' o ih =>
    simp only [List.mem_append, List.mem_singleton, not_or] at h
    rw [← List.append_assoc, ← List.append_assoc, ← ih h.1]
    exact List.rtakeWhile_concat_pos _ _ _ (by simp [Ne.symm h.2])

end

/-! ### What one poll can do -/

variable {limit : UInt32} {period now : ℤ} {b : Budget} {is : List Input}

/-- `Spent limit n k b os`: over `n` polls, `k` have counted since the last clearing, and `os` is
what happened since then. The counter of `b` is `k` reduced to 32 bits. -/
structure Spent (limit : UInt32) (n k : ℕ) (b : Budget) (os : List Outcome) : Prop where
  le : k ≤ n
  spent : b.spent.toNat = k % 2 ^ 32
  attempts : os.countP (·.isAttempt) = min k limit.toNat
  giveUps : os.countP (·.isGiveUp) = if limit.toNat < k then 1 else 0

lemma Spent.cleared (n : ℕ) (h : b.spent = 0) : Spent limit n 0 b [] where
  le := Nat.zero_le n
  spent := by simp [h]
  attempts := by simp
  giveUps := by simp

lemma Spent.toNat_spent {n k : ℕ} {os : List Outcome} (h : Spent limit n k b os)
    (hk : k < 2 ^ 32) : b.spent.toNat = k := by
  rw [h.spent, Nat.mod_eq_of_lt hk]

/-- The four things a poll can do. -/
lemma poll_cases (limit : UInt32) (period : ℤ) {k : ℕ} (hspent : b.spent.toNat = k) (now : ℤ) :
    (now ≤ b.deadline ∧ outcome limit b (.poll now) = [] ∧ next limit period b (.poll now) = b) ∨
    (b.deadline < now ∧ k < limit.toNat ∧ outcome limit b (.poll now) = [.attempted now] ∧
      next limit period b (.poll now) = ⟨b.spent + 1, now + period⟩) ∨
    (b.deadline < now ∧ k = limit.toNat ∧ outcome limit b (.poll now) = [.gaveUp now] ∧
      next limit period b (.poll now) = { b with spent := b.spent + 1 }) ∨
    (b.deadline < now ∧ limit.toNat < k ∧ outcome limit b (.poll now) = [] ∧
      next limit period b (.poll now) = { b with spent := b.spent + 1 }) := by
  by_cases hdue : b.deadline < now
  · rcases lt_trichotomy k limit.toNat with hlt | heq | hgt
    · have hv : verdict limit now b = .attempt := by
        simp [verdict, hdue, UInt32.lt_iff_toNat_lt, hspent, hlt]
      exact .inr (.inl ⟨hdue, hlt, by simp [outcome, hv], by simp [next, hv]⟩)
    · have hv : verdict limit now b = .giveUp := by
        simp [verdict, hdue, UInt32.lt_iff_toNat_lt, ← UInt32.toNat_inj, hspent, heq]
      exact .inr (.inr (.inl ⟨hdue, heq, by simp [outcome, hv], by simp [next, hv]⟩))
    · have hv : verdict limit now b = .silent := by
        simp [verdict, hdue, UInt32.lt_iff_toNat_lt, ← UInt32.toNat_inj, hspent, hgt.ne',
          hgt.not_gt]
      exact .inr (.inr (.inr ⟨hdue, hgt, by simp [outcome, hv], by simp [next, hv]⟩))
  · have hv : verdict limit now b = .wait := by simp [verdict, hdue]
    exact .inl ⟨not_lt.mp hdue, by simp [outcome, hv], by simp [next, hv]⟩

lemma toNat_succ {k : ℕ} (h : b.spent.toNat = k % 2 ^ 32) :
    (b.spent + 1).toNat = (k + 1) % 2 ^ 32 := by
  rw [UInt32.toNat_add, h]
  simp

lemma toNat_succ_of_lt {k : ℕ} (h : b.spent.toNat = k) (hk : k < limit.toNat) :
    (b.spent + 1).toNat = k + 1 := by
  have hmax : k + 1 < 2 ^ 32 := (Nat.succ_le_of_lt hk).trans_lt limit.toNat_lt
  have hmod : k % 2 ^ 32 = k := Nat.mod_eq_of_lt (Nat.lt_of_succ_lt hmax)
  rw [toNat_succ (h.trans hmod.symm), Nat.mod_eq_of_lt hmax]

/-- A poll adds at most one to the count, and keeps the tally of attempts and of giving up. -/
lemma Spent.poll {n k : ℕ} {os : List Outcome} (h : Spent limit n k b os) (hk : k < 2 ^ 32)
    (period now : ℤ) :
    ∃ k', Spent limit (n + 1) k' (next limit period b (.poll now))
      (os ++ outcome limit b (.poll now)) := by
  rcases poll_cases limit period (h.toNat_spent hk) now with
    ⟨_, ho, hn⟩ | ⟨_, hlt, ho, hn⟩ | ⟨_, heq, ho, hn⟩ | ⟨_, hgt, ho, hn⟩
  · refine ⟨k, Nat.le_succ_of_le h.le, ?_, ?_, ?_⟩
    · rw [hn, h.spent]
    · rw [ho, List.append_nil, h.attempts]
    · rw [ho, List.append_nil, h.giveUps]
  · refine ⟨k + 1, Nat.succ_le_succ h.le, ?_, ?_, ?_⟩
    · rw [hn]; exact toNat_succ h.spent
    · rw [ho, List.countP_append, h.attempts]
      simp [Outcome.isAttempt]; omega
    · rw [ho, List.countP_append, h.giveUps, if_neg (by omega), if_neg (by omega)]
      simp [Outcome.isGiveUp]
  · refine ⟨k + 1, Nat.succ_le_succ h.le, ?_, ?_, ?_⟩
    · rw [hn]; exact toNat_succ h.spent
    · rw [ho, List.countP_append, h.attempts]
      simp [Outcome.isAttempt]; omega
    · rw [ho, List.countP_append, h.giveUps]
      simp [Outcome.isGiveUp, heq]
  · refine ⟨k + 1, Nat.succ_le_succ h.le, ?_, ?_, ?_⟩
    · rw [hn]; exact toNat_succ h.spent
    · rw [ho, List.append_nil, h.attempts]; omega
    · rw [ho, List.append_nil, h.giveUps, if_pos hgt, if_pos (Nat.lt_succ_of_lt hgt)]

lemma cleared_notMem_outcome_poll : Outcome.cleared ∉ outcome limit b (.poll now) := by
  simp only [outcome]
  cases verdict limit now b <;> simp

/-- The tally of a whole run of fewer than `2 ^ 32` polls before the last one. -/
theorem exists_spent (limit : UInt32) (period : ℤ) (hb : b.spent = 0) (is : List Input)
    (hlen : polls is ≤ 2 ^ 32) :
    ∃ k, Spent limit (polls is) k (after limit period b is)
      (sinceCleared (log limit period b is)) := by
  induction is using List.reverseRecOn with
  | nil => exact ⟨0, .cleared 0 hb⟩
  | append_singleton is i ih =>
    cases i with
    | clear =>
      refine ⟨0, ?_⟩
      have hspent : (next limit period (after limit period b is) .clear).spent = 0 := rfl
      simpa [outcome] using Spent.cleared _ hspent
    | poll now =>
      simp only [polls_append, polls_poll] at hlen
      obtain ⟨k, hk⟩ := ih ((Nat.le_succ _).trans hlen)
      have hlt : k < 2 ^ 32 := hk.le.trans_lt (Nat.lt_of_succ_le hlen)
      obtain ⟨k', hk'⟩ := hk.poll hlt period now
      refine ⟨k', ?_⟩
      simpa [sinceCleared_append cleared_notMem_outcome_poll] using hk'

/-! ### Between two clearings -/

lemma outcome_eq (limit : UInt32) (b : Budget) (i : Input) :
    outcome limit b i = [] ∨ ∃ o, outcome limit b i = [o] := by
  cases i with
  | clear => exact .inr ⟨_, rfl⟩
  | poll now =>
    simp only [outcome]
    cases verdict limit now b <;> simp

/-- An entry of a log is the whole outcome of one input, and the entries before it are the log
of the inputs before that one. -/
lemma log_split {l₁ l₂ : List Outcome} {o : Outcome}
    (h : log limit period b is = l₁ ++ o :: l₂) :
    ∃ is₁ i is₂, is = is₁ ++ i :: is₂ ∧ log limit period b is₁ = l₁ ∧
      outcome limit (after limit period b is₁) i = [o] := by
  induction is generalizing b l₁ with
  | nil => simp at h
  | cons i is ih =>
    rw [log] at h
    rcases outcome_eq limit b i with ho | ⟨o', ho⟩
    · rw [ho, List.nil_append] at h
      obtain ⟨is₁, j, is₂, rfl, hl, hj⟩ := ih h
      exact ⟨i :: is₁, j, is₂, rfl, by simp [log, ho, hl], hj⟩
    · rw [ho, List.singleton_append] at h
      cases l₁ with
      | nil =>
        obtain ⟨rfl, -⟩ := List.cons.inj h
        exact ⟨[], i, is, rfl, rfl, ho⟩
      | cons o₁ l₁ =>
        obtain ⟨rfl, htail⟩ := List.cons.inj h
        obtain ⟨is₁, j, is₂, rfl, hl, hj⟩ := ih htail
        exact ⟨i :: is₁, j, is₂, rfl, by simp [log, ho, hl], hj⟩

/-- Every stretch of a log is the end of the log of some first part of the inputs. -/
lemma log_prefix {l₁ l₂ : List Outcome} (h : log limit period b is = l₁ ++ l₂) :
    ∃ is₁ is₂, is = is₁ ++ is₂ ∧ log limit period b is₁ = l₁ := by
  cases l₂ with
  | nil => exact ⟨is, [], by simp, by simpa using h⟩
  | cons o l₂ =>
    obtain ⟨is₁, i, is₂, rfl, hl, -⟩ := log_split h
    exact ⟨is₁, i :: is₂, rfl, hl⟩

lemma suffix_sinceCleared {l₁ seg : List Outcome} (hseg : Outcome.cleared ∉ seg) :
    seg <:+ sinceCleared (l₁ ++ seg) := by
  rw [sinceCleared_append hseg]
  exact List.suffix_append _ _

section

variable (hb : b.spent = 0) (hlen : polls is ≤ 2 ^ 32)
include hb hlen

/-- The tally at the end of a stretch of a log in which nothing was cleared. -/
lemma exists_spent_of_stretch {l₁ seg l₂ : List Outcome}
    (h : log limit period b is = l₁ ++ seg ++ l₂) (hseg : Outcome.cleared ∉ seg) :
    ∃ n k b' os, Spent limit n k b' os ∧ seg <:+ os := by
  obtain ⟨is₁, is₂, rfl, hl⟩ := log_prefix h
  rw [polls_append] at hlen
  obtain ⟨k, hk⟩ := exists_spent limit period hb is₁ ((Nat.le_add_right _ _).trans hlen)
  exact ⟨_, k, _, _, hk, by rw [hl]; exact suffix_sinceCleared hseg⟩

/-- No more attempts than the limit between two clearings. -/
theorem attempts_le_limit {l₁ seg l₂ : List Outcome}
    (h : log limit period b is = l₁ ++ seg ++ l₂) (hseg : Outcome.cleared ∉ seg) :
    seg.countP (·.isAttempt) ≤ limit.toNat := by
  obtain ⟨n, k, b', os, hk, hsuf⟩ := exists_spent_of_stretch hb hlen h hseg
  calc seg.countP (·.isAttempt) ≤ os.countP (·.isAttempt) := hsuf.sublist.countP_le
    _ = min k limit.toNat := hk.attempts
    _ ≤ limit.toNat := min_le_right _ _

/-- Giving up is told at most once between two clearings. -/
theorem giveUps_le_one {l₁ seg l₂ : List Outcome}
    (h : log limit period b is = l₁ ++ seg ++ l₂) (hseg : Outcome.cleared ∉ seg) :
    seg.countP (·.isGiveUp) ≤ 1 := by
  obtain ⟨n, k, b', os, hk, hsuf⟩ := exists_spent_of_stretch hb hlen h hseg
  have hle : seg.countP (·.isGiveUp) ≤ os.countP (·.isGiveUp) := hsuf.sublist.countP_le
  have hone : os.countP (·.isGiveUp) ≤ 1 := by rw [hk.giveUps]; split <;> omega
  exact hle.trans hone

/-- Giving up is told after exactly as many attempts as the limit says. -/
theorem attempts_eq_of_gaveUp {l₁ seg l₂ : List Outcome} {now : ℤ}
    (h : log limit period b is = l₁ ++ seg ++ .gaveUp now :: l₂) (hseg : Outcome.cleared ∉ seg)
    (hl₁ : l₁ = [] ∨ ∃ l, l₁ = l ++ [.cleared]) :
    seg.countP (·.isAttempt) = limit.toNat := by
  obtain ⟨is₁, i, is₂, rfl, hl, ho⟩ := log_split h
  have hpoll : i = .poll now := by
    cases i with
    | clear => simp [outcome] at ho
    | poll now' =>
      simp only [outcome] at ho
      cases hv : verdict limit now' (after limit period b is₁) <;> simp_all
  subst hpoll
  rw [show is₁ ++ .poll now :: is₂ = is₁ ++ [.poll now] ++ is₂ by simp, polls_append,
    polls_append, polls_poll] at hlen
  have hlen' : polls is₁ + 1 ≤ 2 ^ 32 := (Nat.le_add_right _ _).trans hlen
  obtain ⟨k, hk⟩ := exists_spent limit period hb is₁ ((Nat.le_succ _).trans hlen')
  have hlt : k < 2 ^ 32 := hk.le.trans_lt (Nat.lt_of_succ_le hlen')
  have hos : sinceCleared (log limit period b is₁) = seg := by
    rw [hl, sinceCleared_append hseg]
    rcases hl₁ with rfl | ⟨l, rfl⟩ <;> simp
  rw [hos] at hk
  rcases poll_cases limit period (hk.toNat_spent hlt) now with
    ⟨_, ho', _⟩ | ⟨_, _, ho', _⟩ | ⟨_, heq, _, _⟩ | ⟨_, _, ho', _⟩
  · simp [ho'] at ho
  · simp [ho'] at ho
  · rw [hk.attempts, heq, min_self]
  · simp [ho'] at ho

end

/-! ### Times -/

def Outcome.attempt? : Outcome → Option ℤ
  | .attempted now => some now
  | _ => none

def Outcome.giveUp? : Outcome → Option ℤ
  | .gaveUp now => some now
  | _ => none

/-- Two attempts are more than a period apart, whatever was cleared in between: the deadline that
an attempt sets outlives every clearing. -/
theorem attempts_spaced (hperiod : 0 ≤ period) (b : Budget) (is : List Input) :
    ((log limit period b is).filterMap Outcome.attempt?).Pairwise (fun t t' => t + period < t') ∧
      ∀ t ∈ (log limit period b is).filterMap Outcome.attempt?,
        t + period ≤ (after limit period b is).deadline := by
  induction is using List.reverseRecOn with
  | nil => simp
  | append_singleton is i ih =>
    obtain ⟨hpair, hle⟩ := ih
    simp only [log_append, log_singleton, after_append, after_singleton, List.filterMap_append,
      List.pairwise_append, List.mem_append]
    generalize after limit period b is = c at hle ⊢
    cases i with
    | clear =>
      have ho : (outcome limit c .clear).filterMap Outcome.attempt? = [] := rfl
      rw [ho]
      refine ⟨⟨hpair, by simp, by simp⟩, ?_⟩
      rintro t (ht | ht)
      · exact hle t ht
      · simp at ht
    | poll now =>
      by_cases hdue : c.deadline < now ∧ c.spent < limit
      · have hv : verdict limit now c = .attempt := by simp [verdict, hdue]
        have ho : (outcome limit c (.poll now)).filterMap Outcome.attempt? = [now] := by
          simp [outcome, hv, Outcome.attempt?]
        have hn : (next limit period c (.poll now)).deadline = now + period := by
          simp [next, hv]
        rw [ho, hn]
        refine ⟨⟨hpair, by simp, ?_⟩, ?_⟩
        · intro t ht t' ht'
          obtain rfl := List.mem_singleton.mp ht'
          have := hle t ht
          omega
        · rintro t (ht | ht)
          · have := hle t ht
            omega
          · obtain rfl := List.mem_singleton.mp ht
            exact le_rfl
      · have ho : (outcome limit c (.poll now)).filterMap Outcome.attempt? = [] := by
          simp only [outcome, verdict]
          split_ifs <;> simp_all [Outcome.attempt?]
        have hn : (next limit period c (.poll now)).deadline = c.deadline := by
          simp only [next, verdict]
          split_ifs <;> simp_all
        rw [ho, hn]
        refine ⟨⟨hpair, by simp, by simp⟩, ?_⟩
        rintro t (ht | ht)
        · exact hle t ht
        · simp at ht

/-- The times of giving up over a list of polls. -/
def giveUps (limit : UInt32) (period : ℤ) (b : Budget) (ts : List ℤ) : List ℤ :=
  (log limit period b (ts.map .poll)).filterMap Outcome.giveUp?

@[simp] lemma giveUps_nil : giveUps limit period b [] = [] := rfl

lemma giveUps_cons (t : ℤ) (ts : List ℤ) :
    giveUps limit period b (t :: ts)
      = (outcome limit b (.poll t)).filterMap Outcome.giveUp?
        ++ giveUps limit period (next limit period b (.poll t)) ts := by
  simp [giveUps, log]

lemma polls_map_poll (ts : List ℤ) : polls (ts.map .poll) = ts.length := by
  induction ts with
  | nil => rfl
  | cons t ts ih =>
    rw [List.map_cons, ← List.singleton_append, polls_append, polls_poll, ih, List.length_cons]
    omega

lemma cleared_notMem_log_polls (ts : List ℤ) :
    Outcome.cleared ∉ log limit period b (ts.map .poll) := by
  induction ts generalizing b with
  | nil => simp
  | cons t ts ih =>
    simp only [List.map_cons, log, List.mem_append, not_or]
    exact ⟨cleared_notMem_outcome_poll, ih⟩

lemma mem_of_mem_giveUps {t : ℤ} {ts : List ℤ} (h : t ∈ giveUps limit period b ts) : t ∈ ts := by
  induction ts generalizing b with
  | nil => simp at h
  | cons t' ts ih =>
    rw [giveUps_cons, List.mem_append] at h
    rcases h with h | h
    · simp only [outcome] at h
      cases hv : verdict limit t' b <;> simp_all [Outcome.giveUp?]
    · exact List.mem_cons_of_mem _ (ih h)

theorem length_giveUps_le_one (hb : b.spent = 0) {ts : List ℤ} (hlen : ts.length ≤ 2 ^ 32) :
    (giveUps limit period b ts).length ≤ 1 := by
  have hpolls : polls (ts.map .poll) ≤ 2 ^ 32 := by rwa [polls_map_poll]
  have hcount : (giveUps limit period b ts).length
      = (log limit period b (ts.map .poll)).countP (·.isGiveUp) := by
    rw [giveUps, List.length_filterMap_eq_countP]
    exact List.countP_congr fun o _ => by cases o <;> simp [Outcome.giveUp?, Outcome.isGiveUp]
  have hwhole : log limit period b (ts.map .poll)
      = [] ++ log limit period b (ts.map .poll) ++ [] := by simp
  rw [hcount]
  exact giveUps_le_one hb hpolls hwhole (cleared_notMem_log_polls ts)

variable {t₀ : ℤ}

/-- Giving up needs `limit + 1` whole periods. -/
theorem giveUp_late {k : ℕ} {ts : List ℤ} (hspent : b.spent.toNat = k) (hk : k ≤ limit.toNat)
    (hdl : t₀ + (k + 1) * period ≤ b.deadline) (hts : ts.Pairwise (· ≤ ·)) :
    ∀ t ∈ giveUps limit period b ts, t₀ + (limit.toNat + 1) * period < t := by
  induction ts generalizing b k with
  | nil => simp
  | cons τ ts ih =>
    obtain ⟨hτ, hts⟩ := List.pairwise_cons.mp hts
    intro t ht
    rw [giveUps_cons, List.mem_append] at ht
    rcases poll_cases limit period hspent τ with
      ⟨_, ho, hn⟩ | ⟨hdue, hlt, ho, hn⟩ | ⟨hdue, rfl, ho, hn⟩ | ⟨_, hgt, _, _⟩
    · rw [ho, hn] at ht
      exact ih hspent hk hdl hts t (by simpa using ht)
    · rw [ho, hn] at ht
      refine ih (k := k + 1) ?_ (Nat.succ_le_of_lt hlt) ?_ hts t (by simpa [Outcome.giveUp?] using ht)
      · exact toNat_succ_of_lt hspent hlt
      · push_cast
        linarith
    · -- the poll at which it gives up; every later poll is later still
      have hbound : t₀ + (limit.toNat + 1) * period < τ := lt_of_le_of_lt hdl hdue
      rcases ht with ht | ht
      · rw [ho] at ht
        obtain rfl : t = τ := by simpa [Outcome.giveUp?] using ht
        exact hbound
      · exact hbound.trans_le (hτ t (mem_of_mem_giveUps ht))
    · omega

/-- When polls are at most `δ` apart, giving up needs no more than `limit + 1` times a period and
the time between two polls. -/
theorem exists_giveUp_within {δ last : ℤ} {k : ℕ} {ts : List ℤ} (hperiod : 0 ≤ period)
    (hspent : b.spent.toNat = k) (hk : k ≤ limit.toNat) (hlast : last ≤ b.deadline)
    (hdl : b.deadline ≤ t₀ + k * (period + δ) + period)
    (hchain : (last :: ts).IsChain (fun t t' => t ≤ t' ∧ t' ≤ t + δ))
    (hpast : ∃ t ∈ ts, t₀ + (limit.toNat + 1) * (period + δ) < t) :
    ∃ t ∈ giveUps limit period b ts, t ≤ t₀ + (limit.toNat + 1) * (period + δ) := by
  induction ts generalizing b k last with
  | nil => simp at hpast
  | cons τ ts ih =>
    obtain ⟨⟨hle, hgap⟩, hchain⟩ := List.isChain_cons_cons.mp hchain
    have hδ : 0 ≤ period + δ := by linarith
    have hmul : (k : ℤ) * (period + δ) ≤ limit.toNat * (period + δ) :=
      mul_le_mul_of_nonneg_right (by exact_mod_cast hk) hδ
    have hτ : τ ≤ t₀ + (k + 1) * (period + δ) := by linarith
    have hpast' : ∃ t ∈ ts, t₀ + (limit.toNat + 1) * (period + δ) < t := by
      obtain ⟨t, ht, hlt⟩ := hpast
      rcases List.mem_cons.mp ht with rfl | ht
      · linarith
      · exact ⟨t, ht, hlt⟩
    rw [giveUps_cons]
    rcases poll_cases limit period hspent τ with
      ⟨hwait, ho, hn⟩ | ⟨_, hlt, ho, hn⟩ | ⟨_, rfl, ho, hn⟩ | ⟨_, hgt, _, _⟩
    · rw [ho, hn]
      simpa using ih hspent hk hwait hdl hchain hpast'
    · rw [ho, hn]
      have hs : (b.spent + 1).toNat = k + 1 := toNat_succ_of_lt hspent hlt
      have hlast' : τ ≤ (Budget.mk (b.spent + 1) (τ + period)).deadline := by
        simpa using hperiod
      have hdl' : (Budget.mk (b.spent + 1) (τ + period)).deadline
          ≤ t₀ + ((k + 1 : ℕ) : ℤ) * (period + δ) + period := by
        push_cast
        linarith
      simpa [Outcome.giveUp?] using ih hs hlt hlast' hdl' hchain hpast'
    · exact ⟨τ, by simp [ho, Outcome.giveUp?], hτ⟩
    · omega

/-! ### From the first poll that counts -/

end Budget

end Lib
