import Mathlib.Data.Nat.Digits.Lemmas
import Mathlib.Tactic.Linarith
import Mathlib.Tactic.Zify
import WirelessBridge.Lib.PropertyTree

/-!
# Integers as texts

What it means that a text denotes an integer in decimal, and what the printer and the two parsers
of the C++ library make of such texts. The parser of strings checks the range of an `int`; the one
of streams, for an unsigned type, the magnitude only.
-/

namespace Lib

inductive Sign where
  | none
  | plus
  | minus
  deriving DecidableEq

def Sign.text : Sign → Str
  | .none => []
  | .plus => [43]
  | .minus => [45]

/-- Blanks, a sign, digits, and blanks again. -/
structure Numeral where
  before : Str
  sign : Sign
  digits : Str
  after : Str
  blank_before : ∀ c ∈ before, isSpace c = true
  blank_after : ∀ c ∈ after, isSpace c = true
  digits_ne_nil : digits ≠ []
  isDigit_digits : ∀ c ∈ digits, isDigit c = true

namespace Numeral

def text (n : Numeral) : Str := n.before ++ (n.sign.text ++ (n.digits ++ n.after))

def value (n : Numeral) : ℤ :=
  if n.sign = .minus then -digitsVal n.digits else digitsVal n.digits

end Numeral

def Denotes (w : Str) (z : ℤ) : Prop := ∃ n : Numeral, n.text = w ∧ n.value = z

/-- An integer as C++ prints it. -/
def intText (z : ℤ) : Str := if z < 0 then 45 :: decimal z.natAbs else decimal z.natAbs

/-! ### The characters of a numeral -/

variable {c : UInt8} {s t w : Str} {z : ℤ}

lemma isDigit_iff : isDigit c = true ↔ 48 ≤ c.toNat ∧ c.toNat ≤ 57 := by
  simp [isDigit, UInt8.le_iff_toNat_le]

lemma isSpace_iff : isSpace c = true ↔ c.toNat = 32 ∨ 9 ≤ c.toNat ∧ c.toNat ≤ 13 := by
  simp [isSpace, UInt8.le_iff_toNat_le, ← UInt8.toNat_inj]

lemma not_isSpace_of_isDigit (h : isDigit c = true) : isSpace c = false := by
  rw [isDigit_iff] at h
  rw [← Bool.not_eq_true, isSpace_iff]
  omega

lemma not_isDigit_of_isSpace (h : isSpace c = true) : isDigit c = false := by
  rw [← Bool.not_eq_true]
  intro hdigit
  rw [not_isSpace_of_isDigit hdigit] at h
  cases h

lemma takeSign_of_isDigit (h : isDigit c = true) : takeSign (c :: s) = (false, c :: s) := by
  rw [isDigit_iff] at h
  have hminus : c ≠ 45 := by
    rintro rfl
    simp at h
  have hplus : c ≠ 43 := by
    rintro rfl
    simp at h
  rw [takeSign]
  · intro s' heq
    exact hminus (List.cons.inj heq).1
  · intro s' heq
    exact hplus (List.cons.inj heq).1

/-- A sign, and what was before it was taken. -/
lemma exists_sign (s : Str) :
    ∃ sign : Sign, s = sign.text ++ (takeSign s).2 ∧ ((takeSign s).1 = true ↔ sign = .minus) := by
  unfold takeSign
  split
  · exact ⟨.minus, rfl, by simp⟩
  · exact ⟨.plus, rfl, by simp⟩
  · exact ⟨.none, rfl, by simp⟩

namespace Numeral

variable (n : Numeral)

lemma dropWhile_isSpace_text :
    n.text.dropWhile isSpace = n.sign.text ++ (n.digits ++ n.after) := by
  rw [text, List.dropWhile_append_of_pos n.blank_before]
  obtain ⟨d, ds, hdigits⟩ := List.exists_cons_of_ne_nil n.digits_ne_nil
  have hd := not_isSpace_of_isDigit (n.isDigit_digits d (by simp [hdigits]))
  cases n.sign with
  | none => simp [Sign.text, hdigits, hd]
  | plus => rfl
  | minus => rfl

lemma takeSign_text :
    takeSign (n.sign.text ++ (n.digits ++ n.after))
      = (decide (n.sign = .minus), n.digits ++ n.after) := by
  obtain ⟨d, ds, hdigits⟩ := List.exists_cons_of_ne_nil n.digits_ne_nil
  have hd := n.isDigit_digits d (by simp [hdigits])
  cases n.sign with
  | none =>
    rw [hdigits]
    exact takeSign_of_isDigit hd
  | plus => rfl
  | minus => rfl

/-- The digits end where the blanks begin. -/
lemma head_after (h : 0 < n.after.length) : ¬ isDigit (n.after.get ⟨0, h⟩) = true := by
  rw [not_isDigit_of_isSpace (n.blank_after _ (List.get_mem _ _))]
  exact Bool.false_ne_true

lemma takeWhile_digits : (n.digits ++ n.after).takeWhile isDigit = n.digits := by
  rw [List.takeWhile_append_of_pos n.isDigit_digits, List.takeWhile_eq_nil_iff.mpr n.head_after,
    List.append_nil]

lemma dropWhile_digits : (n.digits ++ n.after).dropWhile isDigit = n.after := by
  rw [List.dropWhile_append_of_pos n.isDigit_digits]
  exact List.dropWhile_eq_self_iff.mpr n.head_after

/-! ### The parsers -/

theorem stoi_text :
    stoi n.text = if -2 ^ 31 ≤ n.value ∧ n.value < 2 ^ 31 then .ok n.value
      else .error (.outOfRange (str "stoi")) := by
  simp only [stoi, n.dropWhile_isSpace_text, n.takeSign_text, n.takeWhile_digits,
    if_neg n.digits_ne_nil, decide_eq_true_eq]
  rfl

/-- What is read from a stream is the value modulo `2 ^ w`. -/
theorem readUnsigned_text (w : ℕ) :
    readUnsigned w n.text = if n.value.natAbs < 2 ^ w then
      some ((n.value % 2 ^ w).toNat, n.after) else none := by
  have habs : n.value.natAbs = digitsVal n.digits := by
    simp only [value]
    split_ifs <;> simp
  simp only [readUnsigned, n.dropWhile_isSpace_text, n.takeSign_text, n.takeWhile_digits,
    n.dropWhile_digits, n.digits_ne_nil, false_or, decide_eq_true_eq, habs]
  by_cases hfits : digitsVal n.digits < 2 ^ w
  · rw [if_neg (not_le.mpr hfits), if_pos hfits]
    simp only [value]
    split_ifs with hsign
    · have hneg : (-digitsVal n.digits : ℤ) % 2 ^ w
          = ((2 ^ w - digitsVal n.digits) % 2 ^ w : ℕ) := by
        rw [← Int.add_emod_right]
        push_cast [hfits.le]
        congr 1
        ring
      rw [hneg, Int.toNat_natCast]
    · have hsmall : (digitsVal n.digits : ℤ) % 2 ^ w = digitsVal n.digits :=
        Int.emod_eq_of_lt (Int.natCast_nonneg _) (by exact_mod_cast hfits)
      rw [hsmall, Int.toNat_natCast]
  · rw [if_pos (not_lt.mp hfits), if_neg hfits]

end Numeral

/-- What a stream reads to its end is a numeral. -/
lemma exists_numeral_of_readUnsigned {w v : ℕ}
    (h : (readUnsigned w s).bind PTree.atEnd = some v) : ∃ n : Numeral, n.text = s := by
  obtain ⟨⟨v', rest⟩, hread, hend⟩ := Option.bind_eq_some_iff.mp h
  simp only [readUnsigned, Option.ite_none_left_eq_some, not_or] at hread
  obtain ⟨⟨hdigits, -⟩, hread⟩ := hread
  obtain ⟨-, rfl⟩ := Prod.mk.inj (Option.some.inj hread)
  simp only [PTree.atEnd, Option.ite_none_right_eq_some, List.dropWhile_eq_nil_iff] at hend
  obtain ⟨sign, hsign, -⟩ := exists_sign (s.dropWhile isSpace)
  refine ⟨⟨s.takeWhile isSpace, sign, _, _, ?_, hend.1, hdigits, ?_⟩, ?_⟩
  · exact fun c hc => List.mem_takeWhile_imp hc
  · exact fun c hc => List.mem_takeWhile_imp hc
  · simp only [Numeral.text]
    rw [List.takeWhile_append_dropWhile, ← hsign, List.takeWhile_append_dropWhile]

/-- A stream accepts the texts of integers with a magnitude below `2 ^ w`. -/
theorem readUnsigned_bind_atEnd {w v : ℕ} :
    (readUnsigned w s).bind PTree.atEnd = some v ↔
      ∃ z, Denotes s z ∧ z.natAbs < 2 ^ w ∧ (v : ℤ) = z % 2 ^ w := by
  have hread : ∀ n : Numeral, (readUnsigned w n.text).bind PTree.atEnd = some v ↔
      n.value.natAbs < 2 ^ w ∧ (v : ℤ) = n.value % 2 ^ w := by
    intro n
    have hnonneg : 0 ≤ n.value % 2 ^ w := Int.emod_nonneg _ (by positivity)
    have hend : n.after.dropWhile isSpace = [] := List.dropWhile_eq_nil_iff.mpr n.blank_after
    rw [n.readUnsigned_text]
    split_ifs with hfits
    · simp only [Option.bind_some, PTree.atEnd, hend, if_true, Option.some.injEq, hfits, true_and]
      omega
    · simp [hfits]
  constructor
  · intro h
    obtain ⟨n, rfl⟩ := exists_numeral_of_readUnsigned h
    exact ⟨n.value, ⟨n, rfl, rfl⟩, (hread n).mp h⟩
  · rintro ⟨_, ⟨n, rfl, rfl⟩, h⟩
    exact (hread n).mpr h

lemma stoi_of_denotes (h : Denotes s z) (hlow : -2 ^ 31 ≤ z) (hhigh : z < 2 ^ 31) :
    stoi s = .ok z := by
  obtain ⟨n, rfl, rfl⟩ := h
  rw [n.stoi_text, if_pos ⟨hlow, hhigh⟩]

/-- What a text denotes is what `stoi` makes of it, if that is in the range. -/
lemma eq_of_denotes_of_stoi {z' : ℤ} (h : Denotes s z) (hstoi : stoi s = .ok z') : z = z' := by
  obtain ⟨n, rfl, rfl⟩ := h
  rw [n.stoi_text] at hstoi
  split_ifs at hstoi
  exact Except.ok.inj hstoi

/-- What denotes an integer holds blanks, signs and digits only. -/
lemma notMem_of_denotes (h : Denotes s z) (hspace : isSpace c = false) (hdigit : isDigit c = false)
    (hplus : c ≠ 43) (hminus : c ≠ 45) : c ∉ s := by
  obtain ⟨n, rfl, -⟩ := h
  simp only [Numeral.text, List.mem_append, not_or]
  refine ⟨?_, ?_, ?_, ?_⟩
  · intro hc
    simp [n.blank_before c hc] at hspace
  · cases n.sign <;> simp [Sign.text, hplus, hminus]
  · intro hc
    simp [n.isDigit_digits c hc] at hdigit
  · intro hc
    simp [n.blank_after c hc] at hspace

/-! ### The printer -/

/-- The digit of a number below ten, as a character. -/
lemma toNat_digit {d : ℕ} (h : d < 10) : (48 + d).toUInt8.toNat = 48 + d := by
  simp
  omega

lemma decimal_ne_nil (n : ℕ) : decimal n ≠ [] := by
  rw [decimal]
  split_ifs with hn
  · simp
  · simpa [Nat.digits_eq_nil_iff_eq_zero] using hn

lemma isDigit_of_mem_decimal {n : ℕ} (h : c ∈ decimal n) : isDigit c = true := by
  rw [isDigit_iff]
  rw [decimal] at h
  split_ifs at h with hn
  · obtain rfl := List.mem_singleton.mp h
    decide
  · obtain ⟨d, hd, rfl⟩ := List.mem_map.mp h
    have hlt := Nat.digits_lt_base (by norm_num) (List.mem_reverse.mp hd)
    rw [toNat_digit hlt]
    omega

lemma digitsVal_map_digits {l : List ℕ} (h : ∀ d ∈ l, d < 10) :
    digitsVal (l.reverse.map fun d => (48 + d).toUInt8) = Nat.ofDigits 10 l := by
  induction l with
  | nil => rfl
  | cons d rest ih =>
    obtain ⟨hd, hrest⟩ := List.forall_mem_cons.mp h
    have ih := ih hrest
    rw [digitsVal] at ih ⊢
    rw [List.reverse_cons, List.map_append, List.foldl_append, ih, Nat.ofDigits_cons]
    simp only [List.map_cons, List.map_nil, List.foldl_cons, List.foldl_nil, toNat_digit hd]
    omega

lemma digitsVal_decimal (n : ℕ) : digitsVal (decimal n) = n := by
  rw [decimal]
  split_ifs with hn
  · rw [hn]
    rfl
  · rw [digitsVal_map_digits fun d hd => Nat.digits_lt_base (by norm_num) hd, Nat.ofDigits_digits]

/-- The text of a natural number. -/
def Numeral.ofNat (n : ℕ) : Numeral where
  before := []
  sign := .none
  digits := decimal n
  after := []
  blank_before := nofun
  blank_after := nofun
  digits_ne_nil := decimal_ne_nil n
  isDigit_digits _ := isDigit_of_mem_decimal

lemma denotes_decimal (n : ℕ) : Denotes (decimal n) n := by
  refine ⟨.ofNat n, ?_, ?_⟩
  · simp [Numeral.text, Numeral.ofNat, Sign.text]
  · simp [Numeral.value, Numeral.ofNat, digitsVal_decimal]

theorem stoi_decimal {n : ℕ} (h : n < 2 ^ 31) : stoi (decimal n) = .ok (n : ℤ) := by
  apply stoi_of_denotes (denotes_decimal n)
  · have hnonneg : (0 : ℤ) ≤ n := Int.natCast_nonneg n
    linarith
  · exact_mod_cast h

end Lib
