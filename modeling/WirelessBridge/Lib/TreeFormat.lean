import Mathlib.Data.List.Forall2
import WirelessBridge.Lib.Numeral

/-!
# What a property tree says

Relations between a tree and the values that stand in it: a field of some name, a text, an integer,
a truth value, a list. A typed access succeeds just when the relation holds, so that a reader made
of such accesses can be compared with a statement of its format. The way back is a tree that
writes a value down.
-/

namespace Lib

/-- The name of a truth value. -/
def boolName (b : Bool) : Str := if b then str "true" else str "false"

/-- A text for a truth value. A number that is neither 0 nor 1 is passed over, as are its sign and
the blanks around it, if a name follows. -/
inductive DenotesBool : Str → Bool → Prop
  | zero {s : Str} : Denotes s 0 → DenotesBool s false
  | one {s : Str} : Denotes s 1 → DenotesBool s true
  | name {before digits blanks after : Str} {sign : Sign} {b : Bool} :
    (∀ c ∈ before, isSpace c = true) → (∀ c ∈ digits, isDigit c = true) →
    (∀ c ∈ blanks, isSpace c = true) → (∀ c ∈ after, isSpace c = true) →
    ¬ Denotes (sign.text ++ digits) 0 → ¬ Denotes (sign.text ++ digits) 1 →
    DenotesBool (before ++ (sign.text ++ (digits ++ (blanks ++ (boolName b ++ after))))) b

variable {s rest digits blanks after before : Str} {sign : Sign} {b : Bool} {z : ℤ}

/-! ### Numbers before a name -/

/-- The text of a numeral determines what it denotes. -/
lemma Numeral.value_eq {n m : Numeral} (h : n.text = m.text) : n.value = m.value := by
  have hdrop : n.sign.text ++ (n.digits ++ n.after) = m.sign.text ++ (m.digits ++ m.after) := by
    rw [← n.dropWhile_isSpace_text, ← m.dropWhile_isSpace_text, h]
  have htake := congrArg takeSign hdrop
  rw [n.takeSign_text, m.takeSign_text, Prod.mk.injEq, decide_eq_decide] at htake
  obtain ⟨hsign, htail⟩ := htake
  have hdigits : n.digits = m.digits := by rw [← n.takeWhile_digits, ← m.takeWhile_digits, htail]
  simp only [Numeral.value, hsign, hdigits]

/-- A sign and digits as a numeral. -/
def Numeral.ofDigits (sign : Sign) (digits : Str) (hne : digits ≠ [])
    (hdigits : ∀ c ∈ digits, isDigit c = true) : Numeral where
  before := []
  sign := sign
  digits := digits
  after := []
  blank_before := List.forall_mem_nil _
  blank_after := List.forall_mem_nil _
  digits_ne_nil := hne
  isDigit_digits := hdigits

lemma Numeral.text_ofDigits (hne : digits ≠ []) (hdigits : ∀ c ∈ digits, isDigit c = true) :
    (Numeral.ofDigits sign digits hne hdigits).text = sign.text ++ digits := by
  simp [Numeral.text, Numeral.ofDigits]

lemma Numeral.value_ofDigits (hne : digits ≠ []) (hdigits : ∀ c ∈ digits, isDigit c = true) :
    (Numeral.ofDigits sign digits hne hdigits).value
      = if sign = .minus then -(digitsVal digits : ℤ) else digitsVal digits := rfl

lemma denotes_iff_of_digits (hne : digits ≠ []) (hdigits : ∀ c ∈ digits, isDigit c = true) :
    Denotes (sign.text ++ digits) z ↔ (Numeral.ofDigits sign digits hne hdigits).value = z := by
  have htext : (Numeral.ofDigits sign digits hne hdigits).text = sign.text ++ digits :=
    Numeral.text_ofDigits hne hdigits
  constructor
  · rintro ⟨n, hn, rfl⟩
    exact Numeral.value_eq (htext.trans hn.symm)
  · exact fun h => ⟨_, htext, h⟩

/-- A sign alone is no number. -/
lemma not_denotes_sign : ¬ Denotes (sign.text ++ []) z := by
  rintro ⟨n, hn, -⟩
  obtain ⟨d, ds, hdigits⟩ := List.exists_cons_of_ne_nil n.digits_ne_nil
  have hd := n.isDigit_digits d (by simp [hdigits])
  have hmem : d ∈ sign.text ++ [] := by
    rw [← hn, Numeral.text]
    simp [hdigits]
  cases sign with
  | none => cases hmem
  | plus =>
    obtain rfl := List.mem_singleton.mp hmem
    cases hd
  | minus =>
    obtain rfl := List.mem_singleton.mp hmem
    cases hd

/-! ### Names -/

namespace PTree

lemma readBoolName_name (h : ∀ c ∈ blanks, isSpace c = true) :
    readBoolName (blanks ++ (boolName b ++ after)) = some (b, after) := by
  rw [readBoolName, List.dropWhile_append_of_pos h]
  cases b with
  | true => rfl
  | false => rfl

/-- What is read as a name is one, after blanks. -/
lemma exists_of_readBoolName (h : readBoolName s = some (b, rest)) :
    s = s.takeWhile isSpace ++ (boolName b ++ rest) := by
  have hsplit : s = s.takeWhile isSpace ++ s.dropWhile isSpace :=
    List.takeWhile_append_dropWhile.symm
  simp only [readBoolName] at h
  split_ifs at h with htrue hfalse
  · obtain ⟨rest', hrest'⟩ := List.isPrefixOf_iff_prefix.mp htrue
    rw [← hrest', Option.some.injEq, Prod.mk.injEq] at h
    obtain ⟨rfl, rfl⟩ := h
    rw [← hrest'] at hsplit
    exact hsplit
  · obtain ⟨rest', hrest'⟩ := List.isPrefixOf_iff_prefix.mp hfalse
    rw [← hrest', Option.some.injEq, Prod.mk.injEq] at h
    obtain ⟨rfl, rfl⟩ := h
    rw [← hrest'] at hsplit
    exact hsplit

/-- Neither blanks nor a name begin with a digit. -/
lemma head_name (h : ∀ c ∈ blanks, isSpace c = true) :
    ∀ hlen : 0 < (blanks ++ (boolName b ++ after)).length,
      ¬ isDigit ((blanks ++ (boolName b ++ after)).get ⟨0, hlen⟩) = true := by
  intro hlen
  rw [Bool.not_eq_true]
  cases blanks with
  | nil =>
    cases b with
    | true => rfl
    | false => rfl
  | cons c rest => exact not_isDigit_of_isSpace (h c List.mem_cons_self)

lemma dropWhile_number (hbefore : ∀ c ∈ before, isSpace c = true)
    (hdigits : ∀ c ∈ digits, isDigit c = true) (hne : sign.text ++ digits ≠ []) :
    (before ++ (sign.text ++ (digits ++ rest))).dropWhile isSpace
      = sign.text ++ (digits ++ rest) := by
  rw [List.dropWhile_append_of_pos hbefore]
  cases sign with
  | none =>
    obtain ⟨d, ds, rfl⟩ := List.exists_cons_of_ne_nil hne
    have hd := not_isSpace_of_isDigit (hdigits d List.mem_cons_self)
    simp [Sign.text, hd]
  | plus => rfl
  | minus => rfl

lemma takeSign_number (hdigits : ∀ c ∈ digits, isDigit c = true)
    (hne : sign.text ++ digits ≠ []) :
    takeSign (sign.text ++ (digits ++ rest)) = (decide (sign = .minus), digits ++ rest) := by
  cases sign with
  | none =>
    obtain ⟨d, ds, rfl⟩ := List.exists_cons_of_ne_nil hne
    exact takeSign_of_isDigit (hdigits d List.mem_cons_self)
  | plus => rfl
  | minus => rfl

/-- A number that is neither 0 nor 1 is passed over, and so is a sign. -/
lemma readBool_name (hbefore : ∀ c ∈ before, isSpace c = true)
    (hdigits : ∀ c ∈ digits, isDigit c = true) (hblanks : ∀ c ∈ blanks, isSpace c = true)
    (hzero : ¬ Denotes (sign.text ++ digits) 0) (hone : ¬ Denotes (sign.text ++ digits) 1) :
    readBool (before ++ (sign.text ++ (digits ++ (blanks ++ (boolName b ++ after)))))
      = some (b, after) := by
  have hhead := @head_name blanks after b hblanks
  by_cases hne : sign.text ++ digits = []
  · obtain ⟨hsign, rfl⟩ := List.append_eq_nil_iff.mp hne
    have hskip : (before ++ (sign.text ++ ([] ++ (blanks ++ (boolName b ++ after))))).dropWhile
        isSpace = (boolName b ++ after).dropWhile isSpace := by
      rw [hsign, List.nil_append, List.nil_append, List.dropWhile_append_of_pos hbefore,
        List.dropWhile_append_of_pos hblanks]
    rw [readBool, hskip]
    cases b with
    | true => rfl
    | false => rfl
  · simp only [readBool, dropWhile_number hbefore hdigits hne, takeSign_number hdigits hne,
      List.takeWhile_append_of_pos hdigits, List.takeWhile_eq_nil_iff.mpr hhead, List.append_nil,
      List.dropWhile_append_of_pos hdigits, List.dropWhile_eq_self_iff.mpr hhead,
      readBoolName_name hblanks]
    split_ifs with hnil hval0 hval1
    · rfl
    · refine absurd ((denotes_iff_of_digits hnil hdigits).mpr ?_) hzero
      simp [Numeral.value, Numeral.ofDigits, hval0]
    · refine absurd ((denotes_iff_of_digits hnil hdigits).mpr ?_) hone
      have hsign : sign ≠ .minus := of_decide_eq_false hval1.2
      simp [Numeral.value, Numeral.ofDigits, hval1.1, hsign]
    · rfl

lemma atEnd_eq_some {α : Type*} {a a' : α} :
    atEnd (a', rest) = some a ↔ a' = a ∧ ∀ c ∈ rest, isSpace c = true := by
  simp [atEnd, and_comm]

lemma denotesBool_of_readBool (h : (readBool s).bind atEnd = some b) : DenotesBool s b := by
  obtain ⟨⟨b', rest⟩, hread, hend⟩ := Option.bind_eq_some_iff.mp h
  obtain ⟨rfl, hafter⟩ := atEnd_eq_some.mp hend
  obtain ⟨sign, hsign, hminus⟩ := exists_sign (s.dropWhile isSpace)
  have hbefore : ∀ c ∈ s.takeWhile isSpace, isSpace c = true :=
    fun c hc => List.mem_takeWhile_imp hc
  have hdigits : ∀ c ∈ (takeSign (s.dropWhile isSpace)).2.takeWhile isDigit, isDigit c = true :=
    fun c hc => List.mem_takeWhile_imp hc
  have htext : s = s.takeWhile isSpace ++ (sign.text
      ++ ((takeSign (s.dropWhile isSpace)).2.takeWhile isDigit
        ++ (takeSign (s.dropWhile isSpace)).2.dropWhile isDigit)) := by
    rw [List.takeWhile_append_dropWhile, ← hsign, List.takeWhile_append_dropWhile]
  simp only [readBool] at hread
  generalize (takeSign (s.dropWhile isSpace)).2.takeWhile isDigit = digits at *
  generalize (takeSign (s.dropWhile isSpace)).2.dropWhile isDigit = tail at *
  have hname : ¬ Denotes (sign.text ++ digits) 0 → ¬ Denotes (sign.text ++ digits) 1 →
      readBoolName tail = some (b', rest) → DenotesBool s b' := by
    intro hzero hone hread
    rw [htext, exists_of_readBoolName hread]
    exact .name hbefore hdigits (fun c hc => List.mem_takeWhile_imp hc) hafter hzero hone
  have hnumber : ∀ hne : digits ≠ [], tail = rest →
      Denotes s (Numeral.ofDigits sign digits hne hdigits).value := by
    rintro hne rfl
    exact ⟨⟨_, sign, digits, tail, hbefore, hafter, hne, hdigits⟩, htext.symm, rfl⟩
  split_ifs at hread with hnil hval0 hval1
  · subst hnil
    exact hname not_denotes_sign not_denotes_sign hread
  · obtain ⟨rfl, htail⟩ := Prod.mk.inj (Option.some.inj hread)
    have hz := hnumber hnil htail
    rw [Numeral.value_ofDigits, hval0, Nat.cast_zero, neg_zero, ite_self] at hz
    exact .zero hz
  · obtain ⟨rfl, htail⟩ := Prod.mk.inj (Option.some.inj hread)
    have hz := hnumber hnil htail
    have hplus : sign ≠ .minus := fun heq => by simp [hminus.mpr heq] at hval1
    rw [Numeral.value_ofDigits, hval1.1, if_neg hplus] at hz
    exact .one hz
  · apply hname
    · rw [denotes_iff_of_digits hnil hdigits, Numeral.value_ofDigits]
      split_ifs with hm
      · omega
      · omega
    · rw [denotes_iff_of_digits hnil hdigits, Numeral.value_ofDigits]
      split_ifs with hm
      · omega
      · intro hone
        have hfalse := Bool.not_eq_true _ ▸ mt hminus.mp hm
        exact hval1 ⟨by exact_mod_cast hone, hfalse⟩
    · exact hread

/-- Of a numeral for 0 or 1, everything but the blanks behind it is taken. -/
lemma readBool_of_value {n : Numeral} (h : n.value = if b then 1 else 0) :
    readBool n.text = some (b, n.after) := by
  simp only [readBool, n.dropWhile_isSpace_text, n.takeSign_text, n.takeWhile_digits,
    n.dropWhile_digits, if_neg n.digits_ne_nil]
  rw [Numeral.value] at h
  cases b with
  | false =>
    have hval : digitsVal n.digits = 0 := by
      rw [if_neg Bool.false_ne_true] at h
      by_cases hsign : n.sign = .minus
      · rwa [if_pos hsign, neg_eq_zero, Nat.cast_eq_zero] at h
      · rwa [if_neg hsign, Nat.cast_eq_zero] at h
    rw [if_pos hval]
  | true =>
    by_cases hsign : n.sign = .minus
    · rw [if_pos hsign, if_pos rfl] at h
      omega
    · rw [if_neg hsign, if_pos rfl, Nat.cast_eq_one] at h
      rw [h, if_neg one_ne_zero, if_pos ⟨rfl, decide_eq_false hsign⟩]

/-- A stream that may take names accepts the texts of truth values. -/
theorem readBool_bind_atEnd : (readBool s).bind atEnd = some b ↔ DenotesBool s b := by
  constructor
  · exact denotesBool_of_readBool
  · rintro (⟨n, rfl, hvalue⟩ | ⟨n, rfl, hvalue⟩ | ⟨hbefore, hdigits, hblanks, hafter, hzero, hone⟩)
    · rw [readBool_of_value (b := false) hvalue]
      exact atEnd_eq_some.mpr ⟨rfl, n.blank_after⟩
    · rw [readBool_of_value (b := true) hvalue]
      exact atEnd_eq_some.mpr ⟨rfl, n.blank_after⟩
    · rw [readBool_name hbefore hdigits hblanks hzero hone]
      exact atEnd_eq_some.mpr ⟨rfl, hafter⟩

/-! ### What stands in a tree -/

/-- The first child of that name is as `P` says. -/
def HasField (t : PTree) (key : Str) (P : PTree → Prop) : Prop := ∃ c, t.getChild key = some c ∧ P c

/-- The text is that of an integer of at most `w` bits, sign aside, and `v` is what is left of it
without a sign. -/
def IsUnsigned (w v : ℕ) (t : PTree) : Prop :=
  ∃ z, Denotes t.data z ∧ z.natAbs < 2 ^ w ∧ (v : ℤ) = z % 2 ^ w

def IsText (s : Str) (t : PTree) : Prop := t.data = s

def IsBool (b : Bool) (t : PTree) : Prop := DenotesBool t.data b

/-- The children are the elements of the list, in its order and whatever they are called. -/
def IsList {α : Type*} (R : PTree → α → Prop) (as : List α) (t : PTree) : Prop :=
  List.Forall₂ (fun c a => R c.2 a) t.children as

variable {key : Str} {t : PTree}

lemma getStr_eq_some : t.getStr key = some s ↔ t.HasField key (IsText s) := by
  simp [getStr, HasField, IsText]

lemma getBool_eq_some : t.getBool key = some b ↔ t.HasField key (IsBool b) := by
  simp only [getBool, HasField, IsBool, Option.bind_eq_some_iff, ← readBool_bind_atEnd]

lemma lt_of_readUnsigned {w v : ℕ} (h : (readUnsigned w s).bind atEnd = some v) : v < 2 ^ w := by
  obtain ⟨z, -, -, hv⟩ := readUnsigned_bind_atEnd.mp h
  have hlt := Int.emod_lt_of_pos z (b := 2 ^ w) (by positivity)
  exact_mod_cast hv ▸ hlt

lemma getUInt32_eq_some {v : UInt32} :
    t.getUInt32 key = some v ↔ t.HasField key (IsUnsigned 32 v.toNat) := by
  simp only [getUInt32, HasField, IsUnsigned, Option.bind_eq_some_iff, Option.map_eq_some_iff,
    ← readUnsigned_bind_atEnd]
  constructor
  · rintro ⟨c, hc, n, hn, rfl⟩
    refine ⟨c, hc, ?_⟩
    have hlt := lt_of_readUnsigned (Option.bind_eq_some_iff.mpr hn)
    have hsame : n.toUInt32.toNat = n := Nat.mod_eq_of_lt hlt
    rwa [hsame]
  · rintro ⟨c, hc, hv⟩
    exact ⟨c, hc, v.toNat, hv, UInt32.ofNat_toNat⟩

lemma getUInt16_eq_some {v : UInt16} :
    t.getUInt16 key = some v ↔ t.HasField key (IsUnsigned 16 v.toNat) := by
  simp only [getUInt16, HasField, IsUnsigned, Option.bind_eq_some_iff, Option.map_eq_some_iff,
    ← readUnsigned_bind_atEnd]
  constructor
  · rintro ⟨c, hc, n, hn, rfl⟩
    refine ⟨c, hc, ?_⟩
    have hlt := lt_of_readUnsigned (Option.bind_eq_some_iff.mpr hn)
    have hsame : n.toUInt16.toNat = n := Nat.mod_eq_of_lt hlt
    rwa [hsame]
  · rintro ⟨c, hc, hv⟩
    exact ⟨c, hc, v.toNat, hv, UInt16.ofNat_toNat⟩

lemma mapM_eq_some {α β : Type*} {f : α → Option β} {l : List α} {bs : List β} :
    l.mapM f = some bs ↔ List.Forall₂ (fun a b => f a = some b) l bs := by
  induction l generalizing bs with
  | nil => simp [eq_comm]
  | cons a rest ih =>
    simp only [List.mapM_cons, Option.bind_eq_bind, Option.bind_eq_some_iff, Option.pure_def,
      Option.some.injEq, List.forall₂_cons_left_iff, ih]
    constructor
    · rintro ⟨b, hb, bs', hbs', rfl⟩
      exact ⟨b, bs', hb, hbs', rfl⟩
    · rintro ⟨b, bs', hb, hbs', rfl⟩
      exact ⟨b, hb, bs', hbs', rfl⟩

/-- A reader of the elements reads the list. -/
lemma mapM_children_eq_some {α : Type*} {R : PTree → α → Prop} {read : PTree → Option α}
    (h : ∀ c a, read c = some a ↔ R c a) {as : List α} :
    t.children.mapM (fun c => read c.2) = some as ↔ IsList R as t := by
  rw [mapM_eq_some, IsList]
  simp only [h]

/-- A list under a key, by the reader of its elements. -/
lemma getChild_mapM_eq_some {α : Type*} {R : PTree → α → Prop} {read : PTree → Option α}
    (h : ∀ c a, read c = some a ↔ R c a) {as : List α} :
    (∃ c, t.getChild key = some c ∧ c.children.mapM (fun e => read e.2) = some as) ↔
      t.HasField key (IsList R as) := by
  simp only [HasField, mapM_children_eq_some h]

/-! ### Writing values down -/

def leafOf (s : Str) : PTree := .node s []

def listOf {α : Type*} (write : α → PTree) (as : List α) : PTree :=
  .node [] (as.map fun a => ([], write a))

variable {v w : ℕ}

lemma isText_leafOf : IsText s (leafOf s) := rfl

lemma isUnsigned_leafOf (h : v < 2 ^ w) : IsUnsigned w v (leafOf (decimal v)) := by
  refine ⟨v, denotes_decimal v, by simpa using h, ?_⟩
  rw [Int.emod_eq_of_lt (Int.natCast_nonneg v) (by exact_mod_cast h)]

lemma isBool_leafOf : IsBool b (leafOf (boolName b)) := by
  rw [IsBool, ← readBool_bind_atEnd]
  cases b with
  | true => rfl
  | false => rfl

lemma isList_listOf {α : Type*} {R : PTree → α → Prop} {write : α → PTree}
    (h : ∀ a, R (write a) a) (as : List α) : IsList R as (listOf write as) := by
  rw [IsList, listOf, children, List.forall₂_map_left_iff, List.forall₂_same]
  exact fun a _ => h a

end PTree

end Lib
