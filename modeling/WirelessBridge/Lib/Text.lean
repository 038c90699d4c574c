import Mathlib.Data.Nat.Digits.Defs
import Mathlib.Data.List.Lex
import Mathlib.Data.List.TakeWhile
import Mathlib.Tactic.Common

/-!
# Byte strings and the C++ library functions on them

A `std::string` is its list of bytes. The functions below follow the C++ standard library in the
classic locale; nothing here depends on the program that calls them.
-/

namespace Lib

abbrev Str := List UInt8

/-- The bytes of an ASCII literal. -/
def str (s : String) : Str :=
  s.toList.map fun c => c.toNat.toUInt8

/-- What a `char*` to these bytes, followed by a zero byte, is as a C string. -/
def cStr (s : Str) : Str :=
  s.takeWhile (· ≠ 0)

lemma cStr_eq_self {s : Str} : cStr s = s ↔ 0 ∉ s := by
  simp only [cStr, List.takeWhile_eq_self_iff, decide_eq_true_eq]
  exact ⟨fun h h0 => h 0 h0 rfl, fun h x hx h0 => h (h0 ▸ hx)⟩

lemma cStr_cStr (s : Str) : cStr (cStr s) = cStr s :=
  List.takeWhile_idem

/-- `operator<` of strings compares bytes as unsigned numbers. -/
instance linearOrderUInt8 : LinearOrder UInt8 where
  le_refl := UInt8.le_refl
  le_trans _ _ _ := UInt8.le_trans
  le_antisymm _ _ := UInt8.le_antisymm
  le_total := UInt8.le_total
  lt_iff_le_not_ge a b := by
    simp only [UInt8.le_iff_toNat_le, UInt8.lt_iff_toNat_lt]
    omega
  toDecidableLE := inferInstance

/-! ### Decimal numbers -/

/-- `std::to_string` of an unsigned integer, and `operator<<` of one. -/
def decimal (n : ℕ) : Str :=
  if n = 0 then [48] else (Nat.digits 10 n).reverse.map fun d => (48 + d).toUInt8

def isDigit (c : UInt8) : Bool := 48 ≤ c && c ≤ 57

/-- `isspace` in the classic locale: blank, tab, line feed, vertical tab, form feed, return. -/
def isSpace (c : UInt8) : Bool := c == 32 || (9 ≤ c && c ≤ 13)

/-- The number that a string of digits denotes. -/
def digitsVal (s : Str) : ℕ :=
  s.foldl (fun n c => 10 * n + (c.toNat - 48)) 0

/-- An optional sign, `true` for a minus, and the text after it. -/
def takeSign : Str → Bool × Str
  | 45 :: s => (true, s)
  | 43 :: s => (false, s)
  | s => (false, s)

inductive StdException where
  | invalidArgument (what : Str)
  | outOfRange (what : Str)
  | logicError (what : Str)
  | runtimeError (what : Str)
  deriving DecidableEq

def StdException.what : StdException → Str
  | .invalidArgument w => w
  | .outOfRange w => w
  | .logicError w => w
  | .runtimeError w => w

/-- `std::stoi` in base ten: blanks and a sign are skipped, whatever follows the digits is
ignored, and the value has to fit in an `int`. -/
def stoi (s : Str) : Except StdException ℤ :=
  let (neg, t) := takeSign (s.dropWhile isSpace)
  let ds := t.takeWhile isDigit
  if ds = [] then .error (.invalidArgument (str "stoi"))
  else
    let z : ℤ := if neg then -digitsVal ds else digitsVal ds
    if -2 ^ 31 ≤ z ∧ z < 2 ^ 31 then .ok z else .error (.outOfRange (str "stoi"))

/-- `std::istream >> v` for an unsigned `v` of `w` bits, with the text it leaves unread. A minus
sign is accepted, and negates the value modulo `2 ^ w`; a magnitude that does not fit fails. -/
def readUnsigned (w : ℕ) (s : Str) : Option (ℕ × Str) :=
  let (neg, t) := takeSign (s.dropWhile isSpace)
  let ds := t.takeWhile isDigit
  let n := digitsVal ds
  if ds = [] ∨ 2 ^ w ≤ n then none
  else some (if neg then (2 ^ w - n) % 2 ^ w else n, t.dropWhile isDigit)

/-! ### `std::getline` -/

/-- An input string stream: what is left to read, and the state bits that `good` looks at. -/
structure IStream where
  rest : Str
  eof : Bool
  fail : Bool
  deriving DecidableEq

def IStream.ofStr (s : Str) : IStream := ⟨s, false, false⟩

def IStream.good (s : IStream) : Bool := !s.eof && !s.fail

/-- `std::getline` with a separator on a good stream. Reaching the end sets `eofbit`, and
`failbit` too when nothing at all was extracted; the separator is extracted and dropped. -/
def getline (sep : UInt8) (s : IStream) : Str × IStream :=
  let field := s.rest.takeWhile (· ≠ sep)
  match s.rest.dropWhile (· ≠ sep) with
  | [] => (field, ⟨[], true, field.isEmpty⟩)
  | _ :: t => (field, ⟨t, false, false⟩)

/-- Reading fields while the stream is good, for at most `fuel` of them. -/
def getlines (sep : UInt8) : ℕ → IStream → List Str
  | 0, _ => []
  | fuel + 1, s =>
    if s.good then
      let (field, s') := getline sep s
      field :: getlines sep fuel s'
    else []

lemma getlines_not_good {sep : UInt8} {s : IStream} (h : s.good = false) (fuel : ℕ) :
    getlines sep fuel s = [] := by
  cases fuel <;> simp [getlines, h]

/-- One field for every separator and one more, whatever the fuel beyond that. -/
theorem getlines_eq_splitOn (sep : UInt8) {s : Str} {fuel : ℕ} (h : s.length < fuel) :
    getlines sep fuel (.ofStr s) = s.splitOn sep := by
  induction fuel generalizing s with
  | zero => omega
  | succ fuel ih =>
    have hgood : (IStream.ofStr s).good = true := rfl
    rw [getlines, if_pos hgood]
    simp only [getline, IStream.ofStr]
    by_cases hsep : sep ∈ s
    · obtain ⟨a, b, rfl, ha⟩ := List.eq_append_cons_of_mem hsep
      have htake : (a ++ sep :: b).takeWhile (· ≠ sep) = a := by
        rw [List.takeWhile_append_of_pos (by simpa using fun x hx => ne_of_mem_of_not_mem hx ha)]
        simp
      have hdrop : (a ++ sep :: b).dropWhile (· ≠ sep) = sep :: b := by
        rw [List.dropWhile_append_of_pos (by simpa using fun x hx => ne_of_mem_of_not_mem hx ha)]
        simp
      rw [htake, hdrop, List.splitOn_append_cons_self_of_not_mem ha]
      have hb : b.length < fuel := by simp at h; omega
      exact congrArg (a :: ·) (ih hb)
    · have htake : s.takeWhile (· ≠ sep) = s := by
        rw [List.takeWhile_eq_self_iff]
        simpa using fun x hx => ne_of_mem_of_not_mem hx hsep
      have hdrop : s.dropWhile (· ≠ sep) = [] := by
        rw [List.dropWhile_eq_nil_iff]
        simpa using fun x hx => ne_of_mem_of_not_mem hx hsep
      rw [htake, hdrop, List.splitOn_eq_singleton hsep]
      exact congrArg (s :: ·) (getlines_not_good rfl fuel)

/-! ### Fields -/

section

variable {α : Type*} [DecidableEq α] {sep : α}

lemma notMem_of_mem_splitOn {l field : List α} (h : field ∈ l.splitOn sep) : sep ∉ field := by
  induction l generalizing field with
  | nil =>
    obtain rfl := List.mem_singleton.mp h
    exact List.not_mem_nil
  | cons a rest ih =>
    rw [List.splitOn_cons_eq_if_modifyHead] at h
    split_ifs at h with ha
    · rcases List.mem_cons.mp h with rfl | h
      · exact List.not_mem_nil
      · exact ih h
    · obtain ⟨first, others, hsplit⟩ := List.exists_cons_of_ne_nil (List.splitOn_ne_nil sep rest)
      rw [hsplit] at h ih
      rcases List.mem_cons.mp h with rfl | h
      · have hne : sep ≠ a := fun heq => ha (beq_iff_eq.mpr heq.symm)
        simp [hne, ih List.mem_cons_self]
      · exact ih (List.mem_cons_of_mem first h)

lemma length_splitOn (sep : α) (l : List α) : (l.splitOn sep).length = l.count sep + 1 := by
  induction l with
  | nil => rfl
  | cons a rest ih =>
    rw [List.splitOn_cons_eq_if_modifyHead, List.count_cons]
    split_ifs with ha
    · rw [List.length_cons, ih]
    · rw [List.length_modifyHead, ih, Nat.add_zero]

end

end Lib
