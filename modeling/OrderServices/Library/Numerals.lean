import Mathlib.Data.Int.Notation
import Mathlib.Data.List.TakeWhile

/-! Decimal numerals: what `std::from_chars` reads of a text in base 10. It takes a minus sign but
no plus sign and no spaces, and stops at the first character that is not a digit. -/
namespace Numerals

inductive Errc
  | invalidArgument
  | resultOutOfRange
  deriving DecidableEq, Repr

/-- The text after the minus sign, if there is one. -/
def unsigned : List Char → List Char
  | '-' :: digits => digits
  | text => text

def magnitude (digits : List Char) : ℕ := Nat.ofDigitChars 10 digits 0

/-- The digits at the start of the text, after its minus sign. -/
def pattern (text : List Char) : List Char := (unsigned text).takeWhile Char.isDigit

def valueOf (text : List Char) : ℤ :=
  if text.head? = some '-' then -magnitude (pattern text) else magnitude (pattern text)

/-- The value that is read, or the error, and what is left of the text. -/
def fromChars (low high : ℤ) (text : List Char) : Except Errc ℤ × List Char :=
  if pattern text = [] then (.error .invalidArgument, text)
  else
    (if low ≤ valueOf text ∧ valueOf text ≤ high then .ok (valueOf text)
      else .error .resultOutOfRange,
      (unsigned text).dropWhile Char.isDigit)

/-- The numerals and their values. -/
inductive Denotes : List Char → ℤ → Prop
  | natural {digits : List Char} (some : digits ≠ []) (all : ∀ c ∈ digits, c.isDigit) :
      Denotes digits (magnitude digits)
  | negative {digits : List Char} (some : digits ≠ []) (all : ∀ c ∈ digits, c.isDigit) :
      Denotes ('-' :: digits) (-magnitude digits)

theorem unsigned_of_digits {digits : List Char} (all : ∀ c ∈ digits, c.isDigit) :
    unsigned digits = digits ∧ digits.head? ≠ some '-' := by
  cases digits with
  | nil => exact ⟨rfl, nofun⟩
  | cons first digits =>
      have digit := all first List.mem_cons_self
      have other : first ≠ '-' := by
        rintro rfl
        cases digit
      constructor
      · unfold unsigned
        split
        · rename_i eq
          exact absurd (List.cons.inj eq).1 other
        · rfl
      · intro eq
        exact other (Option.some.inj eq)

theorem pattern_of_digits {digits : List Char} (all : ∀ c ∈ digits, c.isDigit) :
    pattern digits = digits ∧ pattern ('-' :: digits) = digits := by
  have whole : digits.takeWhile Char.isDigit = digits := List.takeWhile_eq_self_iff.mpr all
  constructor
  · rw [pattern, (unsigned_of_digits all).1, whole]
  · exact whole

/-- A text that is nothing but a sign and digits is a numeral for its value. -/
theorem Denotes.of_unsigned {text : List Char} (some : pattern text ≠ [])
    (all : ∀ c ∈ unsigned text, c.isDigit) : Denotes text (valueOf text) := by
  have whole : pattern text = unsigned text := List.takeWhile_eq_self_iff.mpr all
  rw [whole] at some
  unfold valueOf
  by_cases signed : text.head? = Option.some '-'
  · obtain ⟨digits, rfl⟩ := List.head?_eq_some_iff.mp signed
    rw [if_pos signed, whole]
    exact .negative some all
  · have plain : unsigned text = text := by
      unfold unsigned
      split
      · exact absurd rfl signed
      · rfl
    rw [if_neg signed, whole]
    rw [plain] at some all ⊢
    exact .natural some all

theorem Denotes.value {text : List Char} {n : ℤ} (denotes : Denotes text n) :
    pattern text ≠ [] ∧ valueOf text = n ∧ (unsigned text).dropWhile Char.isDigit = [] := by
  cases denotes with
  | natural some all =>
      obtain ⟨plain, unsigned_⟩ := unsigned_of_digits all
      have whole := (pattern_of_digits all).1
      refine ⟨by rwa [whole], ?_, ?_⟩
      · rw [valueOf, if_neg unsigned_, whole]
      · rw [plain]
        exact List.dropWhile_eq_nil_iff.mpr all
  | negative some all =>
      have whole := (pattern_of_digits all).2
      refine ⟨by rwa [whole], ?_, List.dropWhile_eq_nil_iff.mpr all⟩
      rw [valueOf, List.head?_cons, if_pos rfl, whole]

/-- A text is read to its end exactly if it is a numeral with a value in range. -/
theorem fromChars_eq_ok {low high : ℤ} {text : List Char} {n : ℤ} :
    fromChars low high text = (.ok n, []) ↔ Denotes text n ∧ low ≤ n ∧ n ≤ high := by
  constructor
  · intro read
    unfold fromChars at read
    split at read
    · cases read
    · rename_i some
      obtain ⟨value, rest⟩ := Prod.mk.inj read
      split at value
      · rename_i inRange
        obtain rfl := Except.ok.inj value
        exact ⟨.of_unsigned some (List.dropWhile_eq_nil_iff.mp rest), inRange⟩
      · cases value
  · rintro ⟨denotes, inRange⟩
    obtain ⟨some, value, rest⟩ := denotes.value
    rw [fromChars, if_neg some, value, rest, if_pos inRange]

/-- The text of an integer is a numeral for it. -/
theorem denotes_toString (n : ℤ) : Denotes (toString n).toList n := by
  have digits (m : ℕ) : Nat.toDigits 10 m ≠ [] ∧ ∀ c ∈ Nat.toDigits 10 m, c.isDigit :=
    ⟨Nat.toDigits_ne_nil, fun c here => Nat.isDigit_of_mem_toDigits (by decide) (by decide) here⟩
  have value (m : ℕ) : magnitude (Nat.toDigits 10 m) = m := Nat.ofDigitChars_ten_toDigits
  cases n with
  | ofNat m =>
      have text : (toString (Int.ofNat m)).toList = Nat.toDigits 10 m := by
        change m.repr.toList = _
        exact Nat.toList_repr
      rw [text]
      have natural := Denotes.natural (digits m).1 (digits m).2
      rw [value] at natural
      exact natural
  | negSucc m =>
      have text : (toString (Int.negSucc m)).toList = '-' :: Nat.toDigits 10 (m + 1) := by
        change ("-" ++ (m + 1).repr).toList = _
        rw [String.toList_append, Nat.toList_repr]
        rfl
      rw [text]
      have negative := Denotes.negative (digits (m + 1)).1 (digits (m + 1)).2
      rw [value] at negative
      exact negative

end Numerals
