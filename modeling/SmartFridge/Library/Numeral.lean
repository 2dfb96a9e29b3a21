import SmartFridge.Library.CString
import Mathlib.Algebra.Order.Ring.Int
import Mathlib.Tactic.Ring

/-!
# Decimal numerals

An optional sign and some digits, what `strtol` makes of them, and what it makes
of a numeral that is cut short.
-/

namespace SmartFridge.Library

open CString

/-- A decimal numeral. -/
structure Numeral where
  sign : List UInt8
  digits : List UInt8
  signed : sign = [] ∨ sign = [43] ∨ sign = [45]
  nonempty : digits ≠ []
  allDigits : ∀ digit ∈ digits, isDigit digit = true

namespace Numeral

/-- The characters of a numeral. -/
def bytes (numeral : Numeral) : List UInt8 :=
  numeral.sign ++ numeral.digits

/-- The integer that some digits behind a sign denote. -/
def signedValue (sign digits : List UInt8) : Int :=
  if sign = [45] then -digitsValue digits else digitsValue digits

/-- The integer that a numeral denotes. -/
def value (numeral : Numeral) : Int :=
  signedValue numeral.sign numeral.digits

/-- The integer fits in an `int`. -/
def IsInt (numeral : Numeral) : Prop :=
  -(2 ^ 31) ≤ numeral.value ∧ numeral.value < 2 ^ 31

/-- A character that is neither a digit nor a sign does not occur. -/
theorem not_mem_bytes (numeral : Numeral) {byte : UInt8}
    (notDigit : isDigit byte = false) (plus : byte ≠ 43) (minus : byte ≠ 45) :
    byte ∉ numeral.bytes := by
  rw [bytes, List.mem_append]
  rintro (inSign | inDigits)
  · rcases numeral.signed with none_ | positive | negative
    · simp [none_] at inSign
    · exact plus (by simpa [positive] using inSign)
    · exact minus (by simpa [negative] using inSign)
  · rw [numeral.allDigits byte inDigits] at notDigit
    cases notDigit

/-- The numeral as a string. -/
def text (numeral : Numeral) : CString where
  bytes := numeral.bytes
  nulFree := numeral.not_mem_bytes rfl nofun nofun

/-! ## The value of digits -/

theorem foldl_digits (digits : List UInt8) (start : Nat) :
    digits.foldl (fun value digit => 10 * value + (digit.toNat - 48)) start =
      start * 10 ^ digits.length + digitsValue digits := by
  induction digits generalizing start with
  | nil => simp [digitsValue]
  | cons digit rest ih =>
      rw [digitsValue, List.foldl_cons, List.foldl_cons, ih, ih,
        List.length_cons, pow_succ]
      ring

theorem digitsValue_append (first second : List UInt8) :
    digitsValue (first ++ second) =
      digitsValue first * 10 ^ second.length + digitsValue second := by
  rw [digitsValue, List.foldl_append, foldl_digits]
  rfl

theorem digitsValue_le_append (first second : List UInt8) :
    digitsValue first ≤ digitsValue (first ++ second) := by
  rw [digitsValue_append]
  have power : 1 ≤ 10 ^ second.length := Nat.one_le_pow _ _ (by simp)
  exact (Nat.le_mul_of_pos_right _ power).trans (Nat.le_add_right _ _)

/-- Digits that are cut off change the value, unless it is zero. -/
theorem digitsValue_eq_append {first second : List UInt8} :
    digitsValue first = digitsValue (first ++ second) ↔
      second = [] ∨ digitsValue (first ++ second) = 0 := by
  constructor
  · intro same
    rcases second with _ | ⟨digit, rest⟩
    · exact .inl rfl
    · refine .inr ?_
      rw [← same]
      rw [digitsValue_append, List.length_cons, pow_succ] at same
      have power : 1 ≤ 10 ^ rest.length := Nat.one_le_pow _ _ (by simp)
      have grown : digitsValue first * 10 ≤
          digitsValue first * (10 ^ rest.length * 10) :=
        Nat.mul_le_mul_left _ (Nat.le_mul_of_pos_left _ power)
      omega
  · rintro (rfl | zero)
    · rw [List.append_nil]
    · have bound := digitsValue_le_append first second
      omega

/-! ## `strtol` -/

theorem isSpace_of_isDigit {byte : UInt8} (isOne : isDigit byte = true) :
    isSpace byte = false := by
  simp only [isDigit, isSpace, decide_eq_true_eq, decide_eq_false_iff_not,
    UInt8.le_iff_toNat_le, ← UInt8.toNat_inj, UInt8.reduceToNat] at isOne ⊢
  omega

theorem dropWhile_isSpace {sign digits : List UInt8}
    (signed : sign = [] ∨ sign = [43] ∨ sign = [45])
    (allDigits : ∀ digit ∈ digits, isDigit digit = true) :
    (sign ++ digits).dropWhile isSpace = sign ++ digits := by
  rcases signed with rfl | rfl | rfl
  · rcases digits with _ | ⟨digit, rest⟩
    · rfl
    · have notSpace := isSpace_of_isDigit (allDigits digit List.mem_cons_self)
      simp [notSpace]
  · rfl
  · rfl

theorem head?_digits {digits : List UInt8} {byte : UInt8}
    (allDigits : ∀ digit ∈ digits, isDigit digit = true)
    (notDigit : isDigit byte = false) : digits.head? ≠ some byte := by
  intro isHead
  rw [allDigits byte (List.mem_of_head? isHead)] at notDigit
  cases notDigit

/-- Behind the blanks, `strtol` reads a sign and the digits that follow it, up
to the range of a `long`. -/
theorem strtol_of_unspaced {text : CString} {sign unsigned : List UInt8}
    (signed : sign = [] ∨ sign = [43] ∨ sign = [45])
    (unspaced : text.bytes.dropWhile isSpace = sign ++ unsigned)
    (noPlus : unsigned.head? ≠ some 43) (noMinus : unsigned.head? ≠ some 45)
    (small : digitsValue (unsigned.takeWhile isDigit) < 2 ^ 63) :
    text.strtol = signedValue sign (unsigned.takeWhile isDigit) := by
  unfold strtol signedValue
  rw [unspaced]
  rcases signed with rfl | rfl | rfl
  · simp [noPlus, noMinus]
    omega
  · simp
    omega
  · simp
    omega

/-- `strtol` reads a sign and digits, up to the range of a `long`. -/
theorem strtol_signed {text : CString} {sign digits : List UInt8}
    (signed : sign = [] ∨ sign = [43] ∨ sign = [45])
    (allDigits : ∀ digit ∈ digits, isDigit digit = true)
    (bytes : text.bytes = sign ++ digits)
    (small : digitsValue digits < 2 ^ 63) :
    text.strtol = signedValue sign digits := by
  have whole : digits.takeWhile isDigit = digits :=
    List.takeWhile_eq_self_iff.mpr allDigits
  have read : text.strtol = signedValue sign (digits.takeWhile isDigit) :=
    strtol_of_unspaced signed
    (by rw [bytes, dropWhile_isSpace signed allDigits])
    (head?_digits allDigits rfl) (head?_digits allDigits rfl)
    (by rwa [whole])
  rwa [whole] at read

/-- What follows a numeral does not count, unless it is a digit. -/
theorem strtol_followed (numeral : Numeral) {text : CString}
    {rest : List UInt8} (bytes : text.bytes = numeral.bytes ++ rest)
    (ends : ∀ byte ∈ rest.head?, isDigit byte = false)
    (small : digitsValue numeral.digits < 2 ^ 63) :
    text.strtol = numeral.value := by
  rcases List.exists_cons_of_ne_nil numeral.nonempty with ⟨digit, more, digits⟩
  have isOne : isDigit digit = true :=
    numeral.allDigits digit (by simp [digits])
  have notSpace := isSpace_of_isDigit isOne
  have whole : (numeral.digits ++ rest).takeWhile isDigit = numeral.digits := by
    rw [List.takeWhile_append_of_pos numeral.allDigits]
    cases rest with
    | nil => simp
    | cons byte behind => simp [ends byte rfl]
  have unspaced : text.bytes.dropWhile isSpace =
      numeral.sign ++ (numeral.digits ++ rest) := by
    rw [bytes, Numeral.bytes, List.append_assoc, digits]
    rcases numeral.signed with sign | sign | sign
    · simp [sign, notSpace]
    · rw [sign]
      rfl
    · rw [sign]
      rfl
  have unsigned : ∀ byte, isDigit byte = false →
      (numeral.digits ++ rest).head? ≠ some byte := by
    rintro byte notDigit isHead
    rw [digits, List.cons_append, List.head?_cons, Option.some.injEq] at isHead
    rw [isHead, notDigit] at isOne
    cases isOne
  have read := strtol_of_unspaced numeral.signed unspaced (unsigned 43 rfl)
    (unsigned 45 rfl) (by rwa [whole])
  rwa [whole] at read

theorem strtol_text (numeral : Numeral)
    (small : digitsValue numeral.digits < 2 ^ 63) :
    numeral.text.strtol = numeral.value :=
  strtol_signed numeral.signed numeral.allDigits rfl small

theorem IsInt.small {numeral : Numeral} (isInt : numeral.IsInt) :
    digitsValue numeral.digits ≤ 2 ^ 31 := by
  rcases isInt with ⟨lower, upper⟩
  unfold value signedValue at lower upper
  by_cases negative : numeral.sign = [45]
  · rw [if_pos negative] at lower
    omega
  · rw [if_neg negative] at upper
    omega

/-- A beginning of a numeral is a sign and digits, too. -/
theorem prefix_cases {numeral : Numeral} {start : List UInt8}
    (begins : start <+: numeral.bytes) :
    (start = [] ∧ numeral.sign ≠ []) ∨
      ∃ digits cut, start = numeral.sign ++ digits ∧
        numeral.digits = digits ++ cut := by
  rcases begins with ⟨behind, whole⟩
  rcases List.append_eq_append_iff.mp whole with
    ⟨rest, sign, _⟩ | ⟨digits, start, digitsEq⟩
  · rcases rest with _ | ⟨byte, more⟩
    · rw [List.append_nil] at sign
      exact .inr ⟨[], numeral.digits, by simp [sign], rfl⟩
    · have short : numeral.sign.length ≤ 1 := by
        rcases numeral.signed with one | one | one
        · simp [one]
        · simp [one]
        · simp [one]
      rw [sign, List.length_append, List.length_cons] at short
      exact .inl ⟨List.length_eq_zero_iff.mp (by omega), by simp [sign]⟩
  · exact .inr ⟨digits, behind, start, digitsEq⟩

/--
A beginning of a numeral stays in the range of an `int`, and `strtol` takes it
for the whole exactly if it is, or if the whole is zero.
-/
theorem strtol_prefix {numeral : Numeral} (isInt : numeral.IsInt)
    {start : CString} (begins : start.bytes <+: numeral.bytes) :
    (-(2 ^ 31) ≤ start.strtol ∧ start.strtol < 2 ^ 31) ∧
      (start.strtol = numeral.value ↔
        start.bytes = numeral.bytes ∨ numeral.value = 0) := by
  have small := isInt.small
  have zero : numeral.value = 0 ↔ digitsValue numeral.digits = 0 := by
    unfold value signedValue
    split
    · omega
    · omega
  rcases prefix_cases begins with ⟨empty, signed⟩ | ⟨digits, cut, bytes, whole⟩
  · have noDigits : ∀ digit ∈ ([] : List UInt8), isDigit digit = true := nofun
    have nothing : start.strtol = 0 :=
      strtol_signed (.inl rfl) noDigits empty (by decide)
    have short : start.bytes ≠ numeral.bytes := by
      rw [empty, Numeral.bytes]
      exact fun same => signed (List.append_eq_nil_iff.mp same.symm).1
    rw [nothing, or_iff_right short, eq_comm]
    exact ⟨⟨by omega, by omega⟩, Iff.rfl⟩
  · have allDigits : ∀ digit ∈ digits, isDigit digit = true := by
      intro digit member
      apply numeral.allDigits
      rw [whole]
      exact List.mem_append_left cut member
    have below := digitsValue_le_append digits cut
    rw [← whole] at below
    rw [strtol_signed numeral.signed allDigits bytes (by omega)]
    constructor
    · rcases isInt with ⟨lower, upper⟩
      unfold value signedValue at lower upper
      unfold signedValue
      by_cases negative : numeral.sign = [45]
      · rw [if_pos negative] at lower ⊢
        omega
      · rw [if_neg negative] at upper ⊢
        omega
    · have same : signedValue numeral.sign digits = numeral.value ↔
          digitsValue digits = digitsValue numeral.digits := by
        unfold value signedValue
        split
        · omega
        · omega
      rw [same, zero, bytes, Numeral.bytes, whole, digitsValue_eq_append,
        List.append_cancel_left_eq, List.self_eq_append_right]

end Numeral

end SmartFridge.Library
