import SmartFridge.Library.Json
import Mathlib.Data.Nat.Digits.Lemmas

/-!
# Parsing undoes printing

Numbers, strings and then whole values: the parser reads back what the printer
wrote, whatever follows the value.  The fuel of the parser is bounded by a size
of the value, which in turn is bounded by the length of its text.
-/

namespace SmartFridge.Library.Json

/-! ## Numbers -/

theorem digit_byte : ∀ digit, digit < 10 →
    CString.isDigit ((48 + digit).toUInt8) = true ∧
      (48 + digit).toUInt8.toNat - 48 = digit := by
  decide

theorem natText_isDigit (value : Nat) :
    ∀ byte ∈ natText value, CString.isDigit byte = true := by
  intro byte member
  rw [natText] at member
  split_ifs at member with zero
  · have equal : byte = 48 := by simpa using member
    subst equal
    decide
  · rw [List.mem_reverse, List.mem_map] at member
    rcases member with ⟨digit, inDigits, rfl⟩
    exact (digit_byte digit (Nat.digits_lt_base (by decide) inDigits)).1

theorem digitsValue_natText (value : Nat) :
    CString.digitsValue (natText value) = value := by
  rw [natText]
  split_ifs with zero
  · subst zero
    rfl
  · rw [CString.digitsValue, List.foldl_reverse, List.foldr_map]
    have digitStep :
        (Nat.digits 10 value).foldr
            (fun digit sum =>
              10 * sum + ((48 + digit).toUInt8.toNat - 48)) 0 =
          (Nat.digits 10 value).foldr
            (fun digit sum => digit + 10 * sum) 0 := by
      apply List.foldr_ext
      intro digit member sum
      rw [(digit_byte digit (Nat.digits_lt_base (by decide) member)).2,
        Nat.add_comm]
    rw [digitStep]
    have value_eq := Nat.ofDigits_digits 10 value
    rwa [Nat.ofDigits_eq_foldr] at value_eq

theorem natText_ne_nil (value : Nat) : natText value ≠ [] := by
  rw [natText]
  split_ifs with zero
  · simp
  · simp [Nat.digits_ne_nil_iff_ne_zero.mpr zero]

/-- A digit text begins with a zero only if it is the text of zero. -/
theorem natText_head_ne_zero {value : Nat} (nonzero : value ≠ 0) :
    (natText value).head? ≠ some 48 := by
  rw [natText, if_neg nonzero, List.head?_reverse, List.getLast?_map]
  intro equal
  rw [Option.map_eq_some_iff] at equal
  rcases equal with ⟨digit, isLast, byte⟩
  have digits_ne : Nat.digits 10 value ≠ [] :=
    Nat.digits_ne_nil_iff_ne_zero.mpr nonzero
  rw [List.getLast?_eq_getLast_of_ne_nil digits_ne, Option.some.injEq]
    at isLast
  have inDigits : digit ∈ Nat.digits 10 value :=
    isLast ▸ List.getLast_mem digits_ne
  have digitNonzero : digit ≠ 0 :=
    isLast ▸ Nat.getLast_digit_ne_zero 10 nonzero
  have digitValue :=
    (digit_byte digit (Nat.digits_lt_base (by decide) inDigits)).2
  rw [byte] at digitValue
  exact digitNonzero digitValue.symm

/-- What follows a number: the end, or a byte that cannot belong to it. -/
def Delimited (rest : Bytes) : Prop :=
  ∀ byte, rest.head? = some byte →
    byte = comma ∨ byte = closeBracket ∨ byte = closeBrace

theorem delimited_nil : Delimited [] := by
  intro byte impossible
  simp at impossible

theorem delimited_cons {byte : UInt8} {rest : Bytes}
    (closing : byte = comma ∨ byte = closeBracket ∨ byte = closeBrace) :
    Delimited (byte :: rest) := by
  intro first equal
  have same : byte = first := by simpa using equal
  exact same ▸ closing

/-- The input does not go on with a digit. -/
def NoDigitNext (rest : Bytes) : Prop :=
  ∀ byte, rest.head? = some byte → CString.isDigit byte = false

theorem Delimited.noDigitNext {rest : Bytes} (delimited : Delimited rest) :
    NoDigitNext rest := by
  intro byte isHead
  rcases delimited byte isHead with rfl | rfl | rfl <;> decide

theorem parseDigits_append {digits rest : Bytes}
    (nonempty : digits ≠ [])
    (areDigits : ∀ byte ∈ digits, CString.isDigit byte = true)
    (ends : NoDigitNext rest) :
    parseDigits (digits ++ rest) = some (digits, rest) := by
  have restTake : rest.takeWhile CString.isDigit = [] := by
    cases rest with
    | nil => rfl
    | cons byte tail => simp [ends byte rfl]
  have restDrop : rest.dropWhile CString.isDigit = rest := by
    cases rest with
    | nil => rfl
    | cons byte tail => simp [ends byte rfl]
  rw [parseDigits, List.takeWhile_append_of_pos areDigits,
    List.dropWhile_append_of_pos areDigits, restTake, restDrop,
    List.append_nil, if_neg nonempty]

theorem parseDigits_natText (value : Nat) {rest : Bytes}
    (ends : NoDigitNext rest) :
    parseDigits (natText value ++ rest) = some (natText value, rest) :=
  parseDigits_append (natText_ne_nil value) (natText_isDigit value) ends

theorem head?_natText_append (value : Nat) (rest : Bytes) :
    (natText value ++ rest).head? = (natText value).head? := by
  rw [List.head?_append_of_ne_nil _ (natText_ne_nil value)]

theorem parseWhole_natText (value : Nat) {rest : Bytes}
    (ends : NoDigitNext rest) :
    parseWhole (natText value ++ rest) = some (natText value, rest) := by
  by_cases zero : value = 0
  · subst zero
    rfl
  · rw [parseWhole, head?_natText_append,
      if_neg (natText_head_ne_zero zero)]
    exact parseDigits_natText value ends

/-- The first byte of a digit text is a digit, so it is no sign. -/
theorem natText_head_ne (value : Nat) {byte : UInt8}
    (notDigit : CString.isDigit byte = false) :
    (natText value).head? ≠ some byte := by
  intro isHead
  have member : byte ∈ natText value := List.mem_of_head? isHead
  rw [natText_isDigit value byte member] at notDigit
  contradiction

theorem intText_of_neg {value : Int} (negative : value < 0) :
    intText value = 45 :: natText value.natAbs :=
  if_pos negative

theorem intText_of_nonneg {value : Int} (nonnegative : ¬ value < 0) :
    intText value = natText value.natAbs :=
  if_neg nonnegative

theorem parseSigned_intText (value : Int) {rest : Bytes}
    (ends : NoDigitNext rest) :
    parseSigned (intText value ++ rest) = some (value, rest) := by
  have digits := parseDigits_natText value.natAbs ends
  by_cases negative : value < 0
  · have value_eq : -(value.natAbs : Int) = value := by omega
    rw [intText_of_neg negative, List.cons_append, parseSigned,
      List.head?_cons, if_pos rfl, List.tail_cons, digits, Option.map_some,
      digitsValue_natText, value_eq]
  · have value_eq : (value.natAbs : Int) = value := by omega
    rw [intText_of_nonneg negative, parseSigned, head?_natText_append,
      if_neg (natText_head_ne value.natAbs (by decide)),
      if_neg (natText_head_ne value.natAbs (by decide)), digits,
      Option.map_some, digitsValue_natText, value_eq]

theorem parseExponent_intText (exponent : Int) {rest : Bytes}
    (ends : NoDigitNext rest) :
    parseExponent (101 :: (intText exponent ++ rest)) =
      some (exponent, rest) := by
  have marked :
      (101 :: (intText exponent ++ rest) : Bytes).head? = some 101 ∨
        (101 :: (intText exponent ++ rest) : Bytes).head? = some 69 :=
    Or.inl rfl
  rw [parseExponent, if_pos marked, List.tail_cons]
  exact parseSigned_intText exponent ends

theorem parseFraction_of_head_ne {input : Bytes}
    (noPoint : input.head? ≠ some 46) :
    parseFraction input = some ([], input) := by
  rw [parseFraction, if_neg noPoint]

/-- The part of a number behind its sign and whole part. -/
theorem parseUnsigned_natText (value : Nat) (exponent : Int)
    {rest : Bytes} (delimited : Delimited rest) :
    parseUnsigned
        (natText value ++
          ((if exponent = 0 then [] else 101 :: intText exponent) ++ rest)) =
      some ({ mantissa := value, exponent }, rest) := by
  have notHead : ∀ byte, byte ≠ comma → byte ≠ closeBracket →
      byte ≠ closeBrace → rest.head? ≠ some byte := by
    intro byte notComma notBracket notBrace isHead
    rcases delimited byte isHead with same | same | same <;> contradiction
  by_cases zero : exponent = 0
  · subst zero
    have noPoint : rest.head? ≠ some 46 :=
      notHead 46 (by decide) (by decide) (by decide)
    have noExponent :
        ¬ (rest.head? = some 101 ∨ rest.head? = some 69) :=
      not_or.mpr
        ⟨notHead 101 (by decide) (by decide) (by decide),
          notHead 69 (by decide) (by decide) (by decide)⟩
    rw [if_pos rfl, List.nil_append, parseUnsigned,
      parseWhole_natText value delimited.noDigitNext, Option.bind_some,
      parseFraction_of_head_ne noPoint, Option.bind_some, parseExponent,
      if_neg noExponent, Option.map_some, List.append_nil,
      digitsValue_natText]
    rfl
  · have ends : NoDigitNext (101 :: (intText exponent ++ rest)) := by
      intro byte isHead
      have same : 101 = byte := by simpa using isHead
      subst same
      decide
    have noPoint :
        (101 :: (intText exponent ++ rest) : Bytes).head? ≠ some 46 := by
      simp
    rw [if_neg zero, List.cons_append, parseUnsigned,
      parseWhole_natText value ends, Option.bind_some,
      parseFraction_of_head_ne noPoint, Option.bind_some,
      parseExponent_intText exponent delimited.noDigitNext, Option.map_some,
      List.append_nil, digitsValue_natText]
    simp

theorem numberText_eq (value : Decimal) :
    numberText value =
      intText value.mantissa ++
        (if value.exponent = 0 then []
          else 101 :: intText value.exponent) := by
  rw [numberText]
  split_ifs
  · rw [List.append_nil]
  · rfl

theorem parseNumber_numberText (value : Decimal) {rest : Bytes}
    (delimited : Delimited rest) :
    parseNumber (numberText value ++ rest) = some (value, rest) := by
  rcases value with ⟨mantissa, exponent⟩
  have parsed :=
    parseUnsigned_natText mantissa.natAbs exponent delimited
  rw [numberText_eq, List.append_assoc, parseNumber]
  by_cases negative : mantissa < 0
  · have value_eq : -(mantissa.natAbs : Int) = mantissa := by omega
    rw [intText_of_neg negative, List.cons_append, List.head?_cons,
      if_pos rfl, List.tail_cons, parsed, Option.map_some, value_eq]
  · have value_eq : (mantissa.natAbs : Int) = mantissa := by omega
    rw [intText_of_nonneg negative, head?_natText_append,
      if_neg (natText_head_ne mantissa.natAbs (by decide)), parsed, value_eq]

/-! ## Strings -/

theorem unescape_escape {byte letter : UInt8}
    (escaped : escapeLetter byte = some letter) :
    letter ≠ 117 ∧ unescapeLetter letter = some byte := by
  unfold escapeLetter at escaped
  split_ifs at escaped <;> cases escaped <;> subst_vars <;> decide

theorem hexValue_hexText : ∀ code, code < 32 →
    hexValue (hexText (code.toUInt8 / 16)) = some (code / 16) ∧
      hexValue (hexText (code.toUInt8 % 16)) = some (code % 16) ∧
        utf8 code = [code.toUInt8] := by
  decide

theorem parseUnicode_control {byte : UInt8} (control : byte < 32)
    (rest : Bytes) :
    parseUnicode
        (48 :: 48 :: hexText (byte / 16) :: hexText (byte % 16) :: rest) =
      some ([byte], rest) := by
  have small : byte.toNat < 32 := control
  have recovered : byte.toNat.toUInt8 = byte := UInt8.ofNat_toNat
  have hex := hexValue_hexText byte.toNat small
  rw [recovered] at hex
  rcases hex with ⟨high, low, encoded⟩
  have zeroDigit : hexValue 48 = some 0 := rfl
  have code_eq :
      4096 * 0 + 256 * 0 + 16 * (byte.toNat / 16) + byte.toNat % 16 =
        byte.toNat := by
    omega
  have parsed :
      parseHex4
          (48 :: 48 :: hexText (byte / 16) :: hexText (byte % 16) :: rest) =
        some (byte.toNat, rest) := by
    simp only [parseHex4, zeroDigit, high, low]
    rw [code_eq]
  have notLow : ¬ (0xDC00 ≤ byte.toNat ∧ byte.toNat ≤ 0xDFFF) := by omega
  have notHigh : ¬ (0xD800 ≤ byte.toNat ∧ byte.toNat ≤ 0xDBFF) := by omega
  simp only [parseUnicode, parsed]
  rw [if_neg notLow, if_neg notHigh, encoded]

/-- One printed character is read back as the byte it stands for. -/
theorem parseChar_escapeByte {raw : UInt8 → Bool}
    (printable : ∀ byte, 32 ≤ byte → raw byte = true)
    (byte : UInt8) (rest : Bytes) :
    parseChar raw (escapeByte byte ++ rest) = some ([byte], rest) := by
  rw [escapeByte]
  cases escaped : escapeLetter byte with
  | some letter =>
      rcases unescape_escape escaped with ⟨notUnicode, original⟩
      simp [parseChar, notUnicode, original]
  | none =>
      have notBackslash : byte ≠ backslash := by
        rintro rfl
        contradiction
      by_cases control : byte < 32
      · simp only [if_pos control, List.cons_append, List.nil_append,
          parseChar, if_true]
        exact parseUnicode_control control rest
      · have isRaw : raw byte = true :=
          printable byte (UInt8.not_lt.mp control)
        simp [control, parseChar, notBackslash, isRaw]

theorem escapeByte_head_ne (byte : UInt8) (rest : Bytes) :
    (escapeByte byte ++ rest).head? ≠ some quote := by
  have different : backslash ≠ quote := by decide
  rw [escapeByte]
  cases escaped : escapeLetter byte with
  | some letter => simpa using different
  | none =>
      have notQuote : byte ≠ quote := by
        rintro rfl
        contradiction
      by_cases control : byte < 32
      · simpa [control] using different
      · simpa [control] using notQuote

theorem parseString_escaped {raw : UInt8 → Bool}
    (printable : ∀ byte, 32 ≤ byte → raw byte = true)
    (bytes rest : Bytes) (fuel : Nat) (enough : bytes.length < fuel) :
    parseString raw fuel (bytes.flatMap escapeByte ++ quote :: rest) =
      some (bytes, rest) := by
  induction bytes generalizing fuel with
  | nil =>
      cases fuel with
      | zero => contradiction
      | succ fuel => simp [parseString]
  | cons byte tail ih =>
      cases fuel with
      | zero => contradiction
      | succ fuel =>
          have tailEnough : tail.length < fuel := by
            simpa using enough
          rw [List.flatMap_cons, List.append_assoc, parseString,
            if_neg (escapeByte_head_ne byte _),
            parseChar_escapeByte printable]
          simp only [ih fuel tailEnough, Option.map_some]
          rfl

theorem parseString_stringText {raw : UInt8 → Bool}
    (printable : ∀ byte, 32 ≤ byte → raw byte = true)
    (text : CString) (rest : Bytes) (fuel : Nat)
    (enough : text.bytes.length < fuel) :
    parseString raw fuel ((stringText text).tail ++ rest) =
      some (text.bytes, rest) := by
  rw [stringText, List.tail_cons, List.append_assoc]
  exact parseString_escaped printable text.bytes rest fuel enough

/-! ## Values -/

mutual

/-- The fuel that reading a value takes. -/
def size : Json → Nat
  | .null => 1
  | .bool _ => 1
  | .number _ => 1
  | .string text => text.bytes.length + 2
  | .array items => 1 + sizeItems items
  | .object members => 1 + sizeMembers members

def sizeItems : List Json → Nat
  | [] => 0
  | item :: rest => 1 + size item + sizeItems rest

def sizeMembers : List (CString × Json) → Nat
  | [] => 0
  | (key, value) :: rest =>
      2 + key.bytes.length + size value + sizeMembers rest

end

@[simp]
theorem skipBlanks_cons {first : UInt8} {rest : Bytes}
    (notBlank : isBlank first = false) :
    skipBlanks (first :: rest) = first :: rest := by
  simp [skipBlanks, notBlank]

/-- The first byte of a value: none that the parser would skip or stop at. -/
def StartsValue (text : Bytes) : Prop :=
  ∃ first rest, text = first :: rest ∧ isBlank first = false ∧
    first ≠ closeBracket ∧ first ≠ closeBrace

theorem startsValue_cons {first : UInt8} {rest : Bytes}
    (notBlank : isBlank first = false)
    (notBracket : first ≠ closeBracket) (notBrace : first ≠ closeBrace) :
    StartsValue (first :: rest) :=
  ⟨first, rest, rfl, notBlank, notBracket, notBrace⟩

/-- A number starts with a minus sign or a digit. -/
theorem numberText_head (value : Decimal) :
    ∃ first rest, numberText value = first :: rest ∧
      (first = 45 ∨ CString.isDigit first = true) := by
  have digits : ∀ number, ∃ first rest, natText number = first :: rest ∧
      CString.isDigit first = true := by
    intro number
    cases text : natText number with
    | nil => exact absurd text (natText_ne_nil number)
    | cons first rest =>
        refine ⟨first, rest, rfl, natText_isDigit number first ?_⟩
        rw [text]
        exact List.mem_cons_self
  rw [numberText_eq]
  by_cases negative : value.mantissa < 0
  · rw [intText_of_neg negative]
    exact ⟨45, _, rfl, Or.inl rfl⟩
  · rw [intText_of_nonneg negative]
    rcases digits value.mantissa.natAbs with ⟨first, rest, text, isDigit⟩
    rw [text]
    exact ⟨first, _, rfl, Or.inr isDigit⟩

theorem numberStart {first : UInt8}
    (starts : first = 45 ∨ CString.isDigit first = true) :
    isBlank first = false ∧ first ≠ quote ∧ first ≠ openBracket ∧
      first ≠ openBrace ∧ first ≠ 110 ∧ first ≠ 116 ∧ first ≠ 102 ∧
        first ≠ closeBracket ∧ first ≠ closeBrace := by
  rcases starts with rfl | isDigit
  · decide
  · have notBlank : isBlank first = false := by
      rw [Bool.eq_false_iff]
      intro blank
      have cases : first = 32 ∨ first = 9 ∨ first = 10 ∨ first = 13 := by
        simpa [isBlank] using blank
      rcases cases with rfl | rfl | rfl | rfl <;> contradiction
    refine ⟨notBlank, ?_, ?_, ?_, ?_, ?_, ?_, ?_, ?_⟩ <;>
      (rintro rfl; contradiction)

theorem print_startsValue (value : Json) : StartsValue (print value) := by
  cases value with
  | null => exact startsValue_cons rfl (by decide) (by decide)
  | bool value =>
      cases value <;> exact startsValue_cons rfl (by decide) (by decide)
  | number value =>
      rcases numberText_head value with ⟨first, rest, text, starts⟩
      rcases numberStart starts with
        ⟨notBlank, _, _, _, _, _, _, notBracket, notBrace⟩
      rw [print, text]
      exact startsValue_cons notBlank notBracket notBrace
  | string text => exact startsValue_cons rfl (by decide) (by decide)
  | array items =>
      cases items <;> exact startsValue_cons rfl (by decide) (by decide)
  | object members =>
      cases members <;> exact startsValue_cons rfl (by decide) (by decide)

theorem StartsValue.head?_skipBlanks_ne {text : Bytes}
    (starts : StartsValue text) (rest : Bytes) :
    (skipBlanks (text ++ rest)).head? ≠ some closeBracket := by
  rcases starts with ⟨first, tail, rfl, notBlank, notBracket, _⟩
  rw [List.cons_append, skipBlanks_cons notBlank]
  simpa using notBracket

theorem parseValue_number {raw : UInt8 → Bool} (value : Decimal)
    {rest : Bytes} (fuel : Nat) (delimited : Delimited rest) :
    parseValue raw (fuel + 1) (numberText value ++ rest) =
      some (.number value, rest) := by
  rcases numberText_head value with ⟨first, tail, text, starts⟩
  rcases numberStart starts with
    ⟨notBlank, notQuote, notBracket, notBrace, notN, notT, notF, _, _⟩
  have parsed := parseNumber_numberText value delimited
  rw [text, List.cons_append] at parsed ⊢
  rw [parseValue, skipBlanks_cons notBlank]
  simp only [notQuote, notBracket, notBrace, notN, notT, notF, if_false,
    parsed, Option.map_some]

theorem delimited_printItems (items : List Json) (rest : Bytes) :
    Delimited (printItems items ++ rest) := by
  cases items with
  | nil => exact delimited_cons (Or.inr (Or.inl rfl))
  | cons item tail => exact delimited_cons (Or.inl rfl)

theorem delimited_printMembers (members : List (CString × Json))
    (rest : Bytes) :
    Delimited (printMembers members ++ rest) := by
  cases members with
  | nil => exact delimited_cons (Or.inr (Or.inr rfl))
  | cons member tail =>
      rcases member with ⟨key, value⟩
      exact delimited_cons (Or.inl rfl)

/-- With this fuel the three parsers read back what the printers wrote. -/
structure ReadsBack (raw : UInt8 → Bool) (fuel : Nat) : Prop where
  value :
    ∀ value rest, size value ≤ fuel → Delimited rest →
      parseValue raw fuel (print value ++ rest) = some (value, rest)
  items :
    ∀ item items rest, 1 + size item + sizeItems items ≤ fuel →
      parseItems raw fuel (print item ++ (printItems items ++ rest)) =
        some (item :: items, rest)
  members :
    ∀ (key : CString) value members rest,
      2 + key.bytes.length + size value + sizeMembers members ≤ fuel →
        parseMembers raw fuel
            (stringText key ++
              colon :: (print value ++ (printMembers members ++ rest))) =
          some ((key, value) :: members, rest)

section

variable {raw : UInt8 → Bool}
  (printable : ∀ byte, 32 ≤ byte → raw byte = true)

include printable

theorem parseValue_string (text : CString) (fuel : Nat) (rest : Bytes)
    (enough : text.bytes.length < fuel) :
    parseValue raw (fuel + 1) (stringText text ++ rest) =
      some (.string text, rest) := by
  have parsed := parseString_stringText printable text rest fuel enough
  rw [stringText, List.tail_cons] at parsed
  rw [stringText, List.cons_append, parseValue, skipBlanks_cons (by decide)]
  simp only [if_true, parsed, Option.map_some, CString.ofBuffer_bytes]

omit printable in
theorem parseValue_array {fuel : Nat} (readsBack : ReadsBack raw fuel)
    (items : List Json) (rest : Bytes) (enough : sizeItems items ≤ fuel) :
    parseValue raw (fuel + 1) (print (.array items) ++ rest) =
      some (.array items, rest) := by
  cases items with
  | nil =>
      rw [print]
      rfl
  | cons item items =>
      rw [sizeItems] at enough
      have parsed := readsBack.items item items rest enough
      have nonempty := (print_startsValue item).head?_skipBlanks_ne
        (printItems items ++ rest)
      rw [print, List.cons_append, List.append_assoc, parseValue,
        skipBlanks_cons (by decide)]
      simp only [nonempty, if_true, if_false, parsed, Option.map_some]
      rfl

omit printable in
theorem parseValue_object {fuel : Nat} (readsBack : ReadsBack raw fuel)
    (members : List (CString × Json)) (rest : Bytes)
    (enough : sizeMembers members ≤ fuel) :
    parseValue raw (fuel + 1) (print (.object members) ++ rest) =
      some (.object members, rest) := by
  cases members with
  | nil =>
      rw [print]
      rfl
  | cons member members =>
      rcases member with ⟨key, value⟩
      rw [sizeMembers] at enough
      have parsed := readsBack.members key value members rest enough
      have nonempty :
          (skipBlanks
            (stringText key ++
              colon :: (print value ++ (printMembers members ++ rest)))).head? ≠
            some closeBrace := by
        have different : quote ≠ closeBrace := by decide
        rw [stringText, List.cons_append, skipBlanks_cons (by decide)]
        simpa using different
      rw [print, List.cons_append, List.append_assoc, List.cons_append,
        List.append_assoc, parseValue, skipBlanks_cons (by decide)]
      simp only [nonempty, if_true, if_false, parsed, Option.map_some]
      rfl

theorem parseValue_print {fuel : Nat} (readsBack : ReadsBack raw fuel)
    (value : Json) (rest : Bytes) (enough : size value ≤ fuel + 1)
    (delimited : Delimited rest) :
    parseValue raw (fuel + 1) (print value ++ rest) = some (value, rest) := by
  cases value with
  | null =>
      rw [print]
      rfl
  | bool value =>
      cases value with
      | false =>
          rw [print]
          rfl
      | true =>
          rw [print]
          rfl
  | number value =>
      rw [print]
      exact parseValue_number value fuel delimited
  | string text =>
      rw [size] at enough
      rw [print]
      exact parseValue_string printable text fuel rest (by omega)
  | array items =>
      rw [size] at enough
      exact parseValue_array readsBack items rest (by omega)
  | object members =>
      rw [size] at enough
      exact parseValue_object readsBack members rest (by omega)

omit printable in
theorem parseItems_print {fuel : Nat} (readsBack : ReadsBack raw fuel)
    (item : Json) (items : List Json) (rest : Bytes)
    (enough : 1 + size item + sizeItems items ≤ fuel + 1) :
    parseItems raw (fuel + 1) (print item ++ (printItems items ++ rest)) =
      some (item :: items, rest) := by
  have parsed := readsBack.value item (printItems items ++ rest) (by omega)
    (delimited_printItems items rest)
  rw [parseItems, parsed]
  cases items with
  | nil =>
      rw [printItems]
      rfl
  | cons next items =>
      rw [sizeItems] at enough
      have parsedRest := readsBack.items next items rest (by omega)
      simp only [printItems, List.cons_append, List.append_assoc]
      rw [skipBlanks_cons (by decide)]
      simp only [if_true, parsedRest, Option.map_some]

theorem parseMembers_print {fuel : Nat} (readsBack : ReadsBack raw fuel)
    (key : CString) (value : Json) (members : List (CString × Json))
    (rest : Bytes)
    (enough :
      2 + key.bytes.length + size value + sizeMembers members ≤ fuel + 1) :
    parseMembers raw (fuel + 1)
        (stringText key ++
          colon :: (print value ++ (printMembers members ++ rest))) =
      some ((key, value) :: members, rest) := by
  have parsedKey := parseString_stringText printable key
    (colon :: (print value ++ (printMembers members ++ rest))) fuel (by omega)
  have parsed := readsBack.value value (printMembers members ++ rest)
    (by omega) (delimited_printMembers members rest)
  rw [stringText, List.tail_cons] at parsedKey
  rw [stringText, List.cons_append, parseMembers,
    skipBlanks_cons (by decide), List.head?_cons, if_pos rfl,
    List.tail_cons, parsedKey]
  simp only
  rw [skipBlanks_cons (by decide), List.head?_cons, if_pos rfl,
    List.tail_cons, parsed]
  cases members with
  | nil =>
      rw [printMembers, CString.ofBuffer_bytes]
      rfl
  | cons member members =>
      rcases member with ⟨nextKey, next⟩
      rw [sizeMembers] at enough
      have parsedRest := readsBack.members nextKey next members rest (by omega)
      simp only [printMembers, List.cons_append, List.append_assoc]
      rw [skipBlanks_cons (by decide)]
      simp only [if_true, parsedRest, Option.map_some, CString.ofBuffer_bytes]

/-- The induction follows the fuel of the three parsers. -/
theorem readsBack (fuel : Nat) : ReadsBack raw fuel := by
  induction fuel with
  | zero =>
      exact
        { value := by
            intro value rest enough
            cases value <;> simp [size] at enough
          items := by
            intro item items rest enough
            omega
          members := by
            intro key value members rest enough
            omega }
  | succ fuel ih =>
      exact
        { value := parseValue_print printable ih
          items := parseItems_print ih
          members := parseMembers_print printable ih }

end

/-! ## Texts -/

theorem numberText_length_pos (value : Decimal) :
    0 < (numberText value).length := by
  rcases numberText_head value with ⟨first, rest, text, _⟩
  rw [text, List.length_cons]
  omega

theorem stringText_length (text : CString) :
    text.bytes.length + 2 ≤ (stringText text).length := by
  have escaped : ∀ bytes : Bytes,
      bytes.length ≤ (bytes.flatMap escapeByte).length := by
    intro bytes
    induction bytes with
    | nil => simp
    | cons byte tail ih =>
        have one : 0 < (escapeByte byte).length := by
          rw [escapeByte]
          cases escapeLetter byte with
          | some letter => simp
          | none => by_cases control : byte < 32 <;> simp [control]
        rw [List.flatMap_cons, List.length_append, List.length_cons]
        omega
  have bound := escaped text.bytes
  simp only [stringText, List.length_cons, List.length_append,
    List.length_nil]
  omega

mutual

/-- The text of a value is at least as long as the fuel it needs. -/
theorem size_le_length :
    ∀ value : Json, size value ≤ (print value).length
  | .null => by simp [size, print]
  | .bool true => by simp [size, print]
  | .bool false => by simp [size, print]
  | .number value => by
      have bound := numberText_length_pos value
      rw [size, print]
      omega
  | .string text => by
      rw [size, print]
      exact stringText_length text
  | .array [] => by simp [size, sizeItems, print]
  | .array (item :: items) => by
      have itemBound := size_le_length item
      have itemsBound := sizeItems_lt_length items
      simp only [size, sizeItems, print, List.length_cons,
        List.length_append]
      omega
  | .object [] => by simp [size, sizeMembers, print]
  | .object ((key, value) :: members) => by
      have keyBound := stringText_length key
      have valueBound := size_le_length value
      have membersBound := sizeMembers_lt_length members
      simp only [size, sizeMembers, print, List.length_cons,
        List.length_append]
      omega

theorem sizeItems_lt_length :
    ∀ items : List Json, sizeItems items < (printItems items).length
  | [] => by simp [sizeItems, printItems]
  | item :: items => by
      have itemBound := size_le_length item
      have itemsBound := sizeItems_lt_length items
      simp only [sizeItems, printItems, List.length_cons,
        List.length_append]
      omega

theorem sizeMembers_lt_length :
    ∀ members : List (CString × Json),
      sizeMembers members < (printMembers members).length
  | [] => by simp [sizeMembers, printMembers]
  | (key, value) :: members => by
      have keyBound := stringText_length key
      have valueBound := size_le_length value
      have membersBound := sizeMembers_lt_length members
      simp only [sizeMembers, printMembers, List.length_cons,
        List.length_append]
      omega

end

theorem digit_nonzero {byte : UInt8} (isDigit : CString.isDigit byte = true) :
    byte ≠ 0 := by
  rintro rfl
  contradiction

theorem intText_nulFree (value : Int) : 0 ∉ intText value := by
  have digits : 0 ∉ natText value.natAbs := by
    intro member
    exact digit_nonzero (natText_isDigit value.natAbs 0 member) rfl
  by_cases negative : value < 0
  · rw [intText_of_neg negative, List.mem_cons]
    exact not_or.mpr ⟨by decide, digits⟩
  · rw [intText_of_nonneg negative]
    exact digits

theorem numberText_nulFree (value : Decimal) : 0 ∉ numberText value := by
  rw [numberText]
  split_ifs
  · exact intText_nulFree value.mantissa
  · rw [List.mem_append, List.mem_cons]
    exact not_or.mpr
      ⟨intText_nulFree value.mantissa,
        not_or.mpr ⟨by decide, intText_nulFree value.exponent⟩⟩

theorem hexText_nonzero : ∀ code, code < 32 →
    hexText (code.toUInt8 / 16) ≠ 0 ∧ hexText (code.toUInt8 % 16) ≠ 0 := by
  decide

theorem escapeByte_nulFree {byte : UInt8} (nonzero : byte ≠ 0) :
    0 ∉ escapeByte byte := by
  rw [escapeByte]
  cases escaped : escapeLetter byte with
  | some letter =>
      have letterNonzero : letter ≠ 0 := by
        rintro rfl
        unfold escapeLetter at escaped
        split_ifs at escaped <;> cases escaped
      simp [letterNonzero.symm]
      decide
  | none =>
      by_cases control : byte < 32
      · have small : byte.toNat < 32 := control
        have hex := hexText_nonzero byte.toNat small
        have recovered : byte.toNat.toUInt8 = byte := UInt8.ofNat_toNat
        rw [recovered] at hex
        simp [control, hex.1.symm, hex.2.symm]
        decide
      · simpa [control] using nonzero.symm

theorem stringText_nulFree (text : CString) : 0 ∉ stringText text := by
  have escaped : 0 ∉ text.bytes.flatMap escapeByte := by
    rw [List.mem_flatMap]
    rintro ⟨byte, member, zero⟩
    have nonzero : byte ≠ 0 := by
      rintro rfl
      exact text.nulFree member
    exact escapeByte_nulFree nonzero zero
  simp only [stringText, List.mem_cons, List.mem_append, List.not_mem_nil,
    or_false]
  exact not_or.mpr ⟨by decide, not_or.mpr ⟨escaped, by decide⟩⟩

mutual

/-- No printed value contains a zero byte. -/
theorem print_nulFree : ∀ value : Json, 0 ∉ print value
  | .null => by
      rw [print]
      decide
  | .bool true => by
      rw [print]
      decide
  | .bool false => by
      rw [print]
      decide
  | .number value => by
      rw [print]
      exact numberText_nulFree value
  | .string text => by
      rw [print]
      exact stringText_nulFree text
  | .array [] => by
      rw [print]
      decide
  | .array (item :: items) => by
      have parts := And.intro (print_nulFree item) (printItems_nulFree items)
      simp only [print, List.mem_cons, List.mem_append]
      exact not_or.mpr ⟨by decide, not_or.mpr parts⟩
  | .object [] => by
      rw [print]
      decide
  | .object ((key, value) :: members) => by
      have parts :=
        And.intro (print_nulFree value) (printMembers_nulFree members)
      simp only [print, List.mem_cons, List.mem_append]
      exact not_or.mpr
        ⟨by decide, not_or.mpr
          ⟨stringText_nulFree key,
            not_or.mpr ⟨by decide, not_or.mpr parts⟩⟩⟩

theorem printItems_nulFree : ∀ items : List Json, 0 ∉ printItems items
  | [] => by
      rw [printItems]
      decide
  | item :: items => by
      have parts := And.intro (print_nulFree item) (printItems_nulFree items)
      simp only [printItems, List.mem_cons, List.mem_append]
      exact not_or.mpr ⟨by decide, not_or.mpr parts⟩

theorem printMembers_nulFree :
    ∀ members : List (CString × Json), 0 ∉ printMembers members
  | [] => by
      rw [printMembers]
      decide
  | (key, value) :: members => by
      have parts :=
        And.intro (print_nulFree value) (printMembers_nulFree members)
      simp only [printMembers, List.mem_cons, List.mem_append]
      exact not_or.mpr
        ⟨by decide, not_or.mpr
          ⟨stringText_nulFree key,
            not_or.mpr ⟨by decide, not_or.mpr parts⟩⟩⟩

end

/-- Parsing a printed value gives the value back. -/
theorem parse_printUnformatted {raw : UInt8 → Bool}
    (printable : ∀ byte, 32 ≤ byte → raw byte = true) (value : Json) :
    parse raw (printUnformatted value) = some value := by
  have bytes_eq : (printUnformatted value).bytes = print value :=
    CString.ofBuffer_of_nulFree (print_nulFree value)
  have enough : size value ≤ (print value).length + 1 := by
    have bound := size_le_length value
    omega
  have parsed :=
    (readsBack printable ((print value).length + 1)).value value [] enough
      delimited_nil
  rw [List.append_nil] at parsed
  rw [parse, bytes_eq, parsed]
  rfl

theorem standardRaw_printable (byte : UInt8) (above : 32 ≤ byte) :
    standardRaw byte = true := by
  simpa [standardRaw] using above

end SmartFridge.Library.Json
