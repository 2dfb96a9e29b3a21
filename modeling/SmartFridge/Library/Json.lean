import SmartFridge.Library.CString
import Mathlib.Data.Nat.Digits.Defs

/-!
# JSON values and their text

Values, a printer and a recursive descent parser over bytes.  A number is kept
as the exact decimal that its text denotes.  The parser is JSON's grammar, and
it leaves what follows the value unread.  Which bytes may stand unescaped in a
string is a parameter `raw`: the standard excludes the control characters,
while lenient parsers take them.
-/

namespace SmartFridge.Library

/-- The decimal number `mantissa * 10 ^ exponent`. -/
structure Decimal where
  mantissa : Int
  exponent : Int
deriving DecidableEq

/-- A JSON value; the members of an object keep their order and repetitions. -/
inductive Json where
  | null
  | bool (value : Bool)
  | number (value : Decimal)
  | string (value : CString)
  | array (items : List Json)
  | object (members : List (CString × Json))

namespace Json

abbrev Bytes := List UInt8

/-- The double quote. -/
abbrev quote : UInt8 := 34

/-- The backslash. -/
abbrev backslash : UInt8 := 92

/-- The comma. -/
abbrev comma : UInt8 := 44

/-- The colon. -/
abbrev colon : UInt8 := 58

abbrev openBracket : UInt8 := 91
abbrev closeBracket : UInt8 := 93
abbrev openBrace : UInt8 := 123
abbrev closeBrace : UInt8 := 125

/-! ## Printing -/

/-- The decimal digits of a natural number, most significant first. -/
def natText (value : Nat) : Bytes :=
  if value = 0 then [48]
  else ((Nat.digits 10 value).map fun digit => (48 + digit).toUInt8).reverse

/-- A decimal integer with its sign. -/
def intText (value : Int) : Bytes :=
  if value < 0 then 45 :: natText value.natAbs else natText value.natAbs

/-- A number; an exponent of zero is left out. -/
def numberText (value : Decimal) : Bytes :=
  if value.exponent = 0 then
    intText value.mantissa
  else
    intText value.mantissa ++ 101 :: intText value.exponent

/-- The letter behind the backslash in a two-byte escape sequence. -/
def escapeLetter (byte : UInt8) : Option UInt8 :=
  if byte = quote then some quote
  else if byte = backslash then some backslash
  else if byte = 8 then some 98
  else if byte = 12 then some 102
  else if byte = 10 then some 110
  else if byte = 13 then some 114
  else if byte = 9 then some 116
  else none

/-- A hexadecimal digit. -/
def hexText (digit : UInt8) : UInt8 :=
  if digit < 10 then 48 + digit else 87 + digit

/-- One byte of a string, escaped where JSON asks for it. -/
def escapeByte (byte : UInt8) : Bytes :=
  match escapeLetter byte with
  | some letter => [backslash, letter]
  | none =>
      if byte < 32 then
        [backslash, 117, 48, 48, hexText (byte / 16), hexText (byte % 16)]
      else
        [byte]

/-- A string between its quotes. -/
def stringText (text : CString) : Bytes :=
  quote :: (text.bytes.flatMap escapeByte ++ [quote])

mutual

/-- The text of a value, without any space. -/
def print : Json → Bytes
  | .null => [110, 117, 108, 108]
  | .bool true => [116, 114, 117, 101]
  | .bool false => [102, 97, 108, 115, 101]
  | .number value => numberText value
  | .string value => stringText value
  | .array [] => [openBracket, closeBracket]
  | .array (item :: rest) => openBracket :: (print item ++ printItems rest)
  | .object [] => [openBrace, closeBrace]
  | .object ((key, value) :: rest) =>
      openBrace ::
        (stringText key ++ colon :: (print value ++ printMembers rest))

/-- The rest of an array behind one of its items. -/
def printItems : List Json → Bytes
  | [] => [closeBracket]
  | item :: rest => comma :: (print item ++ printItems rest)

/-- The rest of an object behind one of its members. -/
def printMembers : List (CString × Json) → Bytes
  | [] => [closeBrace]
  | (key, value) :: rest =>
      comma :: (stringText key ++ colon :: (print value ++ printMembers rest))

end

/-! ## Parsing -/

/-- The blanks of JSON. -/
def isBlank (byte : UInt8) : Bool :=
  byte = 32 ∨ byte = 9 ∨ byte = 10 ∨ byte = 13

/-- The input behind its leading blanks. -/
def skipBlanks (input : Bytes) : Bytes :=
  input.dropWhile isBlank

/-- The value of a hexadecimal digit. -/
def hexValue (byte : UInt8) : Option Nat :=
  if 48 ≤ byte ∧ byte ≤ 57 then some (byte.toNat - 48)
  else if 97 ≤ byte ∧ byte ≤ 102 then some (byte.toNat - 87)
  else if 65 ≤ byte ∧ byte ≤ 70 then some (byte.toNat - 55)
  else none

/-- Four hexadecimal digits and what follows them. -/
def parseHex4 : Bytes → Option (Nat × Bytes)
  | first :: second :: third :: fourth :: rest =>
      match hexValue first, hexValue second, hexValue third,
        hexValue fourth with
      | some a, some b, some c, some d =>
          some (4096 * a + 256 * b + 16 * c + d, rest)
      | _, _, _, _ => none
  | _ => none

/-- The UTF-8 encoding of a code point. -/
def utf8 (code : Nat) : Bytes :=
  if code < 0x80 then
    [code.toUInt8]
  else if code < 0x800 then
    [(0xC0 + code / 64).toUInt8, (0x80 + code % 64).toUInt8]
  else if code < 0x10000 then
    [(0xE0 + code / 4096).toUInt8, (0x80 + code / 64 % 64).toUInt8,
      (0x80 + code % 64).toUInt8]
  else
    [(0xF0 + code / 262144).toUInt8, (0x80 + code / 4096 % 64).toUInt8,
      (0x80 + code / 64 % 64).toUInt8, (0x80 + code % 64).toUInt8]

/-- What a two-byte escape sequence with this letter stands for. -/
def unescapeLetter (letter : UInt8) : Option UInt8 :=
  if letter = quote then some quote
  else if letter = backslash then some backslash
  else if letter = 47 then some 47
  else if letter = 98 then some 8
  else if letter = 102 then some 12
  else if letter = 110 then some 10
  else if letter = 114 then some 13
  else if letter = 116 then some 9
  else none

/-- The rest of an escape sequence behind the letter `u`. -/
def parseUnicode (input : Bytes) : Option (Bytes × Bytes) :=
  match parseHex4 input with
  | none => none
  | some (high, rest) =>
      if 0xDC00 ≤ high ∧ high ≤ 0xDFFF then
        none
      else if 0xD800 ≤ high ∧ high ≤ 0xDBFF then
        -- The second half of a surrogate pair has to follow.
        match rest with
        | first :: second :: rest =>
            if first = backslash ∧ second = 117 then
              match parseHex4 rest with
              | none => none
              | some (low, rest) =>
                  if 0xDC00 ≤ low ∧ low ≤ 0xDFFF then
                    some (utf8 (0x10000 + 1024 * (high - 0xD800) +
                      (low - 0xDC00)), rest)
                  else
                    none
            else
              none
        | _ => none
      else
        some (utf8 high, rest)

/-- The bytes that the next character of a string stands for. -/
def parseChar (raw : UInt8 → Bool) : Bytes → Option (Bytes × Bytes)
  | [] => none
  | first :: rest =>
      if first = backslash then
        match rest with
        | [] => none
        | letter :: rest =>
            if letter = 117 then parseUnicode rest
            else (unescapeLetter letter).map fun byte => ([byte], rest)
      else if raw first then
        some ([first], rest)
      else
        none

/-- The rest of a string behind its opening quote. -/
def parseString (raw : UInt8 → Bool) : Nat → Bytes → Option (Bytes × Bytes)
  | 0, _ => none
  | fuel + 1, input =>
      if input.head? = some quote then
        some ([], input.tail)
      else
        match parseChar raw input with
        | none => none
        | some (decoded, rest) =>
            (parseString raw fuel rest).map fun result =>
              (decoded ++ result.1, result.2)

/-- A nonempty run of digits and what follows it. -/
def parseDigits (input : Bytes) : Option (Bytes × Bytes) :=
  let digits := input.takeWhile CString.isDigit
  if digits = [] then none
  else some (digits, input.dropWhile CString.isDigit)

/-- The digits behind a decimal point, if there is one. -/
def parseFraction (input : Bytes) : Option (Bytes × Bytes) :=
  if input.head? = some 46 then parseDigits input.tail
  else some ([], input)

/-- Digits behind an optional sign. -/
def parseSigned (input : Bytes) : Option (Int × Bytes) :=
  if input.head? = some 45 then
    (parseDigits input.tail).map fun result =>
      (-(CString.digitsValue result.1 : Int), result.2)
  else
    (parseDigits
      (if input.head? = some 43 then input.tail else input)).map fun result =>
        ((CString.digitsValue result.1 : Int), result.2)

/-- The exponent of a number, zero if there is none. -/
def parseExponent (input : Bytes) : Option (Int × Bytes) :=
  if input.head? = some 101 ∨ input.head? = some 69 then
    parseSigned input.tail
  else
    some (0, input)

/-- The whole part of a number: a single zero, or digits without one first. -/
def parseWhole (input : Bytes) : Option (Bytes × Bytes) :=
  if input.head? = some 48 then some ([48], input.tail)
  else parseDigits input

/-- An unsigned number. -/
def parseUnsigned (input : Bytes) : Option (Decimal × Bytes) :=
  (parseWhole input).bind fun whole =>
    (parseFraction whole.2).bind fun fraction =>
      (parseExponent fraction.2).map fun exponent =>
        ({ mantissa := CString.digitsValue (whole.1 ++ fraction.1)
           exponent := exponent.1 - fraction.1.length }, exponent.2)

/-- A number. -/
def parseNumber (input : Bytes) : Option (Decimal × Bytes) :=
  if input.head? = some 45 then
    (parseUnsigned input.tail).map fun result =>
      ({ result.1 with mantissa := -result.1.mantissa }, result.2)
  else
    parseUnsigned input

/-- The input behind an expected word. -/
def parseWord (word : Bytes) (value : Json) (input : Bytes) :
    Option (Json × Bytes) :=
  if word <+: input then some (value, input.drop word.length) else none

mutual

/-- The value at the start of the input and what follows it. -/
def parseValue (raw : UInt8 → Bool) : Nat → Bytes → Option (Json × Bytes)
  | 0, _ => none
  | fuel + 1, input =>
      match skipBlanks input with
      | [] => none
      | first :: rest =>
          if first = quote then
            (parseString raw fuel rest).map fun result =>
              (.string (CString.ofBuffer result.1), result.2)
          else if first = openBracket then
            if (skipBlanks rest).head? = some closeBracket then
              some (.array [], (skipBlanks rest).tail)
            else
              (parseItems raw fuel rest).map fun result =>
                (.array result.1, result.2)
          else if first = openBrace then
            if (skipBlanks rest).head? = some closeBrace then
              some (.object [], (skipBlanks rest).tail)
            else
              (parseMembers raw fuel rest).map fun result =>
                (.object result.1, result.2)
          else if first = 110 then
            parseWord [117, 108, 108] .null rest
          else if first = 116 then
            parseWord [114, 117, 101] (.bool true) rest
          else if first = 102 then
            parseWord [97, 108, 115, 101] (.bool false) rest
          else
            (parseNumber (first :: rest)).map fun result =>
              (.number result.1, result.2)

/-- The items of an array up to its closing bracket. -/
def parseItems (raw : UInt8 → Bool) :
    Nat → Bytes → Option (List Json × Bytes)
  | 0, _ => none
  | fuel + 1, input =>
      match parseValue raw fuel input with
      | none => none
      | some (item, rest) =>
          match skipBlanks rest with
          | [] => none
          | first :: rest =>
              if first = comma then
                (parseItems raw fuel rest).map fun result =>
                  (item :: result.1, result.2)
              else if first = closeBracket then
                some ([item], rest)
              else
                none

/-- The members of an object up to its closing brace. -/
def parseMembers (raw : UInt8 → Bool) :
    Nat → Bytes → Option (List (CString × Json) × Bytes)
  | 0, _ => none
  | fuel + 1, input =>
      if (skipBlanks input).head? = some quote then
        match parseString raw fuel (skipBlanks input).tail with
        | none => none
        | some (key, rest) =>
            if (skipBlanks rest).head? = some colon then
              match parseValue raw fuel (skipBlanks rest).tail with
              | none => none
              | some (value, rest) =>
                  match skipBlanks rest with
                  | [] => none
                  | first :: rest =>
                      if first = comma then
                        (parseMembers raw fuel rest).map fun result =>
                          ((CString.ofBuffer key, value) :: result.1,
                            result.2)
                      else if first = closeBrace then
                        some ([(CString.ofBuffer key, value)], rest)
                      else
                        none
            else
              none
      else
        none

end

/-- The bytes that JSON allows unescaped in a string. -/
def standardRaw (byte : UInt8) : Bool :=
  32 ≤ byte

/-- The value that a text starts with; what follows it is ignored. -/
def parse (raw : UInt8 → Bool) (text : CString) : Option Json :=
  (parseValue raw (text.bytes.length + 1) text.bytes).map Prod.fst

/-- The printed value as a C string. -/
def printUnformatted (value : Json) : CString :=
  CString.ofBuffer (print value)

end Json

end SmartFridge.Library
