import SmartFridge.Library.JsonRoundTrip

/-!
# What the parser of JSON consumes

Each part of the parser leaves a suffix of its input, an object is not finished
before its closing brace, and a byte of a string that is written out as itself
is told apart from the bytes of an escape sequence by the room that it takes.
-/

namespace SmartFridge.Library.Json

/-! ## Suffixes -/

theorem skipBlanks_suffix (input : Bytes) : skipBlanks input <:+ input :=
  List.dropWhile_suffix _

theorem suffix_of_skipBlanks_cons {first : UInt8} {rest input : Bytes}
    (skipped : skipBlanks input = first :: rest) :
    first :: rest <:+ input :=
  skipped ▸ skipBlanks_suffix input

theorem parseDigits_suffix {input digits rest : Bytes}
    (parsed : parseDigits input = some (digits, rest)) : rest <:+ input := by
  simp only [parseDigits] at parsed
  split at parsed
  · cases parsed
  · cases parsed
    exact List.dropWhile_suffix _

theorem parseWhole_suffix {input digits rest : Bytes}
    (parsed : parseWhole input = some (digits, rest)) : rest <:+ input := by
  unfold parseWhole at parsed
  split at parsed
  · cases parsed
    exact List.tail_suffix _
  · exact parseDigits_suffix parsed

theorem parseFraction_suffix {input digits rest : Bytes}
    (parsed : parseFraction input = some (digits, rest)) : rest <:+ input := by
  unfold parseFraction at parsed
  split at parsed
  · exact (parseDigits_suffix parsed).trans (List.tail_suffix _)
  · cases parsed
    exact List.suffix_rfl

theorem parseSigned_suffix {input rest : Bytes} {value : Int}
    (parsed : parseSigned input = some (value, rest)) : rest <:+ input := by
  unfold parseSigned at parsed
  split at parsed
  · rcases Option.map_eq_some_iff.mp parsed with ⟨⟨digits, left⟩, read, equal⟩
    cases equal
    exact (parseDigits_suffix read).trans (List.tail_suffix _)
  · rcases Option.map_eq_some_iff.mp parsed with ⟨⟨digits, left⟩, read, equal⟩
    cases equal
    have within := parseDigits_suffix read
    split at within
    · exact within.trans (List.tail_suffix _)
    · exact within

theorem parseExponent_suffix {input rest : Bytes} {value : Int}
    (parsed : parseExponent input = some (value, rest)) : rest <:+ input := by
  unfold parseExponent at parsed
  split at parsed
  · exact (parseSigned_suffix parsed).trans (List.tail_suffix _)
  · cases parsed
    exact List.suffix_rfl

theorem parseUnsigned_suffix {input rest : Bytes} {value : Decimal}
    (parsed : parseUnsigned input = some (value, rest)) : rest <:+ input := by
  simp only [parseUnsigned, Option.bind_eq_some_iff, Option.map_eq_some_iff]
    at parsed
  rcases parsed with ⟨⟨whole, afterWhole⟩, wholeRead, ⟨fraction, afterFraction⟩,
    fractionRead, ⟨exponent, left⟩, exponentRead, equal⟩
  cases equal
  exact (parseExponent_suffix exponentRead).trans
    ((parseFraction_suffix fractionRead).trans (parseWhole_suffix wholeRead))

theorem parseNumber_suffix {input rest : Bytes} {value : Decimal}
    (parsed : parseNumber input = some (value, rest)) : rest <:+ input := by
  unfold parseNumber at parsed
  split at parsed
  · rcases Option.map_eq_some_iff.mp parsed with ⟨⟨number, left⟩, read, equal⟩
    cases equal
    exact (parseUnsigned_suffix read).trans (List.tail_suffix _)
  · exact parseUnsigned_suffix parsed

theorem parseWord_suffix {word input rest : Bytes} {value read : Json}
    (parsed : parseWord word value input = some (read, rest)) :
    rest <:+ input := by
  unfold parseWord at parsed
  split at parsed
  · cases parsed
    exact List.drop_suffix _ _
  · cases parsed

/-! ## The characters of a string -/

/-- The code point of an escape sequence takes more room than its bytes. -/
theorem utf8_length_le (code : Nat) : (utf8 code).length ≤ 4 := by
  unfold utf8
  split_ifs <;> simp

theorem hexValue_quote : hexValue quote = none := by
  decide

theorem parseHex4_consumes {input rest : Bytes} {value : Nat}
    (parsed : parseHex4 input = some (value, rest)) :
    ∃ digits : Bytes, input = digits ++ rest ∧ digits.length = 4 ∧
      quote ∉ digits := by
  unfold parseHex4 at parsed
  split at parsed
  next first second third fourth tail =>
    split at parsed
    next a b c d firstHex secondHex thirdHex fourthHex =>
      cases parsed
      have notQuote : ∀ byte value, hexValue byte = some value →
          quote ≠ byte := by
        rintro byte value isHex rfl
        rw [hexValue_quote] at isHex
        cases isHex
      exact
        ⟨[first, second, third, fourth], rfl, rfl, by
          simp only [List.mem_cons, List.not_mem_nil, or_false, not_or]
          exact
            ⟨notQuote _ _ firstHex, notQuote _ _ secondHex,
              notQuote _ _ thirdHex, notQuote _ _ fourthHex⟩⟩
    next => cases parsed
  next => cases parsed

theorem parseUnicode_consumes {input decoded rest : Bytes}
    (parsed : parseUnicode input = some (decoded, rest)) :
    ∃ escape : Bytes, input = escape ++ rest ∧
      decoded.length ≤ escape.length ∧ quote ∉ escape := by
  unfold parseUnicode at parsed
  cases high : parseHex4 input with
  | none =>
      rw [high] at parsed
      cases parsed
  | some result =>
      rcases result with ⟨code, afterHigh⟩
      rcases parseHex4_consumes high with
        ⟨digits, rfl, fourDigits, noQuote⟩
      simp only [high] at parsed
      split_ifs at parsed with low surrogate
      · split at parsed
        next first second tail =>
          split_ifs at parsed with marked
          rcases marked with ⟨rfl, rfl⟩
          split at parsed
          · cases parsed
          next lowCode left lowRead =>
            split_ifs at parsed with inRange
            rw [Option.some.injEq, Prod.mk.injEq] at parsed
            rcases parsed with ⟨rfl, rfl⟩
            rcases parseHex4_consumes lowRead with
              ⟨lowDigits, rfl, fourLow, noQuoteLow⟩
            have long :
                4 ≤ (digits ++ backslash :: 117 :: lowDigits).length := by
              rw [List.length_append, fourDigits]
              exact Nat.le_add_right 4 _
            refine
              ⟨digits ++ backslash :: 117 :: lowDigits, by simp,
                (utf8_length_le _).trans long, ?_⟩
            · have notBackslash : quote ≠ backslash := by decide
              have notLetter : quote ≠ 117 := by decide
              simp [noQuote, noQuoteLow, notBackslash, notLetter]
        next => cases parsed
      · cases parsed
        exact
          ⟨digits, rfl, fourDigits ▸ utf8_length_le code, noQuote⟩

/-- A byte that stands for itself in a string. -/
def Plain (raw : UInt8 → Bool) (byte : UInt8) : Prop :=
  raw byte = true ∧ byte ≠ quote ∧ byte ≠ backslash

/--
A character is a plain byte, or an escape sequence longer than what it stands
for; only the escaped quote has a quote in it.
-/
inductive Token (raw : UInt8 → Bool) : Bytes → Bytes → Prop
  | plain {byte : UInt8} (isPlain : Plain raw byte) : Token raw [byte] [byte]
  | escape {text decoded : Bytes} (shorter : decoded.length < text.length)
      (noQuote : quote ∉ text) : Token raw text decoded
  | escapedQuote : Token raw [backslash, quote] [quote]

theorem Token.length_le {raw : UInt8 → Bool} {text decoded : Bytes}
    (token : Token raw text decoded) : decoded.length ≤ text.length := by
  cases token with
  | plain _ => exact le_rfl
  | escape shorter _ => exact shorter.le
  | escapedQuote => simp

theorem Token.plain_of_length {raw : UInt8 → Bool} {text decoded : Bytes}
    (token : Token raw text decoded)
    (same : decoded.length = text.length) :
    decoded = text ∧ ∀ byte ∈ text, Plain raw byte := by
  cases token with
  | plain isPlain => simpa using isPlain
  | escape shorter _ => exact absurd same shorter.ne
  | escapedQuote => simp at same

theorem parseChar_token {raw : UInt8 → Bool} {input decoded rest : Bytes}
    (notQuote : input.head? ≠ some quote)
    (parsed : parseChar raw input = some (decoded, rest)) :
    ∃ text, input = text ++ rest ∧ Token raw text decoded := by
  unfold parseChar at parsed
  split at parsed
  · cases parsed
  next first tail =>
    split_ifs at parsed with isBackslash isRaw
    · subst isBackslash
      split at parsed
      · cases parsed
      next letter left =>
        split_ifs at parsed with isUnicode
        · subst isUnicode
          rcases parseUnicode_consumes parsed with
            ⟨escape, rfl, within, noQuote⟩
          refine ⟨backslash :: 117 :: escape, rfl, .escape ?_ ?_⟩
          · simp only [List.length_cons]
            omega
          · have notBackslash : quote ≠ backslash := by decide
            have notLetter : quote ≠ 117 := by decide
            simp [noQuote, notBackslash, notLetter]
        · rcases Option.map_eq_some_iff.mp parsed with
            ⟨byte, unescaped, equal⟩
          cases equal
          by_cases isQuote : letter = quote
          · subst isQuote
            have same : quote = byte := Option.some.inj unescaped
            exact ⟨[backslash, quote], rfl, same ▸ .escapedQuote⟩
          · refine ⟨[backslash, letter], rfl, .escape (by simp) ?_⟩
            have notBackslash : quote ≠ backslash := by decide
            simp [notBackslash, Ne.symm isQuote]
    · cases parsed
      have different : first ≠ quote := by simpa using notQuote
      exact ⟨[first], rfl, .plain ⟨isRaw, different, isBackslash⟩⟩

/-! ## Strings -/

theorem parseString_quote (raw : UInt8 → Bool) (fuel : Nat) (rest : Bytes) :
    parseString raw (fuel + 1) (quote :: rest) = some ([], rest) := by
  simp [parseString]

theorem parseString_step
    {raw : UInt8 → Bool} {fuel : Nat} {input decoded rest : Bytes}
    (notQuote : input.head? ≠ some quote)
    (parsed : parseString raw (fuel + 1) input = some (decoded, rest)) :
    ∃ text first left later, input = text ++ left ∧ Token raw text first ∧
      parseString raw fuel left = some (later, rest) ∧
      decoded = first ++ later := by
  rw [parseString, if_neg notQuote] at parsed
  cases character : parseChar raw input with
  | none =>
      rw [character] at parsed
      cases parsed
  | some result =>
      rcases result with ⟨first, left⟩
      simp only [character, Option.map_eq_some_iff] at parsed
      rcases parsed with ⟨⟨later, left'⟩, continued, equal⟩
      cases equal
      rcases parseChar_token notQuote character with ⟨text, rfl, token⟩
      exact ⟨text, first, left, later, rfl, token, continued, rfl⟩

/-- A string takes at least the room of its bytes and its closing quote. -/
theorem parseString_consumes
    {raw : UInt8 → Bool} {fuel : Nat} {input decoded rest : Bytes}
    (parsed : parseString raw fuel input = some (decoded, rest)) :
    rest <:+ input ∧ decoded.length < input.length := by
  induction fuel generalizing input decoded with
  | zero =>
      cases parsed
  | succ fuel ih =>
      by_cases atQuote : input.head? = some quote
      · cases input with
        | nil => cases atQuote
        | cons first tail =>
            have same : first = quote := by simpa using atQuote
            subst same
            rw [parseString_quote] at parsed
            cases parsed
            exact ⟨List.suffix_cons _ _, by simp⟩
      · rcases parseString_step atQuote parsed with
          ⟨text, first, left, later, rfl, token, continued, rfl⟩
        rcases ih continued with ⟨suffix, shorter⟩
        have within := token.length_le
        refine ⟨suffix.trans (List.suffix_append _ _), ?_⟩
        rw [List.length_append, List.length_append]
        omega

theorem parseString_plain_cons
    {raw : UInt8 → Bool} {byte : UInt8} (plain : Plain raw byte)
    (fuel : Nat) (rest : Bytes) :
    parseString raw (fuel + 1) (byte :: rest) =
      (parseString raw fuel rest).map fun result =>
        (byte :: result.1, result.2) := by
  rcases plain with ⟨accepted, notQuote, notBackslash⟩
  simp [parseString, parseChar, accepted, notQuote, notBackslash]

/-- Plain bytes are read as themselves. -/
theorem parseString_plain
    {raw : UInt8 → Bool} {text : Bytes}
    (plain : ∀ byte ∈ text, Plain raw byte) (rest : Bytes)
    {fuel : Nat} (enough : text.length < fuel) :
    parseString raw fuel (text ++ quote :: rest) = some (text, rest) := by
  induction text generalizing fuel with
  | nil =>
      cases fuel with
      | zero => cases enough
      | succ fuel => exact parseString_quote raw fuel rest
  | cons byte later ih =>
      cases fuel with
      | zero => cases enough
      | succ fuel =>
          have continued :=
            ih (fun other member => plain other (List.mem_cons_of_mem _ member))
              (Nat.lt_of_succ_lt_succ enough)
          rw [List.cons_append,
            parseString_plain_cons (plain byte List.mem_cons_self), continued,
            Option.map_some]

/-- A character that ends behind a quote is the escape sequence of that quote. -/
theorem Token.before_quote
    {raw : UInt8 → Bool} {consumed first text tail left : Bytes}
    (token : Token raw consumed first)
    (split : text ++ quote :: tail = consumed ++ left) :
    (∃ others, text = consumed ++ others ∧ left = others ++ quote :: tail) ∨
      left = tail := by
  rcases List.append_eq_append_iff.mp split with
    ⟨beyond, reaches, equal⟩ | ⟨others, within, equal⟩
  · cases beyond with
    | nil =>
        exact .inl ⟨[], by simpa using reaches.symm, by simpa using equal.symm⟩
    | cons byte more =>
        rcases List.cons_eq_cons.mp equal with ⟨rfl, rfl⟩
        have member : quote ∈ consumed := by simp [reaches]
        cases token with
        | plain isPlain =>
            exact absurd (List.mem_singleton.mp member).symm isPlain.2.1
        | escape _ noQuote => exact absurd member noQuote
        | escapedQuote =>
            have short := congrArg List.length reaches
            cases text with
            | nil =>
                have impossible : backslash = quote := by
                  simpa using (List.cons_eq_cons.mp reaches).1
                exact absurd impossible (by decide)
            | cons _ others =>
                simp only [List.length_append, List.length_cons,
                  List.length_nil] at short
                have empty : more = [] :=
                  List.eq_nil_of_length_eq_zero (by omega)
                exact .inr (by simp [empty])
  · exact .inl ⟨others, within, equal⟩

/--
A string that is read over some text with a quote behind it ends inside of the
text, or at the quote, or it swallows the quote.  If it ends at the quote and
has the length of the text, it is the text.
-/
theorem parseString_past_quote
    {raw : UInt8 → Bool} {fuel : Nat} {text tail decoded rest : Bytes}
    (parsed :
      parseString raw fuel (text ++ quote :: tail) = some (decoded, rest)) :
    decoded.length < text.length ∨
      (rest = tail ∧ decoded.length ≤ text.length ∧
        (decoded.length = text.length →
          decoded = text ∧ ∀ byte ∈ text, Plain raw byte)) ∨
      ∃ left later, parseString raw left tail = some (later, rest) := by
  induction fuel generalizing text decoded with
  | zero =>
      cases parsed
  | succ fuel ih =>
      by_cases atQuote : (text ++ quote :: tail).head? = some quote
      · cases text with
        | nil =>
            rw [List.nil_append, parseString_quote] at parsed
            cases parsed
            exact .inr (.inl ⟨rfl, le_rfl, by simp⟩)
        | cons first others =>
            have same : first = quote := by simpa using atQuote
            subst same
            rw [List.cons_append, parseString_quote] at parsed
            cases parsed
            exact .inl (by simp)
      · rcases parseString_step atQuote parsed with
          ⟨consumed, first, left, later, split, token, continued, rfl⟩
        rcases token.before_quote split with ⟨others, rfl, rfl⟩ | rfl
        · have within := token.length_le
          rcases ih continued with inside | ⟨rfl, bounded, exact⟩ | beyond
          · left
            rw [List.length_append, List.length_append]
            omega
          · right
            left
            refine ⟨rfl, ?_, ?_⟩
            · rw [List.length_append, List.length_append]
              omega
            · intro same
              rw [List.length_append, List.length_append] at same
              rcases token.plain_of_length (by omega) with ⟨rfl, plain⟩
              rcases exact (by omega) with ⟨rfl, plainLater⟩
              refine ⟨rfl, ?_⟩
              intro byte member
              rcases List.mem_append.mp member with early | late
              · exact plain byte early
              · exact plainLater byte late
          · exact .inr (.inr beyond)
        · exact .inr (.inr ⟨fuel, later, continued⟩)

/-! ## Values -/

/-- What the three parts of the parser leave, up to some fuel. -/
structure LeavesSuffix (raw : UInt8 → Bool) (fuel : Nat) : Prop where
  value : ∀ input value rest,
    parseValue raw fuel input = some (value, rest) → rest <:+ input
  items : ∀ input items rest,
    parseItems raw fuel input = some (items, rest) → rest <:+ input
  members : ∀ input members rest,
    parseMembers raw fuel input = some (members, rest) →
      rest <:+ input ∧ closeBrace ∈ input

theorem parseMembers_succ
    {raw : UInt8 → Bool} {fuel : Nat} {input rest : Bytes}
    {members : List (CString × Json)}
    (parsed : parseMembers raw (fuel + 1) input = some (members, rest)) :
    ∃ afterQuote key afterKey beforeValue value afterValue next following,
      skipBlanks input = quote :: afterQuote ∧
        parseString raw fuel afterQuote = some (key, afterKey) ∧
        skipBlanks afterKey = colon :: beforeValue ∧
        parseValue raw fuel beforeValue = some (value, afterValue) ∧
        skipBlanks afterValue = next :: following ∧
        ((next = comma ∧
            ∃ later, parseMembers raw fuel following = some (later, rest) ∧
              members = (CString.ofBuffer key, value) :: later) ∨
          (next = closeBrace ∧ rest = following ∧
            members = [(CString.ofBuffer key, value)])) := by
  rw [parseMembers] at parsed
  split_ifs at parsed with atQuote
  cases blanks : skipBlanks input with
  | nil =>
      rw [blanks] at atQuote
      cases atQuote
  | cons first afterQuote =>
      have isQuote : first = quote := by simpa [blanks] using atQuote
      subst isQuote
      simp only [blanks, List.tail_cons] at parsed
      cases keyRead : parseString raw fuel afterQuote with
      | none =>
          rw [keyRead] at parsed
          cases parsed
      | some result =>
          rcases result with ⟨key, afterKey⟩
          simp only [keyRead] at parsed
          split_ifs at parsed with atColon
          cases colons : skipBlanks afterKey with
          | nil =>
              rw [colons] at atColon
              cases atColon
          | cons second beforeValue =>
              have isColon : second = colon := by simpa [colons] using atColon
              subst isColon
              simp only [colons, List.tail_cons] at parsed
              cases valueRead : parseValue raw fuel beforeValue with
              | none =>
                  rw [valueRead] at parsed
                  cases parsed
              | some result =>
                  rcases result with ⟨value, afterValue⟩
                  simp only [valueRead] at parsed
                  cases ends : skipBlanks afterValue with
                  | nil =>
                      rw [ends] at parsed
                      cases parsed
                  | cons next following =>
                      simp only [ends] at parsed
                      refine
                        ⟨afterQuote, key, afterKey, beforeValue, value,
                          afterValue, next, following, rfl, keyRead, colons,
                          valueRead, ends, ?_⟩
                      split_ifs at parsed with isComma isBrace
                      · rcases Option.map_eq_some_iff.mp parsed with
                          ⟨⟨later, left⟩, continued, equal⟩
                        cases equal
                        exact .inl ⟨isComma, later, continued, rfl⟩
                      · cases parsed
                        exact .inr ⟨isBrace, rfl, rfl⟩

theorem LeavesSuffix.value_succ
    {raw : UInt8 → Bool} {fuel : Nat} (leaves : LeavesSuffix raw fuel)
    {input rest : Bytes} {value : Json}
    (parsed : parseValue raw (fuel + 1) input = some (value, rest)) :
    rest <:+ input := by
  rw [parseValue] at parsed
  cases blanks : skipBlanks input with
  | nil =>
      rw [blanks] at parsed
      cases parsed
  | cons first tail =>
      have start := suffix_of_skipBlanks_cons blanks
      have tailWithin := (List.suffix_cons first tail).trans start
      simp only [blanks] at parsed
      split_ifs at parsed
      · rcases Option.map_eq_some_iff.mp parsed with ⟨⟨text, left⟩, read, equal⟩
        cases equal
        exact (parseString_consumes read).1.trans tailWithin
      · cases parsed
        exact ((List.tail_suffix _).trans (skipBlanks_suffix tail)).trans
          tailWithin
      · rcases Option.map_eq_some_iff.mp parsed with ⟨⟨items, left⟩, read, equal⟩
        cases equal
        exact (leaves.items _ _ _ read).trans tailWithin
      · cases parsed
        exact ((List.tail_suffix _).trans (skipBlanks_suffix tail)).trans
          tailWithin
      · rcases Option.map_eq_some_iff.mp parsed with
          ⟨⟨members, left⟩, read, equal⟩
        cases equal
        exact (leaves.members _ _ _ read).1.trans tailWithin
      · exact (parseWord_suffix parsed).trans tailWithin
      · exact (parseWord_suffix parsed).trans tailWithin
      · exact (parseWord_suffix parsed).trans tailWithin
      · rcases Option.map_eq_some_iff.mp parsed with ⟨⟨number, left⟩, read, equal⟩
        cases equal
        exact (parseNumber_suffix read).trans start

theorem LeavesSuffix.items_succ
    {raw : UInt8 → Bool} {fuel : Nat} (leaves : LeavesSuffix raw fuel)
    {input rest : Bytes} {items : List Json}
    (parsed : parseItems raw (fuel + 1) input = some (items, rest)) :
    rest <:+ input := by
  rw [parseItems] at parsed
  cases item : parseValue raw fuel input with
  | none =>
      rw [item] at parsed
      cases parsed
  | some result =>
      rcases result with ⟨value, afterValue⟩
      have valueWithin := leaves.value _ _ _ item
      simp only [item] at parsed
      cases blanks : skipBlanks afterValue with
      | nil =>
          rw [blanks] at parsed
          cases parsed
      | cons first tail =>
          have tailWithin :=
            (List.suffix_cons first tail).trans
              ((suffix_of_skipBlanks_cons blanks).trans valueWithin)
          simp only [blanks] at parsed
          split_ifs at parsed
          · rcases Option.map_eq_some_iff.mp parsed with
              ⟨⟨later, left⟩, read, equal⟩
            cases equal
            exact (leaves.items _ _ _ read).trans tailWithin
          · cases parsed
            exact tailWithin

theorem LeavesSuffix.members_succ
    {raw : UInt8 → Bool} {fuel : Nat} (leaves : LeavesSuffix raw fuel)
    {input rest : Bytes} {members : List (CString × Json)}
    (parsed : parseMembers raw (fuel + 1) input = some (members, rest)) :
    rest <:+ input ∧ closeBrace ∈ input := by
  rcases parseMembers_succ parsed with
    ⟨afterQuote, key, afterKey, beforeValue, value, afterValue, next, following,
      start, keyRead, colons, valueRead, ends, continued⟩
  have keyWithin : afterKey <:+ input :=
    (parseString_consumes keyRead).1.trans
      ((List.suffix_cons _ _).trans (suffix_of_skipBlanks_cons start))
  have valueWithin : afterValue <:+ input :=
    (leaves.value _ _ _ valueRead).trans
      ((List.suffix_cons _ _).trans
        ((suffix_of_skipBlanks_cons colons).trans keyWithin))
  have nextWithin : next :: following <:+ input :=
    (suffix_of_skipBlanks_cons ends).trans valueWithin
  have within : following <:+ input :=
    (List.suffix_cons next following).trans nextWithin
  rcases continued with ⟨rfl, later, read, rfl⟩ | ⟨rfl, rfl, rfl⟩
  · rcases leaves.members _ _ _ read with ⟨suffix, closed⟩
    exact ⟨suffix.trans within, within.subset closed⟩
  · exact ⟨within, nextWithin.subset List.mem_cons_self⟩

/-- The parser leaves a suffix, and an object ends with its brace. -/
theorem leavesSuffix (raw : UInt8 → Bool) (fuel : Nat) :
    LeavesSuffix raw fuel := by
  induction fuel with
  | zero =>
      constructor
      · intro input value rest parsed
        cases parsed
      · intro input items rest parsed
        cases parsed
      · intro input members rest parsed
        cases parsed
  | succ fuel ih =>
      constructor
      · intro input value rest parsed
        exact ih.value_succ parsed
      · intro input items rest parsed
        exact ih.items_succ parsed
      · intro input members rest parsed
        exact ih.members_succ parsed

/-! ## Members of plain texts -/

section PlainMembers

variable {raw : UInt8 → Bool} {key value : Bytes}
  (plainKey : ∀ byte ∈ key, Plain raw byte)
  (plainValue : ∀ byte ∈ value, Plain raw byte)
  {fuel : Nat} (enoughKey : key.length ≤ fuel) (enough : value.length < fuel)

include plainValue enough in
theorem parseValue_plain (rest : Bytes) :
    parseValue raw (fuel + 1) (quote :: (value ++ quote :: rest)) =
      some (.string (CString.ofBuffer value), rest) := by
  rw [parseValue, skipBlanks_cons (by decide)]
  simp only [if_true, parseString_plain plainValue rest enough,
    Option.map_some]

include plainKey plainValue enoughKey enough

/-- A member of plain texts with another one behind it. -/
theorem parseMembers_plain_comma (rest : Bytes) :
    parseMembers raw (fuel + 2)
        (quote :: (key ++ quote :: colon :: quote ::
          (value ++ quote :: comma :: rest))) =
      (parseMembers raw (fuel + 1) rest).map fun result =>
        ((CString.ofBuffer key, .string (CString.ofBuffer value)) :: result.1,
          result.2) := by
  rw [parseMembers]
  simp only [skipBlanks_cons (show isBlank quote = false by decide),
    skipBlanks_cons (show isBlank colon = false by decide),
    skipBlanks_cons (show isBlank comma = false by decide),
    List.head?_cons, List.tail_cons, if_true,
    parseString_plain plainKey _ (Nat.lt_succ_of_le enoughKey),
    parseValue_plain plainValue enough]

/-- The last member of an object. -/
theorem parseMembers_plain_last (rest : Bytes) :
    parseMembers raw (fuel + 2)
        (quote :: (key ++ quote :: colon :: quote ::
          (value ++ quote :: closeBrace :: rest))) =
      some ([(CString.ofBuffer key, .string (CString.ofBuffer value))],
        rest) := by
  have different : closeBrace ≠ comma := by decide
  rw [parseMembers]
  simp only [skipBlanks_cons (show isBlank quote = false by decide),
    skipBlanks_cons (show isBlank colon = false by decide),
    skipBlanks_cons (show isBlank closeBrace = false by decide),
    List.head?_cons, List.tail_cons, if_true, if_neg different,
    parseString_plain plainKey _ (Nat.lt_succ_of_le enoughKey),
    parseValue_plain plainValue enough]

end PlainMembers

end SmartFridge.Library.Json
