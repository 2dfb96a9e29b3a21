import SmartFridge.Library.JsonConsumption

/-!
# What follows a parsed value does not matter

A value that has been read stays the same, whatever is appended to the input
and however much fuel is added.  Only a number that reaches to the end of the
input may go on.
-/

namespace SmartFridge.Library.Json

theorem ne_nil_of_suffix {rest input : Bytes} (suffix : rest <:+ input)
    (left : rest ≠ []) : input ≠ [] := by
  rintro rfl
  exact left (List.suffix_nil.mp suffix)

theorem skipBlanks_more {input rest : Bytes} {first : UInt8}
    (skipped : skipBlanks input = first :: rest) (more : Bytes) :
    skipBlanks (input ++ more) = first :: (rest ++ more) := by
  unfold skipBlanks at skipped ⊢
  rw [List.dropWhile_append, skipped]
  rfl

/-! ## Numbers -/

section Numbers

variable {input rest : Bytes} (left : rest ≠ []) (more : Bytes)
include left

theorem parseDigits_more {digits : Bytes}
    (parsed : parseDigits input = some (digits, rest)) :
    parseDigits (input ++ more) = some (digits, rest ++ more) := by
  simp only [parseDigits] at parsed ⊢
  split_ifs at parsed with empty
  cases parsed
  have taken :
      (input.takeWhile CString.isDigit).length ≠ input.length := by
    intro whole
    have parts := congrArg List.length
      (List.takeWhile_append_dropWhile (p := CString.isDigit) (l := input))
    rw [List.length_append] at parts
    exact left (List.eq_nil_of_length_eq_zero (by omega))
  have dropped : (input.dropWhile CString.isDigit).isEmpty = false :=
    List.isEmpty_eq_false_iff.mpr left
  rw [List.takeWhile_append, if_neg taken, List.dropWhile_append, dropped,
    if_neg empty]
  rfl

theorem parseWhole_more {digits : Bytes}
    (parsed : parseWhole input = some (digits, rest)) :
    parseWhole (input ++ more) = some (digits, rest ++ more) := by
  have nonempty := ne_nil_of_suffix (parseWhole_suffix parsed) left
  unfold parseWhole at parsed ⊢
  rw [List.head?_append_of_ne_nil _ nonempty,
    List.tail_append_of_ne_nil nonempty]
  split_ifs at parsed ⊢
  · cases parsed
    rfl
  · exact parseDigits_more left more parsed

theorem parseFraction_more {digits : Bytes}
    (parsed : parseFraction input = some (digits, rest)) :
    parseFraction (input ++ more) = some (digits, rest ++ more) := by
  have nonempty := ne_nil_of_suffix (parseFraction_suffix parsed) left
  unfold parseFraction at parsed ⊢
  rw [List.head?_append_of_ne_nil _ nonempty,
    List.tail_append_of_ne_nil nonempty]
  split_ifs at parsed ⊢
  · exact parseDigits_more left more parsed
  · cases parsed
    rfl

theorem parseSigned_more {value : Int}
    (parsed : parseSigned input = some (value, rest)) :
    parseSigned (input ++ more) = some (value, rest ++ more) := by
  have nonempty := ne_nil_of_suffix (parseSigned_suffix parsed) left
  unfold parseSigned at parsed ⊢
  rw [List.head?_append_of_ne_nil _ nonempty,
    List.tail_append_of_ne_nil nonempty]
  split_ifs at parsed ⊢
  · rcases Option.map_eq_some_iff.mp parsed with ⟨⟨digits, after⟩, read, equal⟩
    cases equal
    rw [parseDigits_more left more read, Option.map_some]
  · rcases Option.map_eq_some_iff.mp parsed with ⟨⟨digits, after⟩, read, equal⟩
    cases equal
    rw [parseDigits_more left more read, Option.map_some]
  · rcases Option.map_eq_some_iff.mp parsed with ⟨⟨digits, after⟩, read, equal⟩
    cases equal
    rw [parseDigits_more left more read, Option.map_some]

theorem parseExponent_more {value : Int}
    (parsed : parseExponent input = some (value, rest)) :
    parseExponent (input ++ more) = some (value, rest ++ more) := by
  have nonempty := ne_nil_of_suffix (parseExponent_suffix parsed) left
  unfold parseExponent at parsed ⊢
  rw [List.head?_append_of_ne_nil _ nonempty,
    List.tail_append_of_ne_nil nonempty]
  split_ifs at parsed ⊢
  · exact parseSigned_more left more parsed
  · cases parsed
    rfl

theorem parseUnsigned_more {value : Decimal}
    (parsed : parseUnsigned input = some (value, rest)) :
    parseUnsigned (input ++ more) = some (value, rest ++ more) := by
  simp only [parseUnsigned, Option.bind_eq_some_iff, Option.map_eq_some_iff]
    at parsed ⊢
  rcases parsed with ⟨⟨whole, afterWhole⟩, wholeRead, ⟨fraction, afterFraction⟩,
    fractionRead, ⟨exponent, after⟩, exponentRead, equal⟩
  cases equal
  have fractionLeft := ne_nil_of_suffix (parseExponent_suffix exponentRead) left
  have wholeLeft :=
    ne_nil_of_suffix (parseFraction_suffix fractionRead) fractionLeft
  exact ⟨_, parseWhole_more wholeLeft more wholeRead,
    _, parseFraction_more fractionLeft more fractionRead,
    _, parseExponent_more left more exponentRead, rfl⟩

theorem parseNumber_more {value : Decimal}
    (parsed : parseNumber input = some (value, rest)) :
    parseNumber (input ++ more) = some (value, rest ++ more) := by
  have nonempty := ne_nil_of_suffix (parseNumber_suffix parsed) left
  unfold parseNumber at parsed ⊢
  rw [List.head?_append_of_ne_nil _ nonempty,
    List.tail_append_of_ne_nil nonempty]
  split_ifs at parsed ⊢
  · rcases Option.map_eq_some_iff.mp parsed with ⟨⟨number, after⟩, read, equal⟩
    cases equal
    rw [parseUnsigned_more left more read, Option.map_some]
  · exact parseUnsigned_more left more parsed

end Numbers

/-! ## Words and strings -/

theorem parseWord_more {word input rest : Bytes} {value read : Json}
    (parsed : parseWord word value input = some (read, rest)) (more : Bytes) :
    parseWord word value (input ++ more) = some (read, rest ++ more) := by
  unfold parseWord at parsed ⊢
  split_ifs at parsed with begins
  cases parsed
  rw [if_pos (begins.trans (List.prefix_append input more)),
    List.drop_append_of_le_length begins.length_le]

theorem parseHex4_more {input rest : Bytes} {value : Nat}
    (parsed : parseHex4 input = some (value, rest)) (more : Bytes) :
    parseHex4 (input ++ more) = some (value, rest ++ more) := by
  unfold parseHex4 at parsed
  split at parsed
  next first second third fourth after =>
    split at parsed
    next a b c d firstHex secondHex thirdHex fourthHex =>
      cases parsed
      simp [parseHex4, firstHex, secondHex, thirdHex, fourthHex]
    next => cases parsed
  next => cases parsed

theorem parseUnicode_more {input decoded rest : Bytes}
    (parsed : parseUnicode input = some (decoded, rest)) (more : Bytes) :
    parseUnicode (input ++ more) = some (decoded, rest ++ more) := by
  unfold parseUnicode at parsed ⊢
  cases hex : parseHex4 input with
  | none =>
      rw [hex] at parsed
      cases parsed
  | some result =>
      rcases result with ⟨high, after⟩
      simp only [hex] at parsed
      simp only [parseHex4_more hex more]
      split_ifs at parsed ⊢
      · split at parsed
        next first second afterEscape =>
          split_ifs at parsed with isEscape
          cases lowHex : parseHex4 afterEscape with
          | none =>
              rw [lowHex] at parsed
              cases parsed
          | some lowResult =>
              rcases lowResult with ⟨low, afterLow⟩
              simp only [lowHex] at parsed
              split_ifs at parsed with isLow
              rw [Option.some.injEq, Prod.mk.injEq] at parsed
              rcases parsed with ⟨rfl, rfl⟩
              have read := parseHex4_more lowHex more
              simp only [List.cons_append, if_pos isEscape, read,
                if_pos isLow]
        next => cases parsed
      · cases parsed
        rfl

theorem parseChar_more {raw : UInt8 → Bool} {input decoded rest : Bytes}
    (parsed : parseChar raw input = some (decoded, rest)) (more : Bytes) :
    parseChar raw (input ++ more) = some (decoded, rest ++ more) := by
  unfold parseChar at parsed
  split at parsed
  · cases parsed
  next first tail =>
    rw [List.cons_append]
    unfold parseChar
    dsimp only
    split_ifs at parsed ⊢
    · split at parsed
      · cases parsed
      next letter after =>
        rw [List.cons_append]
        simp only
        split_ifs at parsed ⊢
        · exact parseUnicode_more parsed more
        · rcases Option.map_eq_some_iff.mp parsed with
            ⟨byte, unescaped, equal⟩
          cases equal
          rw [unescaped, Option.map_some]
    · cases parsed
      rfl

theorem parseChar_ne_nil {raw : UInt8 → Bool} {input decoded rest : Bytes}
    (parsed : parseChar raw input = some (decoded, rest)) : input ≠ [] := by
  rintro rfl
  cases parsed

theorem parseString_more {raw : UInt8 → Bool} {fuel : Nat}
    {input decoded rest : Bytes}
    (parsed : parseString raw fuel input = some (decoded, rest))
    {enough : Nat} (within : fuel ≤ enough) (more : Bytes) :
    parseString raw enough (input ++ more) = some (decoded, rest ++ more) := by
  induction fuel generalizing input decoded enough with
  | zero => cases parsed
  | succ fuel ih =>
      rcases Nat.exists_eq_add_of_le' (Nat.one_le_of_lt within) with
        ⟨later, rfl⟩
      have laterWithin : fuel ≤ later := Nat.le_of_succ_le_succ within
      rw [parseString] at parsed ⊢
      by_cases atQuote : input.head? = some quote
      · have nonempty : input ≠ [] := by
          rintro rfl
          cases atQuote
        rw [if_pos atQuote] at parsed
        rw [List.head?_append_of_ne_nil _ nonempty, if_pos atQuote,
          List.tail_append_of_ne_nil nonempty]
        cases parsed
        rfl
      · rw [if_neg atQuote] at parsed
        cases character : parseChar raw input with
        | none =>
            rw [character] at parsed
            cases parsed
        | some result =>
            rcases result with ⟨first, after⟩
            simp only [character, Option.map_eq_some_iff] at parsed
            rcases parsed with ⟨⟨others, last⟩, continued, equal⟩
            cases equal
            rw [List.head?_append_of_ne_nil _ (parseChar_ne_nil character),
              if_neg atQuote]
            simp only [parseChar_more character more,
              ih continued laterWithin, Option.map_some]

/-! ## Values -/

/-- The value does not end with the input in the middle of a number. -/
def Ended (value : Json) (rest : Bytes) : Prop :=
  rest ≠ [] ∨ ∀ number, value ≠ .number number

theorem ended_string {text : CString} {rest : Bytes} :
    Ended (.string text) rest := by
  refine .inr fun number same => ?_
  cases same

theorem ended_object {members : List (CString × Json)} {rest : Bytes} :
    Ended (.object members) rest := by
  refine .inr fun number same => ?_
  cases same

/-- What the parsers have read with some fuel stays as it is. -/
structure Extends (raw : UInt8 → Bool) (fuel : Nat) : Prop where
  value : ∀ {input value rest},
    parseValue raw fuel input = some (value, rest) → Ended value rest →
      ∀ {enough}, fuel ≤ enough → ∀ more,
        parseValue raw enough (input ++ more) = some (value, rest ++ more)
  items : ∀ {input items rest},
    parseItems raw fuel input = some (items, rest) →
      ∀ {enough}, fuel ≤ enough → ∀ more,
        parseItems raw enough (input ++ more) = some (items, rest ++ more)
  members : ∀ {input members rest},
    parseMembers raw fuel input = some (members, rest) →
      ∀ {enough}, fuel ≤ enough → ∀ more,
        parseMembers raw enough (input ++ more) = some (members, rest ++ more)

theorem head?_skipBlanks_more {input : Bytes} (starts : skipBlanks input ≠ [])
    (more : Bytes) :
    (skipBlanks (input ++ more)).head? = (skipBlanks input).head? := by
  rcases List.exists_cons_of_ne_nil starts with ⟨first, rest, skipped⟩
  rw [skipBlanks_more skipped, skipped]
  rfl

theorem parseValue_starts {raw : UInt8 → Bool} {fuel : Nat} {input : Bytes}
    {result : Json × Bytes} (parsed : parseValue raw fuel input = some result) :
    skipBlanks input ≠ [] := by
  intro nothing
  cases fuel with
  | zero => cases parsed
  | succ fuel =>
      rw [parseValue, nothing] at parsed
      cases parsed

theorem parseItems_starts {raw : UInt8 → Bool} {fuel : Nat} {input : Bytes}
    {result : List Json × Bytes}
    (parsed : parseItems raw fuel input = some result) :
    skipBlanks input ≠ [] := by
  cases fuel with
  | zero => cases parsed
  | succ fuel =>
      rw [parseItems] at parsed
      cases item : parseValue raw fuel input with
      | none =>
          rw [item] at parsed
          cases parsed
      | some first => exact parseValue_starts item

theorem parseMembers_starts {raw : UInt8 → Bool} {fuel : Nat} {input : Bytes}
    {result : List (CString × Json) × Bytes}
    (parsed : parseMembers raw fuel input = some result) :
    skipBlanks input ≠ [] := by
  cases fuel with
  | zero => cases parsed
  | succ fuel =>
      rcases parseMembers_succ parsed with ⟨_, _, _, _, _, _, _, _, start, _⟩
      rw [start]
      exact List.cons_ne_nil _ _

section Succ

variable {raw : UInt8 → Bool} {fuel : Nat} (extends_ : Extends raw fuel)
  {enough : Nat} (within : fuel ≤ enough) (more : Bytes)
include extends_ within

theorem Extends.value_succ {input rest : Bytes} {value : Json}
    (parsed : parseValue raw (fuel + 1) input = some (value, rest))
    (ended : Ended value rest) :
    parseValue raw (enough + 1) (input ++ more) =
      some (value, rest ++ more) := by
  rw [parseValue] at parsed ⊢
  cases blanks : skipBlanks input with
  | nil =>
      rw [blanks] at parsed
      cases parsed
  | cons first tail =>
      simp only [blanks] at parsed
      simp only [skipBlanks_more blanks more]
      by_cases isQuote : first = quote
      · rw [if_pos isQuote] at parsed ⊢
        rcases Option.map_eq_some_iff.mp parsed with ⟨⟨text, after⟩, read, equal⟩
        cases equal
        rw [parseString_more read within more, Option.map_some]
      rw [if_neg isQuote] at parsed ⊢
      by_cases isBracket : first = openBracket
      · rw [if_pos isBracket] at parsed ⊢
        by_cases isEmpty : (skipBlanks tail).head? = some closeBracket
        · rw [if_pos isEmpty] at parsed
          rcases List.head?_eq_some_iff.mp isEmpty with ⟨after, skipped⟩
          rw [skipped] at parsed
          cases parsed
          rw [skipBlanks_more skipped more]
          rfl
        · rw [if_neg isEmpty] at parsed
          rcases Option.map_eq_some_iff.mp parsed with
            ⟨⟨items, after⟩, read, equal⟩
          cases equal
          rw [head?_skipBlanks_more (parseItems_starts read), if_neg isEmpty,
            extends_.items read within more, Option.map_some]
      rw [if_neg isBracket] at parsed ⊢
      by_cases isBrace : first = openBrace
      · rw [if_pos isBrace] at parsed ⊢
        by_cases isEmpty : (skipBlanks tail).head? = some closeBrace
        · rw [if_pos isEmpty] at parsed
          rcases List.head?_eq_some_iff.mp isEmpty with ⟨after, skipped⟩
          rw [skipped] at parsed
          cases parsed
          rw [skipBlanks_more skipped more]
          rfl
        · rw [if_neg isEmpty] at parsed
          rcases Option.map_eq_some_iff.mp parsed with
            ⟨⟨members, after⟩, read, equal⟩
          cases equal
          rw [head?_skipBlanks_more (parseMembers_starts read), if_neg isEmpty,
            extends_.members read within more, Option.map_some]
      rw [if_neg isBrace] at parsed ⊢
      split_ifs at parsed ⊢
      · exact parseWord_more parsed more
      · exact parseWord_more parsed more
      · exact parseWord_more parsed more
      · rcases Option.map_eq_some_iff.mp parsed with
          ⟨⟨number, after⟩, read, equal⟩
        cases equal
        have left : after ≠ [] :=
          ended.resolve_right fun other => other number rfl
        have readMore := parseNumber_more left more read
        rw [List.cons_append] at readMore
        rw [readMore, Option.map_some]

theorem Extends.items_succ {input rest : Bytes} {items : List Json}
    (parsed : parseItems raw (fuel + 1) input = some (items, rest)) :
    parseItems raw (enough + 1) (input ++ more) =
      some (items, rest ++ more) := by
  rw [parseItems] at parsed ⊢
  cases item : parseValue raw fuel input with
  | none =>
      rw [item] at parsed
      cases parsed
  | some result =>
      rcases result with ⟨value, afterValue⟩
      simp only [item] at parsed
      cases blanks : skipBlanks afterValue with
      | nil =>
          rw [blanks] at parsed
          cases parsed
      | cons first tail =>
          have ended : Ended value afterValue := by
            refine .inl ?_
            rintro rfl
            cases blanks
          simp only [blanks] at parsed
          simp only [extends_.value item ended within more,
            skipBlanks_more blanks more]
          split_ifs at parsed ⊢
          · rcases Option.map_eq_some_iff.mp parsed with
              ⟨⟨later, after⟩, read, equal⟩
            cases equal
            rw [extends_.items read within more, Option.map_some]
          · cases parsed
            rfl

theorem Extends.members_succ {input rest : Bytes}
    {members : List (CString × Json)}
    (parsed : parseMembers raw (fuel + 1) input = some (members, rest)) :
    parseMembers raw (enough + 1) (input ++ more) =
      some (members, rest ++ more) := by
  rcases parseMembers_succ parsed with
    ⟨afterQuote, key, afterKey, beforeValue, value, afterValue, next, following,
      start, keyRead, colons, valueRead, ends, continued⟩
  have ended : Ended value afterValue := by
    refine .inl ?_
    rintro rfl
    cases ends
  rw [parseMembers]
  simp only [skipBlanks_more start more, List.head?_cons, List.tail_cons,
    if_true, parseString_more keyRead within more, skipBlanks_more colons more,
    extends_.value valueRead ended within more, skipBlanks_more ends more]
  rcases continued with ⟨rfl, later, read, rfl⟩ | ⟨rfl, rfl, rfl⟩
  · rw [if_pos rfl, extends_.members read within more, Option.map_some]
  · have different : closeBrace ≠ comma := by decide
    rw [if_neg different, if_pos rfl]

end Succ

/-- The induction follows the fuel of the three parsers. -/
theorem extends_ (raw : UInt8 → Bool) (fuel : Nat) : Extends raw fuel := by
  induction fuel with
  | zero =>
      exact
        { value := fun parsed => nomatch parsed
          items := fun parsed => nomatch parsed
          members := fun parsed => nomatch parsed }
  | succ fuel ih =>
      constructor
      · intro input value rest parsed ended enough within more
        rcases Nat.exists_eq_add_of_le' (Nat.one_le_of_lt within) with
          ⟨later, rfl⟩
        exact ih.value_succ (Nat.le_of_succ_le_succ within) more parsed ended
      · intro input items rest parsed enough within more
        rcases Nat.exists_eq_add_of_le' (Nat.one_le_of_lt within) with
          ⟨later, rfl⟩
        exact ih.items_succ (Nat.le_of_succ_le_succ within) more parsed
      · intro input members rest parsed enough within more
        rcases Nat.exists_eq_add_of_le' (Nat.one_le_of_lt within) with
          ⟨later, rfl⟩
        exact ih.members_succ (Nat.le_of_succ_le_succ within) more parsed

end SmartFridge.Library.Json
