import SmartFridge.Library.JsonExtension

/-!
# Members in the middle of a text

A parser that starts inside of a printed value may take the quotes it meets for
the beginnings of members.  Only two kinds of them go on as a member: the quote
before a key, where the member is read that is there, and the quote behind a
string, where the key starts with the byte that separates the string from what
follows.
-/

namespace SmartFridge.Library.Json

/-! ## Objects -/

theorem parseString_unique {raw : UInt8 → Bool} {fuel enough : Nat}
    {input : Bytes} {first second : Bytes × Bytes}
    (readFirst : parseString raw fuel input = some first)
    (readSecond : parseString raw enough input = some second) :
    first = second := by
  have more := parseString_more readFirst (Nat.le_max_left fuel enough) []
  have other := parseString_more readSecond (Nat.le_max_right fuel enough) []
  rw [List.append_nil, List.append_nil] at more other
  exact Option.some.inj (more.symm.trans other)

theorem parseValue_unique {raw : UInt8 → Bool} {fuel enough : Nat}
    {input rest left : Bytes} {value other : Json}
    (read : parseValue raw fuel input = some (value, rest))
    (ended : Ended value rest)
    (readOther : parseValue raw enough input = some (other, left))
    (endedOther : Ended other left) : value = other := by
  have more :=
    (extends_ raw fuel).value read ended (Nat.le_max_left fuel enough) []
  have again :=
    (extends_ raw enough).value readOther endedOther
      (Nat.le_max_right fuel enough) []
  rw [List.append_nil, List.append_nil] at more again
  exact congrArg Prod.fst (Option.some.inj (more.symm.trans again))

theorem parseWord_value {word input rest : Bytes} {value read : Json}
    (parsed : parseWord word value input = some (read, rest)) :
    read = value := by
  unfold parseWord at parsed
  split_ifs at parsed
  cases parsed
  rfl

/-- An object starts with its brace. -/
theorem brace_of_object {raw : UInt8 → Bool} {fuel : Nat}
    {input rest : Bytes} {members : List (CString × Json)}
    (parsed : parseValue raw fuel input = some (.object members, rest)) :
    ∃ tail, skipBlanks input = openBrace :: tail ∧
      (members = [] ∨
        ∃ fuel, parseMembers raw fuel tail = some (members, rest)) := by
  cases fuel with
  | zero => cases parsed
  | succ fuel =>
      rw [parseValue] at parsed
      cases blanks : skipBlanks input with
      | nil =>
          rw [blanks] at parsed
          cases parsed
      | cons first tail =>
          simp only [blanks] at parsed
          split_ifs at parsed with isQuote isBracket empty isBrace noMember
          · rcases Option.map_eq_some_iff.mp parsed with ⟨_, _, impossible⟩
            cases impossible
          · cases parsed
          · rcases Option.map_eq_some_iff.mp parsed with ⟨_, _, impossible⟩
            cases impossible
          · cases parsed
            exact ⟨tail, by rw [isBrace], .inl rfl⟩
          · rcases Option.map_eq_some_iff.mp parsed with
              ⟨⟨found, left⟩, read, equal⟩
            cases equal
            exact ⟨tail, by rw [isBrace], .inr ⟨fuel, read⟩⟩
          · cases parseWord_value parsed
          · cases parseWord_value parsed
          · cases parseWord_value parsed
          · rcases Option.map_eq_some_iff.mp parsed with ⟨_, _, impossible⟩
            cases impossible

/-- What starts with a brace is an object. -/
theorem object_of_brace {raw : UInt8 → Bool} {fuel : Nat}
    {input rest tail : Bytes} {value : Json}
    (start : skipBlanks input = openBrace :: tail)
    (parsed : parseValue raw fuel input = some (value, rest)) :
    ∃ members, value = .object members := by
  cases fuel with
  | zero => cases parsed
  | succ fuel =>
      have notQuote : openBrace ≠ quote := nofun
      have notBracket : openBrace ≠ openBracket := nofun
      rw [parseValue, start] at parsed
      simp only [if_neg notQuote, if_neg notBracket, if_true] at parsed
      split_ifs at parsed
      · cases parsed
        exact ⟨[], rfl⟩
      · rcases Option.map_eq_some_iff.mp parsed with
          ⟨⟨members, left⟩, _, equal⟩
        cases equal
        exact ⟨members, rfl⟩

/-- No proper beginning of an object is a value. -/
theorem parseValue_beginning {raw : UInt8 → Bool} {fuel enough : Nat}
    {beginning more : Bytes} {members : List (CString × Json)}
    (whole : parseValue raw fuel (beginning ++ more) =
      some (.object members, []))
    (proper : more ≠ []) : parseValue raw enough beginning = none := by
  rw [Option.eq_none_iff_forall_ne_some]
  rintro ⟨value, rest⟩ parsed
  rcases brace_of_object whole with ⟨tail, start, _⟩
  rcases List.exists_cons_of_ne_nil (parseValue_starts parsed) with
    ⟨first, behind, skipped⟩
  have same : first = openBrace := by
    rw [skipBlanks_more skipped] at start
    exact (List.cons.inj start).1
  subst same
  rcases object_of_brace skipped parsed with ⟨found, rfl⟩
  have longer :=
    (extends_ raw enough).value parsed ended_object
      (Nat.le_max_left enough fuel) more
  have same :=
    (extends_ raw fuel).value whole ended_object
      (Nat.le_max_right enough fuel) []
  rw [List.append_nil, longer] at same
  rcases List.append_eq_nil_iff.mp
    (congrArg Prod.snd (Option.some.inj same)) with ⟨_, nothing⟩
  exact proper nothing

/-! ## What is read behind a quote -/

/-- A member can be read at the start of the input, behind a quote. -/
inductive ReadsMember (raw : UInt8 → Bool) (input : Bytes) :
    CString → Json → Prop
  | intro {fuel : Nat} {key afterKey beforeValue afterValue : Bytes}
      {value : Json}
      (keyRead : parseString raw fuel input = some (key, afterKey))
      (colons : skipBlanks afterKey = colon :: beforeValue)
      (valueRead : parseValue raw fuel beforeValue = some (value, afterValue))
      (ended : Ended value afterValue) :
      ReadsMember raw input (CString.ofBuffer key) value

theorem ReadsMember.more {raw : UInt8 → Bool} {input : Bytes} {key : CString}
    {value : Json} (reads : ReadsMember raw input key value) (more : Bytes) :
    ReadsMember raw (input ++ more) key value := by
  rcases reads with ⟨keyRead, colons, valueRead, ended⟩
  refine .intro (parseString_more keyRead le_rfl more)
    (skipBlanks_more colons more)
    ((extends_ raw _).value valueRead ended le_rfl more) ?_
  exact ended.imp (fun left empty => left (List.append_eq_nil_iff.mp empty).1) id

/-- The bytes that stand behind a string. -/
def Separates (byte : UInt8) : Prop :=
  byte = comma ∨ byte = colon ∨ byte = closeBracket ∨ byte = closeBrace

/-- A key that was read from behind a string on. -/
def Separating (key : CString) : Prop :=
  ∃ byte ∈ key.bytes.head?, Separates byte

theorem Separates.ne {byte : UInt8} (separates : Separates byte) :
    byte ≠ quote ∧ byte ≠ backslash ∧ byte ≠ 0 := by
  rcases separates with rfl | rfl | rfl | rfl
  · decide
  · decide
  · decide
  · decide

theorem parseString_head {raw : UInt8 → Bool} {fuel : Nat} {byte : UInt8}
    {input key rest : Bytes} (notQuote : byte ≠ quote)
    (notBackslash : byte ≠ backslash)
    (parsed : parseString raw fuel (byte :: input) = some (key, rest)) :
    ∃ others, key = byte :: others := by
  cases fuel with
  | zero => cases parsed
  | succ fuel =>
      have notHead : (byte :: input).head? ≠ some quote := by
        simpa using notQuote
      rw [parseString, if_neg notHead] at parsed
      simp only [parseChar, if_neg notBackslash] at parsed
      cases isRaw : raw byte with
      | false => simp [isRaw] at parsed
      | true =>
          simp only [isRaw, if_true] at parsed
          rcases Option.map_eq_some_iff.mp parsed with ⟨⟨others, _⟩, _, equal⟩
          cases equal
          exact ⟨others, rfl⟩

/-- Behind a string, the separator is taken for the first byte of the key. -/
theorem separating_of_read {raw : UInt8 → Bool} {input : Bytes}
    {key : CString} {value : Json}
    (behind : ∀ byte ∈ input.head?, Separates byte)
    (reads : ReadsMember raw input key value) : Separating key := by
  rcases reads with ⟨keyRead, _, _, _⟩
  cases input with
  | nil => cases (parseString_consumes keyRead).2
  | cons byte rest =>
      have separates := behind byte rfl
      rcases separates.ne with ⟨notQuote, notBackslash, nonzero⟩
      rcases parseString_head notQuote notBackslash keyRead with ⟨others, rfl⟩
      refine ⟨byte, ?_, separates⟩
      simp [CString.ofBuffer, nonzero]

/--
Whatever is read as a member behind a quote of the text that is not escaped is
good; `rest` is what follows the text.
-/
def MembersIn (raw : UInt8 → Bool) (good : CString → Json → Prop)
    (text rest : Bytes) : Prop :=
  ∀ before behind, text = before ++ quote :: behind →
    before.getLast? ≠ some backslash →
      ∀ key value, ReadsMember raw (behind ++ rest) key value → good key value

section Members

variable {raw : UInt8 → Bool} {good : CString → Json → Prop}

theorem MembersIn.append {left right rest : Bytes}
    (inLeft : MembersIn raw good left (right ++ rest))
    (inRight : MembersIn raw good right rest) :
    MembersIn raw good (left ++ right) rest := by
  intro before behind split unescaped key value reads
  rcases List.append_eq_append_iff.mp split with
    ⟨others, rfl, later⟩ | ⟨others, earlier, within⟩
  · refine inRight others behind later ?_ key value reads
    intro last
    rw [List.getLast?_append, last] at unescaped
    exact unescaped rfl
  · cases others with
    | nil => exact inRight [] behind within.symm nofun key value reads
    | cons byte others =>
        rcases List.cons.inj within with ⟨rfl, _⟩
        have same : behind = others ++ right := (List.cons.inj within).2
        rw [same, List.append_assoc] at reads
        exact inLeft before others earlier unescaped key value reads

theorem membersIn_of_not_mem {text : Bytes} (absent : quote ∉ text)
    (rest : Bytes) : MembersIn raw good text rest := by
  intro before behind split
  refine absurd ?_ absent
  rw [split]
  exact List.mem_append_right before List.mem_cons_self

theorem MembersIn.cons {byte : UInt8} (other : byte ≠ quote)
    {text rest : Bytes} (within : MembersIn raw good text rest) :
    MembersIn raw good (byte :: text) rest :=
  MembersIn.append (membersIn_of_not_mem
    (fun member => other (List.mem_singleton.mp member).symm) _) within

theorem membersIn_quote {rest : Bytes}
    (reads : ∀ key value, ReadsMember raw rest key value → good key value) :
    MembersIn raw good [quote] rest := by
  intro before behind split _ key value
  cases before with
  | nil =>
      cases split
      exact reads key value
  | cons first others =>
      rcases List.cons.inj split with ⟨_, impossible⟩
      cases List.append_ne_nil_of_right_ne_nil others (List.cons_ne_nil _ _)
        impossible.symm

theorem MembersIn.cons_quote {text rest : Bytes}
    (reads : ∀ key value, ReadsMember raw (text ++ rest) key value →
      good key value)
    (within : MembersIn raw good text rest) :
    MembersIn raw good (quote :: text) rest :=
  MembersIn.append (membersIn_quote reads) within

/-! ## Printed values -/

/-- The text that stands between the quotes of a string. -/
structure Literal (raw : UInt8 → Bool) (text decoded : Bytes) : Prop where
  reads : ∀ rest, ∃ fuel,
    parseString raw fuel (text ++ quote :: rest) = some (decoded, rest)
  escaped : ∀ before behind, text = before ++ quote :: behind →
    before.getLast? = some backslash

/-- Plain bytes stand for themselves. -/
theorem literal_plain {text : Bytes} (plain : ∀ byte ∈ text, Plain raw byte) :
    Literal raw text text where
  reads rest := ⟨_, parseString_plain plain rest (Nat.lt_succ_self _)⟩
  escaped before behind split := by
    have member : quote ∈ text := by
      rw [split]
      exact List.mem_append_right before List.mem_cons_self
    exact absurd rfl (plain quote member).2.1

theorem hexText_ne_quote : ∀ code, code < 32 →
    hexText (code.toUInt8 / 16) ≠ quote ∧
      hexText (code.toUInt8 % 16) ≠ quote := by
  decide

/-- Only the escape sequence of a quote has a quote in it. -/
theorem quote_not_mem_escapeByte {byte : UInt8} (other : byte ≠ quote) :
    quote ∉ escapeByte byte := by
  rw [escapeByte]
  cases escaped : escapeLetter byte with
  | some letter =>
      have notQuote : letter ≠ quote := by
        rintro rfl
        unfold escapeLetter at escaped
        split_ifs at escaped with isQuote
        · exact other isQuote
        all_goals cases escaped
      have notBackslash : quote ≠ backslash := by decide
      simp [notQuote.symm, notBackslash]
  | none =>
      by_cases control : byte < 32
      · have small : byte.toNat < 32 := control
        have hex := hexText_ne_quote byte.toNat small
        have recovered : byte.toNat.toUInt8 = byte := UInt8.ofNat_toNat
        have letters : quote ≠ backslash ∧ quote ≠ 117 ∧ quote ≠ 48 := by
          decide
        rw [recovered] at hex
        simp [control, hex.1.symm, hex.2.symm, letters]
      · simpa [control] using other.symm

theorem escapeByte_escaped {byte : UInt8} {before behind : Bytes}
    (split : escapeByte byte = before ++ quote :: behind) :
    before.getLast? = some backslash := by
  have member : quote ∈ escapeByte byte := by
    rw [split]
    exact List.mem_append_right before List.mem_cons_self
  by_cases isQuote : byte = quote
  · subst isQuote
    have pair : escapeByte quote = [backslash, quote] := rfl
    rw [pair] at split
    have different : backslash ≠ quote := nofun
    rcases before with _ | ⟨first, _ | ⟨second, others⟩⟩
    · exact absurd (List.cons.inj split).1 different
    · rw [(List.cons.inj split).1]
      rfl
    · have length := congrArg List.length split
      simp at length
  · exact absurd member (quote_not_mem_escapeByte isQuote)

/-- A quote inside of a printed string is escaped, by induction on its bytes. -/
theorem flatMap_escaped {bytes before behind : Bytes}
    (split : bytes.flatMap escapeByte = before ++ quote :: behind) :
    before.getLast? = some backslash := by
  induction bytes generalizing before with
  | nil =>
      have member : quote ∈ before ++ quote :: behind :=
        List.mem_append_right before List.mem_cons_self
      rw [← split] at member
      cases member
  | cons byte rest ih =>
      rw [List.flatMap_cons] at split
      rcases List.append_eq_append_iff.mp split with
        ⟨others, rfl, later⟩ | ⟨others, earlier, within⟩
      · rw [List.getLast?_append, ih later]
        rfl
      · cases others with
        | nil =>
            have start : rest.flatMap escapeByte = [] ++ quote :: behind :=
              within.symm
            cases ih start
        | cons first others =>
            rcases List.cons.inj within with ⟨rfl, _⟩
            exact escapeByte_escaped earlier

/-- Every byte of a string is escaped where JSON asks for it. -/
theorem literal_escaped (printable : ∀ byte, 32 ≤ byte → raw byte = true)
    (bytes : Bytes) : Literal raw (bytes.flatMap escapeByte) bytes where
  reads rest :=
    ⟨_, parseString_escaped printable bytes rest _ (Nat.lt_succ_self _)⟩
  escaped _ _ := flatMap_escaped

section Literals

variable {text decoded : Bytes} (literal : Literal raw text decoded)
include literal

/-- A string in the place of a value is not read as a key. -/
theorem Literal.not_key {rest : Bytes} (delimited : Delimited rest)
    (key : CString) (value : Json) :
    ¬ ReadsMember raw (text ++ quote :: rest) key value := by
  rintro ⟨keyRead, colons, _, _⟩
  rcases literal.reads rest with ⟨fuel, read⟩
  cases parseString_unique keyRead read
  cases rest with
  | nil => cases colons
  | cons byte behind =>
      have notBlank : isBlank byte = false := by
        rcases delimited byte rfl with rfl | rfl | rfl
        · rfl
        · rfl
        · rfl
      rw [skipBlanks_cons notBlank] at colons
      rcases List.cons.inj colons with ⟨rfl, _⟩
      rcases delimited colon rfl with impossible | impossible | impossible
      · cases impossible
      · cases impossible
      · cases impossible

/-- A key is read with the value that stands behind it. -/
theorem Literal.key {fuel : Nat} {input after : Bytes} {value : Json}
    (valueRead : parseValue raw fuel input = some (value, after))
    (ended : Ended value after) {key : CString} {other : Json}
    (reads : ReadsMember raw (text ++ quote :: colon :: input) key other) :
    key = CString.ofBuffer decoded ∧ other = value := by
  rcases reads with ⟨keyRead, colons, otherRead, otherEnded⟩
  rcases literal.reads (colon :: input) with ⟨fuel, read⟩
  cases parseString_unique keyRead read
  have notBlank : isBlank colon = false := rfl
  rw [skipBlanks_cons notBlank] at colons
  rcases List.cons.inj colons with ⟨_, rfl⟩
  exact ⟨rfl, parseValue_unique otherRead otherEnded valueRead ended⟩

variable (separating : ∀ key value, Separating key → good key value)
include separating

/-- Behind its opening quote, a string gives only separating keys. -/
theorem Literal.membersIn_tail {rest : Bytes}
    (behind : ∀ byte ∈ rest.head?, Separates byte) :
    MembersIn raw good (text ++ [quote]) rest := by
  refine .append ?_ (membersIn_quote fun key value reads =>
    separating key value (separating_of_read behind reads))
  intro before behind split unescaped
  exact absurd (literal.escaped before behind split) unescaped

theorem Literal.membersIn_value {rest : Bytes} (delimited : Delimited rest) :
    MembersIn raw good (quote :: (text ++ [quote])) rest := by
  refine .cons_quote (fun key value reads => ?_)
    (literal.membersIn_tail separating fun byte head => ?_)
  · rw [List.append_assoc] at reads
    exact absurd reads (literal.not_key delimited key value)
  · rcases delimited byte head with rfl | rfl | rfl
    · exact .inl rfl
    · exact .inr (.inr (.inl rfl))
    · exact .inr (.inr (.inr rfl))

theorem Literal.membersIn_key {fuel : Nat} {input after : Bytes} {value : Json}
    (valueRead : parseValue raw fuel input = some (value, after))
    (ended : Ended value after)
    (isGood : good (CString.ofBuffer decoded) value) :
    MembersIn raw good (quote :: (text ++ [quote])) (colon :: input) := by
  refine .cons_quote (fun key other reads => ?_)
    (literal.membersIn_tail separating fun byte head => ?_)
  · rw [List.append_assoc] at reads
    rcases literal.key valueRead ended reads with ⟨rfl, rfl⟩
    exact isGood
  · cases head
    exact .inr (.inl rfl)

end Literals

/-- Every member of an object in the value is good, at any depth. -/
inductive Within (good : CString → Json → Prop) : Json → Prop
  | null : Within good .null
  | bool (value : Bool) : Within good (.bool value)
  | number (value : Decimal) : Within good (.number value)
  | string (value : CString) : Within good (.string value)
  | array {items : List Json} (items_within : ∀ item ∈ items, Within good item) :
      Within good (.array items)
  | object {members : List (CString × Json)}
      (members_good : ∀ member ∈ members, good member.1 member.2)
      (members_within : ∀ member ∈ members, Within good member.2) :
      Within good (.object members)

theorem quote_not_mem_numberText (value : Decimal) :
    quote ∉ numberText value := by
  have digits : ∀ number : Int, quote ∉ intText number := by
    intro number member
    have isDigit : ∀ byte ∈ natText number.natAbs, byte ≠ quote := by
      rintro byte inDigits rfl
      cases natText_isDigit number.natAbs quote inDigits
    have notSign : quote ≠ 45 := nofun
    unfold intText at member
    split_ifs at member
    · rcases List.mem_cons.mp member with sign | digit
      · exact notSign sign
      · exact isDigit quote digit rfl
    · exact isDigit quote member rfl
  have notMark : quote ≠ 101 := nofun
  unfold numberText
  split_ifs
  · exact digits value.mantissa
  · rw [List.mem_append, List.mem_cons]
    exact not_or.mpr
      ⟨digits value.mantissa, not_or.mpr ⟨notMark, digits value.exponent⟩⟩

theorem printMembers_ne_nil (members : List (CString × Json)) :
    printMembers members ≠ [] := by
  cases members with
  | nil => exact List.cons_ne_nil _ _
  | cons member rest => exact List.cons_ne_nil _ _

section Printed

variable (printable : ∀ byte, 32 ≤ byte → raw byte = true)
  (separating : ∀ key value, Separating key → good key value)
include printable separating

theorem membersIn_stringText (text : CString) {rest : Bytes}
    (delimited : Delimited rest) :
    MembersIn raw good (stringText text) rest :=
  (literal_escaped printable text.bytes).membersIn_value separating delimited

/-- A member whose value gives good members, with more of the text behind it. -/
theorem membersIn_member {key : CString} {value : Json} {tail rest : Bytes}
    (isGood : good key value) (nonempty : tail ≠ [])
    (delimited : Delimited (tail ++ rest))
    (inValue : MembersIn raw good (print value) (tail ++ rest))
    (inTail : MembersIn raw good tail rest) :
    MembersIn raw good (stringText key ++ colon :: (print value ++ tail))
      rest := by
  have valueRead :=
    (readsBack printable (size value)).value value (tail ++ rest) le_rfl
      delimited
  have ended : Ended value (tail ++ rest) :=
    .inl (List.append_ne_nil_of_left_ne_nil nonempty rest)
  have isKey : good (CString.ofBuffer key.bytes) value := by
    rwa [CString.ofBuffer_bytes]
  have notQuote : colon ≠ quote := nofun
  refine .append ?_ (.cons notQuote (inValue.append inTail))
  rw [List.cons_append, List.append_assoc]
  exact (literal_escaped printable key.bytes).membersIn_key separating
    valueRead ended isKey

set_option linter.unusedSectionVars false in
mutual

/-- A printed value gives no other members than it has. -/
theorem membersIn_print :
    ∀ value : Json, Within good value → ∀ rest, Delimited rest →
      MembersIn raw good (print value) rest
  | .null, _, rest, _ => membersIn_of_not_mem (by decide) rest
  | .bool true, _, rest, _ => membersIn_of_not_mem (by decide) rest
  | .bool false, _, rest, _ => membersIn_of_not_mem (by decide) rest
  | .number value, _, rest, _ => by
      rw [print]
      exact membersIn_of_not_mem (quote_not_mem_numberText value) rest
  | .string text, _, rest, delimited => by
      rw [print]
      exact membersIn_stringText printable separating text delimited
  | .array [], _, rest, _ => membersIn_of_not_mem (by decide) rest
  | .array (item :: items), .array within, rest, _ => by
      rcases List.forall_mem_cons.mp within with ⟨itemWithin, itemsWithin⟩
      have notQuote : openBracket ≠ quote := nofun
      have delimited := delimited_printItems items rest
      rw [print]
      exact .cons notQuote
        ((membersIn_print item itemWithin _ delimited).append
          (membersIn_printItems items itemsWithin rest))
  | .object [], _, rest, _ => membersIn_of_not_mem (by decide) rest
  | .object ((key, value) :: members), .object allGood within, rest, _ => by
      rcases List.forall_mem_cons.mp allGood with ⟨isGood, othersGood⟩
      rcases List.forall_mem_cons.mp within with ⟨valueWithin, othersWithin⟩
      have notQuote : openBrace ≠ quote := nofun
      have delimited := delimited_printMembers members rest
      rw [print]
      exact .cons notQuote
        (membersIn_member printable separating isGood
          (printMembers_ne_nil members) delimited
          (membersIn_print value valueWithin _ delimited)
          (membersIn_printMembers members othersGood othersWithin rest))

theorem membersIn_printItems :
    ∀ items : List Json, (∀ item ∈ items, Within good item) → ∀ rest,
      MembersIn raw good (printItems items) rest
  | [], _, rest => membersIn_of_not_mem (by decide) rest
  | item :: items, within, rest => by
      rcases List.forall_mem_cons.mp within with ⟨itemWithin, itemsWithin⟩
      have notQuote : comma ≠ quote := nofun
      have delimited := delimited_printItems items rest
      rw [printItems]
      exact .cons notQuote
        ((membersIn_print item itemWithin _ delimited).append
          (membersIn_printItems items itemsWithin rest))

theorem membersIn_printMembers :
    ∀ members : List (CString × Json),
      (∀ member ∈ members, good member.1 member.2) →
        (∀ member ∈ members, Within good member.2) → ∀ rest,
          MembersIn raw good (printMembers members) rest
  | [], _, _, rest => membersIn_of_not_mem (by decide) rest
  | (key, value) :: members, allGood, within, rest => by
      rcases List.forall_mem_cons.mp allGood with ⟨isGood, othersGood⟩
      rcases List.forall_mem_cons.mp within with ⟨valueWithin, othersWithin⟩
      have notQuote : comma ≠ quote := nofun
      have delimited := delimited_printMembers members rest
      rw [printMembers]
      exact .cons notQuote
        (membersIn_member printable separating isGood
          (printMembers_ne_nil members) delimited
          (membersIn_print value valueWithin _ delimited)
          (membersIn_printMembers members othersGood othersWithin rest))

end

/-- Behind the first quote of an object there are its other members. -/
theorem membersIn_object {key : CString} {value : Json}
    {members : List (CString × Json)} (valueWithin : Within good value)
    (othersGood : ∀ member ∈ members, good member.1 member.2)
    (othersWithin : ∀ member ∈ members, Within good member.2) :
    MembersIn raw good ((print (.object ((key, value) :: members))).drop 2)
      [] := by
  have text : (print (.object ((key, value) :: members))).drop 2 =
      (key.bytes.flatMap escapeByte ++ [quote]) ++
        colon :: (print value ++ printMembers members) := by
    rw [print]
    simp [stringText]
  have notQuote : colon ≠ quote := by decide
  have isColon : ∀ byte ∈
      (colon :: (print value ++ printMembers members) ++ []).head?,
        Separates byte := by
    intro byte head
    cases head
    exact .inr (.inl rfl)
  rw [text]
  exact ((literal_escaped printable key.bytes).membersIn_tail separating
    isColon).append
      (.cons notQuote
        ((membersIn_print printable separating value valueWithin _
          (delimited_printMembers members [])).append
            (membersIn_printMembers printable separating members othersGood
              othersWithin [])))

end Printed

/-! ## Objects in the middle of a text -/

/-- Each member was read behind a quote that is not escaped. -/
theorem reads_of_parseMembers {fuel : Nat} {input rest : Bytes}
    {members : List (CString × Json)}
    (parsed : parseMembers raw fuel input = some (members, rest)) :
    ∀ member ∈ members, ∃ before behind, input = before ++ quote :: behind ∧
      before.getLast? ≠ some backslash ∧
      ReadsMember raw behind member.1 member.2 := by
  induction fuel generalizing input members with
  | zero => cases parsed
  | succ fuel ih =>
      rcases parseMembers_succ parsed with
        ⟨afterQuote, key, afterKey, beforeValue, value, afterValue, next,
          following, start, keyRead, colons, valueRead, ends, continued⟩
      have ended : Ended value afterValue := by
        refine .inl ?_
        rintro rfl
        cases ends
      have first : ∃ before behind, input = before ++ quote :: behind ∧
          before.getLast? ≠ some backslash ∧
          ReadsMember raw behind (CString.ofBuffer key) value := by
        refine ⟨input.takeWhile isBlank, afterQuote, ?_, ?_,
          .intro keyRead colons valueRead ended⟩
        · rw [← start]
          exact List.takeWhile_append_dropWhile.symm
        · intro last
          have blank := List.mem_takeWhile_imp (List.mem_of_getLast? last)
          cases blank
      rcases continued with ⟨rfl, later, laterRead, rfl⟩ | ⟨_, _, rfl⟩
      · rcases (suffix_of_skipBlanks_cons ends).trans
            (((leavesSuffix raw fuel).value _ _ _ valueRead).trans
              ((List.suffix_cons _ _).trans
                ((suffix_of_skipBlanks_cons colons).trans
                  ((parseString_consumes keyRead).1.trans
                    ((List.suffix_cons _ _).trans
                      (suffix_of_skipBlanks_cons start)))))) with
          ⟨earlier, whole⟩
        refine List.forall_mem_cons.mpr ⟨first, fun member present => ?_⟩
        rcases ih laterRead member present with
          ⟨before, behind, rfl, unescaped, reads⟩
        refine ⟨earlier ++ comma :: before, behind, by simp [← whole], ?_,
          reads⟩
        rw [List.getLast?_append, List.getLast?_cons]
        cases last : before.getLast? with
        | none => exact nofun
        | some byte =>
            rw [last] at unescaped
            exact unescaped
      · exact List.forall_mem_singleton.mpr first

/--
If whatever is read behind the second byte of a text is good, then so are the
members of an object that is read from the middle of that text.
-/
theorem good_of_part {text before part after : Bytes}
    (membersIn : MembersIn raw good (text.drop 2) [])
    (split : text = before ++ part ++ after) (inside : before ≠ [])
    {fuel : Nat} {members : List (CString × Json)} {rest : Bytes}
    (parsed : parseValue raw fuel part = some (.object members, rest)) :
    ∀ member ∈ members, good member.1 member.2 := by
  rcases brace_of_object parsed with ⟨tail, start, rfl | ⟨fuel, read⟩⟩
  · exact List.forall_mem_nil _
  · intro member present
    rcases reads_of_parseMembers read member present with
      ⟨earlier, behind, rfl, unescaped, reads⟩
    rcases suffix_of_skipBlanks_cons start with ⟨blanks, rfl⟩
    have long : 2 ≤ (before ++ (blanks ++ openBrace :: earlier)).length := by
      have positive := List.length_pos_iff.mpr inside
      simp only [List.length_append, List.length_cons]
      omega
    refine membersIn
      ((before ++ (blanks ++ openBrace :: earlier)).drop 2) (behind ++ after)
      ?_ ?_ member.1 member.2 ?_
    · rw [← List.drop_append_of_le_length long, split]
      simp
    · rw [List.getLast?_drop]
      split_ifs
      · exact nofun
      · rw [List.getLast?_append, List.getLast?_append, List.getLast?_cons]
        cases last : earlier.getLast? with
        | none => exact nofun
        | some byte =>
            rw [last] at unescaped
            exact unescaped
    · rw [List.append_nil]
      exact reads.more after

end Members

end SmartFridge.Library.Json
