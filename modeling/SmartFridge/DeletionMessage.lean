import SmartFridge.Library.JsonConsumption
import SmartFridge.Reader

/-!
# The deletion message

The reader formats a code into REMOVE_MSG without escaping it, and the buffer
keeps 99 bytes.  The message is the JSON text of that code exactly when the
code fits and stands for itself between quotes.
-/

namespace SmartFridge.DeletionMessage

open SmartFridge.Library
open SmartFridge.Library.Json
open SmartFridge.CJson
open SmartFridge.ProductDecoder
open SmartFridge.Reader

/-- The name of the first member. -/
def codeName : Bytes := [99, 111, 100, 101]

/-- What REMOVE_MSG has behind the quote that ends the code. -/
def ending : Bytes :=
  [44, 34, 114, 101, 109, 111, 118, 101, 34, 58, 34, 121, 101, 115, 34, 125]

/-- What the buffer keeps of the message behind the quote before the code. -/
def body (code : CString) : Bytes :=
  (code.bytes ++ quote :: ending).take 90

theorem removeMsg_bytes (code : CString) :
    (removeMsg code).bytes =
      openBrace :: quote :: (codeName ++ quote :: colon :: quote ::
        body code) := by
  have start : (CString.lit "\x7b\"code\":\"").bytes =
      openBrace :: quote :: (codeName ++ [quote, colon, quote]) := by
    decide
  have finish : (CString.lit "\",\"remove\":\"yes\"\x7d").bytes =
      quote :: ending := by
    decide
  simp only [removeMsg, CString.snprintf, CString.bytes_append, start, finish]
  rfl

/-- A code that is not too long is followed by its quote. -/
theorem body_of_lt {code : CString} (short : code.bytes.length < 90) :
    body code =
      code.bytes ++ quote :: ending.take (89 - code.bytes.length) := by
  have room : 90 - code.bytes.length = 89 - code.bytes.length + 1 := by omega
  rw [body, List.take_append, List.take_of_length_le short.le, room,
    List.take_succ_cons]

theorem body_of_ge {code : CString} (long : 90 ≤ code.bytes.length) :
    body code = code.bytes.take 90 := by
  rw [body, List.take_append_of_le_length long]

/-- The brace at the end is kept only if all of the message is. -/
theorem closed_ending : ∀ kept, kept < 16 → closeBrace ∉ ending.take kept := by
  decide

theorem body_of_fits {code : CString} (fits : code.bytes.length ≤ 73) :
    body code = code.bytes ++ quote :: ending := by
  have whole : ending.length ≤ 89 - code.bytes.length := by
    simp only [ending, List.length_cons, List.length_nil]
    omega
  rw [body_of_lt (by omega), List.take_of_length_le whole]

/-- The name of the member behind the code. -/
def removeName : Bytes := [114, 101, 109, 111, 118, 101]

/-- Its text. -/
def yes : Bytes := [121, 101, 115]

theorem ending_eq :
    ending =
      comma :: quote ::
        (removeName ++ quote :: colon :: quote ::
          (yes ++ quote :: closeBrace :: [])) :=
  rfl

/-- The message of a code in a buffer that is large enough. -/
def uncut (code : CString) : Bytes :=
  openBrace :: quote :: (codeName ++ quote :: colon :: quote ::
    (code.bytes ++ quote :: ending))

/-- The object that the message is written for. -/
def removal (code : CString) : Members :=
  [(jsonProductCode, .string code), (jsonRemove, .string (.lit "yes"))]

/--
The parser reads the deletion messages of the codes that fit in one and stay as
they are in a string.
-/
def ReadsRemovals (raw : UInt8 → Bool) (parse : CString → Option Json) : Prop :=
  ∀ code : CString, code.bytes.length ≤ 73 →
    (∀ byte ∈ code.bytes, Plain raw byte) →
      parse (removeMsg code) = some (.object (removal code))

theorem removeMsg_begins (code : CString) :
    (removeMsg code).bytes <+: uncut code := by
  rw [removeMsg_bytes, uncut, List.prefix_cons_inj, List.prefix_cons_inj,
    List.prefix_append_right_inj, List.prefix_cons_inj, List.prefix_cons_inj,
    List.prefix_cons_inj]
  exact List.take_prefix _ _

theorem removeMsg_of_fits {code : CString} (fits : code.bytes.length ≤ 73) :
    (removeMsg code).bytes = uncut code := by
  rw [removeMsg_bytes, body_of_fits fits, uncut]

/-! ## What a decoded message says about its code -/

section Decoded

variable {raw : UInt8 → Bool} (printable : ∀ byte, 32 ≤ byte → raw byte = true)

include printable

theorem printable_plain {text : Bytes}
    (written :
      (text.all fun byte => 32 ≤ byte ∧ byte ≠ quote ∧ byte ≠ backslash) =
        true) :
    ∀ byte ∈ text, Plain raw byte := by
  intro byte member
  have isWritten := of_decide_eq_true (List.all_eq_true.mp written byte member)
  exact ⟨printable byte isWritten.1, isWritten.2⟩

theorem codeName_plain : ∀ byte ∈ codeName, Plain raw byte :=
  printable_plain printable rfl

/-- The code is read from behind its quote, and the object goes on. -/
theorem read_of_parsed {code : CString} {message : Json}
    (parsed : parse raw (removeMsg code) = some message) :
    ∃ fuel decoded left next following,
      parseString raw fuel (body code) = some (decoded, left) ∧
        skipBlanks left = next :: following ∧
        (next = comma ∨ next = closeBrace) ∧ closeBrace ∈ left ∧
        getObjectItem (some message) jsonProductCode =
          some (.string (CString.ofBuffer decoded)) := by
  rcases Option.map_eq_some_iff.mp parsed with ⟨⟨value, rest⟩, read, rfl⟩
  have open_ : isBlank openBrace = false := by decide
  have quoted : isBlank quote = false := by decide
  have colons : isBlank colon = false := by decide
  rw [removeMsg_bytes, parseValue, skipBlanks_cons open_] at read
  have notQuote : openBrace ≠ quote := by decide
  have notBracket : openBrace ≠ openBracket := by decide
  have notBrace : quote ≠ closeBrace := by decide
  simp only [if_neg notQuote, if_neg notBracket, if_true,
    skipBlanks_cons quoted, List.head?_cons, Option.some.injEq,
    if_neg notBrace] at read
  rcases Option.map_eq_some_iff.mp read with ⟨⟨members, left⟩, object, equal⟩
  cases equal
  rw [List.length_cons] at object
  rcases parseMembers_succ object with
    ⟨afterQuote, key, afterKey, beforeValue, value, afterValue, next, following,
      start, keyRead, colonRead, valueRead, ends, continued⟩
  rw [skipBlanks_cons quoted] at start
  rcases List.cons_eq_cons.mp start with ⟨_, rfl⟩
  rw [parseString_plain (codeName_plain printable) _ (by
    simp only [codeName, List.length_cons, List.length_append]
    omega)] at keyRead
  cases keyRead
  rw [skipBlanks_cons colons] at colonRead
  rcases List.cons_eq_cons.mp colonRead with ⟨_, rfl⟩
  rw [List.length_cons, parseValue, skipBlanks_cons quoted] at valueRead
  simp only [if_true] at valueRead
  rcases Option.map_eq_some_iff.mp valueRead with
    ⟨⟨decoded, remaining⟩, stringRead, produced⟩
  cases produced
  have nextWithin := (suffix_of_skipBlanks_cons ends).subset List.mem_cons_self
  have within :=
    ((List.suffix_cons next following).trans
      (suffix_of_skipBlanks_cons ends)).subset
  have named : jsonProductCode.caseEq (CString.ofBuffer codeName) = true := by
    decide
  rcases continued with ⟨rfl, later, laterRead, rfl⟩ | ⟨rfl, _, rfl⟩
  · exact
      ⟨_, decoded, remaining, comma, following, stringRead, ends, .inl rfl,
        within ((leavesSuffix raw _).members _ _ _ laterRead).2,
        by simp [findMember, named]⟩
  · exact
      ⟨_, decoded, remaining, closeBrace, following, stringRead, ends, .inr rfl,
        nextWithin, by simp [findMember, named]⟩

/-- A quote that is swallowed by the code makes the next member unreadable. -/
theorem swallowed_quote
    {kept fuel : Nat} {decoded left following : Bytes} {next : UInt8}
    (read :
      parseString raw fuel (ending.take kept) = some (decoded, left))
    (ends : skipBlanks left = next :: following)
    (goes : next = comma ∨ next = closeBrace) : False := by
  have noLetter : (114 : UInt8) ≠ comma ∧ (114 : UInt8) ≠ closeBrace := by
    decide
  have notBlank : isBlank 114 = false := by decide
  have plain : Plain raw comma :=
    ⟨printable comma (by decide), by decide, by decide⟩
  match kept, fuel with
  | 0, _ => cases (parseString_consumes read).2
  | _ + 1, 0 => cases read
  | 1, fuel + 1 =>
      rw [show ending.take 1 = [comma] from rfl,
        parseString_plain_cons plain] at read
      rcases Option.map_eq_some_iff.mp read with ⟨⟨later, _⟩, empty, _⟩
      cases (parseString_consumes empty).2
  | kept + 2, 1 =>
      rw [show ending.take (kept + 2) = comma :: quote :: (ending.drop 2).take kept
        from rfl, parseString_plain_cons plain] at read
      cases read
  | kept + 2, fuel + 2 =>
      rw [show ending.take (kept + 2) = comma :: quote :: (ending.drop 2).take kept
        from rfl, parseString_plain_cons plain, parseString_quote] at read
      cases read
      cases kept with
      | zero => cases ends
      | succ more =>
          rw [show (ending.drop 2).take (more + 1) =
            114 :: (ending.drop 3).take more from rfl,
            skipBlanks_cons notBlank] at ends
          rcases List.cons_eq_cons.mp ends with ⟨rfl, _⟩
          exact goes.elim noLetter.1 noLetter.2

/-- Only a code that fits and is plain is read back. -/
theorem plain_of_read {code : CString}
    {fuel : Nat} {decoded left following : Bytes} {next : UInt8}
    (read : parseString raw fuel (body code) = some (decoded, left))
    (same : CString.ofBuffer decoded = code)
    (ends : skipBlanks left = next :: following)
    (goes : next = comma ∨ next = closeBrace)
    (closed : closeBrace ∈ left) :
    code.bytes.length ≤ 73 ∧ ∀ byte ∈ code.bytes, Plain raw byte := by
  have covered : code.bytes.length ≤ decoded.length := by
    rw [← same]
    exact CString.ofBuffer_length_le decoded
  by_cases short : code.bytes.length < 90
  · rw [body_of_lt short] at read
    rcases parseString_past_quote read with
      inside | ⟨rfl, within, exact_⟩ | ⟨fuel', later, beyond⟩
    · exact absurd covered inside.not_ge
    · rcases exact_ (le_antisymm within covered) with ⟨_, plain⟩
      have kept : 16 ≤ 89 - code.bytes.length := by
        by_contra cut
        exact closed_ending _ (Nat.lt_of_not_le cut) closed
      exact ⟨by omega, plain⟩
    · exact (swallowed_quote printable beyond ends goes).elim
  · have long : 90 ≤ code.bytes.length := Nat.le_of_not_lt short
    have shorter := (parseString_consumes read).2
    rw [body_of_ge long, List.length_take, min_eq_left long] at shorter
    omega

/-- A plain code is read back, with the mark of the removal. -/
theorem parseValue_uncut {code : CString}
    (plain : ∀ byte ∈ code.bytes, Plain raw byte) :
    parseValue raw ((uncut code).length + 1) (uncut code) =
      some (.object (removal code), []) := by
  have namePlain := codeName_plain printable
  have removePlain : ∀ byte ∈ removeName, Plain raw byte :=
    printable_plain printable rfl
  have yesPlain : ∀ byte ∈ yes, Plain raw byte :=
    printable_plain printable rfl
  have length : (uncut code).length = code.bytes.length + 26 := by
    simp [uncut, codeName, ending]
  have second :=
    parseMembers_plain_last removePlain yesPlain
      (show removeName.length ≤ code.bytes.length + 23 by
        simp only [removeName, List.length_cons, List.length_nil]
        omega)
      (show yes.length < code.bytes.length + 23 by
        simp only [yes, List.length_cons, List.length_nil]
        omega) []
  have first :=
    parseMembers_plain_comma namePlain plain
      (show codeName.length ≤ code.bytes.length + 24 by
        simp only [codeName, List.length_cons, List.length_nil]
        omega)
      (show code.bytes.length < code.bytes.length + 24 by omega)
      (quote :: (removeName ++ quote :: colon :: quote ::
        (yes ++ quote :: closeBrace :: [])))
  have notQuote : openBrace ≠ quote := by decide
  have notBracket : openBrace ≠ openBracket := by decide
  have notBrace : quote ≠ closeBrace := by decide
  rw [length, uncut, ending_eq, parseValue, skipBlanks_cons (by decide)]
  simp only [if_neg notQuote, if_neg notBracket, if_true,
    skipBlanks_cons (show isBlank quote = false by decide), List.head?_cons,
    Option.some.injEq, if_neg notBrace]
  rw [first, second]
  have codeKey : CString.ofBuffer codeName = jsonProductCode := by decide
  have removeKey : CString.ofBuffer removeName = jsonRemove := by decide
  have yesText : CString.ofBuffer yes = .lit "yes" := by decide
  simp only [Option.map_some, CString.ofBuffer_bytes, codeKey, removeKey,
    yesText, removal]

theorem parse_removeMsg {code : CString} (fits : code.bytes.length ≤ 73)
    (plain : ∀ byte ∈ code.bytes, Plain raw byte) :
    parse raw (removeMsg code) = some (.object (removal code)) := by
  rw [parse, removeMsg_of_fits fits, parseValue_uncut printable plain]
  rfl

/-- The parser reads the deletion messages of such codes. -/
theorem readsRemovals_json : ReadsRemovals raw (parse raw) :=
  fun _ fits plain => parse_removeMsg printable fits plain

omit printable in
/-- A code comes out of a deletion message that is read. -/
theorem decoded_of_parsed {parse : CString → Option Json} {code : CString}
    (nonempty : code ≠ CString.empty)
    (parsed : parse (removeMsg code) = some (.object (removal code))) :
    sfPrDecoder parse (removeMsg code) =
      some (deletionReq, some { Product.zero with code := some code }) := by
  apply outcome_eq_decoded.mpr
  apply prDecoding_eq_ok.mpr
  refine
    ⟨_, parsed, .inr ⟨rfl, some code, ⟨code, ?_, ?_⟩,
      ⟨.string (.lit "yes"), ?_⟩, rfl⟩⟩
  · simp +decide [findMember, removal]
  · rw [nullIfEmpty, if_neg nonempty]
  · simp +decide [findMember, removal]

/-- A code that fits and stays as it is comes out of its deletion message. -/
theorem decoded_removeMsg {code : CString} (nonempty : code ≠ CString.empty)
    (fits : code.bytes.length ≤ 73)
    (plain : ∀ byte ∈ code.bytes, Plain raw byte) :
    sfPrDecoder (parse raw) (removeMsg code) =
      some (deletionReq, some { Product.zero with code := some code }) :=
  decoded_of_parsed nonempty (parse_removeMsg printable fits plain)

/-- A code that comes out of its deletion message fits and stays as it is. -/
theorem plain_of_decoded {code : CString} {product : Product}
    (decoded :
      sfPrDecoder (parse raw) (removeMsg code) =
        some (deletionReq, some product))
    (sameCode : product.code = some code) :
    code.bytes.length ≤ 73 ∧ ∀ byte ∈ code.bytes, Plain raw byte := by
  rcases prDecoding_eq_ok.mp (outcome_eq_decoded.mp decoded) with
    ⟨message, parsed, ⟨impossible, _⟩ | ⟨_, removal⟩⟩
  · cases impossible
  · rcases removal with ⟨_, ⟨text, found, rfl⟩, _, rfl⟩
    rcases read_of_parsed printable parsed with
      ⟨fuel, bytes, left, next, following, read, ends, goes, closed, member⟩
    have textEq : text = CString.ofBuffer bytes :=
      Json.string.inj (Option.some.inj (found.symm.trans member))
    have kept : nullIfEmpty text = some code := sameCode
    have textCode : text = code := by
      unfold nullIfEmpty at kept
      split at kept
      · cases kept
      · exact Option.some.inj kept
    exact plain_of_read printable read (textEq.symm.trans textCode) ends goes
      closed

/--
The database reads the code out of the deletion message exactly if the code
has at most 73 bytes and each of them may stand unescaped in a string.
-/
theorem deletion_roundTrip_iff {code : CString} (nonempty : code ≠ CString.empty) :
    (∃ product,
        sfPrDecoder (parse raw) (removeMsg code) =
            some (deletionReq, some product) ∧
          product.code = some code) ↔
      code.bytes.length ≤ 73 ∧ ∀ byte ∈ code.bytes, Plain raw byte := by
  constructor
  · rintro ⟨product, decoded, sameCode⟩
    exact plain_of_decoded printable decoded sameCode
  · rintro ⟨fits, plain⟩
    exact ⟨_, decoded_removeMsg printable nonempty fits plain, rfl⟩

end Decoded

theorem deletion_roundTrip_iff_barcode :
    (∃ product,
        sfPrDecoder (parse standardRaw) (removeMsg (.lit "8480017439482")) =
            some (deletionReq, some product) ∧
          product.code = some (.lit "8480017439482")) ↔
      (CString.lit "8480017439482").bytes.length ≤ 73 ∧
        ∀ byte ∈ (CString.lit "8480017439482").bytes, Plain standardRaw byte :=
  deletion_roundTrip_iff standardRaw_printable (by decide)

/-- A code with a quote in it does not come back. -/
theorem deletion_fails_for_quote :
    ¬ ∀ code : CString, code ≠ CString.empty →
        ∃ product,
          sfPrDecoder (parse standardRaw) (removeMsg code) =
              some (deletionReq, some product) ∧
            product.code = some code := by
  intro always
  rcases always (.lit "\"") (by decide) with ⟨product, decoded, sameCode⟩
  have plain :=
    (plain_of_decoded standardRaw_printable decoded sameCode).2
  exact (plain quote (by decide)).2.1 rfl

end SmartFridge.DeletionMessage
