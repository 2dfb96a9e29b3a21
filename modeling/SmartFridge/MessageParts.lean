import SmartFridge.DeletionMessage
import SmartFridge.Library.JsonInfix
import SmartFridge.StringReads

/-!
# Parts of a message

What the product decoder makes of a part of one of the reader's messages: no
product.  A beginning is not a JSON text, and an object inside of the message
never has the members that the decoder asks for, since none but the first
member of an addition is its name and none but the first of a removal its code.
-/

namespace SmartFridge.MessageParts

open SmartFridge.Library
open SmartFridge.Library.Json
open SmartFridge.CJson
open SmartFridge.ProductDecoder
open SmartFridge.ProductRoundTrip
open SmartFridge.DeletionMessage
open SmartFridge.StringReads
open SmartFridge.Reader

/-- The decoder leaves a text without a product and without a fault. -/
def Idle (parse : CString → Option Json) (text : CString) : Prop :=
  ∃ result, sfPrDecoder parse text = some (result, none)

/-- No part of the text but the whole of it gives a product. -/
def Indivisible (parse : CString → Option Json) (text : CString) : Prop :=
  ∀ (before : Bytes) (part : CString) (after : Bytes),
    text.bytes = before ++ part.bytes ++ after →
      before ≠ [] ∨ after ≠ [] → Idle parse part

/-- An object that the parser takes from a part of the text is written there. -/
def ReadsObjects (raw : UInt8 → Bool) (parse : CString → Option Json)
    (text : CString) : Prop :=
  ∀ (part : CString) (members : Members), part.bytes <:+: text.bytes →
    parse part = some (.object members) →
      Json.parse raw part = some (.object members)

theorem readsObjects_json (raw : UInt8 → Bool) (text : CString) :
    ReadsObjects raw (Json.parse raw) text :=
  fun _ _ _ parsed => parsed

/-! ## What the decoder does not take -/

section Idle

variable {parse : CString → Option Json} {text : CString}

theorem idle_of_unparsed (parsed : parse text = none) : Idle parse text := by
  have left : prDecoding parse text = .error (.exit invFormat) := by
    rw [prDecoding, parsed]
  exact ⟨invFormat, by rw [sfPrDecoder, left]; rfl⟩

theorem idle_of_codeless {value : Json} (parsed : parse text = some value)
    (missing : getObjectItem (some value) jsonProductCode = none) :
    Idle parse text := by
  have left : prDecoding parse text = .error (.exit unexFields) := by
    simp only [prDecoding, parsed, readCode, readText, requireItem, missing]
    rfl
  exact ⟨unexFields, by rw [sfPrDecoder, left]; rfl⟩

theorem idle_of_not_object {value : Json} (parsed : parse text = some value)
    (notObject : ∀ members, value ≠ .object members) : Idle parse text := by
  apply idle_of_codeless parsed
  cases value with
  | object members => exact absurd rfl (notObject members)
  | null => rfl
  | bool _ => rfl
  | number _ => rfl
  | string _ => rfl
  | array _ => rfl

theorem idle_of_nameless {value : Json} {code : CString}
    (parsed : parse text = some value)
    (coded : getObjectItem (some value) jsonProductCode = some (.string code))
    (kept : getObjectItem (some value) jsonRemove = none)
    (missing : getObjectItem (some value) jsonName = none) :
    Idle parse text := by
  have left : prDecoding parse text = .error (.exit unexFields) := by
    simp only [prDecoding, parsed, readCode, readText, readName, requireItem,
      coded, kept, missing]
    rfl
  exact ⟨unexFields, by rw [sfPrDecoder, left]; rfl⟩

end Idle

/-- A member is looked up under one of the names that it has. -/
theorem findMember_eq_some {members : Members} {name : CString} {value : Json}
    (found : findMember members name = some value) :
    ∃ member ∈ members, name.caseEq member.1 = true ∧ member.2 = value := by
  rcases Option.map_eq_some_iff.mp found with ⟨member, first, rfl⟩
  have same : name.caseEq member.1 = true := by
    simpa using List.find?_some first
  exact ⟨member, List.mem_of_find?_eq_some first, same, rfl⟩

theorem findMember_eq_none {members : Members} {name : CString}
    (absent : ∀ member ∈ members, name.caseEq member.1 = false) :
    findMember members name = none := by
  cases found : findMember members name with
  | none => rfl
  | some value =>
      rcases findMember_eq_some found with ⟨member, present, same, _⟩
      cases (absent member present).symm.trans same

/-- A member that an object may have next to the name of an addition. -/
structure Nameless (key : CString) (value : Json) : Prop where
  notName : jsonName.caseEq key = false
  notRemove : jsonRemove.caseEq key = false
  code : jsonProductCode.caseEq key = true → ∃ text, value = .string text

/-- A member that an object may have next to the code of a removal. -/
def Codeless (key : CString) (_ : Json) : Prop :=
  jsonProductCode.caseEq key = false

theorem idle_of_codeless_members {parse : CString → Option Json}
    {text : CString} {members : Members}
    (parsed : parse text = some (.object members))
    (codeless : ∀ member ∈ members, Codeless member.1 member.2) :
    Idle parse text :=
  idle_of_codeless parsed (findMember_eq_none codeless)

theorem idle_of_nameless_members {parse : CString → Option Json}
    {text : CString} {members : Members}
    (parsed : parse text = some (.object members))
    (nameless : ∀ member ∈ members, Nameless member.1 member.2) :
    Idle parse text := by
  cases coded : findMember members jsonProductCode with
  | none => exact idle_of_codeless parsed coded
  | some value =>
      rcases findMember_eq_some coded with ⟨member, present, same, rfl⟩
      rcases (nameless member present).code same with ⟨code, isString⟩
      exact idle_of_nameless parsed (isString ▸ coded)
        (findMember_eq_none fun other within => (nameless other within).notRemove)
        (findMember_eq_none fun other within => (nameless other within).notName)

/-- A name does not begin like what follows a string. -/
theorem caseEq_of_separating {name key : CString}
    (apart : ([comma, colon, closeBracket, closeBrace].all fun byte =>
      (name.bytes.map CString.toLower).head? ≠ some (CString.toLower byte)) =
        true)
    (separating : Separating key) : name.caseEq key = false := by
  rcases separating with ⟨byte, isHead, separates⟩
  have listed : byte ∈ [comma, colon, closeBracket, closeBrace] := by
    simpa [Separates] using separates
  rw [CString.caseEq, decide_eq_false_iff_not]
  intro same
  apply of_decide_eq_true (List.all_eq_true.mp apart byte listed)
  rw [same, List.head?_map, isHead]
  rfl

theorem codeless_of_separating (key : CString) (value : Json)
    (separating : Separating key) : Codeless key value :=
  caseEq_of_separating (by decide) separating

theorem nameless_of_separating (key : CString) (value : Json)
    (separating : Separating key) : Nameless key value where
  notName := caseEq_of_separating (by decide) separating
  notRemove := caseEq_of_separating (by decide) separating
  code same := by
    cases (codeless_of_separating key value separating).symm.trans same

/-! ## The parts of a text -/

/--
A beginning of an object's text is indivisible if nothing can be read inside of
it that the decoder would take.
-/
theorem indivisible_of_membersIn {raw : UInt8 → Bool}
    {parse : CString → Option Json} {text : CString}
    (objects : ReadsObjects raw parse text)
    {good : CString → Json → Prop} {fuel : Nat} {full : Bytes}
    {members : Members}
    (whole : parseValue raw fuel full = some (.object members, []))
    (membersIn : MembersIn raw good (full.drop 2) [])
    (idle : ∀ part found, parse part = some (.object found) →
      (∀ member ∈ found, good member.1 member.2) → Idle parse part)
    (begins : text.bytes <+: full) : Indivisible parse text := by
  intro before part after split proper
  rcases begins with ⟨more, rfl⟩
  have longer : text.bytes ++ more = before ++ part.bytes ++ (after ++ more) := by
    rw [split, List.append_assoc]
  cases parsed : parse part with
  | none => exact idle_of_unparsed parsed
  | some value =>
      by_cases isObject : ∃ found, value = .object found
      · rcases isObject with ⟨found, rfl⟩
        have written := objects part found ⟨before, after, split.symm⟩ parsed
        rcases Option.map_eq_some_iff.mp written with ⟨⟨_, rest⟩, read, rfl⟩
        by_cases inside : before = []
        · have remains : after ++ more ≠ [] :=
            List.append_ne_nil_of_left_ne_nil
              (proper.resolve_left fun left => left inside) more
          rw [longer, inside, List.nil_append] at whole
          cases (parseValue_beginning whole remains).symm.trans read
        · exact idle part _ parsed (good_of_part membersIn longer inside read)
      · exact idle_of_not_object parsed (not_exists.mp isObject)

/-! ## The two kinds of messages -/

/-- Members without a name behind the first one. -/
structure NamelessTail (first : CString × Json) (members : Members) : Prop where
  split : ∃ others, members = first :: others ∧
    ∀ member ∈ others, Nameless member.1 member.2 ∧ Within Nameless member.2

theorem NamelessTail.addItem {first : CString × Json} {members : Members}
    (tail : NamelessTail first members) {name : CString} {item : Json}
    (nameless : Nameless name item) (within : Within Nameless item) :
    NamelessTail first (addItemToObject members name (some item)) := by
  rcases tail with ⟨others, rfl, held⟩
  refine ⟨others ++ [(name, item)], rfl, fun member present => ?_⟩
  rcases List.mem_append.mp present with old | new
  · exact held member old
  · rw [List.mem_singleton.mp new]
    exact ⟨nameless, within⟩

theorem NamelessTail.addString {first : CString × Json} {members : Members}
    (tail : NamelessTail first members) {name : CString}
    (nameless : ∀ text, Nameless name (.string text)) (text : Option CString) :
    NamelessTail first (addStringToObject members name text) := by
  cases text with
  | none => simpa [addStringToObject, addItemToObject] using tail
  | some value => exact tail.addItem (nameless value) (.string value)

/-- A key that is none of the three. -/
theorem nameless_of_key {key : CString} (value : Json)
    (other : ∀ name ∈ [jsonName, jsonRemove, jsonProductCode],
      name.caseEq key = false) : Nameless key value where
  notName := other jsonName (by simp)
  notRemove := other jsonRemove (by simp)
  code same := by
    cases (other jsonProductCode (by simp)).symm.trans same

theorem nameless_code (code : CString) :
    Nameless jsonProductCode (.string code) where
  notName := by decide
  notRemove := by decide
  code _ := ⟨code, rfl⟩

theorem within_textArray (texts : List CString) :
    Within Nameless (textArray texts) := by
  apply Within.array
  intro item present
  rcases List.mem_map.mp present with ⟨text, _, rfl⟩
  exact .string text

/-- An object whose keys are none of the three. -/
theorem within_object {members : Members} {keys : List CString}
    (listed : ∀ member ∈ members, member.1 ∈ keys)
    (others : ∀ key ∈ keys, ∀ name ∈ [jsonName, jsonRemove, jsonProductCode],
      name.caseEq key = false)
    (values : ∀ member ∈ members, Within Nameless member.2) :
    Within Nameless (.object members) :=
  .object (fun member present =>
    nameless_of_key _ (others member.1 (listed member present))) values

theorem within_tagMembers (copied : Copied) :
    Within Nameless (.object (tagMembers copied)) := by
  have members : tagMembers copied =
      [(jsonAdditives, textArray copied.additives),
        (jsonAllergensTags, textArray copied.allergens),
        (jsonIngredientsTags, textArray copied.ingredientsTags)] :=
    rfl
  apply within_object _
    (show ∀ key ∈ [jsonAdditives, jsonAllergensTags, jsonIngredientsTags], _ by
      decide)
  · simp [members, within_textArray]
  · simp [members]

/-- The images of a message are stored under these names. -/
def imageNames : List CString :=
  [jsonProductImagesFront, jsonProductImagesNutrition,
    jsonProductImagesIngredients]

/-- Every member has one of the names of the images. -/
def AllImages (members : Members) : Prop :=
  ∀ member ∈ members, member.1 ∈ imageNames

theorem AllImages.addString {members : Members} (images : AllImages members)
    {name : CString} (listed : name ∈ imageNames) (text : Option CString) :
    AllImages (addStringToObject members name text) := by
  intro member present
  rcases List.mem_append.mp present with old | new
  · exact images member old
  · rcases List.mem_map.mp new with ⟨_, _, rfl⟩
    exact listed

theorem AllImages.addImage {slot fallback : CString} {images : Json}
    {decoded result : Members} (allImages : AllImages decoded)
    (slotListed : slot ∈ imageNames) (fallbackListed : fallback ∈ imageNames)
    (added : addImage slot fallback images decoded = .ok result) :
    AllImages result := by
  unfold ProductDecoder.addImage at added
  split at added
  · cases added
    exact allImages
  · split at added
    · cases added
      exact allImages.addString slotListed _
    · split at added
      · cases added
      · cases added
        exact allImages.addString fallbackListed _

theorem decodedImages_allImages {product : Json} {images : Members}
    (decoded : decodedImages product = .ok images) : AllImages images := by
  simp only [decodedImages, bind_eq_ok, addFrontImage, addNutritionImage,
    addIngredientsImage] at decoded
  rcases decoded with
    ⟨_, _, front, addedFront, nutrition, addedNutrition, added⟩
  have empty : AllImages [] := List.forall_mem_nil _
  exact ((empty.addImage (by decide) (by decide) addedFront).addImage
    (by decide) (by decide) addedNutrition).addImage
      (by decide) (by decide) added

theorem within_images {images : Members} (strings : AllStrings images)
    (allImages : AllImages images) : Within Nameless (.object images) := by
  refine within_object allImages (by decide) fun member present => ?_
  rcases strings member present with ⟨text, equal⟩
  rw [equal]
  exact .string text

/-- The only name in a message is that of its first member. -/
theorem message_namelessTail {copied : Copied}
    (strings : AllStrings copied.images) (allImages : AllImages copied.images)
    (number : Int32) (now code : CString) :
    NamelessTail (jsonName, .string copied.name)
      (message copied number now code) := by
  have named : NamelessTail (jsonName, .string copied.name)
      (addStringToObject [] jsonName (some copied.name)) :=
    ⟨[], rfl, List.forall_mem_nil _⟩
  have texts : NamelessTail (jsonName, .string copied.name)
      (textMembers copied number) :=
    (named.addItem (nameless_of_key _ (by decide)) (.number _))
      |>.addString (fun _ => nameless_of_key _ (by decide)) _
      |>.addString (fun _ => nameless_of_key _ (by decide)) _
      |>.addString (fun _ => nameless_of_key _ (by decide)) _
      |>.addString (fun _ => nameless_of_key _ (by decide)) _
      |>.addString (fun _ => nameless_of_key _ (by decide)) _
  exact texts.addItem (nameless_of_key _ (by decide)) (within_tagMembers copied)
    |>.addItem (nameless_of_key _ (by decide)) (within_images strings allImages)
    |>.addString (fun _ => nameless_of_key _ (by decide)) _
    |>.addString nameless_code _

section Sent

variable {raw : UInt8 → Bool} (printable : ∀ byte, 32 ≤ byte → raw byte = true)
  {parse : CString → Option Json}
include printable

/-- No part of a removal gives a product. -/
theorem indivisible_removeMsg {code : CString}
    (objects : ReadsObjects raw parse (removeMsg code))
    (plain : ∀ byte ∈ code.bytes, Plain raw byte) :
    Indivisible parse (removeMsg code) := by
  have removePlain : ∀ byte ∈ removeName, Plain raw byte :=
    printable_plain printable rfl
  have yesPlain : ∀ byte ∈ yes, Plain raw byte :=
    printable_plain printable rfl
  have text : (uncut code).drop 2 =
      (codeName ++ [quote]) ++ colon :: ((quote :: (code.bytes ++ [quote])) ++
        comma :: ((quote :: (removeName ++ [quote])) ++
          colon :: ((quote :: (yes ++ [quote])) ++ [closeBrace]))) := by
    simp [uncut, ending_eq]
  have membersIn : MembersIn raw Codeless ((uncut code).drop 2) [] := by
    have codeless := codeless_of_separating
    have notColon : colon ≠ quote := by decide
    have notComma : comma ≠ quote := by decide
    rw [text]
    refine ((literal_plain (codeName_plain printable)).membersIn_tail codeless
      ?_).append (.cons notColon (.append ?_ (.cons notComma (.append ?_
        (.cons notColon (.append ?_ (membersIn_of_not_mem (by decide) [])))))))
    · intro byte head
      cases head
      exact .inr (.inl rfl)
    · exact (literal_plain plain).membersIn_value codeless
        (delimited_cons (.inl rfl))
    · exact (literal_plain removePlain).membersIn_key codeless
        (parseValue_plain yesPlain (Nat.lt_succ_self _) _)
        ended_string rfl
    · exact (literal_plain yesPlain).membersIn_value codeless
        (delimited_cons (.inr (.inr rfl)))
  exact indivisible_of_membersIn objects (parseValue_uncut printable plain)
    membersIn
    (fun _ _ parsed codeless => idle_of_codeless_members parsed codeless)
    (removeMsg_begins code)

/-- Whatever is read from the message of a removal is its object. -/
theorem value_of_removeMsg {code : CString}
    (plain : ∀ byte ∈ code.bytes, Plain raw byte) {value : Json}
    (parsed : Json.parse raw (removeMsg code) = some value) :
    value = .object (removal code) := by
  rcases Option.map_eq_some_iff.mp parsed with ⟨⟨_, rest⟩, read, rfl⟩
  rcases removeMsg_begins code with ⟨more, whole⟩
  have notBlank : isBlank openBrace = false := rfl
  have start := removeMsg_bytes code
  rcases object_of_brace (by rw [start, skipBlanks_cons notBlank]) read with
    ⟨members, rfl⟩
  have longer := (extends_ raw _).value read ended_object le_rfl more
  rw [whole] at longer
  exact parseValue_unique longer ended_object (parseValue_uncut printable plain)
    ended_object

/-- No part of an addition gives a product. -/
theorem indivisible_message {copied : Copied}
    (strings : AllStrings copied.images) (allImages : AllImages copied.images)
    (number : Int32) (now code : CString)
    (objects : ReadsObjects raw parse
      (printUnformatted (.object (message copied number now code)))) :
    Indivisible parse
      (printUnformatted (.object (message copied number now code))) := by
  rcases message_namelessTail strings allImages number now code with
    ⟨others, split, held⟩
  rw [split] at objects ⊢
  have bytes : (printUnformatted
        (.object ((jsonName, .string copied.name) :: others))).bytes =
      print (.object ((jsonName, .string copied.name) :: others)) :=
    CString.ofBuffer_of_nulFree (print_nulFree _)
  have whole := (readsBack printable _).value
    (.object ((jsonName, .string copied.name) :: others)) [] le_rfl
    delimited_nil
  have membersIn : MembersIn raw Nameless
      ((print (.object ((jsonName, .string copied.name) :: others))).drop 2)
      [] :=
    membersIn_object printable nameless_of_separating (.string copied.name)
      (fun member present => (held member present).1)
      (fun member present => (held member present).2)
  rw [List.append_nil] at whole
  exact indivisible_of_membersIn objects whole membersIn
    (fun _ _ parsed nameless => idle_of_nameless_members parsed nameless)
    (by rw [bytes])

end Sent

/-! ## The whole of a message -/

/-- Whatever is read of the lookup's item is a string. -/
def GivesStrings (lookup : Lookup) : Prop :=
  ∀ item, lookup.found = some item →
    ∀ text ∈ lookup.texts item, valuestring text ≠ none

theorem readsStrings_of_givesStrings {lookups : List Lookup}
    (strings : ∀ lookup ∈ lookups, GivesStrings lookup) :
    ReadsStrings lookups := by
  induction lookups with
  | nil => trivial
  | cons lookup later ih =>
      rcases List.forall_mem_cons.mp strings with ⟨first, others⟩
      unfold ReadsStrings
      cases found : lookup.found with
      | none => exact .inr (ih others)
      | some item => exact ⟨first item found, ih others⟩

section Lookups

variable {members : Members} {name : CString}

theorem textLookup_givesStrings {text : Option CString}
    (found : findMember members name = text.map .string) :
    GivesStrings (textLookup (some (.object members)) name) := by
  intro item isItem read member
  rcases Option.map_eq_some_iff.mp (found.symm.trans isItem) with ⟨_, _, rfl⟩
  rw [List.mem_singleton.mp member]
  exact nofun

theorem plainLookup_givesStrings (object : Option Json) :
    GivesStrings (plainLookup object name) :=
  fun _ _ _ impossible => nomatch impossible

theorem tagsLookup_givesStrings {texts : List CString}
    (found : findMember members name = some (textArray texts)) :
    GivesStrings (tagsLookup (some (.object members)) name) := by
  intro item isItem read member
  cases found.symm.trans isItem
  rcases List.mem_map.mp member with ⟨_, _, rfl⟩
  exact nofun

theorem imageLookup_givesStrings (strings : AllStrings members)
    (slot : CString) :
    GivesStrings (imageLookup (some (.object members)) slot) :=
  textLookup_givesStrings (storedImage strings slot)

end Lookups

/-- The decoder reads no NULL string of the message of an addition. -/
theorem message_readsStrings {copied : Copied}
    (strings : AllStrings copied.images) (number : Int32)
    (now code : CString) :
    ReadsStrings
      (messageLookups (.object (message copied number now code))) := by
  have kept : getObjectItem (some (.object (message copied number now code)))
      jsonRemove = none :=
    message_remove copied number now code
  have tags : getObjectItem (some (.object (message copied number now code)))
      jsonTags = some (.object (tagMembers copied)) :=
    message_tags copied number now code
  have images : getObjectItem
      (some (.object (message copied number now code))) jsonImages =
        some (.object copied.images) :=
    message_images copied number now code
  apply readsStrings_of_givesStrings
  rw [messageLookups, kept]
  simp only [additionLookups, tags, images, List.forall_mem_cons]
  exact
    ⟨@textLookup_givesStrings _ _ (some code) (message_code ..),
      @textLookup_givesStrings _ _ (some copied.name) (message_name ..),
      plainLookup_givesStrings _,
      textLookup_givesStrings (message_quantity copied number now code),
      textLookup_givesStrings (message_ingredients copied number now code),
      textLookup_givesStrings (message_brands copied number now code),
      textLookup_givesStrings (message_expirationDate copied number now code),
      @textLookup_givesStrings _ _ (some now) (message_timestamp ..),
      textLookup_givesStrings (message_labels copied number now code),
      tagsLookup_givesStrings (tagMembers_additives copied),
      tagsLookup_givesStrings (tagMembers_allergens copied),
      tagsLookup_givesStrings (tagMembers_ingredients copied),
      plainLookup_givesStrings _,
      imageLookup_givesStrings strings _,
      imageLookup_givesStrings strings _,
      imageLookup_givesStrings strings _,
      List.forall_mem_nil _⟩

/--
The texts that the reader sends behind the internal header: the message of a
document that was accepted, and the removal of a code that may stand unescaped
in a string.
-/
inductive Sends (raw : UInt8 → Bool) : CString → Prop
  | addition {parse : CString → Option Json} {now strJson code : CString}
      {number : Int32} {object : Json}
      (accepted : sfPrRawDecoder parse now strJson number code =
        some (noError, some object)) :
      Sends raw (printUnformatted object)
  | removal {code : CString} (plain : ∀ byte ∈ code.bytes, Plain raw byte) :
      Sends raw (removeMsg code)

section Sends

variable {raw : UInt8 → Bool} (printable : ∀ byte, 32 ≤ byte → raw byte = true)
  {parse : CString → Option Json} {text : CString}
  (objects : ReadsObjects raw parse text) (sends : Sends raw text)
include printable objects sends

theorem Sends.indivisible : Indivisible parse text := by
  cases sends with
  | addition accepted =>
      rcases rawDecoding_eq_ok.mp (outcome_eq_decoded.mp accepted) with
        ⟨_, _, copied, _, _, source, same⟩
      cases same
      exact indivisible_message printable
        (decodedImages_allStrings source.images)
        (decodedImages_allImages source.images) _ _ _ objects
  | removal plain => exact indivisible_removeMsg printable objects plain

/-- The object that the decoder is given is the one that was sent. -/
theorem Sends.readsStrings {members : Members}
    (parsed : parse text = some (.object members)) :
    ReadsStrings (messageLookups (.object members)) := by
  have written := objects text members List.infix_rfl parsed
  cases sends with
  | addition accepted =>
      rcases rawDecoding_eq_ok.mp (outcome_eq_decoded.mp accepted) with
        ⟨_, _, copied, _, _, source, same⟩
      cases same
      cases written.symm.trans (parse_printUnformatted printable _)
      exact message_readsStrings (decodedImages_allStrings source.images) _ _ _
  | removal plain =>
      next code =>
        cases value_of_removeMsg printable plain written
        exact ⟨fun text member => by
          rw [List.mem_singleton.mp member]
          exact nofun, trivial⟩

theorem Sends.returns : sfPrDecoder parse text ≠ none := by
  have idle_returns : Idle parse text → sfPrDecoder parse text ≠ none := by
    rintro ⟨result, decoded⟩
    rw [decoded]
    exact Option.some_ne_none _
  cases parsed : parse text with
  | none => exact idle_returns (idle_of_unparsed parsed)
  | some value =>
      by_cases isObject : ∃ members, value = .object members
      · rcases isObject with ⟨members, rfl⟩
        have returned : Returns messageCodes (sfPrDecoder parse text) := by
          rw [sfPrDecoder_returns_iff]
          intro other again
          cases parsed.symm.trans again
          exact sends.readsStrings printable objects parsed
        rcases returned with ⟨retval, decoded, decodes, _⟩
        rw [decodes]
        exact Option.some_ne_none _
      · exact idle_returns
          (idle_of_not_object parsed (not_exists.mp isObject))

end Sends

end SmartFridge.MessageParts
