import SmartFridge.ProductDecoder

/-!
# From the reader's decoder to the database's decoder

The message that `sf_pr_raw_decoder` produces is described by what it copied
out of the product document.  Looking up each of its members then determines
what `sf_pr_decoder` makes of it.
-/

namespace SmartFridge.ProductRoundTrip

open SmartFridge.Library
open SmartFridge.CJson
open SmartFridge.ProductDecoder

/-! ## What the raw decoder copies -/

/-- The data that a message carries besides its number, code and time. -/
structure Copied where
  name : CString
  quantity : Option CString
  ingredients : Option CString
  brands : Option CString
  expirationDate : Option CString
  labels : Option CString
  additives : List CString
  allergens : List CString
  ingredientsTags : List CString
  images : Members

/-- The texts of the strings among the children of an item. -/
def tagTexts (item : Json) : List CString :=
  (children item).filterMap valuestring

/-- The data are those of a product document. -/
structure CopiedFrom (product : Json) (copied : Copied) : Prop where
  name : productName product = .ok copied.name
  quantity :
    (getObjectItem (some product) jsonProductQuantity).map valuestring =
      some copied.quantity
  ingredients :
    (getObjectItem (some product) jsonProductIngredients).map valuestring =
      some copied.ingredients
  brands :
    (getObjectItem (some product) jsonProductBrands).map valuestring =
      some copied.brands
  expirationDate :
    (getObjectItem (some product) jsonProductExpirationDate).map valuestring =
      some copied.expirationDate
  labels :
    (getObjectItem (some product) jsonProductLabels).map valuestring =
      some copied.labels
  additives :
    (getObjectItem (some product) jsonProductAdditivesTags).map tagTexts =
      some copied.additives
  allergens :
    (getObjectItem (some product) jsonProductAllergensTags).map tagTexts =
      some copied.allergens
  ingredientsTags :
    (getObjectItem (some product) jsonProductIngredientsTags).map tagTexts =
      some copied.ingredientsTags
  images : decodedImages product = .ok copied.images

/-- The array of some texts. -/
def textArray (texts : List CString) : Json :=
  .array (texts.map .string)

/-- The text members of the message of some data. -/
def textMembers (copied : Copied) (number : Int32) : Members :=
  let decoded := addStringToObject [] jsonName (some copied.name)
  let decoded := addNumberToObject decoded jsonNumber number
  let decoded := addStringToObject decoded jsonQuantity copied.quantity
  let decoded := addStringToObject decoded jsonIngredients copied.ingredients
  let decoded := addStringToObject decoded jsonProductBrands copied.brands
  let decoded :=
    addStringToObject decoded jsonProductExpirationDate copied.expirationDate
  addStringToObject decoded jsonProductLabels copied.labels

/-- The tag arrays of the message of some data. -/
def tagMembers (copied : Copied) : Members :=
  let tags := addItemToObject [] jsonAdditives (textArray copied.additives)
  let tags := addItemToObject tags jsonAllergensTags (textArray copied.allergens)
  addItemToObject tags jsonIngredientsTags (textArray copied.ingredientsTags)

/-- The message of some data. -/
def message (copied : Copied) (number : Int32) (now code : CString) :
    Members :=
  let decoded := textMembers copied number
  let decoded :=
    addItemToObject decoded jsonTags (some (.object (tagMembers copied)))
  let decoded :=
    addItemToObject decoded jsonImages (some (.object copied.images))
  let decoded := addStringToObject decoded jsonProductTimestamp (some now)
  addStringToObject decoded jsonProductCode (some code)

theorem productItem_eq_ok {obj product : Json} :
    productItem obj = .ok product ↔
      getObjectItem (some obj) jsonProduct = some product := by
  unfold productItem
  cases found : getObjectItem (some obj) jsonProduct with
  | some value => simp
  | none =>
      cases getObjectItem (some obj) jsonStatusVerbose with
      | none => simp
      | some status =>
          simp only [bind_eq_ok, reduceCtorEq, iff_false, not_exists, not_and]
          intro verbose _ impossible
          split at impossible
          · cases impossible
          · cases impossible

/-- Copying something out of a required member. -/
theorem copyItem_eq_ok {α β : Type} (copy : Json → α) (add : α → β)
    {object : Option Json} {name : CString} {result : β} :
    (requireItem object name >>= fun item => .ok (add (copy item))) =
        .ok result ↔
      ∃ copied, (getObjectItem object name).map copy = some copied ∧
        result = add copied := by
  simp only [bind_eq_ok, requireItem_eq_ok, Option.map_eq_some_iff]
  constructor
  · rintro ⟨item, found, produced⟩
    cases produced
    exact ⟨_, ⟨item, found, rfl⟩, rfl⟩
  · rintro ⟨_, ⟨item, found, rfl⟩, rfl⟩
    exact ⟨item, found, rfl⟩

theorem addText_eq_ok
    {source target : CString} {product : Json} {decoded result : Members} :
    addText source target product decoded = .ok result ↔
      ∃ text,
        (getObjectItem (some product) source).map valuestring = some text ∧
          result = addStringToObject decoded target text :=
  copyItem_eq_ok valuestring (addStringToObject decoded target)

/-- The loop over the tags keeps the strings, in their order. -/
theorem copyTags_eq (item : Json) :
    Json.array (copyTags item) = textArray (tagTexts item) := by
  have looped : ∀ (items : List Json) (start : List Json),
      items.foldl
          (fun tags child =>
            addItemToArray tags ((valuestring child).map .string)) start =
        start ++ (items.filterMap valuestring).map .string := by
    intro items
    induction items with
    | nil => simp
    | cons child rest ih =>
        intro start
        rw [List.foldl_cons, ih]
        cases read : valuestring child with
        | none => simp [addItemToArray, read]
        | some text => simp [addItemToArray, read]
  simp [copyTags, textArray, tagTexts, looped]

theorem addTags_eq_ok
    {source target : CString} {product : Json} {tags result : Members} :
    addTags source target product tags = .ok result ↔
      ∃ texts,
        (getObjectItem (some product) source).map tagTexts = some texts ∧
          result = addItemToObject tags target (textArray texts) := by
  simp only [addTags, copyTags_eq]
  exact copyItem_eq_ok tagTexts fun texts =>
    addItemToObject tags target (textArray texts)

/-- A document is accepted with the message of the data copied from it. -/
theorem rawDecoding_eq_ok
    {parse : CString → Option Json} {now strJson code : CString}
    {number : Int32} {result : Int × Json} :
    rawDecoding parse now strJson number code = .ok result ↔
      ∃ document product copied,
        parse strJson = some document ∧
          getObjectItem (some document) jsonProduct = some product ∧
          CopiedFrom product copied ∧
          result = (noError, .object (message copied number now code)) := by
  unfold rawDecoding
  cases parse strJson with
  | none => simp
  | some document =>
      simp only [bind_eq_ok, productItem_eq_ok, decodedTexts, decodedTags,
        addQuantity, addIngredients, addBrands, addExpirationDate, addLabels,
        addAdditivesTags, addAllergensTags, addIngredientsTags, addText_eq_ok,
        addTags_eq_ok]
      constructor
      · rintro ⟨product, found, texts,
          ⟨name, named, _, ⟨quantity, quantityRead, rfl⟩,
            _, ⟨ingredients, ingredientsRead, rfl⟩,
            _, ⟨brands, brandsRead, rfl⟩,
            _, ⟨expirationDate, expirationRead, rfl⟩,
            labels, labelsRead, rfl⟩,
          tags,
          ⟨_, ⟨additives, additivesRead, rfl⟩,
            _, ⟨allergens, allergensRead, rfl⟩,
            ingredientsTags, ingredientsTagsRead, rfl⟩,
          images, imagesRead, produced⟩
        cases produced
        exact
          ⟨document, product,
            ⟨name, quantity, ingredients, brands, expirationDate, labels,
              additives, allergens, ingredientsTags, images⟩,
            rfl, found,
            ⟨named, quantityRead, ingredientsRead, brandsRead,
              expirationRead, labelsRead, additivesRead, allergensRead,
              ingredientsTagsRead, imagesRead⟩, rfl⟩
      · rintro ⟨_, product, copied, sameDocument, found, from_, rfl⟩
        cases sameDocument
        exact
          ⟨product, found, textMembers copied number,
            ⟨copied.name, from_.name, _, ⟨_, from_.quantity, rfl⟩,
              _, ⟨_, from_.ingredients, rfl⟩, _, ⟨_, from_.brands, rfl⟩,
              _, ⟨_, from_.expirationDate, rfl⟩, _, from_.labels, rfl⟩,
            tagMembers copied,
            ⟨_, ⟨_, from_.additives, rfl⟩, _, ⟨_, from_.allergens, rfl⟩,
              _, from_.ingredientsTags, rfl⟩,
            copied.images, from_.images, rfl⟩

/-! ## What the decoder reads -/

section Lookup

variable (copied : Copied) (number : Int32) (now code : CString)

theorem message_code :
    findMember (message copied number now code) jsonProductCode =
      some (.string code) := by
  simp +decide [message, textMembers, addStringToObject, addNumberToObject,
    findMember_addItem]

theorem message_remove :
    findMember (message copied number now code) jsonRemove =
      none := by
  simp +decide [message, textMembers, addStringToObject, addNumberToObject,
    findMember_addItem]

theorem message_name :
    findMember (message copied number now code) jsonName =
      some (.string copied.name) := by
  simp +decide [message, textMembers, addStringToObject, addNumberToObject,
    findMember_addItem]

theorem message_number :
    findMember (message copied number now code) jsonNumber =
      some (.number ⟨number.toInt, 0⟩) := by
  simp +decide [message, textMembers, addStringToObject, addNumberToObject,
    findMember_addItem]

theorem message_quantity :
    findMember (message copied number now code) jsonQuantity =
      copied.quantity.map .string := by
  simp +decide [message, textMembers, addStringToObject, addNumberToObject,
    findMember_addItem]

theorem message_ingredients :
    findMember (message copied number now code) jsonIngredients =
      copied.ingredients.map .string := by
  simp +decide [message, textMembers, addStringToObject, addNumberToObject,
    findMember_addItem]

theorem message_brands :
    findMember (message copied number now code) jsonProductBrands =
      copied.brands.map .string := by
  simp +decide [message, textMembers, addStringToObject, addNumberToObject,
    findMember_addItem]

theorem message_expirationDate :
    findMember (message copied number now code) jsonProductExpirationDate =
      copied.expirationDate.map .string := by
  simp +decide [message, textMembers, addStringToObject, addNumberToObject,
    findMember_addItem]

theorem message_timestamp :
    findMember (message copied number now code) jsonProductTimestamp =
      some (.string now) := by
  simp +decide [message, textMembers, addStringToObject, addNumberToObject,
    findMember_addItem]

theorem message_labels :
    findMember (message copied number now code) jsonProductLabels =
      copied.labels.map .string := by
  simp +decide [message, textMembers, addStringToObject, addNumberToObject,
    findMember_addItem]

theorem message_tags :
    findMember (message copied number now code) jsonTags =
      some (.object (tagMembers copied)) := by
  simp +decide [message, textMembers, addStringToObject, addNumberToObject,
    findMember_addItem]

theorem message_images :
    findMember (message copied number now code) jsonImages =
      some (.object copied.images) := by
  simp +decide [message, textMembers, addStringToObject, addNumberToObject,
    findMember_addItem]

theorem tagMembers_additives :
    findMember (tagMembers copied) jsonAdditives =
      some (textArray copied.additives) := by
  simp +decide [tagMembers, findMember_addItem]

theorem tagMembers_allergens :
    findMember (tagMembers copied) jsonAllergensTags =
      some (textArray copied.allergens) := by
  simp +decide [tagMembers, findMember_addItem]

theorem tagMembers_ingredients :
    findMember (tagMembers copied) jsonIngredientsTags =
      some (textArray copied.ingredientsTags) := by
  simp +decide [tagMembers, findMember_addItem]

end Lookup

/-! ## The message on its way -/

/-- Every member is a string. -/
def AllStrings (members : Members) : Prop :=
  ∀ member ∈ members, ∃ text, member.2 = .string text

theorem allStrings_addString
    {members : Members} (strings : AllStrings members)
    (name : CString) (text : Option CString) :
    AllStrings (addStringToObject members name text) := by
  intro member present
  rcases List.mem_append.mp present with old | new
  · exact strings member old
  · cases text with
    | none => simp at new
    | some value =>
        have equal : member = (name, .string value) := by simpa using new
        exact ⟨value, congrArg Prod.snd equal⟩

theorem addImage_allStrings
    {slot fallback : CString} {images : Json} {decoded result : Members}
    (strings : AllStrings decoded)
    (added : addImage slot fallback images decoded = .ok result) :
    AllStrings result := by
  unfold addImage at added
  split at added
  · cases added
    exact strings
  · split at added
    · cases added
      exact allStrings_addString strings slot _
    · split at added
      · cases added
      · cases added
        exact allStrings_addString strings fallback _

/-- The images of a message are strings. -/
theorem decodedImages_allStrings {product : Json} {images : Members}
    (decoded : decodedImages product = .ok images) : AllStrings images := by
  simp only [decodedImages, bind_eq_ok, addFrontImage, addNutritionImage,
    addIngredientsImage] at decoded
  rcases decoded with ⟨_, _, front, addedFront, nutrition, addedNutrition, added⟩
  have frontStrings : AllStrings front :=
    addImage_allStrings (List.forall_mem_nil _) addedFront
  exact addImage_allStrings (addImage_allStrings frontStrings addedNutrition)
    added

/-- Every member can be printed and read back. -/
def WireMembers (depth : Nat) (members : Members) : Prop :=
  ∀ member ∈ members, Wire depth member.2

theorem wireMembers_nil (depth : Nat) : WireMembers depth [] :=
  List.forall_mem_nil _

theorem WireMembers.addItem {depth : Nat} {members : Members}
    (wire : WireMembers depth members) (name : CString) {item : Json}
    (itemWire : Wire depth item) :
    WireMembers depth (addItemToObject members name (some item)) := by
  intro member present
  rcases List.mem_append.mp present with old | new
  · exact wire member old
  · have equal : member = (name, item) := by simpa using new
    exact equal ▸ itemWire

theorem WireMembers.addString {depth : Nat} {members : Members}
    (wire : WireMembers depth members) (name : CString)
    (text : Option CString) :
    WireMembers depth (addStringToObject members name text) := by
  cases text with
  | none => simpa [addStringToObject, addItemToObject] using wire
  | some value => exact wire.addItem name (.string value)

theorem textArray_wire (depth : Nat) (texts : List CString) :
    Wire (depth + 1) (textArray texts) := by
  apply Wire.array
  intro item present
  rcases List.mem_map.mp present with ⟨text, _, rfl⟩
  exact .string text

/-- The reader's messages are read back as they were printed. -/
theorem message_wire {copied : Copied} (strings : AllStrings copied.images)
    (depth : Nat) (number : Int32) (now code : CString) :
    Wire (depth + 3) (.object (message copied number now code)) := by
  have texts : WireMembers (depth + 2) (textMembers copied number) :=
    ((wireMembers_nil _).addString _ _).addItem _ (.number number)
      |>.addString _ _ |>.addString _ _ |>.addString _ _
      |>.addString _ _ |>.addString _ _
  have tags : WireMembers (depth + 1) (tagMembers copied) :=
    ((wireMembers_nil _).addItem _ (textArray_wire depth _))
      |>.addItem _ (textArray_wire depth _)
      |>.addItem _ (textArray_wire depth _)
  have images : WireMembers (depth + 1) copied.images := by
    intro member present
    rcases strings member present with ⟨text, equal⟩
    exact equal ▸ .string text
  exact .object
    (((texts.addItem _ (.object tags)).addItem _ (.object images))
      |>.addString _ _ |>.addString _ _)

/-! ## What the decoder makes of the message -/

/-- The texts that the decoder asks for. -/
def Copied.texts (copied : Copied) : List (Option CString) :=
  [copied.quantity, copied.ingredients, copied.brands,
    copied.expirationDate, copied.labels]

/-- The product that the message of some data stands for. -/
def received (copied : Copied) (number : Int32) (now code : CString) :
    Product :=
  { images :=
      { front :=
          (findMember copied.images jsonProductImagesFront).bind valuestring
        nutrition :=
          (findMember copied.images jsonProductImagesNutrition).bind valuestring
        ingredients :=
          (findMember copied.images jsonProductImagesIngredients).bind
            valuestring }
    name := some copied.name
    code := nullIfEmpty code
    timestamp := nullIfEmpty now
    quantity := copied.quantity.bind nullIfEmpty
    ingredients := copied.ingredients.bind nullIfEmpty
    brands := copied.brands.bind nullIfEmpty
    expirationDate := copied.expirationDate.bind nullIfEmpty
    labels := copied.labels.bind nullIfEmpty
    ingredientsTags := nullIfNone copied.ingredientsTags
    allergensTags := nullIfNone copied.allergens
    additivesTags := nullIfNone copied.additives
    number }

theorem textMember_of_isSome
    {members : Members} {name : CString} {text : Option CString}
    (found : findMember members name = text.map .string)
    (present : text.isSome = true) :
    TextMember (.object members) name (text.bind nullIfEmpty) := by
  cases text with
  | none => cases present
  | some value => exact ⟨value, found, rfl⟩

theorem isSome_of_textMember
    {members : Members} {name : CString} {text value : Option CString}
    (found : findMember members name = text.map .string)
    (member : TextMember (.object members) name value) :
    text.isSome = true := by
  rcases member with ⟨read, readAs, _⟩
  cases text with
  | none => cases found.symm.trans readAs
  | some _ => rfl

theorem storedImage
    {images : Members} (strings : AllStrings images) (slot : CString) :
    getObjectItem (some (.object images)) slot =
      ((findMember images slot).bind valuestring).map .string := by
  rw [getObjectItem_object]
  cases found : findMember images slot with
  | none => rfl
  | some item =>
      rcases Option.map_eq_some_iff.mp found with ⟨member, first, rfl⟩
      rcases strings member (List.mem_of_find?_eq_some first) with ⟨text, equal⟩
      simp [equal]

/-- A message with all its texts is taken for the product it stands for. -/
theorem message_isAddition {copied : Copied}
    (strings : AllStrings copied.images)
    (complete : ∀ text ∈ copied.texts, text.isSome = true)
    (number : Int32) (now code : CString) :
    IsAddition (.object (message copied number now code))
      (received copied number now code) where
  code := ⟨code, message_code copied number now code, rfl⟩
  kept := message_remove copied number now code
  name := ⟨copied.name, message_name copied number now code, rfl⟩
  number :=
    ⟨_, message_number copied number now code,
      (numberToInt_of_int number).symm⟩
  quantity :=
    textMember_of_isSome (message_quantity copied number now code)
      (complete _ (by simp [Copied.texts]))
  ingredients :=
    textMember_of_isSome (message_ingredients copied number now code)
      (complete _ (by simp [Copied.texts]))
  brands :=
    textMember_of_isSome (message_brands copied number now code)
      (complete _ (by simp [Copied.texts]))
  expirationDate :=
    textMember_of_isSome (message_expirationDate copied number now code)
      (complete _ (by simp [Copied.texts]))
  timestamp := ⟨now, message_timestamp copied number now code, rfl⟩
  labels :=
    textMember_of_isSome (message_labels copied number now code)
      (complete _ (by simp [Copied.texts]))
  additives := by
    rw [getObjectItem_object, message_tags]
    exact ⟨_, copied.additives, tagMembers_additives copied, rfl, rfl⟩
  allergens := by
    rw [getObjectItem_object, message_tags]
    exact ⟨_, copied.allergens, tagMembers_allergens copied, rfl, rfl⟩
  ingredientsTags := by
    rw [getObjectItem_object, message_tags]
    exact ⟨_, copied.ingredientsTags, tagMembers_ingredients copied, rfl, rfl⟩
  images :=
    ⟨_, message_images copied number now code, storedImage strings _,
      storedImage strings _, storedImage strings _⟩

/-- Only a message with all its texts is taken for a product. -/
theorem complete_of_isAddition
    {copied : Copied} {number : Int32} {now code : CString} {product : Product}
    (addition :
      IsAddition (.object (message copied number now code)) product) :
    ∀ text ∈ copied.texts, text.isSome = true := by
  intro text member
  simp only [Copied.texts, List.mem_cons, List.not_mem_nil, or_false] at member
  rcases member with rfl | rfl | rfl | rfl | rfl
  · exact isSome_of_textMember (message_quantity copied number now code)
      addition.quantity
  · exact isSome_of_textMember (message_ingredients copied number now code)
      addition.ingredients
  · exact isSome_of_textMember (message_brands copied number now code)
      addition.brands
  · exact isSome_of_textMember (message_expirationDate copied number now code)
      addition.expirationDate
  · exact isSome_of_textMember (message_labels copied number now code)
      addition.labels

/-! ## The two decoders together -/

/-- The text members that the raw decoder copies without reading them. -/
def copiedTexts : List CString :=
  [jsonProductQuantity, jsonProductIngredients, jsonProductBrands,
    jsonProductExpirationDate, jsonProductLabels]

/-- The tag arrays that the raw decoder copies. -/
def copiedTags : List CString :=
  [jsonProductAdditivesTags, jsonProductAllergensTags,
    jsonProductIngredientsTags]

/-- Each of the copied text members is a string. -/
def TextsAreStrings (product : Json) : Prop :=
  ∀ name ∈ copiedTexts, ∀ item,
    getObjectItem (some product) name = some item →
      ∃ text, item = .string text

/-- Each of the copied tag arrays contains only strings. -/
def TagsAreStrings (product : Json) : Prop :=
  ∀ name ∈ copiedTags, ∀ item,
    getObjectItem (some product) name = some item →
      ∀ child ∈ children item, ∃ text, child = .string text

theorem isSome_of_textsAreStrings
    {product : Json} {name : CString} {text : Option CString}
    (copied : (getObjectItem (some product) name).map valuestring = some text)
    (strings : TextsAreStrings product) (member : name ∈ copiedTexts) :
    text.isSome = true := by
  rcases Option.map_eq_some_iff.mp copied with ⟨item, found, rfl⟩
  rcases strings name member item found with ⟨value, rfl⟩
  rfl

/-- The texts of a message are complete when their sources are strings. -/
theorem complete_iff_textsAreStrings
    {product : Json} {copied : Copied} (source : CopiedFrom product copied) :
    (∀ text ∈ copied.texts, text.isSome = true) ↔ TextsAreStrings product := by
  constructor
  · intro complete name member item found
    have string : ∀ text : Option CString,
        (getObjectItem (some product) name).map valuestring = some text →
          text ∈ copied.texts → ∃ value, item = .string value := by
      intro text read present
      rw [found, Option.map_some, Option.some.injEq] at read
      rcases Option.isSome_iff_exists.mp (complete text present) with
        ⟨value, rfl⟩
      cases item with
      | string value => exact ⟨value, rfl⟩
      | _ => cases read
    simp only [copiedTexts, List.mem_cons, List.not_mem_nil, or_false] at member
    rcases member with rfl | rfl | rfl | rfl | rfl
    · exact string _ source.quantity (by simp [Copied.texts])
    · exact string _ source.ingredients (by simp [Copied.texts])
    · exact string _ source.brands (by simp [Copied.texts])
    · exact string _ source.expirationDate (by simp [Copied.texts])
    · exact string _ source.labels (by simp [Copied.texts])
  · intro strings text member
    simp only [Copied.texts, List.mem_cons, List.not_mem_nil, or_false]
      at member
    rcases member with rfl | rfl | rfl | rfl | rfl
    · exact isSome_of_textsAreStrings source.quantity strings
        (by simp [copiedTexts])
    · exact isSome_of_textsAreStrings source.ingredients strings
        (by simp [copiedTexts])
    · exact isSome_of_textsAreStrings source.brands strings
        (by simp [copiedTexts])
    · exact isSome_of_textsAreStrings source.expirationDate strings
        (by simp [copiedTexts])
    · exact isSome_of_textsAreStrings source.labels strings
        (by simp [copiedTexts])

/-- The name is the first of some texts that is not empty. -/
def IsChosenName
    (product : Json) (names : List CString) (name : CString) : Prop :=
  ∃ skipped chosen rest, names = skipped ++ chosen :: rest ∧
    (∀ earlier ∈ skipped,
      getObjectItem (some product) earlier = some (.string CString.empty)) ∧
    getObjectItem (some product) chosen = some (.string name) ∧
    name ≠ CString.empty

theorem isChosenName_of_firstNonEmpty
    {product : Json} {names : List CString} {name : CString}
    (read : firstNonEmpty product names = .ok name) :
    IsChosenName product names name := by
  induction names with
  | nil =>
      cases read
  | cons first substitutes ih =>
      simp only [firstNonEmpty, bind_eq_ok, requireItem_eq_ok,
        readString_eq_ok] at read
      rcases read with ⟨item, found, text, rfl, decided⟩
      by_cases isEmpty : text = CString.empty
      · rw [if_pos isEmpty] at decided
        rcases ih decided with
          ⟨skipped, chosen, rest, rfl, empty, named, nonempty⟩
        refine
          ⟨first :: skipped, chosen, rest, rfl, ?_, named, nonempty⟩
        intro earlier member
        rcases List.mem_cons.mp member with rfl | later
        · exact isEmpty ▸ found
        · exact empty earlier later
      · rw [if_neg isEmpty] at decided
        cases decided
        exact
          ⟨[], first, substitutes, rfl, List.forall_mem_nil _, found, isEmpty⟩

/-- A field of the decoded product holds a text of the document. -/
def SameText
    (product : Json) (name : CString) (field : Option CString) : Prop :=
  ∃ text, getObjectItem (some product) name = some (.string text) ∧
    field = nullIfEmpty text

/-- A field of the decoded product holds the tags of the document, in order. -/
def SameTags
    (product : Json) (name : CString) (field : Option (List CString)) : Prop :=
  ∃ item texts, getObjectItem (some product) name = some item ∧
    children item = texts.map .string ∧ field = nullIfNone texts

/-- The decoded product is the one of the document. -/
structure CarriedOver
    (product : Json) (number : Int32) (now code : CString)
    (decoded : Product) : Prop where
  name : ∃ name, decoded.name = some name ∧
    IsChosenName product
      [jsonProductName, jsonGenericName, jsonProductCategories] name
  number : decoded.number = number
  code : decoded.code = nullIfEmpty code
  timestamp : decoded.timestamp = nullIfEmpty now
  quantity : SameText product jsonProductQuantity decoded.quantity
  ingredients : SameText product jsonProductIngredients decoded.ingredients
  brands : SameText product jsonProductBrands decoded.brands
  expirationDate :
    SameText product jsonProductExpirationDate decoded.expirationDate
  labels : SameText product jsonProductLabels decoded.labels
  additives : SameTags product jsonProductAdditivesTags decoded.additivesTags
  allergens : SameTags product jsonProductAllergensTags decoded.allergensTags
  ingredientsTags :
    SameTags product jsonProductIngredientsTags decoded.ingredientsTags

theorem sameText_of_strings
    {product : Json} {name : CString} {text : Option CString}
    (copied : (getObjectItem (some product) name).map valuestring = some text)
    (strings : TextsAreStrings product) (member : name ∈ copiedTexts) :
    SameText product name (text.bind nullIfEmpty) := by
  rcases Option.map_eq_some_iff.mp copied with ⟨item, found, rfl⟩
  rcases strings name member item found with ⟨value, rfl⟩
  exact ⟨value, found, rfl⟩

theorem eq_map_filterMap_valuestring {items : List Json}
    (strings : ∀ child ∈ items, ∃ text, child = .string text) :
    items = (items.filterMap valuestring).map .string := by
  induction items with
  | nil => rfl
  | cons child rest ih =>
      rcases strings child List.mem_cons_self with ⟨text, rfl⟩
      have later := ih fun other member =>
        strings other (List.mem_cons_of_mem _ member)
      simpa using later

theorem sameTags_of_strings
    {product : Json} {name : CString} {texts : List CString}
    (copied : (getObjectItem (some product) name).map tagTexts = some texts)
    (strings : TagsAreStrings product) (member : name ∈ copiedTags) :
    SameTags product name (nullIfNone texts) := by
  rcases Option.map_eq_some_iff.mp copied with ⟨item, found, rfl⟩
  exact
    ⟨item, tagTexts item, found,
      eq_map_filterMap_valuestring (strings name member item found), rfl⟩

/-- The product of a message is the one of the document behind it. -/
theorem received_carriedOver
    {product : Json} {copied : Copied} (source : CopiedFrom product copied)
    (texts : TextsAreStrings product) (tags : TagsAreStrings product)
    (number : Int32) (now code : CString) :
    CarriedOver product number now code
      (received copied number now code) where
  name := ⟨copied.name, rfl, isChosenName_of_firstNonEmpty source.name⟩
  number := rfl
  code := rfl
  timestamp := rfl
  quantity := sameText_of_strings source.quantity texts (by simp [copiedTexts])
  ingredients :=
    sameText_of_strings source.ingredients texts (by simp [copiedTexts])
  brands := sameText_of_strings source.brands texts (by simp [copiedTexts])
  expirationDate :=
    sameText_of_strings source.expirationDate texts (by simp [copiedTexts])
  labels := sameText_of_strings source.labels texts (by simp [copiedTexts])
  additives := sameTags_of_strings source.additives tags (by simp [copiedTags])
  allergens := sameTags_of_strings source.allergens tags (by simp [copiedTags])
  ingredientsTags :=
    sameTags_of_strings source.ingredientsTags tags (by simp [copiedTags])

/-! ## A document with and without its quantity -/

/-- A product whose `nutrition_data_per` has any value. -/
def milkProduct (quantity : Json) : Json :=
  .object
    [(jsonProductName, .string (.lit "Milk")),
      (jsonProductQuantity, quantity),
      (jsonProductIngredients, .string (.lit "milk")),
      (jsonProductBrands, .string .empty),
      (jsonProductExpirationDate, .string .empty),
      (jsonProductLabels, .string .empty),
      (jsonProductAdditivesTags, .array []),
      (jsonProductAllergensTags, .array [.string (.lit "en:milk")]),
      (jsonProductIngredientsTags, .array [.string (.lit "en:milk")]),
      (jsonProductImages, .object [])]

/-- The document of that product. -/
def milkDocument (quantity : Json) : Json :=
  .object [(jsonProduct, milkProduct quantity)]

/-- What is copied out of it. -/
def milkCopied (quantity : Json) : Copied :=
  { name := .lit "Milk"
    quantity := valuestring quantity
    ingredients := some (.lit "milk")
    brands := some .empty
    expirationDate := some .empty
    labels := some .empty
    additives := []
    allergens := [.lit "en:milk"]
    ingredientsTags := [.lit "en:milk"]
    images := [] }

theorem milk_found (quantity : Json) :
    getObjectItem (some (milkDocument quantity)) jsonProduct =
      some (milkProduct quantity) :=
  rfl

theorem milk_copied (quantity : Json) :
    CopiedFrom (milkProduct quantity) (milkCopied quantity) where
  name := rfl
  quantity := rfl
  ingredients := rfl
  brands := rfl
  expirationDate := rfl
  labels := rfl
  additives := rfl
  allergens := rfl
  ingredientsTags := rfl
  images := rfl

/-- The reader accepts the document whatever the type of the quantity is. -/
theorem milk_accepted (quantity : Json) (now code : CString) (number : Int32) :
    sfPrRawDecoder (Json.parse Json.standardRaw) now
        (Json.printUnformatted (milkDocument quantity)) number code =
      some (noError,
        some (.object (message (milkCopied quantity) number now code))) :=
  outcome_eq_decoded.mpr
    (rawDecoding_eq_ok.mpr
      ⟨milkDocument quantity, milkProduct quantity, milkCopied quantity,
        Json.parse_printUnformatted Json.standardRaw_printable _,
        milk_found quantity, milk_copied quantity, rfl⟩)

theorem milk_texts (quantity : CString) :
    TextsAreStrings (milkProduct (.string quantity)) :=
  (complete_iff_textsAreStrings (milk_copied (.string quantity))).mp
    (by simp [Copied.texts, milkCopied])

theorem milk_tags (quantity : Json) :
    TagsAreStrings (milkProduct quantity) := by
  have strings : ∀ texts : List CString, ∀ child ∈ children (textArray texts),
      ∃ text, child = .string text := by
    intro texts child member
    rcases List.mem_map.mp member with ⟨text, _, rfl⟩
    exact ⟨text, rfl⟩
  intro name member item found
  simp only [copiedTags, List.mem_cons, List.not_mem_nil, or_false] at member
  rcases member with rfl | rfl | rfl
  · exact Option.some.inj found ▸ strings []
  · exact Option.some.inj found ▸ strings [.lit "en:milk"]
  · exact Option.some.inj found ▸ strings [.lit "en:milk"]

/-! ## The way of a message -/

section Transport

variable {parse : CString → Option Json} {print : Json → CString}

/-- An accepted document was parsed and its data were copied. -/
theorem copied_of_accepted
    {now strJson code : CString} {number : Int32} {object : Json}
    (accepted :
      sfPrRawDecoder parse now strJson number code =
        some (noError, some object))
    {document product : Json}
    (parsed : parse strJson = some document)
    (found : getObjectItem (some document) jsonProduct = some product) :
    ∃ copied, CopiedFrom product copied ∧
      object = .object (message copied number now code) := by
  rcases rawDecoding_eq_ok.mp (outcome_eq_decoded.mp accepted) with
    ⟨document', product', copied, parsed', found', source, produced⟩
  cases parsed.symm.trans parsed'
  cases found.symm.trans found'
  cases produced
  exact ⟨copied, source, rfl⟩

/-- The printed message is decoded as the message itself. -/
theorem prDecoding_print
    (faithful : ReadsPrinted parse print)
    {copied : Copied} (strings : AllStrings copied.images)
    {number : Int32} {now code : CString} {retval : Int} {product : Product} :
    prDecoding parse (print (.object (message copied number now code))) =
        .ok (retval, product) ↔
      retval = noError ∧
        IsAddition (.object (message copied number now code)) product := by
  rw [prDecoding_eq_ok,
    faithful _ (message_wire strings 997 number now code)]
  constructor
  · rintro ⟨_, same, addition | ⟨_, _, _, ⟨item, removed⟩, _⟩⟩
    · cases same
      exact addition
    · cases same
      cases (message_remove copied number now code).symm.trans removed
  · intro addition
    exact ⟨_, rfl, .inl addition⟩

/--
A product that the reader sends arrives in the database as it was in the
document, if the texts and tags that are copied unread are strings.
-/
theorem addPath_roundTrip
    (faithful : ReadsPrinted parse print)
    {now strJson code : CString} {number : Int32} {object : Json}
    (accepted :
      sfPrRawDecoder parse now strJson number code =
        some (noError, some object))
    {document product : Json}
    (parsed : parse strJson = some document)
    (found : getObjectItem (some document) jsonProduct = some product)
    (texts : TextsAreStrings product)
    (tags : TagsAreStrings product) :
    ∃ decoded,
      sfPrDecoder parse (print object) = some (noError, some decoded) ∧
        CarriedOver product number now code decoded := by
  rcases copied_of_accepted accepted parsed found with ⟨copied, source, rfl⟩
  have strings := decodedImages_allStrings source.images
  have complete := (complete_iff_textsAreStrings source).mpr texts
  have addition := message_isAddition strings complete number now code
  exact
    ⟨received copied number now code,
      outcome_eq_decoded.mpr
        ((prDecoding_print faithful strings).mpr ⟨rfl, addition⟩),
      received_carriedOver source texts tags number now code⟩

theorem addPath_roundTrip_milk :
    ∃ decoded,
      sfPrDecoder (Json.parse Json.standardRaw)
          (Json.printUnformatted
            (.object
              (message (milkCopied (.string (.lit "100g"))) 2
                (.lit "2024-01-01 10:00:00") (.lit "8480017439482")))) =
        some (noError, some decoded) ∧
        CarriedOver (milkProduct (.string (.lit "100g"))) 2
          (.lit "2024-01-01 10:00:00") (.lit "8480017439482") decoded :=
  addPath_roundTrip (readsPrinted_json Json.standardRaw_printable)
    (milk_accepted _ _ _ _)
    (Json.parse_printUnformatted Json.standardRaw_printable _)
    (milk_found _) (milk_texts _) (milk_tags _)

/--
A product that the reader sends is accepted by the database exactly if the
texts that were copied unread are strings.
-/
theorem producer_output_accepted_iff
    (faithful : ReadsPrinted parse print)
    {now strJson code : CString} {number : Int32} {object : Json}
    (accepted :
      sfPrRawDecoder parse now strJson number code =
        some (noError, some object))
    {document product : Json}
    (parsed : parse strJson = some document)
    (found : getObjectItem (some document) jsonProduct = some product) :
    (∃ decoded,
        sfPrDecoder parse (print object) = some (noError, some decoded)) ↔
      TextsAreStrings product := by
  rcases copied_of_accepted accepted parsed found with ⟨copied, source, rfl⟩
  have strings := decodedImages_allStrings source.images
  rw [← complete_iff_textsAreStrings source]
  constructor
  · rintro ⟨decoded, received⟩
    have addition :=
      (prDecoding_print faithful strings).mp (outcome_eq_decoded.mp received)
    exact complete_of_isAddition addition.2
  · intro complete
    have addition := message_isAddition strings complete number now code
    exact ⟨_, outcome_eq_decoded.mpr
      ((prDecoding_print faithful strings).mpr ⟨rfl, addition⟩)⟩

theorem producer_output_accepted_iff_milk :
    (∃ decoded,
        sfPrDecoder (Json.parse Json.standardRaw)
            (Json.printUnformatted
              (.object
                (message (milkCopied (.string (.lit "100g"))) 2
                  (.lit "2024-01-01 10:00:00") (.lit "8480017439482")))) =
          some (noError, some decoded)) ↔
      TextsAreStrings (milkProduct (.string (.lit "100g"))) :=
  producer_output_accepted_iff
    (readsPrinted_json Json.standardRaw_printable)
    (milk_accepted _ _ _ _)
    (Json.parse_printUnformatted Json.standardRaw_printable _)
    (milk_found _)

/-- A product whose quantity is null is sent and refused. -/
theorem producer_output_refused_for_null :
    ¬ ∀ (strJson now code : CString) (number : Int32) (object : Json),
        sfPrRawDecoder (Json.parse Json.standardRaw) now strJson number code =
            some (noError, some object) →
          ∃ decoded,
            sfPrDecoder (Json.parse Json.standardRaw)
                (Json.printUnformatted object) =
              some (noError, some decoded) := by
  intro always
  have sent := milk_accepted .null .empty .empty 1
  rcases always _ _ _ _ _ sent with ⟨decoded, received⟩
  have addition :=
    (prDecoding_print (readsPrinted_json Json.standardRaw_printable)
      (decodedImages_allStrings (milk_copied .null).images)).mp
      (outcome_eq_decoded.mp received)
  have present :=
    complete_of_isAddition addition.2 none
      (by simp [Copied.texts, milkCopied, valuestring])
  cases present

end Transport

end SmartFridge.ProductRoundTrip
