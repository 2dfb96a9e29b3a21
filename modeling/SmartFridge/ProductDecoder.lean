import SmartFridge.CJson

/-!
# The two product decoders

`sf_pr_raw_decoder` turns a document of the product database into the message
that the reader sends, and `sf_pr_decoder` turns a received message into a
product.  Both leave through one exit with a result code, and both read strings
through `valuestring` without a test; reading a NULL string is a fault, after
which the program has no result.
-/

namespace SmartFridge.ProductDecoder

open SmartFridge.Library
open SmartFridge.CJson

/-! ## Result codes -/

/-- NO_ERROR. -/
abbrev noError : Int := 0

/-- INV_FORMAT. -/
abbrev invFormat : Int := 1

/-- UNEX_FIELDS. -/
abbrev unexFields : Int := 2

/-- PR_NOT_FOUND. -/
abbrev prNotFound : Int := 3

/-- DELETION_REQ, which has the value of UNEX_FIELDS. -/
abbrev deletionReq : Int := 2

/-! ## Names of members -/

abbrev jsonProduct : CString := .lit "product"
abbrev jsonProductImages : CString := .lit "selected_images"
abbrev jsonImages : CString := .lit "images"
abbrev jsonProductName : CString := .lit "product_name"
abbrev jsonName : CString := .lit "name"
abbrev jsonProductQuantity : CString := .lit "nutrition_data_per"
abbrev jsonQuantity : CString := .lit "quantity"
abbrev jsonProductIngredients : CString := .lit "ingredients_text"
abbrev jsonIngredients : CString := .lit "ingredients"
abbrev jsonProductBrands : CString := .lit "brands"
abbrev jsonProductExpirationDate : CString := .lit "expiration_date"
abbrev jsonProductLabels : CString := .lit "labels"
abbrev jsonProductAllergensTags : CString := .lit "allergens_tags"
abbrev jsonAllergensTags : CString := .lit "allergens"
abbrev jsonProductAdditivesTags : CString := .lit "additives_tags"
abbrev jsonAdditives : CString := .lit "additives"
abbrev jsonProductIngredientsTags : CString := .lit "ingredients_tags"
abbrev jsonIngredientsTags : CString := .lit "ingredients"
abbrev jsonProductImagesFront : CString := .lit "front"
abbrev jsonProductImagesNutrition : CString := .lit "nutrition"
abbrev jsonProductImagesIngredients : CString := .lit "ingredients"
abbrev jsonProductImagesFormat : CString := .lit "display"
abbrev jsonStatusVerbose : CString := .lit "status_verbose"
abbrev jsonTags : CString := .lit "tags"
abbrev jsonNumber : CString := .lit "number"
abbrev jsonProductEs : CString := .lit "es"
abbrev jsonProductCode : CString := .lit "code"
abbrev jsonRemove : CString := .lit "remove"
abbrev jsonProductTimestamp : CString := .lit "timestamp"
abbrev jsonProductCategories : CString := .lit "categories"
abbrev jsonGenericName : CString := .lit "generic_name"
abbrev productNotFound : CString := .lit "product not found"

/-! ## Products -/

/-- The structure `product_images`. -/
structure ProductImages where
  front : Option CString
  nutrition : Option CString
  ingredients : Option CString
deriving DecidableEq

/-- The structure `product`; a pointer that is NULL is `none`. -/
structure Product where
  images : ProductImages
  name : Option CString
  code : Option CString
  timestamp : Option CString
  quantity : Option CString
  ingredients : Option CString
  brands : Option CString
  expirationDate : Option CString
  labels : Option CString
  ingredientsTags : Option (List CString)
  allergensTags : Option (List CString)
  additivesTags : Option (List CString)
  number : Int32
deriving DecidableEq

/-- The cleared structure. -/
def Product.zero : Product :=
  { images := ⟨none, none, none⟩
    name := none
    code := none
    timestamp := none
    quantity := none
    ingredients := none
    brands := none
    expirationDate := none
    labels := none
    ingredientsTags := none
    allergensTags := none
    additivesTags := none
    number := 0 }

/-! ## Steps of both decoders -/

/-- Why a decoder stops before its end. -/
inductive Stop where
  | fault
  | exit (retval : Int)
deriving DecidableEq

/-- A member that has to be present. -/
def requireItem (object : Option Json) (name : CString) : Except Stop Json :=
  match getObjectItem object name with
  | none => .error (.exit unexFields)
  | some item => .ok item

/-- The text behind `valuestring`, which is read without a test. -/
def readString (item : Json) : Except Stop CString :=
  match valuestring item with
  | none => .error .fault
  | some text => .ok text

/-- What the caller sees of a decoding; nothing if a NULL string was read. -/
def outcome {α : Type} (decoding : Except Stop (Int × α)) :
    Option (Int × Option α) :=
  match decoding with
  | .ok (retval, decoded) => some (retval, some decoded)
  | .error (.exit retval) => some (retval, none)
  | .error .fault => none

theorem requireItem_eq_ok
    {object : Option Json} {name : CString} {item : Json} :
    requireItem object name = .ok item ↔
      getObjectItem object name = some item := by
  cases found : getObjectItem object name with
  | none => simp [requireItem, found]
  | some value => simp [requireItem, found]

theorem readString_eq_ok {item : Json} {text : CString} :
    readString item = .ok text ↔ item = .string text := by
  cases item with
  | string value => simp [readString]
  | _ => simp [readString, valuestring]

theorem bind_eq_ok {α β : Type}
    {first : Except Stop α} {next : α → Except Stop β} {result : β} :
    (first >>= next) = .ok result ↔
      ∃ value, first = .ok value ∧ next value = .ok result := by
  cases first with
  | error stop => simp [bind, Except.bind]
  | ok value => simp [bind, Except.bind]

theorem outcome_eq_decoded {α : Type}
    {decoding : Except Stop (Int × α)} {retval : Int} {decoded : α} :
    outcome decoding = some (retval, some decoded) ↔
      decoding = .ok (retval, decoded) := by
  cases decoding with
  | ok result => simp [outcome, Prod.ext_iff]
  | error stop =>
      cases stop with
      | fault => simp [outcome]
      | exit code => simp [outcome]

/-! ## sf_pr_raw_decoder -/

/-- The `product` member, or the reason why there is none. -/
def productItem (obj : Json) : Except Stop Json :=
  match getObjectItem (some obj) jsonProduct with
  | some product => .ok product
  | none =>
      match getObjectItem (some obj) jsonStatusVerbose with
      | none => .error (.exit unexFields)
      | some status => do
          let verbose ← readString status
          if verbose = productNotFound then
            .error (.exit prNotFound)
          else
            .error (.exit unexFields)

/-- The first text of some members that is not empty. -/
def firstNonEmpty (product : Json) : List CString → Except Stop CString
  | [] => .error (.exit unexFields)
  | name :: substitutes => do
      let item ← requireItem (some product) name
      let text ← readString item
      if text = CString.empty then
        firstNonEmpty product substitutes
      else
        .ok text

/-- The product name, or one of its substitutes. -/
def productName (product : Json) : Except Stop CString :=
  firstNonEmpty product
    [jsonProductName, jsonGenericName, jsonProductCategories]

/-- Copies the text of a member that is present, whatever its type. -/
def addText (source target : CString) (product : Json) (decoded : Members) :
    Except Stop Members := do
  let item ← requireItem (some product) source
  return addStringToObject decoded target (valuestring item)

def addQuantity : Json → Members → Except Stop Members :=
  addText jsonProductQuantity jsonQuantity

def addIngredients : Json → Members → Except Stop Members :=
  addText jsonProductIngredients jsonIngredients

def addBrands : Json → Members → Except Stop Members :=
  addText jsonProductBrands jsonProductBrands

def addExpirationDate : Json → Members → Except Stop Members :=
  addText jsonProductExpirationDate jsonProductExpirationDate

def addLabels : Json → Members → Except Stop Members :=
  addText jsonProductLabels jsonProductLabels

/-- The loop over the items of a tag array. -/
def copyTags (item : Json) : List Json :=
  (children item).foldl
    (fun tags child => addItemToArray tags ((valuestring child).map .string)) []

/-- Copies a tag array that is present. -/
def addTags (source target : CString) (product : Json) (tags : Members) :
    Except Stop Members := do
  let item ← requireItem (some product) source
  return addItemToObject tags target (some (.array (copyTags item)))

def addAdditivesTags : Json → Members → Except Stop Members :=
  addTags jsonProductAdditivesTags jsonAdditives

def addAllergensTags : Json → Members → Except Stop Members :=
  addTags jsonProductAllergensTags jsonAllergensTags

def addIngredientsTags : Json → Members → Except Stop Members :=
  addTags jsonProductIngredientsTags jsonIngredientsTags

/--
Copies the URL of an image: the Spanish one, or else the first one, under the
name `fallback`.
-/
def addImage (slot fallback : CString) (images : Json) (decoded : Members) :
    Except Stop Members :=
  match getObjectItem (getObjectItem (some images) slot)
      jsonProductImagesFormat with
  | none => .ok decoded
  | some format =>
      match getObjectItem (some format) jsonProductEs with
      | some url => .ok (addStringToObject decoded slot (valuestring url))
      | none =>
          match (children format).head?.bind valuestring with
          | none => .error (.exit unexFields)
          | some url => .ok (addStringToObject decoded fallback (some url))

def addFrontImage : Json → Members → Except Stop Members :=
  addImage jsonProductImagesFront jsonProductImagesFront

/-- The first URL of this image is stored under the name of the front image. -/
def addNutritionImage : Json → Members → Except Stop Members :=
  addImage jsonProductImagesNutrition jsonProductImagesFront

/-- The first URL of this image is stored under the name of the front image. -/
def addIngredientsImage : Json → Members → Except Stop Members :=
  addImage jsonProductImagesIngredients jsonProductImagesFront

/-- The text members of the message, before its tags and images. -/
def decodedTexts (product : Json) (number : Int32) : Except Stop Members := do
  let name ← productName product
  let decoded := addStringToObject [] jsonName (some name)
  let decoded := addNumberToObject decoded jsonNumber number
  let decoded ← addQuantity product decoded
  let decoded ← addIngredients product decoded
  let decoded ← addBrands product decoded
  let decoded ← addExpirationDate product decoded
  addLabels product decoded

/-- The object of the three tag arrays. -/
def decodedTags (product : Json) : Except Stop Members := do
  let tags ← addAdditivesTags product []
  let tags ← addAllergensTags product tags
  addIngredientsTags product tags

/-- The object of the image URLs. -/
def decodedImages (product : Json) : Except Stop Members := do
  let images ← requireItem (some product) jsonProductImages
  let decoded ← addFrontImage images []
  let decoded ← addNutritionImage images decoded
  addIngredientsImage images decoded

/-- The body of `sf_pr_raw_decoder`; `now` is the text that strftime wrote. -/
def rawDecoding
    (parse : CString → Option Json) (now : CString)
    (strJson : CString) (number : Int32) (code : CString) :
    Except Stop (Int × Json) :=
  match parse strJson with
  | none => .error (.exit invFormat)
  | some obj => do
      let product ← productItem obj
      let decoded ← decodedTexts product number
      let tags ← decodedTags product
      let decoded := addItemToObject decoded jsonTags (some (.object tags))
      let images ← decodedImages product
      let decoded := addItemToObject decoded jsonImages (some (.object images))
      let decoded := addStringToObject decoded jsonProductTimestamp (some now)
      let decoded := addStringToObject decoded jsonProductCode (some code)
      return (noError, .object decoded)

/-- The result of `sf_pr_raw_decoder` and the object behind `pr_dec`. -/
def sfPrRawDecoder
    (parse : CString → Option Json) (now : CString)
    (strJson : CString) (number : Int32) (code : CString) :
    Option (Int × Option Json) :=
  outcome (rawDecoding parse now strJson number code)

/-- A decoding that stops early has one of these codes to report. -/
def ExitsWith {α : Type} (codes : List Int) (decoding : Except Stop α) : Prop :=
  ∀ retval, decoding = .error (.exit retval) → retval ∈ codes

/-- A decoding that stops early has an error to report. -/
def ReportsErrors {α : Type} (decoding : Except Stop α) : Prop :=
  ∀ retval, decoding = .error (.exit retval) → retval ≠ noError

section ExitCodes

variable {α β : Type} {codes : List Int}

theorem exitsWith_ok (value : α) : ExitsWith codes (.ok value) :=
  fun _ impossible => nomatch impossible

theorem exitsWith_fault :
    ExitsWith codes (.error .fault : Except Stop α) :=
  fun _ impossible => nomatch impossible

theorem exitsWith_exit {retval : Int} (listed : retval ∈ codes) :
    ExitsWith codes (.error (.exit retval) : Except Stop α) := by
  intro other stopped
  cases stopped
  exact listed

theorem ExitsWith.bind
    {first : Except Stop α} {next : α → Except Stop β}
    (firstExits : ExitsWith codes first)
    (nextExits : ∀ value, ExitsWith codes (next value)) :
    ExitsWith codes (first >>= next) := by
  intro retval stopped
  cases first with
  | ok value => exact nextExits value retval stopped
  | error stop =>
      cases stop with
      | fault => cases stopped
      | exit code =>
          cases stopped
          exact firstExits _ rfl

variable (listed : unexFields ∈ codes)
include listed

theorem requireItem_exitsWith (object : Option Json) (name : CString) :
    ExitsWith codes (requireItem object name) := by
  unfold requireItem
  split
  · exact exitsWith_exit listed
  · exact exitsWith_ok _

omit listed in
theorem readString_exitsWith (item : Json) :
    ExitsWith codes (readString item) := by
  unfold readString
  split
  · exact exitsWith_fault
  · exact exitsWith_ok _

theorem firstNonEmpty_exitsWith (product : Json) (names : List CString) :
    ExitsWith codes (firstNonEmpty product names) := by
  induction names with
  | nil => exact exitsWith_exit listed
  | cons name substitutes ih =>
      apply (requireItem_exitsWith listed _ _).bind
      intro item
      apply (readString_exitsWith item).bind
      intro text
      split
      · exact ih
      · exact exitsWith_ok text

theorem productItem_exitsWith (found : prNotFound ∈ codes) (obj : Json) :
    ExitsWith codes (productItem obj) := by
  unfold productItem
  split
  · exact exitsWith_ok _
  · split
    · exact exitsWith_exit listed
    · apply (readString_exitsWith _).bind
      intro verbose
      split
      · exact exitsWith_exit found
      · exact exitsWith_exit listed

theorem addText_exitsWith
    (source target : CString) (product : Json) (decoded : Members) :
    ExitsWith codes (addText source target product decoded) :=
  (requireItem_exitsWith listed _ _).bind fun _ => exitsWith_ok _

theorem addTags_exitsWith
    (source target : CString) (product : Json) (tags : Members) :
    ExitsWith codes (addTags source target product tags) :=
  (requireItem_exitsWith listed _ _).bind fun _ => exitsWith_ok _

theorem addImage_exitsWith
    (slot fallback : CString) (images : Json) (decoded : Members) :
    ExitsWith codes (addImage slot fallback images decoded) := by
  unfold addImage
  split
  · exact exitsWith_ok _
  · split
    · exact exitsWith_ok _
    · split
      · exact exitsWith_exit listed
      · exact exitsWith_ok _

theorem decodedTexts_exitsWith (product : Json) (number : Int32) :
    ExitsWith codes (decodedTexts product number) :=
  (firstNonEmpty_exitsWith listed _ _).bind fun _ =>
    (addText_exitsWith listed _ _ _ _).bind fun _ =>
      (addText_exitsWith listed _ _ _ _).bind fun _ =>
        (addText_exitsWith listed _ _ _ _).bind fun _ =>
          (addText_exitsWith listed _ _ _ _).bind fun _ =>
            addText_exitsWith listed _ _ _ _

theorem decodedTags_exitsWith (product : Json) :
    ExitsWith codes (decodedTags product) :=
  (addTags_exitsWith listed _ _ _ _).bind fun _ =>
    (addTags_exitsWith listed _ _ _ _).bind fun _ =>
      addTags_exitsWith listed _ _ _ _

theorem decodedImages_exitsWith (product : Json) :
    ExitsWith codes (decodedImages product) :=
  (requireItem_exitsWith listed _ _).bind fun _ =>
    (addImage_exitsWith listed _ _ _ _).bind fun _ =>
      (addImage_exitsWith listed _ _ _ _).bind fun _ =>
        addImage_exitsWith listed _ _ _ _

end ExitCodes

/-- The error codes of `sf_pr_raw_decoder`. -/
abbrev rawErrors : List Int := [invFormat, unexFields, prNotFound]

/-- The raw decoder stops before its end only with one of its error codes. -/
theorem rawDecoding_exitsWith
    (parse : CString → Option Json) (now strJson : CString)
    (number : Int32) (code : CString) :
    ExitsWith rawErrors (rawDecoding parse now strJson number code) := by
  have listed : unexFields ∈ rawErrors := by decide
  unfold rawDecoding
  split
  · exact exitsWith_exit (by decide)
  · apply (productItem_exitsWith listed (by decide) _).bind
    intro product
    apply (decodedTexts_exitsWith listed _ _).bind
    intro decoded
    apply (decodedTags_exitsWith listed _).bind
    intro tags
    apply (decodedImages_exitsWith listed _).bind
    intro images
    exact exitsWith_ok _

theorem rawDecoding_reportsErrors
    (parse : CString → Option Json) (now strJson : CString)
    (number : Int32) (code : CString) :
    ReportsErrors (rawDecoding parse now strJson number code) := by
  intro retval stopped
  have listed := rawDecoding_exitsWith _ _ _ _ _ _ stopped
  rintro rfl
  exact absurd listed (by decide)

/-- NO_ERROR comes with an object. -/
theorem object_of_noError
    {parse : CString → Option Json} {now strJson code : CString}
    {number : Int32} {object : Option Json}
    (decoded :
      sfPrRawDecoder parse now strJson number code = some (noError, object)) :
    ∃ produced, object = some produced := by
  unfold sfPrRawDecoder outcome at decoded
  split at decoded
  · cases decoded
    exact ⟨_, rfl⟩
  · next retval stopped =>
      cases decoded
      exact absurd rfl (rawDecoding_reportsErrors _ _ _ _ _ _ stopped)
  · cases decoded

/-! ## sf_pr_decoder -/

/-- An empty text leaves its pointer NULL. -/
def nullIfEmpty (text : CString) : Option CString :=
  if text = CString.empty then none else some text

/-- A text member. -/
def readText (name : CString) (message : Json) :
    Except Stop (Option CString) := do
  let item ← requireItem (some message) name
  let text ← readString item
  return nullIfEmpty text

def readCode : Json → Except Stop (Option CString) :=
  readText jsonProductCode

/-- The name is copied even if it is empty. -/
def readName (message : Json) : Except Stop (Option CString) := do
  let item ← requireItem (some message) jsonName
  let text ← readString item
  return some text

def readNumber (message : Json) : Except Stop Int32 := do
  let item ← requireItem (some message) jsonNumber
  return valueint item

def readQuantity : Json → Except Stop (Option CString) :=
  readText jsonQuantity

def readIngredients : Json → Except Stop (Option CString) :=
  readText jsonIngredients

def readBrands : Json → Except Stop (Option CString) :=
  readText jsonProductBrands

def readExpirationDate : Json → Except Stop (Option CString) :=
  readText jsonProductExpirationDate

def readTimestamp : Json → Except Stop (Option CString) :=
  readText jsonProductTimestamp

def readLabels : Json → Except Stop (Option CString) :=
  readText jsonProductLabels

/-- The array of no tags is never allocated. -/
def nullIfNone (texts : List CString) : Option (List CString) :=
  if texts = [] then none else some texts

/-- The NULL-terminated array of some tags. -/
def readTags (name : CString) (tags : Option Json) :
    Except Stop (Option (List CString)) := do
  let item ← requireItem tags name
  let texts ← (children item).mapM readString
  return nullIfNone texts

def readAdditivesTags : Option Json → Except Stop (Option (List CString)) :=
  readTags jsonAdditives

def readAllergensTags : Option Json → Except Stop (Option (List CString)) :=
  readTags jsonAllergensTags

def readIngredientsTags : Option Json → Except Stop (Option (List CString)) :=
  readTags jsonIngredientsTags

/-- The URL of an image that may be absent. -/
def readImage (slot : CString) (images : Json) :
    Except Stop (Option CString) :=
  match getObjectItem (some images) slot with
  | none => .ok none
  | some item => do
      let url ← readString item
      return some url

/-- The images of a message. -/
def readImages (message : Json) : Except Stop ProductImages := do
  let images ← requireItem (some message) jsonImages
  let front ← readImage jsonProductImagesFront images
  let nutrition ← readImage jsonProductImagesNutrition images
  let ingredients ← readImage jsonProductImagesIngredients images
  return { front, nutrition, ingredients }

/-- The body of `sf_pr_decoder`. -/
def prDecoding (parse : CString → Option Json) (strJson : CString) :
    Except Stop (Int × Product) :=
  match parse strJson with
  | none => .error (.exit invFormat)
  | some message => do
      let code ← readCode message
      match getObjectItem (some message) jsonRemove with
      | some _ => return (deletionReq, { Product.zero with code })
      | none => do
          let name ← readName message
          let number ← readNumber message
          let quantity ← readQuantity message
          let ingredients ← readIngredients message
          let brands ← readBrands message
          let expirationDate ← readExpirationDate message
          let timestamp ← readTimestamp message
          let labels ← readLabels message
          -- The test behind this lookup is made on the labels, which are there.
          let tags := getObjectItem (some message) jsonTags
          let additivesTags ← readAdditivesTags tags
          let allergensTags ← readAllergensTags tags
          let ingredientsTags ← readIngredientsTags tags
          let images ← readImages message
          return (noError,
            { images, name, code, timestamp, quantity, ingredients, brands,
              expirationDate, labels, ingredientsTags, allergensTags,
              additivesTags, number })

/-- The result of `sf_pr_decoder` and the product behind `pr_dec`. -/
def sfPrDecoder (parse : CString → Option Json) (strJson : CString) :
    Option (Int × Option Product) :=
  outcome (prDecoding parse strJson)

/-! ## What an accepted message contains -/

/-- A text member of the message and the pointer that it fills. -/
def TextMember (message : Json) (name : CString) (value : Option CString) :
    Prop :=
  ∃ text, getObjectItem (some message) name = some (.string text) ∧
    value = nullIfEmpty text

/-- A tag array of the message and the array that it fills. -/
def TagMember
    (tags : Option Json) (name : CString) (value : Option (List CString)) :
    Prop :=
  ∃ item texts, getObjectItem tags name = some item ∧
    children item = texts.map .string ∧ value = nullIfNone texts

/-- The image object of the message and the images that it fills. -/
def ImageMember (message : Json) (images : ProductImages) : Prop :=
  ∃ item, getObjectItem (some message) jsonImages = some item ∧
    getObjectItem (some item) jsonProductImagesFront =
      images.front.map .string ∧
    getObjectItem (some item) jsonProductImagesNutrition =
      images.nutrition.map .string ∧
    getObjectItem (some item) jsonProductImagesIngredients =
      images.ingredients.map .string

/-- The message of a product to be added. -/
structure IsAddition (message : Json) (product : Product) : Prop where
  code : TextMember message jsonProductCode product.code
  kept : getObjectItem (some message) jsonRemove = none
  name : ∃ text, getObjectItem (some message) jsonName = some (.string text) ∧
    product.name = some text
  number : ∃ item, getObjectItem (some message) jsonNumber = some item ∧
    product.number = valueint item
  quantity : TextMember message jsonQuantity product.quantity
  ingredients : TextMember message jsonIngredients product.ingredients
  brands : TextMember message jsonProductBrands product.brands
  expirationDate :
    TextMember message jsonProductExpirationDate product.expirationDate
  timestamp : TextMember message jsonProductTimestamp product.timestamp
  labels : TextMember message jsonProductLabels product.labels
  additives :
    TagMember (getObjectItem (some message) jsonTags) jsonAdditives
      product.additivesTags
  allergens :
    TagMember (getObjectItem (some message) jsonTags) jsonAllergensTags
      product.allergensTags
  ingredientsTags :
    TagMember (getObjectItem (some message) jsonTags) jsonIngredientsTags
      product.ingredientsTags
  images : ImageMember message product.images

/-- The message of a product to be removed. -/
def IsRemoval (message : Json) (product : Product) : Prop :=
  ∃ code, TextMember message jsonProductCode code ∧
    (∃ item, getObjectItem (some message) jsonRemove = some item) ∧
    product = { Product.zero with code }

theorem readText_eq_ok
    {name : CString} {message : Json} {value : Option CString} :
    readText name message = .ok value ↔ TextMember message name value := by
  simp only [readText, TextMember, bind_eq_ok, requireItem_eq_ok,
    readString_eq_ok]
  constructor
  · rintro ⟨item, found, text, rfl, produced⟩
    cases produced
    exact ⟨text, found, rfl⟩
  · rintro ⟨text, found, rfl⟩
    exact ⟨.string text, found, text, rfl, rfl⟩

theorem mapM_readString_eq_ok {items : List Json} {texts : List CString} :
    items.mapM readString = .ok texts ↔ items = texts.map .string := by
  induction items generalizing texts with
  | nil =>
      cases texts with
      | nil => simp [pure, Except.pure]
      | cons text rest => simp [pure, Except.pure]
  | cons item rest ih =>
      simp only [List.mapM_cons, bind_eq_ok, readString_eq_ok, ih]
      constructor
      · rintro ⟨text, rfl, others, rfl, produced⟩
        cases produced
        rfl
      · intro equal
        cases texts with
        | nil => cases equal
        | cons text others =>
            cases equal
            exact ⟨text, rfl, others, rfl, rfl⟩

theorem readTags_eq_ok
    {name : CString} {tags : Option Json} {value : Option (List CString)} :
    readTags name tags = .ok value ↔ TagMember tags name value := by
  simp only [readTags, TagMember, bind_eq_ok, requireItem_eq_ok,
    mapM_readString_eq_ok]
  constructor
  · rintro ⟨item, found, texts, same, produced⟩
    cases produced
    exact ⟨item, texts, found, same, rfl⟩
  · rintro ⟨item, texts, found, same, rfl⟩
    exact ⟨item, found, texts, same, rfl⟩

theorem readImage_eq_ok
    {slot : CString} {images : Json} {url : Option CString} :
    readImage slot images = .ok url ↔
      getObjectItem (some images) slot = url.map .string := by
  unfold readImage
  cases getObjectItem (some images) slot with
  | none =>
      cases url with
      | none => simp
      | some text => simp
  | some item =>
      simp only [bind_eq_ok, readString_eq_ok]
      constructor
      · rintro ⟨text, rfl, produced⟩
        cases produced
        rfl
      · intro equal
        cases url with
        | none => cases equal
        | some text =>
            cases equal
            exact ⟨text, rfl, rfl⟩

theorem readImages_eq_ok {message : Json} {images : ProductImages} :
    readImages message = .ok images ↔ ImageMember message images := by
  simp only [readImages, ImageMember, bind_eq_ok, requireItem_eq_ok,
    readImage_eq_ok]
  constructor
  · rintro ⟨item, found, front, readFront, nutrition, readNutrition,
      ingredients, readIngredients, produced⟩
    cases produced
    exact ⟨item, found, readFront, readNutrition, readIngredients⟩
  · rintro ⟨item, found, readFront, readNutrition, readIngredients⟩
    exact
      ⟨item, found, _, readFront, _, readNutrition, _, readIngredients, rfl⟩

/-- A decoding ends with a product exactly on the two kinds of messages. -/
theorem prDecoding_eq_ok
    {parse : CString → Option Json} {strJson : CString} {retval : Int}
    {product : Product} :
    prDecoding parse strJson = .ok (retval, product) ↔
      ∃ message, parse strJson = some message ∧
        (retval = noError ∧ IsAddition message product ∨
          retval = deletionReq ∧ IsRemoval message product) := by
  unfold prDecoding
  cases parse strJson with
  | none => simp
  | some message =>
      simp only [bind_eq_ok, readCode, readText_eq_ok, Option.some.injEq,
        exists_eq_left']
      cases removal : getObjectItem (some message) jsonRemove with
      | some item =>
          constructor
          · rintro ⟨code, coded, produced⟩
            cases produced
            exact .inr ⟨rfl, code, coded, ⟨item, removal⟩, rfl⟩
          · rintro (⟨_, addition⟩ | ⟨rfl, code, coded, _, rfl⟩)
            · cases removal.symm.trans addition.kept
            · exact ⟨code, coded, rfl⟩
      | none =>
          simp only [bind_eq_ok, readName, readNumber, readQuantity,
            readIngredients, readBrands, readExpirationDate, readTimestamp,
            readLabels, readAdditivesTags, readAllergensTags,
            readIngredientsTags, readText_eq_ok, readTags_eq_ok,
            readImages_eq_ok, requireItem_eq_ok, readString_eq_ok]
          constructor
          · rintro ⟨code, coded,
              name, ⟨_, named, text, rfl, namedAs⟩,
              number, ⟨numberItem, numbered, numberedAs⟩,
              quantity, quantityRead, ingredients, ingredientsRead,
              brands, brandsRead, expirationDate, expirationRead,
              timestamp, timestampRead, labels, labelsRead,
              additivesTags, additivesRead, allergensTags, allergensRead,
              ingredientsTags, ingredientsTagsRead,
              images, imagesRead, produced⟩
            cases namedAs
            cases numberedAs
            cases produced
            exact .inl ⟨rfl,
              { code := coded
                kept := removal
                name := ⟨text, named, rfl⟩
                number := ⟨numberItem, numbered, rfl⟩
                quantity := quantityRead
                ingredients := ingredientsRead
                brands := brandsRead
                expirationDate := expirationRead
                timestamp := timestampRead
                labels := labelsRead
                additives := additivesRead
                allergens := allergensRead
                ingredientsTags := ingredientsTagsRead
                images := imagesRead }⟩
          · rintro (⟨rfl, addition⟩ | ⟨_, _, _, ⟨item, removed⟩, _⟩)
            · rcases addition.name with ⟨text, named, nameEq⟩
              rcases addition.number with ⟨item, numbered, numberEq⟩
              refine
                ⟨_, addition.code, _, ⟨_, named, _, rfl, rfl⟩,
                  _, ⟨_, numbered, rfl⟩,
                  _, addition.quantity, _, addition.ingredients,
                  _, addition.brands, _, addition.expirationDate,
                  _, addition.timestamp, _, addition.labels,
                  _, addition.additives, _, addition.allergens,
                  _, addition.ingredientsTags, _, addition.images, ?_⟩
              rw [← nameEq, ← numberEq]
              rfl
            · cases removal.symm.trans removed

end SmartFridge.ProductDecoder
