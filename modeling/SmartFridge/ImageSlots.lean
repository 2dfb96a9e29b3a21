import SmartFridge.ProductRoundTrip

/-!
# The images of a product

From the displays of a product document to the images that the database stores.
A display without a Spanish URL gives its first URL, which is stored as the
front image whatever slot the display belongs to.
-/

namespace SmartFridge.ImageSlots

open SmartFridge.Library
open SmartFridge.CJson
open SmartFridge.ProductDecoder
open SmartFridge.ProductRoundTrip

/-- The three images of a product. -/
inductive Slot where
  | front
  | nutrition
  | ingredients
deriving DecidableEq

/-- The name of an image in documents and messages. -/
def Slot.name : Slot → CString
  | .front => jsonProductImagesFront
  | .nutrition => jsonProductImagesNutrition
  | .ingredients => jsonProductImagesIngredients

/-- The member of `product_images`. -/
def Slot.stored : Slot → ProductImages → Option CString
  | .front => ProductImages.front
  | .nutrition => ProductImages.nutrition
  | .ingredients => ProductImages.ingredients

/-- The display of a slot among some images. -/
def displayOf (images : Json) (slot : CString) : Option Json :=
  getObjectItem (getObjectItem (some images) slot) jsonProductImagesFormat

/-- `selected_images`, the slot and its `display`. -/
def display (product : Json) (slot : Slot) : Option Json :=
  (getObjectItem (some product) jsonProductImages).bind fun images =>
    displayOf images slot.name

/-- The member `es` of a display. -/
def spanish (format : Option Json) : Option Json :=
  getObjectItem format jsonProductEs

/-- The Spanish URL of a display. -/
def spanishUrl (format : Option Json) : Option CString :=
  (spanish format).bind valuestring

/-- The URL of the first child of a display. -/
def firstUrl (format : Option Json) : Option CString :=
  (format.bind fun display => (children display).head?).bind valuestring

/-- The image that a display stands for. -/
def imageOf (format : Option Json) : Option CString :=
  (spanishUrl format).or (firstUrl format)

/-- The URL that is taken for want of a Spanish one. -/
def fallbackUrl (format : Option Json) : Option CString :=
  if spanish format = none then firstUrl format else none

/-! ## The raw decoder -/

/-- What `addImage` adds, as the members see it. -/
theorem findMember_addImage {slot fallback : CString} {images : Json}
    {decoded result : Members}
    (added : addImage slot fallback images decoded = .ok result)
    (name : CString) :
    findMember result name =
      ((findMember decoded name).or
        (if name.caseEq slot = true then
          (spanishUrl (displayOf images slot)).map .string else none)).or
        (if name.caseEq fallback = true then
          (fallbackUrl (displayOf images slot)).map .string else none) := by
  unfold addImage at added
  rw [displayOf]
  split at added
  · next missing =>
      cases added
      simp [missing, spanishUrl, fallbackUrl, firstUrl, spanish]
  · next format present =>
      rw [present]
      split at added
      · next url found =>
          cases added
          rw [addStringToObject, findMember_addItem]
          simp [spanishUrl, fallbackUrl, spanish, found]
      · next missing =>
          split at added
          · cases added
          · next url found =>
              cases added
              rw [addStringToObject, findMember_addItem]
              simp [spanishUrl, fallbackUrl, firstUrl, spanish, missing, found]

/-- A display that was accepted gives a URL, unless `es` is no string. -/
theorem firstUrl_of_added {slot fallback : CString} {images : Json}
    {decoded result : Members}
    (added : addImage slot fallback images decoded = .ok result)
    (present : displayOf images slot ≠ none)
    (missing : spanish (displayOf images slot) = none) :
    firstUrl (displayOf images slot) ≠ none := by
  unfold addImage at added
  rcases Option.ne_none_iff_exists'.mp present with ⟨format, found⟩
  rw [displayOf] at found missing ⊢
  rw [found] at added missing ⊢
  rw [spanish] at missing
  simp only [missing] at added
  intro none_
  rw [firstUrl, Option.bind_some] at none_
  simp only [none_] at added
  cases added

/-- The images that a message carries, slot by slot. -/
theorem findMember_decodedImages {product : Json} {images : Members}
    (decoded : decodedImages product = .ok images) :
    findMember images jsonProductImagesFront =
        ((((spanishUrl (display product .front)).or
          (fallbackUrl (display product .front))).or
            (fallbackUrl (display product .nutrition))).or
              (fallbackUrl (display product .ingredients))).map .string ∧
      findMember images jsonProductImagesNutrition =
        (spanishUrl (display product .nutrition)).map .string ∧
      findMember images jsonProductImagesIngredients =
        (spanishUrl (display product .ingredients)).map .string := by
  simp only [decodedImages, bind_eq_ok, requireItem_eq_ok] at decoded
  rcases decoded with ⟨source, found, _, front, _, nutrition, ingredients⟩
  have displayed : ∀ slot, display product slot = displayOf source slot.name := by
    intro slot
    rw [display, found, Option.bind_some]
  have distinct :
      CString.caseEq jsonProductImagesFront jsonProductImagesNutrition = false ∧
      CString.caseEq jsonProductImagesFront jsonProductImagesIngredients =
        false ∧
      CString.caseEq jsonProductImagesNutrition jsonProductImagesFront = false ∧
      CString.caseEq jsonProductImagesNutrition jsonProductImagesIngredients =
        false ∧
      CString.caseEq jsonProductImagesIngredients jsonProductImagesFront =
        false ∧
      CString.caseEq jsonProductImagesIngredients jsonProductImagesNutrition =
        false := by
    decide
  rcases distinct with ⟨fn, fi, nf, ni, if_, in_⟩
  refine ⟨?_, ?_, ?_⟩
  · rw [findMember_addImage ingredients, findMember_addImage nutrition,
      findMember_addImage front]
    simp [displayed, Slot.name, fn, fi, Option.map_or]
  · rw [findMember_addImage ingredients, findMember_addImage nutrition,
      findMember_addImage front]
    simp [displayed, Slot.name, nf, ni]
  · rw [findMember_addImage ingredients, findMember_addImage nutrition,
      findMember_addImage front]
    simp [displayed, Slot.name, if_, in_]

/-- Every display of an accepted document has a Spanish URL or a first one. -/
theorem firstUrl_of_accepted {product : Json} {images : Members}
    (decoded : decodedImages product = .ok images) (slot : Slot)
    (present : display product slot ≠ none)
    (missing : spanish (display product slot) = none) :
    firstUrl (display product slot) ≠ none := by
  simp only [decodedImages, bind_eq_ok, requireItem_eq_ok] at decoded
  rcases decoded with ⟨source, found, _, front, _, nutrition, ingredients⟩
  rw [display, found, Option.bind_some] at present missing ⊢
  cases slot with
  | front => exact firstUrl_of_added front present missing
  | nutrition => exact firstUrl_of_added nutrition present missing
  | ingredients => exact firstUrl_of_added ingredients present missing

/-! ## The stored images -/

/-- The URLs that arrive in the three slots of a decoded product. -/
theorem stored_images {product : Json} {copied : Copied}
    (source : CopiedFrom product copied) {number : Int32}
    {now code : CString} {decoded : Product}
    (addition :
      IsAddition (.object (message copied number now code)) decoded) :
    decoded.images.front =
        (((spanishUrl (display product .front)).or
          (fallbackUrl (display product .front))).or
            (fallbackUrl (display product .nutrition))).or
              (fallbackUrl (display product .ingredients)) ∧
      decoded.images.nutrition = spanishUrl (display product .nutrition) ∧
      decoded.images.ingredients =
        spanishUrl (display product .ingredients) := by
  rcases addition.images with ⟨item, found, front, nutrition, ingredients⟩
  rw [getObjectItem_object, message_images] at found
  cases found
  rw [getObjectItem_object] at front nutrition ingredients
  rcases findMember_decodedImages source.images with
    ⟨frontSent, nutritionSent, ingredientsSent⟩
  have read : Function.Injective (Option.map Json.string) :=
    Option.map_injective fun _ _ same => Json.string.inj same
  exact
    ⟨read (front.symm.trans frontSent),
      read (nutrition.symm.trans nutritionSent),
      read (ingredients.symm.trans ingredientsSent)⟩

/--
The displays other than the front one have a Spanish URL, and where a display
has one that is no string, its first URL is none either.
-/
structure SlotsKept (product : Json) : Prop where
  translated : ∀ slot, slot ≠ .front → display product slot ≠ none →
    spanish (display product slot) ≠ none
  readable : ∀ slot, spanish (display product slot) ≠ none →
    spanishUrl (display product slot) = none →
      firstUrl (display product slot) = none

/-- The Spanish URL alone is the image of a display. -/
theorem spanishUrl_eq_imageOf_iff {format : Option Json} :
    spanishUrl format = imageOf format ↔
      (spanishUrl format = none → firstUrl format = none) := by
  cases read : spanishUrl format with
  | none => simp [imageOf, read, eq_comm]
  | some url => simp [imageOf, read]

theorem firstUrl_none : firstUrl none = none :=
  rfl

theorem spanishUrl_of_missing {format : Option Json}
    (missing : spanish format = none) : spanishUrl format = none := by
  rw [spanishUrl, missing]
  rfl

/-- Without the fallbacks of other slots, the front image is its own. -/
theorem front_eq_imageOf_iff {format : Option Json} :
    (spanishUrl format).or (fallbackUrl format) = imageOf format ↔
      (spanish format ≠ none → spanishUrl format = none →
        firstUrl format = none) := by
  cases read : spanishUrl format with
  | some url => simp [imageOf, read]
  | none =>
      by_cases missing : spanish format = none
      · simp [imageOf, fallbackUrl, read, missing]
      · simp [imageOf, fallbackUrl, read, missing, eq_comm]

/-- An image other than the front one is kept. -/
theorem slot_kept_iff {product : Json} {images : Members}
    (decoded : decodedImages product = .ok images) (slot : Slot) :
    spanishUrl (display product slot) = imageOf (display product slot) ↔
      (display product slot ≠ none → spanish (display product slot) ≠ none) ∧
        (spanish (display product slot) ≠ none →
          spanishUrl (display product slot) = none →
            firstUrl (display product slot) = none) := by
  rw [spanishUrl_eq_imageOf_iff]
  constructor
  · intro kept
    refine ⟨fun present missing => ?_, fun _ => kept⟩
    exact firstUrl_of_accepted decoded slot present missing
      (kept (spanishUrl_of_missing missing))
  · rintro ⟨translated, readable⟩ unread
    by_cases present : display product slot = none
    · rw [present]
      exact firstUrl_none
    · exact readable (translated present) unread

theorem fallbackUrl_of_translated {format : Option Json}
    (translated : format ≠ none → spanish format ≠ none) :
    fallbackUrl format = none := by
  unfold fallbackUrl
  split
  · next missing =>
      have absent : format = none := by
        by_contra present
        exact translated present missing
      rw [absent]
      exact firstUrl_none
  · rfl

section Transport

variable {parse : CString → Option Json} {print : Json → CString}

/--
The database stores the image that each display stands for exactly if the
document leaves no slot to a fallback of the decoder.
-/
theorem images_kept_iff
    (faithful : ReadsPrinted parse print)
    {now strJson code : CString} {number : Int32} {object : Json}
    (accepted :
      sfPrRawDecoder parse now strJson number code =
        some (noError, some object))
    {document product : Json}
    (parsed : parse strJson = some document)
    (found : getObjectItem (some document) jsonProduct = some product)
    {decoded : Product}
    (received :
      sfPrDecoder parse (print object) = some (noError, some decoded)) :
    (∀ slot, slot.stored decoded.images = imageOf (display product slot)) ↔
      SlotsKept product := by
  rcases copied_of_accepted accepted parsed found with ⟨copied, source, rfl⟩
  have strings := decodedImages_allStrings source.images
  have addition :=
    ((prDecoding_print faithful strings).mp
      (outcome_eq_decoded.mp received)).2
  rcases stored_images source addition with
    ⟨front, nutrition, ingredients⟩
  constructor
  · intro kept
    have keptNutrition := (slot_kept_iff source.images .nutrition).mp
      (nutrition.symm.trans (kept .nutrition))
    have keptIngredients := (slot_kept_iff source.images .ingredients).mp
      (ingredients.symm.trans (kept .ingredients))
    have keptFront := front.symm.trans (kept .front)
    rw [fallbackUrl_of_translated keptNutrition.1,
      fallbackUrl_of_translated keptIngredients.1, Option.or_none,
      Option.or_none] at keptFront
    constructor
    · intro slot other
      cases slot with
      | front => exact absurd rfl other
      | nutrition => exact keptNutrition.1
      | ingredients => exact keptIngredients.1
    · intro slot
      cases slot with
      | front => exact front_eq_imageOf_iff.mp keptFront
      | nutrition => exact keptNutrition.2
      | ingredients => exact keptIngredients.2
  · intro kept slot
    cases slot with
    | front =>
        refine front.trans ?_
        rw [fallbackUrl_of_translated (kept.translated .nutrition nofun),
          fallbackUrl_of_translated (kept.translated .ingredients nofun),
          Option.or_none, Option.or_none]
        exact front_eq_imageOf_iff.mpr (kept.readable .front)
    | nutrition =>
        exact nutrition.trans
          ((slot_kept_iff source.images .nutrition).mpr
            ⟨kept.translated .nutrition nofun, kept.readable .nutrition⟩)
    | ingredients =>
        exact ingredients.trans
          ((slot_kept_iff source.images .ingredients).mpr
            ⟨kept.translated .ingredients nofun, kept.readable .ingredients⟩)

end Transport

/-! ## Documents with images -/

/-- A product with some images. -/
def picturedProduct (images : Members) : Json :=
  .object
    [(jsonProductName, .string (.lit "Milk")),
      (jsonProductQuantity, .string (.lit "100g")),
      (jsonProductIngredients, .string (.lit "milk")),
      (jsonProductBrands, .string .empty),
      (jsonProductExpirationDate, .string .empty),
      (jsonProductLabels, .string .empty),
      (jsonProductAdditivesTags, .array []),
      (jsonProductAllergensTags, .array []),
      (jsonProductIngredientsTags, .array []),
      (jsonProductImages, .object images)]

/-- The document of that product. -/
def picturedDocument (images : Members) : Json :=
  .object [(jsonProduct, picturedProduct images)]

/-- What is copied out of it. -/
def picturedCopied (images : Members) : Copied :=
  { name := .lit "Milk"
    quantity := some (.lit "100g")
    ingredients := some (.lit "milk")
    brands := some .empty
    expirationDate := some .empty
    labels := some .empty
    additives := []
    allergens := []
    ingredientsTags := []
    images }

/-- The display of one slot in one language. -/
def pictured (slot : Slot) (language : CString) : Members :=
  [(slot.name,
    .object
      [(jsonProductImagesFormat,
        .object [(language, .string (.lit "milk.jpg"))])])]

section Pictured

variable {images added : Members}
  (decoded : decodedImages (picturedProduct images) = .ok added)
  (now code : CString) (number : Int32)
include decoded

theorem pictured_copied :
    CopiedFrom (picturedProduct images) (picturedCopied added) where
  name := rfl
  quantity := rfl
  ingredients := rfl
  brands := rfl
  expirationDate := rfl
  labels := rfl
  additives := rfl
  allergens := rfl
  ingredientsTags := rfl
  images := decoded

theorem pictured_accepted :
    sfPrRawDecoder (Json.parse Json.standardRaw) now
        (Json.printUnformatted (picturedDocument images)) number code =
      some (noError,
        some (.object (message (picturedCopied added) number now code))) :=
  outcome_eq_decoded.mpr
    (rawDecoding_eq_ok.mpr
      ⟨picturedDocument images, picturedProduct images, picturedCopied added,
        Json.parse_printUnformatted Json.standardRaw_printable _,
        rfl, pictured_copied decoded, rfl⟩)

theorem pictured_received :
    sfPrDecoder (Json.parse Json.standardRaw)
        (Json.printUnformatted
          (.object (message (picturedCopied added) number now code))) =
      some (noError,
        some (received (picturedCopied added) number now code)) := by
  have strings : AllStrings (picturedCopied added).images :=
    decodedImages_allStrings (pictured_copied decoded).images
  have complete : ∀ text ∈ (picturedCopied added).texts,
      text.isSome = true := by
    simp [Copied.texts, picturedCopied]
  exact outcome_eq_decoded.mpr
    ((prDecoding_print (readsPrinted_json Json.standardRaw_printable)
      strings).mpr
      ⟨rfl, message_isAddition strings complete number now code⟩)

end Pictured

/-- A Spanish front image is kept. -/
theorem images_kept_iff_spanish :
    (∀ slot : Slot,
        slot.stored
            (received (picturedCopied [(jsonProductImagesFront,
              .string (.lit "milk.jpg"))]) 1 .empty .empty).images =
          imageOf
            (display (picturedProduct (pictured .front jsonProductEs))
              slot)) ↔
      SlotsKept (picturedProduct (pictured .front jsonProductEs)) := by
  have sent :
      decodedImages (picturedProduct (pictured .front jsonProductEs)) =
        .ok [(jsonProductImagesFront, .string (.lit "milk.jpg"))] :=
    rfl
  exact images_kept_iff (readsPrinted_json Json.standardRaw_printable)
    (pictured_accepted sent .empty .empty 1)
    (Json.parse_printUnformatted Json.standardRaw_printable _) rfl
    (pictured_received sent .empty .empty 1)

/-- An English nutrition image is stored as the front image. -/
theorem nutrition_image_lost :
    ¬ ∀ (strJson now code : CString) (number : Int32)
        (object document product : Json) (decoded : Product),
        sfPrRawDecoder (Json.parse Json.standardRaw) now strJson number code =
            some (noError, some object) →
          Json.parse Json.standardRaw strJson = some document →
          getObjectItem (some document) jsonProduct = some product →
          sfPrDecoder (Json.parse Json.standardRaw)
              (Json.printUnformatted object) = some (noError, some decoded) →
          ∀ slot : Slot,
            slot.stored decoded.images = imageOf (display product slot) := by
  intro always
  have sent :
      decodedImages (picturedProduct (pictured .nutrition (.lit "en"))) =
        .ok [(jsonProductImagesFront, .string (.lit "milk.jpg"))] :=
    rfl
  have kept :=
    always _ _ _ _ _ _ _ _ (pictured_accepted sent .empty .empty 1)
      (Json.parse_printUnformatted Json.standardRaw_printable _) rfl
      (pictured_received sent .empty .empty 1) .nutrition
  exact absurd kept (by decide)

end SmartFridge.ImageSlots
