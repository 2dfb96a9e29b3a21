import SmartFridge.ImageSlots
import SmartFridge.StringReads

/-!
# The documents that the raw decoder accepts

`sf_pr_raw_decoder` has some twenty places at which it leaves, all of them
through one label that also releases the object built so far.  Which of its four
results a document gives depends only on which members the document has, and an
object is handed out with NO_ERROR and with no other result.
-/

namespace SmartFridge.RawFormat

open SmartFridge.Library
open SmartFridge.CJson
open SmartFridge.ProductDecoder
open SmartFridge.ProductRoundTrip
open SmartFridge.ImageSlots
open SmartFridge.StringReads

/-! ## The format -/

/-- The members that may name a product, in their order. -/
def nameMembers : List CString :=
  [jsonProductName, jsonGenericName, jsonProductCategories]

/-- The members that a product needs besides its name. -/
def neededMembers : List CString :=
  copiedTexts ++ copiedTags ++ [jsonProductImages]

/-- A display that exists has a member `es` or a first child with a text. -/
def UsableDisplay (format : Option Json) : Prop :=
  format ≠ none → spanish format ≠ none ∨ firstUrl format ≠ none

/-- The format of a product in a document. -/
structure HasFormat (product : Json) : Prop where
  named : ∃ name, IsChosenName product nameMembers name
  complete : ∀ name ∈ neededMembers, getObjectItem (some product) name ≠ none
  displays : ∀ slot, UsableDisplay (display product slot)

/-- A document with a product in that format. -/
def IsProductDocument (document : Json) : Prop :=
  ∃ product, getObjectItem (some document) jsonProduct = some product ∧
    HasFormat product

/-- A document without a product, which says that there is none. -/
def IsUnknownProduct (document : Json) : Prop :=
  getObjectItem (some document) jsonProduct = none ∧
    getObjectItem (some document) jsonStatusVerbose =
      some (.string productNotFound)

/-! ## The name -/

/-- The texts before the chosen one are all skipped. -/
theorem firstNonEmpty_of_isChosenName
    {product : Json} {names : List CString} {name : CString}
    (chosenName : IsChosenName product names name) :
    firstNonEmpty product names = .ok name := by
  rcases chosenName with ⟨skipped, chosen, rest, rfl, empty, named, nonempty⟩
  induction skipped with
  | nil =>
      simp only [List.nil_append, firstNonEmpty, bind_eq_ok,
        requireItem_eq_ok, readString_eq_ok]
      refine ⟨.string name, named, name, rfl, ?_⟩
      rw [if_neg nonempty]
  | cons first later ih =>
      have found := empty first List.mem_cons_self
      have others := ih fun earlier member =>
        empty earlier (List.mem_cons_of_mem _ member)
      simp only [List.cons_append, firstNonEmpty, bind_eq_ok,
        requireItem_eq_ok, readString_eq_ok]
      refine ⟨.string .empty, found, .empty, rfl, ?_⟩
      rw [if_pos rfl]
      exact others

theorem productName_eq_ok {product : Json} {name : CString} :
    productName product = .ok name ↔
      IsChosenName product nameMembers name :=
  ⟨isChosenName_of_firstNonEmpty, firstNonEmpty_of_isChosenName⟩

/-! ## The images -/

/-- An image is added exactly if its display is usable. -/
theorem addImage_isOk_iff (slot fallback : CString) (images : Json)
    (decoded : Members) :
    (∃ result, addImage slot fallback images decoded = .ok result) ↔
      UsableDisplay (displayOf images slot) := by
  unfold addImage UsableDisplay displayOf
  cases getObjectItem (getObjectItem (some images) slot)
      jsonProductImagesFormat with
  | none => simp
  | some format =>
      cases found : getObjectItem (some format) jsonProductEs with
      | some url => simp [spanish, found]
      | none =>
          cases first : (children format).head?.bind valuestring with
          | none => simp [spanish, firstUrl, found, first]
          | some url => simp [spanish, firstUrl, found, first]

/-- The images are decoded exactly if every display is usable. -/
theorem decodedImages_isOk_iff (product : Json) :
    (∃ images, decodedImages product = .ok images) ↔
      getObjectItem (some product) jsonProductImages ≠ none ∧
        ∀ slot, UsableDisplay (display product slot) := by
  simp only [decodedImages, bind_eq_ok, requireItem_eq_ok]
  constructor
  · rintro ⟨result, images, found, front, addedFront, nutrition,
      addedNutrition, addedIngredients⟩
    refine ⟨by simp [found], ?_⟩
    intro slot
    rw [display, found, Option.bind_some]
    cases slot with
    | front => exact (addImage_isOk_iff _ _ _ _).mp ⟨_, addedFront⟩
    | nutrition => exact (addImage_isOk_iff _ _ _ _).mp ⟨_, addedNutrition⟩
    | ingredients =>
        exact (addImage_isOk_iff _ _ _ _).mp ⟨_, addedIngredients⟩
  · rintro ⟨present, usable⟩
    rcases Option.ne_none_iff_exists'.mp present with ⟨images, found⟩
    have added (slot : Slot) (fallback : CString) (decoded : Members) :
        ∃ result, addImage slot.name fallback images decoded = .ok result := by
      apply (addImage_isOk_iff _ _ _ _).mpr
      have here := usable slot
      rwa [display, found, Option.bind_some] at here
    rcases added .front jsonProductImagesFront [] with ⟨front, addedFront⟩
    rcases added .nutrition jsonProductImagesFront front with
      ⟨nutrition, addedNutrition⟩
    rcases added .ingredients jsonProductImagesFront nutrition with
      ⟨result, addedIngredients⟩
    exact
      ⟨result, images, found, front, addedFront, nutrition, addedNutrition,
        addedIngredients⟩

/-! ## The whole product -/

/-- A member is there if anything can be copied out of it. -/
theorem present_iff_copied {α : Type} (item : Option Json) (copy : Json → α) :
    item ≠ none ↔ ∃ copied, item.map copy = some copied := by
  cases item with
  | none => simp
  | some value => simp

/-- What has the format can be copied. -/
theorem HasFormat.copied {product : Json} (format : HasFormat product) :
    ∃ copied, CopiedFrom product copied := by
  have copies {α : Type} (copy : Json → α) (name : CString)
      (needed : name ∈ neededMembers) :
      ∃ copied, (getObjectItem (some product) name).map copy = some copied :=
    (present_iff_copied _ _).mp (format.complete name needed)
  rcases format.named with ⟨name, chosen⟩
  rcases copies valuestring jsonProductQuantity (by decide) with
    ⟨quantity, quantityOf⟩
  rcases copies valuestring jsonProductIngredients (by decide) with
    ⟨ingredients, ingredientsOf⟩
  rcases copies valuestring jsonProductBrands (by decide) with
    ⟨brands, brandsOf⟩
  rcases copies valuestring jsonProductExpirationDate (by decide) with
    ⟨expirationDate, expirationDateOf⟩
  rcases copies valuestring jsonProductLabels (by decide) with
    ⟨labels, labelsOf⟩
  rcases copies tagTexts jsonProductAdditivesTags (by decide) with
    ⟨additives, additivesOf⟩
  rcases copies tagTexts jsonProductAllergensTags (by decide) with
    ⟨allergens, allergensOf⟩
  rcases copies tagTexts jsonProductIngredientsTags (by decide) with
    ⟨ingredientsTags, ingredientsTagsOf⟩
  rcases (decodedImages_isOk_iff product).mpr
    ⟨format.complete _ (by decide), format.displays⟩ with ⟨images, imagesOf⟩
  exact
    ⟨⟨name, quantity, ingredients, brands, expirationDate, labels,
        additives, allergens, ingredientsTags, images⟩,
      { name := productName_eq_ok.mpr chosen
        quantity := quantityOf
        ingredients := ingredientsOf
        brands := brandsOf
        expirationDate := expirationDateOf
        labels := labelsOf
        additives := additivesOf
        allergens := allergensOf
        ingredientsTags := ingredientsTagsOf
        images := imagesOf }⟩

/-- What was copied came from a product of the format. -/
theorem hasFormat_of_copied {product : Json} {copied : Copied}
    (source : CopiedFrom product copied) : HasFormat product := by
  have images :=
    (decodedImages_isOk_iff product).mp ⟨copied.images, source.images⟩
  refine
    { named := ⟨copied.name, productName_eq_ok.mp source.name⟩
      complete := ?_
      displays := images.2 }
  intro name needed
  simp only [neededMembers, copiedTexts, copiedTags, List.cons_append,
    List.nil_append, List.mem_cons, List.not_mem_nil, or_false] at needed
  rcases needed with
    rfl | rfl | rfl | rfl | rfl | rfl | rfl | rfl | rfl
  · exact (present_iff_copied _ _).mpr ⟨_, source.quantity⟩
  · exact (present_iff_copied _ _).mpr ⟨_, source.ingredients⟩
  · exact (present_iff_copied _ _).mpr ⟨_, source.brands⟩
  · exact (present_iff_copied _ _).mpr ⟨_, source.expirationDate⟩
  · exact (present_iff_copied _ _).mpr ⟨_, source.labels⟩
  · exact (present_iff_copied _ _).mpr ⟨_, source.additives⟩
  · exact (present_iff_copied _ _).mpr ⟨_, source.allergens⟩
  · exact (present_iff_copied _ _).mpr ⟨_, source.ingredientsTags⟩
  · exact images.1

/-! ## How the decoder ends -/

section Decoding

variable (parse : CString → Option Json) (now text : CString)
  (number : Int32) (code : CString)

/-- The four ways in which the decoder ends. -/
inductive Ends : Int → Option Json → Prop
  | unparsed (invalid : parse text = none) : Ends invFormat none
  | unknown (document : Json) (parsed : parse text = some document)
      (missing : IsUnknownProduct document) : Ends prNotFound none
  | unexpected (document : Json) (parsed : parse text = some document)
      (known : ¬ IsUnknownProduct document)
      (misfit : ¬ IsProductDocument document) : Ends unexFields none
  | accepted (document product : Json) (copied : Copied)
      (parsed : parse text = some document)
      (found : getObjectItem (some document) jsonProduct = some product)
      (source : CopiedFrom product copied) :
      Ends noError (some (.object (message copied number now code)))

variable {parse text}

/-- Behind a product, the decoder has only one error to report. -/
theorem rawDecoding_exitsWith_unexFields {document product : Json}
    (parsed : parse text = some document)
    (found : getObjectItem (some document) jsonProduct = some product) :
    ExitsWith [unexFields] (rawDecoding parse now text number code) := by
  have listed : unexFields ∈ [unexFields] := List.mem_singleton.mpr rfl
  unfold rawDecoding
  rw [parsed]
  apply ExitsWith.bind
  · rw [productItem_eq_ok.mpr found]
    exact exitsWith_ok product
  · intro product
    apply (decodedTexts_exitsWith listed _ _).bind
    intro decoded
    apply (decodedTags_exitsWith listed _).bind
    intro tags
    apply (decodedImages_exitsWith listed _).bind
    intro images
    exact exitsWith_ok _

/-- A document with a product is accepted, or has unexpected fields. -/
theorem ends_of_product {document product : Json}
    (parsed : parse text = some document)
    (found : getObjectItem (some document) jsonProduct = some product)
    (strings : ReadsStrings (documentLookups document)) :
    ∃ retval object,
      sfPrRawDecoder parse now text number code = some (retval, object) ∧
        Ends parse now text number code retval object := by
  by_cases format : HasFormat product
  · rcases format.copied with ⟨copied, source⟩
    refine ⟨_, _, outcome_eq_decoded.mpr (rawDecoding_eq_ok.mpr ?_),
      .accepted document product copied parsed found source⟩
    exact ⟨document, product, copied, parsed, found, source, rfl⟩
  · have misfit : ¬ IsProductDocument document := by
      rintro ⟨other, otherFound, otherFormat⟩
      cases found.symm.trans otherFound
      exact format otherFormat
    have known : ¬ IsUnknownProduct document := by
      rintro ⟨missing, _⟩
      cases found.symm.trans missing
    refine ⟨unexFields, none, ?_, .unexpected document parsed known misfit⟩
    unfold sfPrRawDecoder
    cases decoding : rawDecoding parse now text number code with
    | ok result =>
        rcases rawDecoding_eq_ok.mp decoding with
          ⟨_, _, copied, parsed', found', source, _⟩
        cases parsed.symm.trans parsed'
        cases found.symm.trans found'
        exact absurd (hasFormat_of_copied source) format
    | error stop =>
        cases stop with
        | fault =>
            have follows := rawDecoding_follows parsed now code number
            exact absurd decoding (follows.faultless.mpr strings)
        | exit retval =>
            have only :=
              rawDecoding_exitsWith_unexFields now number code parsed found
                retval decoding
            rw [List.mem_singleton.mp only]
            rfl

/-- Without a product the decoder looks at the status only. -/
theorem ends_of_missing {document : Json}
    (parsed : parse text = some document)
    (missing : getObjectItem (some document) jsonProduct = none)
    (strings : ReadsStrings (documentLookups document)) :
    ∃ retval object,
      sfPrRawDecoder parse now text number code = some (retval, object) ∧
        Ends parse now text number code retval object := by
  have misfit : ¬ IsProductDocument document := by
    rintro ⟨product, found, _⟩
    cases missing.symm.trans found
  have leaves {retval : Int}
      (asked : productItem document = .error (.exit retval)) :
      sfPrRawDecoder parse now text number code = some (retval, none) := by
    unfold sfPrRawDecoder rawDecoding
    rw [parsed]
    simp only [asked]
    rfl
  cases status : getObjectItem (some document) jsonStatusVerbose with
  | none =>
      refine ⟨unexFields, none, leaves ?_, .unexpected document parsed ?_ misfit⟩
      · simp only [productItem, missing, status]
      · rintro ⟨_, unknown⟩
        cases status.symm.trans unknown
  | some item =>
      -- The status is read, so that it is a string here.
      rw [documentLookups, missing] at strings
      have isText : valuestring item ≠ none := by
        simp only [ReadsStrings, textLookup, status] at strings
        exact strings.1 item (List.mem_singleton.mpr rfl)
      cases item with
      | string verbose =>
          by_cases unknown : verbose = productNotFound
          · subst unknown
            refine
              ⟨prNotFound, none, leaves ?_,
                .unknown document parsed ⟨missing, status⟩⟩
            simp [productItem, missing, status, readString, bind, Except.bind]
          · refine
              ⟨unexFields, none, leaves ?_,
                .unexpected document parsed ?_ misfit⟩
            · simp [productItem, missing, status, readString, bind,
                Except.bind, unknown]
            · rintro ⟨_, same⟩
              rw [status] at same
              cases same
              exact unknown rfl
      | _ => exact absurd rfl isText

/-- The decoder ends in one of the four ways. -/
theorem sfPrRawDecoder_ends
    (strings : ∀ document, parse text = some document →
      ReadsStrings (documentLookups document)) :
    ∃ retval object,
      sfPrRawDecoder parse now text number code = some (retval, object) ∧
        Ends parse now text number code retval object := by
  cases parsed : parse text with
  | none =>
      refine ⟨invFormat, none, ?_, .unparsed parsed⟩
      rw [sfPrRawDecoder, rawDecoding, parsed]
      rfl
  | some document =>
      have read := strings document parsed
      cases found : getObjectItem (some document) jsonProduct with
      | none => exact ends_of_missing now number code parsed found read
      | some product => exact ends_of_product now number code parsed found read

end Decoding

/-! ## Results and objects -/

/-- Each result is given for its own kind of texts. -/
structure ReportsFormat (parse : CString → Option Json) (text : CString)
    (retval : Int) : Prop where
  invalid : retval = invFormat ↔ parse text = none
  unknown : retval = prNotFound ↔
    ∃ document, parse text = some document ∧ IsUnknownProduct document
  accepted : retval = noError ↔
    ∃ document, parse text = some document ∧ IsProductDocument document
  unexpected : retval = unexFields ↔
    ∃ document, parse text = some document ∧
      ¬ IsUnknownProduct document ∧ ¬ IsProductDocument document

/-- The tag arrays of a document and their names in the message. -/
def tagTargets : List (CString × CString) :=
  [(jsonProductAdditivesTags, jsonAdditives),
    (jsonProductAllergensTags, jsonAllergensTags),
    (jsonProductIngredientsTags, jsonIngredientsTags)]

/-- The message has the name of a product and, in their order, its tags. -/
structure TakenFrom (product sent : Json) : Prop where
  name : ∃ name, getObjectItem (some sent) jsonName = some (.string name) ∧
    IsChosenName product nameMembers name
  tags : TagsAreStrings product → ∀ pair ∈ tagTargets, ∃ source,
    getObjectItem (some product) pair.1 = some source ∧
      getObjectItem (getObjectItem (some sent) jsonTags) pair.2 =
        some (.array (children source))

/-- A document with a product is none that says there is no product. -/
theorem not_isUnknownProduct {document : Json}
    (format : IsProductDocument document) : ¬ IsUnknownProduct document := by
  rintro ⟨missing, _⟩
  rcases format with ⟨product, found, _⟩
  cases missing.symm.trans found

theorem Ends.reportsFormat {parse : CString → Option Json}
    {now text code : CString} {number : Int32} {retval : Int}
    {object : Option Json}
    (ends : Ends parse now text number code retval object) :
    ReportsFormat parse text retval := by
  cases ends with
  | unparsed invalid =>
      constructor <;> simp [invalid]
  | unknown document parsed missing =>
      have misfit : ¬ IsProductDocument document := fun format =>
        not_isUnknownProduct format missing
      constructor <;> simp [parsed, missing, misfit]
  | unexpected document parsed known misfit =>
      constructor <;> simp [parsed, known, misfit]
  | accepted document product copied parsed found source =>
      have format : IsProductDocument document :=
        ⟨product, found, hasFormat_of_copied source⟩
      have known := not_isUnknownProduct format
      constructor <;> simp [parsed, known, format]

/-- The array made of a tag array's texts has the items of that array. -/
theorem textArray_eq_children {product : Json} {name : CString}
    {texts : List CString}
    (copied : (getObjectItem (some product) name).map tagTexts = some texts)
    (strings : TagsAreStrings product) (member : name ∈ copiedTags) :
    ∃ source, getObjectItem (some product) name = some source ∧
      textArray texts = .array (children source) := by
  rcases Option.map_eq_some_iff.mp copied with ⟨source, found, rfl⟩
  refine ⟨source, found, ?_⟩
  have items := eq_map_filterMap_valuestring (strings name member source found)
  rw [textArray, tagTexts, ← items]

/-- The message of some data has the name and the tags of their product. -/
theorem message_takenFrom {product : Json} {copied : Copied}
    (source : CopiedFrom product copied) (number : Int32)
    (now code : CString) :
    TakenFrom product (.object (message copied number now code)) where
  name :=
    ⟨copied.name, message_name copied number now code,
      productName_eq_ok.mp source.name⟩
  tags := by
    intro strings pair member
    rw [getObjectItem_object, message_tags]
    simp only [tagTargets, List.mem_cons, List.not_mem_nil, or_false] at member
    rcases member with rfl | rfl | rfl
    · rcases textArray_eq_children source.additives strings (by decide) with
        ⟨item, found, same⟩
      exact ⟨item, found, same ▸ tagMembers_additives copied⟩
    · rcases textArray_eq_children source.allergens strings (by decide) with
        ⟨item, found, same⟩
      exact ⟨item, found, same ▸ tagMembers_allergens copied⟩
    · rcases textArray_eq_children source.ingredientsTags strings
        (by decide) with ⟨item, found, same⟩
      exact ⟨item, found, same ▸ tagMembers_ingredients copied⟩

/--
If what it reads as strings are strings, `sf_pr_raw_decoder` reports for every
text whether it has the format, and hands out an object exactly if it has; the
object has the name and the tags of the product.
-/
theorem format_decided
    (parse : CString → Option Json) (now text : CString)
    (number : Int32) (code : CString)
    (strings : ∀ document, parse text = some document →
      ReadsStrings (documentLookups document)) :
    ∃ retval object,
      sfPrRawDecoder parse now text number code = some (retval, object) ∧
        ReportsFormat parse text retval ∧
        (object ≠ none ↔ retval = noError) ∧
        ∀ sent, object = some sent →
          ∃ document product, parse text = some document ∧
            getObjectItem (some document) jsonProduct = some product ∧
            TakenFrom product sent := by
  rcases sfPrRawDecoder_ends now number code strings with
    ⟨retval, object, decoded, ends⟩
  refine ⟨retval, object, decoded, ends.reportsFormat, ?_, ?_⟩
  · cases ends with
    | accepted => simp
    | _ => simp
  · intro sent produced
    cases ends with
    | accepted document product copied parsed found source =>
        cases produced
        exact
          ⟨document, product, parsed, found,
            message_takenFrom source number now code⟩
    | _ => cases produced

/-- The document of the carton of milk is one whose strings can be read. -/
theorem format_decided_milk :
    ∃ retval object,
      sfPrRawDecoder (Json.parse Json.standardRaw) .empty
          (Json.printUnformatted (milkDocument (.string (.lit "100g"))))
          1 (.lit "8410188012092") =
        some (retval, object) ∧
        ReportsFormat (Json.parse Json.standardRaw)
          (Json.printUnformatted (milkDocument (.string (.lit "100g"))))
          retval ∧
        (object ≠ none ↔ retval = noError) ∧
        ∀ sent, object = some sent →
          ∃ document product,
            Json.parse Json.standardRaw
                (Json.printUnformatted
                  (milkDocument (.string (.lit "100g")))) =
              some document ∧
            getObjectItem (some document) jsonProduct = some product ∧
            TakenFrom product sent :=
  format_decided _ _ _ _ _
    ((sfPrRawDecoder_returns_iff _ .empty _ (.lit "8410188012092") 1).mp
      ⟨_, _, milk_accepted _ _ _ _, by decide⟩)

end SmartFridge.RawFormat
