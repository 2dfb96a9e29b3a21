import SmartFridge.Library.HeapProgram
import SmartFridge.ProductDecoder

/-!
# The memory of the product decoders

`sf_pr_decoder` copies the texts of a document into a product, text by text, and
leaves through one exit, which frees the product if it is not handed over and
the root of the document.  `free_product` is what its caller frees.  What is
below the root of a document stays, and so does what an unfinished product
points to.
-/

namespace SmartFridge.DecoderHeap

open SmartFridge.Library
open SmartFridge.Library.Allocation
open SmartFridge.CJson
open SmartFridge.ProductDecoder

/-! ## Blocks -/

mutual

/-- The blocks of a parsed document: an item for each value, and a text for
each string and each name of a member. -/
def blocks : Json → Nat
  | .null => 1
  | .bool _ => 1
  | .number _ => 1
  | .string _ => 2
  | .array items => 1 + itemBlocks items
  | .object members => 1 + memberBlocks members

def itemBlocks : List Json → Nat
  | [] => 0
  | item :: rest => blocks item + itemBlocks rest

def memberBlocks : List (CString × Json) → Nat
  | [] => 0
  | (_, item) :: rest => 1 + blocks item + memberBlocks rest

end

/-- The pointers of a product to a text. -/
inductive TextField where
  | name
  | code
  | timestamp
  | quantity
  | ingredients
  | brands
  | expirationDate
  | labels
  | frontImage
  | nutritionImage
  | ingredientsImage
deriving DecidableEq

/-- The pointers of a product to an array of tags. -/
inductive TagField where
  | ingredients
  | allergens
  | additives
deriving DecidableEq

/-- What the decoder allocates for a message, which no handle of SQLite is. -/
inductive Block where
  /-- A block of the document, the root first. -/
  | item (index : Nat)
  /-- The structure `product`. -/
  | product
  /-- A text of the product. -/
  | text (field : TextField)
  /-- An array of tags of the product. -/
  | array (field : TagField)
  /-- The text of a tag. -/
  | tag (field : TagField) (index : Nat)
deriving DecidableEq

/-- The text behind a pointer of a product. -/
def text (product : Product) : TextField → Option CString
  | .name => product.name
  | .code => product.code
  | .timestamp => product.timestamp
  | .quantity => product.quantity
  | .ingredients => product.ingredients
  | .brands => product.brands
  | .expirationDate => product.expirationDate
  | .labels => product.labels
  | .frontImage => product.images.front
  | .nutritionImage => product.images.nutrition
  | .ingredientsImage => product.images.ingredients

/-- The tags behind a pointer of a product. -/
def tags (product : Product) : TagField → Option (List CString)
  | .ingredients => product.ingredientsTags
  | .allergens => product.allergensTags
  | .additives => product.additivesTags

def textBlocks (field : TextField) : Option CString → Finset Block
  | none => ∅
  | some _ => {.text field}

/-- The texts of some tags. -/
def tagTexts (field : TagField) (from_ count : Nat) : Finset Block :=
  (Finset.range count).image fun index => .tag field (from_ + index)

def tagBlocks (field : TagField) : Option (List CString) → Finset Block
  | none => ∅
  | some texts => insert (.array field) (tagTexts field 0 texts.length)

def imageBlocks (images : ProductImages) : Finset Block :=
  textBlocks .frontImage images.front ∪
    (textBlocks .nutritionImage images.nutrition ∪
      textBlocks .ingredientsImage images.ingredients)

/-! ## sf_pr_decoder -/

/-- The copy of a text that is not empty. -/
def copyText (field : TextField) (name : CString) (message : Json) :
    Program Block Stop (Option CString) := do
  .perform [.read (.item 0)]
  let item ← .compute (requireItem (some message) name)
  let text ← .compute (readString item)
  if text = CString.empty then
    return none
  else
    .perform [.alloc (.text field), .read .product]
    return some text

/-- The copy of the name. -/
def copyName (message : Json) : Program Block Stop (Option CString) := do
  .perform [.read (.item 0)]
  let item ← .compute (requireItem (some message) jsonName)
  let text ← .compute (readString item)
  .perform [.alloc (.text .name), .read .product]
  return some text

/-- The number of the elements is no text. -/
def copyNumber (message : Json) : Program Block Stop Int32 := do
  .perform [.read (.item 0)]
  let item ← .compute (requireItem (some message) jsonNumber)
  .perform [.read .product]
  return valueint item

/-- `realloc` of an array of tags. -/
def reallocate (field : TagField) : Nat → List (Access Block)
  | 0 => [.alloc (.array field), .read .product]
  | _ => [.free (.array field), .alloc (.array field), .read .product]

/-- The loop over the items of a tag array, from an index on. -/
def copyItems (field : TagField) :
    Nat → List Json → Program Block Stop (List CString)
  | _, [] => return []
  | index, item :: rest => do
      .perform (reallocate field index)
      let text ← .compute (readString item)
      .perform [.alloc (.tag field index), .read (.array field)]
      let texts ← copyItems field (index + 1) rest
      return text :: texts

/-- The copy of some tags. -/
def copyTags (field : TagField) (name : CString) (tags : Option Json) :
    Program Block Stop (Option (List CString)) := do
  let item ← .compute (requireItem tags name)
  let texts ← copyItems field 0 (children item)
  return nullIfNone texts

/-- The copy of the URL of an image that may be absent. -/
def copyImage (field : TextField) (slot : CString) (images : Json) :
    Program Block Stop (Option CString) :=
  match getObjectItem (some images) slot with
  | none => return none
  | some item => do
      let url ← .compute (readString item)
      .perform [.alloc (.text field), .read .product]
      return some url

/-- The copies of the images. -/
def copyImages (message : Json) : Program Block Stop ProductImages := do
  .perform [.read (.item 0)]
  let images ← .compute (requireItem (some message) jsonImages)
  let front ← copyImage .frontImage jsonProductImagesFront images
  let nutrition ← copyImage .nutritionImage jsonProductImagesNutrition images
  let ingredients ←
    copyImage .ingredientsImage jsonProductImagesIngredients images
  return { front, nutrition, ingredients }

/-- The members of a product behind its code. -/
def copyProduct (message : Json) (code : Option CString) :
    Program Block Stop (Int × Product) := do
  let name ← copyName message
  let number ← copyNumber message
  let quantity ← copyText .quantity jsonQuantity message
  let ingredients ← copyText .ingredients jsonIngredients message
  let brands ← copyText .brands jsonProductBrands message
  let expirationDate ←
    copyText .expirationDate jsonProductExpirationDate message
  let timestamp ← copyText .timestamp jsonProductTimestamp message
  let labels ← copyText .labels jsonProductLabels message
  let tags := getObjectItem (some message) jsonTags
  let additivesTags ← copyTags .additives jsonAdditives tags
  let allergensTags ← copyTags .allergens jsonAllergensTags tags
  let ingredientsTags ← copyTags .ingredients jsonIngredientsTags tags
  let images ← copyImages message
  return (noError,
    { images, name, code, timestamp, quantity, ingredients, brands,
      expirationDate, labels, ingredientsTags, allergensTags, additivesTags,
      number })

/-- From the first member to the exit. -/
def copyMessage (message : Json) : Program Block Stop (Int × Product) := do
  let code ← copyText .code jsonProductCode message
  match getObjectItem (some message) jsonRemove with
  | some _ => return (deletionReq, { Product.zero with code })
  | none => copyProduct message code

/-- What `sf_pr_decoder` allocates before it reads the document. -/
def entryAccesses (message : Json) : List (Access Block) :=
  ((List.range (blocks message)).map Block.item).map .alloc ++ [.alloc .product]

/-- What is freed behind `end`; after a fault nothing is. -/
def exitAccesses : Except Stop (Int × Product) → List (Access Block)
  | .ok _ => [.free (.item 0)]
  | .error (.exit _) => [.free .product, .free (.item 0)]
  | .error .fault => []

/-- The accesses of `sf_pr_decoder` and what its caller sees. -/
def sfPrDecoder (parse : CString → Option Json) (strJson : CString) :
    List (Access Block) × Option (Int × Option Product) :=
  match parse strJson with
  | none => ([], some (invFormat, none))
  | some message =>
      let decoding := copyMessage message
      (entryAccesses message ++ decoding.accesses ++
          exitAccesses decoding.result,
        outcome decoding.result)

/-! ## free_product -/

/-- `free` of a text; nothing is done for NULL. -/
def freeText (product : Product) (field : TextField) : List (Access Block) :=
  .read .product ::
    match text product field with
    | none => []
    | some _ => [.free (.text field)]

/-- The loop over an array of tags, which ends at its NULL. -/
def freeTags (product : Product) (field : TagField) : List (Access Block) :=
  .read .product ::
    match tags product field with
    | none => []
    | some texts =>
        (List.range texts.length).flatMap (fun index =>
          [.read (.array field), .free (.tag field index)]) ++
        [.read (.array field), .free (.array field)]

/-- The texts in the order in which they are freed. -/
def textFields : List TextField :=
  [.name, .code, .timestamp, .quantity, .ingredients, .brands, .expirationDate,
    .labels, .frontImage, .nutritionImage, .ingredientsImage]

/-- The arrays in the order in which they are freed. -/
def tagFields : List TagField :=
  [.ingredients, .allergens, .additives]

/-- `free_product`. -/
def freeProduct (product : Product) : List (Access Block) :=
  textFields.flatMap (freeText product) ++
    tagFields.flatMap (freeTags product) ++ [.free .product]

/-! ## The same results -/

section Results

@[simp]
theorem copyText_result (field : TextField) (name : CString) (message : Json) :
    (copyText field name message).result = readText name message := by
  unfold copyText readText
  rw [Program.result_bind, Program.result_perform, pure_bind,
    Program.result_bind, Program.result_compute]
  refine congrArg (requireItem (some message) name >>= ·)
    (funext fun item => ?_)
  rw [Program.result_bind, Program.result_compute]
  refine congrArg (readString item >>= ·) (funext fun text => ?_)
  unfold nullIfEmpty
  split
  · rfl
  · rfl

@[simp]
theorem copyName_result (message : Json) :
    (copyName message).result = readName message := by
  simp only [copyName, readName, Program.result_bind, Program.result_perform,
    Program.result_compute, Program.result_pure, pure_bind]

@[simp]
theorem copyNumber_result (message : Json) :
    (copyNumber message).result = readNumber message := by
  simp only [copyNumber, readNumber, Program.result_bind,
    Program.result_perform, Program.result_compute, Program.result_pure,
    pure_bind]

@[simp]
theorem copyItems_result (field : TagField) (index : Nat) (items : List Json) :
    (copyItems field index items).result = items.mapM readString := by
  induction items generalizing index with
  | nil => rfl
  | cons item rest ih =>
      simp only [copyItems, List.mapM_cons, Program.result_bind,
        Program.result_perform, Program.result_compute, Program.result_pure,
        pure_bind, ih]

@[simp]
theorem copyTags_result (field : TagField) (name : CString)
    (tags : Option Json) :
    (copyTags field name tags).result = readTags name tags := by
  simp only [copyTags, readTags, Program.result_bind, Program.result_compute,
    Program.result_pure, copyItems_result]

@[simp]
theorem copyImage_result (field : TextField) (slot : CString) (images : Json) :
    (copyImage field slot images).result = readImage slot images := by
  unfold copyImage readImage
  cases getObjectItem (some images) slot with
  | none => rfl
  | some item =>
      simp only [Program.result_bind, Program.result_perform,
        Program.result_compute, Program.result_pure, pure_bind]

@[simp]
theorem copyImages_result (message : Json) :
    (copyImages message).result = readImages message := by
  simp only [copyImages, readImages, Program.result_bind,
    Program.result_perform, Program.result_compute, Program.result_pure,
    pure_bind, copyImage_result]

theorem copyMessage_result {parse : CString → Option Json} {strJson : CString}
    {message : Json} (parsed : parse strJson = some message) :
    (copyMessage message).result = prDecoding parse strJson := by
  rw [prDecoding, parsed]
  simp only [copyMessage, readCode, Program.result_bind, copyText_result]
  refine congrArg (readText jsonProductCode message >>= ·)
    (funext fun code => ?_)
  cases getObjectItem (some message) jsonRemove with
  | some item => rfl
  | none =>
      simp only [copyProduct, readQuantity, readIngredients, readBrands,
        readExpirationDate, readTimestamp, readLabels, readAdditivesTags,
        readAllergensTags, readIngredientsTags, Program.result_bind,
        copyText_result, copyName_result, copyNumber_result,
        copyTags_result, copyImages_result, Program.result_pure]

/-- The accesses leave the result of `sf_pr_decoder` as it is. -/
theorem sfPrDecoder_result (parse : CString → Option Json) (strJson : CString) :
    (sfPrDecoder parse strJson).2 =
      ProductDecoder.sfPrDecoder parse strJson := by
  unfold sfPrDecoder ProductDecoder.sfPrDecoder
  cases parsed : parse strJson with
  | none =>
      rw [prDecoding, parsed]
      rfl
  | some message => exact congrArg outcome (copyMessage_result parsed)

end Results

/-! ## The stages of a message -/

/-- The part of a message that a block belongs to. -/
inductive Part where
  | entry
  | text (field : TextField)
  | number
  | tags (field : TagField)
  | images
deriving DecidableEq

def Block.part : Block → Part
  | .item _ => .entry
  | .product => .entry
  | .text .frontImage => .images
  | .text .nutritionImage => .images
  | .text .ingredientsImage => .images
  | .text field => .text field
  | .array field => .tags field
  | .tag field _ => .tags field

/-- What the parts of a product leave, in the order in which they are read. -/
def productStages (message : Json) :
    List (Part × Except Stop (Finset Block)) :=
  let tags := getObjectItem (some message) jsonTags
  [(.text .name, (readName message).map (textBlocks .name)),
    (.number, (readNumber message).map fun _ => ∅),
    (.text .quantity, (readQuantity message).map (textBlocks .quantity)),
    (.text .ingredients,
      (readIngredients message).map (textBlocks .ingredients)),
    (.text .brands, (readBrands message).map (textBlocks .brands)),
    (.text .expirationDate,
      (readExpirationDate message).map (textBlocks .expirationDate)),
    (.text .timestamp, (readTimestamp message).map (textBlocks .timestamp)),
    (.text .labels, (readLabels message).map (textBlocks .labels)),
    (.tags .additives,
      (readAdditivesTags tags).map (tagBlocks .additives)),
    (.tags .allergens,
      (readAllergensTags tags).map (tagBlocks .allergens)),
    (.tags .ingredients,
      (readIngredientsTags tags).map (tagBlocks .ingredients)),
    (.images, (readImages message).map imageBlocks)]

/-- The stages of a message. -/
def stages (message : Json) : List (Part × Except Stop (Finset Block)) :=
  (.text .code, (readCode message).map (textBlocks .code)) ::
    match getObjectItem (some message) jsonRemove with
    | some _ => []
    | none => productStages message

/-- What is live while a message is read. -/
abbrev entry : Finset Block :=
  {.item 0, .product}

section Stages

variable {live : Finset Block} {message : Json}

theorem entry_live (holds : entry ⊆ live) : .item 0 ∈ live ∧ .product ∈ live :=
  ⟨holds (by simp), holds (by simp)⟩

/-- A text that is copied into the product. -/
theorem allocate_text {α : Type} {field : TextField}
    {next : Unit → Program Block Stop α}
    {post : Except Stop α → Finset Block → Prop}
    (there : .product ∈ live) (fresh : .text field ∉ live)
    (met : (next ()).Meets (live ∪ {.text field}) post) :
    (Program.perform [.alloc (.text field), .read .product] >>= next).Meets
      live post := by
  refine meets_perform ⟨fresh, Finset.mem_insert_of_mem there, trivial⟩ ?_
  rw [Finset.union_comm] at met
  exact met

theorem textBlocks_part {field : TextField} {part : Part}
    (own : (Block.text field).part = part) (value : Option CString) :
    ∀ block ∈ textBlocks field value, block.part = part := by
  intro block member
  cases value with
  | none => cases member
  | some text =>
      rw [Finset.mem_singleton.mp member]
      exact own

theorem copyText_stage {field : TextField} (name : CString)
    (message : Json) (own : (Block.text field).part = .text field) :
    (copyText field name message).Stage Block.part .fault entry
      (readText name message) (.text field) (textBlocks field) where
  reads := copyText_result field name message
  named := textBlocks_part own
  met := by
    intro live holds apart
    obtain ⟨root, there⟩ := entry_live holds
    refine meets_perform ⟨root, trivial⟩ ?_
    refine meets_compute_bind (fun _ _ _ => rfl) ?_
    intro item _
    refine meets_compute_bind (fun _ _ _ => rfl) ?_
    intro text _
    split
    · exact meets_pure (Finset.union_empty live).symm
    · exact
        allocate_text there (fun mine => apart _ mine own) (meets_pure rfl)

theorem copyName_stage (message : Json) :
    (copyName message).Stage Block.part .fault entry (readName message)
      (.text .name) (textBlocks .name) where
  reads := copyName_result message
  named := textBlocks_part rfl
  met := by
    intro live holds apart
    obtain ⟨root, there⟩ := entry_live holds
    refine meets_perform ⟨root, trivial⟩ ?_
    refine meets_compute_bind (fun _ _ _ => rfl) ?_
    intro item _
    refine meets_compute_bind (fun _ _ _ => rfl) ?_
    intro text _
    exact allocate_text there (fun mine => apart _ mine rfl) (meets_pure rfl)

theorem copyNumber_stage (message : Json) :
    (copyNumber message).Stage Block.part .fault entry (readNumber message)
      .number (fun _ => ∅) where
  reads := copyNumber_result message
  named := fun _ _ impossible => absurd impossible (Finset.notMem_empty _)
  met := by
    intro live holds _
    obtain ⟨root, there⟩ := entry_live holds
    refine meets_perform ⟨root, trivial⟩ ?_
    refine meets_compute_bind (fun _ _ _ => rfl) ?_
    intro item _
    refine meets_perform ⟨there, trivial⟩ ?_
    exact meets_pure (Finset.union_empty live).symm

theorem tagTexts_succ (field : TagField) (from_ count : Nat) :
    tagTexts field from_ (count + 1) =
      insert (.tag field from_) (tagTexts field (from_ + 1) count) := by
  ext block
  simp only [tagTexts, Finset.mem_image, Finset.mem_range, Finset.mem_insert]
  constructor
  · rintro ⟨index, bound, rfl⟩
    cases index with
    | zero => exact .inl rfl
    | succ index =>
        exact .inr ⟨index, Nat.lt_of_succ_lt_succ bound, by
          rw [Nat.add_assoc, Nat.add_comm 1 index]⟩
  · rintro (rfl | ⟨index, bound, rfl⟩)
    · exact ⟨0, Nat.succ_pos count, rfl⟩
    · exact ⟨index + 1, Nat.succ_lt_succ bound, by
        rw [Nat.add_assoc, Nat.add_comm 1 index]⟩

/-- The array is there behind `realloc`, whatever was there before. -/
theorem allocate_array {α : Type} {field : TagField} {index : Nat}
    {next : Unit → Program Block Stop α}
    {post : Except Stop α → Finset Block → Prop}
    (there : .product ∈ live) (first : index = 0 ↔ .array field ∉ live)
    (met : (next ()).Meets (insert (.array field) live) post) :
    (Program.perform (reallocate field index) >>= next).Meets live post := by
  cases index with
  | zero =>
      exact
        meets_perform
          ⟨first.mp rfl, Finset.mem_insert_of_mem there, trivial⟩ met
  | succ index =>
      have present : .array field ∈ live :=
        not_not.mp fun absent => nomatch first.mpr absent
      have same : insert (.array field) (live.erase (.array field)) =
          insert (.array field) live := by
        rw [Finset.insert_erase present, Finset.insert_eq_of_mem present]
      refine meets_perform
        ⟨present, Finset.notMem_erase _ _, ?_, trivial⟩ ?_
      · change .product ∈ insert (.array field) (live.erase (.array field))
        rw [same]
        exact Finset.mem_insert_of_mem there
      · change (next ()).Meets
          (insert (.array field) (live.erase (.array field))) post
        rw [same]
        exact met

/-- What the loop over the items of a tag array leaves behind an index. -/
def ItemsLeft (field : TagField) (index : Nat) (live : Finset Block) :
    Except Stop (List CString) → Finset Block → Prop
  | .ok texts, after =>
      after =
        live ∪ ((if texts = [] then ∅ else {.array field}) ∪
          tagTexts field index texts.length)
  | .error stop, _ => stop = .fault

theorem readString_error {item : Json} {stop : Stop}
    (failed : readString item = .error stop) : stop = .fault := by
  unfold readString at failed
  split at failed
  · cases failed
    rfl
  · cases failed

/-- The loop over the items, by induction on them. -/
theorem copyItems_meets {field : TagField} {items : List Json} {index : Nat}
    (there : .product ∈ live) (first : index = 0 ↔ .array field ∉ live)
    (fresh : ∀ later, index ≤ later → .tag field later ∉ live) :
    (copyItems field index items).Meets live
      (ItemsLeft field index live) := by
  induction items generalizing index live with
  | nil => exact meets_pure (Finset.union_empty live).symm
  | cons item rest ih =>
      apply allocate_array there first
      refine meets_compute_bind (fun _ failed => readString_error failed) ?_
      intro text _
      have freshTag : .tag field index ∉ insert (.array field) live := by
        rw [Finset.mem_insert, not_or]
        exact ⟨Block.noConfusion, fresh index le_rfl⟩
      refine meets_perform
        ⟨freshTag, Finset.mem_insert_of_mem (Finset.mem_insert_self _ _),
          trivial⟩ ?_
      change (copyItems field (index + 1) rest >>= _).Meets
        (insert (.tag field index) (insert (.array field) live)) _
      refine (ih ?_ ?_ ?_).bind ?_ ?_
      · exact Finset.mem_insert_of_mem (Finset.mem_insert_of_mem there)
      · exact
          iff_of_false (Nat.succ_ne_zero index) fun absent =>
            absent (Finset.mem_insert_of_mem (Finset.mem_insert_self _ _))
      · intro later behind
        have apart : index ≠ later := (Nat.lt_of_succ_le behind).ne
        simp only [Finset.mem_insert, not_or]
        exact
          ⟨fun same => apart (Block.tag.inj same).2.symm, Block.noConfusion,
            fresh later (Nat.le_of_succ_le behind)⟩
      · intro stop after _ failed
        exact failed
      · intro texts after _ left
        refine meets_pure ?_
        change after = live ∪ ((if text :: texts = [] then ∅ else _) ∪
          tagTexts field index (texts.length + 1))
        rw [left, if_neg (List.cons_ne_nil text texts), tagTexts_succ]
        ext block
        split
        · simp only [Finset.mem_union, Finset.mem_insert,
            Finset.mem_singleton, Finset.notMem_empty]
          tauto
        · simp only [Finset.mem_union, Finset.mem_insert,
            Finset.mem_singleton]
          tauto

theorem tagBlocks_part (field : TagField) (value : Option (List CString)) :
    ∀ block ∈ tagBlocks field value, block.part = .tags field := by
  intro block member
  cases value with
  | none => cases member
  | some texts =>
      rcases Finset.mem_insert.mp member with rfl | inside
      · rfl
      · obtain ⟨index, _, rfl⟩ := Finset.mem_image.mp inside
        rfl

theorem copyTags_stage {field : TagField} (name : CString)
    (tags : Option Json) :
    (copyTags field name tags).Stage Block.part .fault entry
      (readTags name tags) (.tags field) (tagBlocks field) where
  reads := copyTags_result field name tags
  named := tagBlocks_part field
  met := by
    intro live holds apart
    obtain ⟨_, there⟩ := entry_live holds
    refine meets_compute_bind (fun _ _ _ => rfl) ?_
    intro item _
    have absent : .array field ∉ live := fun mine => apart _ mine rfl
    refine (copyItems_meets there (iff_of_true rfl absent) ?_).bind ?_ ?_
    · intro later _ mine
      exact apart _ mine rfl
    · intro stop after _ failed tidy
      exact absurd failed tidy
    · intro texts after _ left
      refine meets_pure ?_
      change after = live ∪ tagBlocks field (nullIfNone texts)
      rw [left]
      cases texts with
      | nil => rfl
      | cons text rest => rfl

/-- The copy of an image leaves its text, and nothing but a fault stops it. -/
theorem copyImage_meets {field : TextField} (slot : CString) (images : Json)
    (there : .product ∈ live) (fresh : .text field ∉ live) :
    (copyImage field slot images).Meets live fun
      | .ok url, after => after = live ∪ textBlocks field url
      | .error stop, _ => stop = .fault := by
  unfold copyImage
  cases getObjectItem (some images) slot with
  | none => exact meets_pure (Finset.union_empty live).symm
  | some item =>
      refine meets_compute_bind (fun _ failed => readString_error failed) ?_
      intro url _
      exact allocate_text there fresh (meets_pure rfl)

theorem notMem_union_textBlocks {field other : TextField}
    {value : Option CString} (different : field ≠ other)
    (fresh : .text field ∉ live) :
    .text field ∉ live ∪ textBlocks other value := by
  cases value with
  | none => simpa [textBlocks] using fresh
  | some text => simpa [textBlocks, different] using fresh

theorem imageBlocks_part (images : ProductImages) :
    ∀ block ∈ imageBlocks images, block.part = .images := by
  intro block member
  rcases Finset.mem_union.mp member with front | others
  · exact textBlocks_part rfl _ block front
  · rcases Finset.mem_union.mp others with nutrition | ingredients
    · exact textBlocks_part rfl _ block nutrition
    · exact textBlocks_part rfl _ block ingredients

theorem copyImages_stage (message : Json) :
    (copyImages message).Stage Block.part .fault entry (readImages message)
      .images imageBlocks where
  reads := copyImages_result message
  named := imageBlocks_part
  met := by
    intro live holds apart
    obtain ⟨root, there⟩ := entry_live holds
    have freshFront : .text .frontImage ∉ live := fun mine => apart _ mine rfl
    have freshNutrition : .text .nutritionImage ∉ live :=
      fun mine => apart _ mine rfl
    have freshIngredients : .text .ingredientsImage ∉ live :=
      fun mine => apart _ mine rfl
    refine meets_perform ⟨root, trivial⟩ ?_
    refine meets_compute_bind (fun _ _ _ => rfl) ?_
    intro images _
    refine (copyImage_meets _ images there freshFront).bind ?_ ?_
    · intro stop after _ failed tidy
      exact absurd failed tidy
    rintro front after - rfl
    refine (copyImage_meets _ images (Finset.mem_union_left _ there)
      (notMem_union_textBlocks (by decide) freshNutrition)).bind ?_ ?_
    · intro stop after _ failed tidy
      exact absurd failed tidy
    rintro nutrition after - rfl
    refine (copyImage_meets _ images
      (Finset.mem_union_left _ (Finset.mem_union_left _ there))
      (notMem_union_textBlocks (by decide)
        (notMem_union_textBlocks (by decide) freshIngredients))).bind ?_ ?_
    · intro stop after _ failed tidy
      exact absurd failed tidy
    rintro ingredients after - rfl
    apply meets_pure
    change _ = live ∪ imageBlocks { front, nutrition, ingredients }
    rw [Finset.union_assoc, Finset.union_assoc]
    rfl

/-- A product leaves the blocks of its stages. -/
theorem copyProduct_allocates (message : Json) (code : Option CString) :
    (copyProduct message code).Allocates Block.part .fault entry
      (productStages message) := by
  refine (copyName_stage message).bind fun name => ?_
  refine (copyNumber_stage message).bind fun number => ?_
  refine (copyText_stage _ message rfl).bind fun quantity => ?_
  refine (copyText_stage _ message rfl).bind fun ingredients => ?_
  refine (copyText_stage _ message rfl).bind fun brands => ?_
  refine (copyText_stage _ message rfl).bind fun expirationDate => ?_
  refine (copyText_stage _ message rfl).bind fun timestamp => ?_
  refine (copyText_stage _ message rfl).bind fun labels => ?_
  refine (copyTags_stage _ _).bind fun additivesTags => ?_
  refine (copyTags_stage _ _).bind fun allergensTags => ?_
  refine (copyTags_stage _ _).bind fun ingredientsTags => ?_
  exact (copyImages_stage message).bind fun images => allocates_pure

/-- A message leaves the blocks of its stages. -/
theorem copyMessage_allocates (message : Json) :
    (copyMessage message).Allocates Block.part .fault entry
      (stages message) := by
  refine (copyText_stage _ message rfl).bind fun code => ?_
  cases getObjectItem (some message) jsonRemove with
  | some item => exact allocates_pure
  | none => exact copyProduct_allocates message code

/-- The parts of a message in the order in which they are read. -/
def parts : List Part :=
  [.text .code, .text .name, .number, .text .quantity, .text .ingredients,
    .text .brands, .text .expirationDate, .text .timestamp, .text .labels,
    .tags .additives, .tags .allergens, .tags .ingredients, .images]

theorem stages_names (message : Json) :
    (stages message).map Prod.fst <+: parts := by
  unfold stages
  cases getObjectItem (some message) jsonRemove with
  | some item => exact List.cons_prefix_cons.mpr ⟨rfl, List.nil_prefix⟩
  | none => exact List.prefix_refl parts

theorem stages_distinct (message : Json) :
    ((stages message).map Prod.fst).Nodup :=
  (stages_names message).sublist.nodup (by decide)

theorem entry_notMem_stages (message : Json) :
    .entry ∉ (stages message).map Prod.fst := by
  intro member
  have entryRead : Part.entry ∈ parts := (stages_names message).subset member
  revert entryRead
  decide

end Stages

/-! ## What the decoder leaves -/

/-- The blocks of a document. -/
def documentBlocks (message : Json) : Finset Block :=
  ((List.range (blocks message)).map .item).toFinset

/-- The texts of a product. -/
def ownedTexts (product : Product) : Finset Block :=
  unions (textFields.map fun field => textBlocks field (text product field))

/-- The arrays of a product and their tags. -/
def ownedTags (product : Product) : Finset Block :=
  unions (tagFields.map fun field => tagBlocks field (tags product field))

/-- The blocks of a product. -/
def owned (product : Product) : Finset Block :=
  insert .product (ownedTexts product ∪ ownedTags product)

/-- The blocks that nothing points to behind the exit of `sf_pr_decoder`: the
document without its root, and what belongs to a product that is not handed
over. -/
def left (parse : CString → Option Json) (strJson : CString) : Finset Block :=
  match parse strJson with
  | none => ∅
  | some message =>
      (documentBlocks message).erase (.item 0) ∪
        match ProductDecoder.sfPrDecoder parse strJson with
        | some (_, none) => allocated (stages message)
        | _ => ∅

section Exit

variable {message : Json} {product : Product} {block : Block}

theorem blocks_pos : (message : Json) → 0 < blocks message
  | .null => Nat.one_pos
  | .bool _ => Nat.one_pos
  | .number _ => Nat.one_pos
  | .string _ => Nat.two_pos
  | .array _ => Nat.add_pos_left Nat.one_pos _
  | .object _ => Nat.add_pos_left Nat.one_pos _

theorem root_mem_documentBlocks (message : Json) :
    .item 0 ∈ documentBlocks message := by
  rw [documentBlocks, List.mem_toFinset]
  exact List.mem_map_of_mem (List.mem_range.mpr (blocks_pos message))

theorem product_notMem_documentBlocks (message : Json) :
    .product ∉ documentBlocks message := by
  intro member
  obtain ⟨index, _, impossible⟩ :=
    List.mem_map.mp (List.mem_toFinset.mp member)
  cases impossible

theorem mem_owned :
    block ∈ owned product ↔
      block = .product ∨
        (∃ field, block ∈ textBlocks field (text product field)) ∨
          ∃ field, block ∈ tagBlocks field (tags product field) := by
  have allTexts : ∀ field : TextField, field ∈ textFields := by
    intro field
    cases field <;> decide
  have allTags : ∀ field : TagField, field ∈ tagFields := by
    intro field
    cases field <;> decide
  simp [owned, ownedTexts, ownedTags, allTexts, allTags]

/-- The blocks of an addition. -/
theorem allocated_of_addition (addition : IsAddition message product) :
    insert .product (allocated (stages message)) = owned product := by
  have code := readText_eq_ok.mpr addition.code
  have name : readName message = .ok product.name := by
    obtain ⟨text, named, same⟩ := addition.name
    rw [same, readName, requireItem_eq_ok.mpr named]
    rfl
  have number : readNumber message = .ok product.number := by
    obtain ⟨item, numbered, same⟩ := addition.number
    rw [same, readNumber, requireItem_eq_ok.mpr numbered]
    rfl
  have quantity := readText_eq_ok.mpr addition.quantity
  have ingredients := readText_eq_ok.mpr addition.ingredients
  have brands := readText_eq_ok.mpr addition.brands
  have expirationDate := readText_eq_ok.mpr addition.expirationDate
  have timestamp := readText_eq_ok.mpr addition.timestamp
  have labels := readText_eq_ok.mpr addition.labels
  have additives := readTags_eq_ok.mpr addition.additives
  have allergens := readTags_eq_ok.mpr addition.allergens
  have ingredientsTags := readTags_eq_ok.mpr addition.ingredientsTags
  have images := readImages_eq_ok.mpr addition.images
  have staged : allocated (stages message) =
      textBlocks .code product.code ∪ (textBlocks .name product.name ∪
        (∅ ∪ (textBlocks .quantity product.quantity ∪
        (textBlocks .ingredients product.ingredients ∪
        (textBlocks .brands product.brands ∪
        (textBlocks .expirationDate product.expirationDate ∪
        (textBlocks .timestamp product.timestamp ∪
        (textBlocks .labels product.labels ∪
        (tagBlocks .additives product.additivesTags ∪
        (tagBlocks .allergens product.allergensTags ∪
        (tagBlocks .ingredients product.ingredientsTags ∪
        (imageBlocks product.images ∪ ∅)))))))))))) := by
    simp only [stages, addition.kept, productStages, readCode, readQuantity,
      readIngredients, readBrands, readExpirationDate, readTimestamp,
      readLabels, readAdditivesTags, readAllergensTags, readIngredientsTags,
      code, name, number, quantity, ingredients, brands, expirationDate,
      timestamp, labels, additives, allergens, ingredientsTags, images]
    rfl
  ext block
  rw [staged, mem_owned]
  simp only [imageBlocks, Finset.mem_insert, Finset.mem_union,
    Finset.notMem_empty, false_or, or_false]
  refine or_congr_right ?_
  constructor
  · rintro (here | here | here | here | here | here | here | here | here |
      here | here | here | here | here)
    all_goals first | exact .inl ⟨_, here⟩ | exact .inr ⟨_, here⟩
  · rintro (⟨field, here⟩ | ⟨field, here⟩)
    · cases field <;> simp only [text] at here <;>
        simp only [here, true_or, or_true]
    · cases field <;> simp only [tags] at here <;>
        simp only [here, true_or, or_true]

/-- The blocks of a message that is accepted are those of its product. -/
theorem allocated_of_ok {parse : CString → Option Json} {strJson : CString}
    {retval : Int} (parsed : parse strJson = some message)
    (decoded : prDecoding parse strJson = .ok (retval, product)) :
    insert .product (allocated (stages message)) = owned product := by
  obtain ⟨other, found, kind⟩ := prDecoding_eq_ok.mp decoded
  cases parsed.symm.trans found
  rcases kind with ⟨_, addition⟩ | ⟨_, code, coded, ⟨item, removes⟩, rfl⟩
  · exact allocated_of_addition addition
  · have staged : allocated (stages message) = textBlocks .code code ∪ ∅ := by
      simp only [stages, removes, readCode, readText_eq_ok.mpr coded]
      rfl
    ext block
    rw [staged, mem_owned, Finset.union_empty, Finset.mem_insert]
    refine or_congr_right ?_
    constructor
    · intro here
      exact .inl ⟨.code, here⟩
    · rintro (⟨field, here⟩ | ⟨field, here⟩)
      · cases field <;>
          first | exact here | exact absurd here (Finset.notMem_empty block)
      · cases field <;> exact absurd here (Finset.notMem_empty block)

theorem notMem_allocated (isEntry : block.part = .entry) :
    block ∉ allocated (stages message) := by
  intro member
  have named := (copyMessage_allocates message).named block member
  rw [isEntry] at named
  exact entry_notMem_stages message named

theorem part_of_entry
    (member : block ∈ insert .product (documentBlocks message)) :
    block.part = .entry := by
  rcases Finset.mem_insert.mp member with rfl | inside
  · rfl
  · obtain ⟨index, _, rfl⟩ := List.mem_map.mp (List.mem_toFinset.mp inside)
    rfl

theorem entryAccesses_sound (message : Json) :
    AllSound ∅ (entryAccesses message) ∧
      liveAfter ∅ (entryAccesses message) =
        insert .product (documentBlocks message) := by
  have distinct : ((List.range (blocks message)).map Block.item).Nodup :=
    List.nodup_range.map fun _ _ same => Block.item.inj same
  obtain ⟨sound, after⟩ :=
    allocs_sound distinct fun block _ => Finset.notMem_empty block
  have parsed :
      liveAfter ∅ (((List.range (blocks message)).map Block.item).map .alloc) =
        documentBlocks message :=
    after.trans (Finset.empty_union _)
  constructor
  · refine allSound_append.mpr ⟨sound, ?_, trivial⟩
    rw [parsed]
    exact product_notMem_documentBlocks message
  · rw [entryAccesses, liveAfter_append, parsed]
    rfl

/-- From its first member to its last one a message is sound. -/
theorem copyMessage_meets (message : Json) :
    (copyMessage message).Meets (insert .product (documentBlocks message))
      fun result after => result ≠ .error .fault →
        after =
          insert .product (documentBlocks message) ∪
            allocated (stages message) := by
  refine (copyMessage_allocates message).met (stages_distinct message) _ ?_ ?_
  · intro block member
    rcases Finset.mem_insert.mp member with rfl | product
    · exact
        Finset.mem_insert_of_mem (root_mem_documentBlocks message)
    · rw [Finset.mem_singleton.mp product]
      exact Finset.mem_insert_self _ _
  · intro block member
    rw [part_of_entry member]
    exact entry_notMem_stages message

/-- What the caller of `sf_pr_decoder` has to free. -/
def handed : Option (Int × Option Product) → Finset Block
  | some (_, some product) => owned product
  | _ => ∅

/-- The exit of a message that is refused. -/
theorem exit_refused (message : Json) (retval : Int) :
    let live := insert .product (documentBlocks message) ∪
      allocated (stages message)
    AllSound live (exitAccesses (.error (.exit retval))) ∧
      liveAfter live (exitAccesses (.error (.exit retval))) =
        (documentBlocks message).erase (.item 0) ∪
          allocated (stages message) := by
  intro live
  have root : .item 0 ∈ live :=
    Finset.mem_union_left _
      (Finset.mem_insert_of_mem (root_mem_documentBlocks message))
  refine ⟨⟨?_, ?_, trivial⟩, ?_⟩
  · exact Finset.mem_union_left _ (Finset.mem_insert_self _ _)
  · exact Finset.mem_erase.mpr ⟨Block.noConfusion, root⟩
  · change (live.erase .product).erase (.item 0) = _
    rw [Finset.erase_union_distrib, Finset.erase_union_distrib,
      Finset.erase_insert (product_notMem_documentBlocks message),
      Finset.erase_eq_of_notMem (notMem_allocated rfl),
      Finset.erase_eq_of_notMem (notMem_allocated rfl)]

/-- The exit of a message that is accepted. -/
theorem exit_accepted (message : Json) (result : Int × Product) :
    let live := insert .product (documentBlocks message) ∪
      allocated (stages message)
    AllSound live (exitAccesses (.ok result)) ∧
      liveAfter live (exitAccesses (.ok result)) =
        (documentBlocks message).erase (.item 0) ∪
          insert .product (allocated (stages message)) := by
  intro live
  refine ⟨⟨?_, trivial⟩, ?_⟩
  · exact
      Finset.mem_union_left _
        (Finset.mem_insert_of_mem (root_mem_documentBlocks message))
  · change live.erase (.item 0) = _
    rw [Finset.erase_union_distrib,
      Finset.erase_insert_of_ne Block.noConfusion,
      Finset.erase_eq_of_notMem (notMem_allocated rfl), Finset.insert_union,
      Finset.union_insert]

/-- Every access of `sf_pr_decoder` is sound, and what is live behind it is what
it leaves and what it hands over. -/
theorem sfPrDecoder_heap (parse : CString → Option Json) (strJson : CString) :
    AllSound ∅ (sfPrDecoder parse strJson).1 ∧
      (ProductDecoder.sfPrDecoder parse strJson ≠ none →
        liveAfter ∅ (sfPrDecoder parse strJson).1 =
          left parse strJson ∪
            handed (ProductDecoder.sfPrDecoder parse strJson)) := by
  cases parsed : parse strJson with
  | none =>
      simp only [sfPrDecoder, left, ProductDecoder.sfPrDecoder, prDecoding,
        parsed]
      exact ⟨trivial, fun _ => rfl⟩
  | some message =>
      obtain ⟨entrySound, entered⟩ := entryAccesses_sound message
      obtain ⟨bodySound, body⟩ := copyMessage_meets message
      have decoding := copyMessage_result parsed
      simp only [sfPrDecoder, left, parsed, ProductDecoder.sfPrDecoder]
      rw [liveAfter_append, liveAfter_append, allSound_append, allSound_append,
        liveAfter_append, entered, decoding]
      rw [decoding] at body
      cases result : prDecoding parse strJson with
      | ok decoded =>
          obtain ⟨retval, product⟩ := decoded
          obtain ⟨exitSound, left⟩ := exit_accepted message (retval, product)
          rw [body (by rw [result]; rintro ⟨⟩)]
          refine ⟨⟨⟨entrySound, bodySound⟩, exitSound⟩, fun _ => ?_⟩
          rw [left, allocated_of_ok parsed result]
          change _ = (_ ∪ ∅) ∪ _
          rw [Finset.union_empty]
          rfl
      | error stop =>
          cases stop with
          | fault =>
              exact
                ⟨⟨⟨entrySound, bodySound⟩, trivial⟩, fun gone =>
                  absurd rfl gone⟩
          | exit retval =>
              obtain ⟨exitSound, left⟩ := exit_refused message retval
              rw [body (by rw [result]; rintro ⟨⟩)]
              refine ⟨⟨⟨entrySound, bodySound⟩, exitSound⟩, fun _ => ?_⟩
              rw [left]
              exact (Finset.union_empty _).symm

/-- A document that consists of its root has no members. -/
theorem getObjectItem_of_root (root : blocks message = 1) (name : CString) :
    getObjectItem (some message) name = none := by
  cases message with
  | object members =>
      cases members with
      | nil => rfl
      | cons member rest =>
          obtain ⟨key, item⟩ := member
          have more := blocks_pos item
          simp only [blocks, memberBlocks] at root
          omega
  | _ => rfl

/-- Nothing is left exactly of what is no document or only its root. -/
theorem left_eq_empty_iff {parse : CString → Option Json} {strJson : CString} :
    left parse strJson = ∅ ↔
      ∀ message, parse strJson = some message → blocks message = 1 := by
  unfold left
  cases parse strJson with
  | none => simp
  | some message =>
      rw [Finset.union_eq_empty]
      constructor
      · rintro ⟨nothing, _⟩ other same
        cases same
        by_contra more
        have second : 1 < blocks message :=
          lt_of_le_of_ne (blocks_pos message) (Ne.symm more)
        have member : .item 1 ∈ (documentBlocks message).erase (.item 0) := by
          refine Finset.mem_erase.mpr ⟨by decide, List.mem_toFinset.mpr ?_⟩
          exact List.mem_map_of_mem (List.mem_range.mpr second)
        rw [nothing] at member
        exact absurd member (Finset.notMem_empty _)
      · intro root
        have alone := root message rfl
        have unread : readCode message = .error (.exit unexFields) := by
          rw [readCode, readText, requireItem, getObjectItem_of_root alone]
          rfl
        constructor
        · rw [documentBlocks, alone]
          rfl
        · split
          · rw [stages, unread]
            rfl
          · rfl

end Exit

/-! ## What free_product releases -/

section Releases

variable {product : Product}

theorem freeText_releases (product : Product) (field : TextField) :
    Releases {.product} (freeText product field)
      (textBlocks field (text product field)) := by
  intro live holds inside
  have there : .product ∈ live := holds (Finset.mem_singleton_self _)
  unfold freeText
  cases value : text product field with
  | none => exact ⟨⟨there, trivial⟩, Finset.sdiff_empty.symm⟩
  | some copied =>
      rw [value] at inside
      refine ⟨⟨there, inside (Finset.mem_singleton_self _), trivial⟩, ?_⟩
      exact (Finset.sdiff_singleton_eq_erase _ live).symm

/-- The loop over the tags of an array. -/
theorem freeTexts_releases (field : TagField) (count : Nat) :
    Releases {.array field}
      ((List.range count).flatMap fun index =>
        [.read (.array field), .free (.tag field index)])
      (tagTexts field 0 count) := by
  have same : tagTexts field 0 count =
      unions ((List.range count).map fun index => {.tag field index}) := by
    ext block
    simp [tagTexts, eq_comm]
  rw [same]
  apply releases_flatMap
  · intro index _ live holds inside
    have there : .array field ∈ live := holds (Finset.mem_singleton_self _)
    refine ⟨⟨there, inside (Finset.mem_singleton_self _), trivial⟩, ?_⟩
    exact (Finset.sdiff_singleton_eq_erase _ live).symm
  · refine List.nodup_range.imp ?_
    intro index other different
    rw [Finset.disjoint_singleton]
    exact fun same => different (Block.tag.inj same).2
  · intro index _
    rw [Finset.disjoint_singleton]
    exact Block.noConfusion

theorem freeTags_releases (product : Product) (field : TagField) :
    Releases {.product} (freeTags product field)
      (tagBlocks field (tags product field)) := by
  intro live holds inside
  have there : .product ∈ live := holds (Finset.mem_singleton_self _)
  unfold freeTags
  cases value : tags product field with
  | none => exact ⟨⟨there, trivial⟩, Finset.sdiff_empty.symm⟩
  | some texts =>
      rw [value] at inside
      obtain ⟨array, tagged⟩ := Finset.insert_subset_iff.mp inside
      obtain ⟨sound, after⟩ := freeTexts_releases field texts.length live
        (Finset.singleton_subset_iff.mpr array) tagged
      have stillThere :
          .array field ∈ live \ tagTexts field 0 texts.length := by
        refine Finset.mem_sdiff.mpr ⟨array, ?_⟩
        simp [tagTexts]
      constructor
      · refine ⟨there, allSound_append.mpr ⟨sound, ?_⟩⟩
        rw [after_read, after]
        exact ⟨stillThere, stillThere, trivial⟩
      · rw [liveAfter_cons, after_read, liveAfter_append, after]
        exact (Finset.sdiff_insert live _ _).symm

theorem eq_text_of_mem {field : TextField} {value : Option CString}
    {block : Block} (member : block ∈ textBlocks field value) :
    block = .text field := by
  cases value with
  | none => cases member
  | some copied => exact Finset.mem_singleton.mp member

theorem textFields_apart (product : Product) :
    textFields.Pairwise fun one other =>
      Disjoint (textBlocks one (text product one))
        (textBlocks other (text product other)) := by
  have distinct : textFields.Nodup := by decide
  refine distinct.imp ?_
  intro one other different
  rw [Finset.disjoint_left]
  intro block mine theirs
  have same := (eq_text_of_mem mine).symm.trans (eq_text_of_mem theirs)
  exact different (Block.text.inj same)

theorem tagFields_apart (product : Product) :
    tagFields.Pairwise fun one other =>
      Disjoint (tagBlocks one (tags product one))
        (tagBlocks other (tags product other)) := by
  have distinct : tagFields.Nodup := by decide
  refine distinct.imp ?_
  intro one other different
  rw [Finset.disjoint_left]
  intro block mine theirs
  have same := (tagBlocks_part one _ block mine).symm.trans
    (tagBlocks_part other _ block theirs)
  exact different (Part.tags.inj same)

theorem isText_of_mem {block : Block} (member : block ∈ ownedTexts product) :
    ∃ field, block = .text field := by
  obtain ⟨set, among, inside⟩ := mem_unions.mp member
  obtain ⟨field, _, rfl⟩ := List.mem_map.mp among
  exact ⟨field, eq_text_of_mem inside⟩

theorem isTag_of_mem {block : Block} (member : block ∈ ownedTags product) :
    ∃ field, block.part = .tags field := by
  obtain ⟨set, among, inside⟩ := mem_unions.mp member
  obtain ⟨field, _, rfl⟩ := List.mem_map.mp among
  exact ⟨field, tagBlocks_part field _ block inside⟩

theorem texts_apart_tags (product : Product) :
    Disjoint (ownedTexts product) (ownedTags product) := by
  rw [Finset.disjoint_left]
  intro block isText isTag
  obtain ⟨field, rfl⟩ := isText_of_mem isText
  obtain ⟨tagged, part⟩ := isTag_of_mem isTag
  cases field <;> cases part

theorem product_notMem_texts (product : Product) :
    .product ∉ ownedTexts product := by
  intro member
  obtain ⟨field, impossible⟩ := isText_of_mem member
  cases impossible

theorem product_notMem_tags (product : Product) :
    .product ∉ ownedTags product := by
  intro member
  obtain ⟨field, impossible⟩ := isTag_of_mem member
  cases impossible

/-- `free_product` releases the blocks of its product and needs no others. -/
theorem freeProduct_releases (product : Product) :
    Releases ∅ (freeProduct product) (owned product) := by
  have texts :
      Releases {.product} (textFields.flatMap (freeText product))
        (ownedTexts product) := by
    refine releases_flatMap (fun field _ => freeText_releases product field)
      (textFields_apart product) ?_
    intro field _
    rw [Finset.disjoint_singleton_right]
    intro member
    cases eq_text_of_mem member
  have tags :
      Releases {.product} (tagFields.flatMap (freeTags product))
        (ownedTags product) := by
    refine releases_flatMap (fun field _ => freeTags_releases product field)
      (tagFields_apart product) ?_
    intro field _
    rw [Finset.disjoint_singleton_right]
    intro member
    cases tagBlocks_part field _ _ member
  have pointed := texts.append tags (texts_apart_tags product)
    (Finset.disjoint_singleton_right.mpr (product_notMem_texts product))
  intro live _ inside
  obtain ⟨there, below⟩ := Finset.insert_subset_iff.mp inside
  obtain ⟨sound, after⟩ :=
    pointed live (Finset.singleton_subset_iff.mpr there) below
  have stillThere :
      .product ∈ live \ (ownedTexts product ∪ ownedTags product) := by
    refine Finset.mem_sdiff.mpr ⟨there, ?_⟩
    rw [Finset.mem_union, not_or]
    exact ⟨product_notMem_texts product, product_notMem_tags product⟩
  constructor
  · refine allSound_append.mpr ⟨sound, ?_, trivial⟩
    rw [after]
    exact stillThere
  · rw [freeProduct, liveAfter_append, after]
    exact (Finset.sdiff_insert live _ _).symm

end Releases

end SmartFridge.DecoderHeap
