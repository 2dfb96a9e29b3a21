import SmartFridge.Library.HeapProgram
import SmartFridge.ProductDecoder

/-!
# The exits of sf_pr_raw_decoder

The decoder builds its message from an object, three arrays and two more
objects, and has one exit for its successes and its failures.  There it frees
what its variables point to; the tests of the three arrays all free the object
of the images, which is not there yet while one of the variables is set.

`cJSON_free` frees a single item, without what it contains.  Only the items that
the variables point to have a block here.  What is below them, in the document
and in the message, is not counted: no exit frees any of it.
-/

namespace SmartFridge.RawDecoderHeap

open SmartFridge.Library
open SmartFridge.Library.Allocation
open SmartFridge.CJson
open SmartFridge.ProductDecoder

/-! ## The decoder and its variables -/

/-- The items that the variables point to: the root of the parsed document and
the containers that the decoder creates. -/
inductive Root where
  | obj
  | decoded
  | tags
  | tagsAdditives
  | tagsAllergens
  | tagsIngredients
  | decodedImages
deriving DecidableEq

/-- The variables that the exit tests. -/
structure Pointers where
  obj : Option Root
  decoded : Option Root
  decodedImages : Option Root
  tags : Option Root
  tagsAdditives : Option Root
  tagsAllergens : Option Root
  tagsIngredients : Option Root

/-- The variables before they are set. -/
def Pointers.null : Pointers :=
  { obj := none
    decoded := none
    decodedImages := none
    tags := none
    tagsAdditives := none
    tagsAllergens := none
    tagsIngredients := none }

/-- `cJSON_free` of a variable that is not NULL. -/
def free (pointer : Option Root) : List (Access Root) :=
  pointer.toList.map .free

/-- What is freed behind `end`. -/
def exitAccesses (vars : Pointers) : List (Access Root) :=
  free vars.obj ++ free vars.decoded ++ free vars.decodedImages ++
    (if vars.tagsAdditives ≠ none then free vars.decodedImages else []) ++
    (if vars.tagsAllergens ≠ none then free vars.decodedImages else []) ++
    (if vars.tagsIngredients ≠ none then free vars.decodedImages else []) ++
    free vars.tags

/-- A step that leaves with the variables as they are. -/
def leaving {α : Type} (vars : Pointers) (reading : Except Stop α) :
    Program Root (Stop × Pointers) α :=
  .compute (reading.mapError fun stop => (stop, vars))

section Decoder

variable (now : CString) (number : Int32) (code : CString)

/-- The images of a product, and the message. -/
def imagesOn (vars : Pointers) (product : Json) (decoded : Members) :
    Program Root (Stop × Pointers) (Pointers × Int × Json) := do
  let images ← leaving vars (requireItem (some product) jsonProductImages)
  .perform [.alloc .decodedImages]
  let vars := { vars with decodedImages := some .decodedImages }
  let members ← leaving vars (addFrontImage images [])
  let members ← leaving vars (addNutritionImage images members)
  let members ← leaving vars (addIngredientsImage images members)
  .perform [.read .decoded, .read .decodedImages]
  let vars := { vars with decodedImages := none }
  let decoded := addItemToObject decoded jsonImages (some (.object members))
  let decoded := addStringToObject decoded jsonProductTimestamp (some now)
  let decoded := addStringToObject decoded jsonProductCode (some code)
  return ({ vars with decoded := none }, noError, .object decoded)

/-- The tags of a product, and what follows them. -/
def tagsOn (vars : Pointers) (product : Json) (decoded : Members) :
    Program Root (Stop × Pointers) (Pointers × Int × Json) := do
  let tags ← leaving vars (addAdditivesTags product [])
  .perform [.read .tags, .read .tagsAdditives]
  let vars := { vars with tagsAdditives := none }
  let tags ← leaving vars (addAllergensTags product tags)
  .perform [.read .tags, .read .tagsAllergens]
  let vars := { vars with tagsAllergens := none }
  let tags ← leaving vars (addIngredientsTags product tags)
  .perform [.read .tags, .read .tagsIngredients]
  let vars := { vars with tagsIngredients := none }
  .perform [.read .decoded, .read .tags]
  let decoded := addItemToObject decoded jsonTags (some (.object tags))
  imagesOn now code { vars with tags := none } product decoded

/-- The decoder behind `cJSON_Parse`. -/
def decodingOn (obj : Json) :
    Program Root (Stop × Pointers) (Pointers × Int × Json) := do
  .perform [.alloc .obj, .alloc .decoded, .read .obj]
  let vars :=
    { Pointers.null with obj := some .obj, decoded := some .decoded }
  let product ← leaving vars (productItem obj)
  .perform
    [.alloc .tags, .alloc .tagsAdditives, .alloc .tagsAllergens,
      .alloc .tagsIngredients, .read .decoded]
  let vars :=
    { vars with
      tags := some .tags
      tagsAdditives := some .tagsAdditives
      tagsAllergens := some .tagsAllergens
      tagsIngredients := some .tagsIngredients }
  let decoded ← leaving vars (decodedTexts product number)
  tagsOn now code vars product decoded

/-- What the exit makes of the body. -/
def ended (decoding : Program Root (Stop × Pointers) (Pointers × Int × Json)) :
    List (Access Root) × Option (Int × Option Json) :=
  match decoding.result with
  | .ok (vars, retval, decoded) =>
      (decoding.accesses ++ exitAccesses vars, some (retval, some decoded))
  | .error (.exit retval, vars) =>
      (decoding.accesses ++ exitAccesses vars, some (retval, none))
  | .error (.fault, _) => (decoding.accesses, none)

/-- The accesses of `sf_pr_raw_decoder` and what its caller sees. -/
def sfPrRawDecoder (parse : CString → Option Json) (strJson : CString) :
    List (Access Root) × Option (Int × Option Json) :=
  match parse strJson with
  | none => (exitAccesses .null, some (invFormat, none))
  | some obj => ended (decodingOn now number code obj)

end Decoder

/-! ## The exits -/

/-- The three arrays of tags. -/
def arrays : Finset Root :=
  {.tagsAdditives, .tagsAllergens, .tagsIngredients}

/-- The items that belong to the message of a success. -/
def handedOver : Finset Root :=
  {.decoded, .tags, .decodedImages} ∪ arrays

/-- What the exit leaves of the tags, which are part of the message once they
have all been read. -/
def tagsLost (product : Json) : Finset Root :=
  match decodedTags product with
  | .error _ => arrays
  | .ok _ => insert .tags arrays

/-- The items that the exit of a failure leaves. -/
def lost (number : Int32) (obj : Json) : Finset Root :=
  match productItem obj with
  | .error _ => ∅
  | .ok product =>
      match decodedTexts product number with
      | .error _ => arrays
      | .ok _ => tagsLost product

/-- The exit is sound and leaves these items. -/
def Leaving (live : Finset Root) (vars : Pointers) (rest : Finset Root) :
    Prop :=
  AllSound live (exitAccesses vars) ∧ liveAfter live (exitAccesses vars) = rest

instance (live : Finset Root) (vars : Pointers) (rest : Finset Root) :
    Decidable (Leaving live vars rest) :=
  inferInstanceAs (Decidable (_ ∧ _))

/-- The exit of whatever the body comes to; there is none behind a fault. -/
def EndsWell (rest : Finset Root) :
    Except (Stop × Pointers) (Pointers × Int × Json) → Finset Root → Prop
  | .ok (vars, _), live => Leaving live vars handedOver
  | .error (.exit _, vars), live => Leaving live vars rest
  | .error (.fault, _), _ => True

theorem ok_bind {ε α β : Type} (value : α) (next : α → Except ε β) :
    (Except.ok value >>= next) = next value :=
  rfl

section Exits

variable {live rest : Finset Root} {vars : Pointers}

theorem meets_leaving {α : Type} {reading : Except Stop α}
    {next : α → Program Root (Stop × Pointers) (Pointers × Int × Json)}
    (stops : ∀ stop, reading = .error stop → Leaving live vars rest)
    (goesOn : ∀ value, reading = .ok value →
      (next value).Meets live (EndsWell rest)) :
    (leaving vars reading >>= next).Meets live (EndsWell rest) := by
  refine meets_compute_bind ?_ ?_
  · intro stopped failed
    cases reading with
    | ok value => cases failed
    | error stop =>
        cases failed
        cases stop with
        | fault => exact trivial
        | exit retval => exact stops _ rfl
  · intro value returned
    cases reading with
    | error stop => cases returned
    | ok found =>
        cases returned
        exact goesOn _ rfl

/-- What the variables point to while the images are read. -/
def imagesVars : Pointers :=
  { Pointers.null with obj := some .obj, decoded := some .decoded }

/-- What the variables point to while the tags are read. -/
def tagsVars : Pointers :=
  { imagesVars with
    tags := some .tags
    tagsAdditives := some .tagsAdditives
    tagsAllergens := some .tagsAllergens
    tagsIngredients := some .tagsIngredients }

/-- What is live behind the creation of the tags. -/
def withTags : Finset Root :=
  {.tagsIngredients, .tagsAllergens, .tagsAdditives, .tags, .decoded, .obj}

theorem imagesOn_meets (now code : CString) (product : Json)
    (decoded : Members) :
    (imagesOn now code imagesVars product decoded).Meets withTags
      (EndsWell (insert .tags arrays)) := by
  refine meets_leaving (fun _ _ => by decide) fun images _ => ?_
  refine meets_perform (by decide) ?_
  refine meets_leaving (fun _ _ => by decide) fun front _ => ?_
  refine meets_leaving (fun _ _ => by decide) fun nutrition _ => ?_
  refine meets_leaving (fun _ _ => by decide) fun ingredients _ => ?_
  refine meets_perform (by decide) ?_
  apply meets_pure
  change Leaving (insert .decodedImages withTags)
    { imagesVars with decoded := none } handedOver
  decide

/-- Up to the last of the three arrays the tags are not part of the message. -/
theorem tagsOn_meets (now code : CString) (product : Json)
    (decoded : Members) :
    (tagsOn now code tagsVars product decoded).Meets withTags
      (EndsWell (tagsLost product)) := by
  refine meets_leaving ?_ ?_
  · intro stop failed
    have rest : tagsLost product = arrays := by
      rw [tagsLost, decodedTags, failed]
      rfl
    rw [rest]
    decide
  intro additives additivesRead
  refine meets_perform (by decide) ?_
  refine meets_leaving ?_ ?_
  · intro stop failed
    have rest : tagsLost product = arrays := by
      rw [tagsLost, decodedTags, additivesRead, ok_bind, failed]
      rfl
    rw [rest]
    decide
  intro allergens allergensRead
  refine meets_perform (by decide) ?_
  refine meets_leaving ?_ ?_
  · intro stop failed
    have rest : tagsLost product = arrays := by
      rw [tagsLost, decodedTags, additivesRead, ok_bind, allergensRead,
        ok_bind, failed]
    rw [rest]
    decide
  intro tags ingredientsRead
  have rest : tagsLost product = insert .tags arrays := by
    rw [tagsLost, decodedTags, additivesRead, ok_bind, allergensRead, ok_bind,
      ingredientsRead]
  refine meets_perform (by decide) ?_
  refine meets_perform (by decide) ?_
  rw [rest]
  exact imagesOn_meets now code product _

theorem decodingOn_meets (now code : CString) (number : Int32) (obj : Json) :
    (decodingOn now number code obj).Meets ∅ (EndsWell (lost number obj)) := by
  refine meets_perform (by decide) ?_
  refine meets_leaving ?_ ?_
  · intro stop failed
    have rest : lost number obj = ∅ := by
      rw [lost, failed]
    rw [rest]
    decide
  intro product found
  refine meets_perform (by decide) ?_
  refine meets_leaving ?_ ?_
  · intro stop failed
    have rest : lost number obj = arrays := by
      simp only [lost, found, failed]
    rw [rest]
    decide
  intro decoded read
  have rest : lost number obj = tagsLost product := by
    simp only [lost, found, read]
  rw [rest]
  exact tagsOn_meets now code product decoded

end Exits

/-! ## The same results -/

section Results

variable {α β : Type}

/-- The result of a program without the variables it left with. -/
def plain (program : Program Root (Stop × Pointers) α) : Except Stop α :=
  program.result.mapError Prod.fst

theorem plain_leaving (vars : Pointers) (reading : Except Stop α)
    (next : α → Program Root (Stop × Pointers) β) :
    plain (leaving vars reading >>= next) =
      reading >>= fun value => plain (next value) := by
  cases reading with
  | error stop => rfl
  | ok value => rfl

theorem plain_perform (accesses : List (Access Root))
    (next : Unit → Program Root (Stop × Pointers) β) :
    plain (.perform accesses >>= next) = plain (next ()) :=
  rfl

theorem plain_pure (value : α) :
    plain (pure value : Program Root (Stop × Pointers) α) = pure value :=
  rfl

theorem ended_result
    (decoding : Program Root (Stop × Pointers) (Pointers × Int × Json)) :
    (ended decoding).2 = outcome (Prod.snd <$> plain decoding) := by
  obtain ⟨accesses, result⟩ := decoding
  cases result with
  | ok value => rfl
  | error failure =>
      obtain ⟨stop, vars⟩ := failure
      cases stop with
      | fault => rfl
      | exit retval => rfl

/-- The accesses leave the result of `sf_pr_raw_decoder` as it is. -/
theorem sfPrRawDecoder_result (now code strJson : CString) (number : Int32)
    (parse : CString → Option Json) :
    (sfPrRawDecoder now number code parse strJson).2 =
      ProductDecoder.sfPrRawDecoder parse now strJson number code := by
  unfold sfPrRawDecoder ProductDecoder.sfPrRawDecoder rawDecoding
  cases parse strJson with
  | none => rfl
  | some obj =>
      refine (ended_result _).trans (congrArg outcome ?_)
      simp only [decodingOn, tagsOn, imagesOn, decodedTags, decodedImages,
        plain_perform, plain_leaving, plain_pure, map_bind, map_pure,
        bind_assoc]

end Results

/-! ## The memory of a decoding -/

/-- The items that are live behind the decoder, by what it returns. -/
def LeavesLive (rest : Finset Root) :
    Option (Int × Option Json) → Finset Root → Prop
  | some (_, some _), live => live = handedOver
  | some (_, none), live => live = rest
  | none, _ => True

/-- The exit behind a body that ends well. -/
theorem ended_heap {rest : Finset Root}
    {decoding : Program Root (Stop × Pointers) (Pointers × Int × Json)}
    (met : decoding.Meets ∅ (EndsWell rest)) :
    AllSound ∅ (ended decoding).1 ∧
      LeavesLive rest (ended decoding).2 (liveAfter ∅ (ended decoding).1) := by
  obtain ⟨accesses, result⟩ := decoding
  obtain ⟨bodySound, exit⟩ := met
  cases result with
  | ok value =>
      obtain ⟨vars, retval, decoded⟩ := value
      change AllSound ∅ (accesses ++ exitAccesses vars) ∧
        liveAfter ∅ (accesses ++ exitAccesses vars) = handedOver
      rw [allSound_append, liveAfter_append]
      exact ⟨⟨bodySound, exit.1⟩, exit.2⟩
  | error failure =>
      obtain ⟨stop, vars⟩ := failure
      cases stop with
      | fault => exact ⟨bodySound, trivial⟩
      | exit retval =>
          change AllSound ∅ (accesses ++ exitAccesses vars) ∧
            liveAfter ∅ (accesses ++ exitAccesses vars) = rest
          rw [allSound_append, liveAfter_append]
          exact ⟨⟨bodySound, exit.1⟩, exit.2⟩

/--
On every document `sf_pr_raw_decoder` frees none of the items that its variables
point to twice and touches none that it has freed.  Of these items, the ones
that make up the message are live behind a success and no others; a failure
behind the creation of the arrays loses them, and with them the object of the
tags once they have all been read.
-/
theorem raw_decoder_frees_once (parse : CString → Option Json)
    (now code strJson : CString) (number : Int32) :
    (sfPrRawDecoder now number code parse strJson).2 =
        ProductDecoder.sfPrRawDecoder parse now strJson number code ∧
      AllSound ∅ (sfPrRawDecoder now number code parse strJson).1 ∧
        LeavesLive ((parse strJson).elim ∅ (lost number))
          (ProductDecoder.sfPrRawDecoder parse now strJson number code)
          (liveAfter ∅ (sfPrRawDecoder now number code parse strJson).1) := by
  refine ⟨sfPrRawDecoder_result now code strJson number parse, ?_⟩
  rw [← sfPrRawDecoder_result, sfPrRawDecoder]
  cases parse strJson with
  | none => exact ⟨trivial, rfl⟩
  | some obj => exact ended_heap (decodingOn_meets now code number obj)

end SmartFridge.RawDecoderHeap
