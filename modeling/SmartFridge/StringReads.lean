import SmartFridge.ProductRoundTrip

/-!
# The strings that the decoders read

Both decoders look members up in a fixed order and leave at the first one that
is missing.  What they read on the way are the strings of the members found, so
that a decoder returns exactly if all of these items are strings.
-/

namespace SmartFridge.StringReads

open SmartFridge.Library
open SmartFridge.CJson
open SmartFridge.ProductDecoder
open SmartFridge.ProductRoundTrip

/-! ## Lookups -/

/-- A lookup: what it finds, and the items whose strings are read from that. -/
structure Lookup where
  found : Option Json
  required : Bool
  texts : Json → List Json

/-- Every string is there that is read before a required member is missing. -/
def ReadsStrings : List Lookup → Prop
  | [] => True
  | lookup :: later =>
      match lookup.found with
      | none => lookup.required = true ∨ ReadsStrings later
      | some item =>
          (∀ text ∈ lookup.texts item, valuestring text ≠ none) ∧
            ReadsStrings later

/-- No required member is missing. -/
def AllFound (lookups : List Lookup) : Prop :=
  ∀ lookup ∈ lookups, lookup.required = true → lookup.found ≠ none

/-- A required member whose own string is read. -/
def textLookup (object : Option Json) (name : CString) : Lookup :=
  { found := getObjectItem object name
    required := true
    texts := fun item => [item] }

/-- A required member of which no string is read. -/
def plainLookup (object : Option Json) (name : CString) : Lookup :=
  { found := getObjectItem object name
    required := true
    texts := fun _ => [] }

/-- A required array whose items' strings are read. -/
def tagsLookup (object : Option Json) (name : CString) : Lookup :=
  { found := getObjectItem object name
    required := true
    texts := children }

/-- A member that may be missing. -/
def imageLookup (images : Option Json) (slot : CString) : Lookup :=
  { found := getObjectItem images slot
    required := false
    texts := fun item => [item] }

/-- The lookups of `sf_pr_decoder` behind the one of `remove`. -/
def additionLookups (message : Option Json) : List Lookup :=
  let tags := getObjectItem message jsonTags
  let images := getObjectItem message jsonImages
  [textLookup message jsonName,
    plainLookup message jsonNumber,
    textLookup message jsonQuantity,
    textLookup message jsonIngredients,
    textLookup message jsonProductBrands,
    textLookup message jsonProductExpirationDate,
    textLookup message jsonProductTimestamp,
    textLookup message jsonProductLabels,
    tagsLookup tags jsonAdditives,
    tagsLookup tags jsonAllergensTags,
    tagsLookup tags jsonIngredientsTags,
    plainLookup message jsonImages,
    imageLookup images jsonProductImagesFront,
    imageLookup images jsonProductImagesNutrition,
    imageLookup images jsonProductImagesIngredients]

/-- The lookups of `sf_pr_decoder`, which end at a member `remove`. -/
def messageLookups (message : Json) : List Lookup :=
  textLookup (some message) jsonProductCode ::
    match getObjectItem (some message) jsonRemove with
    | some _ => []
    | none => additionLookups (some message)

/-- The lookups for a name, up to one that is not empty. -/
def nameLookups (product : Json) : List CString → List Lookup
  | [] => []
  | name :: substitutes =>
      textLookup (some product) name ::
        if (getObjectItem (some product) name).bind valuestring =
            some .empty then
          nameLookups product substitutes
        else
          []

/--
The lookups of `sf_pr_raw_decoder` whose strings it reads itself; those that it
hands to cJSON may be NULL.
-/
def documentLookups (document : Json) : List Lookup :=
  match getObjectItem (some document) jsonProduct with
  | none => [textLookup (some document) jsonStatusVerbose]
  | some product =>
      nameLookups product
        [jsonProductName, jsonGenericName, jsonProductCategories]

/-! ## Steps of a decoder -/

section Steps

variable {α β : Type}

/-- The step makes a lookup: it goes on, leaves with UNEX_FIELDS or faults. -/
inductive Performs (lookup : Lookup) (step : Except Stop α) : Prop
  | leaves (missing : lookup.found = none) (required : lookup.required = true)
      (left : step = .error (.exit unexFields))
  | skips (missing : lookup.found = none) (optional : lookup.required = false)
      (value : α) (gone : step = .ok value)
  | reads {item : Json} (present : lookup.found = some item)
      (strings : ∀ text ∈ lookup.texts item, valuestring text ≠ none)
      (value : α) (gone : step = .ok value)
  | faults {item : Json} (present : lookup.found = some item)
      (null : ¬ ∀ text ∈ lookup.texts item, valuestring text ≠ none)
      (faulty : step = .error .fault)

/-- A decoding that makes some lookups, and may otherwise leave with some codes. -/
structure Follows (codes : List Int) (lookups : List Lookup)
    (decoding : Except Stop α) : Prop where
  faultless : decoding ≠ .error .fault ↔ ReadsStrings lookups
  exits : ExitsWith codes decoding

theorem follows_ok (codes : List Int) (value : α) :
    Follows codes [] (.ok value : Except Stop α) where
  faultless := by simp [ReadsStrings]
  exits := exitsWith_ok value

/-- The rule for a step in front of a decoding. -/
theorem Performs.bind {lookup : Lookup} {later : List Lookup}
    {first : Except Stop α} {next : α → Except Stop β} {codes : List Int}
    (performs : Performs lookup first) (listed : unexFields ∈ codes)
    (follows : ∀ value, first = .ok value →
      Follows codes later (next value)) :
    Follows codes (lookup :: later) (first >>= next) := by
  cases performs with
  | leaves missing required left =>
      subst left
      refine ⟨?_, exitsWith_exit listed⟩
      rw [ReadsStrings, missing]
      exact iff_of_true (fun impossible => nomatch impossible) (.inl required)
  | skips missing optional value gone =>
      subst gone
      refine ⟨(follows value rfl).faultless.trans ?_, (follows value rfl).exits⟩
      rw [ReadsStrings, missing]
      simp [optional]
  | reads present strings value gone =>
      subst gone
      refine ⟨(follows value rfl).faultless.trans ?_, (follows value rfl).exits⟩
      rw [ReadsStrings, present]
      exact (and_iff_right strings).symm
  | faults present null faulty =>
      subst faulty
      refine ⟨?_, exitsWith_fault⟩
      rw [ReadsStrings, present]
      exact iff_of_false (fun held => held rfl) (fun held => null held.1)

/-- A decoding that makes some lookups and nothing else. -/
inductive Walks (lookups : List Lookup) (decoding : Except Stop α) : Prop
  | completes (found : AllFound lookups) (strings : ReadsStrings lookups)
      (value : α) (completed : decoding = .ok value)
  | leaves (missing : ¬ AllFound lookups) (strings : ReadsStrings lookups)
      (left : decoding = .error (.exit unexFields))
  | faults (null : ¬ ReadsStrings lookups)
      (faulty : decoding = .error .fault)

theorem walks_ok (value : α) : Walks [] (.ok value : Except Stop α) :=
  .completes (by simp [AllFound]) trivial value rfl

theorem allFound_cons {lookup : Lookup} {later : List Lookup} :
    AllFound (lookup :: later) ↔
      (lookup.required = true → lookup.found ≠ none) ∧ AllFound later :=
  List.forall_mem_cons

theorem Performs.walks {lookup : Lookup} {later : List Lookup}
    {first : Except Stop α} {next : α → Except Stop β}
    (performs : Performs lookup first)
    (walks : ∀ value, first = .ok value → Walks later (next value)) :
    Walks (lookup :: later) (first >>= next) := by
  have goes {value : α} (gone : first = .ok value)
      (passed : lookup.required = true → lookup.found ≠ none)
      (strings : ReadsStrings (lookup :: later) ↔ ReadsStrings later) :
      Walks (lookup :: later) (first >>= next) := by
    subst gone
    cases walks value rfl with
    | completes found read result completed =>
        exact .completes (allFound_cons.mpr ⟨passed, found⟩)
          (strings.mpr read) result completed
    | leaves missing read left =>
        exact .leaves (fun found => missing (allFound_cons.mp found).2)
          (strings.mpr read) left
    | faults null faulty =>
        exact .faults (fun read => null (strings.mp read)) faulty
  cases performs with
  | leaves missing required left =>
      subst left
      refine .leaves ?_ ?_ rfl
      · exact fun found => (allFound_cons.mp found).1 required missing
      · rw [ReadsStrings, missing]
        exact .inl required
  | skips missing optional value gone =>
      apply goes gone
      · simp [optional]
      · rw [ReadsStrings, missing]
        simp [optional]
  | reads present strings value gone =>
      apply goes gone
      · simp [present]
      · rw [ReadsStrings, present]
        exact and_iff_right strings
  | faults present null faulty =>
      subst faulty
      refine .faults ?_ rfl
      rw [ReadsStrings, present]
      exact fun held => null held.1

theorem Walks.map {lookups : List Lookup} {first : Except Stop α}
    (walks : Walks lookups first) (next : α → β) :
    Walks lookups (first >>= fun value => .ok (next value)) := by
  cases walks with
  | completes found strings value completed =>
      subst completed
      exact .completes found strings (next value) rfl
  | leaves missing strings left =>
      subst left
      exact .leaves missing strings rfl
  | faults null faulty =>
      subst faulty
      exact .faults null rfl

theorem Walks.follows {lookups : List Lookup} {decoding : Except Stop α}
    {codes : List Int} (walks : Walks lookups decoding)
    (listed : unexFields ∈ codes) : Follows codes lookups decoding := by
  cases walks with
  | completes found strings value completed =>
      subst completed
      exact ⟨iff_of_true (fun impossible => nomatch impossible) strings,
        exitsWith_ok value⟩
  | leaves missing strings left =>
      subst left
      exact ⟨iff_of_true (fun impossible => nomatch impossible) strings,
        exitsWith_exit listed⟩
  | faults null faulty =>
      subst faulty
      exact ⟨iff_of_false (fun held => held rfl) null, exitsWith_fault⟩

/-- The rule for a decoding in front of one that makes no lookup. -/
theorem Follows.bind {lookups : List Lookup} {codes : List Int}
    {first : Except Stop α} {next : α → Except Stop β}
    (follows : Follows codes lookups first)
    (later : ∀ value, first = .ok value → Follows codes [] (next value)) :
    Follows codes lookups (first >>= next) := by
  cases first with
  | ok value =>
      refine ⟨?_, (later value rfl).exits⟩
      rw [← follows.faultless]
      exact iff_of_true ((later value rfl).faultless.mpr trivial)
        (fun impossible => nomatch impossible)
  | error stop =>
      refine ⟨?_, ?_⟩
      · rw [← follows.faultless]
        constructor
        · rintro held ⟨⟩
          exact held rfl
        · rintro held ⟨⟩
          exact held rfl
      · intro retval stopped
        cases stopped
        exact follows.exits retval rfl

theorem requireItem_performs (object : Option Json) (name : CString) :
    Performs (plainLookup object name) (requireItem object name) := by
  unfold requireItem
  split
  · next missing => exact .leaves missing rfl rfl
  · next item present => exact .reads present (by simp [plainLookup]) item rfl

theorem readString_cases (item : Json) :
    (∃ text, valuestring item = some text ∧ readString item = .ok text) ∨
      (valuestring item = none ∧ readString item = .error .fault) := by
  cases read : valuestring item with
  | none => exact .inr ⟨rfl, by rw [readString, read]⟩
  | some text => exact .inl ⟨text, rfl, by rw [readString, read]⟩

/-- A required text, whatever is then made of it. -/
theorem readRequired_performs (object : Option Json) (name : CString)
    (result : CString → α) :
    Performs (textLookup object name)
      (requireItem object name >>= fun item =>
        readString item >>= fun text => .ok (result text)) := by
  unfold requireItem
  split
  · next missing => exact .leaves missing rfl rfl
  · next item present =>
      rcases readString_cases item with ⟨text, read, step⟩ | ⟨read, step⟩
      · refine .reads present ?_ (result text) ?_
        · simp [textLookup, read]
        · simp [bind, Except.bind, step]
      · refine .faults present ?_ ?_
        · simp [textLookup, read]
        · simp [bind, Except.bind, step]

theorem readText_performs (name : CString) (message : Json) :
    Performs (textLookup (some message) name) (readText name message) :=
  readRequired_performs (some message) name nullIfEmpty

theorem readName_performs (message : Json) :
    Performs (textLookup (some message) jsonName) (readName message) :=
  readRequired_performs (some message) jsonName some

theorem readNumber_performs (message : Json) :
    Performs (plainLookup (some message) jsonNumber) (readNumber message) := by
  unfold readNumber requireItem
  split
  · next missing => exact .leaves missing rfl rfl
  · next item present => exact .reads present (by simp [plainLookup]) _ rfl

/-- The loop over the tags, by induction on the items. -/
theorem mapM_readString_cases (items : List Json) :
    ((∀ text ∈ items, valuestring text ≠ none) ∧
        ∃ texts, items.mapM readString = .ok texts) ∨
      ((¬ ∀ text ∈ items, valuestring text ≠ none) ∧
        items.mapM readString = .error .fault) := by
  induction items with
  | nil => exact .inl ⟨by simp, [], rfl⟩
  | cons item rest ih =>
      simp only [List.mapM_cons, List.forall_mem_cons]
      rcases readString_cases item with ⟨text, read, step⟩ | ⟨read, step⟩
      · rw [step]
        rcases ih with ⟨strings, texts, looped⟩ | ⟨null, looped⟩
        · refine .inl ⟨⟨by simp [read], strings⟩, text :: texts, ?_⟩
          simp [bind, Except.bind, looped, pure, Except.pure]
        · refine .inr ⟨fun held => null held.2, ?_⟩
          simp [bind, Except.bind, looped]
      · rw [step]
        exact .inr ⟨fun held => held.1 read, rfl⟩

theorem readTags_performs (name : CString) (tags : Option Json) :
    Performs (tagsLookup tags name) (readTags name tags) := by
  unfold readTags requireItem
  split
  · next missing => exact .leaves missing rfl rfl
  · next item present =>
      rcases mapM_readString_cases (children item) with
        ⟨strings, texts, looped⟩ | ⟨null, looped⟩
      · refine .reads present strings (nullIfNone texts) ?_
        simp [bind, Except.bind, looped, pure, Except.pure]
      · refine .faults present null ?_
        simp [bind, Except.bind, looped]

theorem readImage_performs (slot : CString) (images : Json) :
    Performs (imageLookup (some images) slot) (readImage slot images) := by
  unfold readImage
  split
  · next missing => exact .skips missing rfl none rfl
  · next item present =>
      rcases readString_cases item with ⟨text, read, step⟩ | ⟨read, step⟩
      · refine .reads present (by simp [imageLookup, read]) (some text) ?_
        simp [bind, Except.bind, step, pure, Except.pure]
      · refine .faults present (by simp [imageLookup, read]) ?_
        simp [bind, Except.bind, step]

end Steps

/-! ## The decoders -/

theorem readImages_walks (message : Json) :
    Walks
      [plainLookup (some message) jsonImages,
        imageLookup (getObjectItem (some message) jsonImages)
          jsonProductImagesFront,
        imageLookup (getObjectItem (some message) jsonImages)
          jsonProductImagesNutrition,
        imageLookup (getObjectItem (some message) jsonImages)
          jsonProductImagesIngredients]
      (readImages message) := by
  apply (requireItem_performs _ _).walks
  intro images found
  rw [requireItem_eq_ok.mp found]
  apply (readImage_performs _ _).walks
  intro front _
  apply (readImage_performs _ _).walks
  intro nutrition _
  apply (readImage_performs _ _).walks
  intro ingredients _
  exact walks_ok _

/-- Behind a parsed message, `sf_pr_decoder` makes its lookups. -/
theorem prDecoding_walks {parse : CString → Option Json}
    {strJson : CString} {message : Json}
    (parsed : parse strJson = some message) :
    Walks (messageLookups message) (prDecoding parse strJson) := by
  unfold prDecoding messageLookups
  rw [parsed]
  apply (readText_performs _ _).walks
  intro code _
  cases getObjectItem (some message) jsonRemove with
  | some item => exact walks_ok _
  | none =>
      apply (readName_performs _).walks
      intro name _
      apply (readNumber_performs _).walks
      intro number _
      apply (readText_performs _ _).walks
      intro quantity _
      apply (readText_performs _ _).walks
      intro ingredients _
      apply (readText_performs _ _).walks
      intro brands _
      apply (readText_performs _ _).walks
      intro expirationDate _
      apply (readText_performs _ _).walks
      intro timestamp _
      apply (readText_performs _ _).walks
      intro labels _
      apply (readTags_performs _ _).walks
      intro additivesTags _
      apply (readTags_performs _ _).walks
      intro allergensTags _
      apply (readTags_performs _ _).walks
      intro ingredientsTags _
      exact (readImages_walks message).map _

theorem listedRaw : unexFields ∈ rawErrors := by
  decide

theorem firstNonEmpty_follows (product : Json) (names : List CString) :
    Follows rawErrors (nameLookups product names)
      (firstNonEmpty product names) := by
  induction names with
  | nil =>
      exact
        { faultless := by simp [firstNonEmpty, nameLookups, ReadsStrings]
          exits := exitsWith_exit listedRaw }
  | cons name substitutes ih =>
      have chosen :
          firstNonEmpty product (name :: substitutes) =
            (requireItem (some product) name >>= fun item =>
                readString item >>= fun text => .ok text) >>=
              fun text =>
                if text = .empty then firstNonEmpty product substitutes
                else .ok text := by
        simp only [bind_assoc]
        rfl
      rw [chosen]
      apply (readRequired_performs _ _ id).bind listedRaw
      intro text read
      simp only [bind_eq_ok, requireItem_eq_ok, readString_eq_ok] at read
      rcases read with ⟨_, found, _, rfl, same⟩
      cases same
      simp only [found, Option.bind_some, valuestring_string,
        Option.some.injEq, id_eq]
      split
      · exact ih
      · exact follows_ok _ _

/-- A member that is needed but not read. -/
theorem requireItem_follows (object : Option Json) (name : CString) :
    Follows rawErrors [] (requireItem object name) where
  faultless := by
    unfold requireItem
    split
    · simp [ReadsStrings]
    · simp [ReadsStrings]
  exits := requireItem_exitsWith listedRaw object name

theorem addText_follows
    (source target : CString) (product : Json) (decoded : Members) :
    Follows rawErrors [] (addText source target product decoded) :=
  (requireItem_follows _ _).bind fun _ _ => follows_ok _ _

theorem addTags_follows
    (source target : CString) (product : Json) (tags : Members) :
    Follows rawErrors [] (addTags source target product tags) :=
  (requireItem_follows _ _).bind fun _ _ => follows_ok _ _

theorem addImage_follows
    (slot fallback : CString) (images : Json) (decoded : Members) :
    Follows rawErrors [] (addImage slot fallback images decoded) where
  faultless := by
    unfold addImage
    split
    · simp [ReadsStrings]
    · split
      · simp [ReadsStrings]
      · split
        · simp [ReadsStrings]
        · simp [ReadsStrings]
  exits := addImage_exitsWith listedRaw _ _ _ _

/-- Of the text members only the name is read. -/
theorem decodedTexts_follows (product : Json) (number : Int32) :
    Follows rawErrors
      (nameLookups product
        [jsonProductName, jsonGenericName, jsonProductCategories])
      (decodedTexts product number) := by
  apply (firstNonEmpty_follows product _).bind
  intro name _
  apply (addText_follows _ _ _ _).bind
  intro decoded _
  apply (addText_follows _ _ _ _).bind
  intro decoded _
  apply (addText_follows _ _ _ _).bind
  intro decoded _
  apply (addText_follows _ _ _ _).bind
  intro decoded _
  exact addText_follows _ _ _ _

theorem decodedTags_follows (product : Json) :
    Follows rawErrors [] (decodedTags product) := by
  apply (addTags_follows _ _ _ _).bind
  intro tags _
  apply (addTags_follows _ _ _ _).bind
  intro tags _
  exact addTags_follows _ _ _ _

theorem decodedImages_follows (product : Json) :
    Follows rawErrors [] (decodedImages product) := by
  apply (requireItem_follows _ _).bind
  intro images _
  apply (addImage_follows _ _ _ _).bind
  intro decoded _
  apply (addImage_follows _ _ _ _).bind
  intro decoded _
  exact addImage_follows _ _ _ _

/-- Without a `product` there is only the status to be read. -/
theorem productItem_missing {document : Json}
    (missing : getObjectItem (some document) jsonProduct = none) :
    Follows rawErrors [textLookup (some document) jsonStatusVerbose]
      (productItem document) := by
  have asked :
      productItem document =
        (requireItem (some document) jsonStatusVerbose >>= fun status =>
            readString status >>= fun verbose => .ok verbose) >>=
          fun verbose =>
            if verbose = productNotFound then .error (.exit prNotFound)
            else .error (.exit unexFields) := by
    simp only [productItem, missing, requireItem, bind_assoc]
    cases getObjectItem (some document) jsonStatusVerbose with
    | none => rfl
    | some status => rfl
  rw [asked]
  apply (readRequired_performs _ _ id).bind listedRaw
  intro verbose _
  split
  · exact ⟨by simp [ReadsStrings], exitsWith_exit (by decide)⟩
  · exact ⟨by simp [ReadsStrings], exitsWith_exit listedRaw⟩

/-- Behind a parsed document, `sf_pr_raw_decoder` makes its lookups. -/
theorem rawDecoding_follows {parse : CString → Option Json}
    {strJson : CString} {document : Json}
    (parsed : parse strJson = some document)
    (now code : CString) (number : Int32) :
    Follows rawErrors (documentLookups document)
      (rawDecoding parse now strJson number code) := by
  unfold rawDecoding documentLookups
  rw [parsed]
  have finish (product : Json) (decoded : Members) :
      Follows rawErrors [] (do
        let tags ← decodedTags product
        let decoded := addItemToObject decoded jsonTags (some (.object tags))
        let images ← decodedImages product
        let decoded :=
          addItemToObject decoded jsonImages (some (.object images))
        let decoded :=
          addStringToObject decoded jsonProductTimestamp (some now)
        let decoded := addStringToObject decoded jsonProductCode (some code)
        return (noError, Json.object decoded)) := by
    apply (decodedTags_follows product).bind
    intro tags _
    apply (decodedImages_follows product).bind
    intro images _
    exact follows_ok _ _
  cases found : getObjectItem (some document) jsonProduct with
  | none =>
      apply (productItem_missing found).bind
      intro product asked
      cases found.symm.trans (productItem_eq_ok.mp asked)
  | some product =>
      have asked : productItem document = .ok product := by
        rw [productItem, found]
      simp only [asked]
      exact (decodedTexts_follows product number).bind fun decoded _ =>
        finish product decoded

/-- What a decoder has to do on every text: return one of its codes. -/
def Returns {α : Type} (codes : List Int) (result : Option (Int × Option α)) :
    Prop :=
  ∃ retval decoded, result = some (retval, decoded) ∧ retval ∈ codes

/-- A decoding returns exactly if it has no fault. -/
theorem returns_outcome {α : Type} {codes errors : List Int}
    {decoding : Except Stop (Int × α)}
    (succeeds : ∀ retval decoded,
      decoding = .ok (retval, decoded) → retval ∈ codes)
    (exits : ExitsWith errors decoding) (errorCodes : errors ⊆ codes) :
    Returns codes (outcome decoding) ↔ decoding ≠ .error .fault := by
  cases decoding with
  | ok result =>
      refine iff_of_true ⟨result.1, some result.2, rfl, ?_⟩ ?_
      · exact succeeds result.1 result.2 rfl
      · exact fun impossible => nomatch impossible
  | error stop =>
      cases stop with
      | exit retval =>
          refine iff_of_true ⟨retval, none, rfl, ?_⟩ ?_
          · exact errorCodes (exits retval rfl)
          · exact fun impossible => nomatch impossible
      | fault =>
          refine iff_of_false ?_ (fun held => held rfl)
          rintro ⟨retval, decoded, impossible, _⟩
          cases impossible

/-- The result codes of `sf_pr_decoder`. -/
abbrev messageCodes : List Int :=
  [noError, invFormat, unexFields, deletionReq]

/-- The result codes of `sf_pr_raw_decoder`. -/
abbrev documentCodes : List Int :=
  [noError, invFormat, unexFields, prNotFound]

theorem sfPrDecoder_returns_iff
    (parse : CString → Option Json) (text : CString) :
    Returns messageCodes (sfPrDecoder parse text) ↔
      ∀ message, parse text = some message →
        ReadsStrings (messageLookups message) := by
  cases parsed : parse text with
  | none =>
      have left : prDecoding parse text = .error (.exit invFormat) := by
        rw [prDecoding, parsed]
      refine iff_of_true ⟨invFormat, none, ?_, by decide⟩ (by simp)
      rw [sfPrDecoder, left]
      rfl
  | some message =>
      have follows : Follows [unexFields] (messageLookups message)
          (prDecoding parse text) :=
        (prDecoding_walks parsed).follows (by decide)
      rw [sfPrDecoder, returns_outcome _ follows.exits (by decide),
        follows.faultless]
      · simp
      · intro retval product decoded
        rcases prDecoding_eq_ok.mp decoded with
          ⟨_, _, ⟨rfl, _⟩ | ⟨rfl, _⟩⟩
        · decide
        · decide

theorem sfPrRawDecoder_returns_iff
    (parse : CString → Option Json) (now text code : CString)
    (number : Int32) :
    Returns documentCodes (sfPrRawDecoder parse now text number code) ↔
      ∀ document, parse text = some document →
        ReadsStrings (documentLookups document) := by
  cases parsed : parse text with
  | none =>
      have left :
          rawDecoding parse now text number code =
            .error (.exit invFormat) := by
        rw [rawDecoding, parsed]
      refine iff_of_true ⟨invFormat, none, ?_, by decide⟩ (by simp)
      rw [sfPrRawDecoder, left]
      rfl
  | some document =>
      have follows := rawDecoding_follows parsed now code number
      rw [sfPrRawDecoder, returns_outcome _ follows.exits (by decide),
        follows.faultless]
      · simp
      · intro retval object decoded
        rcases rawDecoding_eq_ok.mp decoded with ⟨_, _, _, _, _, _, same⟩
        cases same
        decide

/--
The decoders return one of their codes exactly on the texts in which whatever
they read as a string is one.
-/
theorem decoders_return_iff
    (parse : CString → Option Json) (text now code : CString)
    (number : Int32) :
    (Returns messageCodes (sfPrDecoder parse text) ↔
        ∀ message, parse text = some message →
          ReadsStrings (messageLookups message)) ∧
      (Returns documentCodes (sfPrRawDecoder parse now text number code) ↔
        ∀ document, parse text = some document →
          ReadsStrings (documentLookups document)) :=
  ⟨sfPrDecoder_returns_iff parse text,
    sfPrRawDecoder_returns_iff parse now text code number⟩

/-- The message `{"code":5}`. -/
def numericCode : Json :=
  .object [(jsonProductCode, .number ⟨5, 0⟩)]

/-- A message whose code is a number stops `sf_pr_decoder`. -/
theorem decoder_stopped_by_number :
    ¬ ∀ text : CString,
        Returns messageCodes
          (sfPrDecoder (Json.parse Json.standardRaw) text) := by
  intro always
  have parsed :=
    Json.parse_printUnformatted Json.standardRaw_printable numericCode
  have strings :=
    (sfPrDecoder_returns_iff _ _).mp (always _) _ parsed
  have code :
      textLookup (some numericCode) jsonProductCode =
        { found := some (.number ⟨5, 0⟩)
          required := true
          texts := fun item => [item] } := by
    simp [textLookup, numericCode, findMember]
  rw [messageLookups, code] at strings
  exact strings.1 _ (List.mem_singleton.mpr rfl) rfl

end SmartFridge.StringReads
