import SmartFridge.Atomicity

/-!
# Messages about different products

Each operation acts on the rows of its own code, provided that names identify
codes and that no row is at zero beforehand.  Operations on different codes
therefore commute, up to the order of rows in the side tables.
-/

namespace SmartFridge.Commutation

open SmartFridge.Library
open SmartFridge.ProductDecoder
open SmartFridge.Schema
open SmartFridge.Daemon
open SmartFridge.Atomicity

/-! ## The side tables -/

/-- The array of tags of one kind. -/
def tagsOf (product : Product) : TagTable → Option (List CString)
  | .ingredients => product.ingredientsTags
  | .allergens => product.allergensTags
  | .additives => product.additivesTags

/-- The rows that some tags stand for. -/
def tagRows (array : Option (List CString)) (productCode : Option CString) :
    List TagRow :=
  (array.getD []).flatMap fun tag =>
    (TagRow.ofTag productCode (some (splitTag tag).1) (splitTag tag).2).toList

/-- The tag rows that a call attempts to insert. -/
def callTagRows : Call → TagTable → List TagRow
  | .dbInsert prDec, kind => tagRows (tagsOf prDec kind) prDec.code
  | .dbRemove _, _ => []

/-- The image rows that a call attempts to insert. -/
def callImageRows : Call → List ImageRow
  | .dbInsert prDec => (ImageRow.ofImages prDec.code prDec.images).toList
  | .dbRemove _ => []

theorem attempt_insertTag_self (kind : TagTable)
    (code name language : Option CString) (tables : Tables) :
    ((Change.insertTag kind code name language).attempt tables).tags kind =
      (tables.tags kind).insertAll
        (TagRow.ofTag code name language).toList := by
  cases made : TagRow.ofTag code name language with
  | none =>
      rw [attempt_insertTag_of_none tables made]
      rfl
  | some row =>
      rw [attempt_insertTag_of_some tables made]
      exact Function.update_self kind _ tables.tags

theorem attempt_insertTag_of_ne {kind other : TagTable} (ne : other ≠ kind)
    (code name language : Option CString) (tables : Tables) :
    ((Change.insertTag kind code name language).attempt tables).tags other =
      tables.tags other := by
  cases made : TagRow.ofTag code name language with
  | none => rw [attempt_insertTag_of_none tables made]
  | some row =>
      rw [attempt_insertTag_of_some tables made]
      exact Function.update_of_ne ne _ tables.tags

theorem storeTags_self (kind : TagTable) (array : Option (List CString))
    (productCode : Option CString) (tables : Tables) :
    (storeTags kind array productCode tables).tags kind =
      (tables.tags kind).insertAll (tagRows array productCode) := by
  unfold storeTags tagRows
  generalize array.getD [] = tags
  induction tags generalizing tables with
  | nil => rfl
  | cons tag rest ih =>
      rw [List.foldl_cons, ih, List.flatMap_cons, Table.insertAll_append,
        insertTagChange, attempt_insertTag_self]

theorem storeTags_of_ne {kind other : TagTable} (ne : other ≠ kind)
    (array : Option (List CString)) (productCode : Option CString)
    (tables : Tables) :
    (storeTags kind array productCode tables).tags other =
      tables.tags other := by
  unfold storeTags
  generalize array.getD [] = tags
  induction tags generalizing tables with
  | nil => rfl
  | cons tag rest ih =>
      rw [List.foldl_cons, ih, insertTagChange, attempt_insertTag_of_ne ne]

/-- The tag tables after a call. -/
theorem effect_tags (call : Call) (kind : TagTable) (tables : Tables) :
    (call.effect tables).tags kind =
      (tables.tags kind).insertAll (callTagRows call kind) := by
  cases call with
  | dbRemove prDec => rfl
  | dbInsert prDec =>
      rw [Call.effect, store, attempt_insertImages_tags]
      have ingredientsAllergens : TagTable.ingredients ≠ .allergens := by
        decide
      have ingredientsAdditives : TagTable.ingredients ≠ .additives := by
        decide
      have allergensAdditives : TagTable.allergens ≠ .additives := by
        decide
      cases kind with
      | ingredients =>
          rw [storeTags_of_ne ingredientsAdditives,
            storeTags_of_ne ingredientsAllergens, storeTags_self,
            storeData_tags]
          rfl
      | allergens =>
          rw [storeTags_of_ne allergensAdditives, storeTags_self,
            storeTags_of_ne ingredientsAllergens.symm, storeData_tags]
          rfl
      | additives =>
          rw [storeTags_self, storeTags_of_ne allergensAdditives.symm,
            storeTags_of_ne ingredientsAdditives.symm, storeData_tags]
          rfl

/-- The table of images after a call. -/
theorem effect_images (call : Call) (tables : Tables) :
    (call.effect tables).images =
      tables.images.insertAll (callImageRows call) := by
  cases call with
  | dbRemove prDec => rfl
  | dbInsert prDec =>
      rw [Call.effect, store, callImageRows]
      cases made : ImageRow.ofImages prDec.code prDec.images with
      | none =>
          rw [attempt_insertImages_of_none _ made]
          simp [Table.insertAll_nil]
      | some row =>
          rw [attempt_insertImages_of_some _ made]
          simp [Table.insertAll_cons, Table.insertAll_nil]

theorem code_of_tagRow {call : Call} {kind : TagTable} {row : TagRow}
    (member : row ∈ callTagRows call kind) :
    call.prDec.code = some row.code := by
  cases call with
  | dbRemove prDec => cases member
  | dbInsert prDec =>
      rcases List.mem_flatMap.mp member with ⟨tag, _, made⟩
      exact (ofTag_eq_some.mp (Option.mem_toList.mp made)).1

theorem code_of_imageRow {call : Call} {row : ImageRow}
    (member : row ∈ callImageRows call) :
    call.prDec.code = some row.code := by
  cases call with
  | dbRemove prDec => cases member
  | dbInsert prDec =>
      exact (ofImages_eq_some.mp (Option.mem_toList.mp member)).1

section Side

variable {first second : Call}
  (different : first.prDec.code ≠ second.prDec.code)
include different

theorem tags_commute (kind : TagTable) (tables : Tables) :
    ((second.effect (first.effect tables)).tags kind).Similar
      ((first.effect (second.effect tables)).tags kind) := by
  simp only [effect_tags]
  apply Table.insertAll_comm
  intro row member other otherMember value rowKey otherKey
  rcases Option.map_eq_some_iff.mp rowKey with ⟨language, _, rfl⟩
  rcases Option.map_eq_some_iff.mp otherKey with ⟨_, _, same⟩
  have code : other.code = row.code := congrArg Prod.fst same
  apply different
  rw [code_of_tagRow member, code_of_tagRow otherMember, code]

theorem images_commute (tables : Tables) :
    (second.effect (first.effect tables)).images.Similar
      (first.effect (second.effect tables)).images := by
  simp only [effect_images]
  apply Table.insertAll_comm
  intro row member other otherMember value rowKey otherKey
  have code : row.code = other.code :=
    Option.some.inj (rowKey.trans otherKey.symm)
  apply different
  rw [code_of_imageRow member, code_of_imageRow otherMember, code]

end Side

/-! ## The products -/

/-- What a call makes of the row of its code. -/
def callRow : Call → Option ProductRow → Option ProductRow
  | .dbInsert prDec, none => ProductRow.ofProduct prDec
  | .dbInsert prDec, some row =>
      some (row.increment prDec.number prDec.name)
  | .dbRemove prDec, stored =>
      (stored.map (ProductRow.decrement prDec.code)).filter
        fun row => row.elements.value ≠ 0

/-- The rows of the product's code are those of its name, and not at zero. -/
structure Settled (tables : Tables) (prDec : Product) : Prop where
  complete : Complete prDec
  number : 1 ≤ prDec.number.toInt
  named : ∀ row ∈ tables.products,
    prDec.code = some row.code ↔ prDec.name = some row.name
  positive : ∀ row ∈ tables.products,
    prDec.code = some row.code → 1 ≤ row.elements.value

/-- A call that concerns the row of its code alone. -/
def Fits (tables : Tables) : Call → Prop
  | .dbInsert prDec => Settled tables prDec
  | .dbRemove _ => True

/-- No row is at zero. -/
def Nonzero (tables : Tables) : Prop :=
  ∀ row ∈ tables.products, row.elements.value ≠ 0

theorem code_of_find {tables : Tables} {code : CString} {row : ProductRow}
    (found : tables.products.find code = some row) :
    row ∈ tables.products ∧ row.code = code := by
  rcases Table.find_eq_some.mp found with ⟨present, key⟩
  exact ⟨present, Option.some.inj key⟩

theorem find_store {prDec : Product} {tables : Tables}
    (settled : Settled tables prDec) (code : CString) :
    (store prDec tables).products.find code =
      if prDec.code = some code then
        callRow (.dbInsert prDec) (tables.products.find code)
      else
        tables.products.find code := by
  rw [store_products]
  rcases storeData_products prDec tables with
    ⟨row, made, accepted, inserted⟩ | ⟨refused, updated⟩
  · have coded := (ofProduct_eq_some made).1
    rw [Table.find_of_insert inserted, coded, ProductRow.key]
    split
    · next same =>
        have absent : tables.products.find code = none := by
          rw [Table.find_eq_none]
          intro stored present key
          exact accepted.2 code (coded.trans same)
            ⟨stored, present, Option.some.inj key⟩
        rw [absent, callRow, made]
    · rfl
  · rw [updated, Table.find_update]
    cases found : tables.products.find code with
    | none =>
        split
        · next coded =>
            refine absurd ⟨settled.complete, ?_⟩ refused
            rintro other same ⟨stored, present, rfl⟩
            cases coded.symm.trans same
            exact Table.find_eq_none.mp found stored present rfl
        · rfl
    | some row =>
        rcases code_of_find found with ⟨present, rfl⟩
        split
        · rfl
        · next other =>
            have unnamed : prDec.name ≠ some row.name := fun same =>
              other ((settled.named row present).mpr same)
            rw [Option.map_some, increment_of_ne unnamed]

theorem find_discard {tables : Tables} (nonzero : Nonzero tables)
    (prDec : Product) (code : CString) :
    (discard prDec.code tables).products.find code =
      if prDec.code = some code then
        callRow (.dbRemove prDec) (tables.products.find code)
      else
        tables.products.find code := by
  rw [Daemon.discard, attempt_cleanEmpty, Table.find_delete, attempt_removeProduct,
    Table.find_update]
  split
  · simp [callRow]
  · next other =>
      cases found : tables.products.find code with
      | none => rfl
      | some row =>
          rcases code_of_find found with ⟨present, rfl⟩
          rw [Option.map_some, decrement_of_ne other]
          simp [nonzero row present]

/-- A call acts on the row of its code alone. -/
theorem find_effect {call : Call} {tables : Tables} (fits : Fits tables call)
    (nonzero : Nonzero tables) (code : CString) :
    (call.effect tables).products.find code =
      if call.prDec.code = some code then
        callRow call (tables.products.find code)
      else
        tables.products.find code := by
  cases call with
  | dbInsert prDec => exact find_store fits code
  | dbRemove prDec => exact find_discard nonzero prDec code

/-- A row after a call is an old one under its code and name, or a new one. -/
theorem row_of_effect {call : Call} {tables : Tables}
    (fits : Fits tables call) (nonzero : Nonzero tables) {row : ProductRow}
    (present : row ∈ (call.effect tables).products) :
    row.elements.value ≠ 0 ∧
      ((∃ stored ∈ tables.products,
          stored.code = row.code ∧ stored.name = row.name ∧
            (call.prDec.code ≠ some row.code → stored = row)) ∨
        ∃ prDec, call = .dbInsert prDec ∧
          prDec.code = some row.code ∧ prDec.name = some row.name) := by
  have found : (call.effect tables).products.find row.code = some row :=
    Table.find_eq_some.mpr ⟨present, rfl⟩
  rw [find_effect fits nonzero] at found
  split at found
  · next coded =>
      cases call with
      | dbInsert prDec =>
          cases stored : tables.products.find row.code with
          | none =>
              rw [stored, callRow] at found
              rcases ofProduct_eq_some found with ⟨_, named, elements⟩
              refine ⟨?_, .inr ⟨prDec, rfl, coded, named⟩⟩
              have one : (1 : ℚ) ≤ prDec.number.toInt :=
                Int.cast_le.mpr fits.number
              rw [elements, Elements.value_ofInt]
              exact (one_pos.trans_le one).ne'
          | some old =>
              rw [stored, callRow] at found
              rcases code_of_find stored with ⟨oldPresent, oldCode⟩
              have oldCoded : prDec.code = some old.code :=
                coded.trans (congrArg some oldCode.symm)
              have oldNamed := (fits.named old oldPresent).mp oldCoded
              have positive := fits.positive old oldPresent oldCoded
              have number := fits.number
              cases found
              refine ⟨?_, .inl ⟨old, oldPresent, oldCode,
                (old.name_increment _ _).symm, fun other => absurd coded other⟩⟩
              rw [ProductRow.increment, if_pos oldNamed]
              exact Elements.add_ne_zero positive (by omega)
      | dbRemove prDec =>
          rw [callRow, Option.filter_eq_some_iff, Option.map_eq_some_iff]
            at found
          rcases found with ⟨⟨old, stored, rfl⟩, left⟩
          rcases code_of_find stored with ⟨oldPresent, oldCode⟩
          exact ⟨of_decide_eq_true left, .inl ⟨old, oldPresent, oldCode,
            (old.name_decrement _).symm, fun other => absurd coded other⟩⟩
  · rcases code_of_find found with ⟨old, _⟩
    exact ⟨nonzero row old, .inl ⟨row, old, rfl, rfl, fun _ => rfl⟩⟩

theorem nonzero_effect {call : Call} {tables : Tables}
    (fits : Fits tables call) (nonzero : Nonzero tables) :
    Nonzero (call.effect tables) :=
  fun _ present => (row_of_effect fits nonzero present).1

/-- The name that a call brings in. -/
def broughtName : Call → Option CString
  | .dbInsert prDec => prDec.name
  | .dbRemove _ => none

section Products

variable {first second : Call} {tables : Tables}

/-- What a call relies on survives one about another code and name. -/
theorem fits_effect (different : first.prDec.code ≠ second.prDec.code)
    (renamed : ∀ name, broughtName first = some name →
      broughtName second ≠ some name)
    (nonzero : Nonzero tables) (firstFits : Fits tables first)
    (secondFits : Fits tables second) :
    Fits (first.effect tables) second := by
  cases second with
  | dbRemove prDec => trivial
  | dbInsert prDec =>
      refine ⟨secondFits.complete, secondFits.number, ?_, ?_⟩
      · intro row present
        rcases (row_of_effect firstFits nonzero present).2 with
          ⟨stored, old, code, name, _⟩ | ⟨other, rfl, coded, named⟩
        · rw [← code, ← name]
          exact secondFits.named stored old
        · refine iff_of_false ?_ (renamed row.name named)
          intro same
          exact different (coded.trans same.symm)
      · intro row present same
        rcases (row_of_effect firstFits nonzero present).2 with
          ⟨stored, old, code, _, kept⟩ | ⟨other, rfl, coded, _⟩
        · have untouched : first.prDec.code ≠ some row.code :=
            fun coded => different (coded.trans same.symm)
          cases kept untouched
          exact secondFits.positive row old same
        · exact absurd (coded.trans same.symm) different

theorem find_effect_effect (different : first.prDec.code ≠ second.prDec.code)
    (renamed : ∀ name, broughtName first = some name →
      broughtName second ≠ some name)
    (nonzero : Nonzero tables) (firstFits : Fits tables first)
    (secondFits : Fits tables second) (code : CString) :
    (second.effect (first.effect tables)).products.find code =
      if first.prDec.code = some code then
        callRow first (tables.products.find code)
      else if second.prDec.code = some code then
        callRow second (tables.products.find code)
      else
        tables.products.find code := by
  rw [find_effect (fits_effect different renamed nonzero firstFits secondFits)
    (nonzero_effect firstFits nonzero), find_effect firstFits nonzero]
  split
  · next secondCoded =>
      have other : first.prDec.code ≠ some code :=
        fun firstCoded => different (firstCoded.trans secondCoded.symm)
      rw [if_neg other, if_neg other]
  · rfl

theorem products_commute (different : first.prDec.code ≠ second.prDec.code)
    (renamed : ∀ name, broughtName first = some name →
      broughtName second ≠ some name)
    (nonzero : Nonzero tables) (firstFits : Fits tables first)
    (secondFits : Fits tables second) :
    (second.effect (first.effect tables)).products.Similar
      (first.effect (second.effect tables)).products := by
  have total (row : ProductRow) : row.key ≠ none := Option.some_ne_none _
  apply Table.similar_of_find total
  intro code
  have renamedBack : ∀ name, broughtName second = some name →
      broughtName first ≠ some name :=
    fun name brought same => renamed name same brought
  rw [find_effect_effect different renamed nonzero firstFits secondFits,
    find_effect_effect different.symm renamedBack nonzero secondFits firstFits]
  split
  · next firstCoded =>
      have other : second.prDec.code ≠ some code :=
        fun secondCoded => different (firstCoded.trans secondCoded.symm)
      rw [if_neg other]
  · rfl

end Products

/-! ## Whole messages -/

/-- The same rows in all five tables. -/
structure SimilarTables (left right : Tables) : Prop where
  products : left.products.Similar right.products
  tags : ∀ kind, (left.tags kind).Similar (right.tags kind)
  images : left.images.Similar right.images

/-- Every number is positive, and names and codes identify each other. -/
structure Consistent (tables : Tables) : Prop where
  positive : ∀ row ∈ tables.products, 1 ≤ row.elements.value
  identified : ∀ row ∈ tables.products, ∀ other ∈ tables.products,
    row.name = other.name ↔ row.code = other.code

/--
An insertion of a complete product, under the stored name if its code is
stored, else under a name that neither the table nor the other message has.
-/
structure LegalInsertion (tables : Tables) (other : Call) (prDec : Product) :
    Prop where
  complete : Complete prDec
  number : 1 ≤ prDec.number.toInt
  stored : ∀ row ∈ tables.products,
    prDec.code = some row.code → prDec.name = some row.name
  fresh : (∀ row ∈ tables.products, prDec.code ≠ some row.code) →
    (∀ row ∈ tables.products, prDec.name ≠ some row.name) ∧
      ∀ product, other = .dbInsert product → prDec.name ≠ product.name

/-- A removal, or a legal insertion. -/
def Legal (tables : Tables) (other : Call) : Call → Prop
  | .dbInsert prDec => LegalInsertion tables other prDec
  | .dbRemove _ => True

theorem settled_of_legal {tables : Tables} {other : Call} {prDec : Product}
    (consistent : Consistent tables)
    (legal : LegalInsertion tables other prDec) : Settled tables prDec where
  complete := legal.complete
  number := legal.number
  positive row present _ := consistent.positive row present
  named row present := by
    constructor
    · exact legal.stored row present
    · intro named
      by_cases coded : ∃ stored ∈ tables.products,
          prDec.code = some stored.code
      · rcases coded with ⟨stored, storedPresent, coded⟩
        have storedNamed := legal.stored stored storedPresent coded
        have sameName : stored.name = row.name :=
          Option.some.inj (storedNamed.symm.trans named)
        rw [coded, (consistent.identified stored storedPresent row
          present).mp sameName]
      · push Not at coded
        exact absurd named ((legal.fresh coded).1 row present)

theorem fits_of_legal {tables : Tables} {other call : Call}
    (consistent : Consistent tables) (legal : Legal tables other call) :
    Fits tables call := by
  cases call with
  | dbInsert prDec => exact settled_of_legal consistent legal
  | dbRemove prDec => trivial

/-- Two legal calls about different codes do not bring in the same name. -/
theorem renamed_of_legal {tables : Tables} {first second : Call}
    (consistent : Consistent tables)
    (different : first.prDec.code ≠ second.prDec.code)
    (legalFirst : Legal tables second first)
    (legalSecond : Legal tables first second) (name : CString)
    (brought : broughtName first = some name) :
    broughtName second ≠ some name := by
  intro broughtToo
  cases first with
  | dbRemove prDec => cases brought
  | dbInsert prDec =>
      cases second with
      | dbRemove product => cases broughtToo
      | dbInsert product =>
          have same : prDec.name = product.name :=
            brought.trans broughtToo.symm
          by_cases coded : ∃ row ∈ tables.products, prDec.code = some row.code
          · rcases coded with ⟨row, present, coded⟩
            have named := legalFirst.stored row present coded
            have settled := settled_of_legal consistent legalSecond
            have codedToo :=
              (settled.named row present).mpr (same.symm.trans named)
            exact different (coded.trans codedToo.symm)
          · push Not at coded
            exact (legalFirst.fresh coded).2 product rfl same

theorem effects_commute {tables : Tables} {first second : Call}
    (consistent : Consistent tables)
    (different : first.prDec.code ≠ second.prDec.code)
    (legalFirst : Legal tables second first)
    (legalSecond : Legal tables first second) :
    SimilarTables (second.effect (first.effect tables))
      (first.effect (second.effect tables)) where
  products :=
    products_commute different
      (renamed_of_legal consistent different legalFirst legalSecond)
      (fun row present => (one_pos.trans_le
        (consistent.positive row present)).ne')
      (fits_of_legal consistent legalFirst)
      (fits_of_legal consistent legalSecond)
  tags kind := tags_commute different kind tables
  images := images_commute different tables

/--
Legal messages about different codes may be processed in either order: the
tables have the same rows, and each operation returns the same.
-/
theorem messages_commute {state : State} (script : state.script = [])
    (consistent : Consistent state.tables) {first second : Call}
    (different : first.prDec.code ≠ second.prDec.code)
    (legalFirst : Legal state.tables second first)
    (legalSecond : Legal state.tables first second) :
    SimilarTables (second.perform (first.perform state).2).2.tables
        (first.perform (second.perform state).2).2.tables ∧
      (first.perform state).1 = (first.perform (second.perform state).2).1 ∧
        (second.perform (first.perform state).2).1 =
          (second.perform state).1 := by
  rcases first.perform_effect script with
    ⟨afterFirst, firstRan, firstScript, firstTables⟩
  rcases second.perform_effect script with
    ⟨afterSecond, secondRan, secondScript, secondTables⟩
  rcases second.perform_effect firstScript with
    ⟨left, leftRan, _, leftTables⟩
  rcases first.perform_effect secondScript with
    ⟨right, rightRan, _, rightTables⟩
  rw [firstRan, secondRan, leftRan, rightRan]
  refine ⟨?_, rfl, rfl⟩
  rw [leftTables, rightTables, firstTables, secondTables]
  exact effects_commute consistent different legalFirst legalSecond

/-- A bottle of juice. -/
def juice : Product :=
  { Product.zero with
    code := some (.lit "5000112576009")
    name := some (.lit "Juice")
    quantity := some (.lit "2L")
    timestamp := some (.lit "2024-01-02 10:00:00")
    number := 2 }

/-- The row of one carton of milk. -/
def cartonRow : ProductRow :=
  { code := .lit "8480017439482"
    name := .lit "Milk"
    quantity := .lit "1L"
    ingredientsText := none
    brands := none
    expirationDate := none
    labels := none
    elements := .integer 1
    timestamp := .lit "2024-01-01 10:00:00" }

/-- A state in which one carton of milk is stored. -/
def cartonStored : State :=
  { State.start with
    tables :=
      { Tables.fresh with
        products :=
          { rows := [cartonRow]
            keyed := List.nodup_singleton _ } } }

theorem cartonStored_consistent : Consistent cartonStored.tables := by
  have only {row : ProductRow} (present : row ∈ cartonStored.tables.products) :
      row = cartonRow := List.mem_singleton.mp present
  constructor
  · intro row present
    cases only present
    have one : (1 : Int64).toInt = 1 := rfl
    simp [cartonRow, Elements.value, one]
  · intro row present other otherPresent
    cases only present
    cases only otherPresent
    exact iff_of_true rfl rfl

theorem messages_commute_juice :
    SimilarTables
        ((Call.dbInsert juice).perform
          ((Call.dbInsert carton).perform cartonStored).2).2.tables
        ((Call.dbInsert carton).perform
          ((Call.dbInsert juice).perform cartonStored).2).2.tables ∧
      ((Call.dbInsert carton).perform cartonStored).1 =
          ((Call.dbInsert carton).perform
            ((Call.dbInsert juice).perform cartonStored).2).1 ∧
        ((Call.dbInsert juice).perform
            ((Call.dbInsert carton).perform cartonStored).2).1 =
          ((Call.dbInsert juice).perform cartonStored).1 := by
  have only {row : ProductRow} (present : row ∈ cartonStored.tables.products) :
      row = cartonRow := List.mem_singleton.mp present
  have stored : cartonRow ∈ cartonStored.tables.products :=
    List.mem_singleton_self _
  have codes : carton.code ≠ juice.code := by decide
  have names : carton.name ≠ juice.name := by decide
  have legalCarton :
      LegalInsertion cartonStored.tables (.dbInsert juice) carton := by
    refine ⟨⟨nofun, nofun, nofun, nofun⟩, by decide, ?_, ?_⟩
    · intro row present _
      cases only present
      rfl
    · intro fresh
      exact absurd rfl (fresh cartonRow stored)
  have legalJuice :
      LegalInsertion cartonStored.tables (.dbInsert carton) juice := by
    refine ⟨⟨nofun, nofun, nofun, nofun⟩, by decide, ?_, ?_⟩
    · intro row present same
      cases only present
      exact absurd same.symm codes
    · intro _
      constructor
      · intro row present same
        cases only present
        exact names same.symm
      · rintro product ⟨⟩ same
        exact names same.symm
  have script : cartonStored.script = [] := rfl
  exact messages_commute script cartonStored_consistent codes legalCarton
    legalJuice

end SmartFridge.Commutation
