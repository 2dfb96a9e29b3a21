import SmartFridge.Segmentation
import SmartFridge.TagStorage

/-!
# A product that comes back

The last carton of a product takes its row in PRODUCTS_DATA with it, but leaves
the rows of its tags and images.  When the product is inserted again, these are
still there, and a row of images that has the code already stays as it is.
-/

namespace SmartFridge.StoredAfresh

open SmartFridge.Library
open SmartFridge.ProductDecoder
open SmartFridge.Schema
open SmartFridge.Daemon
open SmartFridge.Atomicity
open SmartFridge.Commutation
open SmartFridge.Segmentation
open SmartFridge.TagStorage

/-! ## Sequences of calls -/

/-- The daemon after some calls, whatever they return. -/
def afterCalls (calls : List Call) (state : State) : State :=
  calls.foldl (fun state call => (call.perform state).2) state

/-- The queries that some calls execute. -/
def queries : List Call → State → List Change
  | [], _ => []
  | call :: rest, state =>
      performed call state ++ queries rest (call.perform state).2

/-- The tables are what the executed queries make of them. -/
theorem tables_afterCalls (calls : List Call) (state : State) :
    (afterCalls calls state).tables =
      attemptAll (queries calls state) state.tables := by
  induction calls generalizing state with
  | nil => rfl
  | cons call rest ih =>
      rw [queries, attemptAll_append, ← tables_perform]
      exact ih (call.perform state).2

/-! ## The side tables as insertions -/

/-- The tag rows of one table that a query attempts to insert. -/
def changeTagRows (kind : TagTable) : Change → List TagRow
  | .insertTag other code name language =>
      if other = kind then (TagRow.ofTag code name language).toList else []
  | .insertProductData _ | .incProductNumber _ _ | .insertImages _ _
  | .removeProduct _ | .cleanEmpty => []

/-- The image rows that a query attempts to insert. -/
def changeImageRows : Change → List ImageRow
  | .insertImages code images => (ImageRow.ofImages code images).toList
  | .insertProductData _ | .incProductNumber _ _ | .insertTag _ _ _ _
  | .removeProduct _ | .cleanEmpty => []

theorem attempt_insertProductData_side (product : Product) (tables : Tables) :
    ((Change.insertProductData product).attempt tables).tags = tables.tags ∧
      ((Change.insertProductData product).attempt tables).images =
        tables.images := by
  simp only [Change.attempt, Change.exec, Option.bind_eq_bind]
  cases ProductRow.ofProduct product with
  | none => exact ⟨rfl, rfl⟩
  | some row =>
      rw [Option.bind_some]
      cases tables.products.insert row with
      | none => exact ⟨rfl, rfl⟩
      | some products => exact ⟨rfl, rfl⟩

theorem attempt_tags (kind : TagTable) (change : Change) (tables : Tables) :
    (change.attempt tables).tags kind =
      (tables.tags kind).insertAll (changeTagRows kind change) := by
  cases change with
  | insertProductData product =>
      rw [(attempt_insertProductData_side product tables).1]
      rfl
  | incProductNumber number name => rfl
  | insertTag other code name language =>
      by_cases same : other = kind
      · subst same
        rw [attempt_insertTag_self, changeTagRows, if_pos rfl]
      · rw [attempt_insertTag_of_ne (Ne.symm same), changeTagRows, if_neg same]
        rfl
  | insertImages code images =>
      rw [attempt_insertImages_tags]
      rfl
  | removeProduct code => rfl
  | cleanEmpty => rfl

theorem attempt_images (change : Change) (tables : Tables) :
    (change.attempt tables).images =
      tables.images.insertAll (changeImageRows change) := by
  cases change with
  | insertProductData product =>
      rw [(attempt_insertProductData_side product tables).2]
      rfl
  | incProductNumber number name => rfl
  | insertTag kind code name language =>
      rw [attempt_insertTag_images]
      rfl
  | insertImages code images =>
      cases made : ImageRow.ofImages code images with
      | none =>
          rw [attempt_insertImages_of_none _ made]
          simp [changeImageRows, made, Table.insertAll_nil]
      | some row =>
          rw [attempt_insertImages_of_some _ made]
          simp [changeImageRows, made, Table.insertAll_cons,
            Table.insertAll_nil]
  | removeProduct code => rfl
  | cleanEmpty => rfl

theorem attemptAll_tags (kind : TagTable) (changes : List Change)
    (tables : Tables) :
    (attemptAll changes tables).tags kind =
      (tables.tags kind).insertAll (changes.flatMap (changeTagRows kind)) := by
  induction changes generalizing tables with
  | nil => rfl
  | cons change rest ih =>
      rw [attemptAll_cons, ih, attempt_tags, List.flatMap_cons,
        Table.insertAll_append]

theorem attemptAll_images (changes : List Change) (tables : Tables) :
    (attemptAll changes tables).images =
      tables.images.insertAll (changes.flatMap changeImageRows) := by
  induction changes generalizing tables with
  | nil => rfl
  | cons change rest ih =>
      rw [attemptAll_cons, ih, attempt_images, List.flatMap_cons,
        Table.insertAll_append]

/-! ## Stored afresh -/

/-- The row of a product's images. -/
def imageRow (code : CString) (prDec : Product) : ImageRow :=
  { code
    front := prDec.images.front
    nutrition := prDec.images.nutrition
    ingredients := prDec.images.ingredients }

/-- The tags of one kind. -/
def tagList (prDec : Product) (kind : TagTable) : List CString :=
  (tagsOf prDec kind).getD []

/--
The side tables have of a code what they would have if nothing had been in them
before the product was inserted.
-/
structure Afresh (prDec : Product) (code : CString) (tables : Tables) :
    Prop where
  images : tables.images.find code = some (imageRow code prDec)
  tags : ∀ kind, ((tables.tags kind).rows.filter (·.code = code)).Perm
    ((Table.empty : Table TagRow.key).insertAll
      ((tagList prDec kind).map (tagRow code))).rows

/--
Nothing that some queries left differs from the product: what they inserted of
its tags are tags with a language that it has again, and the first row of images
is its own.
-/
structure NothingLeft (prDec : Product) (code : CString)
    (past : List Change) : Prop where
  images : ∀ row,
    (past.flatMap changeImageRows).find? (·.code = code) = some row →
      row = imageRow code prDec
  tags : ∀ kind, ∀ row ∈ past.flatMap (changeTagRows kind), row.code = code →
    row.language ≠ none ∧
      ∃ tag ∈ tagList prDec kind, row = tagRow code tag

theorem tags_afresh_iff (prDec : Product) (code : CString) (kind : TagTable)
    (table : Table TagRow.key) :
    ((table.insertAll
          ((tagList prDec kind).map (tagRow code))).rows.filter
            (·.code = code)).Perm
        ((Table.empty : Table TagRow.key).insertAll
          ((tagList prDec kind).map (tagRow code))).rows ↔
      ∀ row ∈ table, row.code = code →
        row.language ≠ none ∧
          ∃ tag ∈ tagList prDec kind, row = tagRow code tag := by
  have own : ∀ row ∈ (tagList prDec kind).map (tagRow code),
      decide (row.code = code) = true := by
    intro row member
    rcases List.mem_map.mp member with ⟨tag, _, rfl⟩
    exact decide_eq_true rfl
  have keyed (row : TagRow) : row.key ≠ none ↔ row.language ≠ none := by
    rw [TagRow.key, Ne, Option.map_eq_none_iff]
  have member (row : TagRow) :
      row ∈ (tagList prDec kind).map (tagRow code) ↔
        ∃ tag ∈ tagList prDec kind, row = tagRow code tag := by
    simp only [List.mem_map, eq_comm]
  rw [Table.filter_insertAll_perm_iff faithful_key own]
  simp only [decide_eq_true_eq, keyed, member]

theorem images_afresh_iff (prDec : Product) (code : CString)
    (table : Table ImageRow.key) :
    (table.insertAll [imageRow code prDec]).find code =
        some (imageRow code prDec) ↔
      ∀ row, table.find code = some row → row = imageRow code prDec := by
  have own : (imageRow code prDec).key = some code := rfl
  rw [Table.find_insertAll, List.find?_cons_of_pos (by simp [own])]
  cases table.find code with
  | none => simp
  | some row => simp

/-- What an insertion finds decides whether the product is stored afresh. -/
theorem afresh_store_iff {prDec : Product} {code : CString}
    (coded : prDec.code = some code) (tables : Tables) :
    Afresh prDec code ((Call.dbInsert prDec).effect tables) ↔
      (∀ row, tables.images.find code = some row →
          row = imageRow code prDec) ∧
        ∀ kind, ∀ row ∈ tables.tags kind, row.code = code →
          row.language ≠ none ∧
            ∃ tag ∈ tagList prDec kind, row = tagRow code tag := by
  have imageRows :
      callImageRows (.dbInsert prDec) = [imageRow code prDec] := by
    rw [callImageRows, coded]
    rfl
  have rows (kind : TagTable) : callTagRows (.dbInsert prDec) kind =
      (tagList prDec kind).map (tagRow code) := by
    rw [callTagRows, coded]
    exact tagRows_eq (tagList prDec kind) code
  have images := effect_images (.dbInsert prDec) tables
  have tags (kind : TagTable) := effect_tags (.dbInsert prDec) kind tables
  rw [imageRows] at images
  simp only [rows] at tags
  constructor
  · intro afresh
    refine ⟨(images_afresh_iff prDec code tables.images).mp ?_, ?_⟩
    · rw [← images]
      exact afresh.images
    · intro kind
      apply (tags_afresh_iff prDec code kind (tables.tags kind)).mp
      rw [← tags]
      exact afresh.tags kind
  · rintro ⟨ownImages, ownTags⟩
    refine ⟨?_, ?_⟩
    · rw [images]
      exact (images_afresh_iff prDec code tables.images).mpr ownImages
    · intro kind
      rw [tags]
      exact (tags_afresh_iff prDec code kind (tables.tags kind)).mpr
        (ownTags kind)

/-- What some queries have left in fresh side tables. -/
theorem nothingLeft_iff {prDec : Product} {code : CString}
    (past : List Change) :
    NothingLeft prDec code past ↔
      (∀ row, (attemptAll past .fresh).images.find code = some row →
          row = imageRow code prDec) ∧
        ∀ kind, ∀ row ∈ (attemptAll past .fresh).tags kind, row.code = code →
          row.language ≠ none ∧
            ∃ tag ∈ tagList prDec kind, row = tagRow code tag := by
  have images : (attemptAll past .fresh).images.find code =
      (past.flatMap changeImageRows).find? (·.code = code) := by
    have nothing :
        (Table.empty : Table ImageRow.key).find code = none := rfl
    rw [attemptAll_images, Table.find_insertAll]
    change Option.or ((Table.empty : Table ImageRow.key).find code) _ = _
    rw [nothing, Option.none_or]
    simp only [ImageRow.key, Option.some.injEq]
  have tags (kind : TagTable) (row : TagRow) :
      row ∈ (attemptAll past .fresh).tags kind ↔
        row ∈ past.flatMap (changeTagRows kind) := by
    rw [attemptAll_tags, Table.mem_insertAll faithful_key]
    exact or_iff_right (Table.not_mem_empty row)
  rw [images]
  simp only [tags]
  constructor
  · intro left
    exact ⟨left.images, left.tags⟩
  · intro left
    exact ⟨left.1, left.2⟩

/--
After any calls, an insertion that succeeds stores the product afresh exactly if
nothing that they left differs from it.
-/
theorem afresh_iff (calls : List Call) (script : List Bool) {prDec : Product}
    {code : CString} (coded : prDec.code = some code)
    (returned : (dbInsert prDec
      (afterCalls calls { State.start with script })).1 = 0) :
    Afresh prDec code
        (dbInsert prDec
          (afterCalls calls { State.start with script })).2.tables ↔
      NothingLeft prDec code (queries calls { State.start with script }) := by
  have reached := tables_afterCalls calls { State.start with script }
  rcases perform_cases (.dbInsert prDec)
      (afterCalls calls { State.start with script }) with
    ⟨_, failed, _⟩ | ⟨_, _, tables⟩
  · cases failed.symm.trans returned
  · change (dbInsert prDec _).2.tables = _ at tables
    rw [tables, afresh_store_iff coded, nothingLeft_iff, reached]
    rfl

theorem script_afterCalls (calls : List Call) {state : State}
    (script : state.script = []) : (afterCalls calls state).script = [] := by
  induction calls generalizing state with
  | nil => exact script
  | cons call rest ih =>
      rcases call.perform_effect script with ⟨after, performed, still, _⟩
      have same : (call.perform state).2.script = [] := by
        rw [performed]
        exact still
      exact ih same

theorem returned_of_script (calls : List Call) (prDec : Product) :
    (dbInsert prDec
      (afterCalls calls { State.start with script := [] })).1 = 0 := by
  have script : (afterCalls calls State.start).script = [] :=
    script_afterCalls calls rfl
  rcases dbInsert_effect prDec script with ⟨after, returned, _⟩
  exact congrArg Prod.fst returned

/-- A carton with a tag. -/
def taggedCarton : Product :=
  { carton with ingredientsTags := some [.lit "en:milk"] }

/-- The carton has come and gone. -/
def pastStay : List Call :=
  [.dbInsert taggedCarton, .dbRemove taggedCarton]

theorem pastStay_queries :
    queries pastStay { State.start with script := [] } =
      insertChanges taggedCarton .fresh ++ removeChanges taggedCarton.code :=
  rfl

/-- It comes back as it was, and finds only what is its own. -/
theorem afresh_iff_carton :
    Afresh taggedCarton (.lit "8480017439482")
      (dbInsert taggedCarton
        (afterCalls pastStay { State.start with script := [] })).2.tables := by
  apply (afresh_iff pastStay [] rfl (returned_of_script pastStay _)).mpr
  rw [pastStay_queries]
  constructor
  · intro row found
    cases found
    rfl
  · intro kind row member _
    cases kind with
    | ingredients =>
        cases List.mem_singleton.mp member
        exact ⟨by decide, .lit "en:milk", List.mem_singleton.mpr rfl, rfl⟩
    | allergens => cases member
    | additives => cases member

/-- The carton of milk, now with a picture. -/
def picturedCarton : Product :=
  { carton with
    images :=
      { front := some (.lit "milk.jpg"), nutrition := none
        ingredients := none } }

/-- The carton comes back with a picture, which is not stored. -/
theorem picture_not_stored :
    ¬ ∀ (calls : List Call) (script : List Bool) (prDec : Product)
        (code : CString),
        prDec.code = some code → prDec.quantity ≠ none →
          prDec.timestamp ≠ none →
            ¬ (afterCalls calls { State.start with script }).tables.Stores
                code →
              (dbInsert prDec
                  (afterCalls calls { State.start with script })).1 = 0 →
                Afresh prDec code
                  (dbInsert prDec
                    (afterCalls calls
                      { State.start with script })).2.tables := by
  intro always
  let code : CString := .lit "8480017439482"
  let calls : List Call := [.dbInsert carton, .dbRemove carton]
  have script : State.start.script = [] := rfl
  rcases (Call.dbInsert carton).perform_effect script with
    ⟨stored, inserted, storedScript, storedTables⟩
  rcases (Call.dbRemove carton).perform_effect storedScript with
    ⟨left, removed, leftScript, leftTables⟩
  have reached : afterCalls calls { State.start with script := [] } = left := by
    change ((Call.dbRemove carton).perform
      ((Call.dbInsert carton).perform State.start).2).2 = left
    rw [inserted, removed]
  rw [storedTables] at leftTables
  have absent : ¬ left.tables.Stores code := by
    rintro ⟨row, present, _⟩
    rw [leftTables] at present
    cases present
  rcases dbInsert_effect picturedCarton leftScript with
    ⟨after, returned, _, tables⟩
  have afresh := always calls [] picturedCarton code rfl (by decide) (by decide)
    (reached ▸ absent) (by rw [reached, returned])
  rw [reached, returned] at afresh
  have images := afresh.images
  rw [tables, leftTables] at images
  have kept : (store picturedCarton
      ((Call.dbRemove carton).effect
        ((Call.dbInsert carton).effect State.start.tables))).images.find code =
          some (imageRow code carton) :=
    rfl
  cases kept.symm.trans images

end SmartFridge.StoredAfresh
