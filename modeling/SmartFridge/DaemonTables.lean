import SmartFridge.DaemonEffect

/-!
# The tables after an operation

What an insertion and a removal leave in each of the five tables.  An insertion
either adds a product row or increases rows of that name; whatever it adds to
the side tables has the code of the product.  A removal changes only products.
-/

namespace SmartFridge.Daemon

open SmartFridge.Library
open SmartFridge.ProductDecoder
open SmartFridge.Schema

/-- The insertion of the product row meets no constraint. -/
def Accepts (tables : Tables) (product : Product) : Prop :=
  Complete product ∧
    ∀ code, product.code = some code → ¬ tables.Stores code

theorem conflicts_product {tables : Tables} {row : ProductRow} :
    tables.products.Conflicts row ↔ tables.Stores row.code := by
  rw [Table.conflicts_iff]
  constructor
  · rintro ⟨stored, present, code, storedKey, rowKey⟩
    exact ⟨stored, present, Option.some.inj (storedKey.trans rowKey.symm)⟩
  · rintro ⟨stored, present, same⟩
    exact ⟨stored, present, row.code, congrArg some same, rfl⟩

/-- PRODUCTS_DATA after an insertion: one more row, or some larger numbers. -/
theorem storeData_products (product : Product) (tables : Tables) :
    (∃ row, ProductRow.ofProduct product = some row ∧
        Accepts tables product ∧
        tables.products.insert row =
          some (storeData product tables).products) ∨
      (¬ Accepts tables product ∧
        (storeData product tables).products =
          tables.products.update
            (ProductRow.increment product.number product.name)
            fun row => row.key_increment product.number product.name) := by
  unfold storeData
  simp only [Change.exec, Option.bind_eq_bind]
  cases made : ProductRow.ofProduct product with
  | none =>
      refine .inr ⟨?_, rfl⟩
      rintro ⟨complete, _⟩
      rcases exists_ofProduct.mpr complete with ⟨row, possible⟩
      cases made.symm.trans possible
  | some row =>
      have coded := (ofProduct_eq_some made).1
      cases inserted : tables.products.insert row with
      | none =>
          refine .inr ⟨?_, by simp [inserted]⟩
          rintro ⟨_, absent⟩
          exact absent row.code coded
            (conflicts_product.mp (Table.insert_eq_none.mp inserted))
      | some products =>
          refine .inl ⟨row, rfl, ⟨exists_ofProduct.mp ⟨row, made⟩, ?_⟩, ?_⟩
          · intro code same present
            cases coded.symm.trans same
            have conflict :=
              Table.insert_eq_none.mpr (conflicts_product.mpr present)
            cases inserted.symm.trans conflict
          · simp [inserted]

@[simp]
theorem storeTags_products (kind : TagTable) (array : Option (List CString))
    (productCode : Option CString) (tables : Tables) :
    (storeTags kind array productCode tables).products = tables.products := by
  unfold storeTags
  generalize array.getD [] = tags
  induction tags generalizing tables with
  | nil => rfl
  | cons tag rest ih =>
      exact (ih _).trans (attempt_insertTag_products tables _ _ _ _)

@[simp]
theorem storeTags_images (kind : TagTable) (array : Option (List CString))
    (productCode : Option CString) (tables : Tables) :
    (storeTags kind array productCode tables).images = tables.images := by
  unfold storeTags
  generalize array.getD [] = tags
  induction tags generalizing tables with
  | nil => rfl
  | cons tag rest ih =>
      exact (ih _).trans (attempt_insertTag_images tables _ _ _ _)

/-- Every tag row that is new has the code of the product. -/
theorem mem_storeTags {kind other : TagTable}
    {array : Option (List CString)} {productCode : Option CString}
    {tables : Tables} {row : TagRow}
    (present : row ∈ (storeTags kind array productCode tables).tags other) :
    row ∈ tables.tags other ∨ productCode = some row.code := by
  unfold storeTags at present
  generalize array.getD [] = tags at present
  induction tags generalizing tables with
  | nil => exact .inl present
  | cons tag rest ih =>
      rcases ih present with stored | new
      · rcases (mem_attempt_insertTag tables kind other _ _ _ row).mp stored with
          old | ⟨_, made, _⟩
        · exact .inl old
        · exact .inr (ofTag_eq_some.mp made).1
      · exact .inr new

/-- Storing the data of a product changes no table but that of the data. -/
theorem storeData_eq (product : Product) (tables : Tables) :
    ∃ products, storeData product tables = { tables with products } := by
  unfold storeData
  simp only [Change.exec, Option.bind_eq_bind]
  cases ProductRow.ofProduct product with
  | none => exact ⟨_, rfl⟩
  | some row =>
      cases inserted : tables.products.insert row with
      | none =>
          simp only [Option.bind_some, inserted, Option.bind_none,
            Option.getD_none]
          exact ⟨_, rfl⟩
      | some products => exact ⟨products, by simp [inserted]⟩

@[simp]
theorem storeData_images (product : Product) (tables : Tables) :
    (storeData product tables).images = tables.images := by
  rcases storeData_eq product tables with ⟨products, stored⟩
  rw [stored]

@[simp]
theorem storeData_tags (product : Product) (tables : Tables) :
    (storeData product tables).tags = tables.tags := by
  rcases storeData_eq product tables with ⟨products, stored⟩
  rw [stored]

@[simp]
theorem store_products (product : Product) (tables : Tables) :
    (store product tables).products = (storeData product tables).products := by
  simp [store]

/-- Every tag row that an insertion adds has the code of the product. -/
theorem mem_store_tags {product : Product} {tables : Tables}
    {kind : TagTable} {row : TagRow}
    (present : row ∈ (store product tables).tags kind) :
    row ∈ tables.tags kind ∨ product.code = some row.code := by
  rw [store, attempt_insertImages_tags] at present
  rcases mem_storeTags present with present | new
  · rcases mem_storeTags present with present | new
    · rcases mem_storeTags present with present | new
      · rw [storeData_tags] at present
        exact .inl present
      · exact .inr new
    · exact .inr new
  · exact .inr new

theorem mem_store_images {product : Product} {tables : Tables}
    {row : ImageRow} :
    row ∈ (store product tables).images ↔
      row ∈ tables.images ∨
        (ImageRow.ofImages product.code product.images = some row ∧
          ¬ tables.images.Conflicts row) := by
  simp [store, mem_attempt_insertImages]

/-- After an insertion the code of the product has a row of images. -/
theorem store_hasImages {product : Product} {code : CString}
    (coded : product.code = some code) (tables : Tables) :
    ∃ row ∈ (store product tables).images, row.code = code := by
  let row : ImageRow :=
    { code
      front := product.images.front
      nutrition := product.images.nutrition
      ingredients := product.images.ingredients }
  by_cases conflict : tables.images.Conflicts row
  · rcases Table.conflicts_iff.mp conflict with
      ⟨stored, present, value, storedKey, rowKey⟩
    exact ⟨stored, mem_store_images.mpr (.inl present),
      Option.some.inj (storedKey.trans rowKey.symm)⟩
  · have made : ImageRow.ofImages product.code product.images = some row :=
      ofImages_eq_some.mpr ⟨coded, rfl⟩
    exact ⟨row, mem_store_images.mpr (.inr ⟨made, conflict⟩), rfl⟩

/-- The codes stored after an insertion. -/
theorem stores_store {product : Product} {tables : Tables} {code : CString} :
    (store product tables).Stores code ↔
      tables.Stores code ∨
        (Accepts tables product ∧ product.code = some code) := by
  simp only [Tables.Stores, store_products]
  rcases storeData_products product tables with
    ⟨row, made, accepted, inserted⟩ | ⟨refused, updated⟩
  · simp only [Table.mem_of_insert inserted, or_and_right, exists_or,
      exists_eq_left, accepted, true_and, (ofProduct_eq_some made).1,
      Option.some.injEq]
  · rw [updated]
    simp only [Table.mem_update, refused, false_and, or_false]
    constructor
    · rintro ⟨_, ⟨row, present, rfl⟩, same⟩
      exact ⟨row, present, by simpa using same⟩
    · rintro ⟨row, present, same⟩
      exact ⟨_, ⟨row, present, rfl⟩, by simpa using same⟩

/-- A product row that meets no constraint is stored with its number. -/
theorem mem_store_of_accepts {product : Product} {tables : Tables}
    (accepted : Accepts tables product) :
    ∃ row ∈ (store product tables).products,
      product.code = some row.code ∧ product.name = some row.name ∧
        row.elements = .ofInt product.number := by
  rcases storeData_products product tables with
    ⟨row, made, _, inserted⟩ | ⟨refused, _⟩
  · refine ⟨row, ?_, ofProduct_eq_some made⟩
    rw [store_products, Table.mem_of_insert inserted]
    exact .inr rfl
  · exact absurd accepted refused

/-- Nothing is stored yet. -/
theorem accepts_fresh {product : Product} (complete : Complete product) :
    Accepts .fresh product :=
  ⟨complete, fun _ _ ⟨row, present, _⟩ =>
    absurd present (Table.not_mem_empty row)⟩

theorem mem_discard {code : Option CString} {tables : Tables}
    {row : ProductRow} :
    row ∈ (discard code tables).products ↔
      (∃ stored ∈ tables.products, stored.decrement code = row) ∧
        row.elements.value ≠ 0 := by
  rw [discard, attempt_cleanEmpty, Table.mem_delete, attempt_removeProduct,
    Table.mem_update, decide_eq_false_iff_not]

@[simp]
theorem discard_tags (code : Option CString) (tables : Tables) :
    (discard code tables).tags = tables.tags :=
  rfl

@[simp]
theorem discard_images (code : Option CString) (tables : Tables) :
    (discard code tables).images = tables.images :=
  rfl

/-! ## Whole numbers -/

/-- No stored number has a fractional part. -/
def WholeNumbers (tables : Tables) : Prop :=
  ∀ row ∈ tables.products, row.elements.Whole

theorem whole_increment {row : ProductRow} (whole : row.elements.Whole)
    (number : Int32) (name : Option CString) :
    (row.increment number name).elements.Whole := by
  unfold ProductRow.increment
  split
  · exact whole.add number
  · exact whole

theorem whole_decrement {row : ProductRow} (whole : row.elements.Whole)
    (code : Option CString) : (row.decrement code).elements.Whole := by
  unfold ProductRow.decrement
  split
  · exact whole.add (-1)
  · exact whole

/-- A removal brings a number to zero from one, or from zero. -/
theorem decrement_eq_zero {row : ProductRow} (whole : row.elements.Whole)
    (code : Option CString) :
    (row.decrement code).elements.value = 0 ↔
      row.elements.value = if code = some row.code then 1 else 0 := by
  unfold ProductRow.decrement
  split
  · have zero := Elements.add_eq_zero whole (-1)
    rw [show (-1 : Int32).toInt = -1 from rfl, Int.cast_neg, Int.cast_one,
      add_neg_eq_zero] at zero
    exact zero
  · rfl

/-- A removal leaves a positive number of two, or of one that is not its own. -/
theorem one_le_decrement {row : ProductRow} (whole : row.elements.Whole)
    (code : Option CString) :
    1 ≤ (row.decrement code).elements.value ↔
      (if code = some row.code then 2 else 1) ≤ row.elements.value := by
  unfold ProductRow.decrement
  split
  · have one := Elements.one_le_add whole (-1)
    rw [show (-1 : Int32).toInt = -1 from rfl, Int.cast_neg, Int.cast_one,
      le_add_neg_iff_add_le, one_add_one_eq_two] at one
    exact one
  · rfl

theorem whole_store {tables : Tables} (whole : WholeNumbers tables)
    (product : Product) : WholeNumbers (store product tables) := by
  intro row present
  rw [store_products] at present
  rcases storeData_products product tables with
    ⟨new, made, _, inserted⟩ | ⟨_, updated⟩
  · rcases (Table.mem_of_insert inserted).mp present with old | rfl
    · exact whole row old
    · rw [(ofProduct_eq_some made).2.2]
      exact Elements.whole_ofInt product.number
  · rw [updated] at present
    rcases Table.mem_update.mp present with ⟨stored, old, rfl⟩
    exact whole_increment (whole stored old) _ _

theorem whole_discard {tables : Tables} (whole : WholeNumbers tables)
    (code : Option CString) : WholeNumbers (discard code tables) := by
  intro row present
  rcases (mem_discard.mp present).1 with ⟨stored, old, rfl⟩
  exact whole_decrement (whole stored old) code

end SmartFridge.Daemon
