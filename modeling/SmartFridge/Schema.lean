import SmartFridge.Library.Table
import SmartFridge.ProductDecoder

/-!
# The schema and its queries

The five tables of `database.sql` and the queries of DB_QUERIES that change
them.  A query either takes effect as a whole or fails with SQLITE_CONSTRAINT;
a comparison with NULL selects no row.  References between tables are declared
but not enforced, as is SQLite's default.
-/

namespace SmartFridge.Schema

open SmartFridge.Library
open SmartFridge.ProductDecoder

/-! ## The column ELEMENTS -/

/-- A number as SQLite stores it. -/
inductive Elements where
  | integer (value : Int64)
  | real (value : ℚ)
deriving DecidableEq

namespace Elements

/-- The number that is stored. -/
def value : Elements → ℚ
  | .integer value => value.toInt
  | .real value => value

/-- INT affinity: a double becomes an integer where this loses nothing. -/
def ofDouble (value : ℚ) : Elements :=
  if (⌊value⌋ : ℚ) = value ∧ -(2 ^ 63) < value ∧ value < 2 ^ 63 - 1 then
    .integer (.ofInt ⌊value⌋)
  else
    .real value

/-- The sum of integers, or of doubles if 64 bits do not hold it. -/
def add (elements : Elements) (number : Int) : Elements :=
  match elements with
  | .integer value =>
      if -(2 ^ 63) ≤ value.toInt + number ∧ value.toInt + number < 2 ^ 63 then
        .integer (.ofInt (value.toInt + number))
      else
        ofDouble
          (Double.nearest (Double.nearest value.toInt + Double.nearest number))
  | .real value => ofDouble (Double.nearest (value + Double.nearest number))

/-- What `sqlite3_bind_int` stores. -/
def ofInt (number : Int32) : Elements :=
  .integer number.toInt64

@[simp]
theorem value_ofInt (number : Int32) : (ofInt number).value = number.toInt := by
  simp [ofInt, value]

@[simp]
theorem value_ofDouble (value : ℚ) : (ofDouble value).value = value := by
  unfold ofDouble
  split
  · next fits =>
      rcases fits with ⟨whole, above, below⟩
      have lower : -(2 ^ 63) ≤ ⌊value⌋ := by
        have cast : ((-(2 ^ 63) : ℤ) : ℚ) < ⌊value⌋ := by
          rw [whole]
          exact_mod_cast above
        exact (Int.cast_lt.mp cast).le
      have upper : ⌊value⌋ < 2 ^ 63 := by
        have cast : (⌊value⌋ : ℚ) < ((2 ^ 63 - 1 : ℤ) : ℚ) := by
          rw [whole]
          exact_mod_cast below
        have bound := Int.cast_lt.mp cast
        omega
      rw [Elements.value, Int64.toInt_ofInt_of_le lower upper]
      exact whole
  · rfl

/-- A sum that 64 bits hold is exact. -/
theorem add_of_range {stored : Int64} {number : Int}
    (lower : -(2 ^ 63) ≤ stored.toInt + number)
    (upper : stored.toInt + number < 2 ^ 63) :
    ∃ sum : Int64, (integer stored).add number = .integer sum ∧
      sum.toInt = stored.toInt + number :=
  ⟨_, if_pos ⟨lower, upper⟩, Int64.toInt_ofInt_of_le lower upper⟩

/-- The stored number has no fractional part. -/
def Whole (elements : Elements) : Prop :=
  ∃ number : ℤ, elements.value = number

theorem whole_ofInt (number : Int32) : (ofInt number).Whole :=
  ⟨number.toInt, value_ofInt number⟩

theorem nearest_number (number : Int32) :
    Double.nearest number.toInt = number.toInt := by
  have lower := number.le_toInt
  have upper := number.toInt_lt
  exact Double.nearest_intCast (abs_lt.mpr ⟨by omega, by omega⟩)

/-- Where 64 bits do not hold a sum, rounding the integer keeps its sign. -/
theorem overflow_sign (stored : Int64) (number : Int32)
    (overflow :
      ¬ (-(2 ^ 63) ≤ stored.toInt + number.toInt ∧
        stored.toInt + number.toInt < 2 ^ 63)) :
    ∃ rounded : ℤ, Double.nearest stored.toInt = rounded ∧
      ((0 < rounded + number.toInt ∧ 0 < stored.toInt + number.toInt) ∨
        (rounded + number.toInt < 0 ∧ stored.toInt + number.toInt < 0)) := by
  have storedLower := stored.le_toInt
  have storedUpper := stored.toInt_lt
  have numberLower := number.le_toInt
  have numberUpper := number.toInt_lt
  rcases Double.nearest_intCast_isInt stored.toInt with ⟨rounded, roundedEq⟩
  refine ⟨rounded, roundedEq, ?_⟩
  rcases lt_or_ge (stored.toInt + number.toInt) 0 with low | high
  · have nonpos : Double.nearest stored.toInt ≤ 0 :=
      Double.nearest_nonpos (Int.cast_nonpos.mpr (by omega))
    rw [roundedEq] at nonpos
    have roundedNonpos : rounded ≤ 0 := Int.cast_nonpos.mp nonpos
    exact .inr ⟨by omega, low⟩
  · have large : 2 ^ 62 ≤ stored.toInt := by omega
    have far := Double.zpow_le_nearest 62 large
    rw [roundedEq] at far
    have roundedFar : 2 ^ 62 ≤ rounded := by exact_mod_cast far
    exact .inl ⟨by omega, by omega⟩

/-- SQLite adds in doubles: one is stored, or 64 bits do not hold the sum. -/
def AddsDoubles (elements : Elements) (number : Int32) : Prop :=
  match elements with
  | .integer stored =>
      ¬ (-(2 ^ 63) ≤ stored.toInt + number.toInt ∧
        stored.toInt + number.toInt < 2 ^ 63)
  | .real _ => True

/-- The double of a stored number. -/
def double : Elements → ℚ
  | .integer stored => Double.nearest stored.toInt
  | .real stored => stored

/-- The sum is one of doubles, and the closest double is below it. -/
def RoundsDown (elements : Elements) (number : Int32) : Prop :=
  elements.AddsDoubles number ∧
    Double.nearest (elements.double + number.toInt) <
      elements.value + number.toInt

/-- Nothing is added, or a stored double takes the number up without a trace. -/
def Absorbs (elements : Elements) (number : Int32) : Prop :=
  match elements with
  | .integer _ => number = 0
  | .real stored =>
      ofDouble (Double.nearest (stored + number.toInt)) = .real stored

/-- A sum of doubles. -/
theorem add_of_addsDoubles {elements : Elements} {number : Int32}
    (doubles : elements.AddsDoubles number) :
    elements.add number.toInt =
      ofDouble (Double.nearest (elements.double + number.toInt)) := by
  cases elements with
  | integer stored => rw [add, if_neg doubles, nearest_number, double]
  | real stored => rw [add, nearest_number, double]

/-- A sum of integers. -/
theorem value_add_of_not_addsDoubles {elements : Elements} {number : Int32}
    (integers : ¬ elements.AddsDoubles number) :
    (elements.add number.toInt).value = elements.value + number.toInt := by
  cases elements with
  | integer stored =>
      rcases not_not.mp integers with ⟨lower, upper⟩
      rcases add_of_range lower upper with ⟨sum, added, sumEq⟩
      rw [added, value, sumEq, value]
      exact Int.cast_add _ _
  | real stored => exact absurd trivial integers

/-- A sum falls short of the true one if it is rounded down, and only then. -/
theorem le_add_iff (elements : Elements) (number : Int32) :
    elements.value + number.toInt ≤ (elements.add number.toInt).value ↔
      ¬ elements.RoundsDown number := by
  by_cases doubles : elements.AddsDoubles number
  · rw [add_of_addsDoubles doubles, value_ofDouble, RoundsDown, not_and,
      imp_iff_right doubles, not_lt]
  · rw [value_add_of_not_addsDoubles doubles]
    exact iff_of_true le_rfl fun down => doubles down.1

/-- A sum that 64 bits do not hold is not rounded back to where it began. -/
theorem add_ne_of_overflow {stored : Int64} {number : Int32}
    (overflow : (integer stored).AddsDoubles number) :
    (integer stored).add number.toInt ≠ integer stored := by
  rw [add_of_addsDoubles overflow]
  intro same
  have rounded := congrArg value same
  rw [value_ofDouble] at rounded
  change Double.nearest (Double.nearest stored.toInt + number.toInt) =
    stored.toInt at rounded
  -- The stored number is the sum, so that it is a double itself.
  have isDouble : Double.nearest (stored.toInt : ℚ) = stored.toInt := by
    rw [← rounded]
    exact Double.nearest_nearest _
  rw [isDouble, ← Int.cast_add] at rounded
  have storedLower := stored.le_toInt
  have storedUpper := stored.toInt_lt
  rcases lt_or_ge (stored.toInt + number.toInt) 0 with low | high
  · have below : stored.toInt + number.toInt ≤ -(2 ^ 63) := by
      by_contra inside
      exact overflow ⟨by omega, by omega⟩
    have far := Double.nearest_le_neg_zpow 63 below
    rw [rounded] at far
    have least : stored.toInt = -(2 ^ 63) := by
      have bound : stored.toInt ≤ -(2 ^ 63) := by exact_mod_cast far
      omega
    have isReal : ofDouble (Double.nearest
        (double (integer stored) + number.toInt)) =
          .real (Double.nearest (double (integer stored) + number.toInt)) := by
      refine if_neg ?_
      rintro ⟨_, above, _⟩
      rw [double, isDouble, ← Int.cast_add, rounded, least] at above
      norm_num at above
    rw [isReal] at same
    cases same
  · have above : 2 ^ 63 ≤ stored.toInt + number.toInt := by
      by_contra inside
      exact overflow ⟨by omega, by omega⟩
    have far := Double.zpow_le_nearest 63 above
    rw [rounded] at far
    have bound : 2 ^ 63 ≤ stored.toInt := by exact_mod_cast far
    omega

/-- What a sum leaves as it is stored. -/
theorem add_eq_self_iff (elements : Elements) (number : Int32) :
    elements.add number.toInt = elements ↔ elements.Absorbs number := by
  cases elements with
  | real stored => rw [add, nearest_number, Absorbs]
  | integer stored =>
      rw [Absorbs]
      by_cases overflow : (integer stored).AddsDoubles number
      · refine iff_of_false (add_ne_of_overflow overflow) ?_
        rintro rfl
        have lower := stored.le_toInt
        have upper := stored.toInt_lt
        exact overflow ⟨by simpa using lower, by simpa using upper⟩
      · rcases not_not.mp overflow with ⟨lower, upper⟩
        rcases add_of_range lower upper with ⟨sum, added, sumEq⟩
        rw [added, integer.injEq, ← Int64.toInt_inj, sumEq, ← Int32.toInt_inj]
        simp

/-- The computed sum stands for a true one of the same sign. -/
def SumOf (computed intended : ℚ) : Prop :=
  ∃ sum : ℤ, (computed = sum ∨ computed = Double.nearest sum) ∧
    (1 ≤ sum ↔ 1 ≤ intended) ∧ (sum = 0 ↔ intended = 0)

theorem sumOf_integer (stored : Int64) (number : Int32) :
    SumOf ((integer stored).add number.toInt).value
      ((stored.toInt + number.toInt : ℤ) : ℚ) := by
  by_cases range :
      -(2 ^ 63) ≤ stored.toInt + number.toInt ∧
        stored.toInt + number.toInt < 2 ^ 63
  · rcases add_of_range range.1 range.2 with ⟨sum, added, sumEq⟩
    refine ⟨stored.toInt + number.toInt, .inl ?_, ?_, ?_⟩
    · rw [added, ← sumEq]
      rfl
    · exact_mod_cast Iff.rfl
    · exact_mod_cast Iff.rfl
  · rcases overflow_sign stored number range with ⟨rounded, roundedEq, signs⟩
    refine ⟨rounded + number.toInt, .inr ?_, ?_, ?_⟩
    · rw [add, if_neg range, value_ofDouble, nearest_number, roundedEq]
      push_cast
      rfl
    · rw [show (1 : ℚ) = ((1 : ℤ) : ℚ) from rfl, Int.cast_le]
      omega
    · rw [Int.cast_eq_zero]
      omega

theorem sumOf_real (stored : ℤ) (number : Int32) :
    SumOf ((real stored).add number.toInt).value
      ((stored + number.toInt : ℤ) : ℚ) := by
  refine ⟨stored + number.toInt, .inr ?_, ?_, ?_⟩
  · rw [add, value_ofDouble, nearest_number]
    push_cast
    rfl
  · exact_mod_cast Iff.rfl
  · exact_mod_cast Iff.rfl

theorem sumOf_add {elements : Elements} (whole : elements.Whole)
    (number : Int32) :
    SumOf (elements.add number.toInt).value
      (elements.value + number.toInt) := by
  cases elements with
  | integer stored =>
      have sum := sumOf_integer stored number
      push_cast at sum
      exact sum
  | real stored =>
      rcases whole with ⟨count, countEq⟩
      change stored = count at countEq
      subst countEq
      have sum := sumOf_real count number
      push_cast at sum
      exact sum

theorem Whole.add {elements : Elements} (whole : elements.Whole)
    (number : Int32) : (elements.add number.toInt).Whole := by
  rcases sumOf_add whole number with ⟨sum, exact | rounded, _⟩
  · exact ⟨sum, exact⟩
  · rcases Double.nearest_intCast_isInt sum with ⟨near, nearEq⟩
    exact ⟨near, rounded.trans nearEq⟩

/-- Rounding does not decide whether a sum is positive. -/
theorem one_le_add {elements : Elements} (whole : elements.Whole)
    (number : Int32) :
    1 ≤ (elements.add number.toInt).value ↔
      1 ≤ elements.value + number.toInt := by
  rcases sumOf_add whole number with ⟨sum, exact | rounded, positive, _⟩
  · rw [exact, ← positive]
    exact_mod_cast Iff.rfl
  · rw [rounded, ← positive]
    exact Double.one_le_nearest_intCast

/-- Rounding does not decide whether a sum is zero. -/
theorem add_eq_zero {elements : Elements} (whole : elements.Whole)
    (number : Int32) :
    (elements.add number.toInt).value = 0 ↔
      elements.value + number.toInt = 0 := by
  rcases sumOf_add whole number with ⟨sum, exact | rounded, _, zero⟩
  · rw [exact, ← zero]
    exact_mod_cast Iff.rfl
  · rw [rounded, ← zero, Double.nearest_eq_zero]
    exact_mod_cast Iff.rfl

/-- No increase brings a positive number to zero, whole or not. -/
theorem add_ne_zero {elements : Elements} (positive : 1 ≤ elements.value)
    {number : Int32} (increase : 0 ≤ number.toInt) :
    (elements.add number.toInt).value ≠ 0 := by
  have nonnegative : (0 : ℚ) ≤ number.toInt := Int.cast_nonneg increase
  cases elements with
  | integer stored =>
      rw [Ne, add_eq_zero ⟨stored.toInt, rfl⟩]
      exact (add_pos_of_pos_of_nonneg (one_pos.trans_le positive)
        nonnegative).ne'
  | real stored =>
      rw [add, value_ofDouble, nearest_number]
      exact (Double.nearest_pos (add_pos_of_pos_of_nonneg
        (one_pos.trans_le positive) nonnegative)).ne'

end Elements

/-! ## Rows -/

/--
A row of PRODUCTS_DATA.  QUANTITY is kept as the text that is bound to it; no
query reads what its numeric affinity makes of that.
-/
structure ProductRow where
  code : CString
  name : CString
  quantity : CString
  ingredientsText : Option CString
  brands : Option CString
  expirationDate : Option CString
  labels : Option CString
  elements : Elements
  timestamp : CString
deriving DecidableEq

/-- A row of one of the three tag tables. -/
structure TagRow where
  code : CString
  name : CString
  language : Option CString
deriving DecidableEq

/-- A row of IMAGES. -/
structure ImageRow where
  code : CString
  front : Option CString
  nutrition : Option CString
  ingredients : Option CString
deriving DecidableEq

/-- PRIMARY KEY (CODE). -/
def ProductRow.key (row : ProductRow) : Option CString :=
  some row.code

/-- PRIMARY KEY (CODE, name, LANGUAGE), which a NULL language leaves open. -/
def TagRow.key (row : TagRow) : Option (CString × CString × CString) :=
  row.language.map fun language => (row.code, row.name, language)

/-- PRIMARY KEY (CODE). -/
def ImageRow.key (row : ImageRow) : Option CString :=
  some row.code

/-- The values of a product, unless a NOT NULL column would be NULL. -/
def ProductRow.ofProduct (product : Product) : Option ProductRow := do
  let code ← product.code
  let name ← product.name
  let quantity ← product.quantity
  let timestamp ← product.timestamp
  some
    { code, name, quantity
      ingredientsText := product.ingredients
      brands := product.brands
      expirationDate := product.expirationDate
      labels := product.labels
      elements := .ofInt product.number
      timestamp }

/-- The values of a tag, unless a NOT NULL column would be NULL. -/
def TagRow.ofTag (code name language : Option CString) : Option TagRow := do
  let code ← code
  let name ← name
  some { code, name, language }

/-- The values of some images, unless the code would be NULL. -/
def ImageRow.ofImages (code : Option CString) (images : ProductImages) :
    Option ImageRow := do
  let code ← code
  some
    { code
      front := images.front
      nutrition := images.nutrition
      ingredients := images.ingredients }

/-- The product fills all the columns that must not be NULL. -/
structure Complete (product : Product) : Prop where
  code : product.code ≠ none
  name : product.name ≠ none
  quantity : product.quantity ≠ none
  timestamp : product.timestamp ≠ none

theorem ofProduct_eq_some {product : Product} {row : ProductRow}
    (made : ProductRow.ofProduct product = some row) :
    product.code = some row.code ∧ product.name = some row.name ∧
      row.elements = .ofInt product.number := by
  simp only [ProductRow.ofProduct, Option.bind_eq_bind,
    Option.bind_eq_some_iff] at made
  rcases made with
    ⟨code, coded, name, named, quantity, _, timestamp, _, made⟩
  cases made
  exact ⟨coded, named, rfl⟩

theorem exists_ofProduct {product : Product} :
    (∃ row, ProductRow.ofProduct product = some row) ↔ Complete product := by
  simp only [ProductRow.ofProduct, Option.bind_eq_bind,
    Option.bind_eq_some_iff]
  constructor
  · rintro ⟨row, code, coded, name, named, quantity, quantified,
      timestamp, stamped, _⟩
    exact
      { code := by simp [coded]
        name := by simp [named]
        quantity := by simp [quantified]
        timestamp := by simp [stamped] }
  · intro complete
    rcases Option.ne_none_iff_exists'.mp complete.code with ⟨code, coded⟩
    rcases Option.ne_none_iff_exists'.mp complete.name with ⟨name, named⟩
    rcases Option.ne_none_iff_exists'.mp complete.quantity with
      ⟨quantity, quantified⟩
    rcases Option.ne_none_iff_exists'.mp complete.timestamp with
      ⟨timestamp, stamped⟩
    exact ⟨_, code, coded, name, named, quantity, quantified,
      timestamp, stamped, rfl⟩

theorem ofTag_eq_some {code name language : Option CString} {row : TagRow} :
    TagRow.ofTag code name language = some row ↔
      code = some row.code ∧ name = some row.name ∧
        language = row.language := by
  simp only [TagRow.ofTag, Option.bind_eq_bind, Option.bind_eq_some_iff]
  constructor
  · rintro ⟨code, rfl, name, rfl, made⟩
    cases made
    exact ⟨rfl, rfl, rfl⟩
  · rintro ⟨rfl, rfl, rfl⟩
    exact ⟨_, rfl, _, rfl, rfl⟩

theorem ofImages_eq_some
    {code : Option CString} {images : ProductImages} {row : ImageRow} :
    ImageRow.ofImages code images = some row ↔
      code = some row.code ∧
        images = ⟨row.front, row.nutrition, row.ingredients⟩ := by
  simp only [ImageRow.ofImages, Option.bind_eq_bind, Option.bind_eq_some_iff]
  constructor
  · rintro ⟨code, rfl, made⟩
    cases made
    exact ⟨rfl, rfl⟩
  · rintro ⟨rfl, rfl⟩
    exact ⟨_, rfl, rfl⟩

/-! ## Tables -/

/-- INGREDIENTS_TAGS, ALLERGENS_TAGS and ADDITIVES_TAGS. -/
inductive TagTable where
  | ingredients
  | allergens
  | additives
deriving DecidableEq

/-- The five tables. -/
structure Tables where
  products : Table ProductRow.key
  tags : TagTable → Table TagRow.key
  images : Table ImageRow.key

/-- The tables that the schema creates. -/
def Tables.fresh : Tables :=
  { products := .empty
    tags := fun _ => .empty
    images := .empty }

/-- A code occurs in PRODUCTS_DATA. -/
def Tables.Stores (tables : Tables) (code : CString) : Prop :=
  ∃ row ∈ tables.products, row.code = code

/-- The map from CODE to ELEMENTS. -/
def Tables.stock (tables : Tables) (code : CString) : Option ℚ :=
  (tables.products.find code).map fun row => row.elements.value

/-! ## Queries -/

/-- The queries that change tables, with the values bound to them. -/
inductive Change where
  | insertProductData (product : Product)
  | incProductNumber (number : Int32) (name : Option CString)
  | insertTag (kind : TagTable) (code name language : Option CString)
  | insertImages (code : Option CString) (images : ProductImages)
  | removeProduct (code : Option CString)
  | cleanEmpty

/-- `SET ELEMENTS = ELEMENTS + ? WHERE NAME = ?` on one row. -/
def ProductRow.increment (number : Int32) (name : Option CString)
    (row : ProductRow) : ProductRow :=
  if name = some row.name then
    { row with elements := row.elements.add number.toInt }
  else
    row

/-- `SET ELEMENTS = ELEMENTS - 1 WHERE CODE = ?` on one row. -/
def ProductRow.decrement (code : Option CString) (row : ProductRow) :
    ProductRow :=
  if code = some row.code then
    { row with elements := row.elements.add (-1) }
  else
    row

@[simp]
theorem ProductRow.code_increment
    (number : Int32) (name : Option CString) (row : ProductRow) :
    (row.increment number name).code = row.code := by
  unfold increment
  split
  · rfl
  · rfl

@[simp]
theorem ProductRow.code_decrement
    (code : Option CString) (row : ProductRow) :
    (row.decrement code).code = row.code := by
  unfold decrement
  split
  · rfl
  · rfl

@[simp]
theorem ProductRow.name_increment
    (number : Int32) (name : Option CString) (row : ProductRow) :
    (row.increment number name).name = row.name := by
  unfold increment
  split
  · rfl
  · rfl

@[simp]
theorem ProductRow.name_decrement
    (code : Option CString) (row : ProductRow) :
    (row.decrement code).name = row.name := by
  unfold decrement
  split
  · rfl
  · rfl

theorem increment_of_ne {row : ProductRow} {number : Int32}
    {name : Option CString} (different : name ≠ some row.name) :
    row.increment number name = row :=
  if_neg different

theorem decrement_of_ne {row : ProductRow} {code : Option CString}
    (different : code ≠ some row.code) : row.decrement code = row :=
  if_neg different

theorem ProductRow.key_increment
    (number : Int32) (name : Option CString) (row : ProductRow) :
    (row.increment number name).key = row.key :=
  congrArg some (row.code_increment number name)

theorem ProductRow.key_decrement
    (code : Option CString) (row : ProductRow) :
    (row.decrement code).key = row.key :=
  congrArg some (row.code_decrement code)

/-- The tables after a query; nothing if it fails with SQLITE_CONSTRAINT. -/
def Change.exec : Change → Tables → Option Tables
  | .insertProductData product, tables => do
      let row ← ProductRow.ofProduct product
      let products ← tables.products.insert row
      some { tables with products }
  | .incProductNumber number name, tables =>
      some
        { tables with
          products :=
            tables.products.update (ProductRow.increment number name)
              fun row => row.key_increment number name }
  | .insertTag kind code name language, tables => do
      let row ← TagRow.ofTag code name language
      let rows ← (tables.tags kind).insert row
      some { tables with tags := Function.update tables.tags kind rows }
  | .insertImages code images, tables => do
      let row ← ImageRow.ofImages code images
      let images ← tables.images.insert row
      some { tables with images }
  | .removeProduct code, tables =>
      some
        { tables with
          products :=
            tables.products.update (ProductRow.decrement code)
              fun row => row.key_decrement code }
  | .cleanEmpty, tables =>
      some
        { tables with
          products :=
            tables.products.delete fun row => row.elements.value = 0 }

/-- The tables after a query whose failure is tolerated. -/
def Change.attempt (change : Change) (tables : Tables) : Tables :=
  (change.exec tables).getD tables

section Effects

variable (tables : Tables)

@[simp]
theorem attempt_incProductNumber (number : Int32) (name : Option CString) :
    ((Change.incProductNumber number name).attempt tables).products =
      tables.products.update (ProductRow.increment number name)
        fun row => row.key_increment number name :=
  rfl

@[simp]
theorem attempt_removeProduct (code : Option CString) :
    ((Change.removeProduct code).attempt tables).products =
      tables.products.update (ProductRow.decrement code)
        fun row => row.key_decrement code :=
  rfl

@[simp]
theorem attempt_cleanEmpty :
    (Change.cleanEmpty.attempt tables).products =
      tables.products.delete fun row => row.elements.value = 0 :=
  rfl

theorem attempt_insertTag_of_some
    {kind : TagTable} {code name language : Option CString} {row : TagRow}
    (made : TagRow.ofTag code name language = some row) :
    (Change.insertTag kind code name language).attempt tables =
      { tables with
        tags :=
          Function.update tables.tags kind
            ((tables.tags kind).tryInsert row) } := by
  simp only [Change.attempt, Change.exec, Table.tryInsert, made,
    Option.bind_eq_bind, Option.bind_some]
  cases (tables.tags kind).insert row with
  | none =>
      rw [Option.getD_none, Function.update_eq_self]
      rfl
  | some rows => rfl

theorem attempt_insertTag_of_none
    {kind : TagTable} {code name language : Option CString}
    (null : TagRow.ofTag code name language = none) :
    (Change.insertTag kind code name language).attempt tables = tables := by
  simp only [Change.attempt, Change.exec, null]
  rfl

@[simp]
theorem attempt_insertTag_products
    (kind : TagTable) (code name language : Option CString) :
    ((Change.insertTag kind code name language).attempt tables).products =
      tables.products := by
  cases made : TagRow.ofTag code name language with
  | none => rw [attempt_insertTag_of_none tables made]
  | some row => rw [attempt_insertTag_of_some tables made]

@[simp]
theorem attempt_insertTag_images
    (kind : TagTable) (code name language : Option CString) :
    ((Change.insertTag kind code name language).attempt tables).images =
      tables.images := by
  cases made : TagRow.ofTag code name language with
  | none => rw [attempt_insertTag_of_none tables made]
  | some row => rw [attempt_insertTag_of_some tables made]

theorem mem_attempt_insertTag
    (kind other : TagTable) (code name language : Option CString)
    (stored : TagRow) :
    stored ∈
        ((Change.insertTag kind code name language).attempt tables).tags
          other ↔
      stored ∈ tables.tags other ∨
        (other = kind ∧ TagRow.ofTag code name language = some stored ∧
          ¬ (tables.tags kind).Conflicts stored) := by
  cases made : TagRow.ofTag code name language with
  | none =>
      rw [attempt_insertTag_of_none tables made]
      simp
  | some row =>
      rw [attempt_insertTag_of_some tables made]
      dsimp only
      by_cases same : other = kind
      · subst same
        rw [Function.update_self, Table.mem_tryInsert]
        constructor
        · rintro (present | ⟨free, rfl⟩)
          · exact .inl present
          · exact .inr ⟨rfl, rfl, free⟩
        · rintro (present | ⟨_, ⟨⟩, free⟩)
          · exact .inl present
          · exact .inr ⟨free, rfl⟩
      · rw [Function.update_of_ne same]
        simp [same]

theorem attempt_insertImages_of_some
    {code : Option CString} {images : ProductImages} {row : ImageRow}
    (made : ImageRow.ofImages code images = some row) :
    (Change.insertImages code images).attempt tables =
      { tables with images := tables.images.tryInsert row } := by
  simp only [Change.attempt, Change.exec, Table.tryInsert, made,
    Option.bind_eq_bind, Option.bind_some]
  cases tables.images.insert row with
  | none => rfl
  | some rows => rfl

theorem attempt_insertImages_of_none
    {code : Option CString} {images : ProductImages}
    (null : ImageRow.ofImages code images = none) :
    (Change.insertImages code images).attempt tables = tables := by
  simp only [Change.attempt, Change.exec, null]
  rfl

@[simp]
theorem attempt_insertImages_products
    (code : Option CString) (images : ProductImages) :
    ((Change.insertImages code images).attempt tables).products =
      tables.products := by
  cases made : ImageRow.ofImages code images with
  | none => rw [attempt_insertImages_of_none tables made]
  | some row => rw [attempt_insertImages_of_some tables made]

@[simp]
theorem attempt_insertImages_tags
    (code : Option CString) (images : ProductImages) :
    ((Change.insertImages code images).attempt tables).tags =
      tables.tags := by
  cases made : ImageRow.ofImages code images with
  | none => rw [attempt_insertImages_of_none tables made]
  | some row => rw [attempt_insertImages_of_some tables made]

theorem mem_attempt_insertImages
    (code : Option CString) (images : ProductImages) (stored : ImageRow) :
    stored ∈ ((Change.insertImages code images).attempt tables).images ↔
      stored ∈ tables.images ∨
        (ImageRow.ofImages code images = some stored ∧
          ¬ tables.images.Conflicts stored) := by
  cases made : ImageRow.ofImages code images with
  | none =>
      rw [attempt_insertImages_of_none tables made]
      simp
  | some row =>
      rw [attempt_insertImages_of_some tables made, Table.mem_tryInsert]
      constructor
      · rintro (present | ⟨free, rfl⟩)
        · exact .inl present
        · exact .inr ⟨rfl, free⟩
      · rintro (present | ⟨⟨⟩, free⟩)
        · exact .inl present
        · exact .inr ⟨free, rfl⟩

end Effects

end SmartFridge.Schema
