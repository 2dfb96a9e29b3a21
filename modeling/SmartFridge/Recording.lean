import SmartFridge.Atomicity
import SmartFridge.ProductRoundTrip

/-!
# What a successful insertion records

`db_insert` returns 0 whenever no call fails, also if its product row violated
a constraint and the update behind that reached no row.
-/

namespace SmartFridge.Recording

open SmartFridge.Library
open SmartFridge.CJson
open SmartFridge.ProductDecoder
open SmartFridge.ProductRoundTrip
open SmartFridge.Schema
open SmartFridge.Daemon
open SmartFridge.Atomicity

/-- The number of a code, zero if it is not stored. -/
def previous (tables : Tables) (code : Option CString) : ℚ :=
  (code.bind tables.stock).getD 0

/-- A row of the product's code has at least the number that it should. -/
def Recorded (product : Product) (before after : Tables) : Prop :=
  ∃ row ∈ after.products, product.code = some row.code ∧
    previous before product.code + product.number.toInt ≤ row.elements.value

/--
A stored row takes the product's number up: it has the product's name and its
sum is not one of doubles that is rounded down, or else there is nothing to be
added.
-/
structure TakesUp (product : Product) (row : ProductRow) : Prop where
  named : product.name = some row.name →
    ¬ row.elements.RoundsDown product.number
  unnamed : product.name ≠ some row.name → product.number.toInt ≤ 0

/--
The product row meets no constraint, or else the row of its code takes its
number up.
-/
def Records (tables : Tables) (product : Product) : Prop :=
  Accepts tables product ∨
    ∃ row ∈ tables.products, product.code = some row.code ∧
      TakesUp product row

theorem takesUp_iff {product : Product} {row : ProductRow} :
    TakesUp product row ↔
      row.elements.value + product.number.toInt ≤
        (row.increment product.number product.name).elements.value := by
  unfold ProductRow.increment
  by_cases named : product.name = some row.name
  · rw [if_pos named, Elements.le_add_iff]
    constructor
    · intro takesUp
      exact takesUp.named named
    · intro enough
      exact ⟨fun _ => enough, fun unnamed => absurd named unnamed⟩
  · rw [if_neg named, add_le_iff_nonpos_right]
    constructor
    · intro takesUp
      exact_mod_cast takesUp.unnamed named
    · intro nothing
      exact ⟨fun same => absurd same named, fun _ => by exact_mod_cast nothing⟩

theorem previous_of_mem {tables : Tables} {row : ProductRow}
    (present : row ∈ tables.products) :
    previous tables (some row.code) = row.elements.value := by
  have found : tables.products.find row.code = some row :=
    Table.find_eq_some.mpr ⟨present, rfl⟩
  simp [previous, Tables.stock, found]

theorem previous_of_not_stores {tables : Tables} {code : CString}
    (absent : ¬ tables.Stores code) : previous tables (some code) = 0 := by
  have missing : tables.products.find code = none := by
    rw [Table.find_eq_none]
    intro row present same
    exact absent ⟨row, present, Option.some.inj same⟩
  simp [previous, Tables.stock, missing]

/-- What the effect of an insertion records. -/
theorem recorded_store_iff (product : Product) (tables : Tables) :
    Recorded product tables (store product tables) ↔
      Records tables product := by
  by_cases accepted : Accepts tables product
  · refine iff_of_true ?_ (.inl accepted)
    rcases mem_store_of_accepts accepted with
      ⟨row, present, coded, _, elements⟩
    refine ⟨row, present, coded, ?_⟩
    rw [coded, previous_of_not_stores (accepted.2 row.code coded), elements,
      Elements.value_ofInt, zero_add]
  · rcases storeData_products product tables with
      ⟨_, _, impossible, _⟩ | ⟨_, updated⟩
    · exact absurd impossible accepted
    · simp only [Recorded, Records, accepted, false_or, store_products, updated,
        Table.mem_update, takesUp_iff]
      constructor
      · rintro ⟨_, ⟨row, present, rfl⟩, coded, enough⟩
        rw [ProductRow.code_increment] at coded
        rw [coded, previous_of_mem present] at enough
        exact ⟨row, present, coded, enough⟩
      · rintro ⟨row, present, coded, enough⟩
        refine ⟨_, ⟨row, present, rfl⟩, ?_, ?_⟩
        · rw [ProductRow.code_increment]
          exact coded
        · rw [coded, previous_of_mem present]
          exact enough

/-- A successful insertion records its product exactly if the tables allow it. -/
theorem recorded_iff {product : Product} {state : State}
    (succeeded : (dbInsert product state).1 = 0) :
    Recorded product state.tables (dbInsert product state).2.tables ↔
      Records state.tables product := by
  rcases perform_cases (.dbInsert product) state with
    ⟨_, failed, _⟩ | ⟨_, _, tables⟩
  · cases succeeded.symm.trans failed
  · rw [← recorded_store_iff]
    exact iff_of_eq (congrArg (Recorded product state.tables) tables)

theorem recorded_iff_carton :
    Recorded carton State.start.tables
        (dbInsert carton .start).2.tables ↔
      Records State.start.tables carton := by
  have script : State.start.script = [] := rfl
  rcases dbInsert_effect carton script with ⟨after, performed, _⟩
  exact recorded_iff (congrArg Prod.fst performed)

/-- A product without its quantity is neither stored nor reported. -/
theorem unstored_without_quantity :
    ¬ ∀ (text : CString) (product : Product) (state : State),
        sfPrDecoder (Json.parse Json.standardRaw) text =
            some (noError, some product) →
          (dbInsert product state).1 = 0 →
          Recorded product state.tables (dbInsert product state).2.tables := by
  intro always
  have strings : AllStrings (milkCopied (.string .empty)).images :=
    decodedImages_allStrings (milk_copied (.string .empty)).images
  have addition :=
    message_isAddition strings (by simp [Copied.texts, milkCopied]) 1
      (.lit "2024-01-01 10:00:00") (.lit "8480017439482")
  have decoded := outcome_eq_decoded.mpr
    ((prDecoding_print (readsPrinted_json Json.standardRaw_printable)
      strings).mpr ⟨rfl, addition⟩)
  have script : State.start.script = [] := rfl
  rcases dbInsert_effect (received (milkCopied (.string .empty)) 1
      (.lit "2024-01-01 10:00:00") (.lit "8480017439482")) script with
    ⟨after, performed, _, tables⟩
  have recorded := always _ _ .start decoded (congrArg Prod.fst performed)
  rw [performed] at recorded
  rcases (recorded_store_iff _ _).mp (tables ▸ recorded) with
    accepted | ⟨row, present, _⟩
  · exact accepted.1.quantity rfl
  · exact Table.not_mem_empty row present

end SmartFridge.Recording
