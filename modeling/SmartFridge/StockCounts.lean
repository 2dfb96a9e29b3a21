import SmartFridge.Library.Runs
import SmartFridge.Atomicity
import SmartFridge.ReaderRequests

/-!
# Stock counts

A removal keeps all counts positive, as it takes one away and deletes what has
reached zero, unless a call fails between these two.  An insertion does so only
if the number that it brings is positive, and that number is whatever `strtol`
has made of the user's text.
-/

namespace SmartFridge.StockCounts

open SmartFridge.Library
open SmartFridge.Library.Runs
open SmartFridge.ProductDecoder
open SmartFridge.Schema
open SmartFridge.Daemon
open SmartFridge.Atomicity
open SmartFridge.ReaderRequests

/-- Every row of PRODUCTS_DATA has ELEMENTS >= 1. -/
def Positive (tables : Tables) : Prop :=
  ∀ row ∈ tables.products, 1 ≤ row.elements.value

/--
The condition under which a request keeps it.  The number of a new row is
positive, and so are the sums in the rows that a refused insertion increases,
unless a call fails before that query is done.  A removal does not take a last
piece if a call of its clean-up fails.
-/
def KeepsPositive (state : State) : Request → Prop
  | .insert product =>
      (Accepts state.tables product → ¬ Fails state.script 4 →
          1 ≤ product.number.toInt) ∧
        (¬ Accepts state.tables product → ¬ Fails state.script 6 →
          ∀ row ∈ state.tables.products, product.name = some row.name →
            1 ≤ row.elements.value + product.number.toInt)
  | .remove code =>
      ¬ Fails state.script 4 → Fails state.script 6 →
        ∀ row ∈ state.tables.products, code = some row.code →
          2 ≤ row.elements.value
  | .nothing => True

section Requests

variable {tables : Tables} (whole : WholeNumbers tables)
  (positive : Positive tables)

include whole positive

theorem positive_storeData_iff (product : Product) :
    Positive (storeData product tables) ↔
      (Accepts tables product → 1 ≤ product.number.toInt) ∧
        (¬ Accepts tables product →
          ∀ row ∈ tables.products, product.name = some row.name →
            1 ≤ row.elements.value + product.number.toInt) := by
  simp only [Positive]
  rcases storeData_products product tables with
    ⟨new, made, accepted, inserted⟩ | ⟨refused, updated⟩
  · have number : new.elements.value = product.number.toInt := by
      rw [(ofProduct_eq_some made).2.2, Elements.value_ofInt]
    simp only [Table.mem_of_insert inserted]
    constructor
    · intro kept
      have one := kept new (.inr rfl)
      rw [number] at one
      exact ⟨fun _ => by exact_mod_cast one,
        fun refused => absurd accepted refused⟩
    · rintro ⟨one, _⟩ row (old | rfl)
      · exact positive row old
      · rw [number]
        exact_mod_cast one accepted
  · rw [updated]
    constructor
    · intro kept
      refine ⟨fun accepted => absurd accepted refused, ?_⟩
      intro _ row present named
      have one := kept _ (Table.mem_update.mpr ⟨row, present, rfl⟩)
      rw [ProductRow.increment, if_pos named] at one
      exact (Elements.one_le_add (whole row present) product.number).mp one
    · rintro ⟨_, sums⟩ _ present
      rcases Table.mem_update.mp present with ⟨row, old, rfl⟩
      by_cases named : product.name = some row.name
      · rw [ProductRow.increment, if_pos named]
        exact (Elements.one_le_add (whole row old) product.number).mpr
          (sums refused row old named)
      · rw [ProductRow.increment, if_neg named]
        exact positive row old

theorem positive_discard (code : Option CString) :
    Positive (discard code tables) := by
  intro row present
  rcases mem_discard.mp present with ⟨⟨stored, old, rfl⟩, nonzero⟩
  rw [ne_eq, decrement_eq_zero (whole stored old)] at nonzero
  rw [one_le_decrement (whole stored old)]
  have one := positive stored old
  by_cases coded : code = some stored.code
  · rw [if_pos coded] at nonzero ⊢
    rcases whole stored old with ⟨count, countEq⟩
    rw [countEq] at one nonzero ⊢
    have atLeast : 1 ≤ count := by exact_mod_cast one
    have notOne : count ≠ 1 := by exact_mod_cast nonzero
    have two : 2 ≤ count := by omega
    exact_mod_cast two
  · rw [if_neg coded]
    exact one

/-- A removal without its clean-up. -/
theorem positive_removeProduct_iff (code : Option CString) :
    Positive ((Change.removeProduct code).attempt tables) ↔
      ∀ row ∈ tables.products, code = some row.code →
        2 ≤ row.elements.value := by
  simp only [Positive, attempt_removeProduct, Table.mem_update]
  constructor
  · intro kept row present coded
    have one := kept _ ⟨row, present, rfl⟩
    rwa [one_le_decrement (whole row present), if_pos coded] at one
  · rintro two _ ⟨row, present, rfl⟩
    rw [one_le_decrement (whole row present)]
    split
    · next coded => exact two row present coded
    · exact positive row present

end Requests

/-! ## Calls that may fail -/

theorem calls_of_accepts {product : Product} {tables : Tables}
    (accepted : Accepts tables product) :
    callCount (dataChanges product tables) = 4 := by
  rw [dataChanges_of_accepts accepted]
  rfl

theorem calls_of_refused {product : Product} {tables : Tables}
    (refused : ¬ Accepts tables product) :
    callCount (dataChanges product tables) = 6 := by
  rw [dataChanges_of_refused refused]
  rfl

theorem positive_dbInsert_iff {state : State}
    (whole : WholeNumbers state.tables) (positive : Positive state.tables)
    (product : Product) :
    Positive ((Call.dbInsert product).perform state).2.tables ↔
      KeepsPositive state (.insert product) := by
  have stored := positive_storeData_iff whole positive product
  simp only [Positive] at stored ⊢
  rw [products_dbInsert, KeepsPositive]
  by_cases accepted : Accepts state.tables product
  · rw [calls_of_accepts accepted]
    simp only [accepted, not_true_eq_false, true_implies, false_implies,
      and_true] at stored ⊢
    split_ifs with fails
    · exact iff_of_true positive fun goes => absurd fails goes
    · rw [stored, imp_iff_right fails]
  · rw [calls_of_refused accepted]
    simp only [accepted, not_false_eq_true, true_implies, false_implies,
      true_and] at stored ⊢
    split_ifs with fails
    · exact iff_of_true positive fun goes => absurd fails goes
    · rw [stored, imp_iff_right fails]

theorem positive_dbRemove_iff {state : State}
    (whole : WholeNumbers state.tables) (positive : Positive state.tables)
    (product : Product) :
    Positive ((Call.dbRemove product).perform state).2.tables ↔
      KeepsPositive state (.remove product.code) := by
  rw [tables_dbRemove, KeepsPositive]
  split_ifs with early late
  · exact iff_of_true positive fun goes => absurd early goes
  · rw [positive_removeProduct_iff whole positive]
    simp [early, late]
  · exact iff_of_true (positive_discard whole positive product.code)
      fun _ fails => absurd fails late

theorem positive_carriedOut_iff {request : Request} {state : State}
    {after : Tables} (carried : CarriesOut request state after)
    (whole : WholeNumbers state.tables) (positive : Positive state.tables) :
    Positive after ↔ KeepsPositive state request := by
  cases carried with
  | nothing asked same =>
      subst asked same
      exact iff_of_true positive trivial
  | call call own tables =>
      subst own tables
      cases call with
      | dbInsert product => exact positive_dbInsert_iff whole positive product
      | dbRemove product => exact positive_dbRemove_iff whole positive product

/-- No message brings a fraction, whatever fails. -/
theorem whole_carriedOut {request : Request} {state : State}
    {after : Tables} (carried : CarriesOut request state after)
    (whole : WholeNumbers state.tables) : WholeNumbers after := by
  cases carried with
  | nothing asked same => exact same ▸ whole
  | call call own tables =>
      subst own tables
      cases call with
      | dbInsert product =>
          have stored := whole_store whole product
          simp only [WholeNumbers, store_products] at stored ⊢
          rw [products_dbInsert]
          split_ifs
          · exact whole
          · exact stored
      | dbRemove product =>
          rw [tables_dbRemove]
          split_ifs
          · exact whole
          · intro row present
            rw [attempt_removeProduct] at present
            rcases Table.mem_update.mp present with ⟨stored, old, rfl⟩
            exact whole_decrement (whole stored old) product.code
          · exact whole_discard whole product.code

/-! ## Runs -/

/--
Over any sequence of messages, and whatever calls to SQLite fail, all counts stay
positive exactly if each message that the daemon handles asks for something that
keeps them so.
-/
theorem positive_iff (internalHeader : CString)
    (parse : CString → Option Json) (script : List Bool)
    (deliveries : List Delivery) :
    StatesSatisfy (handle internalHeader parse)
        (fun state => Positive state.tables) { State.start with script }
        deliveries ↔
      StepsMeet (handle internalHeader parse)
        (fun state delivery => ∀ request,
          requested internalHeader parse delivery.msg = some request →
            KeepsPositive state request)
        { State.start with script } deliveries := by
  apply statesSatisfy_iff_carriedOut internalHeader parse WholeNumbers Positive
    KeepsPositive
  · intro request state after carried whole
    exact whole_carriedOut carried whole
  · intro request state after carried whole positive
    exact positive_carriedOut_iff carried whole positive
  · intro row present
    exact absurd present (Table.not_mem_empty row)
  · intro row present
    exact absurd present (Table.not_mem_empty row)

/-- The number 0 of a socket message is stored as a row that counts nothing. -/
theorem positive_lost :
    ¬ ∀ numbers : List CString,
        StatesSatisfy (handle (.lit "!#+") (Json.parse Json.standardRaw))
          (fun state => Positive state.tables) .start
          (numbers.map fun number => milkDelivery (Reader.readNumber number)) := by
  intro always
  have script : State.start.script = [] := rfl
  rcases handle_of_requested script
      (milk_requested (Reader.readNumber (.lit "0"))) with
    ⟨stocked, stored, _, tables⟩
  have positive : Positive stocked.tables :=
    (always [.lit "0"]).2 stocked stored
  rw [tables] at positive
  rcases mem_store_of_accepts
      (accepts_fresh (milk_complete (Reader.readNumber (.lit "0")))) with
    ⟨row, present, _, _, number⟩
  have one := positive row present
  have zero : (milk (Reader.readNumber (.lit "0"))).number = 0 := by decide
  rw [number, Elements.value_ofInt, zero] at one
  exact absurd one (by decide)

end SmartFridge.StockCounts
