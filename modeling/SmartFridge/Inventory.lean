import SmartFridge.DaemonMessages
import SmartFridge.Library.Runs

/-!
# The inventory

What the daemon is for: a stock that maps codes to counts.  An insertion adds
its number to the count of its code and a removal takes one away.  The table
follows this stock as long as the rows that an insertion increases, which are
those of its name, are exactly the row of its code.
-/

namespace SmartFridge.Inventory

open SmartFridge.Library
open SmartFridge.Library.Runs
open SmartFridge.ProductDecoder
open SmartFridge.Schema
open SmartFridge.Daemon

/-! ## The stock -/

/-- The count of every code that is in stock. -/
abbrev Stock := CString → Option ℤ

/-- An operation of the daemon. -/
inductive Operation where
  | insert (product : Product)
  | remove (product : Product)

/-- A count after one piece is taken, and nothing if it was the last. -/
def takeOne (count : ℤ) : Option ℤ :=
  if count - 1 = 0 then none else some (count - 1)

/-- What an operation should do to the stock. -/
def Operation.count : Operation → Stock → Stock
  | .insert product, stock =>
      match product.code with
      | none => stock
      | some code =>
          Function.update stock code
            (some ((stock code).getD 0 + product.number.toInt))
  | .remove product, stock =>
      match product.code with
      | none => stock
      | some code => Function.update stock code ((stock code).bind takeOne)

/-- What an operation does to the daemon. -/
def Operation.perform : Operation → State → State
  | .insert product, state => (dbInsert product state).2
  | .remove product, state => (dbRemove product state).2

/-- The daemon and the stock, side by side. -/
def perform (pair : State × Stock) (operation : Operation) :
    Option (State × Stock) :=
  some (operation.perform pair.1, operation.count pair.2)

theorem perform_eq (state : State) (stock : Stock) (operation : Operation) :
    perform (state, stock) operation =
      some (operation.perform state, operation.count stock) :=
  rfl

/-- The table holds exactly the stock. -/
def Agrees (tables : Tables) (stock : Stock) : Prop :=
  ∀ code, tables.stock code = (stock code).map (Int.cast : ℤ → ℚ)

/-- Every inserted product is complete and comes in a positive number. -/
def Operation.Proper : Operation → Prop
  | .insert product => Complete product ∧ 1 ≤ product.number.toInt
  | .remove _ => True

/--
The name of a product that is stored already is the name of its row, and of no
other row.
-/
def Identified (tables : Tables) : Operation → Prop
  | .insert product =>
      ∀ code, product.code = some code → tables.Stores code →
        ∀ row ∈ tables.products,
          product.name = some row.name ↔ row.code = code
  | .remove _ => True

/--
The sums that an insertion computes or should compute when it is refused fit in
64 bits.
-/
def Fits (tables : Tables) : Operation → Prop
  | .insert product =>
      ¬ Accepts tables product → ∀ row ∈ tables.products,
        product.code = some row.code ∨ product.name = some row.name →
          row.elements.value + product.number.toInt < 2 ^ 63
  | .remove _ => True

/-! ## Counts of the table -/

/-- The row holds a positive integer. -/
def Counts (row : ProductRow) (count : Int64) : Prop :=
  row.elements = .integer count ∧ 1 ≤ count.toInt

/-- Every row holds a positive integer. -/
def Counted (tables : Tables) : Prop :=
  ∀ row ∈ tables.products, ∃ count, Counts row count

theorem Counts.value {row : ProductRow} {count : Int64}
    (counts : Counts row count) : row.elements.value = count.toInt := by
  rw [counts.1]
  rfl

/-- An increase that fits is exact. -/
theorem Counts.increment {row : ProductRow} {count : Int64}
    (counts : Counts row count) {number : Int32} {name : Option CString}
    (positive : 1 ≤ number.toInt) (named : name = some row.name)
    (fits : row.elements.value + number.toInt < 2 ^ 63) :
    ∃ sum, Counts (row.increment number name) sum ∧
      sum.toInt = count.toInt + number.toInt := by
  have countPositive := counts.2
  have upper : count.toInt + number.toInt < 2 ^ 63 := by
    rw [counts.value] at fits
    exact_mod_cast fits
  have lower : -(2 ^ 63) ≤ count.toInt + number.toInt := by omega
  rcases Elements.add_of_range lower upper with ⟨sum, added, sumEq⟩
  refine ⟨sum, ⟨?_, by omega⟩, sumEq⟩
  rw [ProductRow.increment, if_pos named, counts.1]
  exact added

/-- A row that counts its last piece is emptied, any other one is lessened. -/
theorem Counts.decrement {row : ProductRow} {count : Int64}
    (counts : Counts row count) {code : Option CString}
    (coded : code = some row.code) :
    (row.decrement code).elements.value = ((count.toInt - 1 : ℤ) : ℚ) ∧
      (count.toInt - 1 ≠ 0 →
        ∃ left, Counts (row.decrement code) left ∧
          left.toInt = count.toInt - 1) := by
  have positive := counts.2
  have lower : -(2 ^ 63) ≤ count.toInt + -1 := by omega
  have upper : count.toInt + -1 < 2 ^ 63 := by
    have bound := count.toInt_lt
    omega
  rcases Elements.add_of_range lower upper with ⟨left, taken, leftEq⟩
  have lessened : (row.decrement code).elements = .integer left := by
    rw [ProductRow.decrement, if_pos coded, counts.1]
    exact taken
  have same : left.toInt = count.toInt - 1 := by omega
  constructor
  · rw [lessened, ← same]
    rfl
  · intro nonzero
    exact ⟨left, ⟨lessened, by omega⟩, same⟩

theorem counted_store {tables : Tables} (counted : Counted tables)
    {product : Product} (positive : 1 ≤ product.number.toInt)
    (fits : Fits tables (.insert product)) :
    Counted (store product tables) := by
  intro row present
  rw [store_products] at present
  rcases storeData_products product tables with
    ⟨new, made, _, inserted⟩ | ⟨refused, updated⟩
  · rcases (Table.mem_of_insert inserted).mp present with old | rfl
    · exact counted row old
    · exact ⟨product.number.toInt64, (ofProduct_eq_some made).2.2,
        by simpa using positive⟩
  · rw [updated] at present
    rcases Table.mem_update.mp present with ⟨stored, old, rfl⟩
    rcases counted stored old with ⟨count, counts⟩
    by_cases named : product.name = some stored.name
    · rcases counts.increment positive named
          (fits refused stored old (.inr named)) with ⟨sum, sumCounts, _⟩
      exact ⟨sum, sumCounts⟩
    · rw [increment_of_ne named]
      exact ⟨count, counts⟩

theorem counted_discard {tables : Tables} (counted : Counted tables)
    (code : Option CString) : Counted (discard code tables) := by
  intro row present
  rcases mem_discard.mp present with ⟨⟨stored, old, rfl⟩, nonzero⟩
  rcases counted stored old with ⟨count, counts⟩
  by_cases coded : code = some stored.code
  · rcases counts.decrement coded with ⟨value, lessened⟩
    rw [value] at nonzero
    rcases lessened (Int.cast_ne_zero.mp nonzero) with ⟨left, leftCounts, _⟩
    exact ⟨left, leftCounts⟩
  · rw [decrement_of_ne coded]
    exact ⟨count, counts⟩

/-! ## Agreement after one operation -/

section Step

variable {tables : Tables} {stock : Stock}

theorem Agrees.of_found (agrees : Agrees tables stock)
    {code : CString} {row : ProductRow} {count : Int64}
    (found : tables.products.find code = some row)
    (counts : Counts row count) : stock code = some count.toInt := by
  have same := agrees code
  rw [Tables.stock, found, Option.map_some, counts.value] at same
  rcases Option.map_eq_some_iff.mp same.symm with ⟨held, heldEq, cast⟩
  rw [heldEq, Int.cast_inj.mp cast]

theorem Agrees.of_not_found (agrees : Agrees tables stock)
    {code : CString} (missing : tables.products.find code = none) :
    stock code = none := by
  have same := agrees code
  rw [Tables.stock, missing] at same
  exact Option.map_eq_none_iff.mp same.symm

theorem find_of_mem {row : ProductRow} (present : row ∈ tables.products) :
    tables.products.find row.code = some row :=
  Table.find_eq_some.mpr ⟨present, rfl⟩

theorem count_insert {product : Product} {code : CString}
    (coded : product.code = some code) (other : CString) :
    (Operation.insert product).count stock other =
      if other = code then
        some ((stock other).getD 0 + product.number.toInt)
      else
        stock other := by
  simp only [Operation.count, coded]
  by_cases same : other = code
  · rw [same, Function.update_self, if_pos rfl]
  · rw [Function.update_of_ne same, if_neg same]

/-- The counts after the insertion of a product that is new. -/
theorem agrees_accepted (agrees : Agrees tables stock)
    {product : Product} {row : ProductRow}
    (made : ProductRow.ofProduct product = some row)
    (accepted : Accepts tables product)
    (inserted :
      tables.products.insert row = some (storeData product tables).products) :
    Agrees (store product tables) ((Operation.insert product).count stock) := by
  have coded := (ofProduct_eq_some made).1
  have absent : stock row.code = none := by
    apply agrees.of_not_found
    apply Table.find_eq_none.mpr
    intro other present same
    exact accepted.2 row.code coded ⟨other, present, Option.some.inj same⟩
  intro code
  rw [count_insert coded, Tables.stock, store_products,
    Table.find_of_insert inserted]
  by_cases same : code = row.code
  · rw [same, ProductRow.key, if_pos rfl, if_pos rfl, absent, Option.map_some,
      (ofProduct_eq_some made).2.2, Elements.value_ofInt]
    simp
  · have different : row.key ≠ some code := fun equal =>
      same (Option.some.inj equal).symm
    rw [if_neg different, if_neg same]
    exact agrees code

/-- A row is increased rightly if it is the one of the code, and only then. -/
theorem increment_eq_iff {row : ProductRow} {count : Int64}
    (counts : Counts row count) {number : Int32} {name : Option CString}
    (positive : 1 ≤ number.toInt) (code : CString)
    (fits : name = some row.name →
      row.elements.value + number.toInt < 2 ^ 63) :
    (row.increment number name).elements.value =
        ((if row.code = code then count.toInt + number.toInt
          else count.toInt : ℤ) : ℚ) ↔
      (name = some row.name ↔ row.code = code) := by
  by_cases named : name = some row.name
  · rcases counts.increment positive named (fits named) with
      ⟨sum, sumCounts, sumEq⟩
    rw [sumCounts.value, Int.cast_inj, sumEq, iff_true_left named]
    split
    · next same => exact iff_of_true rfl same
    · next other => exact iff_of_false (by omega) other
  · rw [increment_of_ne named, counts.value, Int.cast_inj,
      iff_false_left named]
    split
    · next same => exact iff_of_false (by omega) (not_not_intro same)
    · next other => exact iff_of_true rfl other

/-- The counts after the insertion of a product that is stored. -/
theorem agrees_refused_iff (counted : Counted tables)
    (agrees : Agrees tables stock)
    {product : Product} {code : CString} (coded : product.code = some code)
    (stored : tables.Stores code)
    (positive : 1 ≤ product.number.toInt)
    (refused : ¬ Accepts tables product)
    (fits : Fits tables (.insert product))
    (updated :
      (storeData product tables).products =
        tables.products.update
          (ProductRow.increment product.number product.name)
          fun row => row.key_increment product.number product.name) :
    Agrees (store product tables) ((Operation.insert product).count stock) ↔
      Identified tables (.insert product) := by
  have missing : ∀ other, tables.products.find other = none →
      (store product tables).stock other =
        ((Operation.insert product).count stock other).map Int.cast := by
    intro other absent
    have different : other ≠ code := by
      rintro rfl
      rcases stored with ⟨row, present, rfl⟩
      cases absent.symm.trans (find_of_mem present)
    rw [Tables.stock, store_products, updated, Table.find_update, absent,
      count_insert coded, if_neg different, agrees.of_not_found absent]
    rfl
  have present : ∀ row ∈ tables.products,
      (store product tables).stock row.code =
          ((Operation.insert product).count stock row.code).map Int.cast ↔
        (product.name = some row.name ↔ row.code = code) := by
    intro row member
    rcases counted row member with ⟨count, counts⟩
    rw [← increment_eq_iff counts positive code
      fun named => fits refused row member (.inr named)]
    rw [Tables.stock, store_products, updated, Table.find_update,
      find_of_mem member, count_insert coded,
      agrees.of_found (find_of_mem member) counts, Option.getD_some,
      ← apply_ite some, Option.map_some, Option.map_some, Option.map_some,
      Option.some.injEq]
  constructor
  · intro kept other same _ row member
    cases coded.symm.trans same
    exact (present row member).mp (kept row.code)
  · intro identified other
    cases found : tables.products.find other with
    | none => exact missing other found
    | some row =>
        rcases Table.find_eq_some.mp found with ⟨member, key⟩
        cases Option.some.inj key
        exact (present row member).mpr
          (identified code coded stored row member)

theorem agrees_insert_iff (counted : Counted tables)
    (agrees : Agrees tables stock)
    {product : Product} (proper : (Operation.insert product).Proper)
    (fits : Fits tables (.insert product)) :
    Agrees (store product tables) ((Operation.insert product).count stock) ↔
      Identified tables (.insert product) := by
  rcases storeData_products product tables with
    ⟨row, made, accepted, inserted⟩ | ⟨refused, updated⟩
  · refine iff_of_true (agrees_accepted agrees made accepted inserted) ?_
    intro code coded present
    exact absurd present (accepted.2 code coded)
  · rcases Option.ne_none_iff_exists'.mp proper.1.code with ⟨code, coded⟩
    have stored : tables.Stores code := by
      by_contra absent
      refine refused ⟨proper.1, ?_⟩
      intro other same
      cases coded.symm.trans same
      exact absent
    exact agrees_refused_iff counted agrees coded stored proper.2 refused fits
      updated

/-- The stock of a code that a removal does not concern. -/
theorem count_remove_of_ne {product : Product} {code : CString}
    (different : product.code ≠ some code) :
    (Operation.remove product).count stock code = stock code := by
  cases coded : product.code with
  | none => simp only [Operation.count, coded]
  | some other =>
      simp only [Operation.count, coded]
      apply Function.update_of_ne
      rintro rfl
      exact different coded

/-- The stock of the code that a removal concerns. -/
theorem count_remove_of_eq {product : Product} {code : CString}
    (coded : product.code = some code) :
    (Operation.remove product).count stock code =
      (stock code).bind takeOne := by
  simp only [Operation.count, coded, Function.update_self]

theorem stock_discard (code : Option CString) (other : CString) :
    (Daemon.discard code tables).stock other =
      (((tables.products.find other).map (ProductRow.decrement code)).filter
        fun row => !decide (row.elements.value = 0)).map
          fun row => row.elements.value := by
  rw [Tables.stock, Daemon.discard, attempt_cleanEmpty, Table.find_delete,
    attempt_removeProduct, Table.find_update]

/-- The counts after a removal. -/
theorem agrees_remove (counted : Counted tables)
    (agrees : Agrees tables stock) (product : Product) :
    Agrees (Daemon.discard product.code tables)
      ((Operation.remove product).count stock) := by
  intro code
  rw [stock_discard]
  cases found : tables.products.find code with
  | none =>
      have missing := agrees.of_not_found found
      by_cases coded : product.code = some code
      · rw [count_remove_of_eq coded, missing]
        rfl
      · rw [count_remove_of_ne coded, missing]
        rfl
  | some row =>
      rcases Table.find_eq_some.mp found with ⟨present, key⟩
      have rowCode : row.code = code := Option.some.inj key
      subst rowCode
      rcases counted row present with ⟨count, counts⟩
      have held := agrees.of_found found counts
      by_cases coded : product.code = some row.code
      · have lessened := (counts.decrement coded).1
        rw [count_remove_of_eq coded, held, Option.map_some, Option.bind_some,
          takeOne, Option.filter_some, lessened]
        by_cases last : count.toInt - 1 = 0
        · simp [last]
        · have nonzero : ((count.toInt - 1 : ℤ) : ℚ) ≠ 0 :=
            Int.cast_ne_zero.mpr last
          rw [if_neg last, if_pos (by simpa using nonzero), Option.map_some,
            Option.map_some, lessened]
      · have positive := counts.2
        have nonzero : row.elements.value ≠ 0 := by
          rw [counts.value]
          exact Int.cast_ne_zero.mpr (by omega)
        rw [count_remove_of_ne coded, held, Option.map_some,
          decrement_of_ne coded, Option.filter_some,
          if_pos (by simpa using nonzero), Option.map_some, Option.map_some,
          counts.value]

end Step

/-! ## Runs -/

/-- The request of a message that leads to the operation. -/
def Operation.request : Operation → Request
  | .insert product => .insert product
  | .remove product => .remove product.code

theorem perform_effect {state : State} (script : state.script = [])
    (operation : Operation) :
    (operation.perform state).script = [] ∧
      (operation.perform state).tables = operation.request.effect state.tables := by
  cases operation with
  | insert product =>
      rcases dbInsert_effect product script with ⟨after, returned, effect⟩
      rw [Operation.perform, returned]
      exact effect
  | remove product =>
      rcases dbRemove_effect product script with ⟨after, returned, effect⟩
      rw [Operation.perform, returned]
      exact effect

theorem counted_effect {tables : Tables} (counted : Counted tables)
    {operation : Operation} (proper : operation.Proper)
    (fits : Fits tables operation) : Counted (operation.request.effect tables) := by
  cases operation with
  | insert product => exact counted_store counted proper.2 fits
  | remove product => exact counted_discard counted product.code

theorem agrees_effect_iff {tables : Tables} {stock : Stock}
    (counted : Counted tables) (agrees : Agrees tables stock)
    {operation : Operation} (proper : operation.Proper)
    (fits : Fits tables operation) :
    Agrees (operation.request.effect tables) (operation.count stock) ↔
      Identified tables operation := by
  cases operation with
  | insert product => exact agrees_insert_iff counted agrees proper fits
  | remove product =>
      exact iff_of_true (agrees_remove counted agrees product) trivial

/-- What holds of a daemon with the operations that it is still to perform. -/
structure Sound (pair : State × Stock) (operations : List Operation) : Prop where
  script : pair.1.script = []
  counted : Counted pair.1.tables
  proper : ∀ operation ∈ operations, operation.Proper
  fits :
    StepsMeet perform (fun pair operation => Fits pair.1.tables operation)
      pair operations

theorem Sound.head {pair : State × Stock} {operation : Operation}
    {rest : List Operation} (sound : Sound pair (operation :: rest)) :
    operation.Proper ∧ Fits pair.1.tables operation :=
  ⟨sound.proper operation (List.mem_cons_self ..), (sound.fits _ rfl).1⟩

theorem Sound.tail {pair next : State × Stock} {operation : Operation}
    {rest : List Operation} (sound : Sound pair (operation :: rest))
    (performed : perform pair operation = some next) : Sound next rest := by
  have later := (sound.fits next performed).2
  cases performed
  have effect := perform_effect sound.script operation
  exact
    { script := effect.1
      counted := by
        rw [effect.2]
        exact counted_effect sound.counted sound.head.1 sound.head.2
      proper := fun other member =>
        sound.proper other (List.mem_cons_of_mem _ member)
      fits := later }

/-- The empty stock. -/
def noStock : Stock :=
  fun _ => none

theorem agrees_start : Agrees State.start.tables noStock :=
  fun _ => rfl

theorem agrees_iff_identified {operations : List Operation}
    (proper : ∀ operation ∈ operations, operation.Proper)
    (fits :
      StepsMeet perform (fun pair operation => Fits pair.1.tables operation)
        (.start, noStock) operations) :
    StatesSatisfy perform (fun pair => Agrees pair.1.tables pair.2)
        (.start, noStock) operations ↔
      StepsMeet perform
        (fun pair operation => Identified pair.1.tables operation)
        (.start, noStock) operations := by
  apply statesSatisfy_iff_stepsMeet Sound
  · intro pair operation rest next sound performed
    exact sound.tail performed
  · intro pair operation rest next sound agrees performed
    cases performed
    rw [(perform_effect sound.script operation).2]
    exact agrees_effect_iff sound.counted agrees sound.head.1 sound.head.2
  · exact
      { script := rfl
        counted := fun row present =>
          absurd present (Table.not_mem_empty row)
        proper := proper
        fits := fits }
  · exact agrees_start

/--
The table follows the stock through every sequence of operations in which each
product that is stored already is identified by its name and the sums fit; and
where the sums fit, it follows the stock through no other sequence.
-/
theorem inventory_follows_stock {operations : List Operation}
    (proper : ∀ operation ∈ operations, operation.Proper) :
    (StepsMeet perform
          (fun pair operation =>
            Identified pair.1.tables operation ∧
              Fits pair.1.tables operation)
          (.start, noStock) operations →
        StatesSatisfy perform (fun pair => Agrees pair.1.tables pair.2)
          (.start, noStock) operations) ∧
      (StepsMeet perform (fun pair operation => Fits pair.1.tables operation)
            (.start, noStock) operations →
        StatesSatisfy perform (fun pair => Agrees pair.1.tables pair.2)
            (.start, noStock) operations →
          StepsMeet perform
            (fun pair operation => Identified pair.1.tables operation)
            (.start, noStock) operations) := by
  constructor
  · intro meets
    exact (agrees_iff_identified proper (meets.mono fun _ _ => And.right)).mpr
      (meets.mono fun _ _ => And.left)
  · intro fits
    exact (agrees_iff_identified proper fits).mp

/-- One carton of milk under some name. -/
def carton (name : CString) : Product :=
  { Product.zero with
    code := some (.lit "8480017439482")
    name := some name
    quantity := some (.lit "1L")
    timestamp := some (.lit "2024-01-01 10:00:00")
    number := 1 }

theorem carton_proper (name : CString) :
    (Operation.insert (carton name)).Proper :=
  ⟨{ code := Option.some_ne_none _
     name := Option.some_ne_none _
     quantity := Option.some_ne_none _
     timestamp := Option.some_ne_none _ },
    show 1 ≤ (1 : Int32).toInt by decide⟩

/-- The row of one carton. -/
def cartonRow : ProductRow where
  code := .lit "8480017439482"
  name := .lit "Milk"
  quantity := .lit "1L"
  ingredientsText := none
  brands := none
  expirationDate := none
  labels := none
  elements := .integer 1
  timestamp := .lit "2024-01-01 10:00:00"

theorem inventory_follows_stock_carton :
    StatesSatisfy perform (fun pair => Agrees pair.1.tables pair.2)
      (.start, noStock)
      [.insert (carton (.lit "Milk")), .insert (carton (.lit "Milk")),
        .remove (carton (.lit "Milk"))] := by
  have proper : ∀ operation ∈
      [Operation.insert (carton (.lit "Milk")),
        .insert (carton (.lit "Milk")), .remove (carton (.lit "Milk"))],
      operation.Proper := by
    simp only [List.forall_mem_cons]
    exact ⟨carton_proper _, carton_proper _, trivial, List.forall_mem_nil _⟩
  apply (inventory_follows_stock proper).1
  intro stocked first
  have rows : stocked.1.tables.products.rows = [cartonRow] := by
    cases first
    rfl
  have only : ∀ row ∈ stocked.1.tables.products, row = cartonRow := by
    intro row present
    change row ∈ stocked.1.tables.products.rows at present
    rwa [rows, List.mem_singleton] at present
  constructor
  · constructor
    · rintro code _ ⟨row, present, _⟩
      exact absurd present (Table.not_mem_empty row)
    · intro _ row present
      exact absurd present (Table.not_mem_empty row)
  · intro doubled _
    constructor
    · constructor
      · rintro code coded _ row present
        cases coded
        rw [only row present]
        exact iff_of_true rfl rfl
      · intro _ row present _
        have one : cartonRow.elements.value = ((1 : ℤ) : ℚ) := rfl
        have more : (carton (.lit "Milk")).number.toInt = 1 := rfl
        rw [only row present, one, more]
        norm_num
    · intro emptied _
      exact ⟨⟨trivial, trivial⟩, trivial⟩

/-- The second carton is lost when the product has been given a new name. -/
theorem renamed_carton_lost :
    ¬ ∀ operations : List Operation,
        (∀ operation ∈ operations, operation.Proper) →
          StatesSatisfy perform (fun pair => Agrees pair.1.tables pair.2)
            (.start, noStock) operations := by
  intro always
  let first := carton (.lit "Milk")
  let second := carton (.lit "Whole milk")
  have proper : ∀ operation ∈ [Operation.insert first, .insert second],
      operation.Proper := by
    intro operation member
    rcases List.mem_pair.mp member with rfl | rfl
    · exact carton_proper _
    · exact carton_proper _
  have stocked := perform_eq .start noStock (.insert first)
  have stockedTwice :=
    perform_eq ((Operation.insert first).perform .start)
      ((Operation.insert first).count noStock) (.insert second)
  have agrees := ((always _ proper).2 _ stocked).2 _ stockedTwice
  have script : State.start.script = [] := rfl
  have effectOne := perform_effect script (.insert first)
  have effectTwo := perform_effect effectOne.1 (.insert second)
  simp only [StatesSatisfy, effectTwo.2, effectOne.2] at agrees
  rcases mem_store_of_accepts (accepts_fresh (carton_proper (.lit "Milk")).1)
    with ⟨row, present, coded, named, number⟩
  have different : second.name ≠ some row.name := by
    rw [← named]
    decide
  have counted := agrees row.code
  rcases storeData_products second (store first .fresh) with
    ⟨_, _, accepted, _⟩ | ⟨_, updated⟩
  · exact accepted.2 row.code coded ⟨row, present, rfl⟩
  · have one : (store second (store first .fresh)).stock row.code = some 1 := by
      rw [Tables.stock, store_products, updated, Table.find_update,
        find_of_mem present, Option.map_some, Option.map_some,
        increment_of_ne different, number, Elements.value_ofInt]
      rfl
    have codeEq : row.code = .lit "8480017439482" :=
      (Option.some.inj coded).symm
    have two :
        (Operation.insert second).count ((Operation.insert first).count noStock)
          row.code = some 2 := by
      rw [codeEq]
      decide
    rw [two] at counted
    cases one.symm.trans counted

end SmartFridge.Inventory
