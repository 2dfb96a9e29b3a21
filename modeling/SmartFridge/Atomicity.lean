import SmartFridge.DaemonTables

/-!
# Operations that fail halfway

BEGIN and END are never stepped, so that what an operation has executed before
a failing call stays in the tables.  A failed operation is therefore atomic only
if none of the queries that it executed changed anything.
-/

namespace SmartFridge.Atomicity

open SmartFridge.Library
open SmartFridge.ProductDecoder
open SmartFridge.Schema
open SmartFridge.Daemon

/-! ## What is executed before a failure -/

/-- One of the first calls fails. -/
def Fails (script : List Bool) (calls : Nat) : Prop :=
  true ∈ script.take calls

instance (script : List Bool) (calls : Nat) : Decidable (Fails script calls) :=
  inferInstanceAs (Decidable (true ∈ script.take calls))

/-- The queries that are executed with two calls each before one fails. -/
def executedBefore (script : List Bool) (changes : List Change) :
    List Change :=
  changes.take (script.idxOf true / 2)

theorem not_fails_nil (calls : Nat) : ¬ Fails [] calls := by
  simp [Fails]

theorem fails_cons {fate : Bool} {script : List Bool} {calls : Nat} :
    Fails (fate :: script) (calls + 1) ↔ fate = true ∨ Fails script calls := by
  simp [Fails, eq_comm]

theorem fails_iff {script : List Bool} {calls : Nat} :
    Fails script calls ↔ true ∈ script ∧ script.idxOf true < calls := by
  constructor
  · intro fails
    have occurs := List.mem_of_mem_take fails
    exact ⟨occurs, (List.mem_take_iff_idxOf_lt occurs).mp fails⟩
  · rintro ⟨occurs, early⟩
    exact (List.mem_take_iff_idxOf_lt occurs).mpr early

theorem Fails.mono {script : List Bool} {calls more : Nat}
    (fails : Fails script calls) (le : calls ≤ more) : Fails script more :=
  (List.take_prefix_take_left le).subset fails

theorem attemptAll_cons (change : Change) (rest : List Change)
    (tables : Tables) :
    attemptAll (change :: rest) tables =
      attemptAll rest (change.attempt tables) :=
  rfl

@[simp]
theorem executedBefore_true (script : List Bool) (changes : List Change) :
    executedBefore (true :: script) changes = [] := by
  simp [executedBefore]

@[simp]
theorem executedBefore_false_true
    (script : List Bool) (changes : List Change) :
    executedBefore (false :: true :: script) changes = [] := by
  simp [executedBefore]

@[simp]
theorem executedBefore_false_false
    (script : List Bool) (change : Change) (changes : List Change) :
    executedBefore (false :: false :: script) (change :: changes) =
      change :: executedBefore script changes := by
  have half :
      (script.idxOf true + 1 + 1) / 2 = script.idxOf true / 2 + 1 := by
    omega
  simp [executedBefore, half]

/-- The result of some queries, as the fates of their calls determine it. -/
def Leaves (changes : List Change) (script : List Bool) (tables : Tables) :
    Prop :=
  ∃ later,
    (Fails script (2 * changes.length) ∧
      executeAll changes { tables, script } =
        .error
          { tables := attemptAll (executedBefore script changes) tables
            script := later }) ∨
    (¬ Fails script (2 * changes.length) ∧
      executeAll changes { tables, script } =
        .ok { tables := attemptAll changes tables, script := later })

theorem leaves_undisturbed (changes : List Change) (tables : Tables) :
    Leaves changes [] tables :=
  ⟨[], .inr ⟨not_fails_nil _, executeAll_undisturbed changes tables⟩⟩

/-- The fates of the queries are met two by two, by induction on these. -/
theorem leaves (changes : List Change) (script : List Bool)
    (tables : Tables) : Leaves changes script tables := by
  induction changes generalizing script tables with
  | nil => exact ⟨script, .inr ⟨by simp [Fails], rfl⟩⟩
  | cons change rest ih =>
      have calls : 2 * (change :: rest).length = 2 * rest.length + 1 + 1 := by
        rw [List.length_cons, Nat.mul_succ]
      rcases script with _ | ⟨_ | _, script⟩
      · exact leaves_undisturbed _ _
      · rcases script with _ | ⟨_ | _, script⟩
        · refine ⟨[], .inr ⟨?_, ?_⟩⟩
          · rw [calls, fails_cons]
            simp [not_fails_nil]
          · exact executeAll_undisturbed rest (change.attempt tables)
        · rcases ih script (change.attempt tables) with
            ⟨later, ⟨fails, ran⟩ | ⟨goes, ran⟩⟩
          · refine ⟨later, .inl ⟨?_, ?_⟩⟩
            · rw [calls, fails_cons, fails_cons]
              exact .inr (.inr fails)
            · rw [executedBefore_false_false]
              exact ran
          · refine ⟨later, .inr ⟨?_, ran⟩⟩
            rw [calls, fails_cons, fails_cons]
            simp [goes]
        · refine ⟨script, .inl ⟨?_, ?_⟩⟩
          · rw [calls, fails_cons, fails_cons]
            exact .inr (.inl rfl)
          · rw [executedBefore_false_true]
            rfl
      · refine ⟨script, .inl ⟨?_, ?_⟩⟩
        · rw [calls, fails_cons]
          exact .inl rfl
        · rw [executedBefore_true]
          rfl

/-- The calls of an operation: two for its start and two for each query. -/
def callCount (changes : List Change) : Nat :=
  2 * changes.length + 2

/-- The queries that an operation executes before a call fails. -/
def executed (script : List Bool) (changes : List Change) : List Change :=
  changes.take ((script.idxOf true - 2) / 2)

theorem executed_eq_nil {script : List Bool} (changes : List Change)
    (fails : Fails script 2) : executed script changes = [] := by
  rcases script with _ | ⟨_ | _, script⟩
  · exact absurd fails (not_fails_nil 2)
  · rcases script with _ | ⟨_ | _, script⟩
    · simp [Fails] at fails
    · simp [Fails] at fails
    · simp [executed]
  · simp [executed]

/-- The start of an operation. -/
theorem begun_cases (tables : Tables) (script : List Bool) :
    (Fails script 2 ∧ ∃ later,
        begun { tables, script } = .error { tables, script := later }) ∨
      (¬ Fails script 2 ∧
        begun { tables, script } = .ok { tables, script := script.drop 2 }) := by
  rcases script with _ | ⟨_ | _, script⟩
  · exact .inr ⟨not_fails_nil 2, rfl⟩
  · rcases script with _ | ⟨_ | _, script⟩
    · exact .inr ⟨by simp [Fails], rfl⟩
    · exact .inr ⟨by simp [Fails], rfl⟩
    · exact .inl ⟨by simp [Fails], script, rfl⟩
  · exact .inl ⟨by simp [Fails], script, rfl⟩

/-- Behind a start without a failure, the calls are those of the queries. -/
theorem fails_drop {script : List Bool} (goes : ¬ Fails script 2)
    (calls : Nat) : Fails script (calls + 2) ↔ Fails (script.drop 2) calls := by
  rcases script with _ | ⟨_ | _, script⟩
  · simp [Fails]
  · rcases script with _ | ⟨_ | _, script⟩
    · simp [Fails]
    · simp [Fails]
    · simp [Fails] at goes
  · simp [Fails] at goes

theorem executed_drop {script : List Bool} (goes : ¬ Fails script 2)
    (changes : List Change)
    (fails : Fails (script.drop 2) (2 * changes.length)) :
    executed script changes = executedBefore (script.drop 2) changes := by
  rcases script with _ | ⟨_ | _, script⟩
  · exact absurd fails (not_fails_nil _)
  · rcases script with _ | ⟨_ | _, script⟩
    · exact absurd fails (not_fails_nil _)
    · simp [executed, executedBefore]
    · simp [Fails] at goes
  · simp [Fails] at goes

/-- An operation has executed everything, or what came before the failure. -/
theorem perform_cases (call : Call) (state : State) :
    (Fails state.script (callCount (call.changes state.tables)) ∧
        (call.perform state).1 = 1 ∧
        (call.perform state).2.tables =
          attemptAll (executed state.script (call.changes state.tables))
            state.tables) ∨
      (¬ Fails state.script (callCount (call.changes state.tables)) ∧
        (call.perform state).1 = 0 ∧
        (call.perform state).2.tables = call.effect state.tables) := by
  have ends := call.perform_ends state
  rcases begun_cases state.tables state.script with
    ⟨fails, later, began⟩ | ⟨goes, began⟩
  · rw [began] at ends
    refine .inl ⟨?_, ends.of_error.1, ?_⟩
    · exact (List.take_prefix_take_left (by simp [callCount])).subset fails
    · rw [executed_eq_nil _ fails]
      exact ends.of_error.2
  · rw [began] at ends
    change Ends _ (executeAll (call.changes state.tables) _) at ends
    rw [callCount, fails_drop goes]
    rcases leaves (call.changes state.tables) (state.script.drop 2)
      state.tables with ⟨later, ⟨fails, ran⟩ | ⟨succeeds, ran⟩⟩
    · rw [ran] at ends
      rw [executed_drop goes _ fails]
      exact .inl ⟨fails, ends.of_error⟩
    · rw [ran, call.attemptAll_changes] at ends
      exact .inr ⟨succeeds, ends.of_ok.1, ends.of_ok.2.1⟩

/-- The queries that a call executes in a state. -/
def performed (call : Call) (state : State) : List Change :=
  if Fails state.script (callCount (call.changes state.tables)) then
    executed state.script (call.changes state.tables)
  else
    call.changes state.tables

theorem performed_begins (call : Call) (state : State) :
    performed call state <+: call.changes state.tables := by
  unfold performed
  split
  · exact List.take_prefix _ _
  · exact List.prefix_rfl

/-- The tables are what the executed queries make of them. -/
theorem tables_perform (call : Call) (state : State) :
    (call.perform state).2.tables =
      attemptAll (performed call state) state.tables := by
  unfold performed
  rcases perform_cases call state with
    ⟨fails, _, tables⟩ | ⟨succeeds, _, tables⟩
  · rw [if_pos fails, tables]
  · rw [if_neg succeeds, tables, call.attemptAll_changes]

/-! ## The products after an operation -/

theorem attemptAll_append (first second : List Change) (tables : Tables) :
    attemptAll (first ++ second) tables =
      attemptAll second (attemptAll first tables) :=
  List.foldl_append

theorem products_sideChanges {product : Product} {changes : List Change}
    (side : ∀ change ∈ changes, change ∈ sideChanges product)
    (tables : Tables) :
    (attemptAll changes tables).products = tables.products := by
  induction changes generalizing tables with
  | nil => rfl
  | cons change rest ih =>
      rw [attemptAll_cons,
        ih (fun later member => side later (.tail change member))]
      have first := side change List.mem_cons_self
      simp only [sideChanges, tagChanges, List.mem_append, List.mem_map,
        List.mem_singleton] at first
      rcases first with
        ⟨tag, _, rfl⟩ | ⟨tag, _, rfl⟩ | ⟨tag, _, rfl⟩ | rfl
      · exact attempt_insertTag_products _ _ _ _ _
      · exact attempt_insertTag_products _ _ _ _ _
      · exact attempt_insertTag_products _ _ _ _ _
      · exact attempt_insertImages_products _ _ _

theorem insertProductData_refused_iff {product : Product} {tables : Tables} :
    (Change.insertProductData product).exec tables = none ↔
      ¬ Accepts tables product := by
  rcases storeData_products product tables with
    ⟨row, made, accepted, inserted⟩ | ⟨refused, _⟩
  · refine iff_of_false ?_ (not_not_intro accepted)
    simp only [Change.exec, made, inserted, Option.bind_eq_bind,
      Option.bind_some]
    exact Option.some_ne_none _
  · refine iff_of_true ?_ refused
    simp only [Change.exec, Option.bind_eq_bind, Option.bind_eq_none_iff]
    intro row made products inserted
    have free : ¬ tables.Stores row.code := by
      intro present
      have conflict :=
        Table.insert_eq_none.mpr (conflicts_product.mpr present)
      cases inserted.symm.trans conflict
    have coded := (ofProduct_eq_some made).1
    refine absurd ⟨exists_ofProduct.mp ⟨row, made⟩, ?_⟩ refused
    intro code same
    cases coded.symm.trans same
    exact free

theorem dataChanges_of_accepts {product : Product} {tables : Tables}
    (accepted : Accepts tables product) :
    dataChanges product tables = [.insertProductData product] := by
  exact if_neg (insertProductData_refused_iff.not.mpr (not_not_intro accepted))

theorem dataChanges_of_refused {product : Product} {tables : Tables}
    (refused : ¬ Accepts tables product) :
    dataChanges product tables =
      [.insertProductData product,
        .incProductNumber product.number product.name] := by
  exact if_pos (insertProductData_refused_iff.mpr refused)

/-- An insertion that is refused changes nothing. -/
theorem attempt_of_refused {product : Product} {tables : Tables}
    (refused : ¬ Accepts tables product) :
    (Change.insertProductData product).attempt tables = tables := by
  rw [Change.attempt, insertProductData_refused_iff.mpr refused]
  rfl

theorem attemptAll_dataChanges (product : Product) (tables : Tables) :
    attemptAll (dataChanges product tables) tables =
      storeData product tables := by
  by_cases accepted : Accepts tables product
  · rw [dataChanges_of_accepts accepted, storeData]
    have possible := insertProductData_refused_iff.not.mpr
      (not_not_intro accepted)
    rcases Option.ne_none_iff_exists'.mp possible with ⟨after, executed⟩
    rw [attemptAll_cons, Change.attempt, executed]
    rfl
  · rw [dataChanges_of_refused accepted, attemptAll_cons,
      attempt_of_refused accepted, storeData,
      insertProductData_refused_iff.mpr accepted]
    rfl

/-- A failing call comes before the end of the first queries. -/
theorem performed_of_fails {call : Call} {state : State}
    {first rest : List Change}
    (split : call.changes state.tables = first ++ rest)
    (fails : Fails state.script (callCount first)) :
    performed call state = first.take ((state.script.idxOf true - 2) / 2) := by
  have longer : callCount first ≤ callCount (first ++ rest) := by
    simp only [callCount, List.length_append]
    omega
  have early := (fails_iff.mp fails).2
  have within : (state.script.idxOf true - 2) / 2 ≤ first.length := by
    rw [callCount] at early
    omega
  rw [performed, split, if_pos (fails.mono longer), executed,
    List.take_append_of_le_length within]

/-- Without one, the first queries are executed, and some behind them. -/
theorem performed_of_goes {call : Call} {state : State}
    {first rest : List Change}
    (split : call.changes state.tables = first ++ rest)
    (goes : ¬ Fails state.script (callCount first)) :
    ∃ later, later <+: rest ∧ performed call state = first ++ later := by
  rw [performed, split]
  by_cases fails : Fails state.script (callCount (first ++ rest))
  · have late : callCount first ≤ state.script.idxOf true := by
      by_contra early
      exact goes (fails_iff.mpr ⟨(fails_iff.mp fails).1, not_le.mp early⟩)
    have behind : first.length ≤ (state.script.idxOf true - 2) / 2 := by
      rw [callCount] at late
      omega
    rw [if_pos fails, executed, List.take_append,
      List.take_of_length_le behind]
    exact ⟨_, List.take_prefix _ _, rfl⟩
  · rw [if_neg fails]
    exact ⟨rest, List.prefix_rfl, rfl⟩

/-- An insertion has stored the data of its product, or nothing of them. -/
theorem products_dbInsert (product : Product) (state : State) :
    ((Call.dbInsert product).perform state).2.tables.products =
      if Fails state.script
          (callCount (dataChanges product state.tables)) then
        state.tables.products
      else
        (storeData product state.tables).products := by
  have split : (Call.dbInsert product).changes state.tables =
      dataChanges product state.tables ++ sideChanges product := rfl
  rw [tables_perform]
  split_ifs with fails
  · rw [performed_of_fails split fails]
    have early := (fails_iff.mp fails).2
    by_cases accepted : Accepts state.tables product
    · rw [dataChanges_of_accepts accepted] at early ⊢
      have nothing : (state.script.idxOf true - 2) / 2 = 0 := by
        simp only [callCount, List.length_singleton] at early
        omega
      rw [nothing]
      rfl
    · rw [dataChanges_of_refused accepted] at early ⊢
      have few : (state.script.idxOf true - 2) / 2 < 2 := by
        simp only [callCount, List.length_cons, List.length_nil] at early
        omega
      rcases Nat.lt_succ_iff_lt_or_eq.mp few with zero | one
      · rw [Nat.lt_one_iff.mp zero]
        rfl
      · rw [one]
        exact congrArg Tables.products (attempt_of_refused accepted)
  · rcases performed_of_goes split fails with ⟨later, within, executes⟩
    rw [executes, attemptAll_append,
      products_sideChanges fun change member => within.subset member,
      attemptAll_dataChanges]

/-- A removal that does not come to its clean-up has taken one piece. -/
theorem tables_dbRemove (product : Product) (state : State) :
    ((Call.dbRemove product).perform state).2.tables =
      if Fails state.script 4 then
        state.tables
      else if Fails state.script 6 then
        (Change.removeProduct product.code).attempt state.tables
      else
        discard product.code state.tables := by
  have split : (Call.dbRemove product).changes state.tables =
      [.removeProduct product.code] ++ [.cleanEmpty] := rfl
  have calls : callCount ((Call.dbRemove product).changes state.tables) = 6 :=
    rfl
  rw [tables_perform]
  split_ifs with early late
  · have before := (fails_iff.mp early).2
    have nothing : (state.script.idxOf true - 2) / 2 = 0 := by omega
    rw [performed_of_fails split early, nothing]
    rfl
  · have between := (fails_iff.mp late).2
    have behind : ¬ state.script.idxOf true < 4 := fun before =>
      early (fails_iff.mpr ⟨(fails_iff.mp late).1, before⟩)
    have one : (state.script.idxOf true - 2) / 2 = 1 := by omega
    rw [performed, calls, if_pos late, executed, one]
    rfl
  · rw [performed, calls, if_neg late]
    rfl

/-! ## No change is undone -/

/-- The number of rows. -/
def rowCount (tables : Tables) : Nat :=
  tables.products.rows.length + (tables.tags .ingredients).rows.length +
    (tables.tags .allergens).rows.length +
    (tables.tags .additives).rows.length + tables.images.rows.length

/-- A query that adds a row whenever it changes anything. -/
def Appends (change : Change) : Prop :=
  ∀ tables, change.attempt tables = tables ∨
    rowCount tables < rowCount (change.attempt tables)

theorem tryInsert_cases {ρ κ : Type} [DecidableEq κ] {key : ρ → Option κ}
    (table : Table key) (row : ρ) :
    table.tryInsert row = table ∨
      table.rows.length < (table.tryInsert row).rows.length := by
  unfold Table.tryInsert
  cases inserted : table.insert row with
  | none => exact .inl rfl
  | some next =>
      refine .inr ?_
      rw [Option.getD_some, Table.rows_of_insert inserted, List.length_append]
      exact Nat.lt_succ_self _

theorem appends_insertTag (kind : TagTable)
    (code name language : Option CString) :
    Appends (.insertTag kind code name language) := by
  intro tables
  cases made : TagRow.ofTag code name language with
  | none => exact .inl (attempt_insertTag_of_none tables made)
  | some row =>
      rw [attempt_insertTag_of_some tables made]
      rcases tryInsert_cases (tables.tags kind) row with same | more
      · left
        rw [same, Function.update_eq_self]
      · right
        unfold rowCount
        cases kind with
        | ingredients => simpa using more
        | allergens => simpa using more
        | additives => simpa using more

theorem appends_insertImages (code : Option CString)
    (images : ProductImages) : Appends (.insertImages code images) := by
  intro tables
  cases made : ImageRow.ofImages code images with
  | none => exact .inl (attempt_insertImages_of_none tables made)
  | some row =>
      rw [attempt_insertImages_of_some tables made]
      rcases tryInsert_cases tables.images row with same | more
      · left
        rw [same]
      · right
        simpa [rowCount] using more

theorem appends_insertProductData (product : Product) :
    Appends (.insertProductData product) := by
  intro tables
  simp only [Change.attempt, Change.exec, Option.bind_eq_bind]
  cases ProductRow.ofProduct product with
  | none => exact .inl rfl
  | some row =>
      rw [Option.bind_some]
      cases inserted : tables.products.insert row with
      | none => exact .inl rfl
      | some products =>
          right
          simp [rowCount, Table.rows_of_insert inserted]

theorem appends_sideChanges {product : Product} {change : Change}
    (member : change ∈ sideChanges product) : Appends change := by
  simp only [sideChanges, tagChanges, List.mem_append, List.mem_map,
    List.mem_singleton] at member
  rcases member with ⟨tag, _, rfl⟩ | ⟨tag, _, rfl⟩ | ⟨tag, _, rfl⟩ | rfl
  · exact appends_insertTag _ _ _ _
  · exact appends_insertTag _ _ _ _
  · exact appends_insertTag _ _ _ _
  · exact appends_insertImages _ _

/-- The number of rows does not shrink, by induction on the queries. -/
theorem rowCount_attemptAll {changes : List Change}
    (appends : ∀ change ∈ changes, Appends change) (tables : Tables) :
    rowCount tables ≤ rowCount (attemptAll changes tables) := by
  induction changes generalizing tables with
  | nil => exact le_refl _
  | cons change rest ih =>
      have later := ih (fun other member =>
        appends other (List.mem_cons_of_mem _ member)) (change.attempt tables)
      rcases appends change List.mem_cons_self tables with same | more
      · rw [same] at later
        rw [attemptAll_cons, same]
        exact later
      · exact more.le.trans later

/-- Queries that add no row on the whole change nothing one by one. -/
theorem unchanged_of_rowCount {changes : List Change}
    (appends : ∀ change ∈ changes, Appends change) {tables : Tables}
    (count : rowCount (attemptAll changes tables) = rowCount tables) :
    ∀ change ∈ changes, change.attempt tables = tables := by
  induction changes with
  | nil => simp
  | cons change rest ih =>
      have others : ∀ other ∈ rest, Appends other := fun other member =>
        appends other (List.mem_cons_of_mem change member)
      have grown := rowCount_attemptAll others (change.attempt tables)
      rw [attemptAll_cons] at count
      rcases appends change List.mem_cons_self tables with same | more
      · rw [same] at count
        exact List.forall_mem_cons.mpr ⟨same, ih others count⟩
      · omega

theorem attemptAll_unchanged {changes : List Change} {tables : Tables}
    (unchanged : ∀ change ∈ changes, change.attempt tables = tables) :
    attemptAll changes tables = tables := by
  induction changes with
  | nil => rfl
  | cons change rest ih =>
      rcases List.forall_mem_cons.mp unchanged with ⟨first, others⟩
      rw [attemptAll_cons, first]
      exact ih others

/-- An update adds no row. -/
theorem rowCount_incProductNumber (number : Int32) (name : Option CString)
    (tables : Tables) :
    rowCount ((Change.incProductNumber number name).attempt tables) =
      rowCount tables := by
  simp [rowCount, Change.attempt, Change.exec, Table.update]

/-- What an insertion has executed leaves the tables only query by query. -/
theorem insertion_unchanged {product : Product} {tables : Tables}
    {changes : List Change} (started : changes <+: insertChanges product tables)
    (unchanged : attemptAll changes tables = tables) :
    ∀ change ∈ changes, change.attempt tables = tables := by
  unfold insertChanges dataChanges at started
  by_cases refused :
      (Change.insertProductData product).exec tables = none
  · -- The refused insertion changes nothing; the update behind it may.
    rw [if_pos refused] at started
    have first :
        (Change.insertProductData product).attempt tables = tables := by
      rw [Change.attempt, refused]
      rfl
    rcases changes with _ | ⟨insertion, _ | ⟨increase, side⟩⟩
    · simp
    · rcases List.cons_prefix_cons.mp started with ⟨rfl, _⟩
      simpa using first
    · simp only [List.cons_append, List.nil_append, List.cons_prefix_cons]
        at started
      rcases started with ⟨rfl, rfl, within⟩
      have appends : ∀ change ∈ side, Appends change := fun change member =>
        appends_sideChanges (within.subset member)
      rw [attemptAll_cons, attemptAll_cons, first] at unchanged
      have others := unchanged_of_rowCount appends
        ((congrArg rowCount unchanged).trans
          (rowCount_incProductNumber _ _ tables).symm)
      have increased := (attemptAll_unchanged others).symm.trans unchanged
      rw [increased] at others
      exact List.forall_mem_cons.mpr
        ⟨first, List.forall_mem_cons.mpr ⟨increased, others⟩⟩
  · rw [if_neg refused] at started
    apply unchanged_of_rowCount _ (congrArg rowCount unchanged)
    intro change member
    rcases List.mem_cons.mp (started.subset member) with rfl | side
    · exact appends_insertProductData product
    · exact appends_sideChanges side

/-- A deletion that keeps the number of rows deletes none. -/
theorem cleanEmpty_unchanged {tables : Tables}
    (count : rowCount (Change.cleanEmpty.attempt tables) = rowCount tables) :
    Change.cleanEmpty.attempt tables = tables := by
  have kept :
      (tables.products.delete fun row => row.elements.value = 0) =
        tables.products := by
    apply Table.ext
    apply List.filter_sublist.eq_of_length
    change rowCount
      { tables with
        products := tables.products.delete fun row => row.elements.value = 0 } =
          rowCount tables at count
    simpa [rowCount, Table.delete] using count
  change { tables with products := _ } = tables
  rw [kept]

/-- What a removal has executed leaves the tables only query by query. -/
theorem removal_unchanged {code : Option CString} {tables : Tables}
    {changes : List Change} (started : changes <+: removeChanges code)
    (unchanged : attemptAll changes tables = tables) :
    ∀ change ∈ changes, change.attempt tables = tables := by
  rcases changes with _ | ⟨first, _ | ⟨second, more⟩⟩
  · simp
  · exact List.forall_mem_singleton.mpr unchanged
  · simp only [removeChanges, List.cons_prefix_cons, List.prefix_nil]
      at started
    rcases started with ⟨rfl, rfl, rfl⟩
    rw [attemptAll_cons, attemptAll_cons] at unchanged
    change Change.cleanEmpty.attempt
      ((Change.removeProduct code).attempt tables) = tables at unchanged
    have decremented :
        rowCount ((Change.removeProduct code).attempt tables) =
          rowCount tables := by
      simp [rowCount, Change.attempt, Change.exec, Table.update]
    have same := cleanEmpty_unchanged
      ((congrArg rowCount unchanged).trans decremented.symm)
    have removed := same.symm.trans unchanged
    rw [removed] at unchanged
    simp [removed, unchanged]

/-- A beginning of a call's queries leaves the tables only query by query. -/
theorem attemptAll_eq_iff (call : Call) {tables : Tables}
    {changes : List Change} (started : changes <+: call.changes tables) :
    attemptAll changes tables = tables ↔
      ∀ change ∈ changes, change.attempt tables = tables := by
  constructor
  · intro unchanged
    cases call with
    | dbInsert prDec => exact insertion_unchanged started unchanged
    | dbRemove prDec => exact removal_unchanged started unchanged
  · exact attemptAll_unchanged

/-! ## Which operations leave nothing behind -/

/-- The tags of a product, in the order in which they are inserted. -/
def orderedTags (product : Product) : List (TagTable × CString) :=
  (product.ingredientsTags.getD []).map (TagTable.ingredients, ·) ++
    (product.allergensTags.getD []).map (TagTable.allergens, ·) ++
      (product.additivesTags.getD []).map (TagTable.additives, ·)

/-- The tag has no code to be stored under, or is stored with its language. -/
def TagStored (tables : Tables) (productCode : Option CString)
    (kind : TagTable) (tag : CString) : Prop :=
  ∀ code, productCode = some code →
    (splitTag tag).2 ≠ none ∧
      ∃ row ∈ tables.tags kind,
        row.code = code ∧ row.name = (splitTag tag).1 ∧
          row.language = (splitTag tag).2

/--
A failure leaves nothing behind.  The calls before it are, beside those for the
open and for BEGIN, two for each query.  An insertion must not have come to its
row, or has been refused; and then it must not have come to the update, or that
adds nothing, and the tags in front of the failure are stored already.  A removal
must not have come to its row, or there is none.
-/
def Harmless (tables : Tables) (calls : Nat) : Call → Prop
  | .dbInsert product =>
      calls < 4 ∨
        ¬ Accepts tables product ∧
          (calls < 6 ∨
            (∀ row ∈ tables.products, product.name = some row.name →
                row.elements.Absorbs product.number) ∧
              ∀ tagged ∈ (orderedTags product).take ((calls - 6) / 2),
                TagStored tables product.code tagged.1 tagged.2)
  | .dbRemove product =>
      calls < 4 ∨
        ∀ row ∈ tables.products, product.code = some row.code →
          row.elements.Absorbs (-1)

/--
An operation without a failure changes nothing.  An insertion is refused, its
update adds nothing, and its tags and a row of images are stored already.  A
removal finds no row of its code, and none that counts nothing.
-/
def Inert (tables : Tables) : Call → Prop
  | .dbInsert product =>
      ¬ Accepts tables product ∧
        (∀ row ∈ tables.products, product.name = some row.name →
          row.elements.Absorbs product.number) ∧
        (∀ tagged ∈ orderedTags product,
          TagStored tables product.code tagged.1 tagged.2) ∧
        ∀ code, product.code = some code →
          ∃ row ∈ tables.images, row.code = code
  | .dbRemove product =>
      (∀ row ∈ tables.products, product.code = some row.code →
        row.elements.Absorbs (-1)) ∧
        ∀ row ∈ tables.products, row.elements.value ≠ 0

theorem sideChanges_eq (product : Product) :
    sideChanges product =
      (orderedTags product).map
          (fun tagged => insertTagChange tagged.1 product.code tagged.2) ++
        [.insertImages product.code product.images] := by
  simp [sideChanges, tagChanges, orderedTags, Function.comp_def]

theorem insertTag_unchanged_iff {tables : Tables}
    {productCode : Option CString} {kind : TagTable} {tag : CString} :
    (insertTagChange kind productCode tag).attempt tables = tables ↔
      TagStored tables productCode kind tag := by
  unfold insertTagChange TagStored
  cases productCode with
  | none =>
      have null : TagRow.ofTag none (some (splitTag tag).1) (splitTag tag).2 =
          none := rfl
      rw [attempt_insertTag_of_none tables null]
      exact iff_of_true rfl nofun
  | some code =>
      have made : TagRow.ofTag (some code) (some (splitTag tag).1)
          (splitTag tag).2 =
            some ⟨code, (splitTag tag).1, (splitTag tag).2⟩ := rfl
      have conflicts :
          (tables.tags kind).Conflicts
              ⟨code, (splitTag tag).1, (splitTag tag).2⟩ ↔
            (splitTag tag).2 ≠ none ∧
              ∃ row ∈ tables.tags kind,
                row.code = code ∧ row.name = (splitTag tag).1 ∧
                  row.language = (splitTag tag).2 := by
        rw [Table.conflicts_iff]
        cases (splitTag tag).2 with
        | none => simp [TagRow.key]
        | some language =>
            simp only [TagRow.key, Option.map_eq_some_iff, Option.map_some]
            constructor
            · rintro ⟨row, present, _, ⟨other, spoken, rfl⟩, same⟩
              rcases Prod.mk.inj (Option.some.inj same) with ⟨coded, rest⟩
              rcases Prod.mk.inj rest with ⟨named, rfl⟩
              exact ⟨Option.some_ne_none _, row, present, coded.symm,
                named.symm, spoken⟩
            · rintro ⟨_, row, present, rfl, named, spoken⟩
              exact ⟨row, present, _, ⟨language, spoken, rfl⟩, by rw [named]⟩
      rw [attempt_insertTag_of_some tables made]
      simp only [Option.some.injEq, forall_eq']
      rw [← conflicts, ← Table.tryInsert_eq_self_iff]
      constructor
      · intro same
        simpa using congrArg (fun tables : Tables => tables.tags kind) same
      · intro same
        rw [same, Function.update_eq_self]

theorem insertImages_unchanged_iff {tables : Tables}
    {productCode : Option CString} {images : ProductImages} :
    (Change.insertImages productCode images).attempt tables = tables ↔
      ∀ code, productCode = some code → ∃ row ∈ tables.images, row.code = code := by
  cases productCode with
  | none =>
      have null : ImageRow.ofImages none images = none := rfl
      rw [attempt_insertImages_of_none tables null]
      exact iff_of_true rfl nofun
  | some code =>
      have made : ImageRow.ofImages (some code) images =
          some ⟨code, images.front, images.nutrition, images.ingredients⟩ :=
        rfl
      have conflicts :
          tables.images.Conflicts
              ⟨code, images.front, images.nutrition, images.ingredients⟩ ↔
            ∃ row ∈ tables.images, row.code = code := by
        rw [Table.conflicts_iff]
        simp [ImageRow.key, eq_comm]
      rw [attempt_insertImages_of_some tables made]
      simp only [Option.some.injEq, forall_eq']
      rw [← conflicts, ← Table.tryInsert_eq_self_iff]
      constructor
      · exact congrArg Tables.images
      · intro same
        rw [same]

theorem setProducts_eq_self_iff {tables : Tables}
    {products : Table ProductRow.key} :
    { tables with products } = tables ↔ products = tables.products := by
  constructor
  · exact congrArg Tables.products
  · rintro rfl
    rfl

theorem setElements_eq_self_iff {row : ProductRow} {elements : Elements} :
    { row with elements } = row ↔ elements = row.elements := by
  constructor
  · exact congrArg ProductRow.elements
  · rintro rfl
    rfl

theorem incProductNumber_unchanged_iff {tables : Tables} {number : Int32}
    {name : Option CString} :
    (Change.incProductNumber number name).attempt tables = tables ↔
      ∀ row ∈ tables.products, name = some row.name →
        row.elements.Absorbs number := by
  refine setProducts_eq_self_iff.trans (Table.update_eq_self_iff.trans ?_)
  refine forall₂_congr fun row _ => ?_
  rw [← Elements.add_eq_self_iff, ProductRow.increment]
  split
  · next named => rw [setElements_eq_self_iff, imp_iff_right named]
  · next unnamed => simp [unnamed]

theorem removeProduct_unchanged_iff {tables : Tables}
    {code : Option CString} :
    (Change.removeProduct code).attempt tables = tables ↔
      ∀ row ∈ tables.products, code = some row.code →
        row.elements.Absorbs (-1) := by
  have minusOne : (-1 : Int) = (-1 : Int32).toInt := rfl
  refine setProducts_eq_self_iff.trans (Table.update_eq_self_iff.trans ?_)
  refine forall₂_congr fun row _ => ?_
  rw [← Elements.add_eq_self_iff, ProductRow.decrement, minusOne]
  split
  · next coded => rw [setElements_eq_self_iff, imp_iff_right coded]
  · next other => simp [other]

theorem cleanEmpty_unchanged_iff {tables : Tables} :
    Change.cleanEmpty.attempt tables = tables ↔
      ∀ row ∈ tables.products, row.elements.value ≠ 0 := by
  refine setProducts_eq_self_iff.trans (Table.delete_eq_self_iff.trans ?_)
  simp only [decide_eq_false_iff_not, ne_eq]

/-- An insertion that is not refused adds a row. -/
theorem attempt_of_accepts {product : Product} {tables : Tables}
    (accepted : Accepts tables product) :
    (Change.insertProductData product).attempt tables ≠ tables := by
  have whole := attemptAll_dataChanges product tables
  rw [dataChanges_of_accepts accepted] at whole
  change (Change.insertProductData product).attempt tables = _ at whole
  rw [whole]
  intro same
  rcases storeData_products product tables with
    ⟨row, _, _, inserted⟩ | ⟨refused, _⟩
  · have longer := congrArg List.length (Table.rows_of_insert inserted)
    rw [same] at longer
    simp at longer
  · exact refused accepted

/-- What an insertion has executed before a failing call. -/
theorem insertion_harmless_iff {product : Product} {tables : Tables}
    {script : List Bool}
    (fails : Fails script (callCount (insertChanges product tables))) :
    (∀ change ∈ executed script (insertChanges product tables),
        change.attempt tables = tables) ↔
      Harmless tables (script.idxOf true) (.dbInsert product) := by
  have early := (fails_iff.mp fails).2
  rw [Harmless, executed]
  rw [insertChanges, sideChanges_eq] at early ⊢
  generalize script.idxOf true = calls at early
  by_cases accepted : Accepts tables product
  · rw [dataChanges_of_accepts accepted]
    by_cases before : calls < 4
    · have nothing : (calls - 2) / 2 = 0 := by omega
      simp [nothing, before]
    · have behind : (calls - 2) / 2 = (calls - 4) / 2 + 1 := by omega
      refine iff_of_false ?_ (by simp [before, accepted])
      rw [behind, List.singleton_append, List.take_succ_cons]
      intro unchanged
      exact attempt_of_accepts accepted (unchanged _ List.mem_cons_self)
  · rw [dataChanges_of_refused accepted] at early ⊢
    have first := attempt_of_refused accepted
    by_cases before : calls < 4
    · have nothing : (calls - 2) / 2 = 0 := by omega
      simp [nothing, before]
    · by_cases between : calls < 6
      · have one : (calls - 2) / 2 = 1 := by omega
        simp [one, accepted, between, first]
      · have behind : (calls - 2) / 2 = (calls - 6) / 2 + 1 + 1 := by omega
        have within : (calls - 6) / 2 ≤
            ((orderedTags product).map fun tagged =>
              insertTagChange tagged.1 product.code tagged.2).length := by
          simp only [callCount, List.length_append, List.length_cons,
            List.length_nil, List.length_map] at early ⊢
          omega
        rw [behind, List.cons_append, List.cons_append, List.nil_append,
          List.take_succ_cons, List.take_succ_cons,
          List.take_append_of_le_length within, ← List.map_take,
          List.forall_mem_cons, List.forall_mem_cons, List.forall_mem_map,
          incProductNumber_unchanged_iff]
        simp only [first, before, between, accepted, not_false_eq_true,
          true_and, false_or, insertTag_unchanged_iff]

/-- What a removal has executed before a failing call. -/
theorem removal_harmless_iff {product : Product} {tables : Tables}
    {script : List Bool}
    (fails : Fails script (callCount (removeChanges product.code))) :
    (∀ change ∈ executed script (removeChanges product.code),
        change.attempt tables = tables) ↔
      Harmless tables (script.idxOf true) (.dbRemove product) := by
  have early : script.idxOf true < 6 := (fails_iff.mp fails).2
  rw [Harmless, executed, removeChanges]
  generalize script.idxOf true = calls at early
  by_cases before : calls < 4
  · have nothing : (calls - 2) / 2 = 0 := by omega
    simp [nothing, before]
  · have one : (calls - 2) / 2 = 1 := by omega
    rw [one, List.take_succ_cons, List.take_zero, List.forall_mem_singleton,
      removeProduct_unchanged_iff]
    simp only [before, false_or]

theorem insertion_inert_iff {product : Product} {tables : Tables} :
    (∀ change ∈ insertChanges product tables,
        change.attempt tables = tables) ↔
      Inert tables (.dbInsert product) := by
  rw [Inert, insertChanges, sideChanges_eq]
  by_cases accepted : Accepts tables product
  · rw [dataChanges_of_accepts accepted]
    refine iff_of_false ?_ fun inert => inert.1 accepted
    intro unchanged
    exact attempt_of_accepts accepted (unchanged _ List.mem_cons_self)
  · have first := attempt_of_refused accepted
    rw [dataChanges_of_refused accepted, List.cons_append, List.cons_append,
      List.nil_append, List.forall_mem_cons, List.forall_mem_cons,
      List.forall_mem_append, List.forall_mem_map, List.forall_mem_singleton,
      incProductNumber_unchanged_iff, insertImages_unchanged_iff]
    simp only [first, accepted, not_false_eq_true, true_and,
      insertTag_unchanged_iff]

theorem removal_inert_iff {product : Product} {tables : Tables} :
    (∀ change ∈ removeChanges product.code, change.attempt tables = tables) ↔
      Inert tables (.dbRemove product) := by
  rw [Inert, removeChanges, List.forall_mem_cons, List.forall_mem_singleton,
    removeProduct_unchanged_iff, cleanEmpty_unchanged_iff]

/-- A call leaves the tables as they are, whether or not it fails. -/
def LeavesTables (call : Call) (state : State) : Prop :=
  if Fails state.script (callCount (call.changes state.tables)) then
    Harmless state.tables (state.script.idxOf true) call
  else
    Inert state.tables call

theorem leavesTables_of_script (call : Call) {state : State}
    (script : state.script = []) :
    LeavesTables call state ↔ Inert state.tables call := by
  rw [LeavesTables, script, if_neg (not_fails_nil _)]

theorem perform_unchanged_iff (call : Call) (state : State) :
    (call.perform state).2.tables = state.tables ↔
      LeavesTables call state := by
  have queries := attemptAll_eq_iff call (performed_begins call state)
  rw [tables_perform, queries, performed, LeavesTables]
  split
  · next fails =>
    cases call with
    | dbInsert product => exact insertion_harmless_iff fails
    | dbRemove product => exact removal_harmless_iff fails
  · cases call with
    | dbInsert product => exact insertion_inert_iff
    | dbRemove product => exact removal_inert_iff

/--
A failed operation leaves the tables as they were exactly if the call that failed
came early enough, or the product and the tables are such that nothing in front
of it could change anything.
-/
theorem atomic_iff (call : Call) (state : State) :
    ((call.perform state).1 = 1 →
        (call.perform state).2.tables = state.tables) ↔
      (Fails state.script (callCount (call.changes state.tables)) →
        Harmless state.tables (state.script.idxOf true) call) := by
  have unchanged := perform_unchanged_iff call state
  rw [unchanged, LeavesTables]
  rcases perform_cases call state with
    ⟨fails, returned, _⟩ | ⟨succeeds, returned, _⟩
  · simp only [fails, returned, true_implies, if_true]
  · rw [returned]
    simp [succeeds]

/-- A carton of milk. -/
def carton : Product :=
  { Product.zero with
    code := some (.lit "8480017439482")
    name := some (.lit "Milk")
    quantity := some (.lit "1L")
    timestamp := some (.lit "2024-01-01 10:00:00")
    number := 1 }

/-- The insertion of the images fails when the product is stored already. -/
theorem failed_insertion_stays :
    ¬ ∀ (call : Call) (state : State),
        (call.perform state).1 = 1 →
          (call.perform state).2.tables = state.tables := by
  intro atomic
  let state : State :=
    { State.start with script := [false, false, false, false, true] }
  have queries :
      (Call.dbInsert carton).changes state.tables =
        [.insertProductData carton,
          .insertImages carton.code carton.images] :=
    rfl
  have before :
      executed state.script
          [.insertProductData carton,
            .insertImages carton.code carton.images] =
        [.insertProductData carton] := by
    have index : state.script.idxOf true = 4 := by
      simp [state]
    rw [executed, index]
    rfl
  rcases perform_cases (.dbInsert carton) state with
    ⟨_, returned, tables⟩ | ⟨succeeds, _⟩
  · rw [queries, before] at tables
    have unchanged := tables.symm.trans (atomic _ _ returned)
    have count :=
      congrArg (fun tables : Tables => tables.products.rows.length) unchanged
    have stored :
        (attemptAll [.insertProductData carton]
          state.tables).products.rows.length = 1 :=
      rfl
    cases stored.symm.trans count
  · rw [queries] at succeeds
    exact absurd (by simp [Fails, callCount, state]) succeeds

end SmartFridge.Atomicity
