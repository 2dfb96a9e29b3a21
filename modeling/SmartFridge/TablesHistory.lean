import SmartFridge.DaemonMessages
import SmartFridge.StoredAfresh

/-!
# The tables over the life of the daemon

What the tables hold after any messages, when any call to SQLite may fail.
Each row stems from an insertion that a message asked for; rows of tags and
images stay for ever; and a row of PRODUCTS_DATA keeps all of its columns but
ELEMENTS until a removal finds its number at zero.
-/

namespace SmartFridge.TablesHistory

open SmartFridge.Library
open SmartFridge.Library.Runs
open SmartFridge.ProductDecoder
open SmartFridge.Schema
open SmartFridge.Daemon
open SmartFridge.Atomicity
open SmartFridge.Commutation
open SmartFridge.Segmentation
open SmartFridge.StoredAfresh
open SmartFridge.ReaderRequests

/-! ## The queries of a message -/

/-- The query is one that the request can lead to. -/
inductive LeadsTo : Request → Change → Prop
  | data (product : Product) :
      LeadsTo (.insert product) (.insertProductData product)
  | increase (product : Product) :
      LeadsTo (.insert product)
        (.incProductNumber product.number product.name)
  | tag {product : Product} (kind : TagTable) {tag : CString}
      (member : tag ∈ (tagsOf product kind).getD []) :
      LeadsTo (.insert product) (insertTagChange kind product.code tag)
  | images (product : Product) :
      LeadsTo (.insert product) (.insertImages product.code product.images)
  | remove (code : Option CString) :
      LeadsTo (.remove code) (.removeProduct code)
  | clean (code : Option CString) : LeadsTo (.remove code) .cleanEmpty

theorem leadsTo_tagChanges {product : Product} (kind : TagTable)
    {change : Change}
    (member : change ∈ tagChanges kind (tagsOf product kind) product.code) :
    LeadsTo (.insert product) change := by
  obtain ⟨tag, isTag, rfl⟩ := List.mem_map.mp member
  exact .tag kind isTag

theorem leadsTo_sideChanges {product : Product} {change : Change}
    (member : change ∈ sideChanges product) :
    LeadsTo (.insert product) change := by
  simp only [sideChanges, List.mem_append, List.mem_singleton] at member
  rcases member with ingredients | allergens | additives | rfl
  · exact leadsTo_tagChanges .ingredients ingredients
  · exact leadsTo_tagChanges .allergens allergens
  · exact leadsTo_tagChanges .additives additives
  · exact .images product

theorem leadsTo_dataChanges {product : Product} {tables : Tables}
    {change : Change} (member : change ∈ dataChanges product tables) :
    LeadsTo (.insert product) change := by
  unfold dataChanges at member
  split at member
  · rcases List.mem_pair.mp member with rfl | rfl
    · exact .data product
    · exact .increase product
  · cases List.mem_singleton.mp member
    exact .data product

theorem leadsTo_changes (call : Call) (tables : Tables) {change : Change}
    (member : change ∈ call.changes tables) :
    LeadsTo (requestOf call) change := by
  cases call with
  | dbInsert prDec =>
      rcases List.mem_append.mp member with data | side
      · exact leadsTo_dataChanges data
      · exact leadsTo_sideChanges side
  | dbRemove prDec =>
      rcases List.mem_pair.mp member with rfl | rfl
      · exact .remove prDec.code
      · exact .clean prDec.code

/-! ## The rows of the products -/

/-- What a message can do to the table of products. -/
inductive ProductsStep (before : Table ProductRow.key) :
    Request → Table ProductRow.key → Prop
  | same (request : Request) : ProductsStep before request before
  | inserted {product : Product} {row : ProductRow}
      {after : Table ProductRow.key}
      (made : ProductRow.ofProduct product = some row)
      (stored : before.insert row = some after) :
      ProductsStep before (.insert product) after
  | increased (product : Product) :
      ProductsStep before (.insert product)
        (before.update (ProductRow.increment product.number product.name)
          fun row => row.key_increment product.number product.name)
  | decreased (code : Option CString) :
      ProductsStep before (.remove code)
        (before.update (ProductRow.decrement code)
          fun row => row.key_decrement code)
  | cleaned (code : Option CString) :
      ProductsStep before (.remove code)
        ((before.update (ProductRow.decrement code)
          fun row => row.key_decrement code).delete
            fun row => row.elements.value = 0)

/-- A product that cannot be inserted leaves the table; one that can, is. -/
theorem products_insertProductData (product : Product) (tables : Tables) :
    ((Change.insertProductData product).exec tables = none ∧
        (Change.insertProductData product).attempt tables = tables) ∨
      (Change.insertProductData product).exec tables ≠ none ∧
        ProductsStep tables.products (.insert product)
          ((Change.insertProductData product).attempt tables).products := by
  cases executed : (Change.insertProductData product).exec tables with
  | none => exact .inl ⟨rfl, by rw [Change.attempt, executed]; rfl⟩
  | some after =>
      refine .inr ⟨Option.some_ne_none after, ?_⟩
      rw [Change.attempt, executed, Option.getD_some]
      simp only [Change.exec, Option.bind_eq_bind,
        Option.bind_eq_some_iff] at executed
      rcases executed with ⟨row, made, products, stored, ends⟩
      cases ends
      exact .inserted made stored

theorem products_dataChanges {product : Product} {tables : Tables}
    {changes : List Change} (within : changes <+: dataChanges product tables) :
    ProductsStep tables.products (.insert product)
      (attemptAll changes tables).products := by
  rcases products_insertProductData product tables with
    ⟨fails, same⟩ | ⟨goes, stepped⟩
  · rw [dataChanges, if_pos fails] at within
    rcases List.prefix_cons_iff.mp within with rfl | ⟨rest, rfl, behind⟩
    · exact .same _
    · rw [attemptAll_cons, same]
      rcases List.prefix_cons_iff.mp behind with rfl | ⟨last, rfl, ends⟩
      · exact .same _
      · cases List.prefix_nil.mp ends
        exact .increased product
  · rw [dataChanges, if_neg goes] at within
    rcases List.prefix_cons_iff.mp within with rfl | ⟨rest, rfl, ends⟩
    · exact .same _
    · cases List.prefix_nil.mp ends
      exact stepped

theorem products_removeChanges {code : Option CString} {tables : Tables}
    {changes : List Change} (within : changes <+: removeChanges code) :
    ProductsStep tables.products (.remove code)
      (attemptAll changes tables).products := by
  rcases List.prefix_cons_iff.mp within with rfl | ⟨rest, rfl, behind⟩
  · exact .same _
  · rcases List.prefix_cons_iff.mp behind with rfl | ⟨last, rfl, ends⟩
    · exact .decreased code
    · cases List.prefix_nil.mp ends
      exact .cleaned code

theorem products_performed (call : Call) (state : State) :
    ProductsStep state.tables.products (requestOf call)
      (call.perform state).2.tables.products := by
  rw [tables_perform]
  have within := performed_begins call state
  generalize performed call state = changes at within
  cases call with
  | dbRemove prDec => exact products_removeChanges within
  | dbInsert prDec =>
      rcases List.prefix_or_prefix_of_prefix within
        (List.prefix_append (dataChanges prDec state.tables) _) with
        data | ⟨side, rfl⟩
      · exact products_dataChanges data
      · have sided : side <+: sideChanges prDec :=
          (List.prefix_append_right_inj _).mp within
        rw [attemptAll_append,
          products_sideChanges fun change member => sided.subset member]
        exact products_dataChanges List.prefix_rfl

theorem products_of_carriesOut {request : Request} {state : State}
    {after : Tables} (carried : CarriesOut request state after) :
    ProductsStep state.tables.products request after.products := by
  cases carried with
  | nothing asked same => exact same ▸ .same request
  | call call own tables =>
      subst own tables
      exact products_performed call state

/-! ## The rows of tags and images -/

/-- The rows of tags that a message brings. -/
def broughtTags (kind : TagTable) : Request → List TagRow
  | .insert product => tagRows (tagsOf product kind) product.code
  | .remove _ | .nothing => []

/-- The row of images that a message brings. -/
def broughtImages : Request → List ImageRow
  | .insert product =>
      (ImageRow.ofImages product.code product.images).toList
  | .remove _ | .nothing => []

theorem tags_of_leadsTo {request : Request} {change : Change}
    (leads : LeadsTo request change) {kind : TagTable} {row : TagRow}
    (member : row ∈ changeTagRows kind change) :
    row ∈ broughtTags kind request := by
  cases leads with
  | tag other isTag =>
      rw [insertTagChange, changeTagRows] at member
      split at member
      · next same =>
          subst same
          exact List.mem_flatMap.mpr ⟨_, isTag, member⟩
      · cases member
  | data | increase | images | remove | clean => cases member

theorem images_of_leadsTo {request : Request} {change : Change}
    (leads : LeadsTo request change) {row : ImageRow}
    (member : row ∈ changeImageRows change) :
    row ∈ broughtImages request := by
  cases leads with
  | images product => exact member
  | data | increase | tag | remove | clean => cases member

/-- The table is the one before with rows of a kind behind its own. -/
def Extends {ρ κ : Type} {key : ρ → Option κ} (brought : ρ → Prop)
    (before after : Table key) : Prop :=
  ∃ added : List ρ, after.rows = before.rows ++ added ∧
    ∀ row ∈ added, brought row

theorem Extends.refl {ρ κ : Type} {key : ρ → Option κ} (brought : ρ → Prop)
    (table : Table key) : Extends brought table table :=
  ⟨[], (List.append_nil _).symm, fun _ member => nomatch member⟩

theorem extends_insertAll {ρ κ : Type} [DecidableEq κ] {key : ρ → Option κ}
    {brought : ρ → Prop} (table : Table key) {rows : List ρ}
    (own : ∀ row ∈ rows, brought row) :
    Extends brought table (table.insertAll rows) := by
  rcases table.rows_insertAll rows with ⟨added, within, appended⟩
  exact ⟨added, appended, fun row member => own row (within.subset member)⟩

/-- A message appends to the tables of tags and images what it brings. -/
theorem side_of_carriesOut {request : Request} {state : State}
    {after : Tables} (carried : CarriesOut request state after) :
    (∀ kind, Extends (· ∈ broughtTags kind request)
        (state.tables.tags kind) (after.tags kind)) ∧
      Extends (· ∈ broughtImages request)
        state.tables.images after.images := by
  cases carried with
  | nothing asked same =>
      exact same ▸ ⟨fun kind => .refl _ _, .refl _ _⟩
  | call call own tables =>
      subst own tables
      have leads (change : Change) (member : change ∈ performed call state) :
          LeadsTo (requestOf call) change :=
        leadsTo_changes call state.tables
          ((performed_begins call state).subset member)
      rw [tables_perform, attemptAll_images]
      constructor
      · intro kind
        rw [attemptAll_tags]
        apply extends_insertAll
        intro row member
        rcases List.mem_flatMap.mp member with ⟨change, executed, brings⟩
        exact tags_of_leadsTo (leads change executed) brings
      · apply extends_insertAll
        intro row member
        rcases List.mem_flatMap.mp member with ⟨change, executed, brings⟩
        exact images_of_leadsTo (leads change executed) brings

/-! ## Where rows stem from -/

/-- What a message can do to a row of PRODUCTS_DATA that stays. -/
def touch (row : ProductRow) : Request → ProductRow
  | .insert product => row.increment product.number product.name
  | .remove code => row.decrement code
  | .nothing => row

/--
Every row was brought by one of the requests, and a row of a product has since
been touched by some of the later ones, by each at most once and in their order.
-/
structure Stems (requests : List Request) (tables : Tables) : Prop where
  products : ∀ row ∈ tables.products, ∃ product origin later,
    (.insert product :: later).Sublist requests ∧
      ProductRow.ofProduct product = some origin ∧
        later.foldl touch origin = row
  tags : ∀ kind, ∀ row ∈ tables.tags kind,
    ∃ request ∈ requests, row ∈ broughtTags kind request
  images : ∀ row ∈ tables.images,
    ∃ request ∈ requests, row ∈ broughtImages request

theorem stems_fresh : Stems [] .fresh where
  products row member := absurd member (Table.not_mem_empty row)
  tags _ row member := absurd member (Table.not_mem_empty row)
  images row member := absurd member (Table.not_mem_empty row)

theorem Stems.mono {requests more : List Request} {tables : Tables}
    (within : requests.Sublist more) (stems : Stems requests tables) :
    Stems more tables where
  products row member := by
    rcases stems.products row member with
      ⟨product, origin, later, isAsked, made, reached⟩
    exact ⟨product, origin, later, isAsked.trans within, made, reached⟩
  tags kind row member := by
    rcases stems.tags kind row member with ⟨request, isAsked, brings⟩
    exact ⟨request, within.subset isAsked, brings⟩
  images row member := by
    rcases stems.images row member with ⟨request, isAsked, brings⟩
    exact ⟨request, within.subset isAsked, brings⟩

/-- A row behind a message was there, perhaps touched by it, or is its own. -/
theorem mem_productsStep {request : Request}
    {before after : Table ProductRow.key}
    (stepped : ProductsStep before request after) {row : ProductRow}
    (present : row ∈ after) :
    (∃ stored ∈ before, row = stored ∨ row = touch stored request) ∨
      ∃ product, request = .insert product ∧
        ProductRow.ofProduct product = some row := by
  cases stepped with
  | same => exact .inl ⟨row, present, .inl rfl⟩
  | @inserted product own _ made stored =>
      rcases (Table.mem_of_insert stored).mp present with old | rfl
      · exact .inl ⟨row, old, .inl rfl⟩
      · exact .inr ⟨product, rfl, made⟩
  | increased product =>
      rcases Table.mem_update.mp present with ⟨stored, old, touched⟩
      exact .inl ⟨stored, old, .inr touched.symm⟩
  | decreased code =>
      rcases Table.mem_update.mp present with ⟨stored, old, touched⟩
      exact .inl ⟨stored, old, .inr touched.symm⟩
  | cleaned code =>
      rcases Table.mem_update.mp (Table.mem_delete.mp present).1 with
        ⟨stored, old, touched⟩
      exact .inl ⟨stored, old, .inr touched.symm⟩

theorem stems_step {requests : List Request} {request : Request}
    {state : State} {after : Tables} (stems : Stems requests state.tables)
    (carried : CarriesOut request state after) :
    Stems (requests ++ [request]) after := by
  rcases side_of_carriesOut carried with ⟨tags, images⟩
  have newest : request ∈ requests ++ [request] := by simp
  refine { products := ?_, tags := ?_, images := ?_ }
  · intro row present
    rcases mem_productsStep (products_of_carriesOut carried) present with
      ⟨stored, old, how⟩ | ⟨product, rfl, made⟩
    · rcases stems.products stored old with
        ⟨product, origin, later, within, made, reached⟩
      rcases how with rfl | rfl
      · exact ⟨product, origin, later,
          within.trans (List.sublist_append_left _ _), made, reached⟩
      · refine ⟨product, origin, later ++ [request],
          within.append (List.Sublist.refl [request]), made, ?_⟩
        rw [List.foldl_append, reached]
        rfl
    · exact ⟨product, row, [], List.sublist_append_right _ _, made, rfl⟩
  · intro kind row present
    rcases tags kind with ⟨added, appended, brought⟩
    rw [← Table.mem_rows, appended, List.mem_append] at present
    rcases present with old | new
    · rcases stems.tags kind row old with ⟨earlier, asked, brings⟩
      exact ⟨earlier, List.mem_append_left _ asked, brings⟩
    · exact ⟨request, newest, brought row new⟩
  · intro row present
    rcases images with ⟨added, appended, brought⟩
    rw [← Table.mem_rows, appended, List.mem_append] at present
    rcases present with old | new
    · rcases stems.images row old with ⟨earlier, asked, brings⟩
      exact ⟨earlier, List.mem_append_left _ asked, brings⟩
    · exact ⟨request, newest, brought row new⟩

/-- The requests of the messages that the daemon has handled. -/
def requests (internalHeader : CString) (parse : CString → Option Json)
    (deliveries : List Delivery) : List Request :=
  deliveries.filterMap fun delivery =>
    requested internalHeader parse delivery.msg

theorem stems_run {internalHeader : CString} {parse : CString → Option Json}
    {deliveries : List Delivery} {state final : State} {past : List Request}
    (stems : Stems past state.tables)
    (reached :
      run (handle internalHeader parse) state deliveries = some final) :
    Stems (past ++ requests internalHeader parse deliveries) final.tables := by
  induction deliveries generalizing state past with
  | nil =>
      cases reached
      simpa [requests] using stems
  | cons delivery rest ih =>
      rcases (run_cons _ _ _ _ _).mp reached with ⟨next, handled, continued⟩
      rcases handle_carriesOut handled with ⟨request, asked, carried⟩
      have later := ih (stems_step stems carried) continued
      rw [List.append_assoc] at later
      rwa [requests, List.filterMap_cons, asked]

/--
Whatever calls to SQLite fail, the tables never hold a row that no message
brought, and a row of a product differs from the one that was brought only by
what later messages asked for.
-/
theorem tables_stem_from_messages
    (internalHeader : CString) (parse : CString → Option Json)
    (script : List Bool) (deliveries : List Delivery) {final : State}
    (reached :
      run (handle internalHeader parse) { State.start with script }
        deliveries = some final) :
    Stems (requests internalHeader parse deliveries) final.tables :=
  stems_run stems_fresh reached

/-- An insertion that fails at its first tag has stored its row. -/
theorem milk_stored {after : Tables}
    (carried : CarriesOut (.insert (milk 1))
      { State.start with script := [false, false, false, false, true] }
      after) :
    ∃ row, row ∈ after.products := by
  have accepted : Accepts .fresh (milk 1) := accepts_fresh (milk_complete 1)
  cases carried with
  | nothing asked same => cases asked
  | call call own tables =>
      cases call with
      | dbRemove other => cases own
      | dbInsert other =>
          obtain rfl : other = milk 1 := Request.insert.inj own
          have goes : ¬ Fails [false, false, false, false, true]
              (callCount (dataChanges (milk 1) .fresh)) := by
            rw [dataChanges_of_accepts accepted]
            decide
          rcases mem_store_of_accepts accepted with ⟨row, present, _⟩
          rw [store_products] at present
          refine ⟨row, ?_⟩
          rw [tables, products_dbInsert]
          exact (if_neg goes).symm ▸ present

/-- A row that is stored is there behind another insertion, whatever fails. -/
theorem stored_of_insertion {before after : Table ProductRow.key}
    {product : Product}
    (stepped : ProductsStep before (.insert product) after)
    (stored : ∃ row, row ∈ before) : ∃ row, row ∈ after := by
  rcases stored with ⟨row, present⟩
  cases stepped with
  | same => exact ⟨row, present⟩
  | inserted made inserted =>
      exact ⟨row, (Table.mem_of_insert inserted).mpr (.inl present)⟩
  | increased =>
      exact ⟨_, Table.mem_update.mpr ⟨row, present, rfl⟩⟩

/-- The insertion of the milk stops at a tag, and another one follows. -/
theorem tables_stem_from_messages_milk :
    ∃ final,
      run (handle (.lit "!#+") (Json.parse Json.standardRaw))
          { State.start with script := [false, false, false, false, true] }
          [milkDelivery 1, milkDelivery 2] = some final ∧
        (∃ row, row ∈ final.tables.products) ∧
          Stems
            (requests (.lit "!#+") (Json.parse Json.standardRaw)
              [milkDelivery 1, milkDelivery 2])
            final.tables := by
  rcases exists_handled
      { State.start with script := [false, false, false, false, true] }
      (milk_requested 1) with
    ⟨stored, inserts⟩
  rcases exists_handled stored (milk_requested 2) with ⟨final, increases⟩
  rcases handle_carriesOut inserts with ⟨first, isFirst, begins⟩
  rcases handle_carriesOut increases with ⟨second, isSecond, ends⟩
  cases (milk_requested 1).symm.trans isFirst
  cases (milk_requested 2).symm.trans isSecond
  have reached :
      run (handle (.lit "!#+") (Json.parse Json.standardRaw))
        { State.start with script := [false, false, false, false, true] }
        [milkDelivery 1, milkDelivery 2] = some final :=
    (run_cons _ _ _ _ _).mpr
      ⟨stored, inserts, (run_cons _ _ _ _ _).mpr ⟨final, increases, rfl⟩⟩
  exact ⟨final, reached,
    stored_of_insertion (products_of_carriesOut ends) (milk_stored begins),
    tables_stem_from_messages _ _ _ _ reached⟩

/-! ## How long rows stay -/

/-- A row of PRODUCTS_DATA that differs in ELEMENTS at most. -/
def SameColumns (origin row : ProductRow) : Prop :=
  row = { origin with elements := row.elements }

theorem SameColumns.trans {first second third : ProductRow}
    (left : SameColumns first second) (right : SameColumns second third) :
    SameColumns first third := by
  unfold SameColumns at left right ⊢
  rw [left] at right
  exact right

theorem sameColumns_increment (number : Int32) (name : Option CString)
    (row : ProductRow) : SameColumns row (row.increment number name) := by
  unfold SameColumns ProductRow.increment
  split
  · rfl
  · rfl

theorem sameColumns_decrement (code : Option CString) (row : ProductRow) :
    SameColumns row (row.decrement code) := by
  unfold SameColumns ProductRow.decrement
  split
  · rfl
  · rfl

/-- The row is in the table, perhaps with another number. -/
def Kept (row : ProductRow) (table : Table ProductRow.key) : Prop :=
  ∃ kept ∈ table, SameColumns row kept

/-- A removal that leaves the row, whose number it may have decreased, at 0. -/
def TakesLast (row : ProductRow) (request : Request) : Prop :=
  ∃ code, request = .remove code ∧ (row.decrement code).elements.value = 0

theorem kept_or_taken {request : Request}
    {before after : Table ProductRow.key}
    (stepped : ProductsStep before request after) {row : ProductRow}
    (present : row ∈ before) :
    Kept row after ∨ TakesLast row request := by
  cases stepped with
  | same => exact .inl ⟨row, present, rfl⟩
  | inserted made stored =>
      exact .inl ⟨row, (Table.mem_of_insert stored).mpr (.inl present), rfl⟩
  | increased product =>
      exact .inl ⟨_, Table.mem_update.mpr ⟨row, present, rfl⟩,
        sameColumns_increment product.number product.name row⟩
  | decreased code =>
      exact .inl ⟨_, Table.mem_update.mpr ⟨row, present, rfl⟩,
        sameColumns_decrement code row⟩
  | cleaned code =>
      by_cases zero : (row.decrement code).elements.value = 0
      · exact .inr ⟨code, rfl, zero⟩
      · exact .inl ⟨_,
          Table.mem_delete.mpr
            ⟨Table.mem_update.mpr ⟨row, present, rfl⟩, by simpa using zero⟩,
          sameColumns_decrement code row⟩

section Stay

variable {internalHeader : CString} {parse : CString → Option Json}

/-- One of the messages is a removal that takes the last piece of the row. -/
def Taken (internalHeader : CString) (parse : CString → Option Json)
    (row : ProductRow) (state : State) (deliveries : List Delivery) : Prop :=
  ∃ past delivery later, deliveries = past ++ delivery :: later ∧
    ∃ between, run (handle internalHeader parse) state past = some between ∧
      ∃ kept ∈ between.tables.products, SameColumns row kept ∧
        ∃ request,
          requested internalHeader parse delivery.msg = some request ∧
            TakesLast kept request

theorem kept_or_taken_run {deliveries : List Delivery} {state final : State}
    (reached :
      run (handle internalHeader parse) state deliveries = some final)
    {row : ProductRow} (present : row ∈ state.tables.products) :
    Kept row final.tables.products ∨
      Taken internalHeader parse row state deliveries := by
  induction deliveries generalizing state row with
  | nil =>
      cases reached
      exact .inl ⟨row, present, rfl⟩
  | cons delivery rest ih =>
      rcases (run_cons _ _ _ _ _).mp reached with ⟨next, handled, continued⟩
      rcases handle_carriesOut handled with ⟨request, asked, carried⟩
      rcases kept_or_taken (products_of_carriesOut carried) present with
        ⟨kept, stays, same⟩ | taken
      · rcases ih continued stays with
          ⟨last, lasts, later⟩ | ⟨past, taking, behind, rfl, between, ran, rows⟩
        · exact .inl ⟨last, lasts, same.trans later⟩
        · rcases rows with ⟨found, isThere, columns, request, asks, takes⟩
          exact .inr ⟨delivery :: past, taking, behind, rfl, between,
            (run_cons _ _ _ _ _).mpr ⟨next, handled, ran⟩, found, isThere,
            same.trans columns, request, asks, takes⟩
      · exact .inr ⟨[], delivery, rest, rfl, state, rfl, row, present, rfl,
          request, asked, taken⟩

theorem side_stays {deliveries : List Delivery} {state final : State}
    (reached :
      run (handle internalHeader parse) state deliveries = some final) :
    (∀ kind,
        (state.tables.tags kind).rows <+: (final.tables.tags kind).rows) ∧
      state.tables.images.rows <+: final.tables.images.rows := by
  apply run_invariant (fun reached : State =>
    (∀ kind,
        (state.tables.tags kind).rows <+: (reached.tables.tags kind).rows) ∧
      state.tables.images.rows <+: reached.tables.images.rows) _ _ reached
  · rintro between delivery next ⟨tags, images⟩ handled
    rcases handle_carriesOut handled with ⟨request, _, carried⟩
    rcases side_of_carriesOut carried with ⟨moreTags, added, appended, _⟩
    refine ⟨fun kind => ?_, images.trans ⟨added, appended.symm⟩⟩
    rcases moreTags kind with ⟨addedTags, appendedTags, _⟩
    exact (tags kind).trans ⟨addedTags, appendedTags.symm⟩
  · exact ⟨fun _ => List.prefix_rfl, List.prefix_rfl⟩

/--
Whatever calls to SQLite fail, rows of tags and images stay where they are, and
a row of a product keeps all of its columns but ELEMENTS until a removal takes
its last piece.
-/
theorem rows_stay {deliveries : List Delivery} {state final : State}
    (reached :
      run (handle internalHeader parse) state deliveries = some final) :
    ((∀ kind,
        (state.tables.tags kind).rows <+: (final.tables.tags kind).rows) ∧
      state.tables.images.rows <+: final.tables.images.rows) ∧
      ∀ row ∈ state.tables.products,
        Kept row final.tables.products ∨
          Taken internalHeader parse row state deliveries :=
  ⟨side_stays reached, fun _ present => kept_or_taken_run reached present⟩

end Stay

/-- The last carton of milk, at a removal that fails and one that does not. -/
theorem rows_stay_milk :
    ∃ final,
      run (handle (.lit "!#+") (Json.parse Json.standardRaw))
          { stocked with script := [true] } [milkRemoval, milkRemoval] =
          some final ∧
        ((∀ kind, (stocked.tables.tags kind).rows <+:
            (final.tables.tags kind).rows) ∧
          stocked.tables.images.rows <+: final.tables.images.rows) ∧
          ∀ row ∈ stocked.tables.products,
            Kept row final.tables.products ∨
              Taken (.lit "!#+") (Json.parse Json.standardRaw) row
                { stocked with script := [true] }
                [milkRemoval, milkRemoval] := by
  rcases exists_handled { stocked with script := [true] }
      milkRemoval_requested with
    ⟨failed, first⟩
  rcases exists_handled failed milkRemoval_requested with ⟨final, second⟩
  have reached :
      run (handle (.lit "!#+") (Json.parse Json.standardRaw))
        { stocked with script := [true] } [milkRemoval, milkRemoval] =
          some final :=
    (run_cons _ _ _ _ _).mpr
      ⟨failed, first, (run_cons _ _ _ _ _).mpr ⟨final, second, rfl⟩⟩
  exact ⟨final, reached, rows_stay reached⟩

end SmartFridge.TablesHistory
