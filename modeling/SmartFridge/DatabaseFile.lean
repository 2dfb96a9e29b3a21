import SmartFridge.HandleHistory
import SmartFridge.TablesHistory

/-!
# The database file

`create_db` runs at every start of the daemon, on the file that earlier
processes have left.  It creates the tables that are missing in one transaction,
which a failure leaves open and the end of the process rolls back.
-/

namespace SmartFridge.DatabaseFile

open SmartFridge.Library
open SmartFridge.Library.Runs
open SmartFridge.ProductDecoder
open SmartFridge.Schema
open SmartFridge.Daemon
open SmartFridge.HandleHistory (CreateCalls Opening SchemaStatement Stepped
  databaseSchema)
open SmartFridge.ReaderRequests
open SmartFridge.TablesHistory

/-! ## create_db -/

/-- The tables that are in a database file. -/
structure Catalog where
  products : Option (Table ProductRow.key)
  tags : TagTable → Option (Table TagRow.key)
  images : Option (Table ImageRow.key)

/-- A new file. -/
def Catalog.new : Catalog :=
  { products := none
    tags := fun _ => none
    images := none }

/-- A file with all the tables. -/
def Catalog.full (tables : Tables) : Catalog :=
  { products := some tables.products
    tags := fun kind => some (tables.tags kind)
    images := some tables.images }

/-- CREATE TABLE IF NOT EXISTS. -/
def Catalog.create (catalog : Catalog) : SchemaStatement → Catalog
  | .createProductsData =>
      { catalog with products := catalog.products.or (some .empty) }
  | .createTags kind =>
      { catalog with
        tags :=
          Function.update catalog.tags kind
            ((catalog.tags kind).or (some .empty)) }
  | .createImages =>
      { catalog with images := catalog.images.or (some .empty) }
  | .beginTransaction | .endTransaction => catalog

/-- The file on the disk, and as the connection of `create_db` sees it. -/
structure Session where
  committed : Catalog
  seen : Catalog
  inTransaction : Bool

/-- The session of a connection that has just been opened. -/
def Session.start (catalog : Catalog) : Session :=
  { committed := catalog, seen := catalog, inTransaction := false }

/-- A statement that is done; outside a transaction it commits at once. -/
def Session.execute (session : Session) : SchemaStatement → Session
  | .beginTransaction => { session with inTransaction := true }
  | .endTransaction =>
      { committed := session.seen
        seen := session.seen
        inTransaction := false }
  | statement =>
      { session with
        seen := session.seen.create statement
        committed :=
          if session.inTransaction then
            session.committed
          else
            session.seen.create statement }

/-- The body of the loop of `create_db`. -/
def createStatement (calls : CreateCalls) (session : Session)
    (statement : SchemaStatement) : Except Session Session :=
  if calls.prepareV2 statement then
    match calls.step statement with
    | .misuse | .row => .ok session
    | .done => .ok (session.execute statement)
    | .other => .error session
  else
    .error session

/-- `create_db`, and the file that a later process finds. -/
def createDb (calls : CreateCalls) (catalog : Catalog) : Int × Catalog :=
  match calls.openV2 with
  | .failed _ => (1, catalog)
  | .opened =>
      match databaseSchema.foldlM (createStatement calls)
          (Session.start catalog) with
      | .error session => (1, session.committed)
      | .ok session => (0, session.committed)

/-- The file with the missing tables. -/
def Catalog.complete (catalog : Catalog) : Catalog :=
  { products := catalog.products.or (some .empty)
    tags := fun kind => (catalog.tags kind).or (some .empty)
    images := catalog.images.or (some .empty) }

/-- SQLite does a statement without rows or reports an error. -/
def Answers (calls : CreateCalls) : Prop :=
  ∀ statement, calls.step statement = .done ∨ calls.step statement = .other

/-- A statement is prepared and done. -/
def Done (calls : CreateCalls) (statement : SchemaStatement) : Prop :=
  calls.prepareV2 statement = true ∧ calls.step statement = .done

theorem createStatement_cases {calls : CreateCalls} (answers : Answers calls)
    (session : Session) (statement : SchemaStatement) :
    (Done calls statement ∧
        createStatement calls session statement =
          .ok (session.execute statement)) ∨
      ¬ Done calls statement ∧
        createStatement calls session statement = .error session := by
  unfold createStatement Done
  by_cases prepared : calls.prepareV2 statement = true
  · rw [if_pos prepared]
    rcases answers statement with done | fails
    · simp [prepared, done]
    · simp [fails]
  · rw [if_neg prepared]
    exact .inr ⟨fun done => prepared done.1, rfl⟩

/-- Statements that create tables, inside a transaction. -/
theorem createLoop_cases {calls : CreateCalls} (answers : Answers calls)
    {session : Session} (inside : session.inTransaction = true)
    {creations : List SchemaStatement}
    (creates : ∀ statement ∈ creations,
      statement ≠ .beginTransaction ∧ statement ≠ .endTransaction) :
    ((¬ ∀ statement ∈ creations, Done calls statement) ∧
        ∃ next,
          creations.foldlM (createStatement calls) session = .error next ∧
            next.committed = session.committed) ∨
      (∀ statement ∈ creations, Done calls statement) ∧
        creations.foldlM (createStatement calls) session =
          .ok { session with
            seen := creations.foldl Catalog.create session.seen } := by
  induction creations generalizing session with
  | nil => exact .inr ⟨List.forall_mem_nil _, rfl⟩
  | cons statement rest ih =>
      rw [List.forall_mem_cons] at creates
      rw [List.foldlM_cons, List.foldl_cons]
      rcases createStatement_cases answers session statement with
        ⟨done, ran⟩ | ⟨fails, ran⟩
      · have executed : session.execute statement =
            { session with seen := session.seen.create statement } := by
          cases statement with
          | beginTransaction => exact absurd rfl creates.1.1
          | endTransaction => exact absurd rfl creates.1.2
          | createProductsData => simp [Session.execute, inside]
          | createTags kind => simp [Session.execute, inside]
          | createImages => simp [Session.execute, inside]
        have still :
            ({ session with
              seen := session.seen.create statement } :
                Session).inTransaction = true := inside
        rw [ran, executed]
        rcases ih still creates.2 with
          ⟨stops, next, fails, same⟩ | ⟨others, ends⟩
        · exact .inl
            ⟨fun all => stops (List.forall_mem_cons.mp all).2, next, fails,
              same⟩
        · exact .inr ⟨List.forall_mem_cons.mpr ⟨done, others⟩, ends⟩
      · rw [ran]
        exact .inl
          ⟨fun all => fails (List.forall_mem_cons.mp all).1, session, rfl, rfl⟩

/-- The statements of the schema between BEGIN and END. -/
def creations : List SchemaStatement :=
  [.createProductsData, .createTags .ingredients, .createTags .allergens,
    .createTags .additives, .createImages]

theorem foldl_creations (catalog : Catalog) :
    creations.foldl Catalog.create catalog = catalog.complete := by
  simp only [creations, List.foldl_cons, List.foldl_nil, Catalog.create,
    Catalog.complete, Catalog.mk.injEq, true_and, and_true]
  ext kind : 1
  cases kind with
  | ingredients => simp [Function.update]
  | allergens => simp [Function.update]
  | additives => simp [Function.update]

/-- All the calls of `create_db` succeed. -/
def Succeeds (calls : CreateCalls) : Prop :=
  calls.openV2 = .opened ∧ ∀ statement ∈ databaseSchema, Done calls statement

theorem createDb_cases {calls : CreateCalls} (answers : Answers calls)
    (catalog : Catalog) :
    (Succeeds calls ∧ createDb calls catalog = (0, catalog.complete)) ∨
      ¬ Succeeds calls ∧ createDb calls catalog = (1, catalog) := by
  have schema : databaseSchema =
      .beginTransaction :: (creations ++ [.endTransaction]) := rfl
  unfold createDb Succeeds
  cases opening : calls.openV2 with
  | failed handle =>
      refine .inr ⟨?_, rfl⟩
      rintro ⟨opened, _⟩
      cases opened
  | opened =>
      dsimp only
      rw [schema, List.foldlM_cons, List.forall_mem_cons,
        List.forall_mem_append, List.forall_mem_singleton]
      rcases createStatement_cases answers (Session.start catalog)
          .beginTransaction with
        ⟨began, ran⟩ | ⟨fails, ran⟩
      · have inside : ((Session.start catalog).execute
            .beginTransaction).inTransaction = true := rfl
        have creates : ∀ statement ∈ creations,
            statement ≠ .beginTransaction ∧ statement ≠ .endTransaction := by
          decide
        simp only [ran, bind, Except.bind, List.foldlM_append]
        rcases createLoop_cases answers inside creates with
          ⟨stops, next, ended, same⟩ | ⟨created, loop⟩
        · rw [ended]
          exact .inr
            ⟨fun succeeds => stops succeeds.2.2.1, congrArg (Prod.mk 1) same⟩
        · rw [loop, foldl_creations]
          simp only [List.foldlM_cons, List.foldlM_nil]
          rcases createStatement_cases answers
              { (Session.start catalog).execute .beginTransaction with
                seen := catalog.complete } .endTransaction with
            ⟨committed, ends⟩ | ⟨stops, ends⟩
          · refine .inl ⟨⟨trivial, began, created, committed⟩, ?_⟩
            simp only [Session.execute, Session.start] at ends ⊢
            rw [ends]
            rfl
          · refine .inr ⟨fun succeeds => stops succeeds.2.2.2, ?_⟩
            simp only [Session.execute, Session.start] at ends ⊢
            rw [ends]
            rfl
      · rw [ran]
        exact .inr ⟨fun succeeds => fails succeeds.2.1, rfl⟩

/-- The other model of `create_db`, which follows the handles, returns this. -/
theorem createDb_returns {calls : CreateCalls} (answers : Answers calls)
    (catalog : Catalog) (world : HandleHistory.World) :
    (createDb calls catalog).1 = (HandleHistory.createDb calls world).1 := by
  have passes (statement : SchemaStatement) :
      HandleHistory.Passes calls statement ↔ Done calls statement := by
    unfold HandleHistory.Passes Done
    rcases answers statement with done | fails
    · simp [done]
    · simp [fails]
  unfold HandleHistory.createDb
  rcases createDb_cases answers catalog with
    ⟨⟨opening, done⟩, made⟩ | ⟨fails, made⟩
  · rw [made, opening]
    dsimp only
    rcases HandleHistory.createLoop_cases calls databaseSchema
        (HandleHistory.connect_ledger world.daemon) with
      ⟨stops, _⟩ | ⟨_, next, _, ran, _⟩
    · exact absurd (fun statement member =>
        (passes statement).mpr (done statement member)) stops
    · rw [ran]
  · rw [made]
    cases opening : calls.openV2 with
    | failed handle => rfl
    | opened =>
        dsimp only
        rcases HandleHistory.createLoop_cases calls databaseSchema
            (HandleHistory.connect_ledger world.daemon) with
          ⟨_, next, _, ran, _⟩ | ⟨all, _⟩
        · rw [ran]
        · exact absurd ⟨opening, fun statement member =>
            (passes statement).mp (all statement member)⟩ fails

/--
`create_db` adds all the tables that are missing or none: it does the former
exactly if it returns 0, and never touches a table that is there.
-/
theorem create_db_atomic {calls : CreateCalls} (answers : Answers calls)
    (catalog : Catalog) :
    ((createDb calls catalog).1 = 0 ↔ Succeeds calls) ∧
      (createDb calls catalog).2 =
        if (createDb calls catalog).1 = 0 then catalog.complete
        else catalog := by
  rcases createDb_cases answers catalog with
    ⟨succeeds, made⟩ | ⟨fails, made⟩
  · rw [made]
    exact ⟨iff_of_true rfl succeeds, rfl⟩
  · rw [made]
    exact ⟨iff_of_false one_ne_zero fails, rfl⟩

/-- The creation of the images fails, and the tables before it are lost. -/
def failsLate : CreateCalls :=
  { openV2 := .opened
    prepareV2 := fun _ => true
    step := fun statement =>
      if statement = .createImages then .other else .done }

theorem failsLate_answers : Answers failsLate := by
  intro statement
  by_cases images : statement = .createImages
  · exact .inr (if_pos images)
  · exact .inl (if_neg images)

theorem create_db_atomic_failsLate :
    ((createDb failsLate .new).1 = 0 ↔ Succeeds failsLate) ∧
      (createDb failsLate .new).2 =
        if (createDb failsLate .new).1 = 0 then Catalog.new.complete
        else .new :=
  create_db_atomic failsLate_answers .new

/-! ## The life of the file -/

/-- The tables of a file that has them all. -/
def Catalog.tables (catalog : Catalog) : Option Tables := do
  let products ← catalog.products
  let ingredients ← catalog.tags .ingredients
  let allergens ← catalog.tags .allergens
  let additives ← catalog.tags .additives
  let images ← catalog.images
  some
    { products
      tags := fun
        | .ingredients => ingredients
        | .allergens => allergens
        | .additives => additives
      images }

@[simp]
theorem tables_new : Catalog.new.tables = none :=
  rfl

@[simp]
theorem tables_full (tables : Tables) :
    (Catalog.full tables).tables = some tables := by
  have tags : (fun
      | .ingredients => tables.tags .ingredients
      | .allergens => tables.tags .allergens
      | .additives => tables.tags .additives) = tables.tags := by
    ext kind : 1
    cases kind with
    | ingredients => rfl
    | allergens => rfl
    | additives => rfl
  show some { tables with tags := _ } = some tables
  rw [tags]

theorem complete_new : Catalog.new.complete = .full .fresh :=
  rfl

theorem complete_full (tables : Tables) :
    (Catalog.full tables).complete = .full tables :=
  rfl

/-- What happens to the file: a daemon starts, or handles a message. -/
inductive Event where
  | start (calls : CreateCalls)
  | message (script : List Bool) (delivery : Delivery)

section Life

variable (internalHeader : CString) (parse : CString → Option Json)

/--
The file after an event.  Without tables, the first query of either operation
cannot be prepared; a fault ends the daemon before its first query.  A file with
only some of the tables is none that `create_db` makes, and has no step here.
-/
def step (catalog : Catalog) : Event → Option Catalog
  | .start calls => some (createDb calls catalog).2
  | .message script delivery =>
      match catalog.tables with
      | some tables =>
          match handle internalHeader parse
              { State.start with tables, script } delivery with
          | some next => some (.full next.tables)
          | none => some catalog
      | none => if catalog.products.isNone then some catalog else none

/-- The calls of `create_db` behave. -/
def Event.Behaves : Event → Prop
  | .start calls => Answers calls
  | .message _ _ => True

/-- The requests of the messages that are handled. -/
def asked (events : List Event) : List Request :=
  events.filterMap fun
    | .start _ => none
    | .message _ delivery => requested internalHeader parse delivery.msg

variable {internalHeader parse}

/-- An event leaves the tables of a file, or is a message that is carried out. -/
theorem step_full {event : Event} (behaves : event.Behaves) (tables : Tables) :
    ∃ next, step internalHeader parse (.full tables) event =
        some (.full next) ∧
      (next = tables ∨ ∃ script delivery request,
        event = .message script delivery ∧
          requested internalHeader parse delivery.msg = some request ∧
            CarriesOut request { State.start with tables, script } next) := by
  cases event with
  | start calls =>
      refine ⟨tables, ?_, .inl rfl⟩
      rcases createDb_cases behaves (.full tables) with
        ⟨_, made⟩ | ⟨_, made⟩
      · rw [step, made, complete_full]
      · rw [step, made]
  | message script delivery =>
      rw [step, tables_full]
      dsimp only
      cases handled : handle internalHeader parse
          { State.start with tables, script } delivery with
      | none => exact ⟨tables, rfl, .inl rfl⟩
      | some next =>
          rcases handle_carriesOut handled with ⟨request, isAsked, carried⟩
          exact ⟨next.tables, rfl,
            .inr ⟨script, delivery, request, rfl, isAsked, carried⟩⟩

/-- A new file stays new, or gets all the tables at once. -/
theorem step_new {event : Event} (behaves : event.Behaves) :
    step internalHeader parse .new event = some .new ∨
      step internalHeader parse .new event = some (.full .fresh) := by
  cases event with
  | start calls =>
      rcases createDb_cases behaves .new with ⟨_, made⟩ | ⟨_, made⟩
      · exact .inr (by rw [step, made, complete_new])
      · exact .inl (by rw [step, made])
  | message script delivery => exact .inl rfl

/-- The file is new, or its tables stem from some requests. -/
def Sound (requests : List Request) (catalog : Catalog) : Prop :=
  catalog = .new ∨
    ∃ tables, catalog = .full tables ∧ Stems requests tables

theorem sound_step {requests : List Request} {catalog : Catalog}
    (sound : Sound requests catalog) {event : Event}
    (behaves : event.Behaves) :
    ∃ next, step internalHeader parse catalog event = some next ∧
      Sound (requests ++ asked internalHeader parse [event]) next := by
  rcases sound with rfl | ⟨tables, rfl, stems⟩
  · rcases step_new behaves with same | created
    · exact ⟨.new, same, .inl rfl⟩
    · exact ⟨.full .fresh, created, .inr ⟨.fresh, rfl,
        stems_fresh.mono (List.nil_sublist _)⟩⟩
  · rcases step_full behaves tables with ⟨next, stepped, how⟩
    refine ⟨.full next, stepped, .inr ⟨next, rfl, ?_⟩⟩
    rcases how with rfl | ⟨script, delivery, request, rfl, isAsked, carried⟩
    · exact stems.mono (List.sublist_append_left _ _)
    · have one : asked internalHeader parse [.message script delivery] =
          [request] := by
        simp [asked, isAsked]
      rw [one]
      exact stems_step stems carried

theorem sound_run {events : List Event}
    (behave : ∀ event ∈ events, event.Behaves) {requests : List Request}
    {catalog : Catalog} (sound : Sound requests catalog) :
    ∃ final, run (step internalHeader parse) catalog events = some final ∧
      Sound (requests ++ asked internalHeader parse events) final := by
  induction events generalizing catalog requests with
  | nil => exact ⟨catalog, rfl, by simpa [asked] using sound⟩
  | cons event rest ih =>
      rw [List.forall_mem_cons] at behave
      rcases sound_step sound behave.1 with ⟨next, stepped, still⟩
      rcases ih behave.2 still with ⟨final, continued, ends⟩
      refine ⟨final, (run_cons _ _ _ _ _).mpr ⟨next, stepped, continued⟩, ?_⟩
      rwa [List.append_assoc, asked, asked, ← List.filterMap_append] at ends

/--
Whatever starts of the daemon fail, whatever calls to SQLite fail in its
messages and wherever it ends at a fault, a file that was new has no table or
all of them, and every row in them stems from the messages.
-/
theorem file_stems_from_messages {events : List Event}
    (behave : ∀ event ∈ events, event.Behaves) :
    ∃ final, run (step internalHeader parse) .new events = some final ∧
      Sound (asked internalHeader parse events) final := by
  have sound : Sound [] .new := .inl rfl
  simpa using sound_run behave sound

/-- A removal, in the course of some events, takes the last piece of the row. -/
def Lost (internalHeader : CString) (parse : CString → Option Json)
    (row : ProductRow) (tables : Tables) (events : List Event) : Prop :=
  ∃ past script delivery later,
    events = past ++ .message script delivery :: later ∧
      ∃ between,
        run (step internalHeader parse) (.full tables) past =
            some (.full between) ∧
          ∃ kept ∈ between.products, SameColumns row kept ∧
            ∃ request,
              requested internalHeader parse delivery.msg = some request ∧
                TakesLast kept request

/-- What one event does to the rows of a file with all the tables. -/
theorem rows_of_step {event : Event} {tables next : Tables}
    (how : next = tables ∨ ∃ script delivery request,
      event = .message script delivery ∧
        requested internalHeader parse delivery.msg = some request ∧
          CarriesOut request { State.start with tables, script } next) :
    ((∀ kind, (tables.tags kind).rows <+: (next.tags kind).rows) ∧
      tables.images.rows <+: next.images.rows) ∧
      ∀ row ∈ tables.products, Kept row next.products ∨
        ∃ script delivery request, event = .message script delivery ∧
          requested internalHeader parse delivery.msg = some request ∧
            TakesLast row request := by
  rcases how with rfl | ⟨script, delivery, request, rfl, isAsked, carried⟩
  · exact ⟨⟨fun _ => List.prefix_rfl, List.prefix_rfl⟩,
      fun row present => .inl ⟨row, present, rfl⟩⟩
  · rcases side_of_carriesOut carried with ⟨tags, added, appended, _⟩
    refine ⟨⟨fun kind => ?_, ⟨added, appended.symm⟩⟩, fun row present => ?_⟩
    · rcases tags kind with ⟨addedTags, appendedTags, _⟩
      exact ⟨addedTags, appendedTags.symm⟩
    · rcases kept_or_taken (products_of_carriesOut carried) present with
        kept | taken
      · exact .inl kept
      · exact .inr ⟨script, delivery, request, rfl, isAsked, taken⟩

/--
Over any such events, restarts included, a file keeps its tables; rows of tags
and images stay where they are, and a row of a product keeps all its columns but
ELEMENTS until a removal takes its last piece.
-/
theorem file_survives_restarts {events : List Event}
    (behave : ∀ event ∈ events, event.Behaves) (tables : Tables) :
    ∃ final,
      run (step internalHeader parse) (.full tables) events =
          some (.full final) ∧
        ((∀ kind, (tables.tags kind).rows <+: (final.tags kind).rows) ∧
          tables.images.rows <+: final.images.rows) ∧
          ∀ row ∈ tables.products,
            Kept row final.products ∨
              Lost internalHeader parse row tables events := by
  induction events generalizing tables with
  | nil =>
      exact ⟨tables, rfl, ⟨fun _ => List.prefix_rfl, List.prefix_rfl⟩,
        fun row present => .inl ⟨row, present, rfl⟩⟩
  | cons event rest ih =>
      rw [List.forall_mem_cons] at behave
      rcases step_full behave.1 tables with ⟨next, stepped, how⟩
      rcases rows_of_step how with ⟨⟨tags, images⟩, rows⟩
      rcases ih behave.2 next with
        ⟨final, continued, ⟨laterTags, laterImages⟩, laterRows⟩
      refine ⟨final, (run_cons _ _ _ _ _).mpr ⟨_, stepped, continued⟩,
        ⟨fun kind => (tags kind).trans (laterTags kind),
          images.trans laterImages⟩, fun row present => ?_⟩
      rcases rows row present with
        ⟨kept, stays, same⟩ | ⟨script, delivery, request, rfl, isAsked, taken⟩
      · rcases laterRows kept stays with
          ⟨last, lasts, columns⟩ |
            ⟨past, script, delivery, later, rfl, between, ran, found⟩
        · exact .inl ⟨last, lasts, same.trans columns⟩
        · rcases found with ⟨last, isThere, columns, takes⟩
          exact .inr ⟨event :: past, script, delivery, later, rfl, between,
            (run_cons _ _ _ _ _).mpr ⟨_, stepped, ran⟩, last, isThere,
            same.trans columns, takes⟩
      · exact .inr ⟨[], script, delivery, rest, rfl, tables, rfl, row, present,
          rfl, request, isAsked, taken⟩

end Life

/-- A failed start, a start, an insertion, a restart and a removal. -/
def fiveEvents : List Event :=
  [.start failsLate,
    .start { failsLate with step := fun _ => .done },
    .message [] (milkDelivery 1),
    .start failsLate,
    .message [false, true] milkRemoval]

theorem fiveEvents_behave : ∀ event ∈ fiveEvents, event.Behaves := by
  simp only [fiveEvents, List.forall_mem_cons]
  exact ⟨failsLate_answers, fun _ => .inl rfl, trivial, failsLate_answers,
    trivial, List.forall_mem_nil _⟩

theorem file_stems_from_messages_fiveEvents :
    ∃ final,
      run (step (.lit "!#+") (Json.parse Json.standardRaw)) .new fiveEvents =
          some final ∧
        Sound (asked (.lit "!#+") (Json.parse Json.standardRaw) fiveEvents)
          final :=
  file_stems_from_messages fiveEvents_behave

theorem file_survives_restarts_fiveEvents :
    ∃ final,
      run (step (.lit "!#+") (Json.parse Json.standardRaw))
          (.full Segmentation.stocked.tables) fiveEvents =
          some (.full final) ∧
        ((∀ kind, (Segmentation.stocked.tables.tags kind).rows <+:
            (final.tags kind).rows) ∧
          Segmentation.stocked.tables.images.rows <+: final.images.rows) ∧
          ∀ row ∈ Segmentation.stocked.tables.products,
            Kept row final.products ∨
              Lost (.lit "!#+") (Json.parse Json.standardRaw) row
                Segmentation.stocked.tables fiveEvents :=
  file_survives_restarts fiveEvents_behave Segmentation.stocked.tables

end SmartFridge.DatabaseFile
