import SmartFridge.Atomicity
import SmartFridge.Library.Exits

/-!
# The handles of an operation

`db_insert` and `db_remove` prepare and finalise one statement after another.
Both prepare END behind the label `end`, where nothing finalises it any more,
so that the connection is closed with this statement unless its preparation
fails.  A handle that a failed open leaves is closed like any other.
-/

namespace SmartFridge.Handles

open SmartFridge.Library
open SmartFridge.ProductDecoder
open SmartFridge.Schema
open SmartFridge.Daemon
open SmartFridge.Atomicity

/-! ## The fates that are met -/

/-- The calls made in between have not failed. -/
def Went (before after : State) : Prop :=
  ∃ past, before.script = past ++ after.script ∧ true ∉ past

/-- The last of the calls made in between was the first to fail. -/
def Halted (before after : State) : Prop :=
  ∃ past, before.script = past ++ true :: after.script ∧ true ∉ past

theorem Went.refl (state : State) : Went state state :=
  ⟨[], rfl, List.not_mem_nil⟩

theorem Went.proceed {before after : State} (went : Went before after)
    (goes : ¬ after.fails = true) : Went before after.proceed := by
  rcases went with ⟨past, fates, unfailed⟩
  cases next : after.script with
  | nil => exact ⟨past, by simpa [State.proceed, next] using fates, unfailed⟩
  | cons fate later =>
      have passes : fate = false := by
        simpa [State.fails, next] using goes
      refine ⟨past ++ [fate], ?_, by simp [unfailed, passes]⟩
      simpa [State.proceed, next] using fates

theorem Went.halted {before after : State} (went : Went before after)
    (fails : after.fails = true) : Halted before after.proceed := by
  rcases went with ⟨past, fates, unfailed⟩
  cases next : after.script with
  | nil => simp [State.fails, next] at fails
  | cons fate later =>
      have failed : fate = true := by
        simpa [State.fails, next] using fails
      exact ⟨past, by simpa [State.proceed, next, failed] using fates,
        unfailed⟩

/-- What is left of the fates behind the first failure. -/
theorem Halted.script {before after : State} (halted : Halted before after) :
    after.script = before.script.drop (before.script.idxOf true + 1) := by
  rcases halted with ⟨past, fates, unfailed⟩
  have index : before.script.idxOf true = past.length := by
    rw [fates, List.idxOf_append_of_notMem unfailed, List.idxOf_cons_self]
    rfl
  rw [index, fates, List.append_cons]
  exact (List.drop_left' (by simp)).symm

/-! ## The ledger -/

/-- The statements prepared in between. -/
def preparedSince (before after : State) : List Nat :=
  List.range' before.issued (after.issued - before.issued)

theorem preparedSince_self (state : State) : preparedSince state state = [] := by
  rw [preparedSince, Nat.sub_self, List.range'_zero]

theorem preparedSince_append {first second third : State}
    (early : first.issued ≤ second.issued)
    (late : second.issued ≤ third.issued) :
    preparedSince first second ++ preparedSince second third =
      preparedSince first third := by
  rcases Nat.exists_eq_add_of_le early with ⟨some, sooner⟩
  rcases Nat.exists_eq_add_of_le late with ⟨more, later⟩
  have both : third.issued - first.issued = some + more := by omega
  rw [preparedSince, preparedSince, preparedSince, both, later,
    Nat.add_sub_cancel_left, sooner, Nat.add_sub_cancel_left,
    List.range'_append_1]

/--
The ledger of an operation: the connection in use lies on those from before, and
of the statements prepared since only its own are not finalised.
-/
structure Ledger (before : State) (used : Connection) (state : State) :
    Prop where
  connections : state.connections = used :: before.connections
  zombies : state.zombies = before.zombies
  prepared : before.issued ≤ state.issued
  finalised : state.finalised ++ used.statements =
    before.finalised ++ preparedSince before state

/--
An operation leaves nothing: its connections are closed and none of them is a
zombie, and each statement prepared since was finalised once.
-/
structure Released (before after : State) : Prop where
  connections : after.connections = before.connections
  zombies : after.zombies = before.zombies
  prepared : before.issued ≤ after.issued
  finalised : after.finalised = before.finalised ++ preparedSince before after

theorem Released.refl (state : State) : Released state state where
  connections := rfl
  zombies := rfl
  prepared := le_refl _
  finalised := by rw [preparedSince_self, List.append_nil]

theorem Released.trans {first second third : State}
    (early : Released first second) (late : Released second third) :
    Released first third where
  connections := late.connections.trans early.connections
  zombies := late.zombies.trans early.zombies
  prepared := early.prepared.trans late.prepared
  finalised := by
    rw [late.finalised, early.finalised, List.append_assoc,
      preparedSince_append early.prepared late.prepared]

/-- What a ledger is about. -/
def handlesOf (state : State) :
    List Connection × List Connection × Nat × List Nat :=
  (state.connections, state.zombies, state.issued, state.finalised)

section Ledger

variable {before state : State} {used : Connection}
  {rollback : Option Tables}

theorem Ledger.congr {other : State} (ledger : Ledger before used state)
    (same : handlesOf other = handlesOf state) : Ledger before used other := by
  simp only [handlesOf, Prod.mk.injEq] at same
  rcases same with ⟨connections, zombies, issued, finalised⟩
  constructor
  · exact connections.trans ledger.connections
  · exact zombies.trans ledger.zombies
  · exact issued ▸ ledger.prepared
  · rw [finalised, preparedSince, issued]
    exact ledger.finalised

theorem Released.congr {other : State} (released : Released before state)
    (same : handlesOf other = handlesOf state) : Released before other := by
  simp only [handlesOf, Prod.mk.injEq] at same
  rcases same with ⟨connections, zombies, issued, finalised⟩
  constructor
  · exact connections.trans released.connections
  · exact zombies.trans released.zombies
  · exact issued ▸ released.prepared
  · rw [finalised, preparedSince, issued]
    exact released.finalised

/-- A statement is prepared on a connection without one. -/
theorem Ledger.register (ledger : Ledger before ⟨[], rollback⟩ state) :
    Ledger before ⟨[state.issued], rollback⟩
      { state.onConnection (.register state.issued) with
        issued := state.issued + 1 } where
  connections := by
    rw [State.onConnection, ledger.connections]
    rfl
  zombies := ledger.zombies
  prepared := Nat.le_succ_of_le ledger.prepared
  finalised := by
    have counted := ledger.finalised
    have one :
        preparedSince state { state with issued := state.issued + 1 } =
          [state.issued] := by
      rw [preparedSince, Nat.add_sub_cancel_left, List.range'_one]
    rw [List.append_nil] at counted
    rw [State.onConnection, counted, List.append_assoc, ← one]
    exact congrArg (before.finalised ++ ·)
      (preparedSince_append ledger.prepared (Nat.le_succ _))

/-- The only statement of a connection is finalised. -/
theorem Ledger.finalize {ident : Nat}
    (ledger : Ledger before ⟨[ident], rollback⟩ state) :
    Ledger before ⟨[], rollback⟩ (state.finalize ident) where
  connections := by
    simp only [State.finalize, State.onConnection, ledger.connections,
      Connection.release, List.erase_cons_head]
  zombies := ledger.zombies
  prepared := ledger.prepared
  finalised := by
    rw [List.append_nil]
    exact ledger.finalised

/-- A transaction is opened or ended. -/
theorem Ledger.transaction {statements : List Nat}
    (ledger : Ledger before ⟨statements, rollback⟩ state)
    (rollback : Option Tables) :
    Ledger before ⟨statements, rollback⟩
      (state.onConnection fun connection => { connection with rollback }) where
  connections := by
    rw [State.onConnection, ledger.connections]
  zombies := ledger.zombies
  prepared := ledger.prepared
  finalised := ledger.finalised

/-- A connection without statements is closed for good. -/
theorem Ledger.close (ledger : Ledger before ⟨[], rollback⟩ state) :
    Released before state.close := by
  have counted := ledger.finalised
  rw [List.append_nil] at counted
  rw [State.close, ledger.connections]
  exact ⟨rfl, ledger.zombies, ledger.prepared, counted⟩

/-- A connection with a statement stays behind as a zombie. -/
theorem Ledger.zombies_close (ledger : Ledger before used state)
    (holds : used.statements ≠ []) :
    state.close.zombies = used :: before.zombies := by
  rw [State.close, ledger.connections]
  dsimp only
  rw [if_neg holds, ledger.zombies]

end Ledger

/-! ## Frames -/

/-- The frame has an open database whose connection has no statement. -/
structure Idle (before : State) (frame : Frame) : Prop where
  db : frame.db = true
  ledger : Ledger before ⟨[], none⟩ frame.state

/-- And there is nothing in `stmt`. -/
structure Clear (before : State) (frame : Frame) : Prop
    extends Idle before frame where
  stmt : frame.stmt = none

/-- The connection of the frame has the statement in `stmt` and no other. -/
structure Holds (before : State) (handle : Handle) (frame : Frame) :
    Prop where
  db : frame.db = true
  stmt : frame.stmt = some handle
  ledger : Ledger before ⟨[handle.ident], none⟩ frame.state

/-- A statement with this query is held. -/
def Prepared (before : State) (statement : Statement) (frame : Frame) : Prop :=
  ∃ ident, Holds before { ident, statement } frame

/-- The label `end` finalises what is left. -/
inductive Leavable (before : State) (frame : Frame) : Prop
  | clear (clear : Clear before frame)
  | holds {handle : Handle} (holds : Holds before handle frame)

/-- A result that kept the ledger, at the normal end or at a first failure. -/
def Sound (before : State) (normal : Frame → Prop)
    (result : Except Frame Frame) : Prop :=
  Exits (fun frame => normal frame ∧ Went before frame.state)
    (fun frame => Leavable before frame ∧ Halted before frame.state) result

@[simp]
theorem finalize_script (frame : Frame) :
    frame.finalize.state.script = frame.state.script := by
  unfold Frame.finalize
  cases frame.stmt with
  | none => rfl
  | some handle => rfl

theorem Went.finalize {before : State} {frame : Frame}
    (went : Went before frame.state) : Went before frame.finalize.state := by
  rw [Went, finalize_script]
  exact went

theorem Holds.finalize {before : State} {handle : Handle} {frame : Frame}
    (holds : Holds before handle frame) : Idle before frame.finalize := by
  rw [Frame.finalize, holds.stmt]
  exact ⟨holds.db, holds.ledger.finalize⟩

theorem Leavable.finalize {before : State} {frame : Frame}
    (leavable : Leavable before frame) : Idle before frame.finalize := by
  cases leavable with
  | clear clear =>
      rw [Frame.finalize, clear.stmt]
      exact clear.toIdle
  | holds holds => exact holds.finalize

section Frame

variable {before : State} {frame : Frame}

theorem Idle.prepareV2 (idle : Idle before frame)
    (went : Went before frame.state) (statement : Statement) :
    Sound before (Prepared before statement) (frame.prepareV2 statement) := by
  have opened : ¬ frame.db = false := by simp [idle.db]
  have ledger := idle.ledger
  rw [Frame.prepareV2, if_neg opened]
  by_cases fails : frame.state.fails = true
  · rw [if_pos fails]
    exact .abruptly
      ⟨.clear ⟨⟨idle.db, ledger.congr rfl⟩, rfl⟩, went.halted fails⟩
  · rw [if_neg fails]
    exact .normally
      ⟨⟨frame.state.issued, idle.db, rfl, ledger.register.congr rfl⟩,
        went.proceed fails⟩

/-- A step fails, or leaves the fates to come. -/
theorem step_cases {change : Change}
    (prepared : Prepared before (.change change) frame)
    (went : Went before frame.state) :
    (∃ next, frame.step = (.error, next) ∧
        Prepared before (.change change) next ∧ Halted before next.state) ∨
      ∃ next,
        frame.step =
          (if change.exec frame.state.tables = none then .constraint else .done,
            next) ∧
        Prepared before (.change change) next ∧ Went before next.state := by
  rcases prepared with ⟨ident, holds⟩
  have ledger := holds.ledger
  rw [Frame.step, holds.stmt]
  dsimp only
  by_cases fails : frame.state.fails = true
  · exact .inl ⟨_, if_pos fails, ⟨ident, holds.db, rfl, ledger.congr rfl⟩,
      went.halted fails⟩
  · rw [if_neg fails, State.execute]
    have met := went.proceed fails
    have same : frame.state.proceed.tables = frame.state.tables := rfl
    rw [same]
    cases executed : change.exec frame.state.tables with
    | none =>
        exact .inr
          ⟨_, rfl, ⟨ident, holds.db, rfl, ledger.congr rfl⟩, met⟩
    | some tables =>
        exact .inr
          ⟨_, rfl, ⟨ident, holds.db, rfl, ledger.congr rfl⟩, met⟩

theorem stepTolerant_sound {change : Change}
    (prepared : Prepared before (.change change) frame)
    (went : Went before frame.state) :
    Sound before (Prepared before (.change change)) frame.stepTolerant := by
  rw [Frame.stepTolerant]
  rcases step_cases prepared went with
    ⟨next, step, ⟨ident, holds⟩, halted⟩ | ⟨next, step, kept, met⟩
  · rw [step]
    exact .abruptly ⟨.holds holds, halted⟩
  · rw [step]
    split
    · next impossible => split at impossible <;> cases impossible
    · next same =>
        cases (Prod.mk.inj same).2
        exact .normally ⟨kept, met⟩

/-- A query that cannot violate a constraint is done. -/
theorem stepDone_sound {change : Change}
    (prepared : Prepared before (.change change) frame)
    (went : Went before frame.state)
    (possible : change.exec frame.state.tables ≠ none) :
    Sound before (Prepared before (.change change)) frame.stepDone := by
  rw [Frame.stepDone]
  rcases step_cases prepared went with
    ⟨next, step, ⟨ident, holds⟩, halted⟩ | ⟨next, step, kept, met⟩
  · rw [step]
    exact .abruptly ⟨.holds holds, halted⟩
  · rw [step, if_neg possible]
    exact .normally ⟨kept, met⟩

theorem Sound.bind {normal later : Frame → Prop}
    {result : Except Frame Frame} {next : Frame → Except Frame Frame}
    (first : Sound before normal result)
    (second : ∀ frame, normal frame → Went before frame.state →
      Sound before later (next frame)) :
    Sound before later (result >>= next) :=
  Exits.bind first fun frame reached => second frame reached.1 reached.2

theorem Sound.mono {normal weaker : Frame → Prop}
    {result : Except Frame Frame} (sound : Sound before normal result)
    (implies : ∀ frame, normal frame → weaker frame) :
    Sound before weaker result :=
  Exits.mono sound (fun frame kept => ⟨implies frame kept.1, kept.2⟩)
    fun _ stopped => stopped

/-- Behind its step a statement is finalised and forgotten. -/
theorem Sound.finalizeClear {statement : Statement}
    {result : Except Frame Frame}
    (sound : Sound before (Prepared before statement) result) :
    Sound before (Clear before)
      (result >>= fun frame => .ok frame.finalize.clear) := by
  apply sound.bind
  rintro frame ⟨ident, holds⟩ went
  have idle := holds.finalize
  exact .normally ⟨⟨⟨idle.db, idle.ledger⟩, rfl⟩, went.finalize⟩

end Frame

/-! ## The operations -/

section Operations

variable {before : State} {frame : Frame}

theorem insertOrIncrease_sound {product : Product}
    (prepared : Prepared before (.change (.insertProductData product)) frame)
    (went : Went before frame.state) :
    Sound before
      (fun frame => ∃ statement, Prepared before statement frame)
      (insertOrIncrease product frame) := by
  rw [insertOrIncrease]
  rcases step_cases prepared went with
    ⟨next, step, ⟨ident, holds⟩, halted⟩ | ⟨next, step, ⟨ident, holds⟩, met⟩
  · rw [step]
    exact .abruptly ⟨.holds holds, halted⟩
  · rw [step]
    by_cases refused :
        (Change.insertProductData product).exec frame.state.tables = none
    · rw [if_pos refused]
      apply (holds.finalize.prepareV2 met.finalize _).bind
      intro frame prepared went
      exact (stepDone_sound prepared went (Option.some_ne_none _)).mono
        fun _ prepared => ⟨_, prepared⟩
    · rw [if_neg refused]
      exact .normally ⟨⟨_, ident, holds⟩, met⟩

theorem insertProductData_sound (idle : Idle before frame)
    (went : Went before frame.state) (product : Product) :
    Sound before (Clear before) (insertProductData product frame) := by
  unfold insertProductData
  apply (idle.prepareV2 went _).bind
  intro frame prepared went
  apply (insertOrIncrease_sound prepared went).bind
  rintro frame ⟨statement, prepared⟩ went
  exact Sound.finalizeClear (.normally ⟨prepared, went⟩)

theorem insertTag_sound (clear : Clear before frame)
    (went : Went before frame.state) (kind : TagTable)
    (productCode : Option CString) (tag : CString) :
    Sound before (Clear before) (insertTag kind productCode frame tag) := by
  unfold insertTag
  apply (clear.toIdle.prepareV2 went _).bind
  intro frame prepared went
  exact (stepTolerant_sound prepared went).finalizeClear

/-- A function on an open database that keeps the ledger. -/
def Accounts (function : Bool → State → Int × State) : Prop :=
  ∀ before frame, Clear before frame → Went before frame.state →
    ∃ result, function frame.db frame.state = Frame.leaveInner result ∧
      Sound before (Clear before) result

theorem Accounts.call {function : Bool → State → Int × State}
    (accounts : Accounts function) (clear : Clear before frame)
    (went : Went before frame.state) (entry : LogEntry) :
    Sound before (Clear before) (frame.call function entry) := by
  rcases accounts before frame clear went with ⟨result, called, sound⟩
  rw [Frame.call, called]
  cases sound with
  | normally reached =>
      rcases reached with ⟨cleared, went⟩
      have idle := (Leavable.clear cleared).finalize
      exact .normally ⟨⟨⟨clear.db, idle.ledger⟩, clear.stmt⟩, went.finalize⟩
  | abruptly stopped =>
      rcases stopped with ⟨leavable, past, fates, unfailed⟩
      have idle := leavable.finalize
      rw [← finalize_script] at fates
      exact .abruptly
        ⟨.clear ⟨⟨clear.db, idle.ledger.congr rfl⟩, clear.stmt⟩,
          past, fates, unfailed⟩

/-- The frame of an inner function. -/
theorem Clear.inner (clear : Clear before frame) :
    Clear before { state := frame.state, db := frame.db, stmt := none } :=
  ⟨⟨clear.db, clear.ledger⟩, rfl⟩

theorem insertTags_accounts (kind : TagTable)
    (array : Option (List CString)) (productCode : Option CString) :
    Accounts (insertTags kind array productCode) := by
  intro before frame clear went
  refine ⟨_, rfl, ?_⟩
  apply Exits.foldlM _ _ ⟨clear.inner, went⟩
  rintro frame tag _ ⟨clear, went⟩
  exact insertTag_sound clear went kind productCode tag

theorem insertImages_accounts
    (images : ProductImages) (productCode : Option CString) :
    Accounts (insertImages images productCode) := by
  intro before frame clear went
  refine ⟨_, rfl, ?_⟩
  apply (clear.inner.toIdle.prepareV2 went _).bind
  intro frame prepared went
  exact (stepTolerant_sound prepared went).finalizeClear

theorem insertSteps_sound (idle : Idle before frame)
    (went : Went before frame.state) (product : Product) :
    Sound before (Leavable before) (insertSteps product frame) := by
  unfold insertSteps
  apply (insertProductData_sound idle went product).bind
  intro frame clear went
  apply ((insertTags_accounts _ _ _).call clear went _).bind
  intro frame clear went
  apply ((insertTags_accounts _ _ _).call clear went _).bind
  intro frame clear went
  apply ((insertTags_accounts _ _ _).call clear went _).bind
  intro frame clear went
  exact ((insertImages_accounts _ _).call clear went _).mono
    fun _ clear => .clear clear

theorem removeSteps_sound (idle : Idle before frame)
    (went : Went before frame.state) (product : Product) :
    Sound before (Leavable before) (removeSteps product frame) := by
  unfold removeSteps
  apply (idle.prepareV2 went _).bind
  intro frame prepared went
  apply (stepDone_sound prepared went (Option.some_ne_none _)).bind
  rintro frame ⟨ident, holds⟩ went
  apply (holds.finalize.prepareV2 went.finalize _).bind
  intro frame prepared went
  apply (stepDone_sound prepared went (Option.some_ne_none _)).mono
  rintro frame ⟨ident, holds⟩
  exact .holds holds

theorem steps_sound (call : Call) (idle : Idle before frame)
    (went : Went before frame.state) :
    Sound before (Leavable before) (call.steps frame) := by
  cases call with
  | dbInsert prDec => exact insertSteps_sound idle went prDec
  | dbRemove prDec => exact removeSteps_sound idle went prDec

end Operations

/-- The start of an operation whose database can be opened. -/
theorem openTransaction_sound {state : State}
    (opens : ¬ state.fails = true) :
    Sound state (Idle state) (openTransaction state) := by
  unfold openTransaction
  have opened :
      Sound state (Idle state)
        (Frame.openV2 { state, db := false, stmt := none }) := by
    rw [Frame.openV2, if_neg opens]
    refine .normally ⟨⟨rfl, rfl, rfl, le_refl _, ?_⟩, ?_⟩
    · rw [preparedSince]
      simp [State.proceed]
    · exact (Went.refl state).proceed opens
  apply opened.bind
  intro frame idle went
  apply (idle.prepareV2 went .beginTransaction).bind
  rintro frame ⟨ident, holds⟩ went
  exact .normally ⟨holds.finalize, went.finalize⟩

/-- An operation up to its label `end`. -/
theorem operation_sound (call : Call) {state : State}
    (opens : ¬ state.fails = true) :
    Sound state (Leavable state) (openTransaction state >>= call.steps) :=
  (openTransaction_sound opens).bind
    fun _ idle went => steps_sound call idle went

/-! ## The label `end` -/

/-- The frame with which a result arrives at the label `end`. -/
def atLabel : Except Frame Frame → Frame
  | .ok frame => frame
  | .error frame => frame

theorem Sound.atLabel {before : State} {result : Except Frame Frame}
    (sound : Sound before (Leavable before) result) :
    Leavable before (atLabel result) := by
  cases sound with
  | normally reached => exact reached.1
  | abruptly stopped => exact stopped.1

/-- The frame of a call when it comes to `sqlite3_close_v2`. -/
def atClose (call : Call) (state : State) : Frame :=
  ended (atLabel (openTransaction state >>= call.steps)).finalize

/-- The connection that a call closes. -/
def closing (call : Call) (state : State) : Option Connection :=
  if (atClose call state).db then
    (atClose call state).state.connections.head?
  else
    none

theorem perform_state (call : Call) (state : State) :
    (call.perform state).2 =
      if (atClose call state).db then (atClose call state).state.close
      else (atClose call state).state := by
  rw [call.perform_eq, atClose]
  cases openTransaction state >>= call.steps with
  | ok frame => rfl
  | error frame => rfl

/-- The fates of the calls that come after the steps of an operation. -/
def fatesLeft (call : Call) (state : State) : List Bool :=
  if Fails state.script (callCount (call.changes state.tables)) then
    state.script.drop (state.script.idxOf true + 1)
  else
    state.script.drop (callCount (call.changes state.tables))

theorem script_of_meet {situation met : Situation}
    (ran : situation.meet = .ok met) :
    met.script = situation.script.drop 1 := by
  unfold Situation.meet at ran
  split at ran
  · cases ran
  · cases ran
    exact List.drop_one.symm

theorem script_of_execute {change : Change} {situation later : Situation}
    (ran : execute change situation = .ok later) :
    later.script = situation.script.drop 2 := by
  unfold execute stepped at ran
  cases first : situation.meet with
  | error stopped => simp [first, bind, Except.bind] at ran
  | ok prepared =>
      rw [first] at ran
      change (prepared.meet >>= _) = _ at ran
      cases second : prepared.meet with
      | error stopped => simp [second, bind, Except.bind] at ran
      | ok met =>
          rw [second] at ran
          cases ran
          change met.script = _
          rw [script_of_meet second, script_of_meet first, List.drop_drop]

/-- Two fates are met for each query, by induction on the queries. -/
theorem script_of_executeAll {changes : List Change}
    {situation later : Situation}
    (ran : executeAll changes situation = .ok later) :
    later.script = situation.script.drop (2 * changes.length) := by
  induction changes generalizing situation with
  | nil =>
      cases ran
      rfl
  | cons change rest ih =>
      rw [executeAll_cons] at ran
      cases first : execute change situation with
      | error stopped => simp [first, bind, Except.bind] at ran
      | ok next =>
          rw [first] at ran
          rw [ih ran, script_of_execute first, List.drop_drop,
            List.length_cons, Nat.mul_succ, Nat.add_comm]

/-- The steps of an operation leave the fates behind them. -/
theorem atLabel_script (call : Call) {state : State}
    (opens : ¬ state.fails = true) :
    (atLabel (openTransaction state >>= call.steps)).state.script =
      fatesLeft call state := by
  have sound := operation_sound call opens
  have simulates :
      Simulates (openTransaction state >>= call.steps)
        (begun { tables := state.tables, script := state.script } >>=
          fun situation =>
            executeAll (call.changes situation.tables) situation) :=
    (openTransaction_simulates (by simpa using opens)).bind
      fun _ _ _ _ situated => call.steps_simulates situated
  have returned := perform_cases call state
  rw [call.perform_eq] at returned
  revert sound simulates returned
  generalize openTransaction state >>= call.steps = result
  intro sound simulates returned
  rw [fatesLeft]
  cases result with
  | error frame =>
      cases sound with
      | abruptly stopped =>
        rcases returned with ⟨fails, _⟩ | ⟨_, impossible, _⟩
        · rw [if_pos fails]
          exact stopped.2.script
        · cases impossible
  | ok frame =>
      rcases returned with ⟨_, impossible, _⟩ | ⟨goes, _⟩
      · cases impossible
      · rw [if_neg goes]
        cases simulates with
        | stops halted ran stopped => cases halted
        | reaches reached ran situated =>
          cases reached
          rcases begun_cases state.tables state.script with
            ⟨_, later, began⟩ | ⟨_, began⟩
          · simp [began, bind, Except.bind] at ran
          · rw [began] at ran
            rw [atLabel, situated.script, script_of_executeAll ran,
              List.drop_drop, callCount, Nat.add_comm]

/-- The database cannot be opened, or the preparation of END fails. -/
def ReleasesAll (call : Call) (state : State) : Prop :=
  state.fails = true ∨ (fatesLeft call state).headD false = true

/-- END is prepared, and then held, unless this call fails. -/
theorem ended_cases {before : State} {frame : Frame}
    (idle : Idle before frame) :
    frame.state.fails = true ∧ Idle before (ended frame) ∨
      ¬ frame.state.fails = true ∧
        Prepared before .endTransaction (ended frame) := by
  have opened : ¬ frame.db = false := by simp [idle.db]
  unfold ended Frame.prepareV2
  rw [if_neg opened]
  by_cases fails : frame.state.fails = true
  · rw [if_pos fails]
    exact .inl ⟨fails, idle.db, idle.ledger.congr rfl⟩
  · rw [if_neg fails]
    exact .inr ⟨fails, frame.state.issued, idle.db, rfl,
      idle.ledger.register.congr rfl⟩

theorem atClose_unopened (call : Call) {state : State}
    (fails : state.fails = true) :
    atClose call state =
      { state := state.proceed, db := false, stmt := none } := by
  have unopened :
      openTransaction state =
        .error { state := state.proceed, db := false, stmt := none } := by
    simp [openTransaction, Frame.openV2, fails, bind, Except.bind]
  rw [atClose, unopened]
  rfl

/-- An opened database is closed without a statement or with that of END. -/
theorem atClose_opened (call : Call) {state : State}
    (opens : ¬ state.fails = true) :
    ReleasesAll call state ∧ Idle state (atClose call state) ∨
      ¬ ReleasesAll call state ∧
        Prepared state .endTransaction (atClose call state) := by
  have idle := (operation_sound call opens).atLabel.finalize
  have fate :
      ReleasesAll call state ↔
        (atLabel (openTransaction state >>= call.steps)).finalize.state.fails =
          true := by
    rw [ReleasesAll, State.fails, State.fails, finalize_script,
      atLabel_script call opens]
    exact or_iff_right opens
  rw [fate]
  exact ended_cases idle

/-- A call whose END is not prepared leaves nothing. -/
theorem released_of_releasesAll {call : Call} {state : State}
    (releases : ReleasesAll call state) :
    Released state (call.perform state).2 ∧
      ∀ connection ∈ closing call state, connection = ⟨[], none⟩ := by
  rw [perform_state, closing]
  by_cases fails : state.fails = true
  · rw [atClose_unopened call fails, if_neg Bool.false_ne_true,
      if_neg Bool.false_ne_true]
    refine ⟨⟨rfl, rfl, le_refl _, ?_⟩, fun _ impossible => by cases impossible⟩
    rw [preparedSince]
    simp [State.proceed]
  · rcases atClose_opened call fails with ⟨_, idle⟩ | ⟨holding, _⟩
    · rw [if_pos idle.db, if_pos idle.db, idle.ledger.connections]
      refine ⟨idle.ledger.close, ?_⟩
      intro connection closed
      exact (Option.some.inj closed).symm
    · exact absurd releases holding

/-- Any other call leaves a connection behind that holds END. -/
theorem zombies_of_not_releasesAll {call : Call} {state : State}
    (holding : ¬ ReleasesAll call state) :
    ∃ ident,
      (call.perform state).2.zombies = ⟨[ident], none⟩ :: state.zombies := by
  have opens : ¬ state.fails = true := fun fails => holding (.inl fails)
  rcases atClose_opened call opens with ⟨releases, _⟩ | ⟨_, ident, holds⟩
  · exact absurd releases holding
  · rw [perform_state, if_pos holds.db]
    exact ⟨ident, holds.ledger.zombies_close (List.cons_ne_nil _ _)⟩

end SmartFridge.Handles
