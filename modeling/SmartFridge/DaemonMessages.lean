import SmartFridge.DaemonTables
import SmartFridge.Library.Runs

/-!
# Sequences of messages

A message asks the daemon for an insertion, for a removal or for nothing that
concerns the tables, and `msg_decoder` does what it asks.  A property of the
tables is followed along a sequence of messages through their requests.
-/

namespace SmartFridge.Daemon

open SmartFridge.Library
open SmartFridge.Library.Runs
open SmartFridge.ProductDecoder
open SmartFridge.Schema

/-- What a message asks the daemon to do with its tables. -/
inductive Request where
  | insert (product : Product)
  | remove (code : Option CString)
  | nothing

/-- The effect of a request. -/
def Request.effect : Request → Tables → Tables
  | .insert product, tables => store product tables
  | .remove code, tables => discard code tables
  | .nothing, tables => tables

/-- The request of a message, unless the product decoder fails on it. -/
def requested (internalHeader : CString) (parse : CString → Option Json)
    (msg : CString) : Option Request :=
  if internalHeader.bytes <+: msg.bytes then
    (sfPrDecoder parse (msg.drop internalHeader.bytes.length)).map fun
      | (_, none) => .nothing
      | (result, some prDec) =>
          if result = deletionReq then .remove prDec.code else .insert prDec
  else
    some .nothing

theorem whole_effect {tables : Tables} (whole : WholeNumbers tables)
    (request : Request) : WholeNumbers (request.effect tables) := by
  cases request with
  | insert product => exact whole_store whole product
  | remove code => exact whole_discard whole code
  | nothing => exact whole

theorem requested_of_decoded
    {internalHeader text : CString} {parse : CString → Option Json}
    {retval : Int} {product : Product}
    (decoded : sfPrDecoder parse text = some (retval, some product)) :
    requested internalHeader parse (internalHeader ++ text) =
      some (if retval = deletionReq then .remove product.code
        else .insert product) := by
  rw [requested, if_pos ⟨text.bytes, rfl⟩, CString.append_drop, decoded]
  rfl

/-- A message on a socket, with the result of sending a copy on that socket. -/
structure Delivery where
  msg : CString
  sent : Int

/-- The daemon after a message. -/
def handle (internalHeader : CString) (parse : CString → Option Json)
    (state : State) (delivery : Delivery) : Option State :=
  (msgDecoder internalHeader parse delivery.sent delivery.msg state).map
    Prod.snd

/-- `msg_decoder` without failures changes the tables as the message asks. -/
theorem handle_of_requested
    {internalHeader : CString} {parse : CString → Option Json}
    {state : State} {delivery : Delivery} {request : Request}
    (script : state.script = [])
    (asked : requested internalHeader parse delivery.msg = some request) :
    ∃ next, handle internalHeader parse state delivery = some next ∧
      next.script = [] ∧ next.tables = request.effect state.tables := by
  unfold handle msgDecoder
  unfold requested at asked
  split at asked
  · next headed =>
      rw [if_pos headed]
      rcases Option.map_eq_some_iff.mp asked with
        ⟨⟨result, decoded⟩, decodes, same⟩
      rw [decodes]
      cases decoded with
      | none =>
          cases same
          exact ⟨state, rfl, script, rfl⟩
      | some prDec =>
          by_cases removal : result = deletionReq
          · rcases dbRemove_effect prDec script with
              ⟨after, returned, afterScript, afterTables⟩
            simp only [if_pos removal] at same
            cases same
            exact ⟨after, by simp [removal, returned], afterScript,
              afterTables⟩
          · rcases dbInsert_effect prDec script with
              ⟨after, returned, afterScript, afterTables⟩
            simp only [if_neg removal] at same
            cases same
            exact ⟨after, by simp [removal, returned], afterScript,
              afterTables⟩
  · next foreign =>
      rw [if_neg foreign]
      cases asked
      by_cases synced : dbSyncHeader.bytes <+: delivery.msg.bytes
      · by_cases failed : delivery.sent = 0
        · exact ⟨state, by simp [synced, failed], script, rfl⟩
        · exact ⟨state.sfError .dbCopySentError, by simp [synced, failed],
            script, rfl⟩
      · exact ⟨state.sfError .unknownMsgFormat, by simp [synced],
          script, rfl⟩

theorem handle_of_fault
    {internalHeader : CString} {parse : CString → Option Json}
    (state : State) {delivery : Delivery}
    (fault : requested internalHeader parse delivery.msg = none) :
    handle internalHeader parse state delivery = none := by
  unfold requested at fault
  unfold handle msgDecoder
  split at fault
  · next headed =>
      rw [if_pos headed, Option.map_eq_none_iff.mp fault]
      rfl
  · cases fault

/-- Whatever is handled has a request, and its effect. -/
theorem handle_effect
    {internalHeader : CString} {parse : CString → Option Json}
    {state next : State} {delivery : Delivery}
    (script : state.script = [])
    (handled : handle internalHeader parse state delivery = some next) :
    ∃ request,
      requested internalHeader parse delivery.msg = some request ∧
        next.script = [] ∧ next.tables = request.effect state.tables := by
  cases asked : requested internalHeader parse delivery.msg with
  | none => cases handled.symm.trans (handle_of_fault state asked)
  | some request =>
      rcases handle_of_requested script asked with ⟨other, same, effect⟩
      cases handled.symm.trans same
      exact ⟨request, rfl, effect⟩

/-! ## A message, whatever fails -/

/-- The request that a call carries out. -/
def requestOf : Call → Request
  | .dbInsert prDec => .insert prDec
  | .dbRemove prDec => .remove prDec.code

/-- A request for nothing leaves the tables, and any other one is for a call. -/
inductive CarriesOut (request : Request) (state : State) (after : Tables) : Prop
  | nothing (asked : request = .nothing) (same : after = state.tables)
  | call (call : Call) (own : requestOf call = request)
      (tables : after = (call.perform state).2.tables)

theorem tables_of_reported {failed : Int} {entry : LogEntry}
    {after next : State}
    (reported :
      (if failed ≠ 0 then some (1, after.sfError entry)
        else some ((0 : Int), after)).map Prod.snd = some next) :
    next.tables = after.tables := by
  split at reported
  · cases reported
    rfl
  · cases reported
    rfl

/-- A message with a request is handled, whatever fails. -/
theorem exists_handled
    {internalHeader : CString} {parse : CString → Option Json}
    (state : State) {delivery : Delivery} {request : Request}
    (asked : requested internalHeader parse delivery.msg = some request) :
    ∃ next, handle internalHeader parse state delivery = some next := by
  unfold requested at asked
  unfold handle msgDecoder
  split at asked
  · next headed =>
      rw [if_pos headed]
      rcases Option.map_eq_some_iff.mp asked with
        ⟨⟨result, decoded⟩, decodes, _⟩
      rw [decodes]
      cases decoded with
      | none => exact ⟨state, rfl⟩
      | some prDec =>
          dsimp only
          split
          · split
            · exact ⟨_, rfl⟩
            · exact ⟨_, rfl⟩
          · split
            · exact ⟨_, rfl⟩
            · exact ⟨_, rfl⟩
  · next foreign =>
      rw [if_neg foreign]
      split
      · split
        · exact ⟨_, rfl⟩
        · exact ⟨_, rfl⟩
      · exact ⟨_, rfl⟩

/-- Whatever is handled has a request, which the daemon begins to carry out. -/
theorem handle_carriesOut
    {internalHeader : CString} {parse : CString → Option Json}
    {state next : State} {delivery : Delivery}
    (handled : handle internalHeader parse state delivery = some next) :
    ∃ request,
      requested internalHeader parse delivery.msg = some request ∧
        CarriesOut request state next.tables := by
  unfold handle msgDecoder at handled
  unfold requested
  split at handled
  · next headed =>
      rw [if_pos headed]
      split at handled
      · cases handled
      · next decoded =>
          cases handled
          exact ⟨.nothing, by rw [decoded]; rfl, .nothing rfl rfl⟩
      · next result prDec decoded =>
          rw [decoded]
          split at handled
          · next removal =>
              refine ⟨.remove prDec.code, by simp [removal],
                .call (.dbRemove prDec) rfl ?_⟩
              exact tables_of_reported handled
          · next insertion =>
              refine ⟨.insert prDec, by simp [insertion],
                .call (.dbInsert prDec) rfl ?_⟩
              exact tables_of_reported handled
  · next foreign =>
      rw [if_neg foreign]
      refine ⟨.nothing, rfl, .nothing rfl ?_⟩
      split at handled
      · split at handled
        · cases handled
          rfl
        · cases handled
          rfl
      · cases handled
        rfl

/--
A property that each message keeps under some condition, and only then, holds
along a sequence of messages exactly if these meet the condition.
-/
theorem statesSatisfy_iff_carriedOut
    (internalHeader : CString) (parse : CString → Option Json)
    (invariant property : Tables → Prop) (keeps : State → Request → Prop)
    (preserved : ∀ request state after, CarriesOut request state after →
      invariant state.tables → invariant after)
    (exact_effect : ∀ request state after, CarriesOut request state after →
      invariant state.tables → property state.tables →
        (property after ↔ keeps state request))
    {state : State} (initial : invariant state.tables)
    (holds : property state.tables) (deliveries : List Delivery) :
    StatesSatisfy (handle internalHeader parse)
        (fun state => property state.tables) state deliveries ↔
      StepsMeet (handle internalHeader parse)
        (fun state delivery => ∀ request,
          requested internalHeader parse delivery.msg = some request →
            keeps state request)
        state deliveries := by
  apply statesSatisfy_iff_stepsMeet
    (fun state _ => invariant state.tables)
  · intro state delivery _ next held handled
    rcases handle_carriesOut handled with ⟨request, _, carried⟩
    exact preserved request state next.tables carried held
  · intro state delivery _ next held holds handled
    rcases handle_carriesOut handled with ⟨request, asked, carried⟩
    rw [exact_effect request state next.tables carried held holds]
    constructor
    · intro kept other same
      cases asked.symm.trans same
      exact kept
    · intro kept
      exact kept request asked
  · exact initial
  · exact holds

/-! ## Sequences without failures -/

/--
A property that a request keeps under some condition, and only then, holds
along a sequence of messages exactly if their requests meet the condition.
-/
theorem statesSatisfy_iff_requestsMeet
    (internalHeader : CString) (parse : CString → Option Json)
    (invariant property : Tables → Prop) (keeps : Tables → Request → Prop)
    (preserved : ∀ tables (request : Request),
      invariant tables → invariant (request.effect tables))
    (exact_effect : ∀ tables (request : Request),
      invariant tables → property tables →
        (property (request.effect tables) ↔ keeps tables request))
    {state : State} (script : state.script = [])
    (initial : invariant state.tables) (holds : property state.tables)
    (deliveries : List Delivery) :
    StatesSatisfy (handle internalHeader parse)
        (fun state => property state.tables) state deliveries ↔
      StepsMeet (handle internalHeader parse)
        (fun state delivery => ∀ request,
          requested internalHeader parse delivery.msg = some request →
            keeps state.tables request)
        state deliveries := by
  apply statesSatisfy_iff_stepsMeet
    (fun state _ => state.script = [] ∧ invariant state.tables)
  · rintro state delivery _ next ⟨script, held⟩ handled
    rcases handle_effect script handled with
      ⟨request, _, nextScript, tables⟩
    exact ⟨nextScript, tables ▸ preserved state.tables request held⟩
  · rintro state delivery _ next ⟨script, held⟩ holds handled
    rcases handle_effect script handled with ⟨request, asked, _, tables⟩
    rw [tables, exact_effect state.tables request held holds]
    constructor
    · intro kept other same
      cases asked.symm.trans same
      exact kept
    · intro kept
      exact kept request asked
  · exact ⟨script, initial⟩
  · exact holds

end SmartFridge.Daemon
