import SmartFridge.DaemonEffect
import SmartFridge.StringReads

/-!
# The dispatch of messages

Which operation `msg_decoder` calls for a message behind the internal header.
The operations are parameters here, so that their calls can be recorded.
-/

namespace SmartFridge.Dispatch

open SmartFridge.Library
open SmartFridge.CJson
open SmartFridge.ProductDecoder
open SmartFridge.StringReads
open SmartFridge.Daemon

/-! ## Recorded calls -/

/-- The functions that `msg_decoder` calls, over some state. -/
structure Operations (σ : Type) where
  perform : Call → σ → Int × σ
  sfError : LogEntry → σ → σ

/-- `msg_decoder` over some operations. -/
def msgDecoderWith {σ : Type} (operations : Operations σ)
    (internalHeader : CString) (parse : CString → Option Json)
    (sent : Int) (msg : CString) (state : σ) : Option (Int × σ) :=
  if internalHeader.bytes <+: msg.bytes then
    match sfPrDecoder parse (msg.drop internalHeader.bytes.length) with
    | none => none
    | some (_, none) => some (1, state)
    | some (result, some prDec) =>
        if result = deletionReq then
          let (failed, state) := operations.perform (.dbRemove prDec) state
          if failed ≠ 0 then
            some (1, operations.sfError .productInsertError state)
          else
            some (0, state)
        else
          let (failed, state) := operations.perform (.dbInsert prDec) state
          if failed ≠ 0 then
            some (1, operations.sfError .productRemoveError state)
          else
            some (0, state)
  else if dbSyncHeader.bytes <+: msg.bytes then
    if sent ≠ 0 then
      some (1, operations.sfError .dbCopySentError state)
    else
      some (continueIt, state)
  else
    some (1, operations.sfError .unknownMsgFormat state)

/-- The operations of the daemon. -/
def daemonOperations : Operations State where
  perform := Call.perform
  sfError := fun entry state => state.sfError entry

/-- The same operations, with the calls that have been made. -/
def recording : Operations (State × List Call) where
  perform := fun call recorded =>
    let (failed, state) := call.perform recorded.1
    (failed, state, recorded.2 ++ [call])
  sfError := fun entry recorded => (recorded.1.sfError entry, recorded.2)

theorem msgDecoder_eq (internalHeader : CString)
    (parse : CString → Option Json) (sent : Int) (msg : CString)
    (state : State) :
    msgDecoder internalHeader parse sent msg state =
      msgDecoderWith daemonOperations internalHeader parse sent msg state :=
  rfl

/-- A view that respects the operations respects `msg_decoder`. -/
theorem msgDecoderWith_map {σ τ : Type} (operations : Operations σ)
    (others : Operations τ) (view : σ → τ)
    (perform : ∀ call state,
      Prod.map id view (operations.perform call state) =
        others.perform call (view state))
    (sfError : ∀ entry state,
      view (operations.sfError entry state) =
        others.sfError entry (view state))
    (internalHeader : CString) (parse : CString → Option Json) (sent : Int)
    (msg : CString) (state : σ) :
    (msgDecoderWith operations internalHeader parse sent msg state).map
        (Prod.map id view) =
      msgDecoderWith others internalHeader parse sent msg (view state) := by
  have performed : ∀ (call : Call) (entry : LogEntry),
      (let (failed, next) := operations.perform call state
        if failed ≠ 0 then some ((1 : Int), operations.sfError entry next)
        else some (0, next)).map (Prod.map id view) =
        (let (failed, next) := others.perform call (view state)
          if failed ≠ 0 then some (1, others.sfError entry next)
          else some (0, next)) := by
    intro call entry
    rw [← perform call state]
    dsimp only [Prod.map, id]
    rw [← sfError]
    split
    · rfl
    · rfl
  unfold msgDecoderWith
  by_cases headed : internalHeader.bytes <+: msg.bytes
  · rw [if_pos headed, if_pos headed]
    rcases sfPrDecoder parse (msg.drop internalHeader.bytes.length) with
      _ | ⟨retval, _ | prDec⟩
    · rfl
    · rfl
    · dsimp only
      by_cases removal : retval = deletionReq
      · rw [if_pos removal, if_pos removal]
        exact performed (.dbRemove prDec) .productInsertError
      · rw [if_neg removal, if_neg removal]
        exact performed (.dbInsert prDec) .productRemoveError
  · rw [if_neg headed, if_neg headed, ← sfError, ← sfError]
    split
    · split
      · rfl
      · rfl
    · rfl

/-- What a decoded text makes `msg_decoder` call. -/
def calledFor : Int × Option Product → List Call
  | (_, none) => []
  | (result, some prDec) =>
      if result = deletionReq then [.dbRemove prDec] else [.dbInsert prDec]

/-- The result of `msg_decoder` behind the internal header. -/
structure Dispatched (state after : State) (retval : Int) (calls : List Call) :
    Prop where
  none : calls = [] → retval = 1 ∧ after.tables = state.tables
  one : ∀ call, calls = [call] →
    (retval = 0 ↔ (call.perform state).1 = 0) ∧
      after.tables = (call.perform state).2.tables

/-- What `msg_decoder` does with the operation that it chose. -/
theorem dispatched_call (state : State) (call : Call) (entry : LogEntry) :
    ∃ (retval : Int) (after : State),
      (let (failed, next) := recording.perform call (state, [])
        if failed ≠ 0 then some (1, recording.sfError entry next)
        else some (0, next)) = some (retval, after, [call]) ∧
      Dispatched state after retval [call] := by
  by_cases failed : (call.perform state).1 = 0
  · refine ⟨0, (call.perform state).2, by simp [recording, failed], ?_, ?_⟩
    · exact fun impossible => nomatch impossible
    · rintro _ ⟨⟩
      exact ⟨iff_of_true rfl failed, rfl⟩
  · refine ⟨1, (call.perform state).2.sfError entry,
      by simp [recording, failed], ?_, ?_⟩
    · exact fun impossible => nomatch impossible
    · rintro _ ⟨⟩
      exact ⟨iff_of_false one_ne_zero failed, rfl⟩

/-- A decoded text is dispatched, and recording the calls changes nothing. -/
theorem msgDecoder_dispatches {parse : CString → Option Json} {text : CString}
    {decoded : Int × Option Product}
    (decodes : sfPrDecoder parse text = some decoded)
    (internalHeader : CString) (sent : Int) (state : State) :
    ∃ retval after,
      msgDecoderWith recording internalHeader parse sent
          (internalHeader ++ text) (state, []) =
        some (retval, after, calledFor decoded) ∧
      msgDecoder internalHeader parse sent (internalHeader ++ text) state =
        some (retval, after) ∧
      Dispatched state after retval (calledFor decoded) := by
  have headed : internalHeader.bytes <+: (internalHeader ++ text).bytes :=
    ⟨text.bytes, rfl⟩
  have behind :
      (internalHeader ++ text).drop internalHeader.bytes.length = text :=
    CString.ext List.drop_left
  have recorded :
      ∃ retval after,
        msgDecoderWith recording internalHeader parse sent
            (internalHeader ++ text) (state, []) =
          some (retval, after, calledFor decoded) ∧
        Dispatched state after retval (calledFor decoded) := by
    unfold msgDecoderWith
    rw [if_pos headed, behind, decodes]
    rcases decoded with ⟨result, _ | prDec⟩
    · exact ⟨1, state, rfl, fun _ => ⟨rfl, rfl⟩, fun _ impossible =>
        nomatch impossible⟩
    · by_cases removal : result = deletionReq
      · simp only [calledFor, if_pos removal]
        exact dispatched_call state (.dbRemove prDec) .productInsertError
      · simp only [calledFor, if_neg removal]
        exact dispatched_call state (.dbInsert prDec) .productRemoveError
  rcases recorded with ⟨retval, after, made, dispatched⟩
  have viewed := msgDecoderWith_map recording daemonOperations Prod.fst
    (fun _ _ => rfl) (fun _ _ => rfl) internalHeader parse sent
    (internalHeader ++ text) (state, [])
  rw [made] at viewed
  exact ⟨retval, after, made, viewed.symm, dispatched⟩

/-! ## What a message asks for -/

/-- A member of this name is present. -/
def Has (object : Option Json) (name : CString) : Prop :=
  getObjectItem object name ≠ none

/-- The message of a removal. -/
structure AsksRemoval (message : Json) : Prop where
  code : Has (some message) jsonProductCode
  remove : Has (some message) jsonRemove

/-- The message of an insertion. -/
structure AsksInsertion (message : Json) : Prop where
  code : Has (some message) jsonProductCode
  kept : ¬ Has (some message) jsonRemove
  name : Has (some message) jsonName
  number : Has (some message) jsonNumber
  quantity : Has (some message) jsonQuantity
  ingredients : Has (some message) jsonIngredients
  brands : Has (some message) jsonProductBrands
  expirationDate : Has (some message) jsonProductExpirationDate
  timestamp : Has (some message) jsonProductTimestamp
  labels : Has (some message) jsonProductLabels
  tags : Has (some message) jsonTags
  additives : Has (getObjectItem (some message) jsonTags) jsonAdditives
  allergens : Has (getObjectItem (some message) jsonTags) jsonAllergensTags
  ingredientsTags :
    Has (getObjectItem (some message) jsonTags) jsonIngredientsTags
  images : Has (some message) jsonImages

theorem has_of_found {object : Option Json} {name : CString} {item : Json}
    (found : getObjectItem object name = some item) : Has object name := by
  rw [Has, found]
  exact Option.some_ne_none item

theorem TextMember.has {message : Json} {name : CString}
    {value : Option CString} (member : TextMember message name value) :
    Has (some message) name := by
  rcases member with ⟨text, found, _⟩
  exact has_of_found found

theorem TagMember.has {tags : Option Json} {name : CString}
    {value : Option (List CString)} (member : TagMember tags name value) :
    Has tags name := by
  rcases member with ⟨item, _, found, _⟩
  exact has_of_found found

/-- An accepted product was in a message with all the members. -/
theorem asksInsertion_of_isAddition {message : Json} {product : Product}
    (addition : IsAddition message product) : AsksInsertion message where
  code := TextMember.has addition.code
  kept := fun has => has addition.kept
  name := by
    rcases addition.name with ⟨text, found, _⟩
    exact has_of_found found
  number := by
    rcases addition.number with ⟨item, found, _⟩
    exact has_of_found found
  quantity := TextMember.has addition.quantity
  ingredients := TextMember.has addition.ingredients
  brands := TextMember.has addition.brands
  expirationDate := TextMember.has addition.expirationDate
  timestamp := TextMember.has addition.timestamp
  labels := TextMember.has addition.labels
  tags := by
    -- Without the object of the tags there are no additives either.
    intro missing
    have has := TagMember.has addition.additives
    rw [missing] at has
    exact has rfl
  additives := TagMember.has addition.additives
  allergens := TagMember.has addition.allergens
  ingredientsTags := TagMember.has addition.ingredientsTags
  images := by
    rcases addition.images with ⟨item, found, _⟩
    exact has_of_found found

theorem asksRemoval_of_isRemoval {message : Json} {product : Product}
    (removal : IsRemoval message product) : AsksRemoval message := by
  rcases removal with ⟨code, member, ⟨item, found⟩, _⟩
  exact ⟨TextMember.has member, has_of_found found⟩

theorem allFound_of_asksInsertion {message : Json}
    (asks : AsksInsertion message) : AllFound (messageLookups message) := by
  have kept : getObjectItem (some message) jsonRemove = none :=
    not_not.mp asks.kept
  rw [messageLookups, kept]
  simp only [additionLookups, allFound_cons]
  have optional : ∀ {found : Option Json}, false = true → found ≠ none :=
    fun impossible => absurd impossible Bool.false_ne_true
  exact
    ⟨fun _ => asks.code, fun _ => asks.name, fun _ => asks.number,
      fun _ => asks.quantity, fun _ => asks.ingredients,
      fun _ => asks.brands, fun _ => asks.expirationDate,
      fun _ => asks.timestamp, fun _ => asks.labels, fun _ => asks.additives,
      fun _ => asks.allergens, fun _ => asks.ingredientsTags,
      fun _ => asks.images, optional, optional, optional,
      List.forall_mem_nil _⟩

theorem allFound_of_asksRemoval {message : Json}
    (asks : AsksRemoval message) : AllFound (messageLookups message) := by
  rcases Option.ne_none_iff_exists'.mp asks.remove with ⟨item, found⟩
  rw [messageLookups, found]
  exact allFound_cons.mpr ⟨fun _ => asks.code, List.forall_mem_nil _⟩

section Decoded

variable {parse : CString → Option Json} {text : CString} {message : Json}
  (parsed : parse text = some message)
  (strings : ReadsStrings (messageLookups message))
include parsed strings

/-- With all its members, a message that is read without a fault is decoded. -/
theorem decoded_of_allFound (found : AllFound (messageLookups message)) :
    ∃ retval product, prDecoding parse text = .ok (retval, product) := by
  cases prDecoding_walks parsed with
  | completes _ _ value completed => exact ⟨value.1, value.2, completed⟩
  | leaves missing _ _ => exact absurd found missing
  | faults null _ => exact absurd strings null

theorem decoded_iff_asksInsertion :
    (∃ product, prDecoding parse text = .ok (noError, product)) ↔
      AsksInsertion message := by
  constructor
  · rintro ⟨product, decoded⟩
    rcases prDecoding_eq_ok.mp decoded with
      ⟨_, same, ⟨_, addition⟩ | ⟨impossible, _⟩⟩
    · cases parsed.symm.trans same
      exact asksInsertion_of_isAddition addition
    · cases impossible
  · intro asks
    rcases decoded_of_allFound parsed strings
      (allFound_of_asksInsertion asks) with ⟨retval, product, decoded⟩
    rcases prDecoding_eq_ok.mp decoded with
      ⟨_, same, ⟨rfl, _⟩ | ⟨_, removal⟩⟩
    · exact ⟨product, decoded⟩
    · cases parsed.symm.trans same
      exact absurd (asksRemoval_of_isRemoval removal).remove asks.kept

theorem decoded_iff_asksRemoval :
    (∃ product, prDecoding parse text = .ok (deletionReq, product)) ↔
      AsksRemoval message := by
  constructor
  · rintro ⟨product, decoded⟩
    rcases prDecoding_eq_ok.mp decoded with
      ⟨_, same, ⟨impossible, _⟩ | ⟨_, removal⟩⟩
    · cases impossible
    · cases parsed.symm.trans same
      exact asksRemoval_of_isRemoval removal
  · intro asks
    rcases decoded_of_allFound parsed strings
      (allFound_of_asksRemoval asks) with ⟨retval, product, decoded⟩
    rcases prDecoding_eq_ok.mp decoded with
      ⟨_, same, ⟨_, addition⟩ | ⟨rfl, _⟩⟩
    · cases parsed.symm.trans same
      exact absurd asks.remove (asksInsertion_of_isAddition addition).kept
    · exact ⟨product, decoded⟩

end Decoded

/-- The calls that a message makes are those that it asks for. -/
structure CallsAsked (parse : CString → Option Json) (text : CString)
    (calls : List Call) : Prop where
  single : calls.length ≤ 1
  removal : (∃ prDec, .dbRemove prDec ∈ calls) ↔
    ∃ message, parse text = some message ∧ AsksRemoval message
  removed : ∀ prDec, .dbRemove prDec ∈ calls →
    ∃ message, parse text = some message ∧
      TextMember message jsonProductCode prDec.code
  insertion : (∃ prDec, .dbInsert prDec ∈ calls) ↔
    ∃ message, parse text = some message ∧ AsksInsertion message
  inserted : ∀ prDec, .dbInsert prDec ∈ calls →
    ∃ message, parse text = some message ∧ IsAddition message prDec

theorem callsAsked {parse : CString → Option Json} {text : CString}
    (strings : ∀ message, parse text = some message →
      ReadsStrings (messageLookups message))
    {decoded : Int × Option Product}
    (decodes : sfPrDecoder parse text = some decoded) :
    CallsAsked parse text (calledFor decoded) := by
  have insertion :
      (∃ product, prDecoding parse text = .ok (noError, product)) ↔
        ∃ message, parse text = some message ∧ AsksInsertion message := by
    cases parsed : parse text with
    | none => simp [prDecoding, parsed]
    | some message =>
        simpa using decoded_iff_asksInsertion parsed (strings _ parsed)
  have removal :
      (∃ product, prDecoding parse text = .ok (deletionReq, product)) ↔
        ∃ message, parse text = some message ∧ AsksRemoval message := by
    cases parsed : parse text with
    | none => simp [prDecoding, parsed]
    | some message =>
        simpa using decoded_iff_asksRemoval parsed (strings _ parsed)
  rw [sfPrDecoder] at decodes
  rcases decoded with ⟨result, _ | product⟩
  · have undecoded : ∀ retval other,
        prDecoding parse text ≠ .ok (retval, other) := by
      intro retval other decoded
      rw [decoded] at decodes
      cases decodes
    exact
      { single := Nat.zero_le 1
        removal := by simp [calledFor, ← removal, undecoded]
        removed := by simp [calledFor]
        insertion := by simp [calledFor, ← insertion, undecoded]
        inserted := by simp [calledFor] }
  · have decoded := outcome_eq_decoded.mp decodes
    rcases prDecoding_eq_ok.mp decoded with
      ⟨message, parsed, ⟨rfl, addition⟩ | ⟨rfl, removed⟩⟩
    · have called : calledFor (noError, some product) = [.dbInsert product] :=
        rfl
      rw [called]
      exact
        { single := le_refl 1
          removal := by simp [← removal, decoded]
          removed := by simp
          insertion := by simp [← insertion, decoded]
          inserted := by
            intro prDec member
            cases List.mem_singleton.mp member
            exact ⟨message, parsed, addition⟩ }
    · have called :
          calledFor (deletionReq, some product) = [.dbRemove product] :=
        rfl
      rw [called]
      exact
        { single := le_refl 1
          removal := by simp [← removal, decoded]
          removed := by
            intro prDec member
            cases List.mem_singleton.mp member
            rcases removed with ⟨code, coded, _, rfl⟩
            exact ⟨message, parsed, coded⟩
          insertion := by simp [← insertion, decoded]
          inserted := by simp }

/--
Behind the internal header a message makes exactly the calls that it asks for;
without one, nothing is touched.
-/
theorem dispatch_exact
    (internalHeader text : CString) (parse : CString → Option Json)
    (sent : Int) (state : State)
    (strings : ∀ message, parse text = some message →
      ReadsStrings (messageLookups message)) :
    ∃ retval after calls,
      msgDecoderWith recording internalHeader parse sent
          (internalHeader ++ text) (state, []) =
        some (retval, after, calls) ∧
      msgDecoder internalHeader parse sent (internalHeader ++ text) state =
        some (retval, after) ∧
      CallsAsked parse text calls ∧
      (calls = [] → retval = 1 ∧ after.tables = state.tables) ∧
      (retval = 0 ↔
        ∃ call, calls = [call] ∧ (call.perform state).1 = 0) := by
  rcases (sfPrDecoder_returns_iff parse text).mpr strings with
    ⟨result, product, decodes, _⟩
  rcases msgDecoder_dispatches decodes internalHeader sent state with
    ⟨retval, after, recorded, handled, dispatched⟩
  refine ⟨retval, after, _, recorded, handled, callsAsked strings decodes,
    dispatched.none, ?_⟩
  constructor
  · intro succeeded
    have asked := callsAsked strings decodes
    cases called : calledFor (result, product) with
    | nil =>
        have refused := (dispatched.none called).1
        cases succeeded.symm.trans refused
    | cons call others =>
        have single := asked.single
        rw [called, List.length_cons] at single
        have alone : others = [] := List.eq_nil_of_length_eq_zero (by omega)
        subst alone
        exact ⟨call, rfl, (dispatched.one call called).1.mp succeeded⟩
  · rintro ⟨call, called, succeeded⟩
    exact (dispatched.one call called).1.mpr succeeded

/-- The message of a removal of a carton of milk. -/
def cartonRemoval : Json :=
  .object
    [(jsonProductCode, .string (.lit "8480017439482")),
      (jsonRemove, .string (.lit "yes"))]

theorem dispatch_exact_removal :
    ∃ retval after calls,
      msgDecoderWith recording (.lit "!#+") (Json.parse Json.standardRaw) 0
          (.lit "!#+" ++ Json.printUnformatted cartonRemoval) (.start, []) =
        some (retval, after, calls) ∧
      msgDecoder (.lit "!#+") (Json.parse Json.standardRaw) 0
          (.lit "!#+" ++ Json.printUnformatted cartonRemoval) .start =
        some (retval, after) ∧
      CallsAsked (Json.parse Json.standardRaw)
        (Json.printUnformatted cartonRemoval) calls ∧
      (calls = [] → retval = 1 ∧ after.tables = State.start.tables) ∧
      (retval = 0 ↔
        ∃ call, calls = [call] ∧ (call.perform .start).1 = 0) := by
  apply dispatch_exact
  intro message parsed
  cases (Json.parse_printUnformatted Json.standardRaw_printable
    cartonRemoval).symm.trans parsed
  have removal :
      messageLookups cartonRemoval =
        [textLookup (some cartonRemoval) jsonProductCode] := by
    rfl
  have code :
      getObjectItem (some cartonRemoval) jsonProductCode =
        some (.string (.lit "8480017439482")) := by
    rfl
  rw [removal]
  simp [ReadsStrings, textLookup, code]

end SmartFridge.Dispatch
