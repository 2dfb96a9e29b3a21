import SmartFridge.Config

/-!
# Loading the configuration

For a file of the documented form both loaders come to the end of their block
and leave each field with its configured value, in whatever order the blocks,
the sections and the keys stand.
-/

namespace SmartFridge.Config

open SmartFridge.Library
open SmartFridge.Library.BlockMapping

/-! ## What the file may contain -/

/-- The sections of the block `reader`. -/
inductive ReaderSect where
  | idQueue
  | productQueue
  | testMode
  | socketMode
  | codeReader
  | logs

def ReaderSect.name : ReaderSect → CString
  | .idQueue => yamlIdQueue
  | .productQueue => yamlProdQueue
  | .testMode => yamlTestMode
  | .socketMode => yamlSocketMode
  | .codeReader => yamlCodeReader
  | .logs => yamlLogs

def ReaderField.sect : ReaderField → ReaderSect
  | .idSleep | .idSize => .idQueue
  | .prSleep | .prSize => .productQueue
  | .testSleep | .testRepeat => .testMode
  | .socketModePort => .socketMode
  | .device => .codeReader
  | .logLocation => .logs

def ReaderField.key : ReaderField → CString
  | .idSleep | .prSleep | .testSleep => yamlSleep
  | .idSize | .prSize => yamlSize
  | .testRepeat => yamlInfinite
  | .socketModePort => yamlPort
  | .device => yamlDevice
  | .logLocation => yamlLocation

/-- A port number. -/
def IsPort (numeral : Numeral) : Prop :=
  0 ≤ numeral.value ∧ numeral.value ≤ 65535

/-- Numbers are in the range of an `int` or of the ports. -/
def ReaderField.Valid : ReaderField → Value → Prop
  | .idSleep, .number numeral | .idSize, .number numeral
  | .prSleep, .number numeral | .prSize, .number numeral
  | .testSleep, .number numeral => numeral.IsInt
  | .socketModePort, .number numeral => IsPort numeral
  | .testRepeat, .text _ | .device, .text _ | .logLocation, .text _ => True
  | _, _ => False

/-- The block `reader`. -/
def readerGrammar : Grammar where
  Sect := ReaderSect
  Field := ReaderField
  sectName := ReaderSect.name
  sect := ReaderField.sect
  key := ReaderField.key
  Valid := ReaderField.Valid

instance : DecidableEq readerGrammar.Field :=
  inferInstanceAs (DecidableEq ReaderField)

/-- The sections of the block `database`. -/
inductive DbSect where
  | ports
  | headers
  | addresses
  | logs

def DbSect.name : DbSect → CString
  | .ports => yamlPorts
  | .headers => yamlHeaders
  | .addresses => yamlAddresses
  | .logs => yamlLogs

def DbField.sect : DbField → DbSect
  | .internalPort => .ports
  | .internalHeader => .headers
  | .internalAddress => .addresses
  | .logLocation => .logs

def DbField.key : DbField → CString
  | .internalPort | .internalHeader | .internalAddress => yamlInternal
  | .logLocation => yamlLocation

def DbField.Valid : DbField → Value → Prop
  | .internalPort, .number numeral => IsPort numeral
  | .internalHeader, .text _ | .internalAddress, .text _
  | .logLocation, .text _ => True
  | _, _ => False

/-- The block `database`. -/
def dbGrammar : Grammar where
  Sect := DbSect
  Field := DbField
  sectName := DbSect.name
  sect := DbField.sect
  key := DbField.key
  Valid := DbField.Valid

instance : DecidableEq dbGrammar.Field :=
  inferInstanceAs (DecidableEq DbField)

/-- A file with both blocks, in either order. -/
structure ConfigFile where
  reader : Block readerGrammar
  database : Block dbGrammar
  readerFirst : Bool

/-- The tokens of a file. -/
def ConfigFile.tokens (file : ConfigFile) : List Token :=
  let reader := pairTokens yamlReader file.reader.tokens
  let database := pairTokens yamlDatabase file.database.tokens
  .streamStart ::
    mappingTokens
        (if file.readerFirst then [reader, database] else [database, reader]) ++
      [.streamEnd]

/-- The setting of a field. -/
def ReaderConf.get (config : ReaderConf) : ReaderField → Setting
  | .idSleep => .number config.idSleep.toInt
  | .idSize => .number config.idSize.toInt
  | .prSleep => .number config.prSleep.toInt
  | .prSize => .number config.prSize.toInt
  | .testSleep => .number config.testSleep.toInt
  | .testRepeat => .text config.testRepeat
  | .device => .text config.device
  | .logLocation => .text config.logLocation
  | .socketModePort => .number config.socketModePort.toInt

/-- The setting of a field that is not mentioned. -/
def ReaderField.unset : ReaderField → Setting
  | .testRepeat | .device | .logLocation => .text none
  | _ => .number 0

/-- The setting of a field. -/
def DbConf.get (config : DbConf) : DbField → Setting
  | .internalPort => .number config.internalPort.toNat
  | .internalHeader => .text config.internalHeader
  | .internalAddress => .text config.internalAddress
  | .logLocation => .text config.logLocation

/-- The setting of a field that is not mentioned. -/
def DbField.unset : DbField → Setting
  | .internalPort => .number 0
  | _ => .text none

/-! ## The loader of the reader -/

/-- The number that a section has in `reader_section`. -/
def ReaderSect.code : ReaderSect → Int
  | .idQueue => idSect
  | .productQueue => prSect
  | .testMode => testSect
  | .socketMode => Config.socketMode
  | .codeReader => coderSect
  | .logs => rlogsSect

/-- The conversion of a field: 0 for a string and 1 for an `int`. -/
def ReaderField.type : ReaderField → Nat
  | .testRepeat | .device | .logLocation => 0
  | _ => 1

theorem ReaderSect.code_ne (sect : ReaderSect) : sect.code ≠ readSect := by
  cases sect with
  | idQueue => exact nofun
  | productQueue => exact nofun
  | testMode => exact nofun
  | socketMode => exact nofun
  | codeReader => exact nofun
  | logs => exact nofun

/-- In its own section, a key selects its field. -/
theorem readerKey_key (field : ReaderField) {loader : ReaderLoader}
    (inside : loader.sect = field.sect.code) :
    readerKey field.key loader =
      .continues { loader with data := some field, type := field.type } := by
  rcases loader with ⟨config, data, type, sect, state, errors⟩
  cases inside
  cases field with
  | idSleep => rfl
  | idSize => rfl
  | prSleep => rfl
  | prSize => rfl
  | testSleep => rfl
  | testRepeat => rfl
  | device => rfl
  | logLocation => rfl
  | socketModePort => rfl

theorem readerKey_name (sect : ReaderSect) (loader : ReaderLoader) :
    readerKey sect.name loader =
      .continues
        { loader with sect := sect.code, state := .expectBlockMapping } := by
  cases sect with
  | idQueue => rfl
  | productQueue => rfl
  | testMode => rfl
  | socketMode => rfl
  | codeReader => rfl
  | logs => rfl

/-- An `int` is written to its field alone. -/
theorem ReaderConf.writeInt_spec {field : ReaderField} (isInt : field.type = 1)
    (config : ReaderConf) (value : Int32) :
    ∃ written, config.writeInt value field = some written ∧
      written.get field = .number value.toInt ∧
        ∀ other, other ≠ field → written.get other = config.get other := by
  cases field with
  | testRepeat | device | logLocation => cases isInt
  | idSleep | idSize | prSleep | prSize | testSleep | socketModePort =>
      refine ⟨_, rfl, rfl, ?_⟩
      intro other ne
      cases other <;> first | rfl | exact absurd rfl ne

/-- A string is written to its field alone. -/
theorem ReaderConf.writeString_spec {field : ReaderField}
    (isString : field.type = 0) (config : ReaderConf) (scalar : CString) :
    ∃ written, config.writeString scalar field = some written ∧
      written.get field = .text (some scalar) ∧
        ∀ other, other ≠ field → written.get other = config.get other := by
  cases field with
  | testRepeat | device | logLocation =>
      refine ⟨_, rfl, rfl, ?_⟩
      intro other ne
      cases other <;> first | rfl | exact absurd rfl ne
  | idSleep | idSize | prSleep | prSize | testSleep | socketModePort =>
      cases isString

theorem IsPort.isInt {numeral : Numeral} (isPort : IsPort numeral) :
    numeral.IsInt := by
  rcases isPort with ⟨lower, upper⟩
  exact ⟨by omega, by omega⟩

theorem type_of_number {field : ReaderField} {numeral : Numeral}
    (valid : field.Valid (.number numeral)) :
    field.type = 1 ∧ numeral.IsInt := by
  cases field with
  | testRepeat | device | logLocation => cases valid
  | socketModePort => exact ⟨rfl, IsPort.isInt valid⟩
  | idSleep | idSize | prSleep | prSize | testSleep => exact ⟨rfl, valid⟩

theorem type_of_text {field : ReaderField} {text : CString}
    (valid : field.Valid (.text text)) : field.type = 0 := by
  cases field with
  | testRepeat | device | logLocation => rfl
  | idSleep | idSize | prSleep | prSize | testSleep | socketModePort =>
      cases valid

theorem strtol_of_isInt {numeral : Numeral} (isInt : numeral.IsInt) :
    numeral.text.strtol = numeral.value := by
  have small := isInt.small
  exact numeral.strtol_text (by omega)

/-- The loader's configuration has some settings, and nothing was logged. -/
def ReaderLoader.Has (loader : ReaderLoader)
    (settings : readerGrammar.Field → Setting) : Prop :=
  loader.config.get = settings ∧ loader.errors = []

/-- A valid value is stored in the selected field. -/
theorem readerValue_spec {field : ReaderField} {value : Value}
    (valid : field.Valid value) {loader : ReaderLoader}
    (selected : loader.data = some field) (typed : loader.type = field.type) :
    ∃ next, readerValue value.scalar loader = some next ∧
      next.sect = loader.sect ∧ next.errors = loader.errors ∧
        next.config.get =
          Function.update loader.config.get field value.setting := by
  unfold readerValue
  rw [selected]
  cases value with
  | number numeral =>
      rcases type_of_number valid with ⟨isInt, inRange⟩
      rcases loader.config.writeInt_spec isInt (.ofInt numeral.text.strtol) with
        ⟨written, wrote, own, others⟩
      rw [strtol_of_isInt inRange, Int32.toInt_ofInt_of_le inRange.1 inRange.2]
        at own
      refine ⟨{ loader with config := written, data := none }, ?_, rfl, rfl,
        Function.eq_update_iff.mpr ⟨own, others⟩⟩
      simp [typed, isInt, Value.scalar, wrote]
  | text content =>
      have isString := type_of_text valid
      rcases loader.config.writeString_spec isString content with
        ⟨written, wrote, own, others⟩
      refine ⟨{ loader with config := written, data := none }, ?_, rfl, rfl,
        Function.eq_update_iff.mpr ⟨own, others⟩⟩
      simp [typed, isString, Value.scalar, wrote]

/-- An entry sets its field, and the loader stays in the section. -/
theorem readerEntry_advances (entry : Entry readerGrammar)
    {loader : ReaderLoader} {settings : readerGrammar.Field → Setting}
    (inside : loader.sect = (readerGrammar.sect entry.field).code)
    (has : loader.Has settings) :
    ∃ next, advance readerStep entry.tokens loader = some next ∧
      next.sect = loader.sect ∧ next.Has (assign settings entry) := by
  rcases entry with ⟨field, value, valid⟩
  let keyed : ReaderLoader := { loader with state := .expectKey }
  let selected : ReaderLoader :=
    { keyed with data := some field, type := ReaderField.type field }
  let valued : ReaderLoader := { selected with state := .expectValue }
  have selects : readerStep (.scalar (readerGrammar.key field)) keyed =
      some (.continues selected) := by
    have key : readerKey (readerGrammar.key field) keyed =
        .continues selected := readerKey_key field inside
    rw [← key]
    rfl
  have isField : valued.data = some field := rfl
  have isType : valued.type = ReaderField.type field := rfl
  rcases readerValue_spec valid isField isType with
    ⟨next, wrote, sect, errors, stored⟩
  have writes : readerStep (.scalar value.scalar) valued =
      some (.continues next) := by
    have step : readerStep (.scalar value.scalar) valued =
        (readerValue value.scalar valued).map .continues := rfl
    rw [step, wrote, Option.map_some]
  have expects : readerStep .key loader = some (.continues keyed) := rfl
  have values : readerStep .value selected = some (.continues valued) := rfl
  refine ⟨next, ?_, sect, ?_, errors.trans has.2⟩
  · rw [Entry.tokens, pairTokens, advance_cons expects, advance_cons selects,
      advance_cons values, advance_cons writes]
    rfl
  · rw [stored, ← has.1]
    rfl

/-- A section sets its fields, and the loader leaves it. -/
theorem readerSection_advances (section_ : Section readerGrammar)
    (loader : ReaderLoader) (settings : readerGrammar.Field → Setting)
    (has : loader.Has settings) :
    ∃ next, advance readerStep section_.tokens loader = some next ∧
      next.Has (section_.entries.foldl assign settings) ∧
        next.sect = readSect := by
  let keyed : ReaderLoader := { loader with state := .expectKey }
  let entered : ReaderLoader :=
    { keyed with
      sect := ReaderSect.code section_.sect
      state := .expectBlockMapping }
  have expects : readerStep .key loader = some (.continues keyed) := rfl
  have enters :
      readerStep (.scalar (readerGrammar.sectName section_.sect)) keyed =
        some (.continues entered) := by
    have name : readerKey (readerGrammar.sectName section_.sect) keyed =
        .continues entered := readerKey_name section_.sect keyed
    rw [← name]
    rfl
  have values : readerStep .value entered = some (.continues entered) := rfl
  have opens : readerStep .blockMappingStart entered =
      some (.continues entered) := rfl
  have each : ∀ entry ∈ section_.entries, ∀ (state : ReaderLoader) content,
      (state.sect = ReaderSect.code section_.sect ∧ state.Has content) →
        ∃ next, advance readerStep entry.tokens state = some next ∧
          (next.sect = ReaderSect.code section_.sect ∧
            next.Has (assign content entry)) := by
    rintro entry member state content ⟨inside, hasContent⟩
    have own := section_.own entry member
    rcases readerEntry_advances entry (own ▸ inside) hasContent with
      ⟨next, ran, sect, nextHas⟩
    exact ⟨next, ran, sect.trans inside, nextHas⟩
  have start : entered.sect = ReaderSect.code section_.sect ∧
      entered.Has settings := ⟨rfl, has⟩
  rcases advance_items each start with ⟨last, ran, inside, lastHas⟩
  let left : ReaderLoader := { last with sect := readSect }
  have leaves : readerStep .blockEnd last = some (.continues left) := by
    have apart : last.sect ≠ readSect := inside ▸ section_.sect.code_ne
    rw [readerStep, if_pos apart]
  refine ⟨left, ?_, lastHas, rfl⟩
  rw [Section.tokens, pairTokens, mappingTokens, advance_cons expects,
    advance_cons enters, advance_cons values, advance_cons opens,
    advance_append, ran, Option.bind_some, advance_cons leaves]
  rfl

theorem readerConf_zero_get : ReaderConf.zero.get = ReaderField.unset := by
  funext field
  cases field with
  | idSleep | idSize | prSleep | prSize | testSleep => rfl
  | testRepeat | device | logLocation | socketModePort => rfl

/-- The reader's loader reads a whole block. -/
theorem sfLoadReaderConfig_block (sect : Int) (block : Block readerGrammar)
    (rest : List Token) :
    ∃ loader, sfLoadReaderConfig sect (.value :: block.tokens ++ rest) =
        some (0, loader) ∧
      loader.Has fun field =>
        (block.value field).elim (ReaderField.unset field) Value.setting := by
  let start : ReaderLoader :=
    { config := .zero
      data := none
      type := 0
      sect
      state := .expectBlockMapping
      errors := [] }
  have opens : advance readerStep [.value, .blockMappingStart] start =
      some start := rfl
  have has : start.Has ReaderField.unset := ⟨readerConf_zero_get, rfl⟩
  have ends (loader : ReaderLoader) (closed : loader.sect = readSect) :
      readerStep .blockEnd loader = some (.finishes loader) := by
    rw [readerStep, if_neg (not_not_intro closed)]
  exact scanLoop_block readerSection_advances ends block opens has rest

/-! ## The loader of the database -/

/-- The number that a section has in `database_section`. -/
def DbSect.code : DbSect → Int
  | .ports => Config.ports
  | .headers => Config.headers
  | .addresses => Config.addresses
  | .logs => dlogsSect

/-- The conversion of a field: 1 for a number and 2 for a string. -/
def DbField.type : DbField → Nat
  | .internalPort => 1
  | _ => 2

/-- The section behind a key, which `internal` gives up. -/
def DbField.left : DbField → Int
  | .logLocation => dlogsSect
  | _ => -1

theorem DbField.left_ne (field : DbField) : field.left ≠ readSect := by
  cases field with
  | internalPort | internalHeader | internalAddress | logLocation => exact nofun

theorem DbField.sect_injective {left right : DbField}
    (same : left.sect = right.sect) : left = right := by
  cases left with
  | internalPort =>
      cases right with
      | internalPort => rfl
      | internalHeader | internalAddress | logLocation => cases same
  | internalHeader =>
      cases right with
      | internalHeader => rfl
      | internalPort | internalAddress | logLocation => cases same
  | internalAddress =>
      cases right with
      | internalAddress => rfl
      | internalPort | internalHeader | logLocation => cases same
  | logLocation =>
      cases right with
      | logLocation => rfl
      | internalPort | internalHeader | internalAddress => cases same

/-- In its own section, a key selects its field. -/
theorem dbKey_key (field : DbField) {loader : DbLoader}
    (inside : loader.sect = field.sect.code) :
    dbKey field.key loader =
      .continues
        { loader with
          data := some field, type := field.type, sect := field.left } := by
  rcases loader with ⟨config, data, type, sect, state, errors⟩
  cases inside
  cases field with
  | internalPort | internalHeader | internalAddress | logLocation => rfl

theorem dbKey_name (sect : DbSect) (loader : DbLoader) :
    dbKey sect.name loader =
      .continues
        { loader with sect := sect.code, state := .expectBlockMapping } := by
  cases sect with
  | ports | headers | addresses | logs => rfl

theorem toNat_of_isPort {numeral : Numeral} (isPort : IsPort numeral) :
    ((UInt32.ofInt numeral.value).toNat : Int) = numeral.value := by
  rcases isPort with ⟨lower, upper⟩
  rw [UInt32.ofInt, UInt32.toNat_ofNat']
  omega

/-- The loader's configuration has some settings, and nothing was logged. -/
def DbLoader.Has (loader : DbLoader) (settings : dbGrammar.Field → Setting) :
    Prop :=
  loader.config.get = settings ∧ loader.errors = []

/-- A string is written to its field alone. -/
theorem DbConf.writeString_spec {field : DbField} (isString : field.type = 2)
    (config : DbConf) (scalar : CString) :
    ∃ written, config.writeString scalar field = some written ∧
      written.get = Function.update config.get field (.text (some scalar)) := by
  cases field with
  | internalPort => cases isString
  | internalHeader | internalAddress | logLocation =>
      refine ⟨_, rfl, Function.eq_update_iff.mpr ⟨rfl, ?_⟩⟩
      intro other ne
      cases other <;> first | rfl | exact absurd rfl ne

theorem DbConf.writeNumber_spec {field : DbField} (isNumber : field.type = 1)
    (config : DbConf) {numeral : Numeral} (isPort : IsPort numeral) :
    ∃ written, config.writeNumber numeral.text.strtol field = some written ∧
      written.get =
        Function.update config.get field (.number numeral.value) := by
  cases field with
  | internalPort =>
      refine ⟨_, rfl, Function.eq_update_iff.mpr ⟨?_, ?_⟩⟩
      · rw [strtol_of_isInt isPort.isInt]
        exact congrArg Setting.number (toNat_of_isPort isPort)
      · intro other ne
        cases other <;> first | rfl | exact absurd rfl ne
  | internalHeader | internalAddress | logLocation => cases isNumber

/-- A valid value is stored in the selected field. -/
theorem dbValue_spec {field : DbField} {value : Value}
    (valid : field.Valid value) {loader : DbLoader}
    (selected : loader.data = some field) (typed : loader.type = field.type) :
    ∃ next, dbValue value.scalar loader = some next ∧
      next.sect = loader.sect ∧ next.errors = loader.errors ∧
        next.config.get =
          Function.update loader.config.get field value.setting := by
  unfold dbValue
  cases value with
  | number numeral =>
      have isPort : field.type = 1 ∧ IsPort numeral := by
        cases field with
        | internalPort => exact ⟨rfl, valid⟩
        | internalHeader | internalAddress | logLocation => cases valid
      rcases loader.config.writeNumber_spec isPort.1 isPort.2 with
        ⟨written, wrote, stored⟩
      refine ⟨{ loader with config := written }, ?_, rfl, rfl, stored⟩
      simp [selected, typed, isPort.1, Value.scalar, wrote]
  | text content =>
      have isString : field.type = 2 := by
        cases field with
        | internalPort => cases valid
        | internalHeader | internalAddress | logLocation => rfl
      rcases loader.config.writeString_spec isString content with
        ⟨written, wrote, stored⟩
      refine ⟨{ loader with config := written }, ?_, rfl, rfl, stored⟩
      simp [selected, typed, isString, Value.scalar, wrote]

/-- An entry sets its field. -/
theorem dbEntry_advances (entry : Entry dbGrammar) {loader : DbLoader}
    {settings : dbGrammar.Field → Setting}
    (inside : loader.sect = (dbGrammar.sect entry.field).code)
    (has : loader.Has settings) :
    ∃ next, advance dbStep entry.tokens loader = some next ∧
      next.sect ≠ readSect ∧ next.Has (assign settings entry) := by
  rcases entry with ⟨field, value, valid⟩
  let keyed : DbLoader := { loader with state := .expectKey }
  let selected : DbLoader :=
    { keyed with
      data := some field
      type := DbField.type field
      sect := DbField.left field }
  let valued : DbLoader := { selected with state := .expectValue }
  have selects : dbStep (.scalar (dbGrammar.key field)) keyed =
      some (.continues selected) := by
    have key : dbKey (dbGrammar.key field) keyed = .continues selected :=
      dbKey_key field inside
    rw [← key]
    rfl
  have isField : valued.data = some field := rfl
  have isType : valued.type = DbField.type field := rfl
  rcases dbValue_spec valid isField isType with
    ⟨next, wrote, sect, errors, stored⟩
  have writes : dbStep (.scalar value.scalar) valued =
      some (.continues next) := by
    have step : dbStep (.scalar value.scalar) valued =
        (dbValue value.scalar valued).map .continues := rfl
    rw [step, wrote, Option.map_some]
  have expects : dbStep .key loader = some (.continues keyed) := rfl
  have values : dbStep .value selected = some (.continues valued) := rfl
  refine ⟨next, ?_, sect ▸ DbField.left_ne field, ?_, errors.trans has.2⟩
  · rw [Entry.tokens, pairTokens, advance_cons expects, advance_cons selects,
      advance_cons values, advance_cons writes]
    rfl
  · rw [stored, ← has.1]
    rfl

/-- Each section of the database has a single key. -/
theorem dbSection_single (section_ : Section dbGrammar) :
    ∃ entry, section_.entries = [entry] := by
  rcases entries : section_.entries with _ | ⟨entry, rest⟩
  · exact absurd entries section_.nonempty
  · cases rest with
    | nil => exact ⟨entry, rfl⟩
    | cons other more =>
        have own := section_.own
        have distinct := section_.distinct
        rw [entries] at own distinct
        have same : entry.field = other.field := by
          apply DbField.sect_injective
          have first := own entry List.mem_cons_self
          have second := own other (List.mem_cons_of_mem _ List.mem_cons_self)
          exact first.trans second.symm
        rw [List.map_cons, List.map_cons, same, List.nodup_cons] at distinct
        exact absurd List.mem_cons_self distinct.1

/-- A section sets its field, and the loader leaves it. -/
theorem dbSection_advances (section_ : Section dbGrammar) (loader : DbLoader)
    (settings : dbGrammar.Field → Setting) (has : loader.Has settings) :
    ∃ next, advance dbStep section_.tokens loader = some next ∧
      next.Has (section_.entries.foldl assign settings) ∧
        next.sect = readSect := by
  let keyed : DbLoader := { loader with state := .expectKey }
  let entered : DbLoader :=
    { keyed with
      sect := DbSect.code section_.sect
      state := .expectBlockMapping }
  have expects : dbStep .key loader = some (.continues keyed) := rfl
  have enters :
      dbStep (.scalar (dbGrammar.sectName section_.sect)) keyed =
        some (.continues entered) := by
    have name : dbKey (dbGrammar.sectName section_.sect) keyed =
        .continues entered := dbKey_name section_.sect keyed
    rw [← name]
    rfl
  have values : dbStep .value entered = some (.continues entered) := rfl
  have opens : dbStep .blockMappingStart entered =
      some (.continues entered) := rfl
  rcases dbSection_single section_ with ⟨entry, entries⟩
  have own : dbGrammar.sect entry.field = section_.sect :=
    section_.own entry (by simp [entries])
  have inside : entered.sect = (dbGrammar.sect entry.field).code :=
    congrArg DbSect.code own.symm
  have start : entered.Has settings := has
  rcases dbEntry_advances entry inside start with ⟨last, ran, apart, lastHas⟩
  let left : DbLoader := { last with sect := readSect }
  have leaves : dbStep .blockEnd last = some (.continues left) := by
    rw [dbStep, if_pos apart]
  refine ⟨left, ?_, ?_, rfl⟩
  · rw [Section.tokens, pairTokens, mappingTokens, advance_cons expects,
      advance_cons enters, advance_cons values, advance_cons opens,
      advance_append, entries, List.map_singleton, List.flatten_singleton,
      ran, Option.bind_some, advance_cons leaves]
    rfl
  · rw [entries]
    exact lastHas

theorem dbConf_zero_get : DbConf.zero.get = DbField.unset := by
  funext field
  cases field with
  | internalPort | internalHeader | internalAddress | logLocation => rfl

/-- The database's loader reads a whole block. -/
theorem sfLoadDbConfig_block (sect : Int) (block : Block dbGrammar)
    (rest : List Token) :
    ∃ loader, sfLoadDbConfig sect (.value :: block.tokens ++ rest) =
        some (0, loader) ∧
      loader.Has fun field =>
        (block.value field).elim (DbField.unset field) Value.setting := by
  let start : DbLoader :=
    { config := .zero
      data := none
      type := 0
      sect
      state := .expectBlockMapping
      errors := [] }
  have opens : advance dbStep [.value, .blockMappingStart] start =
      some start := rfl
  have has : start.Has DbField.unset := ⟨dbConf_zero_get, rfl⟩
  have ends (loader : DbLoader) (closed : loader.sect = readSect) :
      dbStep .blockEnd loader = some (.finishes loader) := by
    rw [dbStep, if_neg (not_not_intro closed)]
  exact scanLoop_block dbSection_advances ends block opens has rest

/-! ## The file -/

/-- The name of neither block. -/
def Foreign (name : CString) : Prop :=
  name ≠ yamlReader ∧ name ≠ yamlDatabase

section Skipping

variable {type : NConfig} {sect : Int}

/-- Tokens at which `sf_read_config` calls no loader. -/
def Skipped (type : NConfig) (sect : Int) (tokens : List Token) : Prop :=
  ∀ rest state, ∃ later,
    readLoop type sect (tokens ++ rest) state = readLoop type sect rest later

theorem Skipped.append {first second : List Token}
    (firstSkipped : Skipped type sect first)
    (secondSkipped : Skipped type sect second) :
    Skipped type sect (first ++ second) := by
  intro rest state
  rcases firstSkipped (second ++ rest) state with ⟨middle, first⟩
  rcases secondSkipped rest middle with ⟨later, second⟩
  exact ⟨later, by rw [List.append_assoc, first, second]⟩

theorem Skipped.flatten {parts : List (List Token)}
    (skipped : ∀ part ∈ parts, Skipped type sect part) :
    Skipped type sect parts.flatten := by
  induction parts with
  | nil => exact fun rest state => ⟨state, rfl⟩
  | cons part more ih =>
      rw [List.flatten_cons]
      exact (skipped part List.mem_cons_self).append
        (ih fun later member => skipped later (List.mem_cons_of_mem _ member))

theorem Skipped.mapping {pairs : List (List Token)}
    (skipped : ∀ pair ∈ pairs, Skipped type sect pair) :
    Skipped type sect (mappingTokens pairs) := by
  have start : Skipped type sect [.blockMappingStart] :=
    fun rest state => ⟨.expectNothing, rfl⟩
  have stop : Skipped type sect [.blockEnd] :=
    fun rest state => ⟨.expectNothing, rfl⟩
  exact start.append ((Skipped.flatten skipped).append stop)

theorem Skipped.pair {key : CString} {content : List Token}
    (keySkipped : Skipped type sect [.key, .scalar key])
    (skipped : Skipped type sect content) :
    Skipped type sect (pairTokens key content) := by
  have value : Skipped type sect [.value] :=
    fun rest state => ⟨.expectNothing, rfl⟩
  exact keySkipped.append (value.append skipped)

theorem skipped_key {key : CString} (foreign : Foreign key) :
    Skipped type sect [.key, .scalar key] := by
  intro rest state
  refine ⟨.expectNothing, ?_⟩
  rw [List.cons_append, List.cons_append, List.nil_append, readLoop, readLoop,
    if_pos rfl, if_neg foreign.1, if_neg foreign.2]

/-- A scalar that is no key is not compared with anything. -/
theorem skipped_entry {grammar : Grammar}
    (keys : ∀ field, Foreign (grammar.key field)) (entry : Entry grammar) :
    Skipped type sect entry.tokens := by
  intro rest state
  rcases skipped_key (keys entry.field)
      (.value :: .scalar entry.value.scalar :: rest) state with ⟨later, skip⟩
  refine ⟨.expectNothing, ?_⟩
  have value : readLoop type sect
      (.value :: .scalar entry.value.scalar :: rest) later =
        readLoop type sect rest .expectNothing := by
    rw [readLoop, readLoop, if_neg nofun]
  rw [← value, ← skip]
  rfl

theorem skipped_block {grammar : Grammar}
    (keys : ∀ field, Foreign (grammar.key field))
    (names : ∀ section_, Foreign (grammar.sectName section_))
    (block : Block grammar) : Skipped type sect block.tokens := by
  apply Skipped.mapping
  intro pair member
  rcases List.mem_map.mp member with ⟨section_, _, rfl⟩
  apply Skipped.pair (skipped_key (names section_.sect))
  apply Skipped.mapping
  intro inner innerMember
  rcases List.mem_map.mp innerMember with ⟨entry, _, rfl⟩
  exact skipped_entry keys entry

end Skipping

theorem readerKey_foreign (field : ReaderField) : Foreign field.key := by
  cases field with
  | idSleep | prSleep | testSleep => exact ⟨by decide, by decide⟩
  | idSize | prSize => exact ⟨by decide, by decide⟩
  | testRepeat | device | logLocation | socketModePort =>
      exact ⟨by decide, by decide⟩

theorem readerName_foreign (sect : ReaderSect) : Foreign sect.name := by
  cases sect with
  | idQueue | productQueue | testMode | socketMode | codeReader | logs =>
      exact ⟨by decide, by decide⟩

theorem dbKey_foreign (field : DbField) : Foreign field.key := by
  cases field with
  | internalPort | internalHeader | internalAddress | logLocation =>
      exact ⟨by decide, by decide⟩

theorem dbName_foreign (sect : DbSect) : Foreign sect.name := by
  cases sect with
  | ports | headers | addresses | logs => exact ⟨by decide, by decide⟩

theorem skipped_reader (sect : Int) (block : Block readerGrammar) :
    Skipped .nDb sect (pairTokens yamlReader block.tokens) :=
  Skipped.pair (fun _ _ => ⟨.expectNothing, rfl⟩)
    (skipped_block readerKey_foreign readerName_foreign block)

theorem skipped_database (sect : Int) (block : Block dbGrammar) :
    Skipped .nReader sect (pairTokens yamlDatabase block.tokens) :=
  Skipped.pair (fun _ _ => ⟨.expectNothing, rfl⟩)
    (skipped_block dbKey_foreign dbName_foreign block)

/-- The configuration has the values of a block, and zero or NULL elsewhere. -/
def ReaderConf.Exact (config : ReaderConf) (block : Block readerGrammar) :
    Prop :=
  ∀ field : ReaderField,
    config.get field = (block.value field).elim field.unset Value.setting

/-- The configuration has the values of a block, and zero or NULL elsewhere. -/
def DbConf.Exact (config : DbConf) (block : Block dbGrammar) : Prop :=
  ∀ field : DbField,
    config.get field = (block.value field).elim field.unset Value.setting

/-- Where its block begins, the reader's configuration is loaded. -/
theorem readLoop_reader (sect : Int) (block : Block readerGrammar)
    (rest : List Token) (state : YamlState) :
    ∃ config : ReaderConf,
      readLoop .nReader sect (pairTokens yamlReader block.tokens ++ rest)
          state =
        some (0, .reader config, []) ∧ config.Exact block := by
  rcases sfLoadReaderConfig_block sect block rest with
    ⟨loader, loaded, settings, quiet⟩
  refine ⟨loader.config, ?_, congrFun settings⟩
  have called : readLoop .nReader sect
      (pairTokens yamlReader block.tokens ++ rest) state =
        (sfLoadReaderConfig sect (.value :: block.tokens ++ rest)).map
          fun result => (0, .reader result.2.config, result.2.errors) :=
    rfl
  rw [called, loaded, ← quiet]
  rfl

/-- Where its block begins, the database's configuration is loaded. -/
theorem readLoop_database (sect : Int) (block : Block dbGrammar)
    (rest : List Token) (state : YamlState) :
    ∃ config : DbConf,
      readLoop .nDb sect (pairTokens yamlDatabase block.tokens ++ rest)
          state =
        some (0, .database config, []) ∧ config.Exact block := by
  rcases sfLoadDbConfig_block sect block rest with
    ⟨loader, loaded, settings, quiet⟩
  refine ⟨loader.config, ?_, congrFun settings⟩
  have called : readLoop .nDb sect
      (pairTokens yamlDatabase block.tokens ++ rest) state =
        (sfLoadDbConfig sect (.value :: block.tokens ++ rest)).map
          fun result =>
            (if result.1 ≠ 0 then 1 else 0, .database result.2.config,
              result.2.errors) :=
    rfl
  rw [called, loaded, ← quiet]
  rfl

section File

variable (file : ConfigFile) (sect : Int) (state : YamlState)

/-- The reader's configuration, whether its block comes first or last. -/
theorem exists_sfReadConfig_reader :
    ∃ config : ReaderConf,
      sfReadConfig .nReader sect state file.tokens =
          some (0, .reader config, []) ∧
        config.Exact file.reader := by
  cases order : file.readerFirst with
  | true =>
      rcases readLoop_reader sect file.reader
          (pairTokens yamlDatabase file.database.tokens ++
            [.blockEnd, .streamEnd]) .expectNothing with
        ⟨config, loaded, exact_⟩
      refine ⟨config, ?_, exact_⟩
      rw [← loaded]
      simp [sfReadConfig, ConfigFile.tokens, mappingTokens, order, readLoop]
  | false =>
      rcases skipped_database sect file.database
          (pairTokens yamlReader file.reader.tokens ++
            [.blockEnd, .streamEnd]) .expectNothing with
        ⟨later, skip⟩
      rcases readLoop_reader sect file.reader [.blockEnd, .streamEnd]
          later with
        ⟨config, loaded, exact_⟩
      refine ⟨config, ?_, exact_⟩
      rw [← loaded, ← skip]
      simp [sfReadConfig, ConfigFile.tokens, mappingTokens, order, readLoop]

/-- The database's configuration, whether its block comes first or last. -/
theorem exists_sfReadConfig_database :
    ∃ config : DbConf,
      sfReadConfig .nDb sect state file.tokens =
          some (0, .database config, []) ∧
        config.Exact file.database := by
  cases order : file.readerFirst with
  | true =>
      rcases skipped_reader sect file.reader
          (pairTokens yamlDatabase file.database.tokens ++
            [.blockEnd, .streamEnd]) .expectNothing with
        ⟨later, skip⟩
      rcases readLoop_database sect file.database [.blockEnd, .streamEnd]
          later with
        ⟨config, loaded, exact_⟩
      refine ⟨config, ?_, exact_⟩
      rw [← loaded, ← skip]
      simp [sfReadConfig, ConfigFile.tokens, mappingTokens, order, readLoop]
  | false =>
      rcases readLoop_database sect file.database
          (pairTokens yamlReader file.reader.tokens ++
            [.blockEnd, .streamEnd]) .expectNothing with
        ⟨config, loaded, exact_⟩
      refine ⟨config, ?_, exact_⟩
      rw [← loaded]
      simp [sfReadConfig, ConfigFile.tokens, mappingTokens, order, readLoop]

end File

/-- Both configurations are loaded exactly, whatever the order in the file. -/
theorem load_exact (file : ConfigFile) (sect : Int) (state : YamlState) :
    (∃ config : ReaderConf,
      sfReadConfig .nReader sect state file.tokens =
          some (0, .reader config, []) ∧
        config.Exact file.reader) ∧
    ∃ config : DbConf,
      sfReadConfig .nDb sect state file.tokens =
          some (0, .database config, []) ∧
        config.Exact file.database :=
  ⟨exists_sfReadConfig_reader file sect state,
    exists_sfReadConfig_database file sect state⟩

end SmartFridge.Config
