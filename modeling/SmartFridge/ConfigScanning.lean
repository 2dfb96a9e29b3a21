import SmartFridge.Config
import SmartFridge.Library.Scanning

/-!
# Scanning the configuration file

The loops of `sf_read_config` and its loaders over a scanner that answers with
empty tokens behind the end of the file.  Which token ends a loader depends on
its section and on what it expects, so that it can be told from the file whether
the configuration is ever loaded, and whether a failure is reported.
-/

namespace SmartFridge.ConfigScanning

open SmartFridge.Library
open SmartFridge.Library.BlockMapping
open SmartFridge.Library.Scanning
open SmartFridge.Config

deriving instance DecidableEq for Token

/-- A token of the scanner; the loops take no notice of block sequences. -/
inductive ScannerToken where
  | plain (token : Token)
  | blockSequenceStart
deriving DecidableEq

/-- The token as the loops see it. -/
def ScannerToken.token : ScannerToken → Token
  | .plain token => token
  | .blockSequenceStart => .other

/-- The token that `yaml_parser_scan` leaves behind the end of the file. -/
abbrev emptyToken : ScannerToken :=
  .plain .other

/-! ## The loops -/

/-- One round of the loop of `sf_load_reader_config`.  A value that is written
over a field of the other type spoils the configuration but not the loop. -/
def readerRound (scanned : ScannerToken) (loader : ReaderLoader) :
    Progress ReaderLoader :=
  (readerStep scanned.token loader).getD (.continues { loader with data := none })

/-- One round of the loop of `sf_load_db_config`, which is always a step. -/
def dbRound (scanned : ScannerToken) (loader : DbLoader) : Progress DbLoader :=
  (dbStep scanned.token loader).getD (.continues loader)

/-- `sf_load_reader_config`. -/
def sfLoadReaderConfig (sect : Int) (scans : List (Option ScannerToken)) :
    Option (Reading ScannerToken ReaderLoader) :=
  loop readerRound scans (ReaderLoader.start sect)

/-- `sf_load_db_config`. -/
def sfLoadDbConfig (sect : Int) (scans : List (Option ScannerToken)) :
    Option (Reading ScannerToken DbLoader) :=
  loop dbRound scans (DbLoader.start sect)

/-- What a loader did: its result, the tokens that it took, and whether the
scanner failed. -/
structure BlockReading where
  result : Int
  read : List ScannerToken
  failed : Bool
deriving DecidableEq

/-- What `sf_read_config` returns and leaves behind its last argument, with the
history of the loader if one was called. -/
structure Outcome where
  retval : Int
  loaded : Loaded
  errors : List ConfigError
  block : Option BlockReading

/-- The history of a loader. -/
def blockReading {σ : Type} (reading : Reading ScannerToken σ) : BlockReading :=
  { result := reading.result, read := reading.read, failed := reading.failed }

/-- The end of `sf_read_config` behind the loader of the reader, whose result
is not looked at. -/
def Outcome.ofReader (reading : Reading ScannerToken ReaderLoader) : Outcome :=
  { retval := 0
    loaded := .reader reading.state.config
    errors := reading.state.errors
    block := some (blockReading reading) }

/-- The end of `sf_read_config` behind the other loader. -/
def Outcome.ofDb (reading : Reading ScannerToken DbLoader) : Outcome :=
  { retval := if reading.result ≠ 0 then 1 else 0
    loaded := .database reading.state.config
    errors := reading.state.errors
    block := some (blockReading reading) }

/-- The end of `sf_read_config` when the scanner fails outside the loaders. -/
def Outcome.null : Outcome :=
  { retval := 0, loaded := .null, errors := [], block := none }

/-- `sf_read_config` on a file that can be opened; no result as long as it calls
the scanner again. -/
def sfReadConfig (type : NConfig) (sect : Int) :
    List (Option ScannerToken) → YamlState → Option Outcome
  | [], _ => none
  | none :: _, _ => some .null
  | some scanned :: rest, state =>
      match scanned.token with
      | .key => sfReadConfig type sect rest .expectKey
      | .scalar scalar =>
          if state = .expectKey then
            if scalar = yamlReader then
              if type = .nReader then
                (sfLoadReaderConfig sect rest).map .ofReader
              else
                sfReadConfig type sect rest .expectNothing
            else if scalar = yamlDatabase then
              if type = .nDb then
                (sfLoadDbConfig sect rest).map .ofDb
              else
                sfReadConfig type sect rest .expectNothing
            else
              sfReadConfig type sect rest .expectNothing
          else
            sfReadConfig type sect rest .expectNothing
      | .streamStart | .streamEnd | .blockMappingStart | .blockEnd | .value
      | .other => sfReadConfig type sect rest .expectNothing

/-- A file that can be opened, as the scanner takes it apart: its tokens, and
whether the scanner fails behind them. -/
structure File where
  tokens : List ScannerToken
  fails : Bool

/-- The uninitialised variables of the functions. -/
structure Garbage where
  sect : Int
  state : YamlState

/-- `sf_read_config` returns in this way. -/
def Returns (type : NConfig) (garbage : Garbage) (file : File)
    (outcome : Outcome) : Prop :=
  ∃ calls, sfReadConfig type garbage.sect
    (answers emptyToken file.fails file.tokens calls) garbage.state =
      some outcome

/-! ## Which token ends a loader -/

/-- What decides about the course of a loader. -/
structure Control where
  sect : Int
  state : YamlState
deriving DecidableEq

/-- Where a tag of the reader takes its loader; nothing for an invalid tag. -/
def readerTag (scalar : CString) (sect : Int) : Option Control :=
  if scalar = yamlSize then some ⟨sect, .expectKey⟩
  else if scalar = yamlSleep then some ⟨sect, .expectKey⟩
  else if scalar = yamlInfinite then some ⟨sect, .expectKey⟩
  else if scalar = yamlDevice then some ⟨sect, .expectKey⟩
  else if scalar = yamlPort then some ⟨sect, .expectKey⟩
  else if scalar = yamlLocation then some ⟨sect, .expectKey⟩
  else if scalar = yamlIdQueue then some ⟨idSect, .expectBlockMapping⟩
  else if scalar = yamlProdQueue then some ⟨prSect, .expectBlockMapping⟩
  else if scalar = yamlTestMode then some ⟨testSect, .expectBlockMapping⟩
  else if scalar = yamlCodeReader then some ⟨coderSect, .expectBlockMapping⟩
  else if scalar = yamlLogs then some ⟨rlogsSect, .expectBlockMapping⟩
  else if scalar = yamlSocketMode then some ⟨socketMode, .expectBlockMapping⟩
  else none

/-- Where a tag of the database takes its loader. -/
def dbTag (scalar : CString) (sect : Int) : Option Control :=
  if scalar = yamlInternal then some ⟨-1, .expectKey⟩
  else if scalar = yamlLocation then some ⟨sect, .expectKey⟩
  else if scalar = yamlPorts then some ⟨ports, .expectBlockMapping⟩
  else if scalar = yamlHeaders then some ⟨headers, .expectBlockMapping⟩
  else if scalar = yamlAddresses then some ⟨addresses, .expectBlockMapping⟩
  else if scalar = yamlLogs then some ⟨dlogsSect, .expectBlockMapping⟩
  else none

/-- The tags of a configuration. -/
def blockTag : NConfig → CString → Int → Option Control
  | .nReader => readerTag
  | .nDb => dbTag

/-- A tag goes on to where it leads, and an invalid one fails. -/
def afterTag (control : Control) : Option Control → Progress Control
  | some next => .continues next
  | none => .fails control

@[simp]
theorem afterTag_some (control next : Control) :
    afterTag control (some next) = .continues next :=
  rfl

@[simp]
theorem afterTag_none (control : Control) :
    afterTag control none = .fails control :=
  rfl

/-- A token fails a loader if it is an invalid tag or an unexpected mapping, and
finishes it if it is a block end at which `sect` is `read_sect`. -/
def controlStep (tag : CString → Int → Option Control) (scanned : ScannerToken)
    (control : Control) : Progress Control :=
  match scanned.token with
  | .key => .continues { control with state := .expectKey }
  | .value =>
      .continues
        (if control.state ≠ .expectBlockMapping then
          { control with state := .expectValue }
        else
          control)
  | .blockMappingStart =>
      if control.state ≠ .expectBlockMapping then
        .fails control
      else
        .continues control
  | .scalar scalar =>
      if control.state = .expectKey then
        afterTag control (tag scalar control.sect)
      else
        .continues control
  | .blockEnd =>
      if control.sect ≠ readSect then
        .continues { control with sect := readSect }
      else
        .finishes control
  | .streamStart | .streamEnd | .other => .continues control

def ReaderLoader.control (loader : ReaderLoader) : Control :=
  { sect := loader.sect, state := loader.state }

def DbLoader.control (loader : DbLoader) : Control :=
  { sect := loader.sect, state := loader.state }

theorem readerKey_control (scalar : CString) {loader : ReaderLoader}
    (expects : loader.state = .expectKey) :
    viewed ReaderLoader.control (readerKey scalar loader) =
      afterTag (ReaderLoader.control loader)
        (readerTag scalar loader.sect) := by
  unfold readerKey readerTag
  simp only [apply_ite (viewed ReaderLoader.control), viewed_continues,
    viewed_fails, ReaderLoader.control, expects, apply_ite (afterTag _),
    afterTag_some, afterTag_none]

theorem dbKey_control (scalar : CString) {loader : DbLoader}
    (expects : loader.state = .expectKey) :
    viewed DbLoader.control (dbKey scalar loader) =
      afterTag (DbLoader.control loader) (dbTag scalar loader.sect) := by
  unfold dbKey dbTag
  simp only [apply_ite (viewed DbLoader.control), viewed_continues,
    viewed_fails, DbLoader.control, apply_ite DbLoader.state, expects,
    ite_self, apply_ite (afterTag _), afterTag_some, afterTag_none]

theorem readerValue_control {scalar : CString} {loader next : ReaderLoader}
    (written : readerValue scalar loader = some next) :
    ReaderLoader.control next = ReaderLoader.control loader := by
  unfold readerValue at written
  cases target : loader.data with
  | none =>
      rw [target] at written
      cases written
      rfl
  | some field =>
      rw [target] at written
      rcases Option.map_eq_some_iff.mp written with ⟨config, _, rfl⟩
      rfl

theorem dbValue_control {scalar : CString} {loader next : DbLoader}
    (written : dbValue scalar loader = some next) :
    DbLoader.control next = DbLoader.control loader := by
  unfold dbValue at written
  split at written
  · rcases Option.map_eq_some_iff.mp written with ⟨config, _, rfl⟩
    rfl
  · split at written
    · rcases Option.map_eq_some_iff.mp written with ⟨config, _, rfl⟩
      rfl
    · cases written
      rfl

/-- A scalar is taken as a key, or written without a change of the control. -/
theorem viewed_scalar {σ : Type} {control : σ → Control} {loader spoiled : σ}
    {state : YamlState} {key : Progress σ} {value : Option σ}
    {after : Progress Control}
    (keyed : state = .expectKey → viewed control key = after)
    (written : ∀ next, value = some next → control next = control loader)
    (kept : control spoiled = control loader) :
    viewed control
        ((if state = .expectKey then some key
          else if state = .expectValue then value.map .continues
          else some (.continues loader)).getD (.continues spoiled)) =
      if state = .expectKey then after else .continues (control loader) := by
  by_cases expects : state = .expectKey
  · rw [if_pos expects, if_pos expects, Option.getD_some, keyed expects]
  · rw [if_neg expects, if_neg expects]
    split
    · cases stored : value with
      | none => exact congrArg Progress.continues kept
      | some next => exact congrArg Progress.continues (written next stored)
    · rfl

/-- The loop of the reader's loader goes as its section and state tell. -/
theorem readerRound_control (scanned : ScannerToken) (loader : ReaderLoader) :
    viewed ReaderLoader.control (readerRound scanned loader) =
      controlStep readerTag scanned (ReaderLoader.control loader) := by
  rcases loader with ⟨config, data, type, sect, state, errors⟩
  change _ = controlStep readerTag scanned { sect, state }
  unfold readerRound controlStep
  cases scanned.token with
  | scalar scalar =>
      exact viewed_scalar (readerKey_control scalar)
        (fun _ stored => readerValue_control stored) rfl
  | value =>
      dsimp only [readerStep]
      rw [Option.getD_some, viewed_continues, apply_ite ReaderLoader.control]
      rfl
  | blockMappingStart =>
      dsimp only [readerStep]
      by_cases expects : state ≠ .expectBlockMapping
      · rw [if_pos expects, if_pos expects]
        rfl
      · rw [if_neg expects, if_neg expects]
        rfl
  | blockEnd =>
      dsimp only [readerStep]
      by_cases inside : sect ≠ readSect
      · rw [if_pos inside, if_pos inside]
        rfl
      · rw [if_neg inside, if_neg inside]
        rfl
  | key => rfl
  | streamStart => rfl
  | streamEnd => rfl
  | other => rfl

/-- The loop of the other loader goes as its section and state tell. -/
theorem dbRound_control (scanned : ScannerToken) (loader : DbLoader) :
    viewed DbLoader.control (dbRound scanned loader) =
      controlStep dbTag scanned (DbLoader.control loader) := by
  rcases loader with ⟨config, data, type, sect, state, errors⟩
  change _ = controlStep dbTag scanned { sect, state }
  unfold dbRound controlStep
  cases scanned.token with
  | scalar scalar =>
      exact viewed_scalar (dbKey_control scalar)
        (fun _ stored => dbValue_control stored) rfl
  | value =>
      dsimp only [dbStep]
      rw [Option.getD_some, viewed_continues, apply_ite DbLoader.control]
      rfl
  | blockMappingStart =>
      dsimp only [dbStep]
      by_cases expects : state ≠ .expectBlockMapping
      · rw [if_pos expects, if_pos expects]
        rfl
      · rw [if_neg expects, if_neg expects]
        rfl
  | blockEnd =>
      dsimp only [dbStep]
      by_cases inside : sect ≠ readSect
      · rw [if_pos inside, if_pos inside]
        rfl
      · rw [if_neg inside, if_neg inside]
        rfl
  | key => rfl
  | streamStart => rfl
  | streamEnd => rfl
  | other => rfl

/-! ## Fields of the type that is expected -/

/-- `conv.data` points at a field of the type that `conv.type` says. -/
structure Consistent (loader : DbLoader) : Prop where
  number : loader.type = 1 → loader.data = some .internalPort
  string : loader.type = 2 →
    ∃ field, loader.data = some field ∧ field ≠ .internalPort

theorem consistent_start (sect : Int) : Consistent (DbLoader.start sect) where
  number := fun impossible => by cases impossible
  string := fun impossible => by cases impossible

section Consistent

variable {loader : DbLoader} (consistent : Consistent loader)
include consistent

theorem Consistent.key {scalar : CString} {next : DbLoader}
    (keyed : dbKey scalar loader = .continues next) : Consistent next := by
  have number (sect : Int) :
      Consistent
        { loader with data := some .internalPort, type := 1, sect } :=
    ⟨fun _ => rfl, fun impossible => by cases impossible⟩
  have string (sect : Int) (field : DbField) (own : field ≠ .internalPort) :
      Consistent { loader with data := some field, type := 2, sect } :=
    ⟨fun (impossible : 2 = 1) => absurd impossible (by decide),
      fun _ => ⟨field, rfl, own⟩⟩
  have moved (sect : Int) (state : YamlState) :
      Consistent { loader with sect, state } :=
    ⟨consistent.number, consistent.string⟩
  unfold dbKey at keyed
  split at keyed
  · cases keyed
    split
    · exact number (-1)
    · split
      · exact string (-1) .internalHeader (by decide)
      · split
        · exact string (-1) .internalAddress (by decide)
        · exact moved (-1) loader.state
  · split at keyed
    · cases keyed
      exact string loader.sect .logLocation (by decide)
    · split at keyed
      · cases keyed
        exact moved ports .expectBlockMapping
      · split at keyed
        · cases keyed
          exact moved headers .expectBlockMapping
        · split at keyed
          · cases keyed
            exact moved addresses .expectBlockMapping
          · split at keyed
            · cases keyed
              exact moved dlogsSect .expectBlockMapping
            · cases keyed

theorem Consistent.value (scalar : CString) :
    ∃ next, dbValue scalar loader = some next ∧ Consistent next := by
  unfold dbValue
  by_cases number : loader.type = 1
  · have written :
        ∃ config, loader.data.bind
          (loader.config.writeNumber scalar.strtol) = some config := by
      rw [consistent.number number]
      exact ⟨_, rfl⟩
    rcases written with ⟨config, written⟩
    rw [if_pos number, written]
    exact ⟨_, rfl, consistent.number, consistent.string⟩
  · rw [if_neg number]
    by_cases string : loader.type = 2
    · have written :
          ∃ config, loader.data.bind
            (loader.config.writeString scalar) = some config := by
        rcases consistent.string string with ⟨field, target, own⟩
        rw [target]
        cases field with
        | internalPort => exact absurd rfl own
        | internalHeader => exact ⟨_, rfl⟩
        | internalAddress => exact ⟨_, rfl⟩
        | logLocation => exact ⟨_, rfl⟩
      rcases written with ⟨config, written⟩
      rw [if_pos string, written]
      exact ⟨_, rfl, consistent.number, consistent.string⟩
    · rw [if_neg string]
      exact ⟨loader, rfl, consistent⟩

/-- A step of a consistent loader has a result, and keeps it consistent. -/
theorem Consistent.step (token : Token) :
    ∃ progress, dbStep token loader = some progress ∧
      ∀ next, progress = .continues next → Consistent next := by
  cases token with
  | scalar scalar =>
      dsimp only [dbStep]
      split
      · exact ⟨_, rfl, fun next keyed => consistent.key keyed⟩
      · split
        · rcases consistent.value scalar with ⟨after, written, kept⟩
          rw [written]
          refine ⟨_, rfl, fun next same => ?_⟩
          cases same
          exact kept
        · refine ⟨_, rfl, fun next same => ?_⟩
          cases same
          exact consistent
  | value =>
      refine ⟨_, rfl, fun next same => ?_⟩
      cases same
      split
      · exact ⟨consistent.number, consistent.string⟩
      · exact consistent
  | blockMappingStart =>
      dsimp only [dbStep]
      split
      · exact ⟨_, rfl, fun next impossible => by cases impossible⟩
      · refine ⟨_, rfl, fun next same => ?_⟩
        cases same
        exact consistent
  | blockEnd =>
      dsimp only [dbStep]
      split
      · refine ⟨_, rfl, fun next same => ?_⟩
        cases same
        exact ⟨consistent.number, consistent.string⟩
      · exact ⟨_, rfl, fun next impossible => by cases impossible⟩
  | key =>
      refine ⟨_, rfl, fun next same => ?_⟩
      cases same
      exact ⟨consistent.number, consistent.string⟩
  | streamStart => exact ⟨_, rfl, fun next same => by cases same; exact consistent⟩
  | streamEnd => exact ⟨_, rfl, fun next same => by cases same; exact consistent⟩
  | other => exact ⟨_, rfl, fun next same => by cases same; exact consistent⟩

/-- A round is always a step, as no field of another type is written over. -/
theorem Consistent.round (scanned : ScannerToken) :
    dbStep scanned.token loader = some (dbRound scanned loader) ∧
      ∀ next, dbRound scanned loader = .continues next →
        Consistent next := by
  rcases consistent.step scanned.token with ⟨progress, stepped, kept⟩
  have same : dbRound scanned loader = progress := by
    rw [dbRound, stepped, Option.getD_some]
  rw [same]
  exact ⟨stepped, kept⟩

end Consistent

/-- What a round would do without a step does not matter, as every round of
`sf_load_db_config` writes over a field of the type that it expects. -/
theorem sfLoadDbConfig_eq
    (spoiled : ScannerToken → DbLoader → Progress DbLoader) (sect : Int)
    (scans : List (Option ScannerToken)) :
    loop (fun scanned loader =>
        (dbStep scanned.token loader).getD (spoiled scanned loader))
      scans (DbLoader.start sect) = sfLoadDbConfig sect scans := by
  apply loop_congr Consistent _ scans (consistent_start sect)
  intro scanned loader consistent
  rcases consistent.round scanned with ⟨stepped, kept⟩
  exact ⟨by rw [stepped, Option.getD_some], kept⟩

/-! ## What is behind the key of a block -/

/-- The name of the block of a configuration. -/
def blockName : NConfig → CString
  | .nReader => yamlReader
  | .nDb => yamlDatabase

/-- What `sf_read_config` expects behind a token. -/
def expected (scanned : ScannerToken) : YamlState :=
  if scanned.token = .key then .expectKey else .expectNothing

/-- The tokens behind the name of a block, if a file has it as a key. -/
def behindName (name : CString) :
    List ScannerToken → YamlState → Option (List ScannerToken)
  | [], _ => none
  | scanned :: rest, state =>
      if state = .expectKey ∧ scanned.token = .scalar name then
        some rest
      else
        behindName name rest (expected scanned)

/-- The end of `sf_read_config` from the call of a loader on. -/
def load (type : NConfig) (sect : Int) (scans : List (Option ScannerToken)) :
    Option Outcome :=
  match type with
  | .nReader => (sfLoadReaderConfig sect scans).map .ofReader
  | .nDb => (sfLoadDbConfig sect scans).map .ofDb

section Search

variable {type : NConfig} {sect : Int}

/-- A token takes `sf_read_config` on, or to the loader. -/
theorem sfReadConfig_cons (scanned : ScannerToken)
    (rest : List (Option ScannerToken)) (state : YamlState) :
    sfReadConfig type sect (some scanned :: rest) state =
      if state = .expectKey ∧ scanned.token = .scalar (blockName type) then
        load type sect rest
      else
        sfReadConfig type sect rest (expected scanned) := by
  rw [sfReadConfig, expected]
  cases scanned.token with
  | scalar scalar =>
      by_cases expects : state = .expectKey
      · have apart : yamlReader ≠ yamlDatabase := by decide
        by_cases reader : scalar = yamlReader
        · subst reader
          cases type with
          | nReader => simp [expects, blockName, load]
          | nDb => simp [expects, blockName, apart]
        · by_cases database : scalar = yamlDatabase
          · subst database
            cases type with
            | nReader => simp [expects, blockName, reader]
            | nDb => simp [expects, blockName, reader, load]
          · cases type with
            | nReader => simp [expects, blockName, reader, database]
            | nDb => simp [expects, blockName, reader, database]
      · simp [expects]
  | key => simp
  | value => simp
  | blockMappingStart => simp
  | blockEnd => simp
  | streamStart => simp
  | streamEnd => simp
  | other => simp

/-- Without the block `sf_read_config` returns only if the scanner fails. -/
theorem sfReadConfig_nil (fails : Bool) (state : YamlState)
    (outcome : Outcome) :
    (∃ calls, sfReadConfig type sect (answers emptyToken fails [] calls) state =
      some outcome) ↔ fails = true ∧ outcome = .null := by
  apply exists_calls_fails_iff rfl
  · rintro rfl calls
    rfl
  · rintro rfl calls
    induction calls generalizing state with
    | zero => rfl
    | succ calls ih =>
        rw [answers, if_neg Bool.false_ne_true, sfReadConfig_cons,
          if_neg (by rintro ⟨_, scalar⟩; cases scalar)]
        exact ih _

/-- `sf_read_config` returns as the loader of the block does, if there is one. -/
theorem sfReadConfig_iff (fails : Bool) (tokens : List ScannerToken)
    (state : YamlState) (outcome : Outcome) :
    (∃ calls, sfReadConfig type sect
      (answers emptyToken fails tokens calls) state = some outcome) ↔
      match behindName (blockName type) tokens state with
      | some rest => ∃ calls,
          load type sect (answers emptyToken fails rest calls) = some outcome
      | none => fails = true ∧ outcome = .null := by
  induction tokens generalizing state with
  | nil => exact sfReadConfig_nil fails state outcome
  | cons scanned rest ih =>
      rw [exists_calls_iff rfl]
      simp only [answers, sfReadConfig_cons, behindName]
      by_cases named :
          state = .expectKey ∧ scanned.token = .scalar (blockName type)
      · simp only [if_pos named]
      · simp only [if_neg named]
        exact ih _

end Search

/-! ## Tokens up to a failure -/

/-- A round that has a result on a token goes the same way. -/
theorem loop_of_scanLoop {σ : Type} {step : Token → σ → Option (Progress σ)}
    {round : ScannerToken → σ → Progress σ}
    (agrees : ∀ token state progress, step token state = some progress →
      round (.plain token) state = progress)
    {tokens : List Token} {state last : σ} {result : Int}
    (scanned : scanLoop step tokens state = some (result, last)) :
    ∃ reading,
      loop round (answers emptyToken true (tokens.map .plain)
          (tokens.length + 1)) state = some reading ∧
        reading.result = result ∧ reading.state = last := by
  induction tokens generalizing state with
  | nil =>
      cases scanned
      exact ⟨_, rfl, rfl, rfl⟩
  | cons token rest ih =>
      rw [scanLoop] at scanned
      rw [List.map_cons, List.length_cons, answers, loop]
      cases stepped : step token state with
      | none =>
          rw [stepped] at scanned
          cases scanned
      | some progress =>
          rw [stepped] at scanned
          rw [agrees token state progress stepped]
          cases progress with
          | continues next =>
              rcases ih scanned with ⟨reading, looped, same⟩
              dsimp only
              rw [looped]
              exact ⟨_, rfl, same⟩
          | finishes next =>
              cases scanned
              exact ⟨_, rfl, rfl, rfl⟩
          | fails next =>
              cases scanned
              exact ⟨_, rfl, rfl, rfl⟩

theorem readerRound_of_step (token : Token) (loader : ReaderLoader)
    (progress : Progress ReaderLoader)
    (stepped : readerStep token loader = some progress) :
    readerRound (.plain token) loader = progress := by
  rw [readerRound, ScannerToken.token, stepped, Option.getD_some]

theorem dbRound_of_step (token : Token) (loader : DbLoader)
    (progress : Progress DbLoader)
    (stepped : dbStep token loader = some progress) :
    dbRound (.plain token) loader = progress := by
  rw [dbRound, ScannerToken.token, stepped, Option.getD_some]

/-- A configuration that is loaded from the tokens of a file is loaded by
scanning them. -/
theorem sfReadConfig_of_tokens {type : NConfig} {sect : Int}
    {state : YamlState} {tokens : List Token} {retval : Int} {loaded : Loaded}
    {errors : List ConfigError}
    (read : Config.sfReadConfig type sect state tokens =
      some (retval, loaded, errors)) :
    ∃ block,
      sfReadConfig type sect (answers emptyToken true (tokens.map .plain)
          (tokens.length + 1)) state =
        some { retval, loaded, errors, block } := by
  unfold Config.sfReadConfig at read
  induction tokens generalizing state with
  | nil =>
      cases read
      exact ⟨none, rfl⟩
  | cons token rest ih =>
      rw [List.map_cons, List.length_cons, answers]
      cases token with
      | scalar scalar =>
          rw [readLoop] at read
          rw [sfReadConfig]
          dsimp only [ScannerToken.token]
          by_cases expects : state = .expectKey
          · rw [if_pos expects] at read ⊢
            by_cases reader : scalar = yamlReader
            · rw [if_pos reader] at read ⊢
              by_cases wanted : type = .nReader
              · rw [if_pos wanted] at read ⊢
                rcases Option.map_eq_some_iff.mp read with
                  ⟨⟨result, loader⟩, scanned, same⟩
                cases same
                rcases loop_of_scanLoop readerRound_of_step scanned with
                  ⟨reading, looped, _, rfl⟩
                exact ⟨_, Option.map_eq_some_iff.mpr ⟨reading, looped, rfl⟩⟩
              · rw [if_neg wanted] at read ⊢
                exact ih read
            · rw [if_neg reader] at read ⊢
              by_cases database : scalar = yamlDatabase
              · rw [if_pos database] at read ⊢
                by_cases wanted : type = .nDb
                · rw [if_pos wanted] at read ⊢
                  rcases Option.map_eq_some_iff.mp read with
                    ⟨⟨result, loader⟩, scanned, same⟩
                  cases same
                  rcases loop_of_scanLoop dbRound_of_step scanned with
                    ⟨reading, looped, rfl, rfl⟩
                  exact ⟨_, Option.map_eq_some_iff.mpr ⟨reading, looped, rfl⟩⟩
                · rw [if_neg wanted] at read ⊢
                  exact ih read
              · rw [if_neg database] at read ⊢
                exact ih read
          · rw [if_neg expects] at read ⊢
            exact ih read
      | key => exact ih read
      | value => exact ih read
      | blockMappingStart => exact ih read
      | blockEnd => exact ih read
      | streamStart => exact ih read
      | streamEnd => exact ih read
      | other => exact ih read

end SmartFridge.ConfigScanning
