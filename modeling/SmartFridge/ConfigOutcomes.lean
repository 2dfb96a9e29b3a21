import SmartFridge.ConfigScanning

/-!
# Whether a configuration is loaded, and what is reported

`sf_read_config` returns exactly if the scanner fails on the file or the file
has the block and, behind its key, a token that ends the loader.  It returns 0
whenever the scanner fails, and for the reader also when its loader does.
-/

namespace SmartFridge.ConfigOutcomes

open SmartFridge.Library
open SmartFridge.Library.BlockMapping
open SmartFridge.Library.Scanning
open SmartFridge.Config (NConfig ReaderLoader DbLoader)
open SmartFridge.ConfigScanning

/-- Where the loader of a block stops among the tokens behind its key, if it
does. -/
def loaderStop (type : NConfig) (sect : Int) (rest : List ScannerToken) :
    Option (Stop ScannerToken) :=
  stop (controlStep (blockTag type)) rest
    { sect, state := .expectBlockMapping }

/-! ## The loaders -/

theorem readerRound_idle (loader : ReaderLoader) :
    readerRound emptyToken loader = .continues loader :=
  rfl

theorem dbRound_idle (loader : DbLoader) :
    dbRound emptyToken loader = .continues loader :=
  rfl

theorem stop_reader (sect : Int) (rest : List ScannerToken) :
    stop readerRound rest (ReaderLoader.start sect) =
      loaderStop .nReader sect rest :=
  stop_viewed readerRound_control rest (ReaderLoader.start sect)

theorem stop_db (sect : Int) (rest : List ScannerToken) :
    stop dbRound rest (DbLoader.start sect) = loaderStop .nDb sect rest :=
  stop_viewed dbRound_control rest (DbLoader.start sect)

section Loads

variable {fails : Bool} {rest : List ScannerToken} {sect : Int}

/-- The outcomes behind the call of the reader's loader. -/
theorem load_reader_iff {outcome : Outcome} :
    (∃ calls, load .nReader sect (answers emptyToken fails rest calls) =
      some outcome) ↔
      ∃ reading, Yields readerRound emptyToken fails rest
          (ReaderLoader.start sect) reading ∧
        Outcome.ofReader reading = outcome := by
  simp only [load, sfLoadReaderConfig, Option.map_eq_some_iff, Yields]
  exact exists_comm.trans (exists_congr fun reading => exists_and_right)

/-- The outcomes behind the call of the other loader. -/
theorem load_db_iff {outcome : Outcome} :
    (∃ calls, load .nDb sect (answers emptyToken fails rest calls) =
      some outcome) ↔
      ∃ reading, Yields dbRound emptyToken fails rest
          (DbLoader.start sect) reading ∧
        Outcome.ofDb reading = outcome := by
  simp only [load, sfLoadDbConfig, Option.map_eq_some_iff, Yields]
  exact exists_comm.trans (exists_congr fun reading => exists_and_right)

/-- A loader returns exactly if it stops or the scanner fails. -/
theorem exists_load_iff (type : NConfig) :
    (∃ outcome calls, load type sect (answers emptyToken fails rest calls) =
      some outcome) ↔
      (loaderStop type sect rest).isSome = true ∨ fails = true := by
  cases type with
  | nReader =>
      rw [← stop_reader, ← exists_yields_iff readerRound_idle]
      simp only [load_reader_iff]
      constructor
      · rintro ⟨_, reading, yields, _⟩
        exact ⟨reading, yields⟩
      · rintro ⟨reading, yields⟩
        exact ⟨_, reading, yields, rfl⟩
  | nDb =>
      rw [← stop_db, ← exists_yields_iff dbRound_idle]
      simp only [load_db_iff]
      constructor
      · rintro ⟨_, reading, yields, _⟩
        exact ⟨reading, yields⟩
      · rintro ⟨reading, yields⟩
        exact ⟨_, reading, yields, rfl⟩

end Loads

/-! ## Whether it returns -/

/-- The scanner fails, or the loader of the block stops. -/
def Stops (type : NConfig) (garbage : Garbage) (file : File) : Prop :=
  file.fails = true ∨
    ∃ rest,
      behindName (blockName type) file.tokens garbage.state = some rest ∧
        (loaderStop type garbage.sect rest).isSome = true

/--
`sf_read_config` returns exactly if the scanner fails on the file, or the file
has the block and behind its key an invalid tag, an unexpected mapping or a
block end at which `sect` is `read_sect`.  The loaders do not initialise `sect`:
before the first section it is `garbage.sect`, which may be any section.
-/
theorem returns_iff (type : NConfig) (garbage : Garbage) (file : File) :
    (∃ outcome, Returns type garbage file outcome) ↔
      Stops type garbage file := by
  simp only [Returns, sfReadConfig_iff, Stops]
  cases behindName (blockName type) file.tokens garbage.state with
  | none => simp
  | some rest =>
      simp only [exists_load_iff, Option.some.injEq, exists_eq_left']
      exact or_comm

/-- On an empty file the configuration is scanned for ever. -/
theorem empty_file_scanned_forever :
    ¬ ∀ (type : NConfig) (garbage : Garbage) (file : File),
        ∃ outcome, Returns type garbage file outcome := by
  intro always
  rcases always .nReader ⟨0, .expectNothing⟩
    ⟨[.plain .streamStart, .plain .streamEnd], false⟩ with ⟨outcome, returned⟩
  cases ((sfReadConfig_iff _ _ _ outcome).mp returned).1

/-! ## What is reported -/

/--
The tokens reach up to the block end that closes the first block opened among
them, when some blocks are open before.
-/
def Closes : Nat → List ScannerToken → Prop
  | _, [] => False
  | depth, .blockSequenceStart :: rest => Closes (depth + 1) rest
  | depth, .plain .blockMappingStart :: rest => Closes (depth + 1) rest
  | depth, .plain .blockEnd :: rest =>
      if depth ≤ 1 then depth = 1 ∧ rest = [] else Closes (depth - 1) rest
  | depth, .plain _ :: rest => Closes depth rest

/-- A loader that read its block up to the closing block end without an error. -/
structure ReadWhole (block : BlockReading) : Prop where
  result : block.result = 0
  failed : block.failed = false
  closes : Closes 0 block.read

/-- If `sf_read_config` returns 0, the block was found and read as a whole. -/
def Reported (outcome : Outcome) : Prop :=
  outcome.retval = 0 →
    outcome.loaded ≠ .null ∧ ∃ block, outcome.block = some block ∧
      ReadWhole block

/-- The exit of a loader that is told from success, or is one. -/
def ExitReported (type : NConfig) (stopped : Stop ScannerToken) : Prop :=
  match stopped.exit with
  | .failed => type = .nDb
  | .finished => Closes 0 stopped.read

/--
The scanner does not fail before the loader stops, the loader of the reader
stops at no error, and a loader that finishes does so at the end of its block.
-/
def ErrorsReported (type : NConfig) (garbage : Garbage) (file : File) : Prop :=
  match (behindName (blockName type) file.tokens garbage.state).bind
      (loaderStop type garbage.sect) with
  | none => file.fails = false
  | some stopped => ExitReported type stopped

theorem reported_ofReader (reading : Reading ScannerToken ReaderLoader) :
    Reported (.ofReader reading) ↔
      reading.result = 0 ∧ reading.failed = false ∧ Closes 0 reading.read := by
  constructor
  · intro reported
    rcases (reported rfl).2 with ⟨block, isBlock, whole⟩
    cases isBlock
    exact ⟨whole.result, whole.failed, whole.closes⟩
  · rintro ⟨result, failed, closes⟩ _
    exact ⟨nofun, _, rfl, result, failed, closes⟩

theorem reported_ofDb (reading : Reading ScannerToken DbLoader) :
    Reported (.ofDb reading) ↔
      (reading.result = 0 →
        reading.failed = false ∧ Closes 0 reading.read) := by
  constructor
  · intro reported result
    have success : (Outcome.ofDb reading).retval = 0 :=
      if_neg (not_not.mpr result)
    rcases (reported success).2 with ⟨block, isBlock, whole⟩
    cases isBlock
    exact ⟨whole.failed, whole.closes⟩
  · intro whole success
    have result : reading.result = 0 := by
      by_contra failure
      have returned : (Outcome.ofDb reading).retval = 1 := if_pos failure
      rw [returned] at success
      cases success
    rcases whole result with ⟨failed, closes⟩
    exact ⟨nofun, _, rfl, result, failed, closes⟩

/-- What holds at a stop, for a property that asks for the end of the block
after a result of 0 and for the loader of the database after a result of 1. -/
theorem holdsAt_iff_reported {type : NConfig}
    {property : Int → List ScannerToken → Bool → Prop}
    (finished : ∀ read, property 0 read false ↔ Closes 0 read)
    (failed : ∀ read, property 1 read false ↔ type = .nDb)
    (ended : ∀ read, ¬ property 0 read true)
    (fails : Bool) (rest : List ScannerToken)
    (stopped : Option (Stop ScannerToken)) :
    HoldsAt property fails rest stopped ↔
      match stopped with
      | none => fails = false
      | some stopped => ExitReported type stopped := by
  cases stopped with
  | none => simp [HoldsAt, ended]
  | some stopped =>
      rcases stopped with ⟨exit, taken⟩
      cases exit with
      | finished => exact finished taken
      | failed => exact failed taken

/-- What the outcomes behind the call of a loader report. -/
theorem load_reported_iff (type : NConfig) (sect : Int) (fails : Bool)
    (rest : List ScannerToken) :
    (∀ outcome,
      (∃ calls, load type sect (answers emptyToken fails rest calls) =
        some outcome) → Reported outcome) ↔
      match loaderStop type sect rest with
      | none => fails = false
      | some stopped => ExitReported type stopped := by
  cases type with
  | nReader =>
      have read := forall_yields_iff fails readerRound_idle
        (fun result read failed => result = 0 ∧ failed = false ∧ Closes 0 read)
        rest (ReaderLoader.start sect)
      rw [stop_reader] at read
      refine Iff.trans ?_ (read.trans ?_)
      · simp only [load_reader_iff, ← reported_ofReader]
        constructor
        · intro always reading yields
          exact always _ ⟨reading, yields, rfl⟩
        · rintro each outcome ⟨reading, yields, rfl⟩
          exact each reading yields
      · exact holdsAt_iff_reported (by simp) (by simp) (by simp) fails rest _
  | nDb =>
      have read := forall_yields_iff fails dbRound_idle
        (fun result read failed =>
          result = 0 → failed = false ∧ Closes 0 read)
        rest (DbLoader.start sect)
      rw [stop_db] at read
      refine Iff.trans ?_ (read.trans ?_)
      · simp only [load_db_iff, ← reported_ofDb]
        constructor
        · intro always reading yields
          exact always _ ⟨reading, yields, rfl⟩
        · rintro each outcome ⟨reading, yields, rfl⟩
          exact each reading yields
      · exact holdsAt_iff_reported (by simp) (by simp) (by simp) fails rest _

/--
A return value of 0 always means that the block was found and read as a whole
exactly if the errors of the file are all reported.  A loader takes a block end
for that of the block if `sect` is `read_sect`, and before the first section
`sect` is whatever `garbage` has.
-/
theorem reported_iff (type : NConfig) (garbage : Garbage) (file : File) :
    (∀ outcome, Returns type garbage file outcome → Reported outcome) ↔
      ErrorsReported type garbage file := by
  simp only [Returns, sfReadConfig_iff, ErrorsReported]
  cases behindName (blockName type) file.tokens garbage.state with
  | none =>
      simp only [Option.bind_none]
      constructor
      · intro always
        cases fails : file.fails with
        | false => rfl
        | true => exact absurd rfl (always _ ⟨fails, rfl⟩ rfl).1
      · rintro sound outcome ⟨fails, _⟩
        rw [sound] at fails
        cases fails
  | some rest =>
      simp only [Option.bind_some]
      exact load_reported_iff type garbage.sect file.fails rest

/-- A file that the scanner cannot read passes for a configuration. -/
theorem unreadable_file_loaded :
    ¬ ∀ (type : NConfig) (garbage : Garbage) (file : File) (outcome : Outcome),
        Returns type garbage file outcome → Reported outcome := by
  intro always
  have returned : Returns .nReader ⟨0, .expectNothing⟩
      ⟨[.plain .streamStart], true⟩ .null := ⟨2, rfl⟩
  exact absurd rfl (always _ _ _ _ returned rfl).1

end SmartFridge.ConfigOutcomes
