import SmartFridge.Library.Options
import SmartFridge.ConfigLoading
import SmartFridge.DatabaseFile
import SmartFridge.Fridge
import SmartFridge.TestFile

/-!
# How the programs start

Both `main` functions, from the words of the command line and the configuration
file to the state in which the threads, or the daemon, begin to work.
-/

namespace SmartFridge.Startup

open SmartFridge.Library
open SmartFridge.Library.Runs
open SmartFridge.Library.BlockMapping
open SmartFridge.Library.Options
open SmartFridge.Config
open SmartFridge.DatabaseFile (Catalog createDb)
open SmartFridge.HandleHistory (CreateCalls)
open SmartFridge.QueueRing
open SmartFridge.Pipeline (Scanner Tagged)
open SmartFridge.Reader
open SmartFridge.Inventory (Agrees Counted Stock)

/-! ## Endings -/

/-- The errors that a `main` function logs. -/
inductive StartError where
  | loadConfigError
  | smallQueueSize (queue : CString) (size : Int32)
  | largeQueueSize (queue : CString) (size : Int32)
  | threadsInitError
deriving DecidableEq

/--
How a `main` function ends: with the usage text, in the parent process, in
`sf_exit_error` with the log file that is set then, at a NULL pointer, or not
before the program is at work.
-/
inductive Ending (α : Type) where
  | usage
  | parent
  | exited (entry : StartError) (logFile : Option CString)
  | faults
  | running (process : α)

/-- LOG_FILE, with INSTALL_FOLDER as its parameter. -/
def defaultLog (installFolder : CString) : CString :=
  installFolder ++ .lit "/sf.log"

/-! ## The reader -/

/-- The variables that the options of the reader set. -/
structure Settings where
  debugLevel : Int8
  foregroundMode : Bool
  testModeFile : Option CString
  testModeSpeed : Int32
  socketModePort : Int32
deriving DecidableEq

/-- The variables as they are initialised. -/
def Settings.start : Settings :=
  { debugLevel := 0
    foregroundMode := false
    testModeFile := none
    testModeSpeed := 3
    socketModePort := 0 }

/-- The option string of the reader. -/
abbrev readerOptions : CString :=
  .lit "ddfst:p:"

/-- The switch on an option; nothing if the usage text is printed. -/
def Settings.choose (settings : Settings) : Returned → Option Settings
  | .option 100 _ =>
      some { settings with debugLevel := settings.debugLevel + 1 }
  | .option 102 _ => some { settings with foregroundMode := true }
  | .option 116 optarg => some { settings with testModeFile := optarg }
  | .option 112 optarg =>
      some
        { settings with
          testModeSpeed := (optarg.map readNumber).getD 0 }
  | .option 115 _ => some { settings with socketModePort := -1 }
  | _ => none

/-- What the other calls of the reader's `main` do. -/
structure ReaderCalls where
  fork : Int
  /-- What `sf_read_config` returns, and leaves behind its argument. -/
  readReader : Int × Loaded
  readDb : Int × Loaded
  /-- Whether both threads can be created. -/
  threads : Bool

/-- The reader when its threads have been created. -/
structure ReaderProcess where
  settings : Settings
  config : ReaderConf
  logFile : Option CString
  socketModePort : Int32
  internalHeader : CString
  intAddress : Option CString
  intPort : Int32
  idq : Queue (Tagged ProductNode)
  prq : Queue (Tagged CString)

/-- A static queue before `sf_queue_set`. -/
def cleared {α : Type} : Queue α :=
  ⟨[], 0, 0, 0⟩

/-- The call of `sf_queue_set` for a queue, with the errors of `main`. -/
def setQueue {α : Type} (name : CString) (size : Int32) :
    Except StartError (Queue α) :=
  match sfQueueSet cleared size.toInt with
  | (1, _) => .error (.smallQueueSize name size)
  | (2, _) => .error (.largeQueueSize name size)
  | (_, queue) => .ok queue

/-- The queues and the threads of `main`. -/
def createThreads (config : ReaderConf) (calls : ReaderCalls) :
    Except StartError (Queue (Tagged ProductNode) × Queue (Tagged CString)) :=
  do
    let idq ← setQueue (.lit "ID") config.idSize
    let prq ← setQueue (.lit "PRODUCT") config.prSize
    if calls.threads then
      return (idq, prq)
    else
      throw .threadsInitError

/-- `main` behind the configuration files. -/
def configured (settings : Settings) (config : ReaderConf) (configDb : DbConf)
    (calls : ReaderCalls) : Ending ReaderProcess :=
  match configDb.internalHeader with
  | none => .faults
  | some internalHeader =>
      match createThreads config calls with
      | .error entry => .exited entry config.logLocation
      | .ok (idq, prq) =>
          .running
            { settings
              config
              logFile := config.logLocation
              socketModePort :=
                if settings.socketModePort ≠ 0 then
                  config.socketModePort
                else
                  settings.socketModePort
              internalHeader
              intAddress := configDb.internalAddress
              intPort := configDb.internalPort.toInt32
              idq
              prq }

/-- `main` of the reader, up to the call of `sf_bar_handler`. -/
def readerMain (installFolder : CString) (words : List CString)
    (calls : ReaderCalls) : Ending ReaderProcess :=
  match (getopt readerOptions words).foldlM Settings.choose .start with
  | none => .usage
  | some settings =>
      if settings.foregroundMode = false ∧ calls.fork ≠ 0 then
        .parent
      else if calls.readReader.1 ≠ 0 then
        .exited .loadConfigError (some (defaultLog installFolder))
      else if calls.readDb.1 ≠ 0 then
        .exited .loadConfigError (some (defaultLog installFolder))
      else
        match calls.readReader.2, calls.readDb.2 with
        | .reader config, .database configDb =>
            configured settings config configDb calls
        | _, _ => .faults

/-- How `sf_bar_handler` gets its codes. -/
inductive Handler where
  | socket (port : Int32)
  | camera (device : Option CString)
  | testFile (name : CString) (repeats : Bool)
deriving DecidableEq

/-- The choice of `sf_bar_handler`, which compares `test_repeat` with a text. -/
def ReaderProcess.handler (process : ReaderProcess) : Option Handler :=
  if process.socketModePort ≠ 0 then
    some (.socket process.socketModePort)
  else
    match process.settings.testModeFile with
    | none => some (.camera process.config.device)
    | some name =>
        process.config.testRepeat.map fun testRepeat =>
          .testFile name (TestFile.repeats testRepeat)

/-- The threads before their first steps. -/
def ReaderProcess.threads (process : ReaderProcess) (scanner : Scanner) :
    Pipeline.State :=
  { idq := process.idq
    prq := process.prq
    scanner
    dbMode := .add
    executionEnds := false
    decoder := .fetch
    storer := .fetch
    log := []
    accepted := []
    sent := []
    discarded := [] }

/-! ## The daemon -/

/-- The variables that the options of the daemon set. -/
structure DbSettings where
  debugLevel : Int8
  foregroundMode : Bool
deriving DecidableEq

/-- The variables as they are initialised. -/
def DbSettings.start : DbSettings :=
  { debugLevel := 0, foregroundMode := false }

/-- The option string of the daemon. -/
abbrev dbOptions : CString :=
  .lit "ddf"

/-- The switch on an option; nothing if the usage text is printed. -/
def DbSettings.choose (settings : DbSettings) : Returned → Option DbSettings
  | .option 100 _ =>
      some { settings with debugLevel := settings.debugLevel + 1 }
  | .option 102 _ => some { settings with foregroundMode := true }
  | _ => none

/-- What the other calls of the daemon's `main` do. -/
structure DbCalls where
  fork : Int
  /-- What `sf_read_config` returns, and leaves behind its argument. -/
  readDb : Int × Loaded
  /-- The database file, and the calls of `create_db` on it. -/
  file : Catalog
  createDb : CreateCalls

/-- The daemon when `start_daemon` is called. -/
structure DbProcess where
  settings : DbSettings
  logFile : Option CString
  internalHeader : CString
  internalPort : UInt32
  file : Catalog
  /-- Whether DATABASE_CREATE_ERROR has been logged. -/
  createError : Bool

/-- `main` of the daemon, up to the call of `start_daemon`. -/
def dbMain (installFolder : CString) (words : List CString) (calls : DbCalls) :
    Ending DbProcess :=
  match (getopt dbOptions words).foldlM DbSettings.choose .start with
  | none => .usage
  | some settings =>
      if settings.foregroundMode = false ∧ calls.fork ≠ 0 then
        .parent
      else if calls.readDb.1 ≠ 0 then
        .exited .loadConfigError (some (defaultLog installFolder))
      else
        match calls.readDb.2 with
        | .database config =>
            match config.internalHeader with
            | none => .faults
            | some internalHeader =>
                -- A failure of `create_db` is only logged.
                let (result, file) := createDb calls.createDb calls.file
                .running
                  { settings
                    logFile := config.logLocation
                    internalHeader
                    internalPort := config.internalPort
                    file
                    createError := result ≠ 0 }
        | _ => .faults

/-! ## What the options ask for -/

/-- The arguments of an option. -/
def arguments (name : UInt8) (results : List Returned) : List CString :=
  results.filterMap fun
    | .option other argument => if other = name then argument else none
    | .unknown => none

/-- The variables that some options of the reader ask for. -/
def requestedSettings (results : List Returned) : Settings :=
  { debugLevel := .ofNat (results.count (.option 100 none))
    foregroundMode := decide (.option 102 none ∈ results)
    testModeFile := (arguments 116 results).getLast?
    testModeSpeed := ((arguments 112 results).getLast?.map readNumber).getD 3
    socketModePort := if .option 115 none ∈ results then -1 else 0 }

/-- The variables that some options of the daemon ask for. -/
def requestedDbSettings (results : List Returned) : DbSettings :=
  { debugLevel := .ofNat (results.count (.option 100 none))
    foregroundMode := decide (.option 102 none ∈ results) }

/-- The options of the daemon, which the reader has as well. -/
inductive DbOption : Returned → Prop
  | debug : DbOption (.option 100 none)
  | foreground : DbOption (.option 102 none)

/-- The options of the reader. -/
inductive ReaderOption : Returned → Prop
  | common {returned : Returned} (option : DbOption returned) :
      ReaderOption returned
  | socket : ReaderOption (.option 115 none)
  | testFile (name : CString) : ReaderOption (.option 116 (some name))
  | testSpeed (speed : CString) : ReaderOption (.option 112 (some speed))

theorem dbOption_of_getopt {words : List CString} {returned : Returned}
    (member : returned ∈ getopt dbOptions words) :
    returned = .unknown ∨ DbOption returned := by
  have proper := proper_getopt member
  cases returned with
  | unknown => exact .inl rfl
  | option name argument =>
      have takes : takesArgument dbOptions name = some argument.isSome := proper
      have names : name ∈ [100, 100, 102] := (mem_of_takesArgument takes).1
      simp only [List.mem_cons, List.not_mem_nil, or_false,
        or_self_left] at names
      rcases names with rfl | rfl
      · cases argument with
        | none => exact .inr .debug
        | some text => cases takes
      · cases argument with
        | none => exact .inr .foreground
        | some text => cases takes

theorem readerOption_of_getopt {words : List CString} {returned : Returned}
    (member : returned ∈ getopt readerOptions words) :
    returned = .unknown ∨ ReaderOption returned := by
  have proper := proper_getopt member
  cases returned with
  | unknown => exact .inl rfl
  | option name argument =>
      have takes : takesArgument readerOptions name = some argument.isSome :=
        proper
      rcases mem_of_takesArgument takes with ⟨isName, noColon⟩
      have names : name ∈ [100, 100, 102, 115, 116, 58, 112, 58] := isName
      simp only [List.mem_cons, List.not_mem_nil, or_false,
        or_self_left, noColon, false_or] at names
      rcases names with rfl | rfl | rfl | rfl | rfl
      · cases argument with
        | none => exact .inr (.common .debug)
        | some text => cases takes
      · cases argument with
        | none => exact .inr (.common .foreground)
        | some text => cases takes
      · cases argument with
        | none => exact .inr .socket
        | some text => cases takes
      · cases argument with
        | none => cases takes
        | some name => exact .inr (.testFile name)
      · cases argument with
        | none => cases takes
        | some speed => exact .inr (.testSpeed speed)

/-- One more option changes what the options before it have asked for. -/
theorem choose_requested (before : List Returned) {returned : Returned}
    (option : ReaderOption returned) :
    (requestedSettings before).choose returned =
      some (requestedSettings (before ++ [returned])) := by
  cases option with
  | common option =>
      cases option with
      | debug =>
          simp [Settings.choose, requestedSettings, arguments,
            List.count_append]
      | foreground =>
          simp [Settings.choose, requestedSettings, arguments,
            List.count_append]
  | socket =>
      simp [Settings.choose, requestedSettings, arguments, List.count_append]
  | testFile name =>
      simp [Settings.choose, requestedSettings, arguments, List.count_append]
  | testSpeed speed =>
      simp [Settings.choose, requestedSettings, arguments, List.count_append]

theorem choose_requestedDb (before : List Returned) {returned : Returned}
    (option : DbOption returned) :
    (requestedDbSettings before).choose returned =
      some (requestedDbSettings (before ++ [returned])) := by
  cases option with
  | debug =>
      simp [DbSettings.choose, requestedDbSettings, List.count_append]
  | foreground =>
      simp [DbSettings.choose, requestedDbSettings, List.count_append]

/-- The loop over the options of the reader. -/
theorem readerOptions_read (words : List CString) :
    (getopt readerOptions words).foldlM Settings.choose .start =
      if .unknown ∈ getopt readerOptions words then none
      else some (requestedSettings (getopt readerOptions words)) := by
  have start : Settings.start = requestedSettings [] := rfl
  rw [start]
  exact foldlM_returned (fun _ => rfl)
    (fun before _ option => choose_requested before option)
    fun _ member => readerOption_of_getopt member

/-- The loop over the options of the daemon. -/
theorem dbOptions_read (words : List CString) :
    (getopt dbOptions words).foldlM DbSettings.choose .start =
      if .unknown ∈ getopt dbOptions words then none
      else some (requestedDbSettings (getopt dbOptions words)) := by
  have start : DbSettings.start = requestedDbSettings [] := rfl
  rw [start]
  exact foldlM_returned (fun _ => rfl)
    (fun before _ option => choose_requestedDb before option)
    fun _ member => dbOption_of_getopt member

/-! ## The queues -/

/-- A size that `sf_queue_set` accepts. -/
def InRange (size : Int) : Prop :=
  minQueueSize ≤ size ∧ size ≤ maxQueueSize

/-- A queue behind its `sf_queue_set`. -/
def prepared {α : Type} (size : Int) : Queue α :=
  { dataQueue := List.replicate size.toNat none
    size := size.toNat
    current := 0
    writeP := 0 }

theorem setQueue_of_range {α : Type} {name : CString} {size : Int32}
    (range : InRange size.toInt) :
    (setQueue name size : Except StartError (Queue α)) =
      .ok (prepared size.toInt) := by
  rw [setQueue, sfQueueSet, if_neg (not_lt.mpr range.1),
    if_neg (not_lt.mpr range.2)]
  rfl

theorem setQueue_of_not_range {α : Type} {name : CString} {size : Int32}
    (outside : ¬ InRange size.toInt) :
    ∃ entry,
      (setQueue name size : Except StartError (Queue α)) = .error entry := by
  by_cases small : size.toInt < minQueueSize
  · refine ⟨.smallQueueSize name size, ?_⟩
    rw [setQueue, sfQueueSet, if_pos small]
    rfl
  · have large : size.toInt > maxQueueSize := by
      by_contra fits
      exact outside ⟨not_lt.mp small, not_lt.mp fits⟩
    refine ⟨.largeQueueSize name size, ?_⟩
    rw [setQueue, sfQueueSet, if_neg small, if_pos large]
    rfl

theorem createThreads_iff {config : ReaderConf} {calls : ReaderCalls}
    {queues : Queue (Tagged ProductNode) × Queue (Tagged CString)} :
    createThreads config calls = .ok queues ↔
      (InRange config.idSize.toInt ∧ InRange config.prSize.toInt ∧
        calls.threads = true) ∧
        queues =
          (prepared config.idSize.toInt, prepared config.prSize.toInt) := by
  unfold createThreads
  by_cases idRange : InRange config.idSize.toInt
  · rw [setQueue_of_range idRange]
    by_cases prRange : InRange config.prSize.toInt
    · rw [setQueue_of_range prRange]
      cases created : calls.threads with
      | true =>
          simp [idRange, prRange, bind, Except.bind, pure, Except.pure,
            eq_comm]
      | false => simp [bind, Except.bind]
    · have outside : ∃ entry,
          (setQueue (.lit "PRODUCT") config.prSize :
            Except StartError (Queue (Tagged CString))) = .error entry :=
        setQueue_of_not_range prRange
      rcases outside with ⟨entry, fails⟩
      rw [fails]
      simp [prRange, bind, Except.bind]
  · have outside : ∃ entry,
        (setQueue (.lit "ID") config.idSize :
          Except StartError (Queue (Tagged ProductNode))) = .error entry :=
      setQueue_of_not_range idRange
    rcases outside with ⟨entry, fails⟩
    rw [fails]
    simp [idRange, bind, Except.bind]

/-! ## The configuration file -/

/-- A number of the configuration. -/
def asNumber : Setting → Int
  | .number value => value
  | .text _ => 0

/-- A text of the configuration. -/
def asText : Setting → Option CString
  | .number _ => none
  | .text value => value

section File

variable (file : ConfigFile)

/-- What a file says about a field of the reader. -/
def readerSetting (field : ReaderField) : Setting :=
  (file.reader.value field).elim field.unset Value.setting

/-- What a file says about a field of the database. -/
def dbSetting (field : DbField) : Setting :=
  (file.database.value field).elim field.unset Value.setting

/-- A call of `sf_read_config` on the file returns and leaves this. -/
def ReadFrom (type : NConfig) (result : Int × Loaded) : Prop :=
  ∃ sect state errors,
    sfReadConfig type sect state file.tokens =
      some (result.1, result.2, errors)

variable {file}

theorem ReadFrom.reader {result : Int × Loaded}
    (read : ReadFrom file .nReader result) :
    ∃ config, result = (0, .reader config) ∧ config.Exact file.reader := by
  rcases read with ⟨sect, state, errors, returned⟩
  rcases exists_sfReadConfig_reader file sect state with
    ⟨config, loaded, exact_⟩
  rw [loaded] at returned
  simp only [Option.some.injEq, Prod.mk.injEq] at returned
  exact ⟨config, Prod.ext returned.1.symm returned.2.1.symm, exact_⟩

theorem ReadFrom.database {result : Int × Loaded}
    (read : ReadFrom file .nDb result) :
    ∃ config, result = (0, .database config) ∧
      config.Exact file.database := by
  rcases read with ⟨sect, state, errors, returned⟩
  rcases exists_sfReadConfig_database file sect state with
    ⟨config, loaded, exact_⟩
  rw [loaded] at returned
  simp only [Option.some.injEq, Prod.mk.injEq] at returned
  exact ⟨config, Prod.ext returned.1.symm returned.2.1.symm, exact_⟩

/-- The port of a file is one, and an `int` holds it as it is. -/
theorem port_of_exact {config : DbConf} (exact_ : config.Exact file.database) :
    config.internalPort.toInt32.toInt =
      asNumber (dbSetting file .internalPort) := by
  have isPort : (config.internalPort.toNat : Int) =
      asNumber (dbSetting file .internalPort) :=
    congrArg asNumber (exact_ .internalPort)
  have small : asNumber (dbSetting file .internalPort) ≤ 65535 := by
    unfold dbSetting
    cases given : file.database.value .internalPort with
    | none => exact Int.le_of_lt (by decide)
    | some value =>
        have valid := file.database.valid_of_value given
        cases value with
        | number numeral =>
            have range : IsPort numeral := valid
            exact range.2
        | text content => cases valid
  rw [← isPort]
  have fits : 2 * config.internalPort.toBitVec.toNat < 2 ^ 32 := by
    have same : config.internalPort.toBitVec.toNat =
        config.internalPort.toNat := rfl
    omega
  show config.internalPort.toBitVec.toInt = _
  rw [BitVec.toInt_eq_toNat_of_lt fits]
  rfl

end File

/-! ## The start of the reader -/

/-- The program goes on in this process. -/
def Stays (optstring : CString) (words : List CString) (fork : Int) : Prop :=
  .unknown ∉ getopt optstring words ∧
    (.option 102 none ∈ getopt optstring words ∨ fork = 0)

/-- The conditions under which the reader gets to its threads. -/
structure ReaderStarts (file : ConfigFile) (words : List CString)
    (calls : ReaderCalls) : Prop where
  stays : Stays readerOptions words calls.fork
  header : asText (dbSetting file .internalHeader) ≠ none
  idSize : InRange (asNumber (readerSetting file .idSize))
  prSize : InRange (asNumber (readerSetting file .prSize))
  threads : calls.threads = true

/--
How the reader is to get its codes: with `-s` from the port of the file unless
that is 0, else from a test file, and else from the camera.  In test mode the
file has to say whether to repeat.
-/
def requestedHandler (file : ConfigFile) (results : List Returned) :
    Option Handler :=
  if .option 115 none ∈ results ∧
      asNumber (readerSetting file .socketModePort) ≠ 0 then
    some (.socket (.ofInt (asNumber (readerSetting file .socketModePort))))
  else
    match (arguments 116 results).getLast? with
    | none => some (.camera (asText (readerSetting file .device)))
    | some name =>
        (asText (readerSetting file .testRepeat)).map fun testRepeat =>
          .testFile name (TestFile.repeats testRepeat)

/-- The reader has what its options and the file ask for. -/
structure ReaderRuns (file : ConfigFile) (words : List CString)
    (process : ReaderProcess) : Prop where
  settings :
    process.settings = requestedSettings (getopt readerOptions words)
  config : process.config.Exact file.reader
  logFile : process.logFile = asText (readerSetting file .logLocation)
  handler :
    process.handler =
      requestedHandler file (getopt readerOptions words)
  header :
    asText (dbSetting file .internalHeader) = some process.internalHeader
  address : process.intAddress = asText (dbSetting file .internalAddress)
  intPort : process.intPort.toInt = asNumber (dbSetting file .internalPort)
  idq : process.idq = prepared (asNumber (readerSetting file .idSize))
  prq : process.prq = prepared (asNumber (readerSetting file .prSize))

theorem handler_of_exact {file : ConfigFile} {results : List Returned}
    {process : ReaderProcess} (exact_ : process.config.Exact file.reader)
    (settings : process.settings = requestedSettings results)
    (port : process.socketModePort =
      if process.settings.socketModePort ≠ 0 then
        process.config.socketModePort
      else
        process.settings.socketModePort) :
    process.handler = requestedHandler file results := by
  have set : process.config.socketModePort.toInt =
      asNumber (readerSetting file .socketModePort) :=
    congrArg asNumber (exact_ .socketModePort)
  have device : process.config.device = asText (readerSetting file .device) :=
    congrArg asText (exact_ .device)
  have testRepeat : process.config.testRepeat =
      asText (readerSetting file .testRepeat) :=
    congrArg asText (exact_ .testRepeat)
  have zero : process.config.socketModePort = 0 ↔
      process.config.socketModePort.toInt = 0 := by
    rw [← Int32.toInt_inj]
    rfl
  rw [ReaderProcess.handler, requestedHandler, port, settings, ← set, ← device,
    ← testRepeat]
  by_cases socket : .option 115 none ∈ results
  · simp [requestedSettings, socket, zero]
  · simp [requestedSettings, socket]

theorem readerMain_of_stays {installFolder : CString} {words : List CString}
    {calls : ReaderCalls} {config : ReaderConf} {configDb : DbConf}
    (stays : Stays readerOptions words calls.fork)
    (reader : calls.readReader = (0, .reader config))
    (database : calls.readDb = (0, .database configDb)) :
    readerMain installFolder words calls =
      configured (requestedSettings (getopt readerOptions words)) config
        configDb calls := by
  rcases stays with ⟨known, foreground | child⟩
  · have inFront :
        (requestedSettings (getopt readerOptions words)).foregroundMode =
          true := decide_eq_true foreground
    simp [readerMain, readerOptions_read, known, inFront, reader, database]
  · simp [readerMain, readerOptions_read, known, child, reader, database]

theorem stays_of_running {installFolder : CString} {words : List CString}
    {calls : ReaderCalls} {process : ReaderProcess}
    (running : readerMain installFolder words calls = .running process) :
    Stays readerOptions words calls.fork := by
  rw [readerMain, readerOptions_read] at running
  by_cases known : .unknown ∈ getopt readerOptions words
  · rw [if_pos known] at running
    cases running
  · rw [if_neg known] at running
    refine ⟨known, ?_⟩
    by_contra leaves
    rcases not_or.mp leaves with ⟨background, parent⟩
    have behind :
        (requestedSettings (getopt readerOptions words)).foregroundMode =
          false := decide_eq_false background
    simp [behind, parent] at running

theorem configured_iff {settings : Settings} {config : ReaderConf}
    {configDb : DbConf} {calls : ReaderCalls} {process : ReaderProcess} :
    configured settings config configDb calls = .running process ↔
      (InRange config.idSize.toInt ∧ InRange config.prSize.toInt ∧
        calls.threads = true) ∧
      ∃ internalHeader, configDb.internalHeader = some internalHeader ∧
        process =
          { settings
            config
            logFile := config.logLocation
            socketModePort :=
              if settings.socketModePort ≠ 0 then
                config.socketModePort
              else
                settings.socketModePort
            internalHeader
            intAddress := configDb.internalAddress
            intPort := configDb.internalPort.toInt32
            idq := prepared config.idSize.toInt
            prq := prepared config.prSize.toInt } := by
  unfold configured
  cases configDb.internalHeader with
  | none => simp
  | some internalHeader =>
      cases made : createThreads config calls with
      | error entry =>
          have not_ok : ¬ (InRange config.idSize.toInt ∧
              InRange config.prSize.toInt ∧ calls.threads = true) := by
            intro fits
            cases made.symm.trans (createThreads_iff.mpr ⟨fits, rfl⟩)
          simp [not_ok]
      | ok queues =>
          rcases createThreads_iff.mp made with ⟨fits, rfl⟩
          simp [fits, eq_comm]

section ReaderStart

variable {file : ConfigFile} {installFolder : CString} {words : List CString}
  {calls : ReaderCalls} (readReader : ReadFrom file .nReader calls.readReader)
  (readDb : ReadFrom file .nDb calls.readDb)

include readReader readDb

theorem reader_runs {process : ReaderProcess}
    (running : readerMain installFolder words calls = .running process) :
    ReaderStarts file words calls ∧ ReaderRuns file words process := by
  have stays := stays_of_running running
  rcases readReader.reader with ⟨config, reader, exact_⟩
  rcases readDb.database with ⟨configDb, database, exactDb⟩
  rw [readerMain_of_stays stays reader database] at running
  rcases configured_iff.mp running with
    ⟨⟨idRange, prRange, threads⟩, internalHeader, header, rfl⟩
  have idSize : config.idSize.toInt = asNumber (readerSetting file .idSize) :=
    congrArg asNumber (exact_ .idSize)
  have prSize : config.prSize.toInt = asNumber (readerSetting file .prSize) :=
    congrArg asNumber (exact_ .prSize)
  have headerSet : asText (dbSetting file .internalHeader) =
      some internalHeader :=
    (congrArg asText (exactDb .internalHeader)).symm.trans header
  constructor
  · exact
      { stays
        header := by simp [headerSet]
        idSize := idSize ▸ idRange
        prSize := prSize ▸ prRange
        threads }
  · exact
      { settings := rfl
        config := exact_
        logFile := congrArg asText (exact_ .logLocation)
        handler := handler_of_exact exact_ rfl rfl
        header := headerSet
        address := congrArg asText (exactDb .internalAddress)
        intPort := port_of_exact exactDb
        idq := by rw [← idSize]
        prq := by rw [← prSize] }

theorem exists_running (starts : ReaderStarts file words calls) :
    ∃ process, readerMain installFolder words calls = .running process := by
  rcases readReader.reader with ⟨config, reader, exact_⟩
  rcases readDb.database with ⟨configDb, database, exactDb⟩
  rcases Option.ne_none_iff_exists'.mp starts.header with
    ⟨internalHeader, headerSet⟩
  have header : configDb.internalHeader = some internalHeader :=
    (congrArg asText (exactDb .internalHeader)).trans headerSet
  have idSize :
      config.idSize.toInt = asNumber (readerSetting file .idSize) :=
    congrArg asNumber (exact_ .idSize)
  have prSize :
      config.prSize.toInt = asNumber (readerSetting file .prSize) :=
    congrArg asNumber (exact_ .prSize)
  have fits : InRange config.idSize.toInt ∧ InRange config.prSize.toInt ∧
      calls.threads = true :=
    ⟨idSize ▸ starts.idSize, prSize ▸ starts.prSize, starts.threads⟩
  exact ⟨_, (readerMain_of_stays starts.stays reader database).trans
    (configured_iff.mpr ⟨fits, internalHeader, header, rfl⟩)⟩

/--
On a file with both blocks the reader gets to its threads exactly if its options
are known, it stays in its process, the file names a header, both queue sizes
are in range and the threads can be created; and then it has what its options
and the file ask for.
-/
theorem reader_starts_iff :
    ((∃ process, readerMain installFolder words calls = .running process) ↔
        ReaderStarts file words calls) ∧
      ∀ process, readerMain installFolder words calls = .running process →
        ReaderRuns file words process := by
  refine ⟨⟨?_, exists_running readReader readDb⟩, ?_⟩
  · rintro ⟨process, running⟩
    exact (reader_runs readReader readDb running).1
  · intro process running
    exact (reader_runs readReader readDb running).2

end ReaderStart

/-! ## The start of the daemon -/

/-- The conditions under which the daemon gets to its work. -/
structure DbStarts (file : ConfigFile) (words : List CString)
    (calls : DbCalls) : Prop where
  stays : Stays dbOptions words calls.fork
  header : asText (dbSetting file .internalHeader) ≠ none

/-- The daemon has what its options and the file ask for. -/
structure DbRuns (file : ConfigFile) (words : List CString)
    (calls : DbCalls) (process : DbProcess) : Prop where
  settings : process.settings = requestedDbSettings (getopt dbOptions words)
  logFile : process.logFile = asText (dbSetting file .logLocation)
  header :
    asText (dbSetting file .internalHeader) = some process.internalHeader
  port :
    (process.internalPort.toNat : Int) =
      asNumber (dbSetting file .internalPort)
  file : process.file = (createDb calls.createDb calls.file).2
  createError :
    process.createError = true ↔ (createDb calls.createDb calls.file).1 ≠ 0

section DbStart

variable {file : ConfigFile} {installFolder : CString} {words : List CString}
  {calls : DbCalls} (readDb : ReadFrom file .nDb calls.readDb)

include readDb

theorem db_runs {process : DbProcess}
    (running : dbMain installFolder words calls = .running process) :
    DbStarts file words calls ∧ DbRuns file words calls process := by
  rcases readDb.database with ⟨config, database, exactDb⟩
  rw [dbMain, dbOptions_read] at running
  by_cases known : .unknown ∈ getopt dbOptions words
  · rw [if_pos known] at running
    cases running
  · rw [if_neg known] at running
    by_cases leaves :
        (requestedDbSettings (getopt dbOptions words)).foregroundMode =
            false ∧
          calls.fork ≠ 0
    · simp only [if_pos leaves] at running
      cases running
    · have stays : Stays dbOptions words calls.fork := by
        refine ⟨known, ?_⟩
        by_contra neither
        rcases not_or.mp neither with ⟨background, parent⟩
        exact leaves ⟨decide_eq_false background, parent⟩
      simp only [if_neg leaves, database, ne_eq, not_true_eq_false,
        if_false] at running
      cases header : config.internalHeader with
      | none =>
          rw [header] at running
          cases running
      | some internalHeader =>
          rw [header] at running
          cases running
          have headerSet : asText (dbSetting file .internalHeader) =
              some internalHeader :=
            (congrArg asText (exactDb .internalHeader)).symm.trans header
          exact
            ⟨{ stays, header := by simp [headerSet] },
              { settings := rfl
                logFile := congrArg asText (exactDb .logLocation)
                header := headerSet
                port := congrArg asNumber (exactDb .internalPort)
                file := rfl
                createError := by simp }⟩

theorem exists_dbRunning (starts : DbStarts file words calls) :
    ∃ process, dbMain installFolder words calls = .running process := by
  rcases readDb.database with ⟨config, database, exactDb⟩
  rcases Option.ne_none_iff_exists'.mp starts.header with
    ⟨internalHeader, headerSet⟩
  have header : config.internalHeader = some internalHeader :=
    (congrArg asText (exactDb .internalHeader)).trans headerSet
  rcases starts.stays with ⟨known, foreground | child⟩
  · have inFront :
        (requestedDbSettings (getopt dbOptions words)).foregroundMode =
          true := decide_eq_true foreground
    simp [dbMain, dbOptions_read, known, inFront, database, header]
  · simp [dbMain, dbOptions_read, known, child, database, header]

/--
The daemon gets to its work exactly if its options are known, it stays in its
process and the file names a header, whether or not the tables could be created;
and then it has what its options and the file ask for, and the database file
that `create_db` has left.
-/
theorem db_starts_iff :
    ((∃ process, dbMain installFolder words calls = .running process) ↔
        DbStarts file words calls) ∧
      ∀ process, dbMain installFolder words calls = .running process →
        DbRuns file words calls process := by
  refine ⟨⟨?_, exists_dbRunning readDb⟩, ?_⟩
  · rintro ⟨process, running⟩
    exact (db_runs readDb running).1
  · intro process running
    exact (db_runs readDb running).2

end DbStart

/-! ## Both programs -/

section Both

variable (parse : CString → Option Json) (print : Json → CString)
  (reader : ReaderProcess) (daemon : DbProcess)

/-- A step of the fridge in which each program has its own header. -/
def fridgeStep (fridge : Fridge.Programs) :
    Fridge.Event → Option Fridge.Programs
  | .read event => Fridge.read parse print fridge event
  | .send calls => Fridge.send reader.internalHeader fridge calls
  | .connect bytes =>
      some { fridge with network := fridge.network ++ [⟨none, bytes⟩] }
  | .serve chunks =>
      Fridge.serveNext parse daemon.internalHeader fridge chunks

/-- The programs as they begin to work, if the daemon's file has its tables. -/
def fridgeStart (scanner : Scanner) (script : List Bool) :
    Option Fridge.Programs :=
  daemon.file.tables.map fun tables =>
    { reader := reader.threads scanner
      network := []
      daemon := { Daemon.State.start with tables, script }
      served := [] }

variable {parse print reader daemon}

theorem fridgeStep_eq
    (same : reader.internalHeader = daemon.internalHeader) :
    fridgeStep parse print reader daemon =
      Fridge.step parse print daemon.internalHeader := by
  ext fridge event : 2
  cases event with
  | read event => rfl
  | send calls =>
      show Fridge.send reader.internalHeader fridge calls = _
      rw [same]
      rfl
  | connect bytes => rfl
  | serve chunks => rfl

theorem sfQueueSet_of_range {α : Type} {size : Int} (range : InRange size) :
    (sfQueueSet (cleared : Queue α) size).2 = prepared size := by
  rw [sfQueueSet, if_neg (not_lt.mpr range.1), if_neg (not_lt.mpr range.2)]
  rfl

theorem fridgeStart_eq {idSize prSize : Int} (idRange : InRange idSize)
    (prRange : InRange prSize) (idq : reader.idq = prepared idSize)
    (prq : reader.prq = prepared prSize) (scanner : Scanner)
    (script : List Bool) :
    fridgeStart reader daemon scanner script =
      daemon.file.tables.map fun tables =>
        Fridge.start idSize prSize scanner
          { Daemon.State.start with tables, script } := by
  have ids : (sfQueueSet ⟨[], 0, 0, 0⟩ idSize).2 =
      (prepared idSize : Queue (Tagged ProductNode)) :=
    sfQueueSet_of_range idRange
  have products : (sfQueueSet ⟨[], 0, 0, 0⟩ prSize).2 =
      (prepared prSize : Queue (Tagged CString)) :=
    sfQueueSet_of_range prRange
  simp only [fridgeStart, Fridge.start, ReaderProcess.threads, Pipeline.start,
    idq, prq, ids, products]

end Both

/-- The reader has been started with a configuration file. -/
def ReaderStarted (file : ConfigFile) (reader : ReaderProcess) : Prop :=
  ∃ installFolder words calls,
    ReadFrom file .nReader calls.readReader ∧
      ReadFrom file .nDb calls.readDb ∧
        readerMain installFolder words calls = .running reader

/-- The daemon has been started with a configuration file. -/
def DaemonStarted (file : ConfigFile) (daemon : DbProcess) : Prop :=
  ∃ installFolder words calls,
    ReadFrom file .nDb calls.readDb ∧
      dbMain installFolder words calls = .running daemon

/--
Programs that have been started with the same file, whatever their options, use
the same header and the same port.  If the database file of the daemon has its
tables, then in every run of both, from the state in which their `main`
functions have put them, the daemon is in line with the reader, and once nothing
is on its way each accepted node has been served or given up, exactly once.
-/
theorem started_programs_in_line {file : ConfigFile} {reader : ReaderProcess}
    {daemon : DbProcess} (readerStarted : ReaderStarted file reader)
    (daemonStarted : DaemonStarted file daemon)
    {parse : CString → Option Json} {print : Json → CString}
    {raw : UInt8 → Bool} (reads : Fridge.ReadsReader parse print raw)
    {scanner : Scanner} {script : List Bool} {start : Fridge.Programs}
    (started : fridgeStart reader daemon scanner script = some start)
    {stock : Stock} (counted : Counted start.daemon.tables)
    (agrees : Agrees start.daemon.tables stock)
    (events : List Fridge.Event)
    (meets :
      StepsMeet (fridgeStep parse print reader daemon)
        (Fridge.Meets parse daemon.internalHeader raw) start events) :
    (reader.internalHeader = daemon.internalHeader ∧
        reader.intPort.toInt = daemon.internalPort.toNat) ∧
      StatesSatisfy (fridgeStep parse print reader daemon)
        (Fridge.InLine stock) start events ∧
      ∀ fridge,
        run (fridgeStep parse print reader daemon) start events =
            some fridge →
        Fridge.AtRest fridge →
          (fridge.served.map Tagged.ident ++ fridge.reader.discarded).Perm
              (List.range fridge.reader.accepted.length) ∧
            PipelineConservation.LossesReported fridge.reader := by
  rcases readerStarted with
    ⟨_, words, calls, readReader, readDb, running⟩
  rcases daemonStarted with ⟨_, _, _, daemonReadDb, daemonRunning⟩
  have starts := (reader_runs readReader readDb running).1
  have runs := (reader_runs readReader readDb running).2
  have daemonRuns := (db_runs daemonReadDb daemonRunning).2
  have header : reader.internalHeader = daemon.internalHeader :=
    Option.some.inj (runs.header.symm.trans daemonRuns.header)
  rw [fridgeStart_eq starts.idSize starts.prSize runs.idq runs.prq] at started
  obtain ⟨tables, _, rfl⟩ := Option.map_eq_some_iff.mp started
  rw [fridgeStep_eq header] at meets ⊢
  have settled :=
    Fridge.settled_of_meets reads starts.idSize.1 starts.idSize.2
      starts.prSize.1 starts.prSize.2 scanner counted agrees events meets
  refine ⟨⟨header, runs.intPort.trans daemonRuns.port.symm⟩,
    settled.mono fun _ invariant => invariant.inLine, ?_⟩
  intro fridge reached rest
  have final :
      Fridge.Settled parse print daemon.internalHeader stock fridge :=
    (statesSatisfy_iff_past _ _ _ _).mp settled events List.prefix_rfl fridge
      reached
  exact ⟨final.partition rest, final.reader.reported⟩

/-! ## A small file -/

theorem unsigned :
    ([] : List UInt8) = [] ∨ ([] : List UInt8) = [43] ∨
      ([] : List UInt8) = [45] :=
  .inl rfl

/-- The size of both queues. -/
def hundred : Numeral where
  sign := []
  digits := [49, 48, 48]
  signed := unsigned
  nonempty := List.cons_ne_nil _ _
  allDigits := by
    simp only [List.forall_mem_cons]
    exact ⟨rfl, rfl, rfl, List.forall_mem_nil _⟩

theorem hundred_isInt : hundred.IsInt :=
  ⟨by decide, by decide⟩

/-- The port of the daemon. -/
def port2187 : Numeral where
  sign := []
  digits := [50, 49, 56, 55]
  signed := unsigned
  nonempty := List.cons_ne_nil _ _
  allDigits := by
    simp only [List.forall_mem_cons]
    exact ⟨rfl, rfl, rfl, rfl, List.forall_mem_nil _⟩

theorem port2187_isPort : IsPort port2187 :=
  ⟨by decide, by decide⟩

/-- A section with one key. -/
def single {grammar : Grammar} (entry : Entry grammar) : Section grammar where
  sect := grammar.sect entry.field
  entries := [entry]
  nonempty := List.cons_ne_nil entry []
  own := by
    intro other member
    cases List.mem_singleton.mp member
    rfl
  distinct := List.nodup_singleton entry.field

/-- A file with no more than the programs need. -/
def smallFile : ConfigFile where
  reader :=
    { sections :=
        [single ⟨ReaderField.idSize, .number hundred, hundred_isInt⟩,
          single ⟨ReaderField.prSize, .number hundred, hundred_isInt⟩]
      nonempty := List.cons_ne_nil _ _
      distinct := by
        refine List.nodup_cons.mpr ⟨?_, List.nodup_singleton _⟩
        intro member
        cases List.mem_singleton.mp member }
  database :=
    { sections :=
        [single ⟨DbField.internalPort, .number port2187, port2187_isPort⟩,
          single ⟨DbField.internalHeader, .text (.lit "!#+"), trivial⟩]
      nonempty := List.cons_ne_nil _ _
      distinct := by
        refine List.nodup_cons.mpr ⟨?_, List.nodup_singleton _⟩
        intro member
        cases List.mem_singleton.mp member }
  readerFirst := true

theorem smallFile_header :
    asText (dbSetting smallFile .internalHeader) = some (.lit "!#+") :=
  rfl

theorem smallFile_starts (calls : ReaderCalls)
    (threads : calls.threads = true) :
    ReaderStarts smallFile [.lit "-df"] calls where
  stays := by
    have options : getopt readerOptions [.lit "-df"] =
        [.option 100 none, .option 102 none] := by decide
    rw [Stays, options]
    exact ⟨by decide, .inl (by decide)⟩
  header := by
    rw [smallFile_header]
    exact Option.some_ne_none _
  idSize := ⟨by decide, by decide⟩
  prSize := ⟨by decide, by decide⟩
  threads := threads

theorem smallFile_dbStarts {calls : DbCalls} (child : calls.fork = 0) :
    DbStarts smallFile [.lit "-d", .lit "-d"] calls where
  stays := ⟨by decide, .inr child⟩
  header := by
    rw [smallFile_header]
    exact Option.some_ne_none _

/-- What the calls of `sf_read_config` leave, when nothing else fails. -/
theorem exists_calls (file : ConfigFile) :
    ∃ calls : ReaderCalls,
      ReadFrom file .nReader calls.readReader ∧
        ReadFrom file .nDb calls.readDb ∧
          calls.fork = 0 ∧ calls.threads = true := by
  rcases exists_sfReadConfig_reader file readSect .expectNothing with
    ⟨config, loaded, _⟩
  rcases exists_sfReadConfig_database file readSect .expectNothing with
    ⟨configDb, loadedDb, _⟩
  exact
    ⟨{ fork := 0
       readReader := (0, .reader config)
       readDb := (0, .database configDb)
       threads := true },
      ⟨_, _, _, loaded⟩, ⟨_, _, _, loadedDb⟩, rfl, rfl⟩

theorem reader_starts_iff_smallFile :
    ∃ calls process,
      readerMain (.lit "/opt/smart-fridge") [.lit "-df"] calls =
          .running process ∧
        ReaderRuns smallFile [.lit "-df"] process := by
  rcases exists_calls smallFile with ⟨calls, reader, database, _, threads⟩
  rcases (reader_starts_iff reader database).1.mpr
      (smallFile_starts calls threads) with ⟨process, running⟩
  exact ⟨calls, process, running,
    (reader_starts_iff reader database).2 process running⟩

/-- The daemon starts without tables. -/
theorem db_starts_iff_smallFile :
    ∃ calls process,
      dbMain (.lit "/opt/smart-fridge") [.lit "-d", .lit "-d"] calls =
          .running process ∧
        DbRuns smallFile [.lit "-d", .lit "-d"] calls process ∧
          process.file.tables = none := by
  rcases exists_calls smallFile with ⟨calls, _, database, child, _⟩
  let dbCalls : DbCalls :=
    { fork := calls.fork
      readDb := calls.readDb
      file := .new
      createDb := DatabaseFile.failsLate }
  have starts : DbStarts smallFile [.lit "-d", .lit "-d"] dbCalls :=
    smallFile_dbStarts child
  have read : ReadFrom smallFile .nDb dbCalls.readDb := database
  rcases (db_starts_iff read).1.mpr starts with ⟨process, running⟩
  have runs := (db_starts_iff read).2 process running
  refine ⟨dbCalls, process, running, runs, ?_⟩
  rw [runs.file]
  rfl

/-- The calls of `create_db`, of which none fails. -/
def createsAll : CreateCalls :=
  { openV2 := .opened
    prepareV2 := fun _ => true
    step := fun _ => .done }

theorem createsAll_created :
    createDb createsAll .new = (0, .full .fresh) := by
  have answers : DatabaseFile.Answers createsAll := fun _ => .inl rfl
  rcases DatabaseFile.createDb_cases answers .new with
    ⟨_, made⟩ | ⟨fails, _⟩
  · exact made
  · exact absurd ⟨rfl, fun _ _ => ⟨rfl, rfl⟩⟩ fails

/-- Both programs are started, the daemon on a new file. -/
theorem exists_smallFile_started :
    ∃ reader daemon,
      ReaderStarted smallFile reader ∧ DaemonStarted smallFile daemon ∧
        fridgeStart reader daemon .camera [] =
            some (Fridge.start 100 100 .camera .start) ∧
          fridgeStep (Json.parse Json.standardRaw) Json.printUnformatted reader
              daemon =
            Fridge.step (Json.parse Json.standardRaw) Json.printUnformatted
              (.lit "!#+") ∧
          daemon.internalHeader = .lit "!#+" := by
  rcases exists_calls smallFile with
    ⟨calls, readReader, readDb, _, threads⟩
  rcases exists_running readReader readDb
      (smallFile_starts calls threads) with
    ⟨reader, running⟩
  let dbCalls : DbCalls :=
    { fork := 0
      readDb := calls.readDb
      file := .new
      createDb := createsAll }
  have read : ReadFrom smallFile .nDb dbCalls.readDb := readDb
  have daemonStarts : DbStarts smallFile [.lit "-d", .lit "-d"] dbCalls :=
    smallFile_dbStarts rfl
  rcases exists_dbRunning read daemonStarts with ⟨daemon, serving⟩
  have runs := (reader_runs readReader readDb running).2
  have daemonRuns := (db_runs read serving).2
  have header : reader.internalHeader = .lit "!#+" :=
    Option.some.inj (runs.header.symm.trans smallFile_header)
  have daemonHeader : daemon.internalHeader = .lit "!#+" :=
    Option.some.inj (daemonRuns.header.symm.trans smallFile_header)
  have inRange : InRange 100 := ⟨by decide, by decide⟩
  have created : daemon.file.tables = some .fresh := by
    rw [daemonRuns.file, createsAll_created, DatabaseFile.tables_full]
  refine ⟨reader, daemon,
    ⟨.lit "/opt/smart-fridge", _, calls, readReader, readDb, running⟩,
    ⟨.lit "/opt/smart-fridge", _, dbCalls, read, serving⟩, ?_, ?_,
    daemonHeader⟩
  · rw [fridgeStart_eq inRange inRange runs.idq runs.prq, created]
    rfl
  · rw [fridgeStep_eq (header.trans daemonHeader.symm), daemonHeader]

/-- A carton is scanned, and its message is stored. -/
theorem started_programs_in_line_smallFile :
    ∃ reader daemon start,
      fridgeStart reader daemon .camera [] = some start ∧
        (∃ fridge,
          run
              (fridgeStep (Json.parse Json.standardRaw) Json.printUnformatted
                reader daemon)
              start Fridge.additionDay =
            some fridge ∧
          fridge.served.map Tagged.ident = [0]) ∧
        (reader.internalHeader = daemon.internalHeader ∧
          reader.intPort.toInt = daemon.internalPort.toNat) ∧
        StatesSatisfy
          (fridgeStep (Json.parse Json.standardRaw) Json.printUnformatted
            reader daemon)
          (Fridge.InLine Inventory.noStock) start Fridge.additionDay ∧
        ∀ fridge,
          run
              (fridgeStep (Json.parse Json.standardRaw) Json.printUnformatted
                reader daemon)
              start Fridge.additionDay =
            some fridge →
          Fridge.AtRest fridge →
            (fridge.served.map Tagged.ident ++ fridge.reader.discarded).Perm
                (List.range fridge.reader.accepted.length) ∧
              PipelineConservation.LossesReported fridge.reader := by
  rcases exists_smallFile_started with
    ⟨reader, daemon, readerStarted, daemonStarted, started, sameStep, header⟩
  rcases Fridge.additionDay_ends with ⟨fridge, reached, _, served⟩
  refine ⟨reader, daemon, _, started,
    ⟨fridge, by rw [sameStep]; exact reached, served⟩,
    started_programs_in_line readerStarted daemonStarted
      (Fridge.readsReader_json Json.standardRaw_printable) started
      Fridge.counted_fresh Inventory.agrees_start Fridge.additionDay ?_⟩
  rw [sameStep, header]
  exact Fridge.additionDay_meets

end SmartFridge.Startup
