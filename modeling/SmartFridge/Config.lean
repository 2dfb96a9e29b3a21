import SmartFridge.Library.BlockMapping

/-!
# The configuration file

`sf_read_config` and its two loaders, as loops over the tokens of the scanner.
Variables that the loaders leave uninitialised are parameters.
-/

namespace SmartFridge.Config

open SmartFridge.Library
open SmartFridge.Library.BlockMapping

/-- `n_config`. -/
inductive NConfig where
  | nReader
  | nDb
deriving DecidableEq

/-- `yaml_state`. -/
inductive YamlState where
  | expectKey
  | expectValue
  | expectBlockMapping
  | expectNothing
deriving DecidableEq

abbrev yamlReader : CString := .lit "reader"
abbrev yamlDatabase : CString := .lit "database"
abbrev yamlIdQueue : CString := .lit "id_queue"
abbrev yamlProdQueue : CString := .lit "product_queue"
abbrev yamlTestMode : CString := .lit "test_mode"
abbrev yamlCodeReader : CString := .lit "code_reader"
abbrev yamlSleep : CString := .lit "sleep"
abbrev yamlSize : CString := .lit "size"
abbrev yamlInfinite : CString := .lit "infinite"
abbrev yamlDevice : CString := .lit "device"
abbrev yamlPort : CString := .lit "port"
abbrev yamlSocketMode : CString := .lit "socket_mode"
abbrev yamlPorts : CString := .lit "ports"
abbrev yamlAddresses : CString := .lit "addresses"
abbrev yamlHeaders : CString := .lit "headers"
abbrev yamlInternal : CString := .lit "internal"
abbrev yamlLogs : CString := .lit "logs"
abbrev yamlLocation : CString := .lit "location"

/-- What the loaders log before they give up. -/
inductive ConfigError where
  | invConfigTagBlock (tag block : CString)
  | invConfigInBlock (block : CString)

/-! ## The reader -/

/-! The values of `reader_section`. -/

abbrev readSect : Int := 0
abbrev idSect : Int := 1
abbrev prSect : Int := 2
abbrev testSect : Int := 3
abbrev coderSect : Int := 4
abbrev rlogsSect : Int := 5
abbrev socketMode : Int := 6

/-- `reader_conf`. -/
structure ReaderConf where
  idSleep : Int32
  idSize : Int32
  prSleep : Int32
  prSize : Int32
  testSleep : Int32
  testRepeat : Option CString
  device : Option CString
  logLocation : Option CString
  socketModePort : Int32

/-- The structure as `calloc` leaves it. -/
def ReaderConf.zero : ReaderConf :=
  { idSleep := 0
    idSize := 0
    prSleep := 0
    prSize := 0
    testSleep := 0
    testRepeat := none
    device := none
    logLocation := none
    socketModePort := 0 }

/-- A field that `conv.data` points at. -/
inductive ReaderField where
  | idSleep
  | idSize
  | prSleep
  | prSize
  | testSleep
  | testRepeat
  | device
  | logLocation
  | socketModePort
deriving DecidableEq

/-- `*integer = value`; nothing if the field is no `int`. -/
def ReaderConf.writeInt (config : ReaderConf) (value : Int32) :
    ReaderField → Option ReaderConf
  | .idSleep => some { config with idSleep := value }
  | .idSize => some { config with idSize := value }
  | .prSleep => some { config with prSleep := value }
  | .prSize => some { config with prSize := value }
  | .testSleep => some { config with testSleep := value }
  | .socketModePort => some { config with socketModePort := value }
  | .testRepeat | .device | .logLocation => none

/-- `*conv.data = strdup(scalar)`; nothing if the field is no string. -/
def ReaderConf.writeString (config : ReaderConf) (scalar : CString) :
    ReaderField → Option ReaderConf
  | .testRepeat => some { config with testRepeat := some scalar }
  | .device => some { config with device := some scalar }
  | .logLocation => some { config with logLocation := some scalar }
  | .idSleep | .idSize | .prSleep | .prSize | .testSleep | .socketModePort =>
      none

/-- The variables of `sf_load_reader_config`; `type` is 0 for a string and 1 for
an `int`. -/
structure ReaderLoader where
  config : ReaderConf
  data : Option ReaderField
  type : Nat
  sect : Int
  state : YamlState
  errors : List ConfigError

/-- The variables of `sf_load_reader_config` before its loop. -/
def ReaderLoader.start (sect : Int) : ReaderLoader :=
  { config := .zero
    data := none
    type := 0
    sect
    state := .expectBlockMapping
    errors := [] }

/-- A scalar where a key is expected. -/
def readerKey (scalar : CString) (loader : ReaderLoader) :
    Progress ReaderLoader :=
  if scalar = yamlSize then
    .continues
      { loader with
        data :=
          if loader.sect = idSect then some .idSize
          else if loader.sect = prSect then some .prSize
          else loader.data
        type := 1 }
  else if scalar = yamlSleep then
    .continues
      { loader with
        data :=
          if loader.sect = idSect then some .idSleep
          else if loader.sect = prSect then some .prSleep
          else if loader.sect = testSect then some .testSleep
          else loader.data
        type := 1 }
  else if scalar = yamlInfinite then
    .continues { loader with data := some .testRepeat, type := 0 }
  else if scalar = yamlDevice then
    .continues { loader with data := some .device, type := 0 }
  else if scalar = yamlPort then
    .continues { loader with data := some .socketModePort, type := 1 }
  else if scalar = yamlLocation then
    .continues { loader with data := some .logLocation, type := 0 }
  else if scalar = yamlIdQueue then
    .continues { loader with sect := idSect, state := .expectBlockMapping }
  else if scalar = yamlProdQueue then
    .continues { loader with sect := prSect, state := .expectBlockMapping }
  else if scalar = yamlTestMode then
    .continues { loader with sect := testSect, state := .expectBlockMapping }
  else if scalar = yamlCodeReader then
    .continues { loader with sect := coderSect, state := .expectBlockMapping }
  else if scalar = yamlLogs then
    .continues { loader with sect := rlogsSect, state := .expectBlockMapping }
  else if scalar = yamlSocketMode then
    .continues { loader with sect := socketMode, state := .expectBlockMapping }
  else
    .fails
      { loader with
        errors := loader.errors ++ [.invConfigTagBlock scalar yamlReader] }

/-- A scalar where a value is expected. -/
def readerValue (scalar : CString) (loader : ReaderLoader) :
    Option ReaderLoader :=
  match loader.data with
  | none => some loader
  | some field =>
      let written :=
        if loader.type = 0 then
          loader.config.writeString scalar field
        else if loader.type = 1 then
          loader.config.writeInt (.ofInt scalar.strtol) field
        else
          some loader.config
      written.map fun config => { loader with config, data := none }

/-- One round of the loop of `sf_load_reader_config`. -/
def readerStep : Token → ReaderLoader → Option (Progress ReaderLoader)
  | .key, loader => some (.continues { loader with state := .expectKey })
  | .value, loader =>
      some (.continues
        (if loader.state ≠ .expectBlockMapping then
          { loader with state := .expectValue }
        else
          loader))
  | .blockMappingStart, loader =>
      if loader.state ≠ .expectBlockMapping then
        some (.fails
          { loader with
            errors := loader.errors ++ [.invConfigInBlock yamlReader] })
      else
        some (.continues loader)
  | .scalar scalar, loader =>
      if loader.state = .expectKey then
        some (readerKey scalar loader)
      else if loader.state = .expectValue then
        (readerValue scalar loader).map .continues
      else
        some (.continues loader)
  | .blockEnd, loader =>
      if loader.sect ≠ readSect then
        some (.continues { loader with sect := readSect })
      else
        some (.finishes loader)
  | .streamStart, loader | .streamEnd, loader | .other, loader =>
      some (.continues loader)

/-- `sf_load_reader_config`. -/
def sfLoadReaderConfig (sect : Int) (tokens : List Token) :
    Option (Int × ReaderLoader) :=
  scanLoop readerStep tokens (ReaderLoader.start sect)

/-! ## The database -/

/-! The values of `database_section`. -/

abbrev ports : Int := 0
abbrev headers : Int := 1
abbrev addresses : Int := 2
abbrev dlogsSect : Int := 3

/-- `db_conf`. -/
structure DbConf where
  internalPort : UInt32
  internalHeader : Option CString
  internalAddress : Option CString
  logLocation : Option CString

/-- The structure as `calloc` leaves it. -/
def DbConf.zero : DbConf :=
  { internalPort := 0
    internalHeader := none
    internalAddress := none
    logLocation := none }

/-- A field that `conv.data` points at. -/
inductive DbField where
  | internalPort
  | internalHeader
  | internalAddress
  | logLocation
deriving DecidableEq

/--
`*conv.data = (void *) number`; nothing if the field is a string.  The upper
half of the 64 bits goes into the padding behind the port.
-/
def DbConf.writeNumber (config : DbConf) (number : Int) :
    DbField → Option DbConf
  | .internalPort => some { config with internalPort := .ofInt number }
  | .internalHeader | .internalAddress | .logLocation => none

/-- `*conv.data = strdup(scalar)`; nothing if the field is no string. -/
def DbConf.writeString (config : DbConf) (scalar : CString) :
    DbField → Option DbConf
  | .internalPort => none
  | .internalHeader => some { config with internalHeader := some scalar }
  | .internalAddress => some { config with internalAddress := some scalar }
  | .logLocation => some { config with logLocation := some scalar }

/-- The variables of `sf_load_db_config`; `type` is 1 for a number and 2 for a
string. -/
structure DbLoader where
  config : DbConf
  data : Option DbField
  type : Nat
  sect : Int
  state : YamlState
  errors : List ConfigError

/-- The variables of `sf_load_db_config` before its loop. -/
def DbLoader.start (sect : Int) : DbLoader :=
  { config := .zero
    data := none
    type := 0
    sect
    state := .expectBlockMapping
    errors := [] }

/-- A scalar where a key is expected. -/
def dbKey (scalar : CString) (loader : DbLoader) : Progress DbLoader :=
  if scalar = yamlInternal then
    let converted :=
      if loader.sect = ports then
        { loader with data := some .internalPort, type := 1 }
      else if loader.sect = headers then
        { loader with data := some .internalHeader, type := 2 }
      else if loader.sect = addresses then
        { loader with data := some .internalAddress, type := 2 }
      else
        loader
    .continues { converted with sect := -1 }
  else if scalar = yamlLocation then
    .continues { loader with data := some .logLocation, type := 2 }
  else if scalar = yamlPorts then
    .continues { loader with sect := ports, state := .expectBlockMapping }
  else if scalar = yamlHeaders then
    .continues { loader with sect := headers, state := .expectBlockMapping }
  else if scalar = yamlAddresses then
    .continues { loader with sect := addresses, state := .expectBlockMapping }
  else if scalar = yamlLogs then
    .continues { loader with sect := dlogsSect, state := .expectBlockMapping }
  else
    .fails
      { loader with
        errors := loader.errors ++ [.invConfigTagBlock scalar yamlDatabase] }

/-- A scalar where a value is expected; nothing if `conv.data` is NULL. -/
def dbValue (scalar : CString) (loader : DbLoader) : Option DbLoader :=
  if loader.type = 1 then
    (loader.data.bind (loader.config.writeNumber scalar.strtol)).map
      fun config => { loader with config }
  else if loader.type = 2 then
    (loader.data.bind (loader.config.writeString scalar)).map
      fun config => { loader with config }
  else
    some loader

/-- One round of the loop of `sf_load_db_config`. -/
def dbStep : Token → DbLoader → Option (Progress DbLoader)
  | .key, loader => some (.continues { loader with state := .expectKey })
  | .value, loader =>
      some (.continues
        (if loader.state ≠ .expectBlockMapping then
          { loader with state := .expectValue }
        else
          loader))
  | .blockMappingStart, loader =>
      if loader.state ≠ .expectBlockMapping then
        some (.fails
          { loader with
            errors := loader.errors ++ [.invConfigInBlock yamlDatabase] })
      else
        some (.continues loader)
  | .scalar scalar, loader =>
      if loader.state = .expectKey then
        some (dbKey scalar loader)
      else if loader.state = .expectValue then
        (dbValue scalar loader).map .continues
      else
        some (.continues loader)
  | .blockEnd, loader =>
      -- `read_sect` of the other enumeration is the number of `ports`.
      if loader.sect ≠ readSect then
        some (.continues { loader with sect := readSect })
      else
        some (.finishes loader)
  | .streamStart, loader | .streamEnd, loader | .other, loader =>
      some (.continues loader)

/-- `sf_load_db_config`. -/
def sfLoadDbConfig (sect : Int) (tokens : List Token) :
    Option (Int × DbLoader) :=
  scanLoop dbStep tokens (DbLoader.start sect)

/-! ## The file -/

/-- What `sf_read_config` leaves behind its last argument. -/
inductive Loaded where
  | null
  | reader (config : ReaderConf)
  | database (config : DbConf)

/--
The loop of `sf_read_config`: its result, the configuration and what is logged.
A failure of the reader's loader is passed over, one of the other is not.
-/
def readLoop (type : NConfig) (sect : Int) :
    List Token → YamlState → Option (Int × Loaded × List ConfigError)
  | [], _ => some (0, .null, [])
  | .key :: rest, _ => readLoop type sect rest .expectKey
  | .scalar scalar :: rest, state =>
      if state = .expectKey then
        if scalar = yamlReader then
          if type = .nReader then
            (sfLoadReaderConfig sect rest).map fun (_, loader) =>
              (0, .reader loader.config, loader.errors)
          else
            readLoop type sect rest .expectNothing
        else if scalar = yamlDatabase then
          if type = .nDb then
            (sfLoadDbConfig sect rest).map fun (result, loader) =>
              (if result ≠ 0 then 1 else 0, .database loader.config,
                loader.errors)
          else
            readLoop type sect rest .expectNothing
        else
          readLoop type sect rest .expectNothing
      else
        readLoop type sect rest .expectNothing
  | .streamStart :: rest, _ | .streamEnd :: rest, _
  | .blockMappingStart :: rest, _ | .blockEnd :: rest, _
  | .value :: rest, _ | .other :: rest, _ =>
      readLoop type sect rest .expectNothing

/-- `sf_read_config` on a file that can be opened. -/
def sfReadConfig (type : NConfig) (sect : Int) (state : YamlState)
    (tokens : List Token) : Option (Int × Loaded × List ConfigError) :=
  readLoop type sect tokens state

end SmartFridge.Config
