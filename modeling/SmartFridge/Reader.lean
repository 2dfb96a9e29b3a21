import SmartFridge.ProductDecoder

/-!
# The texts of the reader

What the reader makes of a scanned code, of a message on its socket and of a
line of its test file, and the two texts that it formats into a buffer of 100
bytes.
-/

namespace SmartFridge.Reader

open SmartFridge.Library

/-- DB_MODE_ADD and DB_MODE_REMOVE. -/
inductive DbMode where
  | add
  | remove
deriving DecidableEq

/-- The structure `product_node`. -/
structure ProductNode where
  code : CString
  number : Int32
  mode : DbMode
deriving DecidableEq

/-- `key_handler` on SIGTSTP. -/
def keyHandler : DbMode → DbMode
  | .add => .remove
  | .remove => .add

/-- REMOVE_MSG in the buffer of the decoder. -/
def removeMsg (code : CString) : CString :=
  CString.snprintf 100
    (.lit "\x7b\"code\":\"" ++ code ++ .lit "\",\"remove\":\"yes\"\x7d")

/-- OF_API in the buffer of the decoder. -/
def ofApi (code : CString) : CString :=
  CString.snprintf 100
    (.lit "https://world.openfoodfacts.org/api/v0/product/" ++ code ++
      .lit ".json")

/-- `strtol` into an `int`. -/
def readNumber (text : CString) : Int32 :=
  Int32.ofInt text.strtol

/-- The node of a symbol that the camera has decoded. -/
def cameraNode (mode : DbMode) (symbol : CString) : ProductNode :=
  { code := symbol, number := 1, mode }

/-- The node of a socket message `!code:number`, if it has that format. -/
def socketNode (mode : DbMode) (msg : CString) : Option ProductNode :=
  if msg.bytes.head? = some 33 then
    (msg.cut Json.colon).map fun parts =>
      { code := parts.1.tail, number := readNumber parts.2, mode }
  else
    none

/-- The node of a line of the test file, unless it is a comment. -/
def testNode (mode : DbMode) (line : CString) : Option ProductNode :=
  if line.bytes.head? = some 35 then
    none
  else
    let text := (line.before 35).before 10
    match text.cut Json.colon with
    | some (code, number) =>
        some { code, number := readNumber number, mode }
    | none => some { code := text, number := 1, mode }

example :
    socketNode .add (.lit "!8480017439482:0") =
      some ⟨.lit "8480017439482", 0, .add⟩ := by
  decide

end SmartFridge.Reader
