import SmartFridge.Library.Double
import SmartFridge.Library.JsonRoundTrip

/-!
# The items of cJSON

The part of cJSON's interface that the decoders use, over JSON values.  An
item's `valuestring` is NULL unless the item is a string.  Members are looked
up without regard to case, and the first match wins.  Adding a NULL string or
a NULL item adds nothing.
-/

namespace SmartFridge.CJson

open SmartFridge.Library

/-- The members of an object, in their order. -/
abbrev Members := List (CString × Json)

/-- `item->child` and the items that follow it. -/
def children : Json → List Json
  | .array items => items
  | .object members => members.map Prod.snd
  | _ => []

/-- `item->valuestring`. -/
def valuestring : Json → Option CString
  | .string value => some value
  | _ => none

/-- The conversion of a number to `int`, saturating at the ends of its range. -/
def numberToInt (value : Decimal) : Int32 :=
  let double := Double.nearest (value.mantissa * 10 ^ value.exponent)
  Int32.ofIntClamp (if 0 ≤ double then ⌊double⌋ else ⌈double⌉)

/-- `item->valueint`. -/
def valueint : Json → Int32
  | .number value => numberToInt value
  | .bool true => 1
  | _ => 0

/-- The first member of a name. -/
def findMember (members : Members) (name : CString) : Option Json :=
  (members.find? fun member => name.caseEq member.1).map Prod.snd

/-- `cJSON_GetObjectItem`; the items of an array have no name. -/
def getObjectItem (object : Option Json) (name : CString) : Option Json :=
  match object with
  | some (.object members) => findMember members name
  | _ => none

/-- `cJSON_AddItemToObject`. -/
def addItemToObject
    (members : Members) (name : CString) (item : Option Json) : Members :=
  members ++ item.toList.map fun value => (name, value)

/-- `cJSON_AddStringToObject`. -/
def addStringToObject
    (members : Members) (name : CString) (value : Option CString) : Members :=
  addItemToObject members name (value.map .string)

/-- `cJSON_AddNumberToObject` of an `int` that was cast to double. -/
def addNumberToObject
    (members : Members) (name : CString) (number : Int32) : Members :=
  addItemToObject members name (some (.number ⟨number.toInt, 0⟩))

/-- `cJSON_AddItemToArray`. -/
def addItemToArray (items : List Json) (item : Option Json) : List Json :=
  items ++ item.toList

@[simp]
theorem getObjectItem_object (members : Members) (name : CString) :
    getObjectItem (some (.object members)) name = findMember members name :=
  rfl

@[simp]
theorem getObjectItem_none (name : CString) : getObjectItem none name = none :=
  rfl

@[simp]
theorem valuestring_string (value : CString) :
    valuestring (.string value) = some value :=
  rfl

@[simp]
theorem children_array (items : List Json) :
    children (.array items) = items :=
  rfl

@[simp]
theorem findMember_nil (name : CString) : findMember [] name = none :=
  rfl

/-- A new member is seen under its name unless an earlier one hides it. -/
theorem findMember_addItem
    (members : Members) (name added : CString) (item : Option Json) :
    findMember (addItemToObject members added item) name =
      (findMember members name).or
        (if name.caseEq added = true then item else none) := by
  cases item with
  | none =>
      simp [findMember, addItemToObject]
  | some value =>
      cases found : members.find? fun member => name.caseEq member.1 with
      | none =>
          by_cases same : name.caseEq added = true
          · simp [findMember, addItemToObject, found, same]
          · simp [findMember, addItemToObject, found, same]
      | some earlier =>
          simp [findMember, addItemToObject, found]

/-- An `int` survives its way through a double. -/
theorem numberToInt_of_int (number : Int32) :
    numberToInt ⟨number.toInt, 0⟩ = number := by
  have lower := number.le_toInt
  have upper := number.toInt_lt
  have small : |number.toInt| < 2 ^ 53 := by
    rw [abs_lt]
    omega
  have exact : Double.nearest (number.toInt * 10 ^ (0 : ℤ)) = number.toInt := by
    simpa using Double.nearest_intCast small
  simp only [numberToInt, exact, Int.floor_intCast, Int.ceil_intCast, ite_self]
  exact Int32.ofIntClamp_toInt number

/-! ## The text of a value -/

/--
The values whose text cJSON reads back: no number but an `int`, and no more
levels than its parser accepts.
-/
inductive Wire : Nat → Json → Prop
  | string {depth : Nat} (value : CString) : Wire depth (.string value)
  | number {depth : Nat} (value : Int32) :
      Wire depth (.number ⟨value.toInt, 0⟩)
  | array {depth : Nat} {items : List Json}
      (within : ∀ item ∈ items, Wire depth item) :
      Wire (depth + 1) (.array items)
  | object {depth : Nat} {members : Members}
      (within : ∀ member ∈ members, Wire depth member.2) :
      Wire (depth + 1) (.object members)

/-- CJSON_NESTING_LIMIT. -/
def nestingLimit : Nat := 1000

/-- Printing and parsing is the identity on the values that are sent. -/
def ReadsPrinted
    (parse : CString → Option Json) (print : Json → CString) : Prop :=
  ∀ value, Wire nestingLimit value → parse (print value) = some value

/-- The reader and the printer of JSON's grammar are such a pair. -/
theorem readsPrinted_json {raw : UInt8 → Bool}
    (printable : ∀ byte, 32 ≤ byte → raw byte = true) :
    ReadsPrinted (Json.parse raw) Json.printUnformatted :=
  fun value _ => Json.parse_printUnformatted printable value

end SmartFridge.CJson
