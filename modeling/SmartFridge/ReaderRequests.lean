import SmartFridge.DaemonMessages
import SmartFridge.DeletionMessage
import SmartFridge.ProductRoundTrip

/-!
# From the reader to the database

What the messages of the reader ask of the daemon when they arrive behind the
internal header: the message of a decoded document asks for the insertion of
the product it stands for, and a deletion message for the removal of its code.
-/

namespace SmartFridge.ReaderRequests

open SmartFridge.Library
open SmartFridge.CJson
open SmartFridge.ProductDecoder
open SmartFridge.ProductRoundTrip
open SmartFridge.DeletionMessage
open SmartFridge.Reader
open SmartFridge.Schema
open SmartFridge.Daemon

section Requests

variable (internalHeader : CString)

theorem requested_addition
    {parse : CString → Option Json} {print : Json → CString}
    (faithful : ReadsPrinted parse print)
    {copied : Copied} (strings : AllStrings copied.images)
    (complete : ∀ text ∈ copied.texts, text.isSome = true)
    (number : Int32) (now code : CString) :
    requested internalHeader parse
        (internalHeader ++
          print (.object (message copied number now code))) =
      some (.insert (received copied number now code)) := by
  have decoded :
      sfPrDecoder parse (print (.object (message copied number now code))) =
        some (noError, some (received copied number now code)) :=
    outcome_eq_decoded.mpr
      ((prDecoding_print faithful strings).mpr
        ⟨rfl, message_isAddition strings complete number now code⟩)
  rw [requested_of_decoded decoded, if_neg (by decide)]

theorem requested_removal {raw : UInt8 → Bool}
    {parse : CString → Option Json} (reads : ReadsRemovals raw parse)
    {code : CString} (nonempty : code ≠ CString.empty)
    (fits : code.bytes.length ≤ 73)
    (plain : ∀ byte ∈ code.bytes, Json.Plain raw byte) :
    requested internalHeader parse (internalHeader ++ removeMsg code) =
      some (.remove (some code)) := by
  rw [requested_of_decoded
    (decoded_of_parsed nonempty (reads code fits plain)), if_pos rfl]

end Requests

/-! ## A carton of milk -/

/-- The product of the document of the milk. -/
def milk (number : Int32) : Product :=
  received (milkCopied (.string (.lit "100g"))) number
    (.lit "2024-01-01 10:00:00") (.lit "8480017439482")

theorem milk_complete (number : Int32) : Complete (milk number) where
  code := by simp +decide [milk, received, nullIfEmpty]
  name := by simp [milk, received]
  quantity := by simp +decide [milk, received, milkCopied, nullIfEmpty]
  timestamp := by simp +decide [milk, received, nullIfEmpty]

/-- The message of some cartons, behind the header of the configuration. -/
def milkDelivery (number : Int32) : Delivery :=
  { msg :=
      .lit "!#+" ++
        Json.printUnformatted
          (.object
            (message (milkCopied (.string (.lit "100g"))) number
              (.lit "2024-01-01 10:00:00") (.lit "8480017439482")))
    sent := 0 }

theorem milk_requested (number : Int32) :
    requested (.lit "!#+") (Json.parse Json.standardRaw)
        (milkDelivery number).msg =
      some (.insert (milk number)) :=
  requested_addition _ (readsPrinted_json Json.standardRaw_printable)
    (decodedImages_allStrings (milk_copied (.string (.lit "100g"))).images)
    (by simp [Copied.texts, milkCopied]) number _ _

/-- The deletion message of the milk. -/
def milkRemoval : Delivery :=
  { msg := .lit "!#+" ++ removeMsg (.lit "8480017439482")
    sent := 0 }

theorem milkRemoval_requested :
    requested (.lit "!#+") (Json.parse Json.standardRaw) milkRemoval.msg =
      some (.remove (some (.lit "8480017439482"))) :=
  requested_removal _ (readsRemovals_json Json.standardRaw_printable)
    (by decide) (by decide) (printable_plain Json.standardRaw_printable rfl)

end SmartFridge.ReaderRequests
