import SmartFridge.Library.JsonRoundTrip

/-!
# Sending the database

`database_send` announces the size of the database file and then lets the
kernel copy the file to the socket.  Its loop ends for three reasons and does
not tell them apart, so that it reports success for a copy that stopped early.
-/

namespace SmartFridge.DatabaseSend

open SmartFridge.Library

/-- MAX_MSG_CHUNK. -/
abbrev maxMsgChunk : Nat := 6144

/-- What the system calls of `database_send` return, in the order of the calls. -/
structure Calls where
  dbFd : Int
  fstat : Int
  send : Int
  sendfile : List Int

/-- `sprintf(buffer, "%ld!", db_stat.st_size)`. -/
def sizeMsg (file : List UInt8) : List UInt8 :=
  Json.natText file.length ++ [33]

/-- `sendfile` moves no more than is asked for, and no more than is left. -/
def sentBytes (result : Int) (unsent : List UInt8) : Int :=
  min result (min maxMsgChunk unsent.length)

/--
The bytes that the loop of `database_send` writes.  Results beyond the given
ones are errors.
-/
def sendLoop : List Int → List UInt8 → Int → List UInt8
  | [], _, _ => []
  | result :: results, unsent, remaing =>
      let sent := sentBytes result unsent
      if 0 < sent then
        unsent.take sent.toNat ++
          if 0 < remaing then
            sendLoop results (unsent.drop sent.toNat) (remaing - sent)
          else
            []
      else
        []

/-- The result of `database_send`, and the bytes that it writes. -/
def databaseSend (file : List UInt8) (calls : Calls) : Int × List UInt8 :=
  if calls.dbFd = 0 then
    (1, [])
  else if calls.fstat < 0 then
    (1, [])
  else if calls.send < 0 then
    (1, [])
  else
    -- A count below the length of the message is taken for success.
    (0, (sizeMsg file).take calls.send.toNat ++
      sendLoop calls.sendfile file (Int32.ofInt file.length).toInt)

/-! ## What the loop writes -/

/-- What the calls before the first that sends nothing offer to send. -/
def offered (results : List Int) : Nat :=
  ((results.takeWhile (0 < ·)).map fun result =>
    min result.toNat maxMsgChunk).sum

theorem offered_cons_of_pos {result : Int} (positive : 0 < result)
    (results : List Int) :
    offered (result :: results) =
      min result.toNat maxMsgChunk + offered results := by
  simp [offered, positive]

theorem offered_cons_of_nonpos {result : Int} (nothing : ¬ 0 < result)
    (results : List Int) : offered (result :: results) = 0 := by
  simp [offered, nothing]

/-- A count that was not cut off sends what was offered, up to the end. -/
theorem sendLoop_exact (results : List Int) (unsent : List UInt8) :
    sendLoop results unsent unsent.length = unsent.take (offered results) := by
  induction results generalizing unsent with
  | nil => exact List.take_zero.symm
  | cons result rest ih =>
      rw [sendLoop]
      by_cases positive : 0 < result
      · rw [offered_cons_of_pos positive]
        cases unsent with
        | nil => simp [sentBytes]
        | cons byte bytes =>
            let sent := min (min result.toNat maxMsgChunk) (byte :: bytes).length
            have length : (byte :: bytes).length = bytes.length + 1 :=
              List.length_cons
            have sentEq : sentBytes result (byte :: bytes) = (sent : Int) := by
              unfold sentBytes
              omega
            have chunk : maxMsgChunk = 6144 := rfl
            have some_ : 0 < (sent : Int) := by omega
            have left : ((byte :: bytes).length : Int) - (sent : Int) =
                ((byte :: bytes).drop sent).length := by
              rw [List.length_drop]
              omega
            simp only [sentEq, Int.toNat_natCast]
            rw [if_pos some_, if_pos (by omega), left, ih, ← List.take_add]
            apply List.take_eq_take_iff.mpr
            omega
      · have nothing : ¬ 0 < sentBytes result unsent := by
          unfold sentBytes
          omega
        rw [offered_cons_of_nonpos positive, if_neg nothing, List.take_zero]

theorem sentBytes_le (result : Int) (unsent : List UInt8) :
    sentBytes result unsent ≤ maxMsgChunk := by
  unfold sentBytes
  omega

theorem sendLoop_stop {result : Int} {unsent : List UInt8}
    (nothing : ¬ 0 < sentBytes result unsent) (results : List Int)
    (remaing : Int) : sendLoop (result :: results) unsent remaing = [] :=
  if_neg nothing

theorem sendLoop_length_of_nonpos (results : List Int) (unsent : List UInt8)
    {remaing : Int} (nothing : ¬ 0 < remaing) :
    (sendLoop results unsent remaing).length ≤ maxMsgChunk := by
  cases results with
  | nil => exact Nat.zero_le _
  | cons result rest =>
      by_cases some_ : 0 < sentBytes result unsent
      · have chunk := sentBytes_le result unsent
        rw [sendLoop, if_pos some_, if_neg nothing, List.append_nil,
          List.length_take]
        omega
      · rw [sendLoop_stop some_]
        exact Nat.zero_le _

/-- The loop oversteps the count that it keeps by two chunks at most. -/
theorem sendLoop_length (results : List Int) (unsent : List UInt8)
    (remaing : Int) :
    ((sendLoop results unsent remaing).length : Int) ≤
      max remaing 0 + 2 * maxMsgChunk := by
  induction results generalizing unsent remaing with
  | nil =>
      have empty : (sendLoop [] unsent remaing).length = 0 := rfl
      omega
  | cons result rest ih =>
      by_cases counted : 0 < remaing
      · by_cases some_ : 0 < sentBytes result unsent
        · have chunk := sentBytes_le result unsent
          rw [sendLoop, if_pos some_, if_pos counted, List.length_append,
            List.length_take]
          by_cases further : 0 < remaing - sentBytes result unsent
          · have bound := ih (unsent.drop (sentBytes result unsent).toNat)
              (remaing - sentBytes result unsent)
            omega
          · have bound := sendLoop_length_of_nonpos rest
              (unsent.drop (sentBytes result unsent).toNat) further
            omega
        · rw [sendLoop_stop some_, List.length_nil]
          omega
      · have bound :=
          sendLoop_length_of_nonpos (result :: rest) unsent counted
        omega

theorem count_of_small {size : Nat} (small : size < 2 ^ 31) :
    (Int32.ofInt size).toInt = size := by
  rw [Int32.toInt_ofInt_of_le]
  · omega
  · omega

/-- A file that the count does not hold is not sent as a whole. -/
theorem sendLoop_of_large (results : List Int) {file : List UInt8}
    (large : 2 ^ 31 ≤ file.length) :
    (sendLoop results file (Int32.ofInt file.length).toInt).length <
      file.length := by
  have chunk : maxMsgChunk = 6144 := rfl
  have upper := (Int32.ofInt file.length).toInt_lt
  by_cases huge : 2 ^ 32 ≤ file.length
  · have bound := sendLoop_length results file (Int32.ofInt file.length).toInt
    omega
  · have negative : ¬ 0 < (Int32.ofInt file.length).toInt := by
      have width : Int32.size = 2 ^ 32 := rfl
      rw [Int32.toInt_ofInt, Int.bmod_def, width]
      omega
    have bound := sendLoop_length_of_nonpos results file negative
    omega

/-! ## Complete or reported -/

/-- The file of a client that reads a size up to '!' and then so many bytes. -/
def clientFile (bytes : List UInt8) : Option (List UInt8) :=
  let size := CString.digitsValue (bytes.takeWhile (· ≠ 33))
  let content := (bytes.dropWhile (· ≠ 33)).tail
  if size ≤ content.length then some (content.take size) else none

theorem clientFile_sizeMsg (file : List UInt8) :
    clientFile (sizeMsg file ++ file) = some file := by
  have digits : ∀ byte ∈ Json.natText file.length,
      decide (byte ≠ 33) = true := by
    intro byte member
    have isDigit := Json.natText_isDigit file.length byte member
    apply decide_eq_true
    rintro rfl
    cases isDigit
  have before :
      (sizeMsg file ++ file).takeWhile (· ≠ 33) =
        Json.natText file.length := by
    rw [sizeMsg, List.append_assoc, List.takeWhile_append_of_pos digits]
    simp
  have behind :
      ((sizeMsg file ++ file).dropWhile (· ≠ 33)).tail = file := by
    rw [sizeMsg, List.append_assoc, List.dropWhile_append_of_pos digits]
    simp
  unfold clientFile
  rw [before, behind, Json.digitsValue_natText]
  simp

/-- Success means that the client has the file, and all else is reported. -/
structure CompleteOrReported (file : List UInt8)
    (outcome : Int × List UInt8) : Prop where
  complete : outcome.1 = 0 →
    outcome.2 = sizeMsg file ++ file ∧ clientFile outcome.2 = some file
  reported : outcome.1 ≠ 0 → outcome.1 = 1

/-- A call that fails before the first byte of the file. -/
def FailsEarly (calls : Calls) : Prop :=
  calls.dbFd = 0 ∨ calls.fstat < 0 ∨ calls.send < 0

/--
The size is sent as a whole and fits in an `int`, and the calls before the
first that sends nothing offer to send the whole file.
-/
structure Transfers (file : List UInt8) (calls : Calls) : Prop where
  announced : ((sizeMsg file).length : Int) ≤ calls.send
  counted : file.length < 2 ^ 31
  offers : file.length ≤ offered calls.sendfile

theorem databaseSend_of_fails (file : List UInt8) {calls : Calls}
    (fails : FailsEarly calls) : databaseSend file calls = (1, []) := by
  unfold databaseSend
  rcases fails with unopened | unread | unsent
  · rw [if_pos unopened]
  · rw [if_pos unread, ite_self]
  · rw [if_pos unsent, ite_self, ite_self]

theorem databaseSend_of_not_fails (file : List UInt8) {calls : Calls}
    (succeeds : ¬ FailsEarly calls) :
    databaseSend file calls =
      (0, (sizeMsg file).take calls.send.toNat ++
        sendLoop calls.sendfile file (Int32.ofInt file.length).toInt) := by
  rw [FailsEarly, not_or, not_or] at succeeds
  rw [databaseSend, if_neg succeeds.1, if_neg succeeds.2.1,
    if_neg succeeds.2.2]

/-- What is written is complete exactly if the calls transfer everything. -/
theorem written_iff (file : List UInt8) {calls : Calls}
    (succeeds : ¬ FailsEarly calls) :
    (databaseSend file calls).2 = sizeMsg file ++ file ↔
      Transfers file calls := by
  have sent : ¬ calls.send < 0 :=
    fun failed => succeeds (.inr (.inr failed))
  rw [databaseSend_of_not_fails file succeeds]
  by_cases counted : file.length < 2 ^ 31
  · rw [count_of_small counted, sendLoop_exact]
    constructor
    · intro written
      have lengths := congrArg List.length written
      simp only [List.length_append, List.length_take] at lengths
      exact ⟨by omega, counted, by omega⟩
    · intro transfers
      have announced := transfers.announced
      rw [List.take_of_length_le (by omega),
        List.take_of_length_le transfers.offers]
  · refine iff_of_false ?_ fun transfers => counted transfers.counted
    intro written
    have lengths := congrArg List.length written
    simp only [List.length_append, List.length_take] at lengths
    have short := sendLoop_of_large calls.sendfile (not_lt.mp counted)
    omega

/--
A synchronisation is complete or reported exactly if a call fails before the
first byte of the file or the calls transfer everything.
-/
theorem completeOrReported_iff (file : List UInt8) (calls : Calls) :
    CompleteOrReported file (databaseSend file calls) ↔
      FailsEarly calls ∨ Transfers file calls := by
  by_cases fails : FailsEarly calls
  · refine iff_of_true ?_ (.inl fails)
    rw [databaseSend_of_fails file fails]
    exact ⟨nofun, fun _ => rfl⟩
  · have success : (databaseSend file calls).1 = 0 :=
      congrArg Prod.fst (databaseSend_of_not_fails file fails)
    constructor
    · intro sound
      exact .inr ((written_iff file fails).mp (sound.complete success).1)
    · rintro (failed | transfers)
      · exact absurd failed fails
      · have written := (written_iff file fails).mpr transfers
        refine ⟨fun _ => ⟨written, ?_⟩, fun failed => absurd success failed⟩
        rw [written]
        exact clientFile_sizeMsg file

/-- A copy that breaks off behind the size is reported as a success. -/
theorem broken_copy_succeeds :
    ¬ ∀ (file : List UInt8) (calls : Calls),
        CompleteOrReported file (databaseSend file calls) := by
  intro always
  have sound := always [1, 2, 3]
    { dbFd := 3, fstat := 0, send := 2, sendfile := [-1] }
  have written := (sound.complete (by decide)).1
  revert written
  decide

end SmartFridge.DatabaseSend
