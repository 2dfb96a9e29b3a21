import SmartFridge.Library.Runs
import SmartFridge.SocketMode

/-!
# Sending a product

`sf_send_product` formats the header of the daemon and a product into a buffer
of fixed size and sends what the buffer holds with one call.  It looks at the
result of `send` for an error only, and `sf_storer` frees a product once it is
told that the product was sent.
-/

namespace SmartFridge.Sending

open SmartFridge.Library
open SmartFridge.SocketMode (maxLogsize)

/-- What the system calls of `sf_send_product` return. -/
structure Calls where
  sock : Int
  connect : Int
  send : Int

/-- What the storer and `sf_send_product` log. -/
inductive LogEntry where
  | initStorer
  | storerEnd
  | connectServerError
  | productSendError
deriving DecidableEq

/-- What a call of `sf_send_product` does. -/
structure Attempt where
  retval : Int
  handed : List UInt8
  log : List LogEntry
deriving DecidableEq

/--
`sf_send_product`.  The connection is handed as much of the message as `send`
reports.
-/
def sfSendProduct (internalHeader data : CString) (calls : Calls) : Attempt :=
  if calls.sock = -1 then
    { retval := 1, handed := [], log := [] }
  else if calls.connect < 0 then
    { retval := 1, handed := [], log := [.connectServerError] }
  else
    let message := CString.snprintf maxLogsize (internalHeader ++ data)
    let handed := message.bytes.take calls.send.toNat
    if calls.send < 0 then
      { retval := 1, handed, log := [] }
    else
      { retval := 0, handed, log := [] }

/-! ## The storer -/

/-- A product that the storer has freed, and what was handed over before. -/
structure Freed where
  data : CString
  handed : List UInt8
deriving DecidableEq

/-- The storer between two turns of its loop. -/
structure Storer where
  data : Option CString
  freed : List Freed
  ended : Bool
  log : List LogEntry

/-- The storer before its first turn. -/
def Storer.start : Storer :=
  { data := none, freed := [], ended := false, log := [.initStorer] }

/-- What a turn of the storer finds, if it comes to ask for it. -/
structure Round where
  queued : Option CString
  executionEnds : Bool
  calls : Calls

/-- The product of a turn: the one that could not be sent before, or a new one. -/
def Storer.product (storer : Storer) (round : Round) : Option CString :=
  storer.data.or round.queued

/-- A turn of the loop of `sf_storer`, which is over after a `break`. -/
def sfStorer (internalHeader : CString) (storer : Storer) (round : Round) :
    Option Storer :=
  if storer.ended then
    none
  else
    match storer.product round with
    | none =>
        if round.executionEnds then
          some { storer with ended := true, log := storer.log ++ [.storerEnd] }
        else
          some storer
    | some data =>
        let attempt := sfSendProduct internalHeader data round.calls
        if attempt.retval ≠ 0 then
          some { storer with
            data := some data
            log := storer.log ++ attempt.log ++ [.productSendError] }
        else
          some { storer with
            data := none
            freed := storer.freed ++ [⟨data, attempt.handed⟩]
            log := storer.log ++ attempt.log }

/-! ## Success means that everything was handed over -/

/-- A call that says that it sent the product did so. -/
def HonestSuccess (internalHeader data : CString) (attempt : Attempt) : Prop :=
  attempt.retval = 0 → attempt.handed = internalHeader.bytes ++ data.bytes

/-- A call that fails and says so. -/
def FailsOpenly (calls : Calls) : Prop :=
  calls.sock = -1 ∨ calls.connect < 0 ∨ calls.send < 0

/-- The message fits into the buffer, and `send` takes all of it. -/
def FitsAndIsTaken (internalHeader data : CString) (calls : Calls) : Prop :=
  (internalHeader ++ data).bytes.length < maxLogsize ∧
    ((internalHeader ++ data).bytes.length : Int) ≤ calls.send

/-- A call fails openly, or its message fits and is taken. -/
def SendsWell (internalHeader data : CString) (calls : Calls) : Prop :=
  FailsOpenly calls ∨ FitsAndIsTaken internalHeader data calls

section Attempts

variable {internalHeader data : CString} {calls : Calls}

theorem retval_of_failsOpenly (fails : FailsOpenly calls) :
    (sfSendProduct internalHeader data calls).retval = 1 := by
  unfold sfSendProduct
  rcases fails with closed | unconnected | unsent
  · rw [if_pos closed]
  · rw [if_pos unconnected]
    split <;> rfl
  · dsimp only
    rw [if_pos unsent]
    split
    · rfl
    · split <;> rfl

theorem sfSendProduct_of_not_failsOpenly (succeeds : ¬ FailsOpenly calls) :
    sfSendProduct internalHeader data calls =
      { retval := 0
        handed := ((internalHeader ++ data).bytes.take (maxLogsize - 1)).take
          calls.send.toNat
        log := [] } := by
  rw [FailsOpenly, not_or, not_or] at succeeds
  rcases succeeds with ⟨opened, connected, sent⟩
  rw [sfSendProduct, if_neg opened, if_neg connected, if_neg sent]
  rfl

/-- What the buffer and `send` leave of a message is the message. -/
theorem take_eq_iff {message : List UInt8} (sent : ¬ calls.send < 0) :
    (message.take (maxLogsize - 1)).take calls.send.toNat = message ↔
      message.length < maxLogsize ∧ (message.length : Int) ≤ calls.send := by
  rw [List.take_take, List.take_eq_self_iff]
  have size : maxLogsize = 65536 := rfl
  omega

theorem honestSuccess_iff :
    HonestSuccess internalHeader data
        (sfSendProduct internalHeader data calls) ↔
      SendsWell internalHeader data calls := by
  by_cases fails : FailsOpenly calls
  · refine iff_of_true ?_ (.inl fails)
    intro success
    rw [retval_of_failsOpenly fails] at success
    cases success
  · have sent : ¬ calls.send < 0 := fun failed => fails (.inr (.inr failed))
    rw [SendsWell, or_iff_right fails, FitsAndIsTaken, ← take_eq_iff sent,
      HonestSuccess, sfSendProduct_of_not_failsOpenly fails]
    exact ⟨fun honest => honest rfl, fun whole _ => whole⟩

end Attempts

/-! ## Runs of the storer -/

/-- Whatever was freed had been handed over, behind the header. -/
def FreedWhole (internalHeader : CString) (storer : Storer) : Prop :=
  ∀ freed ∈ storer.freed,
    freed.handed = internalHeader.bytes ++ freed.data.bytes

/-- If a turn sends a product, it sends it well. -/
def TurnSendsWell (internalHeader : CString) (storer : Storer)
    (round : Round) : Prop :=
  ∀ data, storer.product round = some data →
    SendsWell internalHeader data round.calls

/-- A turn keeps the promise about the freed products if it sends well. -/
theorem freedWhole_step {internalHeader : CString} {storer next : Storer}
    {round : Round} (kept : FreedWhole internalHeader storer)
    (stepped : sfStorer internalHeader storer round = some next) :
    FreedWhole internalHeader next ↔
      TurnSendsWell internalHeader storer round := by
  unfold sfStorer at stepped
  split at stepped
  · cases stepped
  · cases product : storer.product round with
    | none =>
        have same : next.freed = storer.freed := by
          simp only [product] at stepped
          split at stepped
          · cases stepped
            rfl
          · cases stepped
            rfl
        refine iff_of_true ?_ ?_
        · rwa [FreedWhole, same]
        · intro data taken
          rw [product] at taken
          cases taken
    | some data =>
        have onlyThis : TurnSendsWell internalHeader storer round ↔
            HonestSuccess internalHeader data
              (sfSendProduct internalHeader data round.calls) := by
          simp [TurnSendsWell, product, honestSuccess_iff]
        rw [onlyThis]
        simp only [product] at stepped
        split at stepped
        · next failed =>
            cases stepped
            exact iff_of_true kept fun success => absurd success failed
        · next succeeded =>
            cases stepped
            have success := not_not.mp succeeded
            rw [FreedWhole, List.forall_mem_append, List.forall_mem_singleton,
              HonestSuccess]
            exact ⟨fun whole _ => whole.2, fun honest => ⟨kept, honest success⟩⟩

/--
For every header: a call that reports success handed over the header and the
product exactly if the call fails openly or the message fits and is taken, and
along a run of the storer every product was handed over before it was freed
exactly if every turn that sends a product sends it so.
-/
theorem sent_whole_iff (internalHeader : CString) :
    (∀ (data : CString) (calls : Calls),
      HonestSuccess internalHeader data
          (sfSendProduct internalHeader data calls) ↔
        SendsWell internalHeader data calls) ∧
      ∀ rounds : List Round,
        Runs.StatesSatisfy (sfStorer internalHeader)
            (FreedWhole internalHeader) Storer.start rounds ↔
          Runs.StepsMeet (sfStorer internalHeader)
            (TurnSendsWell internalHeader) Storer.start rounds := by
  refine ⟨fun _ _ => honestSuccess_iff, fun rounds => ?_⟩
  apply Runs.statesSatisfy_iff_stepsMeet (fun _ _ => True)
  · exact fun _ _ _ _ _ _ => trivial
  · exact fun _ _ _ _ _ kept stepped => freedWhole_step kept stepped
  · trivial
  · exact List.forall_mem_nil _

/-- A message of which one byte was sent passes for sent. -/
theorem short_send_succeeds :
    ¬ ((∀ (internalHeader data : CString) (calls : Calls),
        HonestSuccess internalHeader data
          (sfSendProduct internalHeader data calls)) ∧
      ∀ (internalHeader : CString) (rounds : List Round),
        Runs.StatesSatisfy (sfStorer internalHeader)
          (FreedWhole internalHeader) Storer.start rounds) := by
  rintro ⟨honest, _⟩
  have whole := honest (.lit "!#+") (.lit "\x7b\x7d")
    { sock := 3, connect := 0, send := 1 } (by decide)
  revert whole
  decide

end SmartFridge.Sending
