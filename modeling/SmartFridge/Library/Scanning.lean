import SmartFridge.Library.BlockMapping

/-!
# Loops over a scanner that does not end

A scanner answers each call with a token or with a failure.  Behind its last
token it fails, or it answers every further call with an empty token.  A loop
over such a scanner returns only if some call makes it return, so that its
results are those which it has after some number of calls.
-/

namespace SmartFridge.Library.Scanning

open SmartFridge.Library.BlockMapping

variable {τ σ κ : Type*}

/-- The answers of a scanner to its first calls; a failure is `none`. -/
def answers (empty : τ) (fails : Bool) : List τ → Nat → List (Option τ)
  | _, 0 => []
  | [], calls + 1 =>
      (if fails then none else some empty) :: answers empty fails [] calls
  | token :: rest, calls + 1 => some token :: answers empty fails rest calls

/-- How a loop was left: its result and its last state, with the tokens that it
took and whether the last call failed. -/
structure Reading (τ σ : Type*) where
  result : Int
  state : σ
  read : List τ
  failed : Bool

/-- The same with one more token in front. -/
def Reading.behind (token : τ) (reading : Reading τ σ) : Reading τ σ :=
  { reading with read := token :: reading.read }

/--
`while (!out && scan(&token))` with 1 as the result of its error exit and 0 as
the result of its end, which a failure of the scanner also leads to.  The result
is `none` as long as the loop calls the scanner again.
-/
def loop (step : τ → σ → Progress σ) :
    List (Option τ) → σ → Option (Reading τ σ)
  | [], _ => none
  | none :: _, state => some { result := 0, state, read := [], failed := true }
  | some token :: rest, state =>
      match step token state with
      | .continues next => (loop step rest next).map (Reading.behind token)
      | .finishes next =>
          some { result := 0, state := next, read := [token], failed := false }
      | .fails next =>
          some { result := 1, state := next, read := [token], failed := false }

/-- Rounds that agree while an invariant holds make the same loop. -/
theorem loop_congr {step other : τ → σ → Progress σ} (Inv : σ → Prop)
    (agree : ∀ token state, Inv state →
      other token state = step token state ∧
        ∀ next, step token state = .continues next → Inv next)
    (scans : List (Option τ)) {state : σ} (initial : Inv state) :
    loop other scans state = loop step scans state := by
  induction scans generalizing state with
  | nil => rfl
  | cons answer rest ih =>
      cases answer with
      | none => rfl
      | some token =>
          rcases agree token state initial with ⟨same, kept⟩
          rw [loop, loop, same]
          cases stepped : step token state with
          | continues next =>
              exact congrArg (Option.map (Reading.behind token))
                (ih (kept next stepped))
          | finishes next => rfl
          | fails next => rfl

/-- The loop is left in this way after some number of calls. -/
def Yields (step : τ → σ → Progress σ) (empty : τ) (fails : Bool)
    (tokens : List τ) (state : σ) (reading : Reading τ σ) : Prop :=
  ∃ calls, loop step (answers empty fails tokens calls) state = some reading

/-- What is true of nothing after no calls has to become true by one more. -/
theorem exists_calls_iff {ρ : Type*} {run : Nat → Option ρ} {result : ρ}
    (start : run 0 = none) :
    (∃ calls, run calls = some result) ↔
      ∃ calls, run (calls + 1) = some result := by
  constructor
  · rintro ⟨calls, returned⟩
    cases calls with
    | zero =>
        rw [start] at returned
        cases returned
    | succ calls => exact ⟨calls, returned⟩
  · rintro ⟨calls, returned⟩
    exact ⟨calls + 1, returned⟩

/-- What returns at a failure and waits for one returns exactly if there is
one. -/
theorem exists_calls_fails_iff {ρ : Type*} {run : Nat → Option ρ}
    {last result : ρ} {fails : Bool} (start : run 0 = none)
    (failing : fails = true → ∀ calls, run (calls + 1) = some last)
    (waiting : fails = false → ∀ calls, run calls = none) :
    (∃ calls, run calls = some result) ↔ fails = true ∧ result = last := by
  cases fails with
  | true =>
      rw [exists_calls_iff start]
      constructor
      · rintro ⟨calls, returned⟩
        rw [failing rfl calls] at returned
        exact ⟨rfl, (Option.some.inj returned).symm⟩
      · rintro ⟨_, rfl⟩
        exact ⟨0, failing rfl 0⟩
  | false =>
      refine iff_of_false ?_ (fun failed => Bool.false_ne_true failed.1)
      rintro ⟨calls, returned⟩
      rw [waiting rfl calls] at returned
      cases returned

section Yield

variable {step : τ → σ → Progress σ} {empty : τ} {fails : Bool}

/-- Behind the last token a loop that ignores empty tokens goes on for ever,
unless the scanner fails. -/
theorem yields_nil (idle : ∀ state, step empty state = .continues state)
    {state : σ} {reading : Reading τ σ} :
    Yields step empty fails [] state reading ↔
      fails = true ∧
        reading = { result := 0, state, read := [], failed := true } := by
  apply exists_calls_fails_iff rfl
  · rintro rfl calls
    rfl
  · rintro rfl calls
    induction calls with
    | zero => rfl
    | succ calls ih =>
        rw [answers, if_neg Bool.false_ne_true, loop, idle]
        dsimp only
        rw [ih, Option.map_none]

theorem yields_cons {token : τ} {rest : List τ} {state : σ}
    {reading : Reading τ σ} :
    Yields step empty fails (token :: rest) state reading ↔
      match step token state with
      | .continues next =>
          ∃ later, Yields step empty fails rest next later ∧
            later.behind token = reading
      | .finishes next =>
          { result := 0, state := next, read := [token], failed := false } =
            reading
      | .fails next =>
          { result := 1, state := next, read := [token], failed := false } =
            reading := by
  rw [Yields, exists_calls_iff rfl]
  simp only [answers, loop]
  cases step token state with
  | continues next =>
      simp only [Option.map_eq_some_iff]
      exact exists_comm.trans
        (exists_congr fun later => exists_and_right)
  | finishes next => simp
  | fails next => simp

end Yield

/-! ## The token at which a loop stops -/

/-- The exit that a token leads to. -/
inductive Exit where
  | finished
  | failed
deriving DecidableEq

/-- The result of an exit. -/
def Exit.result : Exit → Int
  | .finished => 0
  | .failed => 1

/-- The exit of a loop, and the tokens up to the one that led to it. -/
structure Stop (τ : Type*) where
  exit : Exit
  read : List τ
deriving DecidableEq

/-- Where a loop stops among some tokens, if it does. -/
def stop (step : τ → σ → Progress σ) : List τ → σ → Option (Stop τ)
  | [], _ => none
  | token :: rest, state =>
      match step token state with
      | .continues next =>
          (stop step rest next).map fun later =>
            { later with read := token :: later.read }
      | .finishes _ => some { exit := .finished, read := [token] }
      | .fails _ => some { exit := .failed, read := [token] }

/-- The same progress, seen through a function of the state. -/
def viewed (view : σ → κ) : Progress σ → Progress κ
  | .continues state => .continues (view state)
  | .finishes state => .finishes (view state)
  | .fails state => .fails (view state)

@[simp]
theorem viewed_continues (view : σ → κ) (state : σ) :
    viewed view (.continues state) = .continues (view state) :=
  rfl

@[simp]
theorem viewed_finishes (view : σ → κ) (state : σ) :
    viewed view (.finishes state) = .finishes (view state) :=
  rfl

@[simp]
theorem viewed_fails (view : σ → κ) (state : σ) :
    viewed view (.fails state) = .fails (view state) :=
  rfl

/-- A loop stops where the loop stops that sees a part of its state. -/
theorem stop_viewed {step : τ → σ → Progress σ}
    {viewStep : τ → κ → Progress κ} {view : σ → κ}
    (simulates : ∀ token state,
      viewed view (step token state) = viewStep token (view state))
    (tokens : List τ) (state : σ) :
    stop step tokens state = stop viewStep tokens (view state) := by
  induction tokens generalizing state with
  | nil => rfl
  | cons token rest ih =>
      rw [stop, stop, ← simulates]
      cases step token state with
      | continues next =>
          dsimp only [viewed]
          rw [ih]
      | finishes next => rfl
      | fails next => rfl

/-- A property of how a loop is left holds at a stop, or else of a failure
behind the last token, if there is one. -/
def HoldsAt (property : Int → List τ → Bool → Prop) (fails : Bool)
    (tokens : List τ) : Option (Stop τ) → Prop
  | some stopped => property stopped.exit.result stopped.read false
  | none => fails = true → property 0 tokens true

section Stops

variable {step : τ → σ → Progress σ} {empty : τ} {fails : Bool}

/-- What is true of every way in which a loop is left. -/
theorem forall_yields_iff (fails : Bool)
    (idle : ∀ state, step empty state = .continues state)
    (property : Int → List τ → Bool → Prop) (tokens : List τ) (state : σ) :
    (∀ reading, Yields step empty fails tokens state reading →
      property reading.result reading.read reading.failed) ↔
      HoldsAt property fails tokens (stop step tokens state) := by
  induction tokens generalizing state property with
  | nil =>
      simp only [yields_nil idle, stop]
      constructor
      · intro always failed
        exact always _ ⟨failed, rfl⟩
      · rintro behind reading ⟨failed, rfl⟩
        exact behind failed
  | cons token rest ih =>
      simp only [yields_cons, stop]
      cases step token state with
      | continues next =>
          have later := ih
            (fun result read failed => property result (token :: read) failed)
            next
          have shifted : HoldsAt property fails (token :: rest)
              ((stop step rest next).map fun stopped =>
                { stopped with read := token :: stopped.read }) ↔
              HoldsAt
                (fun result read failed => property result (token :: read) failed)
                fails rest (stop step rest next) := by
            cases stop step rest next with
            | none => exact Iff.rfl
            | some stopping => exact Iff.rfl
          refine Iff.trans ?_ (later.trans shifted.symm)
          constructor
          · intro always reading yields
            exact always _ ⟨reading, yields, rfl⟩
          · rintro each reading ⟨last, yields, rfl⟩
            exact each last yields
      | finishes next =>
          constructor
          · intro always
            exact always _ rfl
          · rintro holds reading rfl
            exact holds
      | fails next =>
          constructor
          · intro always
            exact always _ rfl
          · rintro holds reading rfl
            exact holds

/-- A loop returns exactly if it stops among the tokens or the scanner fails. -/
theorem exists_yields_iff
    (idle : ∀ state, step empty state = .continues state) (tokens : List τ)
    (state : σ) :
    (∃ reading, Yields step empty fails tokens state reading) ↔
      (stop step tokens state).isSome = true ∨ fails = true := by
  have never := forall_yields_iff fails idle
    (fun _ _ _ => False) tokens state
  rw [← not_iff_not, not_exists, not_or]
  refine never.trans ?_
  cases stop step tokens state with
  | none => simp [HoldsAt]
  | some stopping => simp [HoldsAt]

end Stops

end SmartFridge.Library.Scanning
