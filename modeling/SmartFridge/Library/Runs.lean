import Mathlib.Data.List.Infix

/-!
# Runs of a partial step function

A system is given by `step : σ → α → Option σ`, where `none` means that the
event cannot happen in that state.  This module supplies runs, their
invariants, and the two ways in which a property is tracked along a run:
through the states the run reaches, and through a condition on each of its
steps.
-/

namespace SmartFridge.Library.Runs

variable {σ α : Type*}

/-- The state reached by a sequence of events, if each of them is possible. -/
def run (step : σ → α → Option σ) : σ → List α → Option σ
  | state, [] => some state
  | state, event :: rest =>
      (step state event).bind fun next => run step next rest

@[simp]
theorem run_nil (step : σ → α → Option σ) (state : σ) :
    run step state [] = some state :=
  rfl

theorem run_cons (step : σ → α → Option σ)
    (state final : σ) (event : α) (rest : List α) :
    run step state (event :: rest) = some final ↔
      ∃ next, step state event = some next ∧
        run step next rest = some final := by
  simp [run, Option.bind_eq_some_iff]

/-- A run can be continued by a run from the state it reached. -/
theorem run_append {step : σ → α → Option σ} {state between final : σ}
    {events later : List α}
    (reached : run step state events = some between)
    (continued : run step between later = some final) :
    run step state (events ++ later) = some final := by
  induction events generalizing state with
  | nil =>
      have same : state = between := by simpa using reached
      exact same ▸ continued
  | cons event rest ih =>
      obtain ⟨next, stepped, restReached⟩ :=
        (run_cons step state between event rest).mp reached
      exact
        (run_cons step state final event (rest ++ later)).mpr
          ⟨next, stepped, ih restReached⟩

/-- A property that every step preserves holds in every state reached. -/
theorem run_invariant {step : σ → α → Option σ} (Inv : σ → Prop)
    (preserved : ∀ state event next,
      Inv state → step state event = some next → Inv next)
    {state final : σ} {events : List α}
    (initial : Inv state)
    (reached : run step state events = some final) :
    Inv final := by
  induction events generalizing state with
  | nil =>
      have equal : state = final := by simpa using reached
      exact equal ▸ initial
  | cons event rest ih =>
      obtain ⟨next, stepped, continued⟩ :=
        (run_cons step state final event rest).mp reached
      exact ih (preserved state event next initial stepped) continued

/-! ## Properties along a run -/

/-- Every state that the run passes through satisfies the property. -/
def StatesSatisfy (step : σ → α → Option σ) (property : σ → Prop) :
    σ → List α → Prop
  | state, [] => property state
  | state, event :: rest =>
      property state ∧
        ∀ next, step state event = some next →
          StatesSatisfy step property next rest

/-- Every step that the run takes meets a condition on its source state. -/
def StepsMeet (step : σ → α → Option σ) (condition : σ → α → Prop) :
    σ → List α → Prop
  | _, [] => True
  | state, event :: rest =>
      ∀ next, step state event = some next →
        condition state event ∧ StepsMeet step condition next rest

/-- Tracking a property along a run is asking for it after every prefix. -/
theorem statesSatisfy_iff_past (step : σ → α → Option σ)
    (property : σ → Prop) (state : σ) (events : List α) :
    StatesSatisfy step property state events ↔
      ∀ past, past <+: events →
        ∀ reached, run step state past = some reached →
          property reached := by
  induction events generalizing state with
  | nil =>
      simp [StatesSatisfy]
  | cons event rest ih =>
      constructor
      · rintro ⟨here, later⟩ past isPrefix reached ran
        cases past with
        | nil =>
            have equal : state = reached := by simpa using ran
            exact equal ▸ here
        | cons head tail =>
            obtain ⟨rfl, tailPrefix⟩ := List.cons_prefix_cons.mp isPrefix
            obtain ⟨next, stepped, continued⟩ :=
              (run_cons step state reached head tail).mp ran
            exact (ih next).mp (later next stepped)
              tail tailPrefix reached continued
      · intro everywhere
        refine ⟨everywhere [] List.nil_prefix state rfl, ?_⟩
        intro next stepped
        refine (ih next).mpr ?_
        intro past isPrefix reached ran
        exact everywhere (event :: past)
          (List.cons_prefix_cons.mpr ⟨rfl, isPrefix⟩) reached
          ((run_cons step state reached event past).mpr
            ⟨next, stepped, ran⟩)

/--
If each step keeps an invariant and, under it, preserves the property exactly
when the condition holds, then a run keeps the property exactly when all its
steps meet the condition.  The invariant may speak of the events to come.
-/
theorem statesSatisfy_iff_stepsMeet {step : σ → α → Option σ}
    (Inv : σ → List α → Prop) {property : σ → Prop}
    {condition : σ → α → Prop}
    (preserved : ∀ state event rest next,
      Inv state (event :: rest) → step state event = some next →
        Inv next rest)
    (exact_step : ∀ state event rest next,
      Inv state (event :: rest) → property state →
        step state event = some next →
          (property next ↔ condition state event))
    {state : σ} (events : List α)
    (initial : Inv state events) (holds : property state) :
    StatesSatisfy step property state events ↔
      StepsMeet step condition state events := by
  induction events generalizing state with
  | nil =>
      exact ⟨fun _ => trivial, fun _ => holds⟩
  | cons event rest ih =>
      constructor
      · rintro ⟨_, later⟩ next stepped
        have nextHolds : property next := by
          have satisfied := later next stepped
          cases rest with
          | nil => exact satisfied
          | cons head tail => exact satisfied.1
        have nextInv := preserved state event rest next initial stepped
        exact
          ⟨(exact_step state event rest next initial holds stepped).mp
              nextHolds,
            (ih nextInv nextHolds).mp (later next stepped)⟩
      · intro meets
        refine ⟨holds, ?_⟩
        intro next stepped
        obtain ⟨met, later⟩ := meets next stepped
        exact
          (ih (preserved state event rest next initial stepped)
            ((exact_step state event rest next initial holds stepped).mpr
              met)).mpr later

/-- If the condition is enough for one step, it is enough for a run. -/
theorem statesSatisfy_of_stepsMeet {step : σ → α → Option σ}
    {property : σ → Prop} {condition : σ → α → Prop}
    (preserved : ∀ state event next,
      property state → condition state event →
        step state event = some next → property next)
    {state : σ} (events : List α)
    (holds : property state)
    (meets : StepsMeet step condition state events) :
    StatesSatisfy step property state events := by
  induction events generalizing state with
  | nil =>
      exact holds
  | cons event rest ih =>
      refine ⟨holds, ?_⟩
      intro next stepped
      obtain ⟨met, later⟩ := meets next stepped
      exact ih (preserved state event next holds met stepped) later

/-- A property that is never regained holds along a run if it does at its end. -/
theorem statesSatisfy_iff_final {step : σ → α → Option σ}
    (Inv : σ → Prop) {property : σ → Prop}
    (preserved : ∀ state event next,
      Inv state → step state event = some next → Inv next)
    (backwards : ∀ state event next,
      Inv state → step state event = some next →
        property next → property state)
    {state final : σ} {events : List α} (initial : Inv state)
    (reached : run step state events = some final) :
    StatesSatisfy step property state events ↔ property final := by
  induction events generalizing state with
  | nil =>
      have equal : state = final := by simpa using reached
      exact equal ▸ Iff.rfl
  | cons event rest ih =>
      rcases (run_cons step state final event rest).mp reached with
        ⟨next, stepped, continued⟩
      have later := ih (preserved state event next initial stepped) continued
      constructor
      · rintro ⟨_, satisfied⟩
        exact later.mp (satisfied next stepped)
      · intro holds
        have nextSatisfies := later.mpr holds
        have nextHolds : property next := by
          cases rest with
          | nil => exact nextSatisfies
          | cons head tail => exact nextSatisfies.1
        refine ⟨backwards state event next initial stepped nextHolds, ?_⟩
        intro other otherStepped
        cases stepped.symm.trans otherStepped
        exact nextSatisfies

theorem StatesSatisfy.mono {step : σ → α → Option σ}
    {property weaker : σ → Prop} {state : σ} {events : List α}
    (implies : ∀ reached, property reached → weaker reached)
    (satisfied : StatesSatisfy step property state events) :
    StatesSatisfy step weaker state events := by
  rw [statesSatisfy_iff_past] at satisfied ⊢
  intro past isPrefix reached ran
  exact implies reached (satisfied past isPrefix reached ran)

theorem StepsMeet.mono {step : σ → α → Option σ}
    {condition weaker : σ → α → Prop} {state : σ} {events : List α}
    (meets : StepsMeet step condition state events)
    (implies : ∀ reached event,
      condition reached event → weaker reached event) :
    StepsMeet step weaker state events := by
  induction events generalizing state with
  | nil => trivial
  | cons event rest ih =>
      intro next stepped
      rcases meets next stepped with ⟨met, later⟩
      exact ⟨implies state event met, ih later⟩

/-! ## Measures -/

section Measures

variable {step : σ → α → Option σ} (Inv : σ → Prop) (measure : σ → Nat)
  (idle : α → Bool)

/--
Where each event takes from a measure, except for the idle ones, which do not
add to it, a run is no longer than the measure and its idle events allow.
-/
theorem length_le_of_decreases
    (preserved : ∀ state event next,
      Inv state → step state event = some next → Inv next)
    (decreases : ∀ state event next,
      Inv state → step state event = some next → idle event = false →
        measure next < measure state)
    (keeps : ∀ state event next,
      Inv state → step state event = some next → idle event = true →
        measure next ≤ measure state)
    {state final : σ} {events : List α} (initial : Inv state)
    (reached : run step state events = some final) :
    events.length + measure final ≤ measure state + events.countP idle := by
  induction events generalizing state with
  | nil =>
      have same : state = final := by simpa using reached
      simp [same]
  | cons event rest ih =>
      obtain ⟨next, stepped, continued⟩ :=
        (run_cons step state final event rest).mp reached
      have later := ih (preserved state event next initial stepped) continued
      rw [List.length_cons, List.countP_cons]
      cases isIdle : idle event with
      | false =>
          have taken := decreases state event next initial stepped isIdle
          simp only [Bool.false_eq_true, if_false]
          omega
      | true =>
          have kept := keeps state event next initial stepped isIdle
          simp only [if_true]
          omega

/--
If wherever the goal is not reached some event other than an idle one can
happen, the goal can be reached by such events, by induction on the measure.
-/
theorem exists_run_of_decreases (goal : σ → Prop)
    (preserved : ∀ state event next,
      Inv state → step state event = some next → Inv next)
    (decreases : ∀ state event next,
      Inv state → step state event = some next → idle event = false →
        measure next < measure state)
    (possible : ∀ state, Inv state → ¬ goal state →
      ∃ event next, idle event = false ∧ step state event = some next)
    {state : σ} (initial : Inv state) :
    ∃ events final, events.countP idle = 0 ∧
      run step state events = some final ∧ goal final := by
  induction bound : measure state using Nat.strong_induction_on
    generalizing state with
  | _ amount ih =>
      by_cases reached : goal state
      · exact ⟨[], state, rfl, rfl, reached⟩
      · obtain ⟨event, next, busy, stepped⟩ := possible state initial reached
        have taken := decreases state event next initial stepped busy
        obtain ⟨events, final, noneIdle, continued, atGoal⟩ :=
          ih (measure next) (bound ▸ taken)
            (preserved state event next initial stepped) rfl
        refine ⟨event :: events, final, ?_, ?_, atGoal⟩
        · simp [noneIdle, busy]
        · exact
            (run_cons step state final event events).mpr
              ⟨next, stepped, continued⟩

end Measures

end SmartFridge.Library.Runs
