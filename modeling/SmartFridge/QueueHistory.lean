import SmartFridge.QueueRing

/-!
# Histories of the queue

Sequences of `sf_queue_add` and `sf_queue_get` calls on a queue that
`sf_queue_set` has just prepared, with the values that were accepted and the
values that were handed out.  The first part transports the refinement of one
call to whole histories; the second part settles in which histories the values
leave the queue in the order in which they entered it.
-/

namespace SmartFridge.QueueHistory

open SmartFridge.Library
open SmartFridge.QueueRing
open scoped List

variable {α : Type}

/-- One call on the queue; the values added are never `NULL`. -/
inductive Call (α : Type) where
  | add (value : α)
  | get

/-- A queue together with what went in and what came out so far. -/
structure History (α : Type) where
  queue : Queue α
  accepted : List α
  returned : List α

/-- The history after one more call. -/
def History.after (history : History α) : Call α → History α
  | .add value =>
      let (result, queue) := sfQueueAdd history.queue (some value)
      { queue
        accepted :=
          if result = 0 then history.accepted ++ [value]
          else history.accepted
        returned := history.returned }
  | .get =>
      let (value, queue) := sfQueueGet history.queue
      { queue
        accepted := history.accepted
        returned := history.returned ++ value.toList }

/-- The history that begins with `sf_queue_set`. -/
def start (q : Queue α) (size : Int) : History α :=
  { queue := (sfQueueSet q size).2, accepted := [], returned := [] }

/-- The same transition as a step function of the run library. -/
def step (history : History α) (call : Call α) : Option (History α) :=
  some (history.after call)

theorem run_step (history : History α) (calls : List (Call α)) :
    Runs.run step history calls =
      some (calls.foldl History.after history) := by
  induction calls generalizing history with
  | nil => rfl
  | cons call rest ih => exact ih (history.after call)

/--
The queue of the history represents `values`: they are the accepted values
that have not been returned, in the order of their acceptance.
-/
structure Holds (size : Nat) (history : History α) (values : List α) :
    Prop where
  represents : Represents history.queue values
  size_eq : history.queue.size = size
  conserved : history.accepted.Perm (history.returned ++ values)
  ordered : values.Sublist history.accepted

theorem holds_start (q : Queue α) {size : Int}
    (least : minQueueSize ≤ size) (most : size ≤ maxQueueSize) :
    Holds size.toNat (start q size) [] := by
  obtain ⟨_, sizeEq, represents⟩ := set_represents q least most
  exact
    { represents
      size_eq := sizeEq
      conserved := List.Perm.refl _
      ordered := List.Sublist.refl _ }

theorem Holds.accepted_add {size : Nat} {history : History α}
    {values : List α} (holds : Holds size history values) (value : α) :
    (history.after (.add value)).accepted =
      if values.length < size then history.accepted ++ [value]
      else history.accepted := by
  have code := (add_refines holds.represents value).1
  rw [holds.size_eq] at code
  change
    (if (sfQueueAdd history.queue (some value)).1 = 0 then
        history.accepted ++ [value]
      else history.accepted) = _
  by_cases free : values.length < size
  · simp [code, storeAdd, free]
  · simp [code, storeAdd, free]

theorem Holds.returned_get {size : Nat} {history : History α}
    {values : List α} (holds : Holds size history values) :
    (history.after .get).returned =
      history.returned ++ (storeGet size values).1.toList := by
  have value := (get_refines holds.represents).1
  rw [holds.size_eq] at value
  change history.returned ++ (sfQueueGet history.queue).1.toList = _
  rw [value]

/-- An addition keeps the history conserved. -/
theorem Holds.add {size : Nat} {history : History α} {values : List α}
    (holds : Holds size history values) (value : α) :
    Holds size (history.after (.add value))
      (storeAdd size values value).2 := by
  obtain ⟨_, sizeEq, represents⟩ := add_refines holds.represents value
  rw [holds.size_eq] at sizeEq represents
  refine ⟨represents, sizeEq, ?_, ?_⟩
  · rw [holds.accepted_add value, storeAdd]
    split_ifs
    · change _ ~ history.returned ++ (values ++ [value])
      rw [← List.append_assoc]
      exact holds.conserved.append_right [value]
    · exact holds.conserved
  · rw [holds.accepted_add value, storeAdd]
    split_ifs
    · exact holds.ordered.append (List.Sublist.refl [value])
    · exact holds.ordered

/-- What the store hands out and what it keeps is what it held. -/
theorem storeGet_perm (size : Nat) (values : List α) :
    values.Perm
      ((storeGet size values).1.toList ++ (storeGet size values).2) := by
  rw [storeGet]
  split_ifs with full
  · cases values <;> simp
  · rcases List.eq_nil_or_concat' values with rfl | ⟨front, value, rfl⟩
    · simp
    · simp

theorem storeGet_sublist (size : Nat) (values : List α) :
    (storeGet size values).2.Sublist values := by
  rw [storeGet]
  split_ifs
  · exact List.tail_sublist values
  · exact List.dropLast_sublist values

/-- A removal keeps the history conserved. -/
theorem Holds.get {size : Nat} {history : History α} {values : List α}
    (holds : Holds size history values) :
    Holds size (history.after .get) (storeGet size values).2 := by
  obtain ⟨_, sizeEq, represents⟩ := get_refines holds.represents
  rw [holds.size_eq] at sizeEq represents
  refine ⟨represents, sizeEq, ?_, ?_⟩
  · rw [holds.returned_get, List.append_assoc]
    exact holds.conserved.trans
      ((storeGet_perm size values).append_left history.returned)
  · exact (storeGet_sublist size values).trans holds.ordered

/-- Every history keeps a represented list. -/
theorem holds_foldl (q : Queue α) {size : Int}
    (least : minQueueSize ≤ size) (most : size ≤ maxQueueSize)
    (calls : List (Call α)) :
    ∃ values,
      Holds size.toNat (calls.foldl History.after (start q size))
        values := by
  refine
    Runs.run_invariant
      (fun history => ∃ values, Holds size.toNat history values)
      ?_ ⟨[], holds_start q least most⟩ (run_step (start q size) calls)
  rintro history call next ⟨values, holds⟩ stepped
  obtain rfl : history.after call = next := by simpa [step] using stepped
  cases call with
  | add value => exact ⟨_, holds.add value⟩
  | get => exact ⟨_, holds.get⟩

/-! ## The contract of the two operations -/

/-- What an addition does to a queue that represents `values`. -/
structure AddContract (q : Queue α) (values : List α) : Prop where
  accepts_iff :
    ∀ value, (sfQueueAdd q (some value)).1 = 0 ↔ values.length < q.size
  appends :
    ∀ value, values.length < q.size →
      (sfQueueAdd q (some value)).1 = 0 ∧
        Represents (sfQueueAdd q (some value)).2 (values ++ [value])
  refuses :
    ∀ value, ¬ values.length < q.size →
      sfQueueAdd q (some value) = (1, q)

/-- What a removal does to a queue that represents `values`. -/
structure GetContract (q : Queue α) (values : List α) : Prop where
  null_iff : (sfQueueGet q).1 = none ↔ values = []
  unchanged_iff : (sfQueueGet q).2 = q ↔ values = []
  oldest :
    values.length = q.size →
      ∃ value rest, values = value :: rest ∧
        (sfQueueGet q).1 = some value ∧
          Represents (sfQueueGet q).2 rest
  newest :
    0 < values.length → values.length < q.size →
      ∃ front value, values = front ++ [value] ∧
        (sfQueueGet q).1 = some value ∧
          Represents (sfQueueGet q).2 front

theorem addContract {q : Queue α} {values : List α}
    (represents : Represents q values) : AddContract q values where
  accepts_iff value := by
    by_cases free : values.length < q.size
    · rw [add_eq_stored represents value free]
      simp [free]
    · rw [add_eq_refused represents _ free]
      simp [free]
  appends value free := by
    rw [add_eq_stored represents value free]
    exact ⟨rfl, stored_represents represents value free⟩
  refuses value full := add_eq_refused represents _ full

theorem getContract {q : Queue α} {values : List α}
    (represents : Represents q values) : GetContract q values := by
  have inside := represents.writeP_lt
  have fits := represents.fits
  have released : ∀ p, values ≠ [] → q.released p ≠ q := by
    intro p stored same
    have counts : q.current - 1 = q.current :=
      congrArg Queue.current same
    have positive : 0 < values.length := List.length_pos_iff.mpr stored
    rw [represents.current_eq] at counts
    omega
  by_cases full : values.length = q.size
  · cases values with
    | nil =>
        rw [List.length_nil] at full
        omega
    | cons value rest =>
        have result := get_eq_oldest represents full
        exact
          { null_iff := by simp [result]
            unchanged_iff := by
              rw [result]
              simpa using released q.writeP (by simp)
            oldest := fun _ =>
              ⟨value, rest, rfl, by rw [result], by
                rw [result]
                exact released_full_represents represents full⟩
            newest := by
              intro _ free
              omega }
  · rcases List.eq_nil_or_concat' values with rfl | ⟨front, value, rfl⟩
    · have result := get_eq_empty represents
      exact
        { null_iff := by simp [result]
          unchanged_iff := by simp [result]
          oldest := fun isFull => absurd isFull full
          newest := by
            intro positive _
            simp at positive }
    · have free : (front ++ [value]).length < q.size := by omega
      have result := get_eq_newest represents free
      exact
        { null_iff := by simp [result]
          unchanged_iff := by
            rw [result]
            simpa using released _ (by simp)
          oldest := fun isFull => absurd isFull full
          newest := fun _ _ =>
            ⟨front, value, rfl, by rw [result], by
              rw [result]
              exact released_partial_represents represents⟩ }

/--
After every sequence of calls the ring represents a list of at most `size`
values, oldest first, on which both operations follow their contract.  What was
accepted is exactly what was returned together with what is still stored.
-/
theorem queue_refines_list (q : Queue α) (size : Int)
    (least : minQueueSize ≤ size) (most : size ≤ maxQueueSize)
    (calls : List (Call α)) :
    let history := calls.foldl History.after (start q size)
    ∃ values,
      Represents history.queue values ∧
        history.queue.size = size.toNat ∧
        history.queue.dataQueue.countP Option.isSome = values.length ∧
        history.accepted.Perm (history.returned ++ values) ∧
        AddContract history.queue values ∧
        GetContract history.queue values := by
  intro history
  obtain ⟨values, holds⟩ := holds_foldl q least most calls
  exact
    ⟨values, holds.represents, holds.size_eq, holds.represents.occupied,
      holds.conserved, addContract holds.represents,
      getContract holds.represents⟩

/-- A ring of five slots after three additions and one removal. -/
theorem queue_refines_list_five :
    let history :=
      [Call.add 7, .add 8, .add 9, .get].foldl History.after
        (start (⟨[], 0, 0, 0⟩ : Queue Nat) 5)
    ∃ values,
      Represents history.queue values ∧
        history.queue.size = (5 : Int).toNat ∧
        history.queue.dataQueue.countP Option.isSome = values.length ∧
        history.accepted.Perm (history.returned ++ values) ∧
        AddContract history.queue values ∧
        GetContract history.queue values :=
  queue_refines_list ⟨[], 0, 0, 0⟩ 5 (by decide) (by decide)
    [.add 7, .add 8, .add 9, .get]

/-! ## The order in which values leave -/

/-- The values come out in the order in which they were accepted. -/
def FirstInFirstOut (history : History α) : Prop :=
  history.returned <+: history.accepted

/--
The call does not take a newer value before an older one: a removal meets a
full ring or at most one stored value.
-/
def TakesOldest (history : History α) : Call α → Prop
  | .add _ => True
  | .get =>
      history.queue.current ≤ 1 ∨
        history.queue.current = history.queue.size

/-- The values that the calls offer to the queue. -/
def offered : List (Call α) → List α
  | [] => []
  | .add value :: rest => value :: offered rest
  | .get :: rest => offered rest

/-- In order so far: the accepted values are the returned ones, then the rest. -/
def InOrder (size : Nat) (history : History α) : Prop :=
  ∃ values, Holds size history values ∧
    history.accepted = history.returned ++ values

theorem storeGet_oldest {size : Nat} {values : List α}
    (few : values.length ≤ 1 ∨ values.length = size) :
    values =
      (storeGet size values).1.toList ++ (storeGet size values).2 := by
  rw [storeGet]
  split_ifs with full
  · cases values <;> rfl
  · have short := few.resolve_right full
    rcases values with _ | ⟨oldest, _ | ⟨newer, others⟩⟩
    · rfl
    · rfl
    · simp at short

theorem inOrder_after {size : Nat} {history : History α} {call : Call α}
    (inOrder : InOrder size history) (met : TakesOldest history call) :
    InOrder size (history.after call) := by
  obtain ⟨values, holds, ordered⟩ := inOrder
  cases call with
  | add value =>
      refine ⟨_, holds.add value, ?_⟩
      rw [holds.accepted_add value, storeAdd]
      split_ifs
      · rw [ordered, List.append_assoc]
        rfl
      · exact ordered
  | get =>
      refine ⟨_, holds.get, ?_⟩
      have few : values.length ≤ 1 ∨ values.length = size := by
        have taken : history.queue.current ≤ 1 ∨
            history.queue.current = history.queue.size := met
        rwa [holds.represents.current_eq, holds.size_eq] at taken
      rw [holds.returned_get, List.append_assoc, ← storeGet_oldest few]
      exact ordered

/-- Among distinct values an ordered output leaves the rest in order. -/
theorem inOrder_of_fifo {size : Nat} {history : History α}
    {values : List α} (holds : Holds size history values)
    (distinct : history.accepted.Nodup)
    (fifo : FirstInFirstOut history) :
    history.accepted = history.returned ++ values := by
  obtain ⟨rest, split⟩ := fifo
  have permuted : rest.Perm values := by
    have conserved := holds.conserved
    rw [← split] at conserved
    exact (List.perm_append_left_iff history.returned).mp conserved
  have ordered := holds.ordered
  rw [← split] at ordered distinct
  obtain ⟨early, late, rfl, earlySub, lateSub⟩ :=
    List.sublist_append_iff.mp ordered
  have noneEarly : early = [] := by
    rw [List.eq_nil_iff_forall_not_mem]
    intro value member
    have inRest : value ∈ rest :=
      permuted.mem_iff.mpr (List.mem_append_left late member)
    exact
      (List.nodup_append.mp distinct).2.2 value (earlySub.subset member)
        value inRest rfl
  subst noneEarly
  have lateEq : late = rest :=
    lateSub.eq_of_length permuted.length_eq.symm
  rw [← split, List.nil_append, lateEq]

/-- Taking the newest of two distinct values is out of order. -/
theorem not_fifo_of_newest {size : Nat} {history : History α}
    {values : List α} (holds : Holds size history values)
    (distinct : history.accepted.Nodup)
    (ordered : history.accepted = history.returned ++ values)
    (many : 1 < values.length) (notFull : values.length ≠ size) :
    ¬ FirstInFirstOut (history.after .get) := by
  intro fifo
  rcases List.eq_nil_or_concat' values with rfl | ⟨front, last, rfl⟩
  · simp at many
  cases front with
  | nil => simp at many
  | cons first middle =>
      have returnedEq :
          (history.after .get).returned = history.returned ++ [last] := by
        rw [holds.returned_get, storeGet, if_neg notFull,
          List.getLast?_concat]
        rfl
      have isPrefix :
          history.returned ++ [last] <+: history.accepted := by
        rw [← returnedEq]
        exact fifo
      rw [ordered, List.prefix_append_right_inj] at isPrefix
      have sameEnds : last = first :=
        (List.cons_prefix_cons.mp isPrefix).1
      rw [ordered] at distinct
      have stored := (List.nodup_append.mp distinct).2.1
      simp [sameEnds] at stored

theorem nodup_after {history : History α} {call : Call α}
    {rest : List (Call α)} {size : Nat} {values : List α}
    (holds : Holds size history values)
    (distinct : (history.accepted ++ offered (call :: rest)).Nodup) :
    ((history.after call).accepted ++ offered rest).Nodup := by
  cases call with
  | get => exact distinct
  | add value =>
      rw [holds.accepted_add value]
      split_ifs
      · simpa [offered] using distinct
      · exact distinct.sublist
          ((List.sublist_cons_self value (offered rest)).append_left _)

theorem fifo_step_iff {size : Nat} {history : History α}
    {call : Call α} {values : List α}
    (holds : Holds size history values)
    (distinct : history.accepted.Nodup)
    (fifo : FirstInFirstOut history) :
    FirstInFirstOut (history.after call) ↔ TakesOldest history call := by
  have ordered := inOrder_of_fifo holds distinct fifo
  constructor
  · intro nextFifo
    cases call with
    | add value => trivial
    | get =>
        by_contra newest
        have taken : ¬ (history.queue.current ≤ 1 ∨
            history.queue.current = history.queue.size) := newest
        rw [holds.represents.current_eq, holds.size_eq] at taken
        push Not at taken
        exact
          not_fifo_of_newest holds distinct ordered taken.1 taken.2 nextFifo
  · intro met
    have inOrder : InOrder size history := ⟨values, holds, ordered⟩
    rcases inOrder_after inOrder met with ⟨_, _, nextOrdered⟩
    exact ⟨_, nextOrdered.symm⟩

/-- Two scans in a ring of five slots leave it newest first. -/
theorem fifo_fails_for_two_scans :
    ¬ FirstInFirstOut
      ([Call.add 1, .add 2, .get].foldl History.after
        (start (⟨[], 0, 0, 0⟩ : Queue Nat) 5)) := by
  unfold FirstInFirstOut
  decide

/--
A history in which every removal meets a full ring or at most one stored value
hands the values out in the order of their acceptance.  For distinct values no
other history does.
-/
theorem fifo_iff_takesOldest (q : Queue α) (size : Int)
    (least : minQueueSize ≤ size) (most : size ≤ maxQueueSize)
    (calls : List (Call α)) :
    (Runs.StepsMeet step TakesOldest (start q size) calls →
        Runs.StatesSatisfy step FirstInFirstOut (start q size) calls) ∧
      ((offered calls).Nodup →
        Runs.StatesSatisfy step FirstInFirstOut (start q size) calls →
          Runs.StepsMeet step TakesOldest (start q size) calls) := by
  have initial := holds_start q least most
  constructor
  · intro meets
    have satisfied :
        Runs.StatesSatisfy step (InOrder size.toNat)
          (start q size) calls := by
      refine Runs.statesSatisfy_of_stepsMeet ?_ calls
        ⟨[], initial, rfl⟩ meets
      intro history call next inOrder met stepped
      obtain rfl : history.after call = next := by simpa [step] using stepped
      exact inOrder_after inOrder met
    refine satisfied.mono ?_
    rintro history ⟨values, _, ordered⟩
    exact ⟨values, ordered.symm⟩
  · intro distinct
    refine (Runs.statesSatisfy_iff_stepsMeet
      (fun history rest =>
        (∃ values, Holds size.toNat history values) ∧
          (history.accepted ++ offered rest).Nodup)
      ?_ ?_ calls ⟨⟨[], initial⟩, distinct⟩ (List.prefix_refl _)).mp
    · rintro history call rest next ⟨⟨values, holds⟩, unique⟩ stepped
      obtain rfl : history.after call = next := by simpa [step] using stepped
      refine ⟨?_, nodup_after holds unique⟩
      cases call with
      | add value => exact ⟨_, holds.add value⟩
      | get => exact ⟨_, holds.get⟩
    · rintro history call rest next ⟨⟨values, holds⟩, unique⟩ fifo stepped
      obtain rfl : history.after call = next := by simpa [step] using stepped
      exact fifo_step_iff holds (List.nodup_append.mp unique).1 fifo

/-- Two scans that are taken one at a time leave the ring in order. -/
theorem fifo_iff_takesOldest_alternating :
    let calls := [Call.add 1, .get, .add 2, .get]
    let first := start (⟨[], 0, 0, 0⟩ : Queue Nat) 5
    (Runs.StepsMeet step TakesOldest first calls →
        Runs.StatesSatisfy step FirstInFirstOut first calls) ∧
      ((offered calls).Nodup →
        Runs.StatesSatisfy step FirstInFirstOut first calls →
          Runs.StepsMeet step TakesOldest first calls) :=
  fifo_iff_takesOldest ⟨[], 0, 0, 0⟩ 5 (by decide) (by decide)
    [.add 1, .get, .add 2, .get]

end SmartFridge.QueueHistory
