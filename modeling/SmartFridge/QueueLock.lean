import SmartFridge.Library.Locking
import SmartFridge.QueueHistory

/-!
# The queue between its threads

`sf_queue_add` and `sf_queue_get` as the threads execute them: behind
`queue_lock`, one access to the structure `queue` after another, with the
statement `q->current++` as a read and a write.  Run alone, this code computes
the two functions that the other modules take as one step; behind the lock it
does so in every interleaving of any number of threads.
-/

namespace SmartFridge.QueueLock

open SmartFridge.Library
open SmartFridge.Library.Locking
open SmartFridge.QueueRing

variable {α : Type}

/-- A call on the queue; `none` is the pointer `NULL`. -/
inductive Op (α : Type) where
  | add (value : Option α)
  | get
deriving DecidableEq

/-- What a call returns. -/
inductive Res (α : Type) where
  | retval (code : Int)
  | value (value : Option α)
deriving DecidableEq

/-- The next access of a call, with the local variables it still needs. -/
inductive Point (α : Type) where
  | addSize (value : Option α)
  | addWriteP (value : Option α) (size : Nat)
  | addCurrent (value : Option α) (size writeP : Nat)
  | addSlot (value : Option α) (size writeP i : Nat)
  | addStore (value : Option α) (size writeP i : Nat)
  | addMove (size writeP i : Nat)
  | addCount
  | addCounted (current : Nat)
  | getWriteP
  | getSize (writeP : Nat)
  | getCurrent (writeP size : Nat)
  | getSlot (writeP size i : Nat)
  | getValue (p : Nat)
  | getClear (value : Option α) (p : Nat)
  | getMove (value : Option α) (p : Nat)
  | getCount (value : Option α)
  | getCounted (value : Option α) (current : Nat)
  | unlock (res : Res α)
deriving DecidableEq

/-- One access of `sf_queue_add` or `sf_queue_get`. -/
def work (point : Point α) (q : Queue α) : Point α × Queue α :=
  match point with
  | .addSize value => (.addWriteP value q.size, q)
  | .addWriteP value size => (.addCurrent value size q.writeP, q)
  | .addCurrent value size writeP =>
      if q.current < size then
        (.addSlot value size writeP 0, q)
      else
        (.unlock (.retval 1), q)
  | .addSlot value size writeP i =>
      if i < size then
        if (q.slot ((writeP + i) % size)).isNone then
          (.addStore value size writeP i, q)
        else
          (.addSlot value size writeP (i + 1), q)
      else
        (.unlock (.retval 1), q)
  | .addStore value size writeP i =>
      (.addMove size writeP i,
        { q with dataQueue := q.dataQueue.set ((writeP + i) % size) value })
  | .addMove size writeP i =>
      (.addCount, { q with writeP := (writeP + i + 1) % size })
  | .addCount => (.addCounted q.current, q)
  | .addCounted current =>
      (.unlock (.retval 0), { q with current := current + 1 })
  | .getWriteP => (.getSize q.writeP, q)
  | .getSize writeP => (.getCurrent writeP q.size, q)
  | .getCurrent writeP size =>
      if q.current ≠ 0 then
        (.getSlot writeP size 0, q)
      else
        (.unlock (.value none), q)
  | .getSlot writeP size i =>
      if i < size then
        if (q.slot ((writeP + size - i) % size)).isSome then
          (.getValue ((writeP + size - i) % size), q)
        else
          (.getSlot writeP size (i + 1), q)
      else
        (.unlock (.value none), q)
  | .getValue p => (.getClear (q.slot p) p, q)
  | .getClear value p =>
      (.getMove value p, { q with dataQueue := q.dataQueue.set p none })
  | .getMove value p => (.getCount value, { q with writeP := p })
  | .getCount value => (.getCounted value q.current, q)
  | .getCounted value current =>
      (.unlock (.value value), { q with current := current - 1 })
  | .unlock res => (.unlock res, q)

/-- The code of the two operations. -/
def queueCode : Code (Op α) (Res α) (Queue α) (Point α) where
  enter
    | .add value => .addSize value
    | .get => .getWriteP
  work := work
  result
    | .unlock res => some res
    | _ => none

/-- The two operations, each as one step. -/
def queueSpec : Op α → Queue α → Res α × Queue α
  | .add value, q => (.retval (sfQueueAdd q value).1, (sfQueueAdd q value).2)
  | .get, q => (.value (sfQueueGet q).1, (sfQueueGet q).2)

/-! ## The code computes the operations -/

/-- The loop of `sf_queue_add`, with `count` rounds to go. -/
theorem executes_addSlot (q : Queue α) (value : Option α) (size : Nat)
    (count i : Nat) (rounds : i + count = size) :
    match (List.range' i count).find? fun j =>
        (q.slot ((q.writeP + j) % size)).isNone with
    | some j =>
        Executes queueCode (.addSlot value size q.writeP i) q (.retval 0)
          { q with
            dataQueue := q.dataQueue.set ((q.writeP + j) % size) value
            writeP := (q.writeP + j + 1) % size
            current := q.current + 1 }
    | none =>
        Executes queueCode (.addSlot value size q.writeP i) q (.retval 1)
          q := by
  induction count generalizing i with
  | zero =>
      have beyond : ¬ i < size := by omega
      refine .access rfl ?_
      simp only [queueCode, work, if_neg beyond]
      exact .finished rfl
  | succ count ih =>
      have more : i < size := by omega
      rw [List.range'_succ, List.find?_cons]
      by_cases empty : (q.slot ((q.writeP + i) % size)).isNone
      · simp only [empty]
        refine .access rfl ?_
        simp only [queueCode, work, if_pos more, if_pos empty]
        exact .access rfl (.access rfl (.access rfl (.access rfl
          (.finished rfl))))
      · have later := ih (i + 1) (by omega)
        have goesOn :
            work (.addSlot value size q.writeP i) q =
              (.addSlot value size q.writeP (i + 1), q) := by
          simp only [work, if_pos more, if_neg empty]
        simp only [Bool.not_eq_true] at empty
        simp only [empty]
        split at later
        · rename_i j found
          simp only [found]
          refine .access rfl ?_
          simp only [queueCode, goesOn]
          exact later
        · rename_i found
          simp only [found]
          refine .access rfl ?_
          simp only [queueCode, goesOn]
          exact later

/-- The loop of `sf_queue_get`, with `count` rounds to go. -/
theorem executes_getSlot (q : Queue α) (size : Nat)
    (count i : Nat) (rounds : i + count = size) :
    match (List.range' i count).find? fun j =>
        (q.slot ((q.writeP + size - j) % size)).isSome with
    | some j =>
        Executes queueCode (.getSlot q.writeP size i) q
          (.value (q.slot ((q.writeP + size - j) % size)))
          { q with
            dataQueue :=
              q.dataQueue.set ((q.writeP + size - j) % size) none
            writeP := (q.writeP + size - j) % size
            current := q.current - 1 }
    | none =>
        Executes queueCode (.getSlot q.writeP size i) q (.value none) q := by
  induction count generalizing i with
  | zero =>
      have beyond : ¬ i < size := by omega
      refine .access rfl ?_
      simp only [queueCode, work, if_neg beyond]
      exact .finished rfl
  | succ count ih =>
      have more : i < size := by omega
      rw [List.range'_succ, List.find?_cons]
      by_cases occupied : (q.slot ((q.writeP + size - i) % size)).isSome
      · simp only [occupied]
        refine .access rfl ?_
        simp only [queueCode, work, if_pos more, if_pos occupied]
        exact .access rfl (.access rfl (.access rfl (.access rfl
          (.access rfl (.finished rfl)))))
      · have later := ih (i + 1) (by omega)
        have goesOn :
            work (.getSlot q.writeP size i) q =
              (.getSlot q.writeP size (i + 1), q) := by
          simp only [work, if_pos more, if_neg occupied]
        simp only [Bool.not_eq_true] at occupied
        simp only [occupied]
        split at later
        · rename_i j found
          simp only [found]
          refine .access rfl ?_
          simp only [queueCode, goesOn]
          exact later
        · rename_i found
          simp only [found]
          refine .access rfl ?_
          simp only [queueCode, goesOn]
          exact later

/-- `sf_queue_add` by single accesses. -/
theorem executes_add (q : Queue α) (value : Option α) :
    Executes queueCode (.addSize value) q (.retval (sfQueueAdd q value).1)
      (sfQueueAdd q value).2 := by
  refine .access rfl (.access rfl (.access rfl ?_))
  simp only [queueCode, work]
  rw [sfQueueAdd]
  by_cases room : q.current < q.size
  · rw [if_pos room, if_pos room]
    have loop := executes_addSlot q value q.size q.size 0 (Nat.zero_add _)
    rw [List.range_eq_range']
    generalize List.find? _ _ = found at loop ⊢
    cases found with
    | some j => exact loop
    | none => exact loop
  · rw [if_neg room, if_neg room]
    exact .finished rfl

/-- `sf_queue_get` by single accesses. -/
theorem executes_get (q : Queue α) :
    Executes queueCode .getWriteP q (.value (sfQueueGet q).1)
      (sfQueueGet q).2 := by
  refine .access rfl (.access rfl (.access rfl ?_))
  simp only [queueCode, work]
  rw [sfQueueGet]
  by_cases stored : q.current ≠ 0
  · rw [if_pos stored, if_pos stored]
    have loop := executes_getSlot q q.size q.size 0 (Nat.zero_add _)
    rw [List.range_eq_range']
    generalize List.find? _ _ = found at loop ⊢
    cases found with
    | some j => exact loop
    | none => exact loop
  · rw [if_neg stored, if_neg stored]
    exact .finished rfl

theorem queueCode_implements : Implements (queueCode (α := α)) queueSpec := by
  intro op q
  cases op with
  | add value => exact executes_add q value
  | get => exact executes_get q

/-! ## The threads of the queue -/

/-- A world of threads that use one queue. -/
abbrev Threads (Thread α : Type) : Type :=
  World Thread (Op α) (Res α) (Queue α) (Point α)

variable {Thread : Type}

/-- The values that the queue accepted, in the order of the returns. -/
def accepted : List (Return Thread (Op α) (Res α)) → List α
  | [] => []
  | ⟨_, .add (some value), .retval 0⟩ :: rest => value :: accepted rest
  | _ :: rest => accepted rest

/-- The values that the queue handed out, in the order of the returns. -/
def handedOut : List (Return Thread (Op α) (Res α)) → List α
  | [] => []
  | ⟨_, .get, .value (some value)⟩ :: rest => value :: handedOut rest
  | _ :: rest => handedOut rest

/-- The call does not add `NULL`. -/
def Op.IsProper : Op α → Prop
  | .add value => value.isSome
  | .get => True

/-- What a sequential execution leaves in the ring. -/
theorem replays_represents {q before : Queue α} {values : List α}
    (represents : Represents q values)
    {calls : List (Return Thread (Op α) (Res α))}
    (proper : ∀ call ∈ calls, call.op.IsProper)
    (replays : Replays queueSpec q calls before) :
    ∃ left, Represents before left ∧ before.size = q.size ∧
      (values ++ accepted calls).Perm (handedOut calls ++ left) := by
  induction calls generalizing q values with
  | nil =>
      have same : q = before := replays
      subst same
      exact ⟨values, represents, rfl, by simp [accepted, handedOut]⟩
  | cons call rest ih =>
      obtain ⟨agrees, continued⟩ := replays
      have restProper : ∀ call ∈ rest, call.op.IsProper :=
        fun later member => proper later (List.mem_cons_of_mem call member)
      have firstProper := proper call List.mem_cons_self
      obtain ⟨thread, op, res⟩ := call
      cases op with
      | add offered =>
          obtain ⟨value, rfl⟩ := Option.isSome_iff_exists.mp firstProper
          obtain ⟨code, sameSize, stored⟩ := add_refines represents value
          obtain ⟨left, ends, size, perm⟩ := ih stored restProper continued
          refine ⟨left, ends, size.trans sameSize, ?_⟩
          have result : res = .retval (storeAdd q.size values value).1 := by
            rw [← code]
            exact agrees.symm
          subst result
          rw [storeAdd] at perm ⊢
          by_cases free : values.length < q.size
          · rw [if_pos free] at perm ⊢
            simpa [accepted, handedOut] using perm
          · rw [if_neg free] at perm ⊢
            simpa [accepted, handedOut] using perm
      | get =>
          obtain ⟨taken, sameSize, stored⟩ := get_refines represents
          obtain ⟨left, ends, size, perm⟩ := ih stored restProper continued
          refine ⟨left, ends, size.trans sameSize, ?_⟩
          have result : res = .value (storeGet q.size values).1 := by
            rw [← taken]
            exact agrees.symm
          subst result
          have split := QueueHistory.storeGet_perm q.size values
          cases value : (storeGet q.size values).1 with
          | none =>
              rw [value] at split
              simp only [Option.toList_none, List.nil_append] at split
              simp only [accepted, handedOut]
              exact (split.append_right _).trans perm
          | some value' =>
              rw [value] at split
              simp only [Option.toList_some, List.singleton_append] at split
              simp only [accepted, handedOut]
              exact (split.append_right _).trans (perm.cons value')

variable [DecidableEq Thread]

/-- One thread waits for the lock while another adds to an empty queue. -/
def additionAndRemoval : List (Event Bool (Op Nat)) :=
  [.call true (.add (some 7)), .acquire true, .access true,
    .call false .get, .access true, .access true, .access true, .access true,
    .access true, .access true, .access true, .release true, .acquire false,
    .access false]

/-- The world after that interleaving. -/
def additionThenRemoval : Threads Bool Nat :=
  ((Runs.run (step queueCode) (start (sfQueueSet ⟨[], 0, 0, 0⟩ 5).2)
    additionAndRemoval)).get (by decide)

theorem additionThenRemoval_reached :
    Runs.run (step queueCode) (start (sfQueueSet ⟨[], 0, 0, 0⟩ 5).2)
      additionAndRemoval = some additionThenRemoval :=
  (Option.some_get _).symm

/--
Every interleaving of any threads on the queue is sequential: at most one of
them is between taking and releasing the lock, the calls that returned did so
with the results of `sf_queue_add` and `sf_queue_get` made one after another in
that order, a free lock leaves the queue that these calls leave, and each
thread's calls return once each, in the order in which it makes them.
-/
theorem queue_linearizable (q : Queue α)
    (events : List (Event Thread (Op α))) (world : Threads Thread α)
    (reached : Runs.run (step queueCode) (start q) events = some world) :
    (∀ thread other op op' point point',
      world.phase thread = .inside op point →
        world.phase other = .inside op' point' → thread = other) ∧
      (∃ before, Replays queueSpec q world.returned before ∧
        (world.holder = none → world.shared = before)) ∧
      ∀ thread, called thread events =
        world.returnedBy thread ++ (world.phase thread).op := by
  have behaves := behaves_run queueCode_implements reached
  refine ⟨?_, behaves.sequential, ?_⟩
  · intro thread other op op' point point' one two
    exact behaves.mutual one two
  · intro thread
    exact (made_run thread reached).symm

theorem queue_linearizable_two_threads :
    (∀ thread other op op' point point',
      additionThenRemoval.phase thread = .inside op point →
        additionThenRemoval.phase other = .inside op' point' →
          thread = other) ∧
      (∃ before,
        Replays queueSpec (sfQueueSet ⟨[], 0, 0, 0⟩ 5).2
          additionThenRemoval.returned before ∧
        (additionThenRemoval.holder = none →
          additionThenRemoval.shared = before)) ∧
      ∀ thread, called thread additionAndRemoval =
        additionThenRemoval.returnedBy thread ++
          (additionThenRemoval.phase thread).op :=
  queue_linearizable (sfQueueSet ⟨[], 0, 0, 0⟩ 5).2 additionAndRemoval
    additionThenRemoval additionThenRemoval_reached

/--
On a queue that has just been set, with no `NULL` added: whatever the threads
do, the queue that the returned calls leave when they are made one after another
represents a list of at most `size` values, and the accepted values are those
handed out together with that list.
-/
theorem queue_conserves_between_threads (q : Queue α) {size : Int}
    (least : minQueueSize ≤ size) (most : size ≤ maxQueueSize)
    (events : List (Event Thread (Op α))) (world : Threads Thread α)
    (proper : ∀ thread op, .call thread op ∈ events → op.IsProper)
    (reached :
      Runs.run (step queueCode) (start (sfQueueSet q size).2) events =
        some world) :
    ∃ before values,
      Replays queueSpec (sfQueueSet q size).2 world.returned before ∧
      Represents before values ∧ before.size = size.toNat ∧
      (world.holder = none → world.shared = before) ∧
      (accepted world.returned).Perm (handedOut world.returned ++ values) := by
  obtain ⟨_, setSize, represents⟩ := set_represents q least most
  obtain ⟨before, replays, free⟩ :=
    (behaves_run queueCode_implements reached).sequential
  have allProper : ∀ call ∈ world.returned, call.op.IsProper :=
    fun call member =>
      proper call.thread call.op (called_of_returned reached member)
  obtain ⟨values, holds, sameSize, perm⟩ :=
    replays_represents represents allProper replays
  exact
    ⟨before, values, replays, holds, sameSize.trans setSize, free,
      by simpa using perm⟩

theorem queue_conserves_between_two_threads :
    ∃ before values,
      Replays queueSpec (sfQueueSet ⟨[], 0, 0, 0⟩ 5).2
        additionThenRemoval.returned before ∧
      Represents before values ∧ before.size = (5 : Int).toNat ∧
      (additionThenRemoval.holder = none →
        additionThenRemoval.shared = before) ∧
      (accepted additionThenRemoval.returned).Perm
        (handedOut additionThenRemoval.returned ++ values) := by
  refine
    queue_conserves_between_threads ⟨[], 0, 0, 0⟩ (by decide) (by decide)
      additionAndRemoval additionThenRemoval ?_ additionThenRemoval_reached
  intro thread op made
  simp only [additionAndRemoval, List.mem_cons, Event.call.injEq,
    reduceCtorEq, List.not_mem_nil, or_false, false_or] at made
  rcases made with ⟨_, rfl⟩ | ⟨_, rfl⟩
  · rfl
  · trivial

/--
The queue never blocks its threads for good: after every interleaving, the
present calls of any threads can all return without another call being made,
and then the lock is free.
-/
theorem queue_calls_can_return (q : Queue α)
    (events : List (Event Thread (Op α))) (world : Threads Thread α)
    (threads : List Thread)
    (reached : Runs.run (step queueCode) (start q) events = some world) :
    ∃ (later : List (Event Thread (Op α))) (last : Threads Thread α),
      (∀ event ∈ later, event.Continues) ∧
        Runs.run (step queueCode) world later = some last ∧
        last.holder = none ∧
        ∀ thread ∈ threads, last.phase thread = .outside ∧
          last.returnedBy thread = called thread (events ++ later) := by
  obtain ⟨later, last, continues, ran, free, isOutside⟩ :=
    calls_can_return queueCode_implements reached threads
  refine ⟨later, last, continues, ran, free, ?_⟩
  intro thread member
  refine ⟨isOutside thread member, ?_⟩
  have made := made_run thread (Runs.run_append reached ran)
  rw [World.made, isOutside thread member] at made
  simpa [Phase.op, World.made, World.returnedBy, start] using made

theorem queue_calls_can_return_two_threads :
    ∃ (later : List (Event Bool (Op Nat))) (last : Threads Bool Nat),
      (∀ event ∈ later, event.Continues) ∧
        Runs.run (step queueCode) additionThenRemoval later = some last ∧
        last.holder = none ∧
        ∀ thread ∈ [true, false], last.phase thread = .outside ∧
          last.returnedBy thread =
            called thread (additionAndRemoval ++ later) :=
  queue_calls_can_return (sfQueueSet ⟨[], 0, 0, 0⟩ 5).2 additionAndRemoval
    additionThenRemoval [true, false] additionThenRemoval_reached

end SmartFridge.QueueLock
