import SmartFridge.Library.Runs
import Mathlib.Logic.Function.Basic

/-!
# Operations behind one lock

Several threads share a state that one lock protects.  Each call of an
operation first waits for the lock, then runs its code by single accesses to
the shared state, and returns its result when it releases the lock.  The steps
of all threads interleave freely, and an access does not ask who holds the
lock.

If the code of every operation, run alone, computes what a sequential
specification says, then every interleaving is a sequential execution of the
calls that have returned, in the order in which they returned.
-/

namespace SmartFridge.Library.Locking

variable {Thread Op Res Shared Point : Type*}

/--
The code of the operations between taking and releasing the lock.  A point of
the code that has a result is where the lock is released.
-/
structure Code (Op Res Shared Point : Type*) where
  enter : Op → Point
  work : Point → Shared → Point × Shared
  result : Point → Option Res

/-- The code from a point on, run alone, ends with a result and a state. -/
inductive Executes (code : Code Op Res Shared Point) :
    Point → Shared → Res → Shared → Prop where
  | finished {point : Point} {shared : Shared} {res : Res}
      (atEnd : code.result point = some res) :
      Executes code point shared res shared
  | access {point : Point} {shared final : Shared} {res : Res}
      (running : code.result point = none)
      (rest : Executes code (code.work point shared).1
        (code.work point shared).2 res final) :
      Executes code point shared res final

/-- Each operation, run alone, computes what the specification says. -/
def Implements (code : Code Op Res Shared Point)
    (spec : Op → Shared → Res × Shared) : Prop :=
  ∀ op shared,
    Executes code (code.enter op) shared (spec op shared).1 (spec op shared).2

/-! ## Threads -/

/-- Where a thread is in its present call. -/
inductive Phase (Op Point : Type*) where
  | outside
  | waiting (op : Op)
  | inside (op : Op) (point : Point)

/-- A call that has returned. -/
structure Return (Thread Op Res : Type*) where
  thread : Thread
  op : Op
  res : Res

/-- The shared state, the lock, the threads, and the calls that returned. -/
structure World (Thread Op Res Shared Point : Type*) where
  shared : Shared
  holder : Option Thread
  phase : Thread → Phase Op Point
  returned : List (Return Thread Op Res)

inductive Event (Thread Op : Type*) where
  | call (thread : Thread) (op : Op)
  | acquire (thread : Thread)
  | access (thread : Thread)
  | release (thread : Thread)

/-- All threads are outside and the lock is free. -/
def start (shared : Shared) : World Thread Op Res Shared Point where
  shared
  holder := none
  phase := fun _ => .outside
  returned := []

variable [DecidableEq Thread]

/-- The thread goes on to another phase. -/
def World.moved (world : World Thread Op Res Shared Point) (thread : Thread)
    (phase : Phase Op Point) : World Thread Op Res Shared Point :=
  { world with phase := Function.update world.phase thread phase }

/-- The world after an event, if the event is possible. -/
def step (code : Code Op Res Shared Point)
    (world : World Thread Op Res Shared Point) :
    Event Thread Op → Option (World Thread Op Res Shared Point)
  | .call thread op =>
      match world.phase thread with
      | .outside => some (world.moved thread (.waiting op))
      | _ => none
  | .acquire thread =>
      match world.phase thread, world.holder with
      | .waiting op, none =>
          some { world.moved thread (.inside op (code.enter op)) with
            holder := some thread }
      | _, _ => none
  | .access thread =>
      match world.phase thread with
      | .inside op point =>
          match code.result point with
          | none =>
              some { world.moved thread
                  (.inside op (code.work point world.shared).1) with
                shared := (code.work point world.shared).2 }
          | some _ => none
      | _ => none
  | .release thread =>
      match world.phase thread with
      | .inside op point =>
          match code.result point with
          | some res =>
              some { world.moved thread .outside with
                holder := none
                returned := world.returned ++ [⟨thread, op, res⟩] }
          | none => none
      | _ => none

variable {code : Code Op Res Shared Point}
  {world next : World Thread Op Res Shared Point} {thread : Thread}

/-! ### What one event does -/

theorem step_call {op : Op}
    (stepped : step code world (.call thread op) = some next) :
    world.phase thread = .outside ∧
      next = world.moved thread (.waiting op) := by
  simp only [step] at stepped
  split at stepped
  · exact ⟨by assumption, (Option.some.inj stepped).symm⟩
  · cases stepped

theorem step_acquire
    (stepped : step code world (.acquire thread) = some next) :
    ∃ op, world.phase thread = .waiting op ∧ world.holder = none ∧
      next = { world.moved thread (.inside op (code.enter op)) with
        holder := some thread } := by
  simp only [step] at stepped
  split at stepped
  · rename_i op waits free
    exact ⟨op, waits, free, (Option.some.inj stepped).symm⟩
  · cases stepped

theorem step_access
    (stepped : step code world (.access thread) = some next) :
    ∃ op point, world.phase thread = .inside op point ∧
      code.result point = none ∧
      next = { world.moved thread
          (.inside op (code.work point world.shared).1) with
        shared := (code.work point world.shared).2 } := by
  simp only [step] at stepped
  split at stepped
  · rename_i op point isInside
    split at stepped
    · rename_i running
      exact
        ⟨op, point, isInside, running, (Option.some.inj stepped).symm⟩
    · cases stepped
  · cases stepped

theorem step_release
    (stepped : step code world (.release thread) = some next) :
    ∃ op point res, world.phase thread = .inside op point ∧
      code.result point = some res ∧
      next = { world.moved thread .outside with
        holder := none
        returned := world.returned ++ [⟨thread, op, res⟩] } := by
  simp only [step] at stepped
  split at stepped
  · rename_i op point isInside
    split at stepped
    · rename_i res atEnd
      exact
        ⟨op, point, res, isInside, atEnd, (Option.some.inj stepped).symm⟩
    · cases stepped
  · cases stepped

/-! ## Sequential executions -/

/-- The calls, made one after another, give these results and this state. -/
def Replays (spec : Op → Shared → Res × Shared) :
    Shared → List (Return Thread Op Res) → Shared → Prop
  | shared, [], final => shared = final
  | shared, call :: rest, final =>
      (spec call.op shared).1 = call.res ∧
        Replays spec (spec call.op shared).2 rest final

variable {spec : Op → Shared → Res × Shared}

omit [DecidableEq Thread] in
theorem replays_append {shared before : Shared}
    {calls : List (Return Thread Op Res)} (call : Return Thread Op Res)
    (replays : Replays spec shared calls before)
    (agrees : (spec call.op before).1 = call.res) :
    Replays spec shared (calls ++ [call]) (spec call.op before).2 := by
  induction calls generalizing shared with
  | nil =>
      have same : shared = before := replays
      subst same
      exact ⟨agrees, rfl⟩
  | cons first rest ih => exact ⟨replays.1, ih replays.2⟩

theorem Executes.of_result {point : Point} {shared final : Shared}
    {res other : Res} (executes : Executes code point shared res final)
    (atEnd : code.result point = some other) :
    res = other ∧ final = shared := by
  cases executes with
  | finished same => exact ⟨Option.some.inj (same.symm.trans atEnd), rfl⟩
  | access running _ =>
      rw [running] at atEnd
      cases atEnd

theorem Executes.of_running {point : Point} {shared final : Shared}
    {res : Res} (executes : Executes code point shared res final)
    (running : code.result point = none) :
    Executes code (code.work point shared).1 (code.work point shared).2
      res final := by
  cases executes with
  | finished atEnd =>
      rw [running] at atEnd
      cases atEnd
  | access _ rest => exact rest

/--
The invariant of the lock.  A thread inside holds the lock.  While the lock is
free, the shared state is that of the calls that returned.  While it is held,
what is left of the holder's code leads to what the specification says about
the state before.
-/
structure Behaves (spec : Op → Shared → Res × Shared)
    (code : Code Op Res Shared Point) (initial : Shared)
    (world : World Thread Op Res Shared Point) : Prop where
  excludes :
    ∀ thread op point, world.phase thread = .inside op point →
      world.holder = some thread
  settled :
    world.holder = none →
      Replays spec initial world.returned world.shared
  pending :
    ∀ thread, world.holder = some thread →
      ∃ op point before, world.phase thread = .inside op point ∧
        Replays spec initial world.returned before ∧
        Executes code point world.shared
          (spec op before).1 (spec op before).2

omit [DecidableEq Thread] in
theorem behaves_start (initial : Shared) :
    Behaves spec code initial
      (start initial : World Thread Op Res Shared Point) where
  excludes := by
    intro thread op point isInside
    cases isInside
  settled _ := rfl
  pending := by
    intro thread held
    cases held

theorem Behaves.call {initial : Shared} {op : Op}
    (behaves : Behaves spec code initial world)
    (stepped : step code world (.call thread op) = some next) :
    Behaves spec code initial next := by
  obtain ⟨wasOutside, rfl⟩ := step_call stepped
  exact
    { excludes := by
        intro other op' point isInside
        by_cases same : other = thread
        · subst same
          simp [World.moved] at isInside
        · simp only [World.moved, Function.update_of_ne same] at isInside
          exact behaves.excludes other op' point isInside
      settled := behaves.settled
      pending := by
        intro other held
        obtain ⟨op', point, before, isInside, replays, executes⟩ :=
          behaves.pending other held
        have different : other ≠ thread := by
          rintro rfl
          rw [wasOutside] at isInside
          cases isInside
        refine ⟨op', point, before, ?_, replays, executes⟩
        simpa [World.moved, Function.update_of_ne different] using isInside }

theorem Behaves.acquire {initial : Shared}
    (implements : Implements code spec)
    (behaves : Behaves spec code initial world)
    (stepped : step code world (.acquire thread) = some next) :
    Behaves spec code initial next := by
  obtain ⟨op, _, free, rfl⟩ := step_acquire stepped
  exact
    { excludes := by
        intro other op' point isInside
        by_cases same : other = thread
        · rw [same]
        · simp only [World.moved, Function.update_of_ne same] at isInside
          have held := behaves.excludes other op' point isInside
          rw [free] at held
          cases held
      settled := by
        intro impossible
        cases impossible
      pending := by
        intro other held
        obtain rfl : thread = other := Option.some.inj held
        exact
          ⟨op, code.enter op, world.shared, by simp [World.moved],
            behaves.settled free, implements op world.shared⟩ }

theorem Behaves.access {initial : Shared}
    (behaves : Behaves spec code initial world)
    (stepped : step code world (.access thread) = some next) :
    Behaves spec code initial next := by
  obtain ⟨op, point, isInside, running, rfl⟩ := step_access stepped
  have held := behaves.excludes thread op point isInside
  exact
    { excludes := by
        intro other op' point' otherInside
        by_cases same : other = thread
        · rw [same]
          exact held
        · simp only [World.moved, Function.update_of_ne same] at otherInside
          exact behaves.excludes other op' point' otherInside
      settled := by
        intro free
        have impossible := held.symm.trans free
        cases impossible
      pending := by
        intro other otherHeld
        obtain rfl : thread = other :=
          Option.some.inj (held.symm.trans otherHeld)
        obtain ⟨op', point', before, same, replays, executes⟩ :=
          behaves.pending thread held
        rw [isInside] at same
        cases same
        exact
          ⟨op, _, before, by simp [World.moved], replays,
            executes.of_running running⟩ }

theorem Behaves.release {initial : Shared}
    (behaves : Behaves spec code initial world)
    (stepped : step code world (.release thread) = some next) :
    Behaves spec code initial next := by
  obtain ⟨op, point, res, isInside, atEnd, rfl⟩ := step_release stepped
  have held := behaves.excludes thread op point isInside
  obtain ⟨op', point', before, same, replays, executes⟩ :=
    behaves.pending thread held
  rw [isInside] at same
  cases same
  obtain ⟨agrees, final⟩ := executes.of_result atEnd
  exact
    { excludes := by
        intro other op' point' otherInside
        by_cases same : other = thread
        · subst same
          simp [World.moved] at otherInside
        · simp only [World.moved, Function.update_of_ne same] at otherInside
          have otherHeld := behaves.excludes other op' point' otherInside
          exact absurd (Option.some.inj (otherHeld.symm.trans held)) same
      settled := by
        intro _
        have extended := replays_append ⟨thread, op, res⟩ replays agrees
        rw [final] at extended
        exact extended
      pending := by
        intro other impossible
        cases impossible }

theorem Behaves.preserved {initial : Shared} {event : Event Thread Op}
    (implements : Implements code spec)
    (behaves : Behaves spec code initial world)
    (stepped : step code world event = some next) :
    Behaves spec code initial next := by
  cases event with
  | call thread op => exact behaves.call stepped
  | acquire thread => exact behaves.acquire implements stepped
  | access thread => exact behaves.access stepped
  | release thread => exact behaves.release stepped

/-- The invariant holds after every interleaving. -/
theorem behaves_run {initial : Shared} {events : List (Event Thread Op)}
    (implements : Implements code spec)
    (reached : Runs.run (step code) (start initial) events = some world) :
    Behaves spec code initial world :=
  Runs.run_invariant (Behaves spec code initial)
    (fun _ _ _ behaves stepped => behaves.preserved implements stepped)
    (behaves_start initial) reached

omit [DecidableEq Thread] in
/-- No two threads are between taking and releasing the lock. -/
theorem Behaves.mutual {initial : Shared} {other : Thread} {op op' : Op}
    {point point' : Point} (behaves : Behaves spec code initial world)
    (one : world.phase thread = .inside op point)
    (two : world.phase other = .inside op' point') : thread = other :=
  Option.some.inj
    ((behaves.excludes thread op point one).symm.trans
      (behaves.excludes other op' point' two))

omit [DecidableEq Thread] in
/-- What returned so far is a sequential execution. -/
theorem Behaves.sequential {initial : Shared}
    (behaves : Behaves spec code initial world) :
    ∃ before, Replays spec initial world.returned before ∧
      (world.holder = none → world.shared = before) := by
  cases free : world.holder with
  | none => exact ⟨world.shared, behaves.settled free, fun _ => rfl⟩
  | some thread =>
      obtain ⟨_, _, before, _, replays, _⟩ := behaves.pending thread free
      refine ⟨before, replays, ?_⟩
      intro impossible
      cases impossible

/-! ## Every call returns once -/

/-- The operations that the thread calls. -/
def called (thread : Thread) (events : List (Event Thread Op)) : List Op :=
  events.filterMap fun event =>
    match event with
    | .call other op => if other = thread then some op else none
    | _ => none

/-- The operation of the present call. -/
def Phase.op : Phase Op Point → List Op
  | .outside => []
  | .waiting op => [op]
  | .inside op _ => [op]

/-- The operations of the thread whose calls returned, in that order. -/
def World.returnedBy (world : World Thread Op Res Shared Point)
    (thread : Thread) : List Op :=
  (world.returned.filter fun call => call.thread = thread).map Return.op

/-- The calls of a thread that returned, then the present one. -/
def World.made (world : World Thread Op Res Shared Point)
    (thread : Thread) : List Op :=
  world.returnedBy thread ++ (world.phase thread).op

theorem made_step {event : Event Thread Op} (observed : Thread)
    (stepped : step code world event = some next) :
    next.made observed = world.made observed ++ called observed [event] := by
  cases event with
  | call thread op =>
      obtain ⟨wasOutside, rfl⟩ := step_call stepped
      by_cases same : thread = observed
      · subst same
        simp [World.made, World.returnedBy, World.moved, called, wasOutside,
          Phase.op]
      · simp [World.made, World.returnedBy, World.moved, called, same,
          Function.update_of_ne (Ne.symm same)]
  | acquire thread =>
      obtain ⟨op, waits, _, rfl⟩ := step_acquire stepped
      by_cases same : thread = observed
      · subst same
        simp [World.made, World.returnedBy, World.moved, called, waits,
          Phase.op]
      · simp [World.made, World.returnedBy, World.moved, called,
          Function.update_of_ne (Ne.symm same)]
  | access thread =>
      obtain ⟨op, point, isInside, _, rfl⟩ := step_access stepped
      by_cases same : thread = observed
      · subst same
        simp [World.made, World.returnedBy, World.moved, called, isInside,
          Phase.op]
      · simp [World.made, World.returnedBy, World.moved, called,
          Function.update_of_ne (Ne.symm same)]
  | release thread =>
      obtain ⟨op, point, res, isInside, _, rfl⟩ := step_release stepped
      by_cases same : thread = observed
      · subst same
        simp [World.made, World.returnedBy, World.moved, called, isInside,
          Phase.op, List.filter_append]
      · simp [World.made, World.returnedBy, World.moved, called, same,
          Function.update_of_ne (Ne.symm same), List.filter_append]

/-- A thread's calls return once each, in the order in which it makes them. -/
theorem made_run {events : List (Event Thread Op)} (observed : Thread)
    (reached : Runs.run (step code) world events = some next) :
    next.made observed = world.made observed ++ called observed events := by
  induction events generalizing world with
  | nil =>
      have same : world = next := by simpa using reached
      subst same
      simp [called]
  | cons event rest ih =>
      obtain ⟨between, stepped, continued⟩ :=
        (Runs.run_cons (step code) world next event rest).mp reached
      have separate :
          called observed (event :: rest) =
            called observed [event] ++ called observed rest :=
        List.filterMap_append (l := [event])
      rw [ih continued, made_step observed stepped, List.append_assoc,
        separate]

/-- A call that returned was made. -/
theorem called_of_returned {initial : Shared}
    {events : List (Event Thread Op)} {call : Return Thread Op Res}
    (reached : Runs.run (step code) (start initial) events = some world)
    (member : call ∈ world.returned) :
    .call call.thread call.op ∈ events := by
  have made := made_run call.thread reached
  have nothing :
      (start initial : World Thread Op Res Shared Point).made call.thread =
        [] := rfl
  rw [nothing, List.nil_append] at made
  have isMade : call.op ∈ world.made call.thread := by
    refine List.mem_append_left _ (List.mem_map_of_mem ?_)
    simpa using member
  rw [made] at isMade
  obtain ⟨event, eventMember, isCall⟩ := List.mem_filterMap.mp isMade
  cases event with
  | call other op =>
      by_cases same : other = call.thread
      · simp only [same, if_true] at isCall
        rw [← same, ← Option.some.inj isCall] at *
        exact eventMember
      · simp [same] at isCall
  | acquire other => simp at isCall
  | access other => simp at isCall
  | release other => simp at isCall

/-! ## Every call can return -/

/-- An event of a call already made. -/
def Event.Continues : Event Thread Op → Prop
  | .call _ _ => False
  | _ => True

/-- The holder's code, run on, releases the lock and touches no other thread. -/
theorem Executes.releases {op : Op} {point : Point} {final : Shared}
    {res : Res} {shared : Shared}
    (executes : Executes code point shared res final)
    (atPoint : world.phase thread = .inside op point)
    (here : world.shared = shared) :
    ∃ (events : List (Event Thread Op))
      (last : World Thread Op Res Shared Point),
      (∀ event ∈ events, event.Continues) ∧
        Runs.run (step code) world events = some last ∧
        last.holder = none ∧
        last.phase = Function.update world.phase thread .outside := by
  induction executes generalizing world with
  | @finished point shared res atEnd =>
      refine
        ⟨[.release thread],
          { world.moved thread .outside with
            holder := none
            returned := world.returned ++ [⟨thread, op, res⟩] },
          ?_, ?_, rfl, rfl⟩
      · simp [Event.Continues]
      · simp [Runs.run, step, atPoint, atEnd]
  | @access point shared final res running _ ih =>
      subst here
      obtain ⟨events, last, continues, reached, free, phases⟩ :=
        @ih { world.moved thread
              (.inside op (code.work point world.shared).1) with
            shared := (code.work point world.shared).2 }
          (by simp [World.moved]) rfl
      refine ⟨.access thread :: events, last, ?_, ?_, free, ?_⟩
      · intro event member
        rcases List.mem_cons.mp member with rfl | later
        · trivial
        · exact continues event later
      · rw [Runs.run_cons]
        refine ⟨_, ?_, reached⟩
        simp [step, atPoint, running]
      · rw [phases]
        simp [World.moved]

omit [DecidableEq Thread] in
theorem Behaves.phase_of_free {initial : Shared}
    (behaves : Behaves spec code initial world)
    (free : world.holder = none) (thread : Thread) :
    world.phase thread = .outside ∨
      ∃ op, world.phase thread = .waiting op := by
  cases phase : world.phase thread with
  | outside => exact .inl rfl
  | waiting op => exact .inr ⟨op, rfl⟩
  | inside op point =>
      have held := behaves.excludes thread op point phase
      rw [free] at held
      cases held

/-- From a free lock, a thread's present call can return. -/
theorem Behaves.serves {initial : Shared}
    (implements : Implements code spec)
    (behaves : Behaves spec code initial world)
    (free : world.holder = none) (thread : Thread) :
    ∃ (events : List (Event Thread Op))
      (last : World Thread Op Res Shared Point),
      (∀ event ∈ events, event.Continues) ∧
        Runs.run (step code) world events = some last ∧
        last.holder = none ∧
        last.phase = Function.update world.phase thread .outside := by
  rcases behaves.phase_of_free free thread with isOutside | ⟨op, waits⟩
  · refine ⟨[], world, by simp, rfl, free, ?_⟩
    rw [← isOutside, Function.update_eq_self]
  · have taken :
        step code world (.acquire thread) =
          some { world.moved thread (.inside op (code.enter op)) with
            holder := some thread } := by
      simp [step, waits, free]
    have entered :
        { world.moved thread (.inside op (code.enter op)) with
          holder := some thread }.phase thread =
            .inside op (code.enter op) := by
      simp [World.moved]
    obtain ⟨events, last, continues, reached, nowFree, phases⟩ :=
      (implements op world.shared).releases entered rfl
    refine ⟨.acquire thread :: events, last, ?_, ?_, nowFree, ?_⟩
    · intro event member
      rcases List.mem_cons.mp member with rfl | later
      · trivial
      · exact continues event later
    · exact (Runs.run_cons _ _ _ _ _).mpr ⟨_, taken, reached⟩
    · rw [phases]
      simp [World.moved]

/-- From a free lock, the present calls of any threads can all return. -/
theorem Behaves.servesAll {initial : Shared}
    (implements : Implements code spec)
    (behaves : Behaves spec code initial world)
    (free : world.holder = none) (threads : List Thread) :
    ∃ (events : List (Event Thread Op))
      (last : World Thread Op Res Shared Point),
      (∀ event ∈ events, event.Continues) ∧
        Runs.run (step code) world events = some last ∧
        last.holder = none ∧
        (∀ thread ∈ threads, last.phase thread = .outside) ∧
        ∀ thread, world.phase thread = .outside →
          last.phase thread = .outside := by
  induction threads generalizing world with
  | nil => exact ⟨[], world, by simp, rfl, free, by simp, fun _ => id⟩
  | cons first others ih =>
      obtain ⟨events, between, continues, reached, nowFree, phases⟩ :=
        behaves.serves implements free first
      have stillBehaves : Behaves spec code initial between :=
        Runs.run_invariant (Behaves spec code initial)
          (fun _ _ _ holds stepped => holds.preserved implements stepped)
          behaves reached
      obtain ⟨later, last, laterContinues, laterReached, lastFree,
          othersOutside, stay⟩ := ih stillBehaves nowFree
      refine
        ⟨events ++ later, last, ?_, Runs.run_append reached laterReached,
          lastFree, ?_, ?_⟩
      · intro event member
        rcases List.mem_append.mp member with early | late
        · exact continues event early
        · exact laterContinues event late
      · intro thread member
        rcases List.mem_cons.mp member with rfl | later
        · refine stay thread ?_
          rw [phases, Function.update_self]
        · exact othersOutside thread later
      · intro thread isOutside
        refine stay thread ?_
        rw [phases]
        by_cases same : thread = first
        · rw [same, Function.update_self]
        · rw [Function.update_of_ne same, isOutside]

/--
No deadlock: after every interleaving, the calls of any threads can all
return without a further call, and the lock is then free.
-/
theorem calls_can_return {initial : Shared} {events : List (Event Thread Op)}
    (implements : Implements code spec)
    (reached : Runs.run (step code) (start initial) events = some world)
    (threads : List Thread) :
    ∃ (later : List (Event Thread Op))
      (last : World Thread Op Res Shared Point),
      (∀ event ∈ later, event.Continues) ∧
        Runs.run (step code) world later = some last ∧
        last.holder = none ∧
        ∀ thread ∈ threads, last.phase thread = .outside := by
  have behaves := behaves_run implements reached
  cases held : world.holder with
  | none =>
      obtain ⟨later, last, continues, ran, free, isOutside, _⟩ :=
        behaves.servesAll implements held threads
      exact ⟨later, last, continues, ran, free, isOutside⟩
  | some holder =>
      obtain ⟨op, point, before, isInside, _, executes⟩ :=
        behaves.pending holder held
      obtain ⟨first, between, continues, ran, free, _⟩ :=
        executes.releases isInside rfl
      have stillBehaves : Behaves spec code initial between :=
        Runs.run_invariant (Behaves spec code initial)
          (fun _ _ _ holds stepped => holds.preserved implements stepped)
          behaves ran
      obtain ⟨later, last, laterContinues, laterRan, lastFree, isOutside, _⟩ :=
        stillBehaves.servesAll implements free threads
      refine
        ⟨first ++ later, last, ?_, Runs.run_append ran laterRan, lastFree,
          isOutside⟩
      intro event member
      rcases List.mem_append.mp member with early | late
      · exact continues event early
      · exact laterContinues event late

end SmartFridge.Library.Locking
