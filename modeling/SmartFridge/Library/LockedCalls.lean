import SmartFridge.Library.Locking

/-!
# Atomic calls behind locks

Parties share some objects, reach them by calls only, and each object has its
lock.  On the upper level a call is one step of the system.  On the lower level
the party waits for the lock, runs the code of the operation by single
accesses, and goes on with the result when it releases the lock; meanwhile the
other parties move, and other objects are in use.

If the code of every operation, run alone, computes its specification, the
lower level refines the upper one: a call takes effect when it returns.
-/

namespace SmartFridge.Library.LockedCalls

open SmartFridge.Library
open SmartFridge.Library.Locking

variable {σ L Thread ι : Type*} {Op Res Shared Point : ι → Type*}

/--
A system whose parties reach the objects by calls only.  A move neither reads
nor writes an object, and a party's call stays the same until it returns.
-/
structure Clients (σ L Thread ι : Type*) (Op Res Shared : ι → Type*) where
  objects : σ → (i : ι) → Shared i
  replace : σ → ((i : ι) → Shared i) → σ
  move : σ → L → Option σ
  request : σ → Thread → Option (Sigma Op)
  respond : σ → Thread → (i : ι) → Res i → σ
  objects_replace : ∀ state values, objects (replace state values) = values
  replace_objects : ∀ state, replace state (objects state) = state
  replace_replace : ∀ state values others,
    replace (replace state values) others = replace state others
  move_replace : ∀ state values event,
    move (replace state values) event =
      (move state event).map fun next => replace next values
  request_replace : ∀ state values thread,
    request (replace state values) thread = request state thread
  respond_replace : ∀ state values thread i res,
    respond (replace state values) thread i res =
      replace (respond state thread i res) values
  request_move : ∀ state event next thread call,
    move state event = some next → request state thread = some call →
      request next thread = some call
  request_respond : ∀ state thread other i op res call, thread ≠ other →
    request state thread = some ⟨i, op⟩ →
      request state other = some call →
        request (respond state thread i res) other = some call

variable (clients : Clients σ L Thread ι Op Res Shared)

theorem Clients.objects_move {state next : σ} {event : L}
    (moved : clients.move state event = some next) :
    clients.objects next = clients.objects state := by
  have framed :=
    clients.move_replace state (clients.objects state) event
  rw [clients.replace_objects, moved, Option.map_some] at framed
  have same := Option.some.inj framed
  rw [same, clients.objects_replace]

theorem Clients.objects_respond (state : σ) (thread : Thread) (i : ι)
    (res : Res i) :
    clients.objects (clients.respond state thread i res) =
      clients.objects state := by
  have framed :=
    clients.respond_replace state (clients.objects state) thread i res
  rw [clients.replace_objects] at framed
  rw [framed, clients.objects_replace]

/-! ## The two levels -/

variable [DecidableEq ι]

/-- A step of the upper level. -/
inductive AtomicEvent (L Thread : Type*) where
  | move (event : L)
  | perform (thread : Thread)

variable (spec : (i : ι) → Op i → Shared i → Res i × Shared i)

/-- A call is one step. -/
def atomicStep (state : σ) : AtomicEvent L Thread → Option σ
  | .move event => clients.move state event
  | .perform thread =>
      (clients.request state thread).map fun call =>
        clients.respond
          (clients.replace state
            (Function.update (clients.objects state) call.1
              (spec call.1 call.2 (clients.objects state call.1)).2))
          thread call.1
          (spec call.1 call.2 (clients.objects state call.1)).1

/-- Where a party is in its present call. -/
inductive Phase (Op Point : ι → Type*) where
  | outside
  | waiting (i : ι) (op : Op i)
  | inside (i : ι) (op : Op i) (point : Point i)

/-- The system, the locks and the parties. -/
structure World (σ Thread : Type*) (Op Point : ι → Type*) where
  state : σ
  holder : ι → Option Thread
  phase : Thread → Phase Op Point

/-- A step of the lower level. -/
inductive LockedEvent (L Thread : Type*) where
  | move (event : L)
  | call (thread : Thread)
  | acquire (thread : Thread)
  | access (thread : Thread)
  | release (thread : Thread)

/-- No party is in a call. -/
def start (state : σ) : World σ Thread Op Point where
  state
  holder := fun _ => none
  phase := fun _ => .outside

variable [DecidableEq Thread]
  (code : (i : ι) → Code (Op i) (Res i) (Shared i) (Point i))

/-- The world after one access of the thread inside object `i`. -/
def World.accessed (world : World σ Thread Op Point)
    (clients : Clients σ L Thread ι Op Res Shared) (thread : Thread) (i : ι)
    (op : Op i) (after : Point i × Shared i) : World σ Thread Op Point where
  state :=
    clients.replace world.state
      (Function.update (clients.objects world.state) i after.2)
  holder := world.holder
  phase := Function.update world.phase thread (.inside i op after.1)

/-- The world after the thread has returned from object `i`. -/
def World.released (world : World σ Thread Op Point)
    (clients : Clients σ L Thread ι Op Res Shared) (thread : Thread) (i : ι)
    (res : Res i) : World σ Thread Op Point where
  state := clients.respond world.state thread i res
  holder := Function.update world.holder i none
  phase := Function.update world.phase thread .outside

/-- A call takes the lock, accesses the object, and releases the lock. -/
def lockedStep (world : World σ Thread Op Point) :
    LockedEvent L Thread → Option (World σ Thread Op Point)
  | .move event =>
      (clients.move world.state event).map fun next =>
        { world with state := next }
  | .call thread =>
      match world.phase thread, clients.request world.state thread with
      | .outside, some call =>
          some { world with
            phase :=
              Function.update world.phase thread (.waiting call.1 call.2) }
      | _, _ => none
  | .acquire thread =>
      match world.phase thread with
      | .waiting i op =>
          match world.holder i with
          | none =>
              some { world with
                holder := Function.update world.holder i (some thread)
                phase :=
                  Function.update world.phase thread
                    (.inside i op ((code i).enter op)) }
          | some _ => none
      | _ => none
  | .access thread =>
      match world.phase thread with
      | .inside i op point =>
          match (code i).result point with
          | none =>
              some (world.accessed clients thread i op
                ((code i).work point (clients.objects world.state i)))
          | some _ => none
      | _ => none
  | .release thread =>
      match world.phase thread with
      | .inside i _ point =>
          match (code i).result point with
          | some res => some (world.released clients thread i res)
          | none => none
      | _ => none

/-! ## Refinement -/

/--
The invariant of the lower level, with the objects as they were before the
calls that are inside.  A party in a call still requests it; inside, it holds
the lock, and what is left of its code leads to what the specification says.
-/
structure Follows (world : World σ Thread Op Point)
    (before : (i : ι) → Shared i) : Prop where
  waits :
    ∀ thread i op, world.phase thread = .waiting i op →
      clients.request world.state thread = some ⟨i, op⟩
  works :
    ∀ thread i op point, world.phase thread = .inside i op point →
      clients.request world.state thread = some ⟨i, op⟩ ∧
        world.holder i = some thread ∧
        Executes (code i) point (clients.objects world.state i)
          (spec i op (before i)).1 (spec i op (before i)).2
  held :
    ∀ i thread, world.holder i = some thread →
      ∃ op point, world.phase thread = .inside i op point
  settled :
    ∀ i, world.holder i = none →
      clients.objects world.state i = before i

/-- The state of the upper level. -/
def World.settledState (world : World σ Thread Op Point)
    (before : (i : ι) → Shared i) : σ :=
  clients.replace world.state before

variable {clients spec code}
  {world next : World σ Thread Op Point} {before : (i : ι) → Shared i}
  {thread : Thread}

omit [DecidableEq ι] [DecidableEq Thread] in
theorem follows_start (state : σ) :
    Follows clients spec code (start state : World σ Thread Op Point)
      (clients.objects state) where
  waits := by
    intro thread i op waits
    cases waits
  works := by
    intro thread i op point works
    cases works
  held := by
    intro i thread held
    cases held
  settled _ _ := rfl

omit [DecidableEq ι] [DecidableEq Thread] in
theorem Follows.move (follows : Follows clients spec code world before)
    {event : L} {state : σ}
    (moved : clients.move world.state event = some state) :
    Follows clients spec code { world with state } before ∧
      clients.move (world.settledState clients before) event =
        some (clients.replace state before) := by
  have sameObjects := clients.objects_move moved
  refine
    ⟨{ waits := ?_, works := ?_, held := follows.held, settled := ?_ }, ?_⟩
  · intro thread i op waits
    exact
      clients.request_move world.state event state thread _ moved
        (follows.waits thread i op waits)
  · intro thread i op point works
    obtain ⟨requested, holds, executes⟩ :=
      follows.works thread i op point works
    refine
      ⟨clients.request_move world.state event state thread _ moved
        requested, holds, ?_⟩
    change Executes (code i) point (clients.objects state i) _ _
    rw [sameObjects]
    exact executes
  · intro i free
    change clients.objects state i = before i
    rw [sameObjects]
    exact follows.settled i free
  · rw [World.settledState, clients.move_replace, moved, Option.map_some]

/-- A value of an updated function is the new one or an old one. -/
theorem update_cases {α β : Type*} [DecidableEq α] {values : α → β}
    {key other : α} {value result : β}
    (equal : Function.update values key value other = result) :
    other = key ∧ value = result ∨ other ≠ key ∧ values other = result := by
  by_cases same : other = key
  · subst same
    rw [Function.update_self] at equal
    exact .inl ⟨rfl, equal⟩
  · rw [Function.update_of_ne same] at equal
    exact .inr ⟨same, equal⟩

omit [DecidableEq ι] in
theorem Follows.call (follows : Follows clients spec code world before)
    {call : Sigma Op}
    (requested : clients.request world.state thread = some call)
    (isOutside : world.phase thread = .outside) :
    Follows clients spec code
      { world with
        phase :=
          Function.update world.phase thread (.waiting call.1 call.2) }
      before where
  waits := by
    intro other i op waits
    rcases update_cases waits with ⟨rfl, same⟩ | ⟨_, waits⟩
    · cases same
      exact requested
    · exact follows.waits other i op waits
  works := by
    intro other i op point works
    rcases update_cases works with ⟨_, impossible⟩ | ⟨_, works⟩
    · cases impossible
    · exact follows.works other i op point works
  held := by
    intro i other held
    obtain ⟨op, point, works⟩ := follows.held i other held
    have different : other ≠ thread := by
      rintro rfl
      rw [isOutside] at works
      cases works
    exact ⟨op, point, (Function.update_of_ne different _ _).trans works⟩
  settled := follows.settled

theorem Follows.acquire
    (implements : ∀ i, Implements (code i) (spec i))
    (follows : Follows clients spec code world before)
    {i : ι} {op : Op i} (waits : world.phase thread = .waiting i op)
    (free : world.holder i = none) :
    Follows clients spec code
      { world with
        holder := Function.update world.holder i (some thread)
        phase :=
          Function.update world.phase thread
            (.inside i op ((code i).enter op)) }
      before where
  waits := by
    intro other j op' otherWaits
    rcases update_cases otherWaits with ⟨_, impossible⟩ | ⟨_, otherWaits⟩
    · cases impossible
    · exact follows.waits other j op' otherWaits
  works := by
    intro other j op' point works
    rcases update_cases works with ⟨rfl, same⟩ | ⟨_, works⟩
    · cases same
      refine ⟨follows.waits other i op waits, Function.update_self .., ?_⟩
      have executes := implements i op (before i)
      rw [← follows.settled i free] at executes ⊢
      exact executes
    · obtain ⟨requested, holds, executes⟩ :=
        follows.works other j op' point works
      have different : j ≠ i := by
        rintro rfl
        rw [free] at holds
        cases holds
      exact
        ⟨requested, (Function.update_of_ne different _ _).trans holds,
          executes⟩
  held := by
    intro j other held
    rcases update_cases held with ⟨rfl, same⟩ | ⟨_, held⟩
    · obtain rfl : thread = other := Option.some.inj same
      exact ⟨op, _, Function.update_self ..⟩
    · obtain ⟨op', point, works⟩ := follows.held j other held
      have different : other ≠ thread := by
        rintro rfl
        rw [waits] at works
        cases works
      exact ⟨op', point, (Function.update_of_ne different _ _).trans works⟩
  settled := by
    intro j nowFree
    rcases update_cases nowFree with ⟨_, impossible⟩ | ⟨_, nowFree⟩
    · cases impossible
    · exact follows.settled j nowFree

theorem Follows.access (follows : Follows clients spec code world before)
    {i : ι} {op : Op i} {point : Point i}
    (works : world.phase thread = .inside i op point)
    (running : (code i).result point = none) :
    Follows clients spec code
      (world.accessed clients thread i op
        ((code i).work point (clients.objects world.state i)))
      before := by
  obtain ⟨requested, holds, executes⟩ := follows.works thread i op point works
  have onlyHolder :
      ∀ other, world.holder i = some other → other = thread := by
    intro other otherHolds
    exact Option.some.inj (otherHolds.symm.trans holds)
  refine
    { waits := ?_, works := ?_, held := ?_, settled := ?_ }
  · intro other j op' waits
    rcases update_cases waits with ⟨_, impossible⟩ | ⟨_, waits⟩
    · cases impossible
    · exact
        (clients.request_replace _ _ other).trans
          (follows.waits other j op' waits)
  · intro other j op' point' otherWorks
    rcases update_cases otherWorks with ⟨rfl, same⟩ | ⟨different, otherWorks⟩
    · cases same
      refine ⟨(clients.request_replace _ _ other).trans requested, holds, ?_⟩
      rw [World.accessed, clients.objects_replace, Function.update_self]
      exact executes.of_running running
    · obtain ⟨otherRequested, otherHolds, otherExecutes⟩ :=
        follows.works other j op' point' otherWorks
      have elsewhere : j ≠ i := by
        rintro rfl
        exact different (onlyHolder other otherHolds)
      refine
        ⟨(clients.request_replace _ _ other).trans otherRequested, otherHolds,
          ?_⟩
      rw [World.accessed, clients.objects_replace,
        Function.update_of_ne elsewhere]
      exact otherExecutes
  · intro j other held
    by_cases same : other = thread
    · subst same
      obtain ⟨op', point', inside⟩ := follows.held j other held
      rw [works] at inside
      cases inside
      exact ⟨op, _, Function.update_self ..⟩
    · obtain ⟨op', point', inside⟩ := follows.held j other held
      exact ⟨op', point', (Function.update_of_ne same _ _).trans inside⟩
  · intro j free
    have elsewhere : j ≠ i := by
      rintro rfl
      have impossible := holds.symm.trans free
      cases impossible
    rw [World.accessed, clients.objects_replace,
      Function.update_of_ne elsewhere]
    exact follows.settled j free

/-- On the upper level the call is made at its return. -/
theorem Follows.release (follows : Follows clients spec code world before)
    {i : ι} {op : Op i} {point : Point i} {res : Res i}
    (works : world.phase thread = .inside i op point)
    (atEnd : (code i).result point = some res) :
    Follows clients spec code (world.released clients thread i res)
        (Function.update before i (spec i op (before i)).2) ∧
      atomicStep clients spec (world.settledState clients before)
          (.perform thread) =
        some ((world.released clients thread i res).settledState clients
          (Function.update before i (spec i op (before i)).2)) := by
  obtain ⟨requested, holds, executes⟩ := follows.works thread i op point works
  obtain ⟨sameRes, final⟩ := executes.of_result atEnd
  have stays :
      ∀ other call, other ≠ thread →
        clients.request world.state other = some call →
          clients.request (clients.respond world.state thread i res) other =
            some call := by
    intro other call different otherRequested
    exact
      clients.request_respond world.state thread other i op res call
        (Ne.symm different) requested otherRequested
  refine
    ⟨{ waits := ?_, works := ?_, held := ?_, settled := ?_ }, ?_⟩
  · intro other j op' waits
    rcases update_cases waits with ⟨_, impossible⟩ | ⟨different, waits⟩
    · cases impossible
    · exact stays other _ different (follows.waits other j op' waits)
  · intro other j op' point' otherWorks
    rcases update_cases otherWorks with ⟨_, impossible⟩ |
        ⟨different, otherWorks⟩
    · cases impossible
    · obtain ⟨otherRequested, otherHolds, otherExecutes⟩ :=
        follows.works other j op' point' otherWorks
      have elsewhere : j ≠ i := by
        rintro rfl
        exact different (Option.some.inj (otherHolds.symm.trans holds))
      refine
        ⟨stays other _ different otherRequested,
          (Function.update_of_ne elsewhere _ _).trans otherHolds, ?_⟩
      rw [World.released, clients.objects_respond,
        Function.update_of_ne elsewhere]
      exact otherExecutes
  · intro j other held
    rcases update_cases held with ⟨_, impossible⟩ | ⟨elsewhere, held⟩
    · cases impossible
    · obtain ⟨op', point', inside⟩ := follows.held j other held
      have different : other ≠ thread := by
        rintro rfl
        rw [works] at inside
        cases inside
        exact elsewhere rfl
      exact
        ⟨op', point', (Function.update_of_ne different _ _).trans inside⟩
  · intro j free
    rw [World.released, clients.objects_respond]
    by_cases same : j = i
    · subst same
      rw [Function.update_self]
      exact final.symm
    · rw [Function.update_of_ne same]
      exact
        follows.settled j ((Function.update_of_ne same _ _).symm.trans free)
  · rw [atomicStep, World.settledState, clients.request_replace, requested,
      Option.map_some, clients.objects_replace, clients.replace_replace,
      clients.respond_replace, sameRes]
    rfl

/-- A step of the lower level is one of the upper level or none. -/
theorem Follows.step (implements : ∀ i, Implements (code i) (spec i))
    (follows : Follows clients spec code world before)
    {event : LockedEvent L Thread}
    (stepped : lockedStep clients code world event = some next) :
    ∃ after, Follows clients spec code next after ∧
      (next.settledState clients after =
          world.settledState clients before ∨
        ∃ upper, atomicStep clients spec
            (world.settledState clients before) upper =
          some (next.settledState clients after)) := by
  cases event with
  | move event =>
      obtain ⟨state, moved, rfl⟩ := Option.map_eq_some_iff.mp stepped
      obtain ⟨still, upper⟩ := follows.move moved
      exact ⟨before, still, .inr ⟨.move event, upper⟩⟩
  | call thread =>
      simp only [lockedStep] at stepped
      split at stepped
      · rename_i call isOutside requested
        obtain rfl := Option.some.inj stepped
        exact ⟨before, follows.call requested isOutside, .inl rfl⟩
      · cases stepped
  | acquire thread =>
      simp only [lockedStep] at stepped
      split at stepped
      · rename_i i op waits
        split at stepped
        · rename_i free
          obtain rfl := Option.some.inj stepped
          exact ⟨before, follows.acquire implements waits free, .inl rfl⟩
        · cases stepped
      · cases stepped
  | access thread =>
      simp only [lockedStep] at stepped
      split at stepped
      · rename_i i op point works
        split at stepped
        · rename_i running
          obtain rfl := Option.some.inj stepped
          refine ⟨before, follows.access works running, .inl ?_⟩
          rw [World.settledState, World.accessed, clients.replace_replace]
          rfl
        · cases stepped
      · cases stepped
  | release thread =>
      simp only [lockedStep] at stepped
      split at stepped
      · rename_i i op point works
        split at stepped
        · rename_i res atEnd
          obtain rfl := Option.some.inj stepped
          obtain ⟨still, upper⟩ := follows.release works atEnd
          exact ⟨_, still, .inr ⟨.perform thread, upper⟩⟩
        · cases stepped
      · cases stepped

/--
Every run of the lower level is a run of the upper level in which each call is
made when it returns; the objects that no party is inside agree.
-/
theorem locked_refines (implements : ∀ i, Implements (code i) (spec i))
    {state : σ} {events : List (LockedEvent L Thread)}
    (reached :
      Runs.run (lockedStep clients code) (start state) events = some world) :
    ∃ (upper : List (AtomicEvent L Thread)) (before : (i : ι) → Shared i),
      Runs.run (atomicStep clients spec) state upper =
          some (world.settledState clients before) ∧
        Follows clients spec code world before := by
  refine
    Runs.run_invariant
      (fun world => ∃ (upper : List (AtomicEvent L Thread))
        (before : (i : ι) → Shared i),
        Runs.run (atomicStep clients spec) state upper =
            some (world.settledState clients before) ∧
          Follows clients spec code world before)
      ?_ ⟨[], clients.objects state, ?_, follows_start state⟩ reached
  · rintro world event next ⟨upper, before, ran, follows⟩ stepped
    obtain ⟨after, still, same | ⟨last, taken⟩⟩ :=
      follows.step implements stepped
    · exact ⟨upper, after, ran.trans (congrArg some same.symm), still⟩
    · exact
        ⟨upper ++ [last], after,
          Runs.run_append ran ((Runs.run_cons _ _ _ _ _).mpr
            ⟨_, taken, rfl⟩), still⟩
  · change some state = some (clients.replace state (clients.objects state))
    rw [clients.replace_objects]

end SmartFridge.Library.LockedCalls
