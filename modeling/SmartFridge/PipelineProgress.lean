import SmartFridge.PipelineShutdown

/-!
# The end of the reader

Once `execution_ends` is set, decoder and storer work off what is queued and
stop.  Each of their steps but a failed attempt to send takes from the work
that is left, and until both have stopped one of them can take a step.
-/

namespace SmartFridge.PipelineProgress

open SmartFridge.Library
open SmartFridge.Library.Runs
open SmartFridge.CJson
open SmartFridge.Pipeline
open SmartFridge.PipelineConservation
open SmartFridge.PipelineShutdown
open SmartFridge.QueueRing
open SmartFridge.Reader (DbMode ProductNode)

variable {parse : CString → Option Json} {print : Json → CString}

/-! ## The work that is left -/

/-- The steps that the decoder takes before it asks for another node. -/
def decoderWork : Decoder → Nat
  | .stopped => 0
  | .empty => 1
  | .fetch => 2
  | .queueing _ _ => 5
  | .holding _ => 6

/-- The steps that the storer takes before it asks for another message. -/
def storerWork : Storer → Nat
  | .stopped => 0
  | .empty => 1
  | .fetch => 2
  | .holding _ => 3

/--
The work that is left.  A queued node costs the decoder a turn of its loop and
the storer one for the message; a queued message costs the storer one.
-/
def work (state : State) : Nat :=
  5 * state.idq.contents.length + decoderWork state.decoder +
    2 * state.prq.contents.length + storerWork state.storer

/-- An attempt to send that fails. -/
def isFailedSend : Event → Bool
  | .storerSend false => true
  | _ => false

/-- The flag is set, and so the scanner has ended. -/
structure Closing (state : State) : Prop where
  ending : Ending state
  ends : state.executionEnds = true

theorem Closing.scanner {state : State} (closing : Closing state) :
    state.scanner = .ended :=
  closing.ending.ends closing.ends

/-! ## Steps -/

section Steps

variable {state next : State} {event : Event}

/-- The scanner takes no step behind its end. -/
theorem Closing.not_scan (closing : Closing state)
    (stepped : step parse print state event = some next) : ¬ IsScan event :=
  fun scans =>
    (onlyScans_of_isScan scans stepped).running closing.scanner

theorem decoderGet_work (formed : state.idq.WellFormed)
    (stepped : decoderGet state = some next) : work next < work state := by
  unfold decoderGet at stepped
  split at stepped
  next fetching =>
    rcases get_contents formed with
      ⟨_, ⟨nothing, _⟩ | ⟨node, taken, contents⟩⟩
    · simp only [nothing] at stepped
      cases stepped
      simp only [work, fetching, decoderWork]
      omega
    · split at stepped
      next got idq same =>
        cases stepped
        rw [same] at contents
        have length := contents.length_eq
        rw [List.length_cons] at length
        simp only [work, fetching, decoderWork, length]
        omega
      next idq same =>
        rw [same] at taken
        cases taken
  next => cases stepped

theorem decoderReadEnds_work (ends : state.executionEnds = true)
    (stepped : decoderReadEnds state = some next) :
    work next < work state := by
  unfold decoderReadEnds at stepped
  split at stepped
  next waiting =>
    rw [if_pos ends] at stepped
    cases stepped
    simp only [work, State.logs, waiting, decoderWork]
    omega
  next => cases stepped

theorem decoderFormat_work (stepped : decoderFormat state = some next) :
    work next < work state := by
  unfold decoderFormat at stepped
  split at stepped
  next ident node held =>
    split at stepped
    · cases stepped
      simp only [work, held, decoderWork]
      omega
    · cases stepped
  next => cases stepped

theorem givesUp_work (ident : Nat) (entries : List LogEntry)
    (holds : 2 < decoderWork state.decoder) :
    work (state.givesUp ident entries) < work state := by
  have free : decoderWork .fetch = 2 := rfl
  simp only [work, State.givesUp, free]
  omega

theorem decoderDownload_work {download : Download} {now : CString}
    (stepped : decoderDownload parse print download now state = some next) :
    work next < work state := by
  unfold decoderDownload at stepped
  split at stepped
  next ident node held =>
    have holds : 2 < decoderWork state.decoder := by simp [held, decoderWork]
    split at stepped
    · cases stepped
    · split at stepped
      · cases stepped
        exact givesUp_work ident _ holds
      · split at stepped
        · cases stepped
        · cases stepped
          exact givesUp_work ident _ holds
        · cases stepped
          simp only [work, held, decoderWork]
          omega
  next => cases stepped

theorem decoderAdd_work (formed : state.prq.WellFormed)
    (stepped : decoderAdd state = some next) : work next < work state := by
  unfold decoderAdd at stepped
  split at stepped
  next message mode held =>
    rcases add_contents formed message with
      ⟨_, ⟨accepted, stored⟩ | ⟨refused, _⟩⟩
    · simp only [accepted, if_true] at stepped
      cases stepped
      have length := stored.length_eq
      rw [List.length_cons] at length
      simp only [work, held, decoderWork, length]
      omega
    · simp only [refused] at stepped
      cases stepped
      exact givesUp_work message.ident _ (by simp [held, decoderWork])
  next => cases stepped

theorem storerGet_work (formed : state.prq.WellFormed)
    (stepped : storerGet state = some next) : work next < work state := by
  unfold storerGet at stepped
  split at stepped
  next fetching =>
    rcases get_contents formed with
      ⟨_, ⟨nothing, _⟩ | ⟨data, taken, contents⟩⟩
    · simp only [nothing] at stepped
      cases stepped
      simp only [work, fetching, storerWork]
      omega
    · split at stepped
      next got prq same =>
        cases stepped
        rw [same] at contents
        have length := contents.length_eq
        rw [List.length_cons] at length
        simp only [work, fetching, storerWork, length]
        omega
      next prq same =>
        rw [same] at taken
        cases taken
  next => cases stepped

theorem storerReadEnds_work (ends : state.executionEnds = true)
    (stepped : storerReadEnds state = some next) : work next < work state := by
  unfold storerReadEnds at stepped
  split at stepped
  next waiting =>
    rw [if_pos ends] at stepped
    cases stepped
    simp only [work, State.logs, waiting, storerWork]
    omega
  next => cases stepped

/-- A delivery takes from the work, and a failure keeps it. -/
theorem storerSend_work {delivered : Bool}
    (stepped : storerSend delivered state = some next) :
    if delivered then work next < work state else work next = work state := by
  unfold storerSend at stepped
  split at stepped
  next data held =>
    cases delivered with
    | true =>
        cases stepped
        simp only [if_true, work, held, storerWork]
        omega
    | false =>
        cases stepped
        rfl
  next => cases stepped

theorem work_decreases (closing : Closing state)
    (stepped : step parse print state event = some next)
    (succeeds : isFailedSend event = false) : work next < work state := by
  have noScan := closing.not_scan stepped
  cases event with
  | scan symbol => exact absurd trivial noScan
  | receive msg => exact absurd trivial noScan
  | readLine => exact absurd trivial noScan
  | closeCamera => exact absurd trivial noScan
  | switchMode => exact absurd trivial noScan
  | setExecutionEnds =>
      change setExecutionEnds state = some next at stepped
      rw [setExecutionEnds, closing.scanner] at stepped
      cases stepped
  | decoderGet => exact decoderGet_work closing.ending.idqFormed stepped
  | decoderReadEnds => exact decoderReadEnds_work closing.ends stepped
  | decoderFormat => exact decoderFormat_work stepped
  | decoderDownload download now => exact decoderDownload_work stepped
  | decoderAdd => exact decoderAdd_work closing.ending.prqFormed stepped
  | storerGet => exact storerGet_work closing.ending.prqFormed stepped
  | storerReadEnds => exact storerReadEnds_work closing.ends stepped
  | storerSend delivered =>
      cases delivered with
      | true => simpa using storerSend_work stepped
      | false => cases succeeds

theorem work_kept (stepped : step parse print state event = some next)
    (fails : isFailedSend event = true) : work next ≤ work state := by
  cases event with
  | storerSend delivered =>
      cases delivered with
      | true => cases fails
      | false => exact (by simpa using storerSend_work stepped : _ = _).le
  | _ => cases fails

/-- The flag is never reset. -/
theorem Closing.step (closing : Closing state)
    (stepped : step parse print state event = some next) : Closing next := by
  refine ⟨ending_step closing.ending stepped, ?_⟩
  have noScan := closing.not_scan stepped
  cases event with
  | scan symbol => exact absurd trivial noScan
  | receive msg => exact absurd trivial noScan
  | readLine => exact absurd trivial noScan
  | closeCamera => exact absurd trivial noScan
  | switchMode => exact absurd trivial noScan
  | setExecutionEnds =>
      rw [setExecutionEnds_eq stepped]
  | decoderGet =>
      exact (decoderGet_works stepped).executionEnds.trans closing.ends
  | decoderReadEnds =>
      exact (decoderReadEnds_reads stepped).executionEnds.trans closing.ends
  | decoderFormat =>
      exact (decoderFormat_works stepped).executionEnds.trans closing.ends
  | decoderDownload download now =>
      exact (decoderDownload_works stepped).executionEnds.trans closing.ends
  | decoderAdd =>
      exact
        (decoderAdd_adds closing.ending.prqFormed
          stepped).executionEnds.trans closing.ends
  | storerGet =>
      exact (storerGet_works stepped).executionEnds.trans closing.ends
  | storerReadEnds =>
      exact (storerReadEnds_reads stepped).executionEnds.trans closing.ends
  | storerSend delivered =>
      exact (storerSend_works stepped).executionEnds.trans closing.ends

/-! ## Until both have stopped -/

/-- Both threads have left their loops, and `main` can join them. -/
structure Stopped (state : State) : Prop where
  decoder : state.decoder = .stopped
  storer : state.storer = .stopped

theorem decoderGet_possible (fetching : state.decoder = .fetch) :
    ∃ next, decoderGet state = some next := by
  simp only [decoderGet, fetching]
  split
  · exact ⟨_, rfl⟩
  · exact ⟨_, rfl⟩

theorem decoderReadEnds_possible (waiting : state.decoder = .empty) :
    ∃ next, decoderReadEnds state = some next := by
  simp only [decoderReadEnds, waiting]
  split
  · exact ⟨_, rfl⟩
  · exact ⟨_, rfl⟩

theorem decoderFormat_possible {node : Tagged ProductNode}
    (held : state.decoder = .holding node)
    (removes : node.value.mode = .remove) :
    ∃ next, decoderFormat state = some next := by
  simp only [decoderFormat, held]
  exact ⟨_, if_pos removes⟩

variable (parse print) in
/-- Whatever the document would be, its download may fail. -/
theorem decoderDownload_possible {node : Tagged ProductNode}
    (held : state.decoder = .holding node) (adds : node.value.mode ≠ .remove)
    (now : CString) :
    ∃ next, decoderDownload parse print .failed now state = some next := by
  simp only [decoderDownload, held]
  exact ⟨_, if_neg adds⟩

theorem decoderAdd_possible {message : Tagged CString} {mode : DbMode}
    (held : state.decoder = .queueing message mode) :
    ∃ next, decoderAdd state = some next := by
  simp only [decoderAdd, held]
  split
  · exact ⟨_, rfl⟩
  · exact ⟨_, rfl⟩

theorem storerGet_possible (fetching : state.storer = .fetch) :
    ∃ next, storerGet state = some next := by
  simp only [storerGet, fetching]
  split
  · exact ⟨_, rfl⟩
  · exact ⟨_, rfl⟩

theorem storerSend_possible {data : Tagged CString}
    (held : state.storer = .holding data) :
    ∃ next, storerSend true state = some next := by
  simp only [storerSend, held]
  exact ⟨_, rfl⟩

theorem storerReadEnds_possible (waiting : state.storer = .empty) :
    ∃ next, storerReadEnds state = some next := by
  simp only [storerReadEnds, waiting]
  split
  · exact ⟨_, rfl⟩
  · exact ⟨_, rfl⟩

variable (parse print)

/-- A decoder that has not stopped can take a step; a download may fail. -/
theorem decoder_possible (runs : state.decoder ≠ .stopped) :
    ∃ event next, isFailedSend event = false ∧
      Pipeline.step parse print state event = some next := by
  cases point : state.decoder with
  | fetch =>
      obtain ⟨next, stepped⟩ := decoderGet_possible point
      exact ⟨.decoderGet, next, rfl, stepped⟩
  | empty =>
      obtain ⟨next, stepped⟩ := decoderReadEnds_possible point
      exact ⟨.decoderReadEnds, next, rfl, stepped⟩
  | holding node =>
      by_cases removes : node.value.mode = .remove
      · obtain ⟨next, stepped⟩ := decoderFormat_possible point removes
        exact ⟨.decoderFormat, next, rfl, stepped⟩
      · obtain ⟨next, stepped⟩ :=
          decoderDownload_possible parse print point removes .empty
        exact ⟨.decoderDownload .failed .empty, next, rfl, stepped⟩
  | queueing message mode =>
      obtain ⟨next, stepped⟩ := decoderAdd_possible point
      exact ⟨.decoderAdd, next, rfl, stepped⟩
  | stopped => exact absurd point runs

/-- A storer that has not stopped can take a step that does not fail. -/
theorem storer_possible (runs : state.storer ≠ .stopped) :
    ∃ event next, isFailedSend event = false ∧
      Pipeline.step parse print state event = some next := by
  cases point : state.storer with
  | fetch =>
      obtain ⟨next, stepped⟩ := storerGet_possible point
      exact ⟨.storerGet, next, rfl, stepped⟩
  | empty =>
      obtain ⟨next, stepped⟩ := storerReadEnds_possible point
      exact ⟨.storerReadEnds, next, rfl, stepped⟩
  | holding data =>
      obtain ⟨next, stepped⟩ := storerSend_possible point
      exact ⟨.storerSend true, next, rfl, stepped⟩
  | stopped => exact absurd point runs

theorem step_possible (runs : ¬ Stopped state) :
    ∃ event next, isFailedSend event = false ∧
      Pipeline.step parse print state event = some next := by
  by_cases decoder : state.decoder = .stopped
  · have storer : state.storer ≠ .stopped := fun storer =>
      runs ⟨decoder, storer⟩
    exact storer_possible parse print storer
  · exact decoder_possible parse print decoder

/-- Behind the end nothing happens any more. -/
theorem Stopped.final (stopped : Stopped state) (closing : Closing state)
    (event : Event) : Pipeline.step parse print state event = none := by
  cases result : Pipeline.step parse print state event with
  | none => rfl
  | some next =>
      have noScan := closing.not_scan result
      cases event with
      | scan symbol => exact absurd trivial noScan
      | receive msg => exact absurd trivial noScan
      | readLine => exact absurd trivial noScan
      | closeCamera => exact absurd trivial noScan
      | switchMode => exact absurd trivial noScan
      | setExecutionEnds =>
          change setExecutionEnds state = some next at result
          rw [setExecutionEnds, closing.scanner] at result
          cases result
      | decoderGet =>
          exact absurd stopped.decoder (decoderGet_works result).before
      | decoderReadEnds =>
          have before := (decoderReadEnds_reads result).before
          rw [stopped.decoder] at before
          cases before
      | decoderFormat =>
          exact absurd stopped.decoder (decoderFormat_works result).before
      | decoderDownload download now =>
          exact absurd stopped.decoder (decoderDownload_works result).before
      | decoderAdd =>
          exact
            absurd stopped.decoder
              (decoderAdd_adds closing.ending.prqFormed result).before
      | storerGet => exact absurd stopped.storer (storerGet_works result).before
      | storerReadEnds =>
          have before := (storerReadEnds_reads result).before
          rw [stopped.storer] at before
          cases before
      | storerSend delivered =>
          exact absurd stopped.storer (storerSend_works result).before

end Steps

/-! ## The size of the queues -/

section Sizes

variable {α : Type}

theorem add_size (q : Queue α) (value : Option α) :
    (sfQueueAdd q value).2.size = q.size := by
  unfold sfQueueAdd
  split
  · split
    · rfl
    · rfl
  · rfl

theorem get_size (q : Queue α) : (sfQueueGet q).2.size = q.size := by
  unfold sfQueueGet
  split
  · split
    · rfl
    · rfl
  · rfl

theorem contents_length_le {q : Queue α} (formed : q.WellFormed) :
    q.contents.length ≤ q.size := by
  obtain ⟨values, represents⟩ := formed
  rw [represents.contents_perm.length_eq]
  exact represents.fits

end Sizes

/-- The queues keep their sizes. -/
structure SameSizes (state next : State) : Prop where
  idq : next.idq.size = state.idq.size
  prq : next.prq.size = state.prq.size

section SizeSteps

variable {state next : State} {event : Event}

theorem offer_sizes (node : ProductNode) {state moved : State}
    (same : SameSizes state moved) : SameSizes state (offer node moved) := by
  have size := add_size moved.idq (some ⟨moved.accepted.length, node⟩)
  unfold offer
  split
  next result idq added =>
    rw [added] at size
    split
    · exact ⟨size.trans same.idq, same.prq⟩
    · exact ⟨size.trans same.idq, same.prq⟩

theorem scan_sizes {symbol : CString}
    (stepped : scan symbol state = some next) :
    SameSizes state next := by
  unfold scan at stepped
  split at stepped
  · cases stepped
    exact offer_sizes _ ⟨rfl, rfl⟩
  · cases stepped

theorem receive_sizes {msg : CString}
    (stepped : receive msg state = some next) :
    SameSizes state next := by
  unfold receive at stepped
  split at stepped
  · split at stepped
    · cases stepped
      exact offer_sizes _ ⟨rfl, rfl⟩
    · cases stepped
      exact ⟨rfl, rfl⟩
  · cases stepped

theorem readLine_sizes (stepped : readLine state = some next) :
    SameSizes state next := by
  unfold readLine at stepped
  split at stepped
  · simp only at stepped
    split at stepped
    · cases stepped
      exact offer_sizes _ ⟨rfl, rfl⟩
    · cases stepped
      exact ⟨rfl, rfl⟩
  · cases stepped
    exact ⟨rfl, rfl⟩
  · cases stepped
    exact ⟨rfl, rfl⟩
  · cases stepped

theorem decoderGet_sizes (stepped : decoderGet state = some next) :
    SameSizes state next := by
  have size := get_size state.idq
  unfold decoderGet at stepped
  split at stepped
  · split at stepped
    next node idq got =>
      cases stepped
      rw [got] at size
      exact ⟨size, rfl⟩
    next idq got =>
      cases stepped
      rw [got] at size
      exact ⟨size, rfl⟩
  · cases stepped

theorem decoderDownload_sizes {download : Download} {now : CString}
    (stepped : decoderDownload parse print download now state = some next) :
    SameSizes state next := by
  unfold decoderDownload at stepped
  split at stepped
  · split at stepped
    · cases stepped
    · split at stepped
      · cases stepped
        exact ⟨rfl, rfl⟩
      · split at stepped <;> cases stepped
        · exact ⟨rfl, rfl⟩
        · exact ⟨rfl, rfl⟩
  · cases stepped

theorem decoderAdd_sizes (stepped : decoderAdd state = some next) :
    SameSizes state next := by
  unfold decoderAdd at stepped
  split at stepped
  next message mode held =>
    have size := add_size state.prq (some message)
    split at stepped
    next result prq added =>
      rw [added] at size
      split at stepped
      · cases stepped
        exact ⟨rfl, size⟩
      · cases stepped
        exact ⟨rfl, size⟩
  next => cases stepped

theorem storerGet_sizes (stepped : storerGet state = some next) :
    SameSizes state next := by
  have size := get_size state.prq
  unfold storerGet at stepped
  split at stepped
  · split at stepped
    next data prq got =>
      cases stepped
      rw [got] at size
      exact ⟨rfl, size⟩
    next prq got =>
      cases stepped
      rw [got] at size
      exact ⟨rfl, size⟩
  · cases stepped

theorem storerSend_sizes {delivered : Bool}
    (stepped : storerSend delivered state = some next) :
    SameSizes state next := by
  unfold storerSend at stepped
  split at stepped
  · split at stepped
    · cases stepped
      exact ⟨rfl, rfl⟩
    · cases stepped
      exact ⟨rfl, rfl⟩
  · cases stepped

theorem step_sizes (stepped : step parse print state event = some next) :
    SameSizes state next := by
  cases event with
  | scan symbol => exact scan_sizes stepped
  | receive msg => exact receive_sizes stepped
  | readLine => exact readLine_sizes stepped
  | closeCamera =>
      change closeCamera state = some next at stepped
      unfold closeCamera at stepped
      split at stepped <;> cases stepped
      exact ⟨rfl, rfl⟩
  | switchMode =>
      change switchMode state = some next at stepped
      unfold switchMode at stepped
      split at stepped <;> cases stepped
      exact ⟨rfl, rfl⟩
  | setExecutionEnds =>
      rw [setExecutionEnds_eq stepped]
      exact ⟨rfl, rfl⟩
  | decoderGet => exact decoderGet_sizes stepped
  | decoderReadEnds =>
      have reads := decoderReadEnds_reads stepped
      exact ⟨congrArg Queue.size reads.idq, congrArg Queue.size reads.prq⟩
  | decoderFormat =>
      change decoderFormat state = some next at stepped
      unfold decoderFormat at stepped
      split at stepped
      · split at stepped <;> cases stepped
        exact ⟨rfl, rfl⟩
      · cases stepped
  | decoderDownload download now => exact decoderDownload_sizes stepped
  | decoderAdd => exact decoderAdd_sizes stepped
  | storerGet => exact storerGet_sizes stepped
  | storerReadEnds =>
      have reads := storerReadEnds_reads stepped
      exact ⟨congrArg Queue.size reads.idq, congrArg Queue.size reads.prq⟩
  | storerSend delivered => exact storerSend_sizes stepped

end SizeSteps

/-! ## The shutdown -/

/-- What holds of the reader from its start on, about its end. -/
structure Bounded (idSize prSize : Int) (state : State) : Prop where
  ending : Ending state
  idSize : state.idq.size = idSize.toNat
  prSize : state.prq.size = prSize.toNat

theorem bounded_start {idSize prSize : Int}
    (idLeast : minQueueSize ≤ idSize) (idMost : idSize ≤ maxQueueSize)
    (prLeast : minQueueSize ≤ prSize) (prMost : prSize ≤ maxQueueSize)
    (scanner : Scanner) :
    Bounded idSize prSize (start idSize prSize scanner) where
  ending :=
    { idqFormed := ⟨[], (set_represents _ idLeast idMost).2.2⟩
      prqFormed := ⟨[], (set_represents _ prLeast prMost).2.2⟩
      ends := by simp [start]
      decoderStopped := by simp [start]
      storerStopped := by simp [start] }
  idSize := by
    simp only [start, sfQueueSet, if_neg (Int.not_lt.mpr idLeast),
      if_neg (Int.not_lt.mpr idMost)]
  prSize := by
    simp only [start, sfQueueSet, if_neg (Int.not_lt.mpr prLeast),
      if_neg (Int.not_lt.mpr prMost)]

theorem Bounded.step {idSize prSize : Int} {state next : State} {event : Event}
    (bounded : Bounded idSize prSize state)
    (stepped : step parse print state event = some next) :
    Bounded idSize prSize next where
  ending := ending_step bounded.ending stepped
  idSize := (step_sizes stepped).idq.trans bounded.idSize
  prSize := (step_sizes stepped).prq.trans bounded.prSize

/-- The work that is left is bounded by the sizes in the configuration. -/
theorem Bounded.work_le {idSize prSize : Int} {state : State}
    (bounded : Bounded idSize prSize state) :
    work state ≤ 5 * idSize.toNat + 2 * prSize.toNat + 9 := by
  have idLength := contents_length_le bounded.ending.idqFormed
  have prLength := contents_length_le bounded.ending.prqFormed
  rw [bounded.idSize] at idLength
  rw [bounded.prSize] at prLength
  have decoder : decoderWork state.decoder ≤ 6 := by
    cases state.decoder <;> simp [decoderWork]
  have storer : storerWork state.storer ≤ 3 := by
    cases state.storer <;> simp [storerWork]
  simp only [work]
  omega

/--
Once `execution_ends` is set, decoder and storer take at most as many steps,
beside failed attempts to send, as the sizes of the queues allow; nothing can
happen any more exactly when both have stopped; and they can stop.
-/
theorem shutdown_terminates {idSize prSize : Int}
    (idLeast : minQueueSize ≤ idSize) (idMost : idSize ≤ maxQueueSize)
    (prLeast : minQueueSize ≤ prSize) (prMost : prSize ≤ maxQueueSize)
    {scanner : Scanner} {events : List Event} {state : State}
    (reached :
      run (step parse print) (start idSize prSize scanner) events = some state)
    (ends : state.executionEnds = true) :
    (∀ later final, run (step parse print) state later = some final →
      later.length ≤
          5 * idSize.toNat + 2 * prSize.toNat + 9 +
            later.countP isFailedSend ∧
        ((∀ event, step parse print final event = none) ↔ Stopped final)) ∧
      ∃ later final, later.countP isFailedSend = 0 ∧
        run (step parse print) state later = some final ∧ Stopped final := by
  have bounded : Bounded idSize prSize state :=
    run_invariant (Bounded idSize prSize)
      (fun _ _ _ before stepped => before.step stepped)
      (bounded_start idLeast idMost prLeast prMost scanner) reached
  have closing : Closing state := ⟨bounded.ending, ends⟩
  constructor
  · intro later final continued
    have length :=
      length_le_of_decreases Closing work isFailedSend
        (fun _ _ _ before stepped => before.step stepped)
        (fun _ _ _ before stepped succeeds =>
          work_decreases before stepped succeeds)
        (fun _ _ _ _ stepped fails => work_kept stepped fails)
        closing continued
    have atMost := bounded.work_le
    have closed : Closing final :=
      run_invariant Closing (fun _ _ _ before stepped => before.step stepped)
        closing continued
    refine ⟨by omega, ?_, ?_⟩
    · intro nothing
      by_contra runs
      obtain ⟨event, next, _, stepped⟩ := step_possible parse print runs
      rw [nothing event] at stepped
      cases stepped
    · intro stopped event
      exact stopped.final parse print closed event
  · exact
      exists_run_of_decreases Closing work isFailedSend Stopped
        (fun _ _ _ before stepped => before.step stepped)
        (fun _ _ _ before stepped succeeds =>
          work_decreases before stepped succeeds)
        (fun _ _ runs => step_possible parse print runs)
        closing

/-- A code is scanned from a test file that ends behind it. -/
theorem shutdown_terminates_one_code :
    ∃ state,
      run (step (Json.parse Json.standardRaw) Json.printUnformatted)
          (start 5 5
            (.file [.lit "8480017439482"] [.lit "8480017439482"] false))
          [.readLine, .readLine, .setExecutionEnds] =
        some state ∧
      (∀ later final,
        run (step (Json.parse Json.standardRaw) Json.printUnformatted) state
            later =
          some final →
        later.length ≤
            5 * (5 : Int).toNat + 2 * (5 : Int).toNat + 9 +
              later.countP isFailedSend ∧
          ((∀ event,
              step (Json.parse Json.standardRaw) Json.printUnformatted final
                event =
              none) ↔
            Stopped final)) ∧
        ∃ later final, later.countP isFailedSend = 0 ∧
          run (step (Json.parse Json.standardRaw) Json.printUnformatted) state
              later =
            some final ∧
          Stopped final := by
  have possible :
      (run (step (Json.parse Json.standardRaw) Json.printUnformatted)
          (start 5 5
            (.file [.lit "8480017439482"] [.lit "8480017439482"] false))
          [.readLine, .readLine, .setExecutionEnds]).map State.executionEnds =
        some true := by
    decide
  obtain ⟨state, reached, ends⟩ := Option.map_eq_some_iff.mp possible
  exact
    ⟨state, reached,
      shutdown_terminates (by decide) (by decide) (by decide) (by decide)
        reached ends⟩

end SmartFridge.PipelineProgress
