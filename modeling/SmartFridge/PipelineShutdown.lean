import SmartFridge.PipelineConservation
import SmartFridge.ProductRoundTrip

/-!
# The end of a test run

The decoder and the storer stop after two separate observations: their queue
was empty, and later the flag was set.  A run that ends loses nothing exactly
if each of them stops with an empty queue and the decoder adds nothing after
the storer has stopped.
-/

namespace SmartFridge.PipelineShutdown

open SmartFridge.Library
open SmartFridge.Pipeline
open SmartFridge.PipelineConservation
open SmartFridge.ProductDecoder
open SmartFridge.QueueRing
open SmartFridge.Reader

variable {parse : CString → Option Json} {print : Json → CString}

/-- No stopped party has left anything in its queue. -/
structure NothingLeft (state : State) : Prop where
  idQueue : state.decoder = .stopped → state.idq.contents = []
  productQueue : state.storer = .stopped → state.prq.contents = []

/-- The step does not leave anything behind. -/
def LeavesNothing (state : State) : Event → Prop
  | .decoderReadEnds => state.executionEnds = true → state.idq.contents = []
  | .storerReadEnds => state.executionEnds = true → state.prq.contents = []
  | .decoderAdd => state.storer ≠ .stopped
  | _ => True

/-- The flag is set when the scanner has ended, and only then parties stop. -/
structure Ending (state : State) : Prop where
  idqFormed : state.idq.WellFormed
  prqFormed : state.prq.WellFormed
  ends : state.executionEnds = true → state.scanner = .ended
  decoderStopped : state.decoder = .stopped → state.executionEnds = true
  storerStopped : state.storer = .stopped → state.executionEnds = true

/-! ## Steps of the scanner -/

/-- The steps that the scanner takes before it returns. -/
def IsScan : Event → Prop
  | .scan _ => True
  | .receive _ => True
  | .readLine => True
  | .closeCamera => True
  | .switchMode => True
  | _ => False

/-- What a step of the scanner leaves as it is. -/
structure OnlyScans (state next : State) : Prop where
  running : state.scanner ≠ .ended
  prq : next.prq = state.prq
  executionEnds : next.executionEnds = state.executionEnds
  decoder : next.decoder = state.decoder
  storer : next.storer = state.storer

theorem offer_onlyScans {state moved : State} (node : ProductNode)
    (running : state.scanner ≠ .ended)
    (prq : moved.prq = state.prq)
    (executionEnds : moved.executionEnds = state.executionEnds)
    (decoder : moved.decoder = state.decoder)
    (storer : moved.storer = state.storer) :
    OnlyScans state (offer node moved) := by
  unfold offer
  split
  next result idq _ =>
    split
    · exact ⟨running, prq, executionEnds, decoder, storer⟩
    · exact ⟨running, prq, executionEnds, decoder, storer⟩

theorem onlyScans_of_isScan {state next : State} {event : Event}
    (scans : IsScan event)
    (stepped : step parse print state event = some next) :
    OnlyScans state next := by
  cases event with
  | scan symbol =>
      change scan symbol state = some next at stepped
      unfold scan at stepped
      split at stepped
      next source =>
        cases stepped
        exact offer_onlyScans _ (by simp [source]) rfl rfl rfl rfl
      next => cases stepped
  | receive msg =>
      change receive msg state = some next at stepped
      unfold receive at stepped
      split at stepped
      next source =>
        split at stepped
        · cases stepped
          exact offer_onlyScans _ (by simp [source]) rfl rfl rfl rfl
        · cases stepped
          exact ⟨by simp [source], rfl, rfl, rfl, rfl⟩
      next => cases stepped
  | readLine =>
      change readLine state = some next at stepped
      unfold readLine at stepped
      split at stepped
      next whole line rest repeats source =>
        simp only at stepped
        split at stepped
        · cases stepped
          exact offer_onlyScans _ (by simp [source]) rfl rfl rfl rfl
        · cases stepped
          exact ⟨by simp [source], rfl, rfl, rfl, rfl⟩
      next whole source =>
        cases stepped
        exact ⟨by simp [source], rfl, rfl, rfl, rfl⟩
      next whole source =>
        cases stepped
        exact ⟨by simp [source], rfl, rfl, rfl, rfl⟩
      next => cases stepped
  | closeCamera =>
      change closeCamera state = some next at stepped
      unfold closeCamera at stepped
      split at stepped
      next source =>
        cases stepped
        exact ⟨by simp [source], rfl, rfl, rfl, rfl⟩
      next => cases stepped
  | switchMode =>
      change switchMode state = some next at stepped
      unfold switchMode at stepped
      split at stepped
      next source =>
        cases stepped
        exact ⟨by simp [source], rfl, rfl, rfl, rfl⟩
      next => cases stepped
  | _ => cases scans

/-! ## Steps of the decoder and of the storer -/

/-- A step of the decoder that neither stops it nor touches the messages. -/
structure DecoderWorks (state next : State) : Prop where
  before : state.decoder ≠ .stopped
  after : next.decoder ≠ .stopped
  prq : next.prq = state.prq
  executionEnds : next.executionEnds = state.executionEnds
  scanner : next.scanner = state.scanner
  storer : next.storer = state.storer

theorem decoderGet_works {state next : State}
    (stepped : decoderGet state = some next) : DecoderWorks state next := by
  unfold decoderGet at stepped
  split at stepped
  next fetching =>
    split at stepped
    · cases stepped
      exact ⟨by simp [fetching], by simp, rfl, rfl, rfl, rfl⟩
    · cases stepped
      exact ⟨by simp [fetching], by simp, rfl, rfl, rfl, rfl⟩
  next => cases stepped

theorem decoderFormat_works {state next : State}
    (stepped : decoderFormat state = some next) : DecoderWorks state next := by
  unfold decoderFormat at stepped
  split at stepped
  next ident node held =>
    split at stepped
    · cases stepped
      exact ⟨by simp [held], by simp, rfl, rfl, rfl, rfl⟩
    · cases stepped
  next => cases stepped

theorem decoderDownload_works {state next : State}
    {download : Download} {now : CString}
    (stepped : decoderDownload parse print download now state = some next) :
    DecoderWorks state next := by
  unfold decoderDownload at stepped
  split at stepped
  next ident node held =>
    have before : state.decoder ≠ .stopped := by simp [held]
    split at stepped
    · cases stepped
    · split at stepped
      · cases stepped
        exact ⟨before, by simp [State.givesUp], rfl, rfl, rfl, rfl⟩
      · split at stepped
        · cases stepped
        · cases stepped
          exact ⟨before, by simp [State.givesUp], rfl, rfl, rfl, rfl⟩
        · cases stepped
          exact ⟨before, by simp, rfl, rfl, rfl, rfl⟩
  next => cases stepped

/-- After an addition the queue of messages is not empty. -/
structure DecoderAdds (state next : State) : Prop where
  before : state.decoder ≠ .stopped
  after : next.decoder ≠ .stopped
  filled : next.prq.contents ≠ []
  executionEnds : next.executionEnds = state.executionEnds
  scanner : next.scanner = state.scanner
  storer : next.storer = state.storer

theorem decoderAdd_adds {state next : State} (formed : state.prq.WellFormed)
    (stepped : decoderAdd state = some next) : DecoderAdds state next := by
  unfold decoderAdd at stepped
  split at stepped
  next message mode held =>
    have before : state.decoder ≠ .stopped := by simp [held]
    rcases add_contents formed message with
      ⟨_, ⟨accepted, stored⟩ | ⟨refused, full⟩⟩
    · simp only [accepted, if_true] at stepped
      cases stepped
      refine ⟨before, by simp, ?_, rfl, rfl, rfl⟩
      intro empty
      change (sfQueueAdd state.prq (some message)).2.contents = [] at empty
      rw [empty] at stored
      exact List.cons_ne_nil _ _ stored.nil_eq.symm
    · simp only [refused] at stepped
      cases stepped
      exact ⟨before, by simp [State.givesUp], full, rfl, rfl, rfl⟩
  next => cases stepped

/-- The decoder stops or goes on, as the flag says. -/
structure DecoderReads (state next : State) : Prop where
  before : state.decoder = .empty
  after : next.decoder = if state.executionEnds then .stopped else .fetch
  idq : next.idq = state.idq
  prq : next.prq = state.prq
  executionEnds : next.executionEnds = state.executionEnds
  scanner : next.scanner = state.scanner
  storer : next.storer = state.storer

theorem decoderReadEnds_reads {state next : State}
    (stepped : decoderReadEnds state = some next) : DecoderReads state next := by
  unfold decoderReadEnds at stepped
  split at stepped
  next waiting =>
    split at stepped
    next ends =>
      cases stepped
      exact ⟨waiting, by simp [State.logs, ends], rfl, rfl, rfl, rfl, rfl⟩
    next ends =>
      cases stepped
      exact ⟨waiting, by simp [ends], rfl, rfl, rfl, rfl, rfl⟩
  next => cases stepped

/-- A step of the storer that does not stop it. -/
structure StorerWorks (state next : State) : Prop where
  before : state.storer ≠ .stopped
  after : next.storer ≠ .stopped
  idq : next.idq = state.idq
  executionEnds : next.executionEnds = state.executionEnds
  scanner : next.scanner = state.scanner
  decoder : next.decoder = state.decoder

theorem storerGet_works {state next : State}
    (stepped : storerGet state = some next) : StorerWorks state next := by
  unfold storerGet at stepped
  split at stepped
  next fetching =>
    split at stepped
    · cases stepped
      exact ⟨by simp [fetching], by simp, rfl, rfl, rfl, rfl⟩
    · cases stepped
      exact ⟨by simp [fetching], by simp, rfl, rfl, rfl, rfl⟩
  next => cases stepped

theorem storerSend_works {state next : State} {delivered : Bool}
    (stepped : storerSend delivered state = some next) :
    StorerWorks state next := by
  unfold storerSend at stepped
  split at stepped
  next data held =>
    split at stepped
    · cases stepped
      exact ⟨by simp [held], by simp, rfl, rfl, rfl, rfl⟩
    · cases stepped
      exact ⟨by simp [held], by simp [State.logs, held], rfl, rfl, rfl, rfl⟩
  next => cases stepped

/-- The storer stops or goes on, as the flag says. -/
structure StorerReads (state next : State) : Prop where
  before : state.storer = .empty
  after : next.storer = if state.executionEnds then .stopped else .fetch
  idq : next.idq = state.idq
  prq : next.prq = state.prq
  executionEnds : next.executionEnds = state.executionEnds
  scanner : next.scanner = state.scanner
  decoder : next.decoder = state.decoder

theorem storerReadEnds_reads {state next : State}
    (stepped : storerReadEnds state = some next) : StorerReads state next := by
  unfold storerReadEnds at stepped
  split at stepped
  next waiting =>
    split at stepped
    next ends =>
      cases stepped
      exact ⟨waiting, by simp [State.logs, ends], rfl, rfl, rfl, rfl, rfl⟩
    next ends =>
      cases stepped
      exact ⟨waiting, by simp [ends], rfl, rfl, rfl, rfl, rfl⟩
  next => cases stepped

theorem setExecutionEnds_eq {state next : State}
    (stepped : setExecutionEnds state = some next) :
    next = { state with scanner := .ended, executionEnds := true } := by
  unfold setExecutionEnds at stepped
  split at stepped
  · cases stepped
    rfl
  · cases stepped

/-! ## One step -/

/-- Steps that leave the flag alone stop parties only if it is set. -/
theorem ending_of_same_flag {state next : State} (ending : Ending state)
    (effect : Effect parse print state next)
    (executionEnds : next.executionEnds = state.executionEnds)
    (scanner : next.scanner = state.scanner)
    (decoder : next.decoder = .stopped → state.executionEnds = true)
    (storer : next.storer = .stopped → state.executionEnds = true) :
    Ending next where
  idqFormed := idqFormed_effect ending.idqFormed effect
  prqFormed := prqFormed_effect ending.prqFormed effect
  ends := fun ends => scanner.trans (ending.ends (executionEnds ▸ ends))
  decoderStopped := fun stopped => executionEnds.trans (decoder stopped)
  storerStopped := fun stopped => executionEnds.trans (storer stopped)

theorem ending_of_onlyScans {state next : State} (ending : Ending state)
    (effect : Effect parse print state next) (only : OnlyScans state next) :
    Ending next := by
  have off : state.executionEnds ≠ true :=
    fun ends => only.running (ending.ends ends)
  exact
    { idqFormed := idqFormed_effect ending.idqFormed effect
      prqFormed := prqFormed_effect ending.prqFormed effect
      ends := fun ends => absurd (only.executionEnds ▸ ends) off
      decoderStopped := fun stopped =>
        absurd (ending.decoderStopped (only.decoder ▸ stopped)) off
      storerStopped := fun stopped =>
        absurd (ending.storerStopped (only.storer ▸ stopped)) off }

theorem ending_step {state next : State} {event : Event}
    (ending : Ending state)
    (stepped : step parse print state event = some next) : Ending next := by
  have effect := step_effect ending.idqFormed ending.prqFormed stepped
  have worked (works : DecoderWorks state next) : Ending next :=
    ending_of_same_flag ending effect works.executionEnds works.scanner
      (fun stopped => absurd stopped works.after)
      (fun stopped => ending.storerStopped (works.storer ▸ stopped))
  have stored (works : StorerWorks state next) : Ending next :=
    ending_of_same_flag ending effect works.executionEnds works.scanner
      (fun stopped => ending.decoderStopped (works.decoder ▸ stopped))
      (fun stopped => absurd stopped works.after)
  cases event with
  | decoderGet => exact worked (decoderGet_works stepped)
  | decoderFormat => exact worked (decoderFormat_works stepped)
  | decoderDownload download now =>
      exact worked (decoderDownload_works stepped)
  | decoderAdd =>
      have adds := decoderAdd_adds ending.prqFormed stepped
      exact ending_of_same_flag ending effect adds.executionEnds adds.scanner
        (fun stopped => absurd stopped adds.after)
        (fun stopped => ending.storerStopped (adds.storer ▸ stopped))
  | decoderReadEnds =>
      have reads := decoderReadEnds_reads stepped
      apply ending_of_same_flag ending effect reads.executionEnds reads.scanner
      · intro stopped
        by_contra running
        rw [reads.after, if_neg running] at stopped
        cases stopped
      · exact fun stopped => ending.storerStopped (reads.storer ▸ stopped)
  | storerGet => exact stored (storerGet_works stepped)
  | storerSend delivered => exact stored (storerSend_works stepped)
  | storerReadEnds =>
      have reads := storerReadEnds_reads stepped
      apply ending_of_same_flag ending effect reads.executionEnds reads.scanner
      · exact fun stopped => ending.decoderStopped (reads.decoder ▸ stopped)
      · intro stopped
        by_contra running
        rw [reads.after, if_neg running] at stopped
        cases stopped
  | setExecutionEnds =>
      cases setExecutionEnds_eq stepped
      exact ⟨ending.idqFormed, ending.prqFormed, fun _ => rfl, fun _ => rfl,
        fun _ => rfl⟩
  | scan symbol =>
      exact ending_of_onlyScans ending effect
        (onlyScans_of_isScan (by exact trivial) stepped)
  | receive msg =>
      exact ending_of_onlyScans ending effect
        (onlyScans_of_isScan (by exact trivial) stepped)
  | readLine =>
      exact ending_of_onlyScans ending effect
        (onlyScans_of_isScan (by exact trivial) stepped)
  | closeCamera =>
      exact ending_of_onlyScans ending effect
        (onlyScans_of_isScan (by exact trivial) stepped)
  | switchMode =>
      exact ending_of_onlyScans ending effect
        (onlyScans_of_isScan (by exact trivial) stepped)

theorem nothingLeft_of_onlyScans {state next : State} (ending : Ending state)
    (only : OnlyScans state next) : NothingLeft state ∧ NothingLeft next := by
  have decoder : state.decoder ≠ .stopped := fun stopped =>
    only.running (ending.ends (ending.decoderStopped stopped))
  have storer : state.storer ≠ .stopped := fun stopped =>
    only.running (ending.ends (ending.storerStopped stopped))
  exact
    ⟨⟨fun stopped => absurd stopped decoder,
        fun stopped => absurd stopped storer⟩,
      ⟨fun stopped => absurd (only.decoder ▸ stopped) decoder,
        fun stopped => absurd (only.storer ▸ stopped) storer⟩⟩

theorem DecoderWorks.nothingLeft_iff {state next : State}
    (works : DecoderWorks state next) :
    NothingLeft next ↔ NothingLeft state := by
  constructor
  · intro left
    exact
      ⟨fun stopped => absurd stopped works.before,
        fun stopped => works.prq ▸ left.productQueue (works.storer ▸ stopped)⟩
  · intro left
    exact
      ⟨fun stopped => absurd stopped works.after,
        fun stopped => works.prq ▸ left.productQueue (works.storer ▸ stopped)⟩

theorem StorerWorks.nothingLeft_iff {state next : State}
    (works : StorerWorks state next) :
    NothingLeft next ↔ NothingLeft state := by
  constructor
  · intro left
    exact
      ⟨fun stopped => works.idq ▸ left.idQueue (works.decoder ▸ stopped),
        fun stopped => absurd stopped works.before⟩
  · intro left
    exact
      ⟨fun stopped => works.idq ▸ left.idQueue (works.decoder ▸ stopped),
        fun stopped => absurd stopped works.after⟩

theorem DecoderReads.nothingLeft_iff {state next : State}
    (reads : DecoderReads state next) (left : NothingLeft state) :
    NothingLeft next ↔
      (state.executionEnds = true → state.idq.contents = []) := by
  constructor
  · intro nextLeft ends
    have stopped : next.decoder = .stopped := by
      rw [reads.after, if_pos ends]
    exact reads.idq ▸ nextLeft.idQueue stopped
  · intro empty
    refine ⟨?_, ?_⟩
    · intro stopped
      by_cases ends : state.executionEnds = true
      · rw [reads.idq]
        exact empty ends
      · rw [reads.after, if_neg ends] at stopped
        cases stopped
    · exact fun stopped =>
        reads.prq ▸ left.productQueue (reads.storer ▸ stopped)

theorem StorerReads.nothingLeft_iff {state next : State}
    (reads : StorerReads state next) (left : NothingLeft state) :
    NothingLeft next ↔
      (state.executionEnds = true → state.prq.contents = []) := by
  constructor
  · intro nextLeft ends
    have stopped : next.storer = .stopped := by
      rw [reads.after, if_pos ends]
    exact reads.prq ▸ nextLeft.productQueue stopped
  · intro empty
    refine ⟨?_, ?_⟩
    · exact fun stopped =>
        reads.idq ▸ left.idQueue (reads.decoder ▸ stopped)
    · intro stopped
      by_cases ends : state.executionEnds = true
      · rw [reads.prq]
        exact empty ends
      · rw [reads.after, if_neg ends] at stopped
        cases stopped

theorem DecoderAdds.nothingLeft_iff {state next : State}
    (adds : DecoderAdds state next) :
    NothingLeft next ↔ state.storer ≠ .stopped := by
  constructor
  · intro left stopped
    exact adds.filled (left.productQueue (adds.storer.trans stopped))
  · intro running
    exact
      ⟨fun stopped => absurd stopped adds.after,
        fun stopped => absurd (adds.storer ▸ stopped) running⟩

/-- A step leaves nothing behind exactly if it meets the condition. -/
theorem nothingLeft_step_iff {state next : State} {event : Event}
    (ending : Ending state) (left : NothingLeft state)
    (stepped : step parse print state event = some next) :
    NothingLeft next ↔ LeavesNothing state event := by
  have same (iff : NothingLeft next ↔ NothingLeft state) :
      NothingLeft next ↔ True :=
    iff.trans (iff_true_intro left)
  have scanned (only : OnlyScans state next) : NothingLeft next ↔ True :=
    iff_true_intro (nothingLeft_of_onlyScans ending only).2
  cases event with
  | decoderGet => exact same (decoderGet_works stepped).nothingLeft_iff
  | decoderFormat => exact same (decoderFormat_works stepped).nothingLeft_iff
  | decoderDownload download now =>
      exact same (decoderDownload_works stepped).nothingLeft_iff
  | decoderAdd => exact (decoderAdd_adds ending.prqFormed stepped).nothingLeft_iff
  | decoderReadEnds =>
      exact (decoderReadEnds_reads stepped).nothingLeft_iff left
  | storerGet => exact same (storerGet_works stepped).nothingLeft_iff
  | storerSend delivered => exact same (storerSend_works stepped).nothingLeft_iff
  | storerReadEnds => exact (storerReadEnds_reads stepped).nothingLeft_iff left
  | setExecutionEnds =>
      cases setExecutionEnds_eq stepped
      exact iff_true_intro ⟨left.idQueue, left.productQueue⟩
  | scan symbol => exact scanned (onlyScans_of_isScan (by exact trivial) stepped)
  | receive msg => exact scanned (onlyScans_of_isScan (by exact trivial) stepped)
  | readLine => exact scanned (onlyScans_of_isScan (by exact trivial) stepped)
  | closeCamera => exact scanned (onlyScans_of_isScan (by exact trivial) stepped)
  | switchMode => exact scanned (onlyScans_of_isScan (by exact trivial) stepped)

/-- What was left behind stays there. -/
theorem nothingLeft_before {state next : State} {event : Event}
    (ending : Ending state)
    (stepped : step parse print state event = some next)
    (left : NothingLeft next) : NothingLeft state := by
  have scanned (only : OnlyScans state next) : NothingLeft state :=
    (nothingLeft_of_onlyScans ending only).1
  cases event with
  | decoderGet => exact (decoderGet_works stepped).nothingLeft_iff.mp left
  | decoderFormat => exact (decoderFormat_works stepped).nothingLeft_iff.mp left
  | decoderDownload download now =>
      exact (decoderDownload_works stepped).nothingLeft_iff.mp left
  | decoderAdd =>
      have adds := decoderAdd_adds ending.prqFormed stepped
      exact
        ⟨fun stopped => absurd stopped adds.before,
          fun stopped => absurd stopped (adds.nothingLeft_iff.mp left)⟩
  | decoderReadEnds =>
      have reads := decoderReadEnds_reads stepped
      refine ⟨?_, ?_⟩
      · intro stopped
        cases stopped.symm.trans reads.before
      · exact fun stopped =>
          reads.prq ▸ left.productQueue (reads.storer.trans stopped)
  | storerGet => exact (storerGet_works stepped).nothingLeft_iff.mp left
  | storerSend delivered =>
      exact (storerSend_works stepped).nothingLeft_iff.mp left
  | storerReadEnds =>
      have reads := storerReadEnds_reads stepped
      refine ⟨?_, ?_⟩
      · exact fun stopped =>
          reads.idq ▸ left.idQueue (reads.decoder.trans stopped)
      · intro stopped
        cases stopped.symm.trans reads.before
  | setExecutionEnds =>
      cases setExecutionEnds_eq stepped
      exact ⟨left.idQueue, left.productQueue⟩
  | scan symbol => exact scanned (onlyScans_of_isScan (by exact trivial) stepped)
  | receive msg => exact scanned (onlyScans_of_isScan (by exact trivial) stepped)
  | readLine => exact scanned (onlyScans_of_isScan (by exact trivial) stepped)
  | closeCamera => exact scanned (onlyScans_of_isScan (by exact trivial) stepped)
  | switchMode => exact scanned (onlyScans_of_isScan (by exact trivial) stepped)

/-! ## Runs -/

theorem ending_of_invariant {state : State}
    (invariant : Invariant parse print state)
    (runs : state.executionEnds = false) (decodes : state.decoder ≠ .stopped)
    (stores : state.storer ≠ .stopped) : Ending state where
  idqFormed := invariant.idqFormed
  prqFormed := invariant.prqFormed
  ends := fun ends => nomatch runs.symm.trans ends
  decoderStopped := fun stopped => absurd stopped decodes
  storerStopped := fun stopped => absurd stopped stores

/--
A test run at whose end both parties have stopped leaves both queues empty
exactly if each of its steps leaves nothing behind.
-/
theorem shutdown_empty_iff {idSize prSize : Int}
    (idLeast : minQueueSize ≤ idSize) (idMost : idSize ≤ maxQueueSize)
    (prLeast : minQueueSize ≤ prSize) (prMost : prSize ≤ maxQueueSize)
    {lines : List CString} {events : List Event} {final : State}
    (reached :
      Runs.run (step parse print)
          (start idSize prSize (.file lines lines false)) events =
        some final)
    (decoderStopped : final.decoder = .stopped)
    (storerStopped : final.storer = .stopped) :
    (final.idq.contents = [] ∧ final.prq.contents = []) ↔
      Runs.StepsMeet (step parse print) LeavesNothing
        (start idSize prSize (.file lines lines false)) events := by
  have ending : Ending (start idSize prSize (.file lines lines false)) :=
    ending_of_invariant
      (invariant_start idLeast idMost prLeast prMost _ :
        Invariant parse print _)
      rfl nofun nofun
  have nothing :
      NothingLeft (start idSize prSize (.file lines lines false)) :=
    ⟨nofun, nofun⟩
  have atEnd :
      (final.idq.contents = [] ∧ final.prq.contents = []) ↔
        NothingLeft final :=
    ⟨fun empty => ⟨fun _ => empty.1, fun _ => empty.2⟩,
      fun left =>
        ⟨left.idQueue decoderStopped, left.productQueue storerStopped⟩⟩
  have along :
      Runs.StatesSatisfy (step parse print) NothingLeft
          (start idSize prSize (.file lines lines false)) events ↔
        NothingLeft final :=
    Runs.statesSatisfy_iff_final Ending
      (fun _ _ _ before stepped => ending_step before stepped)
      (fun _ _ _ before stepped => nothingLeft_before before stepped)
      ending reached
  have steps :
      Runs.StatesSatisfy (step parse print) NothingLeft
          (start idSize prSize (.file lines lines false)) events ↔
        Runs.StepsMeet (step parse print) LeavesNothing
          (start idSize prSize (.file lines lines false)) events :=
    Runs.statesSatisfy_iff_stepsMeet (fun state _ => Ending state)
      (fun _ _ _ _ before stepped => ending_step before stepped)
      (fun _ _ _ _ before left stepped =>
        nothingLeft_step_iff before left stepped)
      events ending nothing
  exact atEnd.trans (along.symm.trans steps)

/-! ### The document of the milk -/

/-- The document of the milk, as a download leaves it. -/
def milkBuffer : CString :=
  Json.printUnformatted
    (ProductRoundTrip.milkDocument (.string (.lit "100g")))

/-- The message of one carton. -/
def milkText : CString :=
  Json.printUnformatted
    (.object
      (ProductRoundTrip.message
        (ProductRoundTrip.milkCopied (.string (.lit "100g"))) 1
        (.lit "2024-01-01 10:00:00") (.lit "8480017439482")))

theorem milkBuffer_opened :
    milkBuffer.strchr Json.openBrace = some milkBuffer :=
  rfl

theorem milk_made :
    documentMessage (Json.parse Json.standardRaw) Json.printUnformatted
        (.lit "2024-01-01 10:00:00") ⟨.lit "8480017439482", 1, .add⟩
        milkBuffer =
      some (.ok milkText) := by
  rw [documentMessage, milkBuffer_opened]
  dsimp only
  rw [milkBuffer, ProductRoundTrip.milk_accepted]
  rfl

/-- A code is scanned and its message sent before the file ends. -/
def sentCode : List Event :=
  [.readLine, .decoderGet,
    .decoderDownload (.fetched milkBuffer) (.lit "2024-01-01 10:00:00"),
    .decoderAdd, .storerGet, .storerSend true, .readLine, .setExecutionEnds,
    .decoderGet, .decoderReadEnds, .storerGet, .storerReadEnds]

theorem sentCode_ends :
    ∃ final,
      Runs.run (step (Json.parse Json.standardRaw) Json.printUnformatted)
          (start 5 5
            (.file [.lit "8480017439482"] [.lit "8480017439482"] false))
          sentCode =
        some final ∧
      final.decoder = .stopped ∧ final.storer = .stopped ∧
        final.sent = [⟨0, milkText⟩] := by
  refine ⟨_, (Runs.run_cons ..).mpr ⟨_, rfl, (Runs.run_cons ..).mpr ⟨_, rfl,
    (Runs.run_cons ..).mpr ⟨_, step_download rfl (by decide) milk_made, rfl⟩⟩⟩,
    rfl, rfl, rfl⟩

theorem shutdown_empty_iff_sentCode :
    ∃ final,
      Runs.run (step (Json.parse Json.standardRaw) Json.printUnformatted)
          (start 5 5
            (.file [.lit "8480017439482"] [.lit "8480017439482"] false))
          sentCode =
        some final ∧
      final.sent = [⟨0, milkText⟩] ∧
        ((final.idq.contents = [] ∧ final.prq.contents = []) ↔
          Runs.StepsMeet
            (step (Json.parse Json.standardRaw) Json.printUnformatted)
            LeavesNothing
            (start 5 5
              (.file [.lit "8480017439482"] [.lit "8480017439482"] false))
            sentCode) := by
  rcases sentCode_ends with ⟨final, reached, decoder, storer, sent⟩
  exact
    ⟨final, reached, sent,
      shutdown_empty_iff (by decide) (by decide) (by decide) (by decide)
        reached decoder storer⟩

/-- A code that is scanned between the two observations of the decoder. -/
theorem shutdown_loses_code :
    ¬ ∀ (lines : List CString) (events : List Event) (final : State),
        Runs.run (step (Json.parse Json.standardRaw) Json.printUnformatted)
            (start 5 5 (.file lines lines false)) events =
          some final →
          final.decoder = .stopped → final.storer = .stopped →
            final.idq.contents = [] ∧ final.prq.contents = [] := by
  intro always
  have loses :
      (Runs.run (step (Json.parse Json.standardRaw) Json.printUnformatted)
          (start 5 5 (.file [.lit "8480017439482"] [.lit "8480017439482"] false))
          [.decoderGet, .storerGet, .readLine, .readLine, .setExecutionEnds,
            .decoderReadEnds, .storerReadEnds]).map
        (fun final =>
          (final.decoder, final.storer, final.idq.contents.length)) =
      some (.stopped, .stopped, 1) := by
    decide
  rcases Option.map_eq_some_iff.mp loses with ⟨final, reached, observed⟩
  have decoder : final.decoder = .stopped := congrArg Prod.fst observed
  have storer : final.storer = .stopped :=
    congrArg (fun seen => seen.2.1) observed
  have left : final.idq.contents.length = 1 :=
    congrArg (fun seen => seen.2.2) observed
  rw [(always _ _ final reached decoder storer).1] at left
  cases left

end SmartFridge.PipelineShutdown
