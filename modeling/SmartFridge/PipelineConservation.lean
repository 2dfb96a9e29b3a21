import SmartFridge.Pipeline

/-!
# Conservation of the scanned products

Every accepted node is in exactly one place.  What a step can do to the places
is listed once, in `Effect`; the invariant is checked against that list.
-/

namespace SmartFridge.PipelineConservation

open SmartFridge.Library
open SmartFridge.Pipeline
open SmartFridge.ProductDecoder
open SmartFridge.QueueRing
open SmartFridge.Reader

/-! ## Places -/

/-- Where an accepted node can be. -/
inductive Place where
  | idQueue
  | decoderHands
  | productQueue
  | storerHands
  | sent
  | discarded
deriving DecidableEq

/-- The nodes in a place, each as often as it is there. -/
def occupants (state : State) : Place → List Nat
  | .idQueue => state.idq.contents.map Tagged.ident
  | .decoderHands => state.decoder.holds
  | .productQueue => state.prq.contents.map Tagged.ident
  | .storerHands => state.storer.data.map Tagged.ident
  | .sent => state.sent.map Tagged.ident
  | .discarded => state.discarded

/-- How often a node is anywhere. -/
def occurrences (state : State) (ident : Nat) : Nat :=
  (occupants state .idQueue).count ident +
    (occupants state .decoderHands).count ident +
    (occupants state .productQueue).count ident +
    (occupants state .storerHands).count ident +
    (occupants state .sent).count ident +
    (occupants state .discarded).count ident

/-- The text is the one that the decoder makes of the node. -/
def IsMessageOf
    (parse : CString → Option Json) (print : Json → CString)
    (node : ProductNode) (text : CString) : Prop :=
  node.mode = .remove ∧ text = removeMsg node.code ∨
    node.mode ≠ .remove ∧ ∃ now buffer,
      documentMessage parse print now node buffer = some (.ok text)

/-! ## What a step can do -/

section Steps

variable (parse : CString → Option Json) (print : Json → CString)

/-- The effect of a step on the places. -/
inductive Effect (state : State) : State → Prop
  /-- The scanner moves on. -/
  | scanner (scanner : Scanner) (dbMode : DbMode) (executionEnds : Bool)
      (log : List LogRecord) :
      Effect state
        { state with scanner, dbMode, executionEnds, log := state.log ++ log }
  /-- A node is accepted. -/
  | accepts (scanner : Scanner) {node : ProductNode}
      {idq : Queue (Tagged ProductNode)} (formed : idq.WellFormed)
      (stored :
        idq.contents.Perm
          (⟨state.accepted.length, node⟩ :: state.idq.contents)) :
      Effect state
        { state with scanner, idq, accepted := state.accepted ++ [node] }
  /-- The decoder takes a node. -/
  | takesNode {node : Tagged ProductNode} {idq : Queue (Tagged ProductNode)}
      (free : state.decoder.holds = []) (formed : idq.WellFormed)
      (taken : state.idq.contents.Perm (node :: idq.contents)) :
      Effect state { state with idq, decoder := .holding node }
  /-- The decoder goes on without a node. -/
  | decoderIdles (decoder : Decoder) (log : List LogRecord)
      (before : state.decoder.holds = []) (after : decoder.holds = []) :
      Effect state { state with decoder, log := state.log ++ log }
  /-- The decoder makes the message of its node. -/
  | formats {node : Tagged ProductNode} {text : CString} (mode : DbMode)
      (held : state.decoder = .holding node)
      (made : IsMessageOf parse print node.value text) :
      Effect state
        { state with decoder := .queueing ⟨node.ident, text⟩ mode }
  /-- The decoder gives its node up and says so. -/
  | discards {ident : Nat} {entries : List LogEntry}
      (held : state.decoder.holds = [ident])
      (reported : ∃ entry ∈ entries, entry.ReportsLoss) :
      Effect state (state.givesUp ident entries)
  /-- The decoder puts its message into the queue. -/
  | queues {message : Tagged CString} {mode : DbMode}
      {prq : Queue (Tagged CString)}
      (held : state.decoder = .queueing message mode) (formed : prq.WellFormed)
      (stored : prq.contents.Perm (message :: state.prq.contents)) :
      Effect state { state with prq, decoder := .fetch }
  /-- The storer takes a message. -/
  | takesMessage {data : Tagged CString} {prq : Queue (Tagged CString)}
      (free : state.storer.data = []) (formed : prq.WellFormed)
      (taken : state.prq.contents.Perm (data :: prq.contents)) :
      Effect state { state with prq, storer := .holding data }
  /-- The storer goes on without a message. -/
  | storerIdles (storer : Storer) (log : List LogRecord)
      (before : state.storer.data = []) (after : storer.data = []) :
      Effect state { state with storer, log := state.log ++ log }
  /-- The storer sends its message. -/
  | sends {data : Tagged CString} (held : state.storer = .holding data) :
      Effect state
        { state with storer := .fetch, sent := state.sent ++ [data] }
  /-- The storer fails to send its message and keeps it. -/
  | retries {data : Tagged CString} (held : state.storer = .holding data)
      (log : List LogRecord) :
      Effect state { state with log := state.log ++ log }

variable {parse print}

/-- A node is offered while the scanner moves on. -/
theorem offer_effect {state : State} (formed : state.idq.WellFormed)
    (scanner : Scanner) (node : ProductNode) :
    Effect parse print state (offer node { state with scanner }) := by
  have added := add_contents formed ⟨state.accepted.length, node⟩
  unfold offer
  rcases added with ⟨nextFormed, ⟨accepted, stored⟩ | ⟨refused, _⟩⟩
  · simp only [accepted, if_true]
    exact .accepts scanner nextFormed stored
  · simp only [refused]
    exact .scanner scanner state.dbMode state.executionEnds
      [⟨none, .fullQueue (some node.code)⟩]

theorem logs_effect (state : State) (scanner : Scanner) (entry : LogEntry) :
    Effect parse print state ({ state with scanner }.logs entry) :=
  .scanner scanner state.dbMode state.executionEnds [⟨none, entry⟩]

/-- A step of the scanner that writes nothing. -/
theorem quiet_effect (state : State) (scanner : Scanner) (dbMode : DbMode)
    (executionEnds : Bool) :
    Effect parse print state { state with scanner, dbMode, executionEnds } := by
  have effect : Effect parse print state _ :=
    .scanner scanner dbMode executionEnds []
  simpa using effect

theorem scan_effect {state next : State} (formed : state.idq.WellFormed)
    {symbol : CString} (stepped : scan symbol state = some next) :
    Effect parse print state next := by
  unfold scan at stepped
  split at stepped
  · cases stepped
    exact offer_effect formed state.scanner _
  · cases stepped

theorem receive_effect {state next : State} (formed : state.idq.WellFormed)
    {msg : CString} (stepped : receive msg state = some next) :
    Effect parse print state next := by
  unfold receive at stepped
  split at stepped
  · split at stepped
    · cases stepped
      exact offer_effect formed state.scanner _
    · cases stepped
      exact logs_effect state state.scanner _
  · cases stepped

theorem readLine_effect {state next : State} (formed : state.idq.WellFormed)
    (stepped : readLine state = some next) :
    Effect parse print state next := by
  unfold readLine at stepped
  split at stepped
  · next whole line rest repeats _ =>
      simp only at stepped
      split at stepped
      · cases stepped
        exact offer_effect formed (.file whole rest repeats) _
      · cases stepped
        exact quiet_effect state _ state.dbMode state.executionEnds
  · cases stepped
    exact quiet_effect state _ state.dbMode state.executionEnds
  · cases stepped
    exact logs_effect state .finished .testModeEnd
  · cases stepped

theorem closeCamera_effect {state next : State}
    (stepped : closeCamera state = some next) :
    Effect parse print state next := by
  unfold closeCamera at stepped
  split at stepped
  · cases stepped
    exact quiet_effect state _ state.dbMode state.executionEnds
  · cases stepped

theorem switchMode_effect {state next : State}
    (stepped : switchMode state = some next) :
    Effect parse print state next := by
  unfold switchMode at stepped
  split at stepped
  · cases stepped
    exact quiet_effect state state.scanner _ state.executionEnds
  · cases stepped

theorem setExecutionEnds_effect {state next : State}
    (stepped : setExecutionEnds state = some next) :
    Effect parse print state next := by
  unfold setExecutionEnds at stepped
  split at stepped
  · cases stepped
    exact quiet_effect state _ state.dbMode _
  · cases stepped

theorem decoderGet_effect {state next : State} (formed : state.idq.WellFormed)
    (stepped : decoderGet state = some next) :
    Effect parse print state next := by
  unfold decoderGet at stepped
  split at stepped
  next fetching =>
    have free : state.decoder.holds = [] := by
      rw [fetching]
      rfl
    rcases get_contents formed with
      ⟨nextFormed, ⟨nothing, _⟩ | ⟨node, taken, contents⟩⟩
    · simp only [nothing] at stepped
      cases stepped
      simpa using (Effect.decoderIdles .empty [] free rfl :
        Effect parse print state _)
    · split at stepped
      next node' idq got =>
        cases stepped
        rw [got] at taken contents nextFormed
        cases taken
        exact .takesNode free nextFormed contents
      next idq got =>
        rw [got] at taken
        cases taken
  next => cases stepped

theorem decoderReadEnds_effect {state next : State}
    (stepped : decoderReadEnds state = some next) :
    Effect parse print state next := by
  unfold decoderReadEnds at stepped
  split at stepped
  next waiting =>
    have free : state.decoder.holds = [] := by
      rw [waiting]
      rfl
    split at stepped
    · cases stepped
      exact .decoderIdles .stopped [⟨none, .decoderEnd⟩] free rfl
    · cases stepped
      simpa using (Effect.decoderIdles .fetch [] free rfl :
        Effect parse print state _)
  next => cases stepped

theorem decoderFormat_effect {state next : State}
    (stepped : decoderFormat state = some next) :
    Effect parse print state next := by
  unfold decoderFormat at stepped
  split at stepped
  next ident node held =>
    split at stepped
    next removal =>
      cases stepped
      exact .formats .remove held (.inl ⟨removal, rfl⟩)
    next => cases stepped
  next => cases stepped

/-- A refused document is reported. -/
theorem refusal_reportsLoss (result : Int) (code : CString) :
    ∃ entry ∈ refusal result code, entry.ReportsLoss := by
  unfold refusal
  split
  · exact ⟨_, List.mem_singleton_self _, trivial⟩
  · split
    · exact ⟨.invalidFile code, by simp, trivial⟩
    · split
      · exact ⟨.invalidFile code, by simp, trivial⟩
      · exact ⟨_, List.mem_singleton_self _, trivial⟩

theorem documentMessage_reportsLoss
    {now : CString} {node : ProductNode} {buffer : CString}
    {entries : List LogEntry}
    (refused :
      documentMessage parse print now node buffer = some (.error entries)) :
    ∃ entry ∈ entries, entry.ReportsLoss := by
  unfold documentMessage at refused
  split at refused
  · cases refused
    exact ⟨_, List.mem_singleton_self _, trivial⟩
  · split at refused
    · cases refused
    · split at refused
      · cases refused
        exact refusal_reportsLoss _ _
      · rcases Option.map_eq_some_iff.mp refused with ⟨_, _, impossible⟩
        cases impossible

theorem decoderDownload_effect {state next : State}
    {download : Download} {now : CString}
    (stepped : decoderDownload parse print download now state = some next) :
    Effect parse print state next := by
  unfold decoderDownload at stepped
  split at stepped
  next ident node held =>
    have holds : state.decoder.holds = [ident] := by
      rw [held]
      rfl
    split at stepped
    next => cases stepped
    next addition =>
      split at stepped
      · cases stepped
        exact .discards holds ⟨_, List.mem_singleton_self _, trivial⟩
      next buffer =>
        split at stepped
        next => cases stepped
        next entries refused =>
          cases stepped
          exact .discards holds (documentMessage_reportsLoss refused)
        next message made =>
          cases stepped
          exact .formats .add held (.inr ⟨addition, now, buffer, made⟩)
  next => cases stepped

theorem decoderAdd_effect {state next : State} (formed : state.prq.WellFormed)
    (stepped : decoderAdd state = some next) :
    Effect parse print state next := by
  unfold decoderAdd at stepped
  split at stepped
  next message mode held =>
    have holds : state.decoder.holds = [message.ident] := by
      rw [held]
      rfl
    rcases add_contents formed message with
      ⟨nextFormed, ⟨accepted, stored⟩ | ⟨refused, _⟩⟩
    · simp only [accepted, if_true] at stepped
      cases stepped
      exact .queues held nextFormed stored
    · simp only [refused] at stepped
      cases stepped
      exact .discards holds ⟨_, List.mem_singleton_self _, trivial⟩
  next => cases stepped

theorem storerGet_effect {state next : State} (formed : state.prq.WellFormed)
    (stepped : storerGet state = some next) :
    Effect parse print state next := by
  unfold storerGet at stepped
  split at stepped
  next fetching =>
    have free : state.storer.data = [] := by
      rw [fetching]
      rfl
    rcases get_contents formed with
      ⟨nextFormed, ⟨nothing, _⟩ | ⟨data, taken, contents⟩⟩
    · simp only [nothing] at stepped
      cases stepped
      simpa using (Effect.storerIdles .empty [] free rfl :
        Effect parse print state _)
    · split at stepped
      next data' prq got =>
        cases stepped
        rw [got] at taken contents nextFormed
        cases taken
        exact .takesMessage free nextFormed contents
      next prq got =>
        rw [got] at taken
        cases taken
  next => cases stepped

theorem storerReadEnds_effect {state next : State}
    (stepped : storerReadEnds state = some next) :
    Effect parse print state next := by
  unfold storerReadEnds at stepped
  split at stepped
  next waiting =>
    have free : state.storer.data = [] := by
      rw [waiting]
      rfl
    split at stepped
    · cases stepped
      exact .storerIdles .stopped [⟨none, .storerEnd⟩] free rfl
    · cases stepped
      simpa using (Effect.storerIdles .fetch [] free rfl :
        Effect parse print state _)
  next => cases stepped

theorem storerSend_effect {state next : State} {delivered : Bool}
    (stepped : storerSend delivered state = some next) :
    Effect parse print state next := by
  unfold storerSend at stepped
  split at stepped
  next data held =>
    split at stepped
    · cases stepped
      exact .sends held
    · cases stepped
      exact .retries held [⟨none, .productSendError⟩]
  next => cases stepped

/-- Every step has one of the effects. -/
theorem step_effect {state next : State} {event : Event}
    (idqFormed : state.idq.WellFormed) (prqFormed : state.prq.WellFormed)
    (stepped : step parse print state event = some next) :
    Effect parse print state next := by
  cases event with
  | scan symbol => exact scan_effect idqFormed stepped
  | receive msg => exact receive_effect idqFormed stepped
  | readLine => exact readLine_effect idqFormed stepped
  | closeCamera => exact closeCamera_effect stepped
  | switchMode => exact switchMode_effect stepped
  | setExecutionEnds => exact setExecutionEnds_effect stepped
  | decoderGet => exact decoderGet_effect idqFormed stepped
  | decoderReadEnds => exact decoderReadEnds_effect stepped
  | decoderFormat => exact decoderFormat_effect stepped
  | decoderDownload download now => exact decoderDownload_effect stepped
  | decoderAdd => exact decoderAdd_effect prqFormed stepped
  | storerGet => exact storerGet_effect prqFormed stepped
  | storerReadEnds => exact storerReadEnds_effect stepped
  | storerSend delivered => exact storerSend_effect stepped

end Steps

/-! ## The invariant -/

/-- Each accepted node is somewhere once, and nothing else is anywhere. -/
def CountedOnce (state : State) : Prop :=
  ∀ ident, occurrences state ident =
    if ident < state.accepted.length then 1 else 0

/-- The loss of each discarded node is in the log. -/
def LossesReported (state : State) : Prop :=
  ∀ ident ∈ state.discarded,
    ∃ entry, (⟨some ident, entry⟩ : LogRecord) ∈ state.log ∧ entry.ReportsLoss

section Invariant

variable (parse : CString → Option Json) (print : Json → CString)

/-- The nodes on their way to their message. -/
def nodesUnderway (state : State) : List (Tagged ProductNode) :=
  state.idq.contents ++ state.decoder.node

/-- The messages on their way and those that were sent. -/
def messagesUnderway (state : State) : List (Tagged CString) :=
  state.decoder.message ++ state.prq.contents ++ state.storer.data ++
    state.sent

/-- The message is the one of the accepted node that it stems from. -/
def IsGenuine (accepted : List ProductNode) (data : Tagged CString) : Prop :=
  ∃ node, accepted[data.ident]? = some node ∧
    IsMessageOf parse print node data.value

/-- What is on its way is an accepted node or its message. -/
structure Genuine (state : State) : Prop where
  nodes : ∀ node ∈ nodesUnderway state,
    state.accepted[node.ident]? = some node.value
  messages : ∀ data ∈ messagesUnderway state,
    IsGenuine parse print state.accepted data

/-- The invariant of the pipeline. -/
structure Invariant (state : State) : Prop where
  idqFormed : state.idq.WellFormed
  prqFormed : state.prq.WellFormed
  counted : CountedOnce state
  reported : LossesReported state
  genuine : Genuine parse print state

variable {parse print}

theorem countedOnce_effect {state next : State}
    (counted : CountedOnce state) (effect : Effect parse print state next) :
    CountedOnce next := by
  intro ident
  have before := counted ident
  unfold occurrences at before ⊢
  cases effect with
  | scanner scanner dbMode executionEnds log => exact before
  | accepts scanner formed stored =>
      have counts := (stored.map Tagged.ident).count_eq ident
      simp only [occupants, List.map_cons, List.count_cons, beq_iff_eq,
        List.length_append, List.length_singleton] at before counts ⊢
      split_ifs at before counts ⊢ <;> omega
  | takesNode free formed taken =>
      have counts := (taken.map Tagged.ident).count_eq ident
      simp only [occupants, free, Decoder.holds_holding, List.map_cons,
        List.count_cons, List.count_nil] at before counts ⊢
      omega
  | decoderIdles decoder log free after =>
      simp only [occupants, free, after] at before ⊢
      exact before
  | formats mode held made =>
      simp only [occupants, held] at before ⊢
      exact before
  | discards held reported =>
      change _ = if ident < state.accepted.length then 1 else 0
      simp only [occupants, held, State.givesUp, Decoder.holds_fetch,
        List.count_nil, List.count_append] at before ⊢
      omega
  | queues held formed stored =>
      have counts := (stored.map Tagged.ident).count_eq ident
      simp only [occupants, held, Decoder.holds_queueing, Decoder.holds_fetch,
        List.map_cons, List.count_cons, List.count_nil] at before counts ⊢
      omega
  | takesMessage free formed taken =>
      have counts := (taken.map Tagged.ident).count_eq ident
      simp only [occupants, free, Storer.data_holding, List.map_cons,
        List.map_nil, List.count_cons, List.count_nil] at before counts ⊢
      omega
  | storerIdles storer log free after =>
      simp only [occupants, free, after] at before ⊢
      exact before
  | sends held =>
      simp only [occupants, held, Storer.data_holding, Storer.data_fetch,
        List.map_append, List.map_cons, List.map_nil, List.count_append,
        List.count_nil] at before ⊢
      omega
  | retries held log => exact before

theorem lossesReported_effect {state next : State}
    (reported : LossesReported state) (effect : Effect parse print state next) :
    LossesReported next := by
  have kept : ∀ log : List LogRecord, ∀ ident ∈ state.discarded,
      ∃ entry, (⟨some ident, entry⟩ : LogRecord) ∈ state.log ++ log ∧
        entry.ReportsLoss := by
    intro log ident lost
    rcases reported ident lost with ⟨entry, logged, loss⟩
    exact ⟨entry, List.mem_append_left log logged, loss⟩
  cases effect with
  | scanner scanner dbMode executionEnds log => exact kept log
  | accepts scanner formed stored => exact reported
  | takesNode free formed taken => exact reported
  | decoderIdles decoder log free after => exact kept log
  | formats mode held made => exact reported
  | @discards ident entries held said =>
      intro lost member
      rcases List.mem_append.mp member with earlier | now
      · exact kept _ lost earlier
      · rcases said with ⟨entry, present, loss⟩
        rw [List.mem_singleton.mp now]
        refine ⟨entry, List.mem_append_right _ ?_, loss⟩
        exact List.mem_map.mpr ⟨entry, present, rfl⟩
  | queues held formed stored => exact reported
  | takesMessage free formed taken => exact reported
  | storerIdles storer log free after => exact kept log
  | sends held => exact reported
  | retries held log => exact kept log

/-- Nothing new is on its way. -/
theorem genuine_of_subset {state next : State}
    (genuine : Genuine parse print state)
    (sameAccepted : next.accepted = state.accepted)
    (nodes : nodesUnderway next ⊆ nodesUnderway state)
    (messages : messagesUnderway next ⊆ messagesUnderway state) :
    Genuine parse print next where
  nodes := fun node member => sameAccepted ▸ genuine.nodes node (nodes member)
  messages := fun data member =>
    sameAccepted ▸ genuine.messages data (messages member)

/-- Accepting a node does not change the earlier ones. -/
theorem accepted_stays {accepted : List ProductNode} {ident : Nat}
    {node : ProductNode} (found : accepted[ident]? = some node)
    (later : List ProductNode) : (accepted ++ later)[ident]? = some node := by
  rcases List.getElem?_eq_some_iff.mp found with ⟨inside, _⟩
  rw [List.getElem?_append_left inside, found]

theorem genuine_accepts {state next : State} {node : ProductNode}
    (genuine : Genuine parse print state)
    (accepted : next.accepted = state.accepted ++ [node])
    (nodes :
      nodesUnderway next ⊆
        ⟨state.accepted.length, node⟩ :: nodesUnderway state)
    (messages : messagesUnderway next ⊆ messagesUnderway state) :
    Genuine parse print next where
  nodes := by
    intro other member
    rw [accepted]
    rcases List.mem_cons.mp (nodes member) with rfl | earlier
    · simp
    · exact accepted_stays (genuine.nodes other earlier) [node]
  messages := by
    intro data member
    rw [accepted]
    rcases genuine.messages data (messages member) with ⟨source, found, made⟩
    exact ⟨source, accepted_stays found [node], made⟩

theorem genuine_formats {state next : State} {node : Tagged ProductNode}
    {text : CString} (genuine : Genuine parse print state)
    (sameAccepted : next.accepted = state.accepted)
    (held : node ∈ nodesUnderway state)
    (made : IsMessageOf parse print node.value text)
    (nodes : nodesUnderway next ⊆ nodesUnderway state)
    (messages :
      messagesUnderway next ⊆ ⟨node.ident, text⟩ :: messagesUnderway state) :
    Genuine parse print next where
  nodes := fun other member =>
    sameAccepted ▸ genuine.nodes other (nodes member)
  messages := by
    intro data member
    rw [sameAccepted]
    rcases List.mem_cons.mp (messages member) with rfl | earlier
    · exact ⟨node.value, genuine.nodes node held, made⟩
    · exact genuine.messages data earlier

theorem genuine_effect {state next : State}
    (genuine : Genuine parse print state)
    (effect : Effect parse print state next) : Genuine parse print next := by
  cases effect with
  | scanner scanner dbMode executionEnds log =>
      exact ⟨genuine.nodes, genuine.messages⟩
  | accepts scanner formed stored =>
      apply genuine_accepts genuine
      · rfl
      · intro other member
        simpa [nodesUnderway, stored.mem_iff, or_assoc] using member
      · exact fun _ member => member
  | takesNode free formed taken =>
      rcases Decoder.holds_eq_nil.mp free with ⟨noNode, noMessage⟩
      apply genuine_of_subset genuine
      · rfl
      · intro other member
        simpa [nodesUnderway, noNode, taken.mem_iff, or_comm] using member
      · intro data member
        simpa [messagesUnderway, noMessage] using member
  | decoderIdles decoder log free after =>
      rcases Decoder.holds_eq_nil.mp free with ⟨noNode, noMessage⟩
      rcases Decoder.holds_eq_nil.mp after with ⟨stillNoNode, stillNoMessage⟩
      apply genuine_of_subset genuine
      · rfl
      · intro other member
        simpa [nodesUnderway, noNode, stillNoNode] using member
      · intro data member
        simpa [messagesUnderway, noMessage, stillNoMessage] using member
  | formats mode held made =>
      apply genuine_formats genuine _ _ made
      · intro other member
        have queued : other ∈ state.idq.contents := by
          simpa [nodesUnderway] using member
        exact List.mem_append_left _ queued
      · intro data member
        simpa [messagesUnderway, held] using member
      · rfl
      · simp [nodesUnderway, held]
  | discards held reported =>
      apply genuine_of_subset genuine
      · rfl
      · intro other member
        have queued : other ∈ state.idq.contents := by
          simpa [nodesUnderway, State.givesUp] using member
        exact List.mem_append_left _ queued
      · intro data member
        have others :
            data ∈ state.prq.contents ++ state.storer.data ++ state.sent := by
          simpa [messagesUnderway, State.givesUp] using member
        simpa [messagesUnderway] using
          List.mem_append_right state.decoder.message others
  | queues held formed stored =>
      apply genuine_of_subset genuine
      · rfl
      · intro other member
        simpa [nodesUnderway, held] using member
      · intro data member
        simpa [messagesUnderway, held, stored.mem_iff, or_assoc] using member
  | takesMessage free formed taken =>
      apply genuine_of_subset genuine
      · rfl
      · exact fun _ member => member
      · intro data member
        simpa [messagesUnderway, free, taken.mem_iff, or_assoc, or_left_comm]
          using member
  | storerIdles storer log free after =>
      apply genuine_of_subset genuine
      · rfl
      · exact fun _ member => member
      · intro data member
        simpa [messagesUnderway, free, after] using member
  | sends held =>
      apply genuine_of_subset genuine
      · rfl
      · exact fun _ member => member
      · intro data member
        simpa [messagesUnderway, held, or_comm, or_left_comm] using member
  | retries held log => exact ⟨genuine.nodes, genuine.messages⟩

theorem idqFormed_effect {state next : State}
    (formed : state.idq.WellFormed) (effect : Effect parse print state next) :
    next.idq.WellFormed := by
  cases effect with
  | accepts scanner nextFormed stored => exact nextFormed
  | takesNode free nextFormed taken => exact nextFormed
  | _ => exact formed

theorem prqFormed_effect {state next : State}
    (formed : state.prq.WellFormed) (effect : Effect parse print state next) :
    next.prq.WellFormed := by
  cases effect with
  | queues held nextFormed stored => exact nextFormed
  | takesMessage free nextFormed taken => exact nextFormed
  | _ => exact formed

/-- Every step keeps the invariant. -/
theorem invariant_step {state next : State} {event : Event}
    (invariant : Invariant parse print state)
    (stepped : step parse print state event = some next) :
    Invariant parse print next := by
  have effect := step_effect invariant.idqFormed invariant.prqFormed stepped
  exact
    { idqFormed := idqFormed_effect invariant.idqFormed effect
      prqFormed := prqFormed_effect invariant.prqFormed effect
      counted := countedOnce_effect invariant.counted effect
      reported := lossesReported_effect invariant.reported effect
      genuine := genuine_effect invariant.genuine effect }

theorem invariant_start {idSize prSize : Int}
    (idLeast : minQueueSize ≤ idSize) (idMost : idSize ≤ maxQueueSize)
    (prLeast : minQueueSize ≤ prSize) (prMost : prSize ≤ maxQueueSize)
    (scanner : Scanner) :
    Invariant parse print (start idSize prSize scanner) := by
  have idRing := (set_represents (⟨[], 0, 0, 0⟩ : Queue (Tagged ProductNode))
    idLeast idMost).2.2
  have prRing := (set_represents (⟨[], 0, 0, 0⟩ : Queue (Tagged CString))
    prLeast prMost).2.2
  have noNodes : (start idSize prSize scanner).idq.contents = [] :=
    idRing.contents_perm.eq_nil
  have noMessages : (start idSize prSize scanner).prq.contents = [] :=
    prRing.contents_perm.eq_nil
  have idle : (start idSize prSize scanner).decoder = .fetch := rfl
  have waiting : (start idSize prSize scanner).storer = .fetch := rfl
  have nothingSent : (start idSize prSize scanner).sent = [] := rfl
  have nothingLost : (start idSize prSize scanner).discarded = [] := rfl
  have nothingAccepted : (start idSize prSize scanner).accepted = [] := rfl
  exact
    { idqFormed := ⟨[], idRing⟩
      prqFormed := ⟨[], prRing⟩
      counted := by
        intro ident
        simp [occurrences, occupants, noNodes, noMessages, idle, waiting,
          nothingSent, nothingLost, nothingAccepted]
      reported := by
        intro ident lost
        cases lost
      genuine :=
        { nodes := by
            intro node member
            simp [nodesUnderway, noNodes, idle] at member
          messages := by
            intro data member
            simp [messagesUnderway, noMessages, idle, waiting, nothingSent]
              at member } }

/-- What the storer holds stays with it until it is sent. -/
theorem held_effect {state next : State} {data : Tagged CString}
    (kept : state.storer = .holding data ∨ data ∈ state.sent)
    (effect : Effect parse print state next) :
    next.storer = .holding data ∨ data ∈ next.sent := by
  cases effect with
  | takesMessage free formed taken =>
      rcases kept with held | delivered
      · rw [held] at free
        cases free
      · exact .inr delivered
  | storerIdles storer log free after =>
      rcases kept with held | delivered
      · rw [held] at free
        cases free
      · exact .inr delivered
  | sends held =>
      rcases kept with same | delivered
      · rw [held] at same
        cases same
        exact .inr (List.mem_append_right _ (List.mem_singleton_self _))
      · exact .inr (List.mem_append_left _ delivered)
  | _ => exact kept

/-! ## Runs -/

variable (parse print) in
/-- What conservation means for a state. -/
structure Conserved (state : State) : Prop where
  placed : ∀ ident, ident < state.accepted.length →
    ∃ place, (occupants state place).count ident = 1 ∧
      ∀ other, other ≠ place → ident ∉ occupants state other
  reported : LossesReported state
  genuine : Genuine parse print state

/-- A sum of one has one summand of one. -/
theorem placed_of_countedOnce {state : State} (counted : CountedOnce state)
    {ident : Nat} (accepted : ident < state.accepted.length) :
    ∃ place, (occupants state place).count ident = 1 ∧
      ∀ other, other ≠ place → ident ∉ occupants state other := by
  have total := counted ident
  rw [if_pos accepted, occurrences] at total
  have single : ∃ place, (occupants state place).count ident = 1 := by
    by_contra nowhere
    have notOne : ∀ place, (occupants state place).count ident ≠ 1 :=
      fun place one => nowhere ⟨place, one⟩
    have idQueue := notOne .idQueue
    have decoderHands := notOne .decoderHands
    have productQueue := notOne .productQueue
    have storerHands := notOne .storerHands
    have sent := notOne .sent
    have discarded := notOne .discarded
    omega
  rcases single with ⟨place, one⟩
  refine ⟨place, one, ?_⟩
  intro other different
  apply List.count_eq_zero.mp
  cases place <;> cases other <;> first | exact absurd rfl different | omega

/--
Every accepted node is in exactly one place after every run, what was lost is
in the log, and a message that the storer holds is sent or still held at the
end of every continuation.
-/
theorem pipeline_conserves {idSize prSize : Int}
    (idLeast : minQueueSize ≤ idSize) (idMost : idSize ≤ maxQueueSize)
    (prLeast : minQueueSize ≤ prSize) (prMost : prSize ≤ maxQueueSize)
    {scanner : Scanner} {events : List Event} {state : State}
    (reached :
      Runs.run (step parse print) (start idSize prSize scanner) events =
        some state) :
    Conserved parse print state ∧
      ∀ data, state.storer = .holding data →
        ∀ later final,
          Runs.run (step parse print) state later = some final →
            final.storer = .holding data ∨ data ∈ final.sent := by
  have invariant : Invariant parse print state :=
    Runs.run_invariant (Invariant parse print)
      (fun _ _ _ before stepped => invariant_step before stepped)
      (invariant_start idLeast idMost prLeast prMost scanner) reached
  refine
    ⟨⟨fun _ accepted => placed_of_countedOnce invariant.counted accepted,
      invariant.reported, invariant.genuine⟩, ?_⟩
  intro data held later final continued
  have kept :=
    Runs.run_invariant
      (fun state => Invariant parse print state ∧
        (state.storer = .holding data ∨ data ∈ state.sent))
      (fun _ _ _ before stepped =>
        ⟨invariant_step before.1 stepped,
          held_effect before.2
            (step_effect before.1.idqFormed before.1.prqFormed stepped)⟩)
      ⟨invariant, .inl held⟩ continued
  exact kept.2

end Invariant

/-- A code is scanned in removal mode and its message reaches the storer. -/
theorem pipeline_conserves_removal :
    ∃ state,
      Runs.run (step (Json.parse Json.standardRaw) Json.printUnformatted)
          (start 5 5 .camera)
          [.switchMode, .scan (.lit "8480017439482"), .decoderGet,
            .decoderFormat, .decoderAdd, .storerGet] =
        some state ∧
      Conserved (Json.parse Json.standardRaw) Json.printUnformatted state ∧
        ∀ data, state.storer = .holding data →
          ∀ later final,
            Runs.run (step (Json.parse Json.standardRaw) Json.printUnformatted)
                state later =
              some final →
              final.storer = .holding data ∨ data ∈ final.sent := by
  have possible :
      (Runs.run (step (Json.parse Json.standardRaw) Json.printUnformatted)
        (start 5 5 .camera)
        [.switchMode, .scan (.lit "8480017439482"), .decoderGet,
          .decoderFormat, .decoderAdd, .storerGet]).isSome = true := by
    decide
  rcases Option.isSome_iff_exists.mp possible with ⟨state, reached⟩
  exact
    ⟨state, reached,
      pipeline_conserves (by decide) (by decide) (by decide) (by decide)
        reached⟩

end SmartFridge.PipelineConservation
