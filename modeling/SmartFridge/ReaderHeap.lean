import SmartFridge.Library.Allocation
import SmartFridge.PipelineProgress

/-!
# The memory of the reader

Nodes, downloads, documents and messages are allocated by one thread and freed
by another, and `sf_decoder` still holds its pointers behind the call of
`sf_queue_add` that hands a message over.  The steps of the reader are
accompanied by their accesses to the heap, with the rest of a turn of the
decoder as a step of its own.
-/

namespace SmartFridge.ReaderHeap

open SmartFridge.Library
open SmartFridge.Library.Allocation
open SmartFridge.Library.Runs
open SmartFridge.CJson
open SmartFridge.Pipeline
open SmartFridge.PipelineConservation
open SmartFridge.PipelineShutdown
open SmartFridge.QueueRing
open SmartFridge.Reader

/-! ## The accesses of a step -/

/-- What is allocated for a node, by the number of the node. -/
inductive Block where
  /-- The `product_node` and its code. -/
  | node (ident : Nat)
  /-- What `sf_download_file` collects. -/
  | payload (ident : Nat)
  /-- The object `decoded_pr`. -/
  | document (ident : Nat)
  /-- The message. -/
  | text (ident : Nat)
deriving DecidableEq

/-- A node is created and offered; it is freed if the queue is full. -/
def offerAccesses (state : State) (node : ProductNode) : List (Access Block) :=
  let ident := state.accepted.length
  if (sfQueueAdd state.idq (some ⟨ident, node⟩)).1 = 0 then
    [.alloc (.node ident)]
  else
    [.alloc (.node ident), .read (.node ident), .free (.node ident)]

section Accesses

variable (parse : CString → Option Json) (print : Json → CString)

/-- A download and its decoding, up to `sf_queue_add` or `next_it`. -/
def downloadAccesses (node : Tagged ProductNode) (now : CString) :
    Download → List (Access Block)
  | .failed => [.read (.node node.ident), .free (.node node.ident)]
  | .fetched buffer =>
      [.read (.node node.ident), .alloc (.payload node.ident),
        .read (.payload node.ident), .read (.node node.ident)] ++
      match documentMessage parse print now node.value buffer with
      | none => []
      | some (.error _) =>
          [.free (.node node.ident), .free (.payload node.ident)]
      | some (.ok _) =>
          [.alloc (.document node.ident), .read (.document node.ident),
            .alloc (.text node.ident)]

/-- `sf_queue_add` of a message, and what follows on its result. -/
def addAccesses (state : State) (message : Tagged CString) :
    DbMode → List (Access Block)
  | .add =>
      if (sfQueueAdd state.prq (some message)).1 = 0 then
        []
      else
        [.read (.text message.ident), .free (.text message.ident)]
  | .remove =>
      if (sfQueueAdd state.prq (some message)).1 = 0 then
        [.read (.node message.ident)]
      else
        []

/-- An attempt of `sf_send_product`, and the release behind a success. -/
def sendAccesses (data : Tagged CString) : Bool → List (Access Block)
  | true => [.read (.text data.ident), .free (.text data.ident)]
  | false => [.read (.text data.ident)]

/-- The accesses of a step of the reader. -/
def accessesOf (state : State) : Pipeline.Event → List (Access Block)
  | .scan symbol => offerAccesses state (cameraNode state.dbMode symbol)
  | .receive msg =>
      match socketNode state.dbMode msg with
      | some node => offerAccesses state node
      | none => []
  | .readLine =>
      match state.scanner with
      | .file _ (line :: _) _ =>
          match testNode state.dbMode line with
          | some node => offerAccesses state node
          | none => []
      | _ => []
  | .decoderFormat =>
      match state.decoder with
      | .holding node => [.read (.node node.ident), .alloc (.text node.ident)]
      | _ => []
  | .decoderDownload download now =>
      match state.decoder with
      | .holding node => downloadAccesses parse print node now download
      | _ => []
  | .decoderAdd =>
      match state.decoder with
      | .queueing message mode => addAccesses state message mode
      | _ => []
  | .storerSend delivered =>
      match state.storer with
      | .holding data => sendAccesses data delivered
      | _ => []
  | _ => []

/--
The blocks of which a step loses the last pointer: an object that was decoded,
and the message of a deletion for which there is no place.
-/
def lostBy (state : State) : Pipeline.Event → List Block
  | .decoderDownload (.fetched buffer) now =>
      match state.decoder with
      | .holding node =>
          match documentMessage parse print now node.value buffer with
          | some (.ok _) => [.document node.ident]
          | _ => []
      | _ => []
  | .decoderAdd =>
      match state.decoder with
      | .queueing message .remove =>
          if (sfQueueAdd state.prq (some message)).1 = 0 then
            []
          else
            [.text message.ident]
      | _ => []
  | _ => []

end Accesses

/-! ## The reader with its heap -/

/--
The reader, with what the decoder has still to free behind `sf_queue_add`, its
heap, and the blocks that nothing points to any more.
-/
structure Process where
  reader : State
  behind : Option (Nat × DbMode)
  heap : Heap Block
  lost : List Block

inductive Event where
  /-- A step of the reader. -/
  | party (event : Pipeline.Event)
  /-- A download that breaks off when something has been collected. -/
  | brokenDownload
  /-- The rest of a turn of the decoder, from `sf_queue_add` to `next_it`. -/
  | nextIt

/-- What the decoder has to free behind a step. -/
def behindAfter (process : Process) : Pipeline.Event → Option (Nat × DbMode)
  | .decoderAdd =>
      match process.reader.decoder with
      | .queueing message mode => some (message.ident, mode)
      | _ => process.behind
  | _ => process.behind

/-- The decoder is not at the beginning of its loop. -/
def Waits (process : Process) : Pipeline.Event → Prop
  | .decoderGet => process.behind ≠ none
  | _ => False

instance (process : Process) :
    (event : Pipeline.Event) → Decidable (Waits process event)
  | .decoderGet => inferInstanceAs (Decidable (process.behind ≠ none))
  | .scan _ | .receive _ | .readLine | .closeCamera | .switchMode
  | .setExecutionEnds | .decoderReadEnds | .decoderFormat
  | .decoderDownload _ _ | .decoderAdd | .storerGet | .storerReadEnds
  | .storerSend _ => inferInstanceAs (Decidable False)

section Process

variable (debugLevel : Nat) (parse : CString → Option Json)
  (print : Json → CString)

/-- A step of the reader with its accesses. -/
def party (process : Process) (event : Pipeline.Event) : Option Process :=
  if Waits process event then
    none
  else
    (Pipeline.step parse print process.reader event).map fun reader =>
      { reader
        behind := behindAfter process event
        heap :=
          process.heap.accesses (accessesOf parse print process.reader event)
        lost := process.lost ++ lostBy parse print process.reader event }

/-- The buffer stays in `sf_download_file`, and the decoder is given none. -/
def brokenDownload (process : Process) : Option Process :=
  match process.reader.decoder with
  | .holding node =>
      (decoderDownload parse print .failed .empty process.reader).map
        fun reader =>
          { process with
            reader
            heap :=
              process.heap.accesses
                [.read (.node node.ident), .alloc (.payload node.ident),
                  .free (.node node.ident)]
            lost := process.lost ++ [.payload node.ident] }
  | _ => none

/-- What is accessed from the debug message on; `free(NULL)` does nothing. -/
def nextItAccesses (ident : Nat) : DbMode → List (Access Block)
  | .add =>
      (if 1 < debugLevel then [.read (.text ident)] else []) ++
        [.free (.node ident), .free (.payload ident)]
  | .remove => [.free (.node ident)]

/-- The decoder comes to `next_it` and frees what it holds. -/
def nextIt (process : Process) : Option Process :=
  process.behind.map fun (ident, mode) =>
    { process with
      behind := none
      heap := process.heap.accesses (nextItAccesses debugLevel ident mode) }

def step (process : Process) : Event → Option Process
  | .party event => party parse print process event
  | .brokenDownload => brokenDownload parse print process
  | .nextIt => nextIt debugLevel process

end Process

/-- The reader behind the creation of the threads. -/
def start (idSize prSize : Int) (scanner : Scanner) : Process where
  reader := Pipeline.start idSize prSize scanner
  behind := none
  heap := .empty
  lost := []

/-! ## Who owns a block -/

/-- The nodes whose messages are not yet handed over. -/
def nodesHeld (state : State) : List Nat :=
  occupants state .idQueue ++ occupants state .decoderHands

/-- The messages on their way to the daemon. -/
def textsHeld (state : State) : List Nat :=
  state.decoder.message.map Tagged.ident ++
    (occupants state .productQueue ++ occupants state .storerHands)

/-- The download whose message is not yet handed over. -/
def payloadHeld : Decoder → Option Nat
  | .queueing message .add => some message.ident
  | _ => none

/-- A party will come to free the block. -/
def Owned (process : Process) : Block → Prop
  | .node ident =>
      ident ∈ nodesHeld process.reader ∨
        ∃ mode, process.behind = some (ident, mode)
  | .payload ident =>
      payloadHeld process.reader.decoder = some ident ∨
        process.behind = some (ident, .add)
  | .document _ => False
  | .text ident => ident ∈ textsHeld process.reader

section Owned

variable {process : Process} {ident : Nat}

@[simp]
theorem owned_node :
    Owned process (.node ident) ↔
      ident ∈ nodesHeld process.reader ∨
        ∃ mode, process.behind = some (ident, mode) :=
  Iff.rfl

@[simp]
theorem owned_payload :
    Owned process (.payload ident) ↔
      payloadHeld process.reader.decoder = some ident ∨
        process.behind = some (ident, .add) :=
  Iff.rfl

@[simp]
theorem not_owned_document : ¬ Owned process (.document ident) :=
  id

@[simp]
theorem owned_text :
    Owned process (.text ident) ↔ ident ∈ textsHeld process.reader :=
  Iff.rfl

end Owned

/-- The node is no longer waiting for its message. -/
structure Made (state : State) (ident : Nat) : Prop where
  known : ident < state.accepted.length
  notQueued : ident ∉ occupants state .idQueue
  notHeld : ident ∉ state.decoder.node.map Tagged.ident

/-- When a block can have lost its last pointer. -/
def MayBeLost (process : Process) : Block → Prop
  | .node _ => False
  | .payload ident =>
      ident ∈ process.reader.discarded ∧
        ∀ mode, process.behind ≠ some (ident, mode)
  | .document ident => Made process.reader ident
  | .text ident =>
      ident ∈ process.reader.discarded ∧ process.behind ≠ some (ident, .add)

/-- A read of a message that was freed before. -/
def IsTextRead (access : Access Block) : Prop :=
  ∃ ident, access = .read (.text ident)

section Accounted

variable (parse : CString → Option Json) (print : Json → CString)

/-- Every live block is owned or lost, and only messages are read too late. -/
structure Accounted (process : Process) : Prop where
  reader : Invariant parse print process.reader
  behind : ∀ ident mode, process.behind = some (ident, mode) →
    process.reader.decoder = .fetch ∧ Made process.reader ident
  live : ∀ block, block ∈ process.heap.live ↔
    Owned process block ∨ block ∈ process.lost
  lost : ∀ block ∈ process.lost, MayBeLost process block
  faults : ∀ fault ∈ process.heap.faults, IsTextRead fault

variable {parse print}

section Places

variable {state : State} {ident : Nat}

/-- A node that is in one place is in no other. -/
theorem apart (counted : CountedOnce state) (place other : Place)
    (different : place ≠ other) (here : ident ∈ occupants state place) :
    ident ∉ occupants state other := by
  intro there
  have total := counted ident
  have atMost : occurrences state ident ≤ 1 := by
    rw [total]
    split
    · exact Nat.le_refl 1
    · exact Nat.zero_le 1
  rw [occurrences] at atMost
  have oneHere := List.count_pos_iff.mpr here
  have oneThere := List.count_pos_iff.mpr there
  cases place <;> cases other <;> first | exact different rfl | omega

theorem lt_of_occupant (counted : CountedOnce state) {place : Place}
    (here : ident ∈ occupants state place) : ident < state.accepted.length := by
  by_contra outside
  have total := counted ident
  rw [if_neg outside, occurrences] at total
  have one := List.count_pos_iff.mpr here
  cases place <;> omega

end Places

section Process

variable {process : Process}

theorem Accounted.lt_of_node (accounted : Accounted parse print process)
    {ident : Nat} (live : .node ident ∈ process.heap.live) :
    ident < process.reader.accepted.length := by
  rcases (accounted.live _).mp live with (held | ⟨mode, behind⟩) | lost
  · rcases List.mem_append.mp held with queued | inHands
    · exact lt_of_occupant accounted.reader.counted queued
    · exact lt_of_occupant accounted.reader.counted inHands
  · exact (accounted.behind ident mode behind).2.known
  · exact (accounted.lost _ lost).elim

/-- The name of the next node is free. -/
theorem Accounted.node_fresh (accounted : Accounted parse print process) :
    .node process.reader.accepted.length ∉ process.heap.live :=
  fun live => Nat.lt_irrefl _ (accounted.lt_of_node live)

/-- The decoder frees what it holds before it asks for another node. -/
theorem Accounted.fetching (accounted : Accounted parse print process)
    (pending : process.behind ≠ none) : process.reader.decoder = .fetch := by
  obtain ⟨⟨ident, mode⟩, mine⟩ := Option.ne_none_iff_exists'.mp pending
  exact (accounted.behind ident mode mine).1

theorem Accounted.behind_eq_none (accounted : Accounted parse print process)
    (busy : process.reader.decoder ≠ .fetch) : process.behind = none := by
  by_contra pending
  exact busy (accounted.fetching pending)

/-- While the decoder holds a node, nothing of its message exists. -/
theorem Accounted.fresh_of_holding (accounted : Accounted parse print process)
    {node : Tagged ProductNode}
    (held : process.reader.decoder = .holding node) :
    .payload node.ident ∉ process.heap.live ∧
      .document node.ident ∉ process.heap.live ∧
        .text node.ident ∉ process.heap.live := by
  have counted := accounted.reader.counted
  have inHands : node.ident ∈ occupants process.reader .decoderHands := by
    simp [occupants, held]
  have notBehind : process.behind = none :=
    accounted.behind_eq_none (by simp [held])
  have notDiscarded : node.ident ∉ process.reader.discarded :=
    apart counted .decoderHands .discarded (by decide) inHands
  refine ⟨?_, ?_, ?_⟩
  · intro live
    rcases (accounted.live _).mp live with (mine | behind) | lost
    · simp [payloadHeld, held] at mine
    · rw [notBehind] at behind
      cases behind
    · exact notDiscarded (accounted.lost _ lost).1
  · intro live
    rcases (accounted.live _).mp live with impossible | lost
    · exact impossible
    · exact (accounted.lost _ lost).notHeld (by simp [held])
  · intro live
    rcases (accounted.live _).mp live with mine | lost
    · have elsewhere : node.ident ∈ occupants process.reader .productQueue ∨
          node.ident ∈ occupants process.reader .storerHands := by
        simpa [textsHeld, held] using owned_text.mp mine
      rcases elsewhere with queued | stored
      · exact
          apart counted .decoderHands .productQueue (by decide) inHands queued
      · exact
          apart counted .decoderHands .storerHands (by decide) inHands stored
    · exact notDiscarded (accounted.lost _ lost).1

variable (parse print) in
/-- A step keeps the account, and each of its accesses is sound. -/
structure Continues (process after : Process) : Prop where
  accounted : Accounted parse print after
  faults : after.heap.faults = process.heap.faults

/-- The bookkeeping of a step: its accesses are sound and add up. -/
theorem Accounted.next (accounted : Accounted parse print process)
    {after : Process} {accesses : List (Access Block)}
    (reader : Invariant parse print after.reader)
    (heap : after.heap = process.heap.accesses accesses)
    (sound : AllSound process.heap.live accesses)
    (behind : ∀ ident mode, after.behind = some (ident, mode) →
      after.reader.decoder = .fetch ∧ Made after.reader ident)
    (live : ∀ block, block ∈ liveAfter process.heap.live accesses ↔
      Owned after block ∨ block ∈ after.lost)
    (lost : ∀ block ∈ after.lost, MayBeLost after block) :
    Continues parse print process after := by
  have faults : after.heap.faults = process.heap.faults := by
    rw [heap, Heap.faults_of_allSound sound]
  refine ⟨⟨reader, behind, ?_, lost, ?_⟩, faults⟩
  · intro block
    rw [heap, Heap.accesses_live]
    exact live block
  · rw [faults]
    exact accounted.faults

/-- What was made or given up stays so. -/
structure Forward (state next : State) : Prop where
  made : ∀ ident, Made state ident → Made next ident
  discarded : ∀ ident ∈ state.discarded, ident ∈ next.discarded

theorem Forward.mayBeLost {after : Process}
    (forward : Forward process.reader after.reader)
    (behind : after.behind = process.behind) {block : Block}
    (lost : MayBeLost process block) : MayBeLost after block := by
  cases block with
  | node ident => exact lost
  | payload ident =>
      refine ⟨forward.discarded ident lost.1, ?_⟩
      rw [behind]
      exact lost.2
  | document ident => exact forward.made ident lost
  | text ident =>
      refine ⟨forward.discarded ident lost.1, ?_⟩
      rw [behind]
      exact lost.2

/-- The parties own the same blocks. -/
structure SameBlocks (state next : State) : Prop extends
    Forward state next where
  nodes : ∀ ident, ident ∈ nodesHeld next ↔ ident ∈ nodesHeld state
  payloads : payloadHeld next.decoder = payloadHeld state.decoder
  texts : ∀ ident, ident ∈ textsHeld next ↔ ident ∈ textsHeld state

theorem Accounted.same (accounted : Accounted parse print process)
    {after : Process} {accesses : List (Access Block)}
    (same : SameBlocks process.reader after.reader)
    (reader : Invariant parse print after.reader)
    (heap : after.heap = process.heap.accesses accesses)
    (sound : AllSound process.heap.live accesses)
    (unchanged : liveAfter process.heap.live accesses = process.heap.live)
    (behind : after.behind = process.behind)
    (fetching : process.behind ≠ none → after.reader.decoder = .fetch)
    (lost : after.lost = process.lost) :
    Continues parse print process after := by
  refine accounted.next reader heap sound ?_ ?_ ?_
  · intro ident mode mine
    rw [behind] at mine
    exact
      ⟨fetching (by rw [mine]; exact Option.some_ne_none _),
        same.made ident (accounted.behind ident mode mine).2⟩
  · intro block
    rw [unchanged, accounted.live, lost]
    cases block <;>
      simp [same.nodes, same.payloads, same.texts, behind]
  · rw [lost]
    intro block member
    exact same.toForward.mayBeLost behind (accounted.lost block member)

/-! ### Steps of the scanner -/

/-- The scanner moves on without a node, or it offers one. -/
theorem scan_turn {state next : State} {event : Pipeline.Event}
    (scans : IsScan event ∨ event = .setExecutionEnds)
    (stepped : Pipeline.step parse print state event = some next) :
    (accessesOf parse print state event = [] ∧
        ∃ scanner dbMode executionEnds log,
          next = { state with scanner, dbMode, executionEnds, log }) ∨
      ∃ node scanner,
        accessesOf parse print state event = offerAccesses state node ∧
          next = offer node { state with scanner } := by
  cases event with
  | scan symbol =>
      change scan symbol state = some next at stepped
      simp only [scan] at stepped
      split at stepped
      · cases stepped
        exact .inr ⟨_, state.scanner, rfl, rfl⟩
      · cases stepped
  | receive msg =>
      change receive msg state = some next at stepped
      simp only [receive] at stepped
      split at stepped
      · split at stepped
        next node found =>
          cases stepped
          refine .inr ⟨node, state.scanner, ?_, rfl⟩
          simp only [accessesOf, found]
        next found =>
          cases stepped
          refine .inl ⟨?_, _, _, _, _, rfl⟩
          simp only [accessesOf, found]
      · cases stepped
  | readLine =>
      change readLine state = some next at stepped
      simp only [readLine] at stepped
      split at stepped
      next whole line rest repeats source =>
        split at stepped
        next node found =>
          cases stepped
          refine .inr ⟨node, .file whole rest repeats, ?_, rfl⟩
          simp only [accessesOf, source, found]
        next found =>
          cases stepped
          refine .inl ⟨?_, _, _, _, _, rfl⟩
          simp only [accessesOf, source, found]
      next whole source =>
        cases stepped
        refine .inl ⟨?_, _, _, _, _, rfl⟩
        simp only [accessesOf, source]
      next whole source =>
        cases stepped
        refine .inl ⟨?_, _, _, _, _, rfl⟩
        simp only [accessesOf, source]
      next => cases stepped
  | closeCamera =>
      change closeCamera state = some next at stepped
      simp only [closeCamera] at stepped
      split at stepped <;> cases stepped
      exact .inl ⟨rfl, _, _, _, _, rfl⟩
  | switchMode =>
      change switchMode state = some next at stepped
      simp only [switchMode] at stepped
      split at stepped <;> cases stepped
      exact .inl ⟨rfl, _, _, _, _, rfl⟩
  | setExecutionEnds =>
      rw [setExecutionEnds_eq stepped]
      exact .inl ⟨rfl, _, _, _, _, rfl⟩
  | _ => rcases scans with scans | same <;> contradiction

/-- The scanner has moved on, and the parties are where they were. -/
theorem sameBlocks_moves (state : State) (scanner : Scanner) (dbMode : DbMode)
    (executionEnds : Bool) (log : List LogRecord) :
    SameBlocks state { state with scanner, dbMode, executionEnds, log } where
  made := fun _ made => ⟨made.known, made.notQueued, made.notHeld⟩
  discarded := fun _ member => member
  nodes := fun _ => Iff.rfl
  payloads := rfl
  texts := fun _ => Iff.rfl

/-- A node that was offered is in the queue and allocated, or it is freed. -/
theorem Accounted.offer (accounted : Accounted parse print process)
    {after : Process} (node : ProductNode) (scanner : Scanner)
    (reader : Invariant parse print after.reader)
    (offered :
      after.reader = Pipeline.offer node { process.reader with scanner })
    (heap :
      after.heap = process.heap.accesses (offerAccesses process.reader node))
    (behind : after.behind = process.behind)
    (lost : after.lost = process.lost) :
    Continues parse print process after := by
  have fresh := accounted.node_fresh
  obtain ⟨_, ⟨accepted, stored⟩ | ⟨refused, _⟩⟩ :=
    add_contents accounted.reader.idqFormed
      (⟨process.reader.accepted.length, node⟩ : Tagged ProductNode)
  · have queued : after.reader =
        { process.reader with
          scanner
          idq :=
            (sfQueueAdd process.reader.idq
              (some ⟨process.reader.accepted.length, node⟩)).2
          accepted := process.reader.accepted ++ [node] } := by
      rw [offered, Pipeline.offer]
      simp only [accepted, if_true]
    have isQueued : ∀ ident, ident ∈ occupants after.reader .idQueue ↔
        ident = process.reader.accepted.length ∨
          ident ∈ occupants process.reader .idQueue := by
      intro ident
      rw [queued]
      simp only [occupants, (stored.map Tagged.ident).mem_iff, List.map_cons,
        List.mem_cons]
    have forward : Forward process.reader after.reader := by
      constructor
      · intro ident made
        refine ⟨?_, ?_, ?_⟩
        · rw [queued]
          simp only [List.length_append, List.length_singleton]
          exact Nat.lt_succ_of_lt made.known
        · rw [isQueued, not_or]
          exact ⟨made.known.ne, made.notQueued⟩
        · rw [queued]
          exact made.notHeld
      · rw [queued]
        exact fun _ member => member
    have accesses : offerAccesses process.reader node =
        [.alloc (.node process.reader.accepted.length)] := if_pos accepted
    refine accounted.next reader heap ?_ ?_ ?_ ?_
    · simp [accesses, fresh]
    · intro ident mode mine
      rw [behind] at mine
      obtain ⟨idle, made⟩ := accounted.behind ident mode mine
      refine ⟨?_, forward.made ident made⟩
      rw [queued]
      exact idle
    · intro block
      rw [accesses, liveAfter_cons, liveAfter_nil, after_alloc,
        Finset.mem_insert, accounted.live, lost]
      have hands : occupants after.reader .decoderHands =
          occupants process.reader .decoderHands := by
        rw [queued]
        rfl
      cases block with
      | node ident =>
          simp only [owned_node, nodesHeld, List.mem_append, isQueued, hands,
            behind, Block.node.injEq, or_assoc]
      | payload ident => simp [queued, behind]
      | document ident => simp
      | text ident => simp [textsHeld, occupants, queued]
    · rw [lost]
      intro block member
      exact forward.mayBeLost behind (accounted.lost block member)
  · have freed : offerAccesses process.reader node =
        [.alloc (.node process.reader.accepted.length),
          .read (.node process.reader.accepted.length),
          .free (.node process.reader.accepted.length)] := by
      rw [offerAccesses, refused]
      rfl
    have kept : after.reader =
        { process.reader with
          scanner
          log :=
            process.reader.log ++ [⟨none, .fullQueue (some node.code)⟩] } := by
      rw [offered, Pipeline.offer]
      simp only [refused]
      rfl
    rw [freed] at heap
    refine accounted.same ?_ reader heap ?_ ?_ behind ?_ lost
    · rw [kept]
      exact sameBlocks_moves _ _ _ _ _
    · simp [fresh]
    · simp [fresh]
    · rw [kept]
      exact accounted.fetching

/-! ### Steps of the decoder -/

theorem Forward.of_same {state next : State}
    (accepted : next.accepted = state.accepted) (idq : next.idq = state.idq)
    (node : ∀ ident, ident ∈ next.decoder.node.map Tagged.ident →
      ident ∈ state.decoder.node.map Tagged.ident)
    (discarded : ∀ ident ∈ state.discarded, ident ∈ next.discarded) :
    Forward state next where
  made := by
    intro ident made
    refine ⟨?_, ?_, fun held => made.notHeld (node ident held)⟩
    · rw [accepted]
      exact made.known
    · rw [occupants, idq]
      exact made.notQueued
  discarded := discarded

/-- The decoder takes a node out of the queue. -/
theorem sameBlocks_takes {state : State} {node : Tagged ProductNode}
    {idq : Queue (Tagged ProductNode)} (fetching : state.decoder = .fetch)
    (taken : state.idq.contents.Perm (node :: idq.contents)) :
    SameBlocks state { state with idq, decoder := .holding node } := by
  have isQueued : ∀ ident, ident ∈ occupants state .idQueue ↔
      ident = node.ident ∨ ident ∈ idq.contents.map Tagged.ident := by
    intro ident
    simp only [occupants, (taken.map Tagged.ident).mem_iff, List.map_cons,
      List.mem_cons]
  constructor
  · constructor
    · intro ident made
      have notQueued := made.notQueued
      rw [isQueued, not_or] at notQueued
      exact ⟨made.known, notQueued.2, by simp [notQueued.1]⟩
    · exact fun _ member => member
  · intro ident
    simp only [nodesHeld, List.mem_append, isQueued]
    simp [occupants, fetching, or_comm]
  · simp [payloadHeld, fetching]
  · simp [textsHeld, occupants, fetching]

/-- The decoder moves on without a node. -/
theorem sameBlocks_idles {state : State} {decoder : Decoder}
    {log : List LogRecord} (before : state.decoder.holds = [])
    (after : decoder.holds = []) :
    SameBlocks state { state with decoder, log } := by
  obtain ⟨noNode, noMessage⟩ := Decoder.holds_eq_nil.mp before
  obtain ⟨stillNoNode, stillNoMessage⟩ := Decoder.holds_eq_nil.mp after
  have noPayload : ∀ point : Decoder, point.message = [] →
      payloadHeld point = none := by
    intro point none
    cases point with
    | queueing message mode => cases none
    | _ => rfl
  constructor
  · exact .of_same rfl rfl (by simp [stillNoNode]) fun _ member => member
  · simp [nodesHeld, occupants, before, after]
  · simp only [noPayload _ noMessage, noPayload _ stillNoMessage]
  · simp [textsHeld, occupants, noMessage, stillNoMessage]

/-- The decoder gives up the node that it holds and frees it. -/
theorem Accounted.givesUp (accounted : Accounted parse print process)
    {after : Process} {accesses : List (Access Block)} {news : List Block}
    {node : Tagged ProductNode} {entries : List LogEntry}
    (held : process.reader.decoder = .holding node)
    (reader : Invariant parse print after.reader)
    (given : after.reader = process.reader.givesUp node.ident entries)
    (heap : after.heap = process.heap.accesses accesses)
    (sound : AllSound process.heap.live accesses)
    (live : ∀ block, block ∈ liveAfter process.heap.live accesses ↔
      block ≠ .node node.ident ∧ block ∈ process.heap.live ∨ block ∈ news)
    (behind : after.behind = process.behind)
    (lost : after.lost = process.lost ++ news)
    (payload : ∀ block ∈ news, block = .payload node.ident) :
    Continues parse print process after := by
  have notBehind : process.behind = none :=
    accounted.behind_eq_none (by simp [held])
  have notQueued : node.ident ∉ occupants process.reader .idQueue := by
    intro queued
    have inHands : node.ident ∈ occupants process.reader .decoderHands := by
      simp [occupants, held]
    exact
      apart accounted.reader.counted .idQueue .decoderHands (by decide) queued
        inHands
  have forward : Forward process.reader after.reader := by
    rw [given]
    refine .of_same rfl rfl (by simp [State.givesUp]) ?_
    intro ident member
    exact List.mem_append_left _ member
  rw [notBehind] at behind
  refine accounted.next reader heap sound ?_ ?_ ?_
  · intro ident mode mine
    rw [behind] at mine
    cases mine
  · intro block
    rw [live, accounted.live, lost, List.mem_append]
    have owned : Owned after block ↔
        block ≠ .node node.ident ∧ Owned process block := by
      cases block with
      | node ident =>
          have other : ident ∈ occupants process.reader .idQueue →
              ident ≠ node.ident := by
            rintro queued rfl
            exact notQueued queued
          rw [owned_node, owned_node, given, behind, notBehind]
          simp only [nodesHeld, State.givesUp, occupants, held,
            Decoder.holds_holding, Decoder.holds_fetch, List.append_nil,
            List.mem_append, List.mem_singleton, reduceCtorEq, exists_false,
            or_false, ne_eq, Block.node.injEq]
          rw [occupants] at other
          tauto
      | payload ident =>
          simp [given, behind, notBehind, State.givesUp, payloadHeld, held]
      | document ident => simp
      | text ident =>
          simp [given, State.givesUp, textsHeld, occupants, held]
    have keeps : block ∈ process.lost → block ≠ .node node.ident := by
      rintro member rfl
      exact accounted.lost _ member
    rw [owned]
    tauto
  · rw [lost]
    intro block member
    rcases List.mem_append.mp member with before | new
    · exact
        forward.mayBeLost (behind.trans notBehind.symm)
          (accounted.lost block before)
    · rw [payload block new]
      refine ⟨?_, ?_⟩
      · rw [given]
        exact List.mem_append_right _ (List.mem_singleton_self _)
      · rw [behind]
        simp

/-- The decoder has made the message of the node that it holds. -/
theorem Accounted.formats (accounted : Accounted parse print process)
    {after : Process} {accesses : List (Access Block)} {news : List Block}
    {node : Tagged ProductNode} {text : CString} {mode : DbMode}
    (held : process.reader.decoder = .holding node)
    (reader : Invariant parse print after.reader)
    (made : after.reader =
      { process.reader with decoder := .queueing ⟨node.ident, text⟩ mode })
    (heap : after.heap = process.heap.accesses accesses)
    (sound : AllSound process.heap.live accesses)
    (live : ∀ block, block ∈ liveAfter process.heap.live accesses ↔
      block = .text node.ident ∨ mode = .add ∧ block = .payload node.ident ∨
        block ∈ process.heap.live ∨ block ∈ news)
    (behind : after.behind = process.behind)
    (lost : after.lost = process.lost ++ news)
    (document : ∀ block ∈ news, block = .document node.ident) :
    Continues parse print process after := by
  have notBehind : process.behind = none :=
    accounted.behind_eq_none (by simp [held])
  have inHands : node.ident ∈ occupants process.reader .decoderHands := by
    simp [occupants, held]
  have forward : Forward process.reader after.reader := by
    rw [made]
    exact .of_same rfl rfl (by simp) fun _ member => member
  rw [notBehind] at behind
  refine accounted.next reader heap sound ?_ ?_ ?_
  · intro ident mode mine
    rw [behind] at mine
    cases mine
  · intro block
    rw [live, accounted.live, lost, List.mem_append]
    have owned : Owned after block ↔
        block = .text node.ident ∨
          mode = .add ∧ block = .payload node.ident ∨
            Owned process block := by
      cases block with
      | node ident =>
          simp [made, behind, notBehind, nodesHeld, occupants, held]
      | payload ident =>
          rw [owned_payload, owned_payload, made, behind, notBehind, held]
          cases mode with
          | add => simp [payloadHeld, eq_comm]
          | remove => simp [payloadHeld]
      | document ident => simp
      | text ident => simp [made, textsHeld, occupants, held]
    rw [owned]
    tauto
  · rw [lost]
    intro block member
    rcases List.mem_append.mp member with before | new
    · exact
        forward.mayBeLost (behind.trans notBehind.symm)
          (accounted.lost block before)
    · rw [document block new]
      refine ⟨?_, ?_, ?_⟩
      · have known := lt_of_occupant accounted.reader.counted inHands
        rw [made]
        exact known
      · rw [made]
        exact
          apart accounted.reader.counted .decoderHands .idQueue (by decide)
            inHands
      · simp [made]

/-- The decoder has called `sf_queue_add` and goes on to `next_it`. -/
theorem Accounted.adds (accounted : Accounted parse print process)
    {after : Process} {accesses : List (Access Block)}
    {message : Tagged CString} {mode : DbMode}
    (held : process.reader.decoder = .queueing message mode)
    (reader : Invariant parse print after.reader)
    (decoder : after.reader.decoder = .fetch)
    (idq : after.reader.idq = process.reader.idq)
    (accepted : after.reader.accepted = process.reader.accepted)
    (discarded : ∀ ident ∈ process.reader.discarded,
      ident ∈ after.reader.discarded)
    (behind : after.behind = some (message.ident, mode))
    (heap : after.heap = process.heap.accesses accesses)
    (sound : AllSound process.heap.live accesses)
    (texts : ∀ ident,
      .text ident ∈ liveAfter process.heap.live accesses ↔
        ident ∈ textsHeld after.reader ∨ .text ident ∈ after.lost)
    (others : ∀ block, (∀ ident, block ≠ .text ident) →
      (block ∈ liveAfter process.heap.live accesses ↔
          block ∈ process.heap.live) ∧
        (block ∈ after.lost ↔ block ∈ process.lost))
    (lostText : ∀ ident, .text ident ∈ after.lost →
      .text ident ∈ process.lost ∨
        ident ∈ after.reader.discarded ∧ mode = .remove) :
    Continues parse print process after := by
  have counted := accounted.reader.counted
  have notBehind : process.behind = none :=
    accounted.behind_eq_none (by simp [held])
  have inHands : message.ident ∈ occupants process.reader .decoderHands := by
    simp [occupants, held]
  have notQueued : message.ident ∉ occupants process.reader .idQueue :=
    apart counted .decoderHands .idQueue (by decide) inHands
  have notDiscarded : ∀ ident ∈ process.reader.discarded,
      ident ≠ message.ident := by
    rintro ident member rfl
    exact apart counted .discarded .decoderHands (by decide) member inHands
  have forward : Forward process.reader after.reader :=
    .of_same accepted idq (by simp [decoder]) discarded
  refine accounted.next reader heap sound ?_ ?_ ?_
  · intro ident other mine
    rw [behind] at mine
    cases mine
    refine ⟨decoder, ?_, ?_, ?_⟩
    · rw [accepted]
      exact lt_of_occupant counted inHands
    · rw [occupants, idq]
      exact notQueued
    · simp [decoder]
  · intro block
    cases block with
    | node ident =>
        obtain ⟨live, lost⟩ := others (.node ident) (by simp)
        rw [live, lost, accounted.live, owned_node, owned_node, behind,
          notBehind]
        simp [nodesHeld, occupants, idq, decoder, held, eq_comm]
    | payload ident =>
        obtain ⟨live, lost⟩ := others (.payload ident) (by simp)
        rw [live, lost, accounted.live, owned_payload, owned_payload, behind,
          notBehind, decoder, held]
        cases mode with
        | add => simp [payloadHeld]
        | remove => simp [payloadHeld]
    | document ident =>
        obtain ⟨live, lost⟩ := others (.document ident) (by simp)
        rw [live, lost, accounted.live]
        simp
    | text ident => exact texts ident
  · intro block member
    cases block with
    | node ident =>
        exact accounted.lost _ ((others (.node ident) (by simp)).2.mp member)
    | payload ident =>
        have before :=
          accounted.lost _ ((others (.payload ident) (by simp)).2.mp member)
        refine ⟨discarded ident before.1, ?_⟩
        intro other mine
        rw [behind] at mine
        cases mine
        exact notDiscarded _ before.1 rfl
    | document ident =>
        exact
          forward.made ident
            (accounted.lost _
              ((others (.document ident) (by simp)).2.mp member))
    | text ident =>
        rcases lostText ident member with earlier | ⟨gone, removal⟩
        · have before := accounted.lost _ earlier
          refine ⟨discarded ident before.1, ?_⟩
          intro mine
          rw [behind] at mine
          cases mine
          exact notDiscarded _ before.1 rfl
        · refine ⟨gone, ?_⟩
          rw [behind, removal]
          simp

/-- A message that is read too late is the only thing that goes wrong. -/
theorem Accounted.reads (accounted : Accounted parse print process)
    (ident : Nat) :
    Accounted parse print
      { process with
        heap := process.heap.access (.read (.text ident)) } where
  reader := accounted.reader
  behind := accounted.behind
  live := accounted.live
  lost := accounted.lost
  faults := by
    intro fault member
    simp only [Heap.access] at member
    split at member
    · exact accounted.faults fault member
    · rcases List.mem_append.mp member with before | new
      · exact accounted.faults fault before
      · exact ⟨ident, List.mem_singleton.mp new⟩

/-- The accesses behind the debug message. -/
def releases (ident : Nat) : DbMode → List (Access Block)
  | .add => [.free (.node ident), .free (.payload ident)]
  | .remove => [.free (.node ident)]

theorem nextItAccesses_eq (debugLevel ident : Nat) (mode : DbMode) :
    nextItAccesses debugLevel ident mode =
      (if 1 < debugLevel ∧ mode = .add then [.read (.text ident)] else []) ++
        releases ident mode := by
  cases mode with
  | add => simp [nextItAccesses, releases]
  | remove => simp [nextItAccesses, releases]

theorem mem_liveAfter_releases {live : Finset Block} {ident : Nat}
    {mode : DbMode} {block : Block} :
    block ∈ liveAfter live (releases ident mode) ↔
      block ∈ live ∧ block ≠ .node ident ∧
        (mode = .add → block ≠ .payload ident) := by
  cases mode with
  | add =>
      simp only [releases, liveAfter_cons, liveAfter_nil, after_free,
        Finset.mem_erase, forall_const]
      tauto
  | remove =>
      simp only [releases, liveAfter_cons, liveAfter_nil, after_free,
        Finset.mem_erase]
      simp [and_comm]

/-- What the decoder frees at `next_it` is live. -/
theorem Accounted.releases_sound (accounted : Accounted parse print process)
    {ident : Nat} {mode : DbMode}
    (behind : process.behind = some (ident, mode)) :
    AllSound process.heap.live (releases ident mode) := by
  have node : .node ident ∈ process.heap.live := by
    rw [accounted.live]
    exact .inl (.inr ⟨mode, behind⟩)
  cases mode with
  | add =>
      have payload : .payload ident ∈ process.heap.live := by
        rw [accounted.live]
        exact .inl (.inr behind)
      simp [releases, node, payload]
  | remove => simp [releases, node]

/-- The decoder comes to `next_it`. -/
theorem Accounted.releases (accounted : Accounted parse print process)
    {ident : Nat} {mode : DbMode}
    (behind : process.behind = some (ident, mode)) :
    Continues parse print process
      { process with
        behind := none
        heap := process.heap.accesses (releases ident mode) } := by
  obtain ⟨idle, made⟩ := accounted.behind ident mode behind
  refine accounted.next accounted.reader rfl
    (accounted.releases_sound behind) ?_ ?_ ?_
  · intro other point mine
    cases mine
  · intro block
    rw [mem_liveAfter_releases, accounted.live]
    cases block with
    | node other =>
        have notHeld : ident ∉ nodesHeld process.reader := by
          rw [nodesHeld, List.mem_append, not_or]
          exact ⟨made.notQueued, by simp [occupants, idle]⟩
        have held : other ∈ nodesHeld process.reader → other ≠ ident := by
          rintro member rfl
          exact notHeld member
        have gone : .node other ∉ process.lost := fun gone =>
          accounted.lost _ gone
        have mine : (∃ point, process.behind = some (other, point)) →
            other = ident := by
          rintro ⟨point, same⟩
          rw [behind] at same
          cases same
          rfl
        simp only [owned_node, gone, ne_eq, Block.node.injEq, reduceCtorEq,
          not_false_eq_true, implies_true, exists_false, or_false, and_true]
        tauto
    | payload other =>
        have gone : .payload other ∈ process.lost → other ≠ ident := by
          rintro gone rfl
          exact (accounted.lost _ gone).2 mode behind
        have mine : process.behind = some (other, .add) ↔
            other = ident ∧ mode = .add := by
          rw [behind]
          constructor
          · intro same
            cases same
            exact ⟨rfl, rfl⟩
          · rintro ⟨rfl, rfl⟩
            rfl
        simp only [owned_payload, payloadHeld, idle, mine, ne_eq,
          Block.payload.injEq, reduceCtorEq, not_false_eq_true, false_or,
          true_and]
        tauto
    | document other => simp
    | text other => simp
  · intro block member
    have before := accounted.lost block member
    cases block with
    | node other => exact before
    | payload other => exact ⟨before.1, by simp⟩
    | document other => exact before
    | text other => exact ⟨before.1, by simp⟩

/-! ### Steps of the storer -/

/-- The storer has sent its message and frees it. -/
theorem Accounted.sends (accounted : Accounted parse print process)
    {after : Process} {data : Tagged CString}
    (held : process.reader.storer = .holding data)
    (reader : Invariant parse print after.reader)
    (sent : after.reader =
      { process.reader with
        storer := .fetch
        sent := process.reader.sent ++ [data] })
    (heap : after.heap = process.heap.accesses (sendAccesses data true))
    (behind : after.behind = process.behind)
    (lost : after.lost = process.lost) :
    Continues parse print process after := by
  have counted := accounted.reader.counted
  have inHands : data.ident ∈ occupants process.reader .storerHands := by
    simp [occupants, held]
  have live : .text data.ident ∈ process.heap.live := by
    rw [accounted.live]
    left
    simp [textsHeld, inHands]
  have notQueued : data.ident ∉ occupants process.reader .productQueue :=
    apart counted .storerHands .productQueue (by decide) inHands
  have notMade : data.ident ∉
      process.reader.decoder.message.map Tagged.ident := by
    intro made
    have other : data.ident ∈ occupants process.reader .decoderHands :=
      List.mem_append_right _ made
    exact apart counted .decoderHands .storerHands (by decide) other inHands
  have notLost : .text data.ident ∉ process.lost := by
    intro gone
    exact
      apart counted .discarded .storerHands (by decide)
        (accounted.lost _ gone).1 inHands
  have forward : Forward process.reader after.reader := by
    rw [sent]
    exact .of_same rfl rfl (fun _ member => member) fun _ member => member
  refine accounted.next reader heap ?_ ?_ ?_ ?_
  · simp [sendAccesses, live]
  · intro ident mode mine
    rw [behind] at mine
    obtain ⟨idle, made⟩ := accounted.behind ident mode mine
    refine ⟨?_, forward.made ident made⟩
    rw [sent]
    exact idle
  · intro block
    have after_ : liveAfter process.heap.live (sendAccesses data true) =
        process.heap.live.erase (.text data.ident) := by
      simp [sendAccesses]
    rw [after_, Finset.mem_erase, accounted.live, lost]
    cases block with
    | node ident => simp [sent, nodesHeld, occupants, behind]
    | payload ident => simp [sent, behind]
    | document ident => simp
    | text ident =>
        have others : ident ∈ textsHeld after.reader → ident ≠ data.ident := by
          rintro member rfl
          rw [sent, textsHeld] at member
          simp only [occupants, Storer.data_fetch, List.map_nil,
            List.append_nil, List.mem_append] at member
          exact member.elim notMade notQueued
        have texts : ident ∈ textsHeld process.reader ↔
            ident = data.ident ∨ ident ∈ textsHeld after.reader := by
          simp only [textsHeld, occupants, sent, held, Storer.data_fetch,
            Storer.data_holding, List.mem_append, List.map_cons, List.map_nil,
            List.mem_singleton, List.append_nil]
          tauto
        have keeps : .text ident ∈ process.lost → ident ≠ data.ident := by
          rintro gone rfl
          exact notLost gone
        rw [owned_text, owned_text, texts]
        simp only [ne_eq, Block.text.injEq]
        tauto
  · rw [lost]
    intro block member
    exact forward.mayBeLost behind (accounted.lost block member)

theorem sameBlocks_storer {state : State} {storer : Storer}
    {prq : Queue (Tagged CString)} {log : List LogRecord}
    (texts : ∀ ident,
      ident ∈ prq.contents.map Tagged.ident ++
          storer.data.map Tagged.ident ↔
        ident ∈ occupants state .productQueue ++
          occupants state .storerHands) :
    SameBlocks state { state with prq, storer, log } where
  toForward := .of_same rfl rfl (fun _ member => member) fun _ member => member
  nodes := fun _ => Iff.rfl
  payloads := rfl
  texts := by
    intro ident
    exact
      (List.mem_append.trans (or_congr_right (texts ident))).trans
        List.mem_append.symm

/-! ### Any step -/

/-- A step of the reader that takes no block and gives none away. -/
theorem Accounted.quiet (accounted : Accounted parse print process)
    (event : Pipeline.Event) {reader : State}
    (stepped :
      Pipeline.step parse print process.reader event = some reader)
    (same : SameBlocks process.reader reader)
    (fetching : process.behind ≠ none → reader.decoder = .fetch)
    (behind : behindAfter process event = process.behind)
    (lost : lostBy parse print process.reader event = [])
    (sound :
      AllSound process.heap.live (accessesOf parse print process.reader event))
    (unchanged :
      liveAfter process.heap.live
          (accessesOf parse print process.reader event) =
        process.heap.live) :
    Continues parse print process
      { reader
        behind := behindAfter process event
        heap :=
          process.heap.accesses (accessesOf parse print process.reader event)
        lost := process.lost ++ lostBy parse print process.reader event } :=
  accounted.same same (invariant_step accounted.reader stepped) rfl sound
    unchanged behind fetching (by rw [lost, List.append_nil])

theorem Accounted.scan (accounted : Accounted parse print process)
    {event : Pipeline.Event} {reader : State}
    (scans : IsScan event ∨ event = .setExecutionEnds)
    (stepped :
      Pipeline.step parse print process.reader event = some reader) :
    Continues parse print process
      { reader
        behind := behindAfter process event
        heap :=
          process.heap.accesses (accessesOf parse print process.reader event)
        lost := process.lost ++ lostBy parse print process.reader event } := by
  have behind : behindAfter process event = process.behind := by
    rcases scans with scans | rfl
    · cases event <;> first | rfl | cases scans
    · rfl
  have lost : lostBy parse print process.reader event = [] := by
    rcases scans with scans | rfl
    · cases event <;> first | rfl | cases scans
    · rfl
  rcases scan_turn scans stepped with
    ⟨none, scanner, dbMode, ends, log, rfl⟩ | ⟨node, scanner, offers, rfl⟩
  · refine accounted.quiet event stepped (sameBlocks_moves _ _ _ _ _)
      accounted.fetching behind lost ?_ ?_
    · rw [none]
      exact allSound_nil
    · rw [none]
      rfl
  · exact
      accounted.offer node scanner (invariant_step accounted.reader stepped)
        rfl (by rw [offers]) behind (by rw [lost, List.append_nil])

theorem Accounted.decoderGet (accounted : Accounted parse print process)
    {reader : State} (idle : process.behind = none)
    (stepped : Pipeline.decoderGet process.reader = some reader) :
    Continues parse print process
      { reader
        behind := process.behind
        heap := process.heap.accesses []
        lost := process.lost ++ [] } := by
  have taken : SameBlocks process.reader reader := by
    have unfolded := stepped
    simp only [Pipeline.decoderGet] at unfolded
    split at unfolded
    next fetching =>
      rcases get_contents accounted.reader.idqFormed with
        ⟨_, ⟨nothing, _⟩ | ⟨node, taken, contents⟩⟩
      · simp only [nothing] at unfolded
        cases unfolded
        exact sameBlocks_idles (by simp [fetching]) rfl
      · split at unfolded
        next got idq same =>
          cases unfolded
          rw [same] at taken contents
          cases taken
          exact sameBlocks_takes fetching contents
        next idq same =>
          rw [same] at taken
          cases taken
    next => cases unfolded
  exact
    accounted.quiet .decoderGet stepped taken
      (fun pending => absurd idle pending) rfl rfl allSound_nil rfl

theorem Accounted.decoderReadEnds (accounted : Accounted parse print process)
    {reader : State}
    (stepped : Pipeline.decoderReadEnds process.reader = some reader) :
    Continues parse print process
      { reader
        behind := process.behind
        heap := process.heap.accesses []
        lost := process.lost ++ [] } := by
  have waiting := (decoderReadEnds_reads stepped).before
  have idles : SameBlocks process.reader reader := by
    have unfolded := stepped
    simp only [Pipeline.decoderReadEnds, waiting] at unfolded
    have free : process.reader.decoder.holds = [] := by
      rw [waiting]
      rfl
    split at unfolded
    · cases unfolded
      exact sameBlocks_idles free rfl
    · cases unfolded
      exact sameBlocks_idles free rfl
  refine
    accounted.quiet .decoderReadEnds stepped idles ?_ rfl rfl
      allSound_nil rfl
  intro pending
  have fetching := accounted.fetching pending
  rw [waiting] at fetching
  cases fetching

theorem Accounted.decoderFormat (accounted : Accounted parse print process)
    {reader : State}
    (stepped : Pipeline.decoderFormat process.reader = some reader) :
    Continues parse print process
      { reader
        behind := process.behind
        heap :=
          process.heap.accesses
            (accessesOf parse print process.reader .decoderFormat)
        lost := process.lost ++ [] } := by
  have asStep :
      Pipeline.step parse print process.reader .decoderFormat = some reader :=
    stepped
  have kept := invariant_step accounted.reader asStep
  simp only [Pipeline.decoderFormat] at stepped
  split at stepped
  next ident node held =>
    split at stepped
    next removes =>
      cases stepped
      obtain ⟨_, _, text⟩ := accounted.fresh_of_holding held
      have live : .node ident ∈ process.heap.live := by
        rw [accounted.live]
        left
        left
        simp [nodesHeld, occupants, held]
      refine accounted.formats held kept rfl rfl ?_ ?_ rfl rfl (by simp)
      · simp [accessesOf, held, live, text]
      · intro block
        simp [accessesOf, held]
    next => cases stepped
  next => cases stepped

theorem Accounted.decoderDownload (accounted : Accounted parse print process)
    {download : Download} {now : CString} {reader : State}
    (stepped :
      Pipeline.decoderDownload parse print download now process.reader =
        some reader) :
    Continues parse print process
      { reader
        behind := process.behind
        heap :=
          process.heap.accesses
            (accessesOf parse print process.reader
              (.decoderDownload download now))
        lost :=
          process.lost ++
            lostBy parse print process.reader
              (.decoderDownload download now) } := by
  have asStep :
      Pipeline.step parse print process.reader
          (.decoderDownload download now) =
        some reader :=
    stepped
  have kept := invariant_step accounted.reader asStep
  simp only [Pipeline.decoderDownload] at stepped
  split at stepped
  next ident node held =>
    obtain ⟨payload, document, text⟩ := accounted.fresh_of_holding held
    have live : .node ident ∈ process.heap.live := by
      rw [accounted.live]
      left
      left
      simp [nodesHeld, occupants, held]
    split at stepped
    · cases stepped
    · split at stepped
      next =>
        cases stepped
        refine accounted.givesUp held kept rfl rfl ?_ ?_ rfl rfl
          (by simp [lostBy])
        · simp [accessesOf, held, downloadAccesses, live]
        · intro block
          simp [accessesOf, held, downloadAccesses, lostBy]
      next buffer =>
        split at stepped
        next => cases stepped
        next entries refused =>
          cases stepped
          have accesses : accessesOf parse print process.reader
              (.decoderDownload (.fetched buffer) now) =
                [.read (.node ident), .alloc (.payload ident),
                  .read (.payload ident), .read (.node ident),
                  .free (.node ident), .free (.payload ident)] := by
            simp [accessesOf, held, downloadAccesses, refused]
          have nothing : lostBy parse print process.reader
              (.decoderDownload (.fetched buffer) now) = [] := by
            simp [lostBy, held, refused]
          rw [nothing]
          refine accounted.givesUp held kept rfl rfl ?_ ?_ rfl rfl (by simp)
          · rw [accesses]
            simp [live, payload]
          · intro block
            have notPayload : block ∈ process.heap.live →
                block ≠ .payload ident := by
              rintro member rfl
              exact payload member
            simp only [accesses, liveAfter_cons, liveAfter_nil, after_read,
              after_alloc, after_free, Finset.mem_erase, Finset.mem_insert,
              List.not_mem_nil]
            tauto
        next message made =>
          cases stepped
          have accesses : accessesOf parse print process.reader
              (.decoderDownload (.fetched buffer) now) =
                [.read (.node ident), .alloc (.payload ident),
                  .read (.payload ident), .read (.node ident),
                  .alloc (.document ident), .read (.document ident),
                  .alloc (.text ident)] := by
            simp [accessesOf, held, downloadAccesses, made]
          have object : lostBy parse print process.reader
              (.decoderDownload (.fetched buffer) now) =
                [.document ident] := by
            simp [lostBy, held, made]
          rw [object]
          refine accounted.formats held kept rfl rfl ?_ ?_ rfl rfl (by simp)
          · rw [accesses]
            simp [live, payload, document, text]
          · intro block
            simp only [accesses, liveAfter_cons, liveAfter_nil, after_read,
              after_alloc, Finset.mem_insert, List.mem_singleton, true_and]
            tauto
  next => cases stepped

theorem textsHeld_queued {state : State} {message : Tagged CString}
    {mode : DbMode} {prq : Queue (Tagged CString)}
    (held : state.decoder = .queueing message mode)
    (stored : prq.contents.Perm (message :: state.prq.contents))
    (ident : Nat) :
    ident ∈ textsHeld { state with prq, decoder := .fetch } ↔
      ident ∈ textsHeld state := by
  simp [textsHeld, occupants, held, (stored.map Tagged.ident).mem_iff, or_assoc]

theorem textsHeld_refused {state : State} {message : Tagged CString}
    {mode : DbMode} (entries : List LogEntry) (counted : CountedOnce state)
    (held : state.decoder = .queueing message mode) (ident : Nat) :
    ident ∈ textsHeld (state.givesUp message.ident entries) ↔
      ident ≠ message.ident ∧ ident ∈ textsHeld state := by
  have inHands : message.ident ∈ occupants state .decoderHands := by
    simp [occupants, held]
  have others : ident ∈ textsHeld (state.givesUp message.ident entries) →
      ident ≠ message.ident := by
    rintro member rfl
    have elsewhere : message.ident ∈ occupants state .productQueue ∨
        message.ident ∈ occupants state .storerHands := by
      simpa [textsHeld, State.givesUp, occupants] using member
    rcases elsewhere with queued | stored
    · exact apart counted .decoderHands .productQueue (by decide) inHands queued
    · exact apart counted .decoderHands .storerHands (by decide) inHands stored
  have split : ident ∈ textsHeld state ↔
      ident = message.ident ∨
        ident ∈ textsHeld (state.givesUp message.ident entries) := by
    simp [textsHeld, State.givesUp, occupants, held]
  rw [split]
  tauto

/-- The message is in the queue. -/
theorem Accounted.queues (accounted : Accounted parse print process)
    {message : Tagged CString} {mode : DbMode}
    (held : process.reader.decoder = .queueing message mode)
    (accepted : (sfQueueAdd process.reader.prq (some message)).1 = 0)
    (stored :
      (sfQueueAdd process.reader.prq (some message)).2.contents.Perm
        (message :: process.reader.prq.contents))
    {after : Process} (reader : Invariant parse print after.reader)
    (queued : after.reader =
      { process.reader with
        prq := (sfQueueAdd process.reader.prq (some message)).2
        decoder := .fetch })
    (heap :
      after.heap =
        process.heap.accesses
          (accessesOf parse print process.reader .decoderAdd))
    (behind : after.behind = some (message.ident, mode))
    (lost :
      after.lost =
        process.lost ++ lostBy parse print process.reader .decoderAdd) :
    Continues parse print process after := by
  have live : .node message.ident ∈ process.heap.live := by
    rw [accounted.live]
    left
    left
    simp [nodesHeld, occupants, held]
  have sound : AllSound process.heap.live
      (accessesOf parse print process.reader .decoderAdd) := by
    cases mode with
    | add => simp [accessesOf, held, addAccesses, accepted]
    | remove => simp [accessesOf, held, addAccesses, accepted, live]
  have unchanged : liveAfter process.heap.live
      (accessesOf parse print process.reader .decoderAdd) =
        process.heap.live := by
    cases mode with
    | add => simp [accessesOf, held, addAccesses, accepted]
    | remove => simp [accessesOf, held, addAccesses, accepted]
  have nothing : lostBy parse print process.reader .decoderAdd = [] := by
    cases mode with
    | add => simp [lostBy, held]
    | remove => simp [lostBy, held, accepted]
  rw [nothing, List.append_nil] at lost
  refine
    accounted.adds held reader (by rw [queued]) (by rw [queued])
      (by rw [queued]) ?_ behind heap sound ?_ ?_ ?_
  · intro ident member
    rw [queued]
    exact member
  · intro ident
    rw [unchanged, accounted.live, owned_text, lost, queued,
      textsHeld_queued held stored]
  · intro block _
    rw [unchanged, lost]
    exact ⟨Iff.rfl, Iff.rfl⟩
  · intro ident member
    rw [lost] at member
    exact .inl member

/-- There is no place for the message: one of a deletion is lost. -/
theorem Accounted.refuses (accounted : Accounted parse print process)
    {message : Tagged CString} {mode : DbMode} {entries : List LogEntry}
    (held : process.reader.decoder = .queueing message mode)
    (refused :
      sfQueueAdd process.reader.prq (some message) = (1, process.reader.prq))
    {after : Process} (reader : Invariant parse print after.reader)
    (given : after.reader = process.reader.givesUp message.ident entries)
    (heap :
      after.heap =
        process.heap.accesses
          (accessesOf parse print process.reader .decoderAdd))
    (behind : after.behind = some (message.ident, mode))
    (lost :
      after.lost =
        process.lost ++ lostBy parse print process.reader .decoderAdd) :
    Continues parse print process after := by
  have live : .text message.ident ∈ process.heap.live := by
    rw [accounted.live]
    left
    simp [textsHeld, held]
  have inHands : message.ident ∈ occupants process.reader .decoderHands := by
    simp [occupants, held]
  have notLost : .text message.ident ∉ process.lost := by
    intro gone
    exact
      apart accounted.reader.counted .discarded .decoderHands (by decide)
        (accounted.lost _ gone).1 inHands
  have grown : ∀ ident ∈ process.reader.discarded,
      ident ∈ after.reader.discarded := by
    intro ident member
    rw [given]
    exact List.mem_append_left _ member
  have texts := textsHeld_refused entries accounted.reader.counted held
  cases mode with
  | add =>
      have accesses : accessesOf parse print process.reader .decoderAdd =
          [.read (.text message.ident), .free (.text message.ident)] := by
        simp [accessesOf, held, addAccesses, refused]
      have nothing : lostBy parse print process.reader .decoderAdd = [] := by
        simp [lostBy, held]
      rw [nothing, List.append_nil] at lost
      have erased : liveAfter process.heap.live
          (accessesOf parse print process.reader .decoderAdd) =
            process.heap.live.erase (.text message.ident) := by
        rw [accesses]
        rfl
      refine
        accounted.adds held reader (by rw [given]; rfl) (by rw [given]; rfl)
          (by rw [given]; rfl) grown behind heap ?_ ?_ ?_ ?_
      · rw [accesses]
        simp [live]
      · intro ident
        rw [erased, Finset.mem_erase, accounted.live, owned_text, lost, given,
          texts]
        have keeps : .text ident ∈ process.lost → ident ≠ message.ident := by
          rintro gone rfl
          exact notLost gone
        simp only [ne_eq, Block.text.injEq]
        tauto
      · intro block notText
        rw [erased, Finset.mem_erase, lost]
        exact ⟨and_iff_right (notText message.ident), Iff.rfl⟩
      · intro ident member
        rw [lost] at member
        exact .inl member
  | remove =>
      have accesses : accessesOf parse print process.reader .decoderAdd =
          [] := by
        simp [accessesOf, held, addAccesses, refused]
      have gone : lostBy parse print process.reader .decoderAdd =
          [.text message.ident] := by
        simp [lostBy, held, refused]
      rw [gone] at lost
      refine
        accounted.adds held reader (by rw [given]; rfl) (by rw [given]; rfl)
          (by rw [given]; rfl) grown behind heap ?_ ?_ ?_ ?_
      · rw [accesses]
        exact allSound_nil
      · intro ident
        rw [accesses, liveAfter_nil, accounted.live, owned_text, lost, given,
          texts, List.mem_append, List.mem_singleton, Block.text.injEq]
        have isHeld : ident = message.ident →
            ident ∈ textsHeld process.reader := by
          rintro rfl
          simp [textsHeld, held]
        tauto
      · intro block notText
        rw [accesses, liveAfter_nil, lost, List.mem_append, List.mem_singleton]
        exact ⟨Iff.rfl, or_iff_left (notText message.ident)⟩
      · intro ident member
        rw [lost, List.mem_append, List.mem_singleton, Block.text.injEq]
          at member
        rcases member with earlier | rfl
        · exact .inl earlier
        · refine .inr ⟨?_, rfl⟩
          rw [given]
          exact List.mem_append_right _ (List.mem_singleton_self _)

theorem Accounted.decoderAdd (accounted : Accounted parse print process)
    {reader : State}
    (stepped : Pipeline.decoderAdd process.reader = some reader) :
    Continues parse print process
      { reader
        behind := behindAfter process .decoderAdd
        heap :=
          process.heap.accesses
            (accessesOf parse print process.reader .decoderAdd)
        lost :=
          process.lost ++
            lostBy parse print process.reader .decoderAdd } := by
  have asStep :
      Pipeline.step parse print process.reader .decoderAdd = some reader :=
    stepped
  have kept := invariant_step accounted.reader asStep
  simp only [Pipeline.decoderAdd] at stepped
  split at stepped
  next message mode held =>
    have behind : behindAfter process .decoderAdd =
        some (message.ident, mode) := by
      simp only [behindAfter, held]
    obtain ⟨_, ⟨accepted, stored⟩ | ⟨refused, _⟩⟩ :=
      add_contents accounted.reader.prqFormed message
    · simp only [accepted, if_true] at stepped
      cases stepped
      exact accounted.queues held accepted stored kept rfl rfl behind rfl
    · simp only [refused] at stepped
      cases stepped
      exact accounted.refuses held refused kept rfl rfl behind rfl
  next => cases stepped

theorem Accounted.storerGet (accounted : Accounted parse print process)
    {reader : State}
    (stepped : Pipeline.storerGet process.reader = some reader) :
    Continues parse print process
      { reader
        behind := process.behind
        heap := process.heap.accesses []
        lost := process.lost ++ [] } := by
  have decoder := (storerGet_works stepped).decoder
  have taken : SameBlocks process.reader reader := by
    have unfolded := stepped
    simp only [Pipeline.storerGet] at unfolded
    split at unfolded
    next fetching =>
      rcases get_contents accounted.reader.prqFormed with
        ⟨_, ⟨nothing, _⟩ | ⟨data, taken, contents⟩⟩
      · simp only [nothing] at unfolded
        cases unfolded
        refine sameBlocks_storer ?_
        intro ident
        simp [occupants, fetching, Storer.data]
      · split at unfolded
        next got prq same =>
          cases unfolded
          rw [same] at taken contents
          cases taken
          refine sameBlocks_storer ?_
          intro ident
          simp [occupants, fetching, (contents.map Tagged.ident).mem_iff,
            or_comm]
        next prq same =>
          rw [same] at taken
          cases taken
    next => cases unfolded
  refine
    accounted.quiet .storerGet stepped taken ?_ rfl rfl allSound_nil
      rfl
  intro pending
  rw [decoder]
  exact accounted.fetching pending

theorem Accounted.storerReadEnds (accounted : Accounted parse print process)
    {reader : State}
    (stepped : Pipeline.storerReadEnds process.reader = some reader) :
    Continues parse print process
      { reader
        behind := process.behind
        heap := process.heap.accesses []
        lost := process.lost ++ [] } := by
  have reads := storerReadEnds_reads stepped
  have idles : SameBlocks process.reader reader := by
    have unfolded := stepped
    simp only [Pipeline.storerReadEnds, reads.before] at unfolded
    split at unfolded
    · cases unfolded
      refine sameBlocks_storer ?_
      intro ident
      simp [occupants, reads.before, Storer.data]
    · cases unfolded
      refine sameBlocks_storer ?_
      intro ident
      simp [occupants, reads.before, Storer.data]
  refine
    accounted.quiet .storerReadEnds stepped idles ?_ rfl rfl
      allSound_nil rfl
  intro pending
  rw [reads.decoder]
  exact accounted.fetching pending

theorem Accounted.storerSend (accounted : Accounted parse print process)
    {delivered : Bool} {reader : State}
    (stepped : Pipeline.storerSend delivered process.reader = some reader) :
    Continues parse print process
      { reader
        behind := process.behind
        heap :=
          process.heap.accesses
            (accessesOf parse print process.reader (.storerSend delivered))
        lost := process.lost ++ [] } := by
  have unfolded := stepped
  simp only [Pipeline.storerSend] at unfolded
  split at unfolded
  next data held =>
    have live : .text data.ident ∈ process.heap.live := by
      rw [accounted.live]
      left
      simp [textsHeld, occupants, held]
    cases delivered with
    | true =>
        cases unfolded
        have asStep : Pipeline.step parse print process.reader
            (.storerSend true) = some _ := stepped
        exact
          accounted.sends held (invariant_step accounted.reader asStep) rfl
            (by simp only [accessesOf, held]) rfl (List.append_nil _)
    | false =>
        cases unfolded
        refine
          accounted.quiet (.storerSend false) stepped
            (sameBlocks_storer fun ident => Iff.rfl) accounted.fetching rfl rfl
            ?_ ?_
        · simp [accessesOf, held, sendAccesses, live]
        · simp [accessesOf, held, sendAccesses]
  next => cases unfolded

theorem Accounted.party (accounted : Accounted parse print process)
    {event : Pipeline.Event} {after : Process}
    (stepped : party parse print process event = some after) :
    Continues parse print process after := by
  simp only [ReaderHeap.party] at stepped
  split at stepped
  next => cases stepped
  next goes =>
    obtain ⟨reader, taken, rfl⟩ := Option.map_eq_some_iff.mp stepped
    cases event with
    | scan symbol => exact accounted.scan (.inl trivial) taken
    | receive msg => exact accounted.scan (.inl trivial) taken
    | readLine => exact accounted.scan (.inl trivial) taken
    | closeCamera => exact accounted.scan (.inl trivial) taken
    | switchMode => exact accounted.scan (.inl trivial) taken
    | setExecutionEnds => exact accounted.scan (.inr rfl) taken
    | decoderGet => exact accounted.decoderGet (not_not.mp goes) taken
    | decoderReadEnds => exact accounted.decoderReadEnds taken
    | decoderFormat => exact accounted.decoderFormat taken
    | decoderDownload download now => exact accounted.decoderDownload taken
    | decoderAdd => exact accounted.decoderAdd taken
    | storerGet => exact accounted.storerGet taken
    | storerReadEnds => exact accounted.storerReadEnds taken
    | storerSend delivered => exact accounted.storerSend taken

theorem Accounted.brokenDownload (accounted : Accounted parse print process)
    {after : Process}
    (stepped : brokenDownload parse print process = some after) :
    Continues parse print process after := by
  simp only [ReaderHeap.brokenDownload] at stepped
  split at stepped
  next node held =>
    obtain ⟨reader, taken, rfl⟩ := Option.map_eq_some_iff.mp stepped
    have asStep :
        Pipeline.step parse print process.reader
            (.decoderDownload .failed .empty) =
          some reader :=
      taken
    have kept := invariant_step accounted.reader asStep
    obtain ⟨payload, _, _⟩ := accounted.fresh_of_holding held
    have live : .node node.ident ∈ process.heap.live := by
      rw [accounted.live]
      left
      left
      simp [nodesHeld, occupants, held]
    simp only [Pipeline.decoderDownload, held] at taken
    split at taken
    · cases taken
    · cases taken
      refine accounted.givesUp held kept rfl rfl ?_ ?_ rfl rfl (by simp)
      · simp [live, payload]
      · intro block
        simp only [liveAfter_cons, liveAfter_nil, after_read, after_alloc,
          after_free, Finset.mem_erase, Finset.mem_insert, List.mem_singleton]
        have different : block = .payload node.ident →
            block ≠ .node node.ident := by
          rintro rfl
          simp
        tauto
  next => cases stepped

theorem Accounted.nextIt (accounted : Accounted parse print process)
    {debugLevel : Nat} {after : Process}
    (stepped : nextIt debugLevel process = some after) :
    Accounted parse print after := by
  obtain ⟨⟨ident, mode⟩, behind, rfl⟩ := Option.map_eq_some_iff.mp stepped
  dsimp only
  rw [nextItAccesses_eq]
  split
  · exact ((accounted.reads ident).releases behind).accounted
  · exact (accounted.releases behind).accounted

theorem accounted_step {debugLevel : Nat} {after : Process} {event : Event}
    (accounted : Accounted parse print process)
    (stepped : step debugLevel parse print process event = some after) :
    Accounted parse print after := by
  cases event with
  | party event => exact (accounted.party stepped).accounted
  | brokenDownload => exact (accounted.brokenDownload stepped).accounted
  | nextIt => exact accounted.nextIt stepped

theorem start_contents {α : Type} {size : Int} (least : minQueueSize ≤ size)
    (most : size ≤ maxQueueSize) :
    (sfQueueSet (⟨[], 0, 0, 0⟩ : Queue α) size).2.contents = [] :=
  (set_represents _ least most).2.2.contents_perm.eq_nil

theorem accounted_start {idSize prSize : Int}
    (idLeast : minQueueSize ≤ idSize) (idMost : idSize ≤ maxQueueSize)
    (prLeast : minQueueSize ≤ prSize) (prMost : prSize ≤ maxQueueSize)
    (scanner : Scanner) :
    Accounted parse print (start idSize prSize scanner) where
  reader := invariant_start idLeast idMost prLeast prMost scanner
  behind := by
    intro ident mode mine
    cases mine
  live := by
    intro block
    have noNodes : nodesHeld (start idSize prSize scanner).reader = [] := by
      have empty : (start idSize prSize scanner).reader.idq.contents = [] :=
        start_contents idLeast idMost
      rw [nodesHeld, occupants, empty]
      rfl
    have noTexts : textsHeld (start idSize prSize scanner).reader = [] := by
      have empty : (start idSize prSize scanner).reader.prq.contents = [] :=
        start_contents prLeast prMost
      rw [textsHeld, occupants, empty]
      rfl
    refine iff_of_false (Finset.notMem_empty block) ?_
    rintro (owned | lost)
    · cases block with
      | node ident =>
          rw [owned_node, noNodes] at owned
          rcases owned with held | ⟨mode, behind⟩
          · cases held
          · cases behind
      | payload ident =>
          rcases owned with held | behind
          · cases held
          · cases behind
      | document ident => exact owned
      | text ident =>
          rw [owned_text, noTexts] at owned
          cases owned
    · cases lost
  lost := by
    intro block member
    cases member
  faults := by
    intro fault member
    cases member

/-! ## Reads of a freed message -/

/-- The message of the debug log is live unless it was given up or sent. -/
theorem Accounted.text_live_iff (accounted : Accounted parse print process)
    {ident : Nat} (behind : process.behind = some (ident, .add)) :
    .text ident ∈ process.heap.live ↔
      ident ∉ process.reader.discarded ∧
        ident ∉ process.reader.sent.map Tagged.ident := by
  have counted := accounted.reader.counted
  obtain ⟨idle, made⟩ := accounted.behind ident .add behind
  have notLost : .text ident ∉ process.lost := fun gone =>
    (accounted.lost _ gone).2 behind
  have noMessage : process.reader.decoder.message = [] := by
    rw [idle]
    rfl
  have live : .text ident ∈ process.heap.live ↔
      ident ∈ occupants process.reader .productQueue ∨
        ident ∈ occupants process.reader .storerHands := by
    rw [accounted.live, owned_text, textsHeld, noMessage, or_iff_left notLost,
      List.map_nil, List.nil_append]
    exact List.mem_append
  rw [live]
  constructor
  · rintro (queued | stored)
    · exact
        ⟨apart counted .productQueue .discarded (by decide) queued,
          apart counted .productQueue .sent (by decide) queued⟩
    · exact
        ⟨apart counted .storerHands .discarded (by decide) stored,
          apart counted .storerHands .sent (by decide) stored⟩
  · rintro ⟨notDiscarded, notSent⟩
    obtain ⟨place, once, _⟩ := placed_of_countedOnce counted made.known
    have present : ident ∈ occupants process.reader place :=
      List.count_pos_iff.mp (once ▸ Nat.one_pos)
    cases place with
    | idQueue => exact absurd present made.notQueued
    | decoderHands => simp [occupants, idle] at present
    | productQueue => exact .inl present
    | storerHands => exact .inr present
    | sent => exact absurd present notSent
    | discarded => exact absurd present notDiscarded

/-- The decoder does not log a message that is gone already. -/
def KeepsText (debugLevel : Nat) (process : Process) : Event → Prop
  | .nextIt =>
      ∀ ident, process.behind = some (ident, .add) → 1 < debugLevel →
        ident ∉ process.reader.discarded ∧
          ident ∉ process.reader.sent.map Tagged.ident
  | _ => True

theorem Accounted.nextIt_faults_iff (accounted : Accounted parse print process)
    {debugLevel : Nat} (clean : process.heap.faults = []) {after : Process}
    (stepped : ReaderHeap.nextIt debugLevel process = some after) :
    after.heap.faults = [] ↔ KeepsText debugLevel process .nextIt := by
  obtain ⟨⟨ident, mode⟩, behind, rfl⟩ := Option.map_eq_some_iff.mp stepped
  have frees := accounted.releases_sound behind
  dsimp only
  rw [Heap.faults_eq_nil_iff clean, nextItAccesses_eq]
  have keeps : KeepsText debugLevel process .nextIt ↔
      (1 < debugLevel ∧ mode = .add → .text ident ∈ process.heap.live) := by
    constructor
    · rintro kept ⟨debug, rfl⟩
      exact (accounted.text_live_iff behind).mpr (kept ident behind debug)
    · intro live other mine debug
      rw [behind] at mine
      cases mine
      exact (accounted.text_live_iff behind).mp (live ⟨debug, rfl⟩)
  rw [keeps]
  split
  next logs =>
    obtain ⟨debug, rfl⟩ := logs
    simp [debug, frees]
  next silent => simp [silent, frees]

theorem faults_step_iff {debugLevel : Nat} {after : Process} {event : Event}
    (accounted : Accounted parse print process)
    (clean : process.heap.faults = [])
    (stepped : step debugLevel parse print process event = some after) :
    after.heap.faults = [] ↔ KeepsText debugLevel process event := by
  cases event with
  | party event =>
      rw [(accounted.party stepped).faults]
      exact iff_of_true clean trivial
  | brokenDownload =>
      rw [(accounted.brokenDownload stepped).faults]
      exact iff_of_true clean trivial
  | nextIt => exact accounted.nextIt_faults_iff clean stepped

end Process

/-! ## Runs -/

section Runs

variable {idSize prSize : Int} (idLeast : minQueueSize ≤ idSize)
  (idMost : idSize ≤ maxQueueSize) (prLeast : minQueueSize ≤ prSize)
  (prMost : prSize ≤ maxQueueSize) (scanner : Scanner) (debugLevel : Nat)

/-- What nothing points to any more stays so. -/
theorem lost_step {debugLevel : Nat} {process after : Process} {event : Event}
    (stepped : step debugLevel parse print process event = some after) :
    process.lost ⊆ after.lost := by
  cases event with
  | party event =>
      simp only [step, party] at stepped
      split at stepped
      · cases stepped
      · obtain ⟨reader, _, rfl⟩ := Option.map_eq_some_iff.mp stepped
        exact List.subset_append_left _ _
  | brokenDownload =>
      simp only [step, brokenDownload] at stepped
      split at stepped
      · obtain ⟨reader, _, rfl⟩ := Option.map_eq_some_iff.mp stepped
        exact List.subset_append_left _ _
      · cases stepped
  | nextIt =>
      obtain ⟨_, _, rfl⟩ := Option.map_eq_some_iff.mp stepped
      exact List.Subset.refl _

include idLeast idMost prLeast prMost in
/--
In every state that the reader reaches, what is allocated is what some party
will free and what nothing points to any more; the latter is never freed.  No
block is freed twice, and nothing but a message is read behind its release.
-/
theorem reader_heap_accounted {events : List Event} {process : Process}
    (reached :
      run (step debugLevel parse print) (start idSize prSize scanner) events =
        some process) :
    (∀ block, block ∈ process.heap.live ↔
        Owned process block ∨ block ∈ process.lost) ∧
      (∀ fault ∈ process.heap.faults, IsTextRead fault) ∧
        ∀ block ∈ process.lost, ∀ later final,
          run (step debugLevel parse print) process later = some final →
            block ∈ final.heap.live := by
  have accounted : Accounted parse print process :=
    run_invariant (Accounted parse print)
      (fun _ _ _ before stepped => accounted_step before stepped)
      (accounted_start idLeast idMost prLeast prMost scanner) reached
  refine ⟨accounted.live, accounted.faults, ?_⟩
  intro block member later final continued
  have kept : Accounted parse print final ∧ block ∈ final.lost :=
    run_invariant
      (fun state => Accounted parse print state ∧ block ∈ state.lost)
      (fun _ _ _ before stepped =>
        ⟨accounted_step before.1 stepped, lost_step stepped before.2⟩)
      ⟨accounted, member⟩ continued
  exact (kept.1.live block).mpr (.inr kept.2)

/-- A code is removed, and its message is sent before the decoder frees it. -/
def sentAtOnce : List Event :=
  [.party .switchMode, .party (.scan (.lit "8480017439482")),
    .party .decoderGet, .party .decoderFormat, .party .decoderAdd,
    .party .storerGet, .party (.storerSend true), .nextIt]

theorem reader_heap_accounted_sentAtOnce :
    ∃ process,
      run (step 2 (Json.parse Json.standardRaw) Json.printUnformatted)
          (start 5 5 .camera) sentAtOnce =
        some process ∧
      (∀ block, block ∈ process.heap.live ↔
          Owned process block ∨ block ∈ process.lost) ∧
        (∀ fault ∈ process.heap.faults, IsTextRead fault) ∧
          ∀ block ∈ process.lost, ∀ later final,
            run (step 2 (Json.parse Json.standardRaw) Json.printUnformatted)
                process later =
              some final →
              block ∈ final.heap.live := by
  have possible :
      (run (step 2 (Json.parse Json.standardRaw) Json.printUnformatted)
        (start 5 5 .camera) sentAtOnce).isSome = true := by
    decide
  obtain ⟨process, reached⟩ := Option.isSome_iff_exists.mp possible
  exact
    ⟨process, reached,
      reader_heap_accounted (by decide) (by decide) (by decide) (by decide)
        .camera 2 reached⟩

include idLeast idMost prLeast prMost in
/--
A run is free of faults exactly if, with debug messages of the second level,
the decoder logs no message that did not fit in the queue or that the storer
has sent meanwhile.
-/
theorem reader_heap_sound_iff (events : List Event) :
    StatesSatisfy (step debugLevel parse print)
        (fun process => process.heap.faults = [])
        (start idSize prSize scanner) events ↔
      StepsMeet (step debugLevel parse print) (KeepsText debugLevel)
        (start idSize prSize scanner) events :=
  statesSatisfy_iff_stepsMeet (fun process _ => Accounted parse print process)
    (fun _ _ _ _ before stepped => accounted_step before stepped)
    (fun _ _ _ _ before clean stepped => faults_step_iff before clean stepped)
    events (accounted_start idLeast idMost prLeast prMost scanner) rfl

/-- The download of a document that is accepted, with its accesses. -/
theorem step_download {process : Process} {node : Tagged ProductNode}
    {buffer now text : CString} (held : process.reader.decoder = .holding node)
    (adds : node.value.mode ≠ .remove)
    (made : documentMessage parse print now node.value buffer =
      some (.ok text)) :
    step debugLevel parse print process
        (.party (.decoderDownload (.fetched buffer) now)) =
      some
        { reader :=
            { process.reader with
              decoder := .queueing ⟨node.ident, text⟩ .add }
          behind := process.behind
          heap :=
            process.heap.accesses
              [.read (.node node.ident), .alloc (.payload node.ident),
                .read (.payload node.ident), .read (.node node.ident),
                .alloc (.document node.ident), .read (.document node.ident),
                .alloc (.text node.ident)]
          lost := process.lost ++ [.document node.ident] } := by
  simp only [step, party, Waits, if_false,
    Pipeline.step_download held adds made, Option.map_some, behindAfter,
    accessesOf, downloadAccesses, lostBy, held, made]
  rfl

/-- The message of a document is sent before the decoder logs it. -/
def loggedTooLate : List Event :=
  [.party (.scan (.lit "8480017439482")), .party .decoderGet,
    .party
      (.decoderDownload (.fetched milkBuffer) (.lit "2024-01-01 10:00:00")),
    .party .decoderAdd, .party .storerGet, .party (.storerSend true), .nextIt]

theorem loggedTooLate_reads :
    ∃ process,
      run (step 2 (Json.parse Json.standardRaw) Json.printUnformatted)
          (start 5 5 .camera) loggedTooLate =
        some process ∧
      process.heap.faults = [.read (.text 0)] :=
  ⟨_, (run_cons ..).mpr ⟨_, rfl, (run_cons ..).mpr ⟨_, rfl,
    (run_cons ..).mpr ⟨_, step_download 2 rfl (by decide) milk_made, rfl⟩⟩⟩, rfl⟩

theorem reader_heap_sound_iff_loggedTooLate :
    (StatesSatisfy
          (step 2 (Json.parse Json.standardRaw) Json.printUnformatted)
          (fun process => process.heap.faults = []) (start 5 5 .camera)
          loggedTooLate ↔
        StepsMeet (step 2 (Json.parse Json.standardRaw) Json.printUnformatted)
          (KeepsText 2) (start 5 5 .camera) loggedTooLate) ∧
      ∃ process,
        run (step 2 (Json.parse Json.standardRaw) Json.printUnformatted)
            (start 5 5 .camera) loggedTooLate =
          some process ∧
        process.heap.faults = [.read (.text 0)] :=
  ⟨reader_heap_sound_iff (by decide) (by decide) (by decide) (by decide)
      .camera 2 loggedTooLate,
    loggedTooLate_reads⟩

end Runs

end Accounted

end SmartFridge.ReaderHeap
