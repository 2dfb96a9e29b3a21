import SmartFridge.Fridge
import SmartFridge.ReceiveBuffer

/-!
# The fridge and the buffer of the daemon

The daemon asks `recv` for as many bytes as its buffer has, and writes a
terminator behind them.  What the storer hands over is cut one byte short of
this.  So the daemon keeps to its buffer, and does what it does on whole
strings, unless another program sends it more.
-/

namespace SmartFridge.FridgeMemory

open SmartFridge.Library
open SmartFridge.Library.Runs
open SmartFridge.CJson
open SmartFridge.Fridge (Programs)
open SmartFridge.Daemon hiding Delivery
open SmartFridge.Pipeline (Tagged)
open SmartFridge.ReceiveBuffer
open SmartFridge.Segmentation (Chunk serve)
open SmartFridge.Sending (Calls sfSendProduct)
open SmartFridge.SocketMode (maxLogsize)

/-! ## A connection and the array -/

/-- The chunk that a positive result of `recv` is. -/
def asChunk (delivery : Delivery) : Chunk :=
  { bytes := delivery.bytes, sent := delivery.sent }

section Connections

variable (debugLevel : Nat) (internalHeader : CString)
  (parse : CString → Option Json)

/-- What `msg_decoder` returns in a turn. -/
def answer (loop : DaemonLoop) (delivery : Delivery) : Option Int :=
  loop.daemon.bind fun state =>
    (msgDecoder internalHeader parse delivery.sent
      ((takeMessage debugLevel delivery.toReceived loop.msg).text 0)
      state).map Prod.fst

/-- The turns of `start_daemon` on a connection. -/
def serveInto : List Delivery → DaemonLoop → Option DaemonLoop
  | [], loop => some loop
  | delivery :: rest, loop =>
      (startDaemonTurn debugLevel internalHeader parse loop delivery).bind
        fun next =>
          if answer debugLevel internalHeader parse loop delivery =
              some continueIt then
            some next
          else
            serveInto rest next

variable {debugLevel internalHeader parse}

/-- After a fault the daemon does nothing more. -/
theorem serveInto_of_fault (deliveries : List Delivery) (msg : Msg) :
    (serveInto debugLevel internalHeader parse deliveries
      ⟨msg, none⟩).bind DaemonLoop.daemon = none := by
  cases deliveries with
  | nil => rfl
  | cons delivery rest => rfl

/--
On messages that do not fill the array the turns do what the daemon does on the
strings, by induction on the messages.
-/
theorem serveInto_serves {deliveries : List Delivery} {loop : DaemonLoop}
    {state : State} (running : loop.daemon = some state)
    (short : ∀ delivery ∈ deliveries, delivery.bytes.length < maxLogsize) :
    (serveInto debugLevel internalHeader parse deliveries loop).bind
        DaemonLoop.daemon =
      serve internalHeader parse (deliveries.map asChunk) state := by
  induction deliveries generalizing loop state with
  | nil => exact running
  | cons delivery rest ih =>
      rcases List.forall_mem_cons.mp short with ⟨first, others⟩
      have text :
          (takeMessage debugLevel delivery.toReceived loop.msg).text 0 =
            CString.ofBuffer delivery.bytes :=
        takeMessage_text debugLevel first
      have answered :
          answer debugLevel internalHeader parse loop delivery =
            (msgDecoder internalHeader parse delivery.sent
              (CString.ofBuffer delivery.bytes) state).map Prod.fst := by
        rw [answer, running, text]
        rfl
      have fits : (asChunk delivery).bytes.length < maxLogsize := first
      rw [serveInto, startDaemonTurn_eq _ _ _ _ running, text, answered,
        Option.bind_some, List.map_cons, serve, if_pos fits]
      dsimp only [asChunk]
      cases msgDecoder internalHeader parse delivery.sent
          (CString.ofBuffer delivery.bytes) state with
      | none => exact serveInto_of_fault rest _
      | some result =>
          obtain ⟨retval, after⟩ := result
          by_cases ended : retval = continueIt
          · simp [afterDecoding, ended]
          · simp only [Option.map_some, Option.some.injEq, if_neg ended]
            split
            · next failed =>
                exact ih (congrArg some (if_pos ⟨ended, failed⟩)) others
            · next succeeded =>
                exact
                  ih (congrArg some (if_neg fun both => succeeded both.2))
                    others

/-- They do not leave the array either. -/
theorem serveInto_inBounds {deliveries : List Delivery}
    {loop final : DaemonLoop} (inBounds : loop.msg.InBounds)
    (short : ∀ delivery ∈ deliveries, delivery.bytes.length < maxLogsize)
    (served :
      serveInto debugLevel internalHeader parse deliveries loop =
        some final) :
    final.msg.InBounds := by
  induction deliveries generalizing loop with
  | nil =>
      cases served
      exact inBounds
  | cons delivery rest ih =>
      rcases List.forall_mem_cons.mp short with ⟨first, others⟩
      obtain ⟨next, turned, continued⟩ := Option.bind_eq_some_iff.mp served
      have kept : next.msg.InBounds :=
        (startDaemonTurn_inBounds_iff inBounds turned).mpr first
      split at continued
      · cases continued
        exact kept
      · exact ih kept others continued

end Connections

/-! ## The fridge with the array -/

/-- The two programs and the array of the daemon. -/
structure Memory where
  fridge : Programs
  msg : Msg

/-- The steps of the fridge, in which the daemon receives into its array. -/
inductive Event where
  | read (event : Pipeline.Event)
  | send (calls : Calls)
  | connect (bytes : List UInt8)
  | serve (deliveries : List Delivery)

/-- The step without the array. -/
def Event.plain : Event → Fridge.Event
  | .read event => .read event
  | .send calls => .send calls
  | .connect bytes => .connect bytes
  | .serve deliveries => .serve (deliveries.map asChunk)

section Runs

variable (parse : CString → Option Json) (print : Json → CString)
  (internalHeader : CString) (debugLevel : Nat)

/-- `start_daemon` receives what it serves of the oldest connection. -/
def serveNext (memory : Memory) (deliveries : List Delivery) : Option Memory :=
  match memory.fridge.network with
  | [] => none
  | connection :: rest =>
      if ((deliveries.map asChunk).map Chunk.bytes).flatten <+:
          connection.bytes then
        (serveInto debugLevel internalHeader parse deliveries
          ⟨memory.msg, some memory.fridge.daemon⟩).bind fun loop =>
            loop.daemon.map fun daemon =>
              { fridge :=
                  { memory.fridge with
                    network := rest
                    daemon
                    served := memory.fridge.served ++ connection.data.toList }
                msg := loop.msg }
      else
        none

/-- A step, which uses the array if the daemon receives something. -/
def step (memory : Memory) : Event → Option Memory
  | .serve deliveries =>
      serveNext parse internalHeader debugLevel memory deliveries
  | event =>
      (Fridge.step parse print internalHeader memory.fridge event.plain).map
        fun fridge => { memory with fridge }

/-- Both programs have just been started, the daemon on some database. -/
def start (idSize prSize : Int) (scanner : Pipeline.Scanner) (daemon : State)
    (msg : Msg) : Memory where
  fridge := Fridge.start idSize prSize scanner daemon
  msg := msg.fresh

/-- Other programs send fewer bytes on a connection than the array has. -/
def OthersShort (events : List Event) : Prop :=
  ∀ bytes, .connect bytes ∈ events → bytes.length < maxLogsize

/-- The connections carry fewer bytes than the array has. -/
def Short (fridge : Programs) : Prop :=
  ∀ connection ∈ fridge.network, connection.bytes.length < maxLogsize

variable {parse print internalHeader debugLevel}

/-- The storer never hands over as many bytes as the array has. -/
theorem handed_short (data : CString) (calls : Calls) :
    (sfSendProduct internalHeader data calls).handed.length < maxLogsize := by
  have positive : 0 < maxLogsize := by decide
  have message :
      (CString.snprintf maxLogsize (internalHeader ++ data)).bytes.length ≤
        maxLogsize - 1 :=
    List.length_take_le _ _
  have cut :
      ((CString.snprintf maxLogsize (internalHeader ++ data)).bytes.take
        calls.send.toNat).length < maxLogsize :=
    lt_of_le_of_lt ((List.length_take_le' _ _).trans message)
      (Nat.sub_lt positive one_pos)
  unfold sfSendProduct
  split
  · exact positive
  · split
    · exact positive
    · dsimp only
      split
      · exact cut
      · exact cut

/-- An attempt of the storer makes a short connection, if it makes one. -/
theorem connection_short (data : Tagged CString) (calls : Calls) :
    ∀ connection ∈ Fridge.connection internalHeader data calls,
      connection.bytes.length < maxLogsize := by
  unfold Fridge.connection
  split
  · exact List.forall_mem_nil _
  · exact List.forall_mem_singleton.mpr (handed_short data.value calls)

/-- A step of the fridge adds short connections only. -/
theorem short_step {fridge next : Programs} {event : Fridge.Event}
    (short : Short fridge)
    (others : ∀ bytes, event = .connect bytes → bytes.length < maxLogsize)
    (stepped :
      Fridge.step parse print internalHeader fridge event = some next) :
    Short next := by
  cases event with
  | read event =>
      change Fridge.read parse print fridge event = some next at stepped
      have same : next.network = fridge.network := by
        cases event with
        | storerSend delivered => cases stepped
        | _ =>
            obtain ⟨reader, _, rfl⟩ := Option.map_eq_some_iff.mp stepped
            rfl
      intro connection member
      exact short connection (same ▸ member)
  | send calls =>
      change Fridge.send internalHeader fridge calls = some next at stepped
      simp only [Fridge.send] at stepped
      split at stepped
      · rename_i data held
        obtain ⟨reader, _, rfl⟩ := Option.map_eq_some_iff.mp stepped
        exact List.forall_mem_append.mpr ⟨short, connection_short data calls⟩
      · cases stepped
  | connect bytes =>
      cases stepped
      exact
        List.forall_mem_append.mpr
          ⟨short, List.forall_mem_singleton.mpr (others bytes rfl)⟩
  | serve chunks =>
      change Fridge.serveNext parse internalHeader fridge chunks = some next
        at stepped
      simp only [Fridge.serveNext] at stepped
      split at stepped
      · cases stepped
      · rename_i connection rest waiting
        split at stepped
        · obtain ⟨daemon, _, rfl⟩ := Option.map_eq_some_iff.mp stepped
          intro other member
          exact short other (waiting ▸ List.mem_cons_of_mem _ member)
        · cases stepped

/-- What is received of a connection is no longer than what it carries. -/
theorem length_le_of_received {deliveries : List Delivery} {bytes : List UInt8}
    (isPrefix :
      ((deliveries.map asChunk).map Chunk.bytes).flatten <+: bytes)
    {delivery : Delivery} (member : delivery ∈ deliveries) :
    delivery.bytes.length ≤ bytes.length := by
  have part : delivery.bytes <:+:
      ((deliveries.map asChunk).map Chunk.bytes).flatten :=
    List.infix_of_mem_flatten
      (List.mem_map_of_mem (List.mem_map_of_mem member))
  exact part.length_le.trans isPrefix.length_le

/-- The deliveries of a short connection do not fill the array. -/
theorem deliveries_short {memory : Memory} (short : Short memory.fridge)
    {connection : Fridge.Connection} {rest : List Fridge.Connection}
    (waiting : memory.fridge.network = connection :: rest)
    {deliveries : List Delivery}
    (isPrefix :
      ((deliveries.map asChunk).map Chunk.bytes).flatten <+:
        connection.bytes) :
    ∀ delivery ∈ deliveries, delivery.bytes.length < maxLogsize := by
  intro delivery member
  have oldest : connection ∈ memory.fridge.network := by
    rw [waiting]
    exact List.mem_cons_self
  exact
    lt_of_le_of_lt (length_le_of_received isPrefix member)
      (short connection oldest)

/--
As long as the connections are short, a step with the array is a step without
it.
-/
theorem step_follows {memory : Memory} (event : Event)
    (short : Short memory.fridge) :
    (step parse print internalHeader debugLevel memory event).map
        Memory.fridge =
      Fridge.step parse print internalHeader memory.fridge event.plain := by
  have stays : ∀ stepped : Option Programs,
      (stepped.map fun fridge => { memory with fridge }).map Memory.fridge =
        stepped := by
    intro stepped
    rw [Option.map_map]
    exact Option.map_id_apply
  cases event with
  | read event => exact stays _
  | send calls => exact stays _
  | connect bytes => rfl
  | serve deliveries =>
      change (serveNext parse internalHeader debugLevel memory deliveries).map
          Memory.fridge =
        Fridge.serveNext parse internalHeader memory.fridge
          (deliveries.map asChunk)
      rw [serveNext, Fridge.serveNext]
      cases waiting : memory.fridge.network with
      | nil => rfl
      | cons connection rest =>
          dsimp only
          split
          · rename_i isPrefix
            have served :
                (serveInto debugLevel internalHeader parse deliveries
                    ⟨memory.msg, some memory.fridge.daemon⟩).bind
                    DaemonLoop.daemon =
                  serve internalHeader parse (deliveries.map asChunk)
                    memory.fridge.daemon :=
              serveInto_serves rfl (deliveries_short short waiting isPrefix)
            rw [← served]
            cases serveInto debugLevel internalHeader parse
                deliveries ⟨memory.msg, some memory.fridge.daemon⟩ with
            | none => rfl
            | some loop =>
                obtain ⟨msg, daemon⟩ := loop
                cases daemon with
                | none => rfl
                | some state => rfl
          · rfl

/-- Such a step keeps to the array. -/
theorem step_inBounds {memory next : Memory} {event : Event}
    (short : Short memory.fridge) (inBounds : memory.msg.InBounds)
    (stepped :
      step parse print internalHeader debugLevel memory event =
        some next) :
    next.msg.InBounds := by
  cases event with
  | serve deliveries =>
      change serveNext parse internalHeader debugLevel memory deliveries =
        some next at stepped
      rw [serveNext] at stepped
      split at stepped
      · cases stepped
      · rename_i connection rest waiting
        split at stepped
        · rename_i isPrefix
          obtain ⟨loop, served, answered⟩ := Option.bind_eq_some_iff.mp stepped
          obtain ⟨daemon, _, rfl⟩ := Option.map_eq_some_iff.mp answered
          exact
            serveInto_inBounds inBounds
              (deliveries_short short waiting isPrefix) served
        · cases stepped
  | connect bytes =>
      cases stepped
      exact inBounds
  | read event =>
      obtain ⟨fridge, _, rfl⟩ := Option.map_eq_some_iff.mp stepped
      exact inBounds
  | send calls =>
      obtain ⟨fridge, _, rfl⟩ := Option.map_eq_some_iff.mp stepped
      exact inBounds

theorem OthersShort.head {event : Event} {rest : List Event}
    (others : OthersShort (event :: rest)) :
    ∀ bytes, event.plain = .connect bytes → bytes.length < maxLogsize := by
  intro bytes connects
  cases event with
  | connect sent =>
      cases connects
      exact others bytes List.mem_cons_self
  | _ => cases connects

theorem OthersShort.tail {event : Event} {rest : List Event}
    (others : OthersShort (event :: rest)) : OthersShort rest :=
  fun bytes member => others bytes (List.mem_cons_of_mem event member)

/-- The same for a run, by induction on its events. -/
theorem run_follows {memory : Memory} {events : List Event}
    (short : Short memory.fridge) (inBounds : memory.msg.InBounds)
    (others : OthersShort events) :
    (run (step parse print internalHeader debugLevel) memory events).map
          Memory.fridge =
        run (Fridge.step parse print internalHeader) memory.fridge
          (events.map Event.plain) ∧
      StatesSatisfy (step parse print internalHeader debugLevel)
        (fun reached => reached.msg.InBounds) memory events := by
  induction events generalizing memory with
  | nil => exact ⟨rfl, inBounds⟩
  | cons event rest ih =>
      have follows :
          (step parse print internalHeader debugLevel memory event).map
              Memory.fridge =
            Fridge.step parse print internalHeader memory.fridge event.plain :=
        step_follows event short
      rw [run, List.map_cons, run, ← follows]
      cases stepped :
          step parse print internalHeader debugLevel memory event with
      | none =>
          refine ⟨rfl, inBounds, ?_⟩
          intro next impossible
          cases stepped.symm.trans impossible
      | some next =>
          rw [stepped] at follows
          have later := ih
            (short_step short others.head follows.symm)
            (step_inBounds short inBounds stepped) others.tail
          refine ⟨later.1, inBounds, ?_⟩
          intro other reached
          cases stepped.symm.trans reached
          exact later.2

/--
As long as no other program can fill the array of the daemon, whatever the
storer sends and `recv` returns, the fridge with the array does what it does
without it, and has used no index outside of it in any state that it reaches,
whatever the database, the script of failing calls and the parser are.
-/
theorem buffer_kept_by_storer (idSize prSize : Int)
    (scanner : Pipeline.Scanner) (daemon : State) (msg : Msg)
    {events : List Event} (others : OthersShort events) :
    (run (step parse print internalHeader debugLevel)
            (start idSize prSize scanner daemon msg) events).map Memory.fridge =
        run (Fridge.step parse print internalHeader)
          (Fridge.start idSize prSize scanner daemon) (events.map Event.plain) ∧
      StatesSatisfy (step parse print internalHeader debugLevel)
        (fun memory => memory.msg.InBounds)
        (start idSize prSize scanner daemon msg) events :=
  run_follows (List.forall_mem_nil _) (fresh_inBounds msg) others

end Runs

/-- The message that asks for the removal of a milk carton. -/
def removal : Received where
  bytes := ReaderRequests.milkRemoval.msg.bytes
  nonempty := by decide
  fits := by decide

/-- Another program connects while a code is on its way to the daemon. -/
def visitedDay : List Event :=
  [.read .switchMode, .read (.scan (.lit "8480017439482")), .read .decoderGet,
    .connect removal.bytes, .read .decoderFormat, .read .decoderAdd,
    .serve [⟨removal, 0⟩], .read .storerGet, .send ⟨3, 0, 200⟩,
    .serve [⟨removal, 0⟩]]

theorem buffer_kept_by_storer_visitedDay :
    (run
            (step (Json.parse Json.standardRaw) Json.printUnformatted
              (.lit "!#+") 2)
            (start 5 5 .camera .start zeros) visitedDay).map Memory.fridge =
        run
          (Fridge.step (Json.parse Json.standardRaw) Json.printUnformatted
            (.lit "!#+"))
          (Fridge.start 5 5 .camera .start) (visitedDay.map Event.plain) ∧
      StatesSatisfy
        (step (Json.parse Json.standardRaw) Json.printUnformatted
          (.lit "!#+") 2)
        (fun memory => memory.msg.InBounds)
        (start 5 5 .camera .start zeros) visitedDay := by
  apply buffer_kept_by_storer
  intro bytes connects
  have sent : bytes = removal.bytes := by simpa [visitedDay] using connects
  rw [sent]
  decide

end SmartFridge.FridgeMemory
