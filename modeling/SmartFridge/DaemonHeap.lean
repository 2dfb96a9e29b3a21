import SmartFridge.Library.Runs
import SmartFridge.DaemonMessages
import SmartFridge.DecoderHeap
import SmartFridge.ReaderRequests

/-!
# The memory of the daemon

`msg_decoder` has a product decoded, lets the queries read it and frees it.  A
run of the daemon is accompanied by these accesses, with a message of its own
for every block.

Only what is allocated for decoded messages is counted.  The connections and
statements of SQLite, which some messages leave behind as well, are not part of
this heap; the handles are followed on their own.
-/

namespace SmartFridge.DaemonHeap

open SmartFridge.Library
open SmartFridge.Library.Allocation
open SmartFridge.Library.Runs
open SmartFridge.CJson
open SmartFridge.ProductDecoder
open SmartFridge.Daemon hiding Connection Handle
open SmartFridge.DecoderHeap
open SmartFridge.ReaderRequests (milkDelivery milkRemoval)

/-! ## The accesses of a message -/

/-- The texts and tags of a product. -/
def pointedBlocks (product : Product) : List Block :=
  (textFields.filter fun field => (text product field).isSome).map .text ++
    tagFields.flatMap fun field =>
      match tags product field with
      | none => []
      | some texts =>
          .array field :: (List.range texts.length).map (.tag field)

/-- What the queries can read: `db_remove` binds the code only.  After a query
that fails the others do not read anything. -/
def queryBlocks (result : Int) (product : Product) : List Block :=
  .product ::
    if result = deletionReq then
      product.code.toList.map fun _ => .text .code
    else
      pointedBlocks product

section Messages

variable (internalHeader : CString) (parse : CString → Option Json)

/-- The accesses of `msg_decoder`. -/
def messageAccesses (msg : CString) : List (Access Block) :=
  if internalHeader.bytes <+: msg.bytes then
    let decoding :=
      DecoderHeap.sfPrDecoder parse (msg.drop internalHeader.bytes.length)
    match decoding.2 with
    | some (result, some product) =>
        decoding.1 ++ (queryBlocks result product).map .read ++
          freeProduct product
    | _ => decoding.1
  else
    []

/-- What a message leaves. -/
def leftBy (msg : CString) : Finset Block :=
  if internalHeader.bytes <+: msg.bytes then
    left parse (msg.drop internalHeader.bytes.length)
  else
    ∅

/-- The message has a document of more than its root behind the header. -/
def HasDocument (msg : CString) : Prop :=
  internalHeader.bytes <+: msg.bytes ∧
    ∃ message,
      parse (msg.drop internalHeader.bytes.length) = some message ∧
        blocks message ≠ 1

variable {internalHeader parse}

/-- Only a document leaves something. -/
theorem leftBy_eq_empty_iff {msg : CString} :
    leftBy internalHeader parse msg = ∅ ↔
      ¬ HasDocument internalHeader parse msg := by
  unfold leftBy HasDocument
  split
  · next headed =>
      rw [left_eq_empty_iff]
      simp [headed]
  · next unheaded => simp [unheaded]

theorem mem_owned_of_pointed {product : Product} {block : Block}
    (member : block ∈ pointedBlocks product) : block ∈ owned product := by
  rw [mem_owned]
  right
  rcases List.mem_append.mp member with isText | isTag
  · left
    obtain ⟨field, filtered, rfl⟩ := List.mem_map.mp isText
    obtain ⟨value, same⟩ :=
      Option.isSome_iff_exists.mp (List.mem_filter.mp filtered).2
    refine ⟨field, ?_⟩
    rw [same]
    exact Finset.mem_singleton_self _
  · right
    obtain ⟨field, _, inside⟩ := List.mem_flatMap.mp isTag
    refine ⟨field, ?_⟩
    split at inside
    · cases inside
    · rename_i texts same
      rw [same]
      rcases List.mem_cons.mp inside with rfl | tagged
      · exact Finset.mem_insert_self _ _
      · obtain ⟨index, bound, rfl⟩ := List.mem_map.mp tagged
        refine Finset.mem_insert_of_mem (Finset.mem_image.mpr ?_)
        exact
          ⟨index, Finset.mem_range.mpr (List.mem_range.mp bound), by
            rw [Nat.zero_add]⟩

/-- The queries read nothing but the product. -/
theorem mem_owned_of_query {result : Int} {product : Product} {block : Block}
    (member : block ∈ queryBlocks result product) : block ∈ owned product := by
  rcases List.mem_cons.mp member with rfl | inside
  · exact Finset.mem_insert_self _ _
  · split at inside
    · obtain ⟨code, coded, rfl⟩ := List.mem_map.mp inside
      rw [mem_owned]
      refine .inr (.inl ⟨.code, ?_⟩)
      change _ ∈ textBlocks .code product.code
      rw [Option.mem_toList.mp coded]
      exact Finset.mem_singleton_self _
    · exact mem_owned_of_pointed inside

theorem item_notMem_owned (product : Product) (index : Nat) :
    .item index ∉ owned product := by
  rw [mem_owned]
  rintro (impossible | ⟨field, member⟩ | ⟨field, member⟩)
  · cases impossible
  · cases eq_text_of_mem member
  · cases tagBlocks_part field _ _ member

/-- Of an accepted message only the document is left. -/
theorem left_apart_owned {strJson : CString} {result : Int} {product : Product}
    (decoded :
      ProductDecoder.sfPrDecoder parse strJson = some (result, some product)) :
    Disjoint (left parse strJson) (owned product) := by
  rw [Finset.disjoint_left]
  intro block isLeft
  unfold left at isLeft
  split at isLeft
  · cases isLeft
  · rw [decoded] at isLeft
    change block ∈ _ ∪ ∅ at isLeft
    rw [Finset.union_empty] at isLeft
    have inDocument := Finset.mem_of_mem_erase isLeft
    obtain ⟨index, _, rfl⟩ :=
      List.mem_map.mp (List.mem_toFinset.mp inDocument)
    exact item_notMem_owned product index

/-- The queries and `free_product` behind them leave the other blocks. -/
theorem used_and_freed (result : Int) {product : Product}
    {others : Finset Block} (apart : Disjoint others (owned product)) :
    AllSound (others ∪ owned product)
        ((queryBlocks result product).map .read ++ freeProduct product) ∧
      liveAfter (others ∪ owned product)
          ((queryBlocks result product).map .read ++ freeProduct product) =
        others := by
  have inside : ∀ block ∈ queryBlocks result product,
      block ∈ others ∪ owned product :=
    fun block member => Finset.mem_union_right _ (mem_owned_of_query member)
  obtain ⟨readsSound, stays⟩ := reads_sound inside
  obtain ⟨freesSound, freed⟩ :=
    freeProduct_releases product (others ∪ owned product)
      (Finset.empty_subset _) Finset.subset_union_right
  rw [allSound_append, liveAfter_append, stays]
  refine ⟨⟨readsSound, freesSound⟩, ?_⟩
  rw [freed, Finset.union_sdiff_right]
  exact Finset.sdiff_eq_self_of_disjoint apart

/-- Every access of `msg_decoder` is sound, and a message leaves what its
decoding leaves. -/
theorem messageAccesses_heap (msg : CString) :
    AllSound ∅ (messageAccesses internalHeader parse msg) ∧
      ((internalHeader.bytes <+: msg.bytes →
          ProductDecoder.sfPrDecoder parse
            (msg.drop internalHeader.bytes.length) ≠ none) →
        liveAfter ∅ (messageAccesses internalHeader parse msg) =
          leftBy internalHeader parse msg) := by
  unfold messageAccesses leftBy
  split
  · next headed =>
      obtain ⟨sound, after⟩ :=
        sfPrDecoder_heap parse (msg.drop internalHeader.bytes.length)
      simp only [sfPrDecoder_result]
      cases decoded : ProductDecoder.sfPrDecoder parse
          (msg.drop internalHeader.bytes.length) with
      | none => exact ⟨sound, fun returns => absurd rfl (returns headed)⟩
      | some answer =>
          rw [decoded] at after
          have live := after (Option.some_ne_none answer)
          obtain ⟨result, product⟩ := answer
          cases product with
          | none =>
              refine ⟨sound, fun _ => ?_⟩
              rw [live]
              exact Finset.union_empty _
          | some product =>
              change liveAfter ∅ _ = _ ∪ owned product at live
              obtain ⟨usedSound, freed⟩ :=
                used_and_freed result (left_apart_owned decoded)
              dsimp only
              rw [List.append_assoc, allSound_append, liveAfter_append, live]
              exact ⟨⟨sound, usedSound⟩, fun _ => freed⟩
  · exact ⟨trivial, fun _ => rfl⟩

end Messages

/-! ## Runs -/

/-- The daemon with its heap, and the number of its messages so far. -/
structure Process where
  daemon : State
  received : Nat
  heap : Heap (Nat × Block)

/-- The daemon before its first message. -/
def Process.start (state : State) : Process where
  daemon := state
  received := 0
  heap := .empty

section Runs

variable (internalHeader : CString) (parse : CString → Option Json)

/-- A message and its accesses. -/
def step (process : Process) (delivery : Delivery) : Option Process :=
  (handle internalHeader parse process.daemon delivery).map fun daemon =>
    { daemon
      received := process.received + 1
      heap := process.heap.accesses
        ((messageAccesses internalHeader parse delivery.msg).map
          (Access.map (Prod.mk process.received))) }

variable {internalHeader parse}

/-- A message that was handled was decoded without a fault. -/
theorem decoded_of_handled {state next : State} {delivery : Delivery}
    (handled : handle internalHeader parse state delivery = some next)
    (headed : internalHeader.bytes <+: delivery.msg.bytes) :
    ProductDecoder.sfPrDecoder parse
      (delivery.msg.drop internalHeader.bytes.length) ≠ none := by
  intro fault
  rw [handle, msgDecoder, if_pos headed, fault] at handled
  cases handled

/-- What a step does to the heap: nothing is a fault, and what the message
leaves is added. -/
theorem step_heap {process next : Process} {delivery : Delivery}
    (earlier : ∀ block ∈ process.heap.live, block.1 < process.received)
    (stepped : step internalHeader parse process delivery = some next) :
    next.received = process.received + 1 ∧
      next.heap.faults = process.heap.faults ∧
        next.heap.live =
          process.heap.live ∪
            (leftBy internalHeader parse delivery.msg).image
              (Prod.mk process.received) := by
  obtain ⟨daemon, handled, rfl⟩ := Option.map_eq_some_iff.mp stepped
  have fresh : ∀ block : Block,
      Prod.mk process.received block ∉ process.heap.live :=
    fun block member => Nat.lt_irrefl _ (earlier _ member)
  have injective : Function.Injective
      (Prod.mk process.received : Block → Nat × Block) :=
    fun _ _ same => congrArg Prod.snd same
  obtain ⟨sound, leaves⟩ :
      AllSound ∅ (messageAccesses internalHeader parse delivery.msg) ∧
        (_ → liveAfter ∅ (messageAccesses internalHeader parse delivery.msg) =
          leftBy internalHeader parse delivery.msg) :=
    messageAccesses_heap delivery.msg
  obtain ⟨mapped, after⟩ := accesses_map injective fresh ∅
    (messageAccesses internalHeader parse delivery.msg)
  rw [Finset.image_empty, Finset.union_empty] at mapped after
  refine ⟨rfl, Heap.faults_of_allSound (mapped.mpr sound), ?_⟩
  rw [Heap.accesses_live, after, leaves (decoded_of_handled handled)]

/-- What a run adds to the heap, by induction on its messages. -/
theorem run_heap {process final : Process} {deliveries : List Delivery}
    (earlier : ∀ block ∈ process.heap.live, block.1 < process.received)
    (reached : run (step internalHeader parse) process deliveries =
      some final) :
    final.heap.faults = process.heap.faults ∧
      (∀ index block, (index, block) ∈ final.heap.live ↔
        (index, block) ∈ process.heap.live ∨
          ∃ offset delivery, index = process.received + offset ∧
            deliveries[offset]? = some delivery ∧
              block ∈ leftBy internalHeader parse delivery.msg) ∧
      final.heap.live.card =
        process.heap.live.card +
          (deliveries.map fun delivery =>
            (leftBy internalHeader parse delivery.msg).card).sum := by
  induction deliveries generalizing process with
  | nil =>
      cases reached
      exact ⟨rfl, fun index block => by simp, rfl⟩
  | cons delivery rest ih =>
      obtain ⟨next, stepped, continued⟩ := (run_cons _ _ _ _ _).mp reached
      obtain ⟨received, faults, live⟩ := step_heap earlier stepped
      have stillEarlier :
          ∀ block ∈ next.heap.live, block.1 < next.received := by
        intro block member
        rw [live] at member
        rw [received]
        rcases Finset.mem_union.mp member with before | added
        · exact Nat.lt_succ_of_lt (earlier block before)
        · obtain ⟨inside, _, rfl⟩ := Finset.mem_image.mp added
          exact Nat.lt_succ_self _
      obtain ⟨finalFaults, finalLive, finalCard⟩ := ih stillEarlier continued
      refine ⟨finalFaults.trans faults, ?_, ?_⟩
      · intro index block
        rw [finalLive, live, received, Finset.mem_union, or_assoc]
        refine or_congr_right ?_
        constructor
        · rintro (added | ⟨offset, later, rfl, found, inside⟩)
          · obtain ⟨here, inside, same⟩ := Finset.mem_image.mp added
            cases same
            exact ⟨0, delivery, rfl, rfl, inside⟩
          · exact
              ⟨offset + 1, later,
                by rw [Nat.add_assoc, Nat.add_comm 1 offset], found, inside⟩
        · rintro ⟨offset, later, rfl, found, inside⟩
          cases offset with
          | zero =>
              cases found
              exact .inl (Finset.mem_image_of_mem _ inside)
          | succ offset =>
              exact
                .inr
                  ⟨offset, later,
                    by rw [Nat.add_assoc, Nat.add_comm 1 offset], found,
                    inside⟩
      · have apart : Disjoint process.heap.live
            ((leftBy internalHeader parse delivery.msg).image
              (Prod.mk process.received)) := by
          rw [Finset.disjoint_left]
          intro block before added
          obtain ⟨inside, _, rfl⟩ := Finset.mem_image.mp added
          exact Nat.lt_irrefl _ (earlier _ before)
        have injective : Function.Injective
            (Prod.mk process.received : Block → Nat × Block) :=
          fun _ _ same => congrArg Prod.snd same
        rw [finalCard, live, Finset.card_union_of_disjoint apart,
          Finset.card_image_of_injective _ injective, List.map_cons,
          List.sum_cons, Nat.add_assoc]

/-- The heap changes nothing that the daemon does. -/
theorem run_daemon (process : Process) (deliveries : List Delivery) :
    (run (step internalHeader parse) process deliveries).map Process.daemon =
      run (handle internalHeader parse) process.daemon deliveries := by
  induction deliveries generalizing process with
  | nil => rfl
  | cons delivery rest ih =>
      rw [run, run, step]
      cases handle internalHeader parse process.daemon delivery with
      | none => rfl
      | some daemon => exact ih _

/--
In every run the daemon frees no block of a decoded message twice and uses none
that it has freed, and those live at its end are what each message has left.
-/
theorem daemon_heap_accounted {state : State} {deliveries : List Delivery}
    {final : Process}
    (reached :
      run (step internalHeader parse) (.start state) deliveries =
        some final) :
    run (handle internalHeader parse) state deliveries = some final.daemon ∧
      final.heap.faults = [] ∧
        ∀ index block, (index, block) ∈ final.heap.live ↔
          ∃ delivery, deliveries[index]? = some delivery ∧
            block ∈ leftBy internalHeader parse delivery.msg := by
  have nothing : ∀ block ∈ (Process.start state).heap.live,
      block.1 < (Process.start state).received :=
    fun block impossible => absurd impossible (Finset.notMem_empty block)
  have same :
      (run (step internalHeader parse) (.start state) deliveries).map
          Process.daemon =
        run (handle internalHeader parse) state deliveries :=
    run_daemon (.start state) deliveries
  rw [reached] at same
  obtain ⟨faults, live, _⟩ := run_heap nothing reached
  refine ⟨same.symm, faults, ?_⟩
  intro index block
  rw [live]
  constructor
  · rintro (impossible | ⟨offset, delivery, isIndex, found, inside⟩)
    · exact absurd impossible (Finset.notMem_empty _)
    · obtain rfl : index = offset := isIndex.trans (Nat.zero_add offset)
      exact ⟨delivery, found, inside⟩
  · rintro ⟨delivery, found, inside⟩
    exact .inr ⟨index, delivery, (Nat.zero_add index).symm, found, inside⟩

/-- A carton of milk is added and removed again. -/
theorem milk_reached :
    ∃ final,
      run (step (.lit "!#+") (Json.parse Json.standardRaw))
          (.start State.start) [milkDelivery 1, milkRemoval] =
        some final := by
  have calmStart : State.start.script = [] := rfl
  obtain ⟨stored, inserts, calm, _⟩ :=
    handle_of_requested calmStart (ReaderRequests.milk_requested 1)
  obtain ⟨last, removes, _⟩ :=
    handle_of_requested calm ReaderRequests.milkRemoval_requested
  have handled :
      run (handle (.lit "!#+") (Json.parse Json.standardRaw)) State.start
        [milkDelivery 1, milkRemoval] = some last :=
    (run_cons _ _ _ _ _).mpr
      ⟨stored, inserts, (run_cons _ _ _ _ _).mpr ⟨last, removes, rfl⟩⟩
  obtain ⟨final, reached, _⟩ :=
    Option.map_eq_some_iff.mp
      ((run_daemon (.start State.start) _).trans handled)
  exact ⟨final, reached⟩

theorem daemon_heap_accounted_milk :
    ∃ final,
      run (step (.lit "!#+") (Json.parse Json.standardRaw))
          (.start State.start) [milkDelivery 1, milkRemoval] =
        some final ∧
      run (handle (.lit "!#+") (Json.parse Json.standardRaw)) State.start
          [milkDelivery 1, milkRemoval] = some final.daemon ∧
        final.heap.faults = [] ∧
          ∀ index block, (index, block) ∈ final.heap.live ↔
            ∃ delivery,
              [milkDelivery 1, milkRemoval][index]? = some delivery ∧
                block ∈
                  leftBy (.lit "!#+") (Json.parse Json.standardRaw)
                    delivery.msg := by
  obtain ⟨final, reached⟩ := milk_reached
  exact ⟨final, reached, daemon_heap_accounted reached⟩

/--
The blocks of decoded messages grow with every message by what the message
leaves, and there is none only as long as no message has had a document of more
than its root.
-/
theorem daemon_heap_grows {state : State} {deliveries : List Delivery}
    {final : Process}
    (reached :
      run (step internalHeader parse) (.start state) deliveries =
        some final) :
    final.heap.live.card =
        (deliveries.map fun delivery =>
          (leftBy internalHeader parse delivery.msg).card).sum ∧
      (final.heap.live = ∅ ↔
        ∀ delivery ∈ deliveries,
          ¬ HasDocument internalHeader parse delivery.msg) := by
  have nothing : ∀ block ∈ (Process.start state).heap.live,
      block.1 < (Process.start state).received :=
    fun block impossible => absurd impossible (Finset.notMem_empty block)
  obtain ⟨_, _, card⟩ := run_heap nothing reached
  have total : final.heap.live.card =
      (deliveries.map fun delivery =>
        (leftBy internalHeader parse delivery.msg).card).sum :=
    card.trans (Nat.zero_add _)
  refine ⟨total, ?_⟩
  rw [← Finset.card_eq_zero, total, List.sum_eq_zero_iff_forall_eq_nat]
  simp only [List.forall_mem_map, Finset.card_eq_zero, leftBy_eq_empty_iff]

theorem daemon_heap_grows_milk :
    ∃ final,
      run (step (.lit "!#+") (Json.parse Json.standardRaw))
          (.start State.start) [milkDelivery 1, milkRemoval] =
        some final ∧
      final.heap.live.card =
          ([milkDelivery 1, milkRemoval].map fun delivery =>
            (leftBy (.lit "!#+") (Json.parse Json.standardRaw)
              delivery.msg).card).sum ∧
        (final.heap.live = ∅ ↔
          ∀ delivery ∈ [milkDelivery 1, milkRemoval],
            ¬ HasDocument (.lit "!#+") (Json.parse Json.standardRaw)
              delivery.msg) := by
  obtain ⟨final, reached⟩ := milk_reached
  exact ⟨final, reached, daemon_heap_grows reached⟩

end Runs

end SmartFridge.DaemonHeap
