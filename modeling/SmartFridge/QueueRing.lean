import SmartFridge.Library.Runs
import SmartFridge.Library.Ring

/-!
# The bounded queue of the reader

The model of `sf_queue_set`, `sf_queue_add` and `sf_queue_get`.  A slot of
`dataQueue` is `none` where the C array holds `NULL`; the mutex makes each
operation one atomic step.

The abstract store below is a list, oldest value first.  The relation
`Represents` says how the ring holds such a list, and the two refinement
theorems say that each operation of the ring is one operation of the list.
The list is taken from at its newest end, except when it fills the ring.
-/

namespace SmartFridge.QueueRing

open SmartFridge.Library

/-- `MIN_QUEUE_SIZE` -/
def minQueueSize : Int := 5

/-- `MAX_QUEUE_SIZE` -/
def maxQueueSize : Int := 200

/-- The structure `queue`, without its lock. -/
structure Queue (α : Type) where
  dataQueue : List (Option α)
  size : Nat
  current : Nat
  writeP : Nat
deriving DecidableEq

variable {α : Type}

/-- The pointer `data_queue[p]`. -/
def Queue.slot (q : Queue α) (p : Nat) : Option α :=
  (q.dataQueue[p]?).join

/-- `sf_queue_set`: the result code and the queue afterwards. -/
def sfQueueSet (q : Queue α) (size : Int) : Int × Queue α :=
  if size < minQueueSize then
    (1, q)
  else if size > maxQueueSize then
    (2, q)
  else
    (0, { dataQueue := List.replicate size.toNat none
          size := size.toNat
          current := 0
          writeP := 0 })

/-- `sf_queue_add`; the loop stops at the first empty slot from `write_p` on. -/
def sfQueueAdd (q : Queue α) (value : Option α) : Int × Queue α :=
  if q.current < q.size then
    match (List.range q.size).find? fun i =>
        (q.slot ((q.writeP + i) % q.size)).isNone with
    | some i =>
        (0, { q with
          dataQueue := q.dataQueue.set ((q.writeP + i) % q.size) value
          writeP := (q.writeP + i + 1) % q.size
          current := q.current + 1 })
    | none => (1, q)
  else
    (1, q)

/--
`sf_queue_get`; the loop stops at the first occupied slot from `write_p` back.
The index `(write_p - i + size) % size` is written with `size` added first,
because `Nat` subtraction would cut the negative intermediate value.
-/
def sfQueueGet (q : Queue α) : Option α × Queue α :=
  if q.current ≠ 0 then
    match (List.range q.size).find? fun i =>
        (q.slot ((q.writeP + q.size - i) % q.size)).isSome with
    | some i =>
        let p := (q.writeP + q.size - i) % q.size
        (q.slot p, { q with
          dataQueue := q.dataQueue.set p none
          writeP := p
          current := q.current - 1 })
    | none => (none, q)
  else
    (none, q)

/-! ## The abstract store -/

/-- Adding to a list of bounded length, with the result code of the queue. -/
def storeAdd (size : Nat) (values : List α) (value : α) : Int × List α :=
  if values.length < size then
    (0, values ++ [value])
  else
    (1, values)

/-- Taking from the list: the oldest value of a full one, else the newest. -/
def storeGet (size : Nat) (values : List α) : Option α × List α :=
  if values.length = size then
    (values.head?, values.tail)
  else
    (values.getLast?, values.dropLast)

/--
The ring holds the list `values`, oldest first.  Read once around from
`write_p`, it shows its free slots and then the values in order: the occupied
slots are the consecutive ones that end just before `write_p`.
-/
structure Represents (q : Queue α) (values : List α) : Prop where
  length_data : q.dataQueue.length = q.size
  writeP_lt : q.writeP < q.size
  current_eq : q.current = values.length
  fits : values.length ≤ q.size
  reading :
    q.dataQueue.rotate q.writeP =
      List.replicate (q.size - values.length) none ++ values.map some

namespace Represents

variable {q : Queue α} {values : List α}

/-- Exactly as many slots are occupied as values are stored. -/
theorem occupied (represents : Represents q values) :
    q.dataQueue.countP Option.isSome = values.length := by
  have moved :
      (q.dataQueue.rotate q.writeP).countP Option.isSome =
        q.dataQueue.countP Option.isSome :=
    (List.rotate_perm q.dataQueue q.writeP).countP_eq _
  rw [← moved, represents.reading]
  simp [List.countP_replicate, List.countP_map, Function.comp_def]

/-- The pointer met `offset` slots after `write_p`. -/
theorem slot_offset (represents : Represents q values)
    {offset : Nat} (inside : offset < q.size) :
    q.slot ((q.writeP + offset) % q.size) =
      ((List.replicate (q.size - values.length) none ++
        values.map some)[offset]?).join := by
  have insideData : offset < q.dataQueue.length := by
    rw [represents.length_data]
    exact inside
  have read := Ring.rotate_getElem? q.dataQueue q.writeP offset insideData
  rw [represents.reading, represents.length_data] at read
  rw [Queue.slot, read]

/-- While a slot is free, the one at `write_p` is. -/
theorem slot_writeP_free (represents : Represents q values)
    (free : values.length < q.size) :
    q.slot q.writeP = none := by
  have positive : 0 < q.size := by omega
  have read := represents.slot_offset positive
  have reduced : (q.writeP + 0) % q.size = q.writeP := by
    rw [Nat.add_zero, Nat.mod_eq_of_lt represents.writeP_lt]
  have available : 0 < q.size - values.length := by omega
  rw [reduced, List.getElem?_append_left (by simpa using available),
    List.getElem?_replicate_of_lt available] at read
  exact read

/-- In a full ring the slot at `write_p` holds the oldest value. -/
theorem slot_writeP_full (represents : Represents q values)
    (full : values.length = q.size) :
    q.slot q.writeP = values.head? := by
  have positive : 0 < q.size := by
    have inside := represents.writeP_lt
    omega
  have read := represents.slot_offset positive
  have reduced : (q.writeP + 0) % q.size = q.writeP := by
    rw [Nat.add_zero, Nat.mod_eq_of_lt represents.writeP_lt]
  rw [reduced, full, Nat.sub_self] at read
  rw [read]
  cases values with
  | nil => simp
  | cons value rest => simp

/-- The slot before `write_p` holds the newest value. -/
theorem slot_before_writeP (represents : Represents q values)
    (stored : values ≠ []) :
    q.slot ((q.writeP + (q.size - 1)) % q.size) = values.getLast? := by
  obtain ⟨front, last, rfl⟩ :=
    (List.eq_nil_or_concat' values).resolve_left stored
  have fits := represents.fits
  rw [List.length_append, List.length_singleton] at fits
  have inside : q.size - 1 < q.size := by omega
  rw [represents.slot_offset inside]
  have position :
      q.size - 1 =
        (List.replicate (q.size - (front ++ [last]).length)
          (none : Option α) ++ front.map some).length := by
    simp
    omega
  rw [List.map_append, ← List.append_assoc, position,
    List.getElem?_append_right (Nat.le_refl _)]
  simp

end Represents

/-! ## The loops find their slot -/

/-- The loop of `sf_queue_add` stops at once while a slot is free. -/
theorem add_loop (q : Queue α) (values : List α)
    (represents : Represents q values)
    (free : values.length < q.size) :
    ((List.range q.size).find? fun i =>
        (q.slot ((q.writeP + i) % q.size)).isNone) = some 0 := by
  rw [List.find?_range_eq_some]
  refine ⟨?_, by simp; omega, by simp⟩
  rw [Nat.add_zero, Nat.mod_eq_of_lt represents.writeP_lt,
    represents.slot_writeP_free free]
  rfl

/-- In a full ring the loop of `sf_queue_get` stops at `write_p`. -/
theorem get_loop_full (q : Queue α) (values : List α)
    (represents : Represents q values)
    (full : values.length = q.size) :
    ((List.range q.size).find? fun i =>
        (q.slot ((q.writeP + q.size - i) % q.size)).isSome) = some 0 := by
  have inside := represents.writeP_lt
  have stored : values ≠ [] := by
    rintro rfl
    simp only [List.length_nil] at full
    omega
  rw [List.find?_range_eq_some]
  refine ⟨?_, by simp; omega, by simp⟩
  rw [Nat.sub_zero, Nat.add_mod_right, Nat.mod_eq_of_lt inside,
    represents.slot_writeP_full full, List.isSome_head?]
  simpa using stored

/-- Otherwise it passes the free slot at `write_p` and stops at the next. -/
theorem get_loop_partial (q : Queue α) (values : List α)
    (represents : Represents q values)
    (stored : values ≠ []) (free : values.length < q.size) :
    ((List.range q.size).find? fun i =>
        (q.slot ((q.writeP + q.size - i) % q.size)).isSome) = some 1 := by
  have inside := represents.writeP_lt
  have nonzero : 0 < values.length := List.length_pos_iff.mpr stored
  rw [List.find?_range_eq_some]
  refine ⟨?_, by simp; omega, ?_⟩
  · have index : q.writeP + q.size - 1 = q.writeP + (q.size - 1) := by
      omega
    rw [index, represents.slot_before_writeP stored]
    simpa [List.getLast?_isSome] using stored
  · intro j before
    obtain rfl : j = 0 := by omega
    rw [Nat.sub_zero, Nat.add_mod_right, Nat.mod_eq_of_lt inside,
      represents.slot_writeP_free free]
    rfl

/-! ## Refinement -/

/-- A queue that has just been set holds nothing. -/
theorem set_represents (q : Queue α) {size : Int}
    (least : minQueueSize ≤ size) (most : size ≤ maxQueueSize) :
    (sfQueueSet q size).1 = 0 ∧
      (sfQueueSet q size).2.size = size.toNat ∧
      Represents (sfQueueSet q size).2 [] := by
  have notSmall : ¬ size < minQueueSize := by omega
  have notLarge : ¬ size > maxQueueSize := by omega
  rw [sfQueueSet, if_neg notSmall, if_neg notLarge]
  refine ⟨rfl, rfl, ?_⟩
  have positive : 0 < size.toNat := by
    unfold minQueueSize at least
    omega
  exact
    { length_data := by simp
      writeP_lt := positive
      current_eq := rfl
      fits := Nat.zero_le _
      reading := by simp }

/-- The queue after an addition that found a free slot. -/
def Queue.stored (q : Queue α) (value : α) : Queue α :=
  { q with
    dataQueue := q.dataQueue.set q.writeP (some value)
    writeP := (q.writeP + 1) % q.size
    current := q.current + 1 }

/-- The queue after the slot `p` has been emptied. -/
def Queue.released (q : Queue α) (p : Nat) : Queue α :=
  { q with
    dataQueue := q.dataQueue.set p none
    writeP := p
    current := q.current - 1 }

theorem add_eq_stored {q : Queue α} {values : List α}
    (represents : Represents q values) (value : α)
    (free : values.length < q.size) :
    sfQueueAdd q (some value) = (0, q.stored value) := by
  have room : q.current < q.size := by
    rw [represents.current_eq]
    exact free
  rw [sfQueueAdd, if_pos room, add_loop q values represents free]
  simp [Queue.stored, Nat.mod_eq_of_lt represents.writeP_lt]

theorem add_eq_refused {q : Queue α} {values : List α}
    (represents : Represents q values) (value : Option α)
    (full : ¬ values.length < q.size) :
    sfQueueAdd q value = (1, q) := by
  have noRoom : ¬ q.current < q.size := by
    rw [represents.current_eq]
    exact full
  rw [sfQueueAdd, if_neg noRoom]

/-- Storing a value appends it to the represented list. -/
theorem stored_represents {q : Queue α} {values : List α}
    (represents : Represents q values) (value : α)
    (free : values.length < q.size) :
    Represents (q.stored value) (values ++ [value]) := by
  have inside : q.writeP < q.dataQueue.length := by
    rw [represents.length_data]
    exact represents.writeP_lt
  obtain ⟨spare, available⟩ :
      ∃ spare, q.size - values.length = spare + 1 :=
    ⟨q.size - values.length - 1, by omega⟩
  have written :
      (q.dataQueue.set q.writeP (some value)).rotate q.writeP =
        some value :: (List.replicate spare none ++ values.map some) := by
    rw [Ring.rotate_set_start _ _ _ inside, represents.reading, available,
      List.replicate_succ]
    rfl
  exact
    { length_data := by
        simpa [Queue.stored] using represents.length_data
      writeP_lt := Nat.mod_lt _ (by omega)
      current_eq := by
        simp [Queue.stored, represents.current_eq]
      fits := by
        rw [List.length_append, List.length_singleton]
        exact free
      reading := by
        have moved := Ring.rotate_next written
        rw [List.length_set, represents.length_data] at moved
        have remaining :
            q.size - (values ++ [value]).length = spare := by
          rw [List.length_append, List.length_singleton]
          omega
        rw [Queue.stored, remaining]
        simpa using moved }

/-- Emptying the slot at `write_p` of a full ring drops the oldest value. -/
theorem released_full_represents {q : Queue α} {value : α} {rest : List α}
    (represents : Represents q (value :: rest))
    (full : (value :: rest).length = q.size) :
    Represents (q.released q.writeP) rest := by
  have inside : q.writeP < q.dataQueue.length := by
    rw [represents.length_data]
    exact represents.writeP_lt
  rw [List.length_cons] at full
  exact
    { length_data := by
        simpa [Queue.released] using represents.length_data
      writeP_lt := represents.writeP_lt
      current_eq := by
        simp [Queue.released, represents.current_eq]
      fits := by
        change rest.length ≤ q.size
        omega
      reading := by
        have one : q.size - rest.length = 1 := by omega
        have reading := represents.reading
        rw [List.length_cons, full, Nat.sub_self] at reading
        rw [Queue.released, one, Ring.rotate_set_start _ _ _ inside, reading]
        rfl }

/-- Emptying the slot before `write_p` drops the newest value. -/
theorem released_partial_represents {q : Queue α} {front : List α} {value : α}
    (represents : Represents q (front ++ [value])) :
    Represents (q.released ((q.writeP + (q.size - 1)) % q.size)) front := by
  have fits := represents.fits
  rw [List.length_append, List.length_singleton] at fits
  have positive : 0 < q.size := by omega
  have target :
      (q.writeP + (q.size - 1)) % q.size < q.dataQueue.length := by
    rw [represents.length_data]
    exact Nat.mod_lt _ positive
  have reading :
      q.dataQueue.rotate q.writeP =
        (List.replicate (q.size - (front.length + 1)) none ++
          front.map some) ++ [some value] := by
    rw [represents.reading]
    simp
  have moved := Ring.rotate_previous reading
  rw [represents.length_data] at moved
  exact
    { length_data := by
        simpa [Queue.released] using represents.length_data
      writeP_lt := Nat.mod_lt _ positive
      current_eq := by
        simp [Queue.released, represents.current_eq]
      fits := by
        change front.length ≤ q.size
        omega
      reading := by
        have wider :
            q.size - front.length = q.size - (front.length + 1) + 1 := by
          omega
        rw [Queue.released, Ring.rotate_set_start _ _ _ target, moved, wider,
          List.replicate_succ]
        rfl }

theorem get_eq_empty {q : Queue α} (represents : Represents q []) :
    sfQueueGet q = (none, q) := by
  have nothing : ¬ q.current ≠ 0 := by
    rw [represents.current_eq]
    simp
  rw [sfQueueGet, if_neg nothing]

theorem get_eq_oldest {q : Queue α} {value : α} {rest : List α}
    (represents : Represents q (value :: rest))
    (full : (value :: rest).length = q.size) :
    sfQueueGet q = (some value, q.released q.writeP) := by
  have some_stored : q.current ≠ 0 := by
    rw [represents.current_eq]
    simp
  rw [sfQueueGet, if_pos some_stored,
    get_loop_full q _ represents full]
  have slot := represents.slot_writeP_full full
  simp [Queue.released, Nat.mod_eq_of_lt represents.writeP_lt, slot]

theorem get_eq_newest {q : Queue α} {front : List α} {value : α}
    (represents : Represents q (front ++ [value]))
    (free : (front ++ [value]).length < q.size) :
    sfQueueGet q =
      (some value,
        q.released ((q.writeP + (q.size - 1)) % q.size)) := by
  have some_stored : q.current ≠ 0 := by
    rw [represents.current_eq]
    simp
  have stored : front ++ [value] ≠ [] := by simp
  have index : q.writeP + q.size - 1 = q.writeP + (q.size - 1) := by
    omega
  have slot := represents.slot_before_writeP stored
  rw [sfQueueGet, if_pos some_stored,
    get_loop_partial q _ represents stored free]
  simp [Queue.released, index, slot]

/-- `sf_queue_add` refines the addition to the bounded list. -/
theorem add_refines {q : Queue α} {values : List α}
    (represents : Represents q values) (value : α) :
    (sfQueueAdd q (some value)).1 = (storeAdd q.size values value).1 ∧
      (sfQueueAdd q (some value)).2.size = q.size ∧
      Represents (sfQueueAdd q (some value)).2
        (storeAdd q.size values value).2 := by
  by_cases free : values.length < q.size
  · rw [add_eq_stored represents value free, storeAdd, if_pos free]
    exact ⟨rfl, rfl, stored_represents represents value free⟩
  · rw [add_eq_refused represents _ free, storeAdd, if_neg free]
    exact ⟨rfl, rfl, represents⟩

/-- `sf_queue_get` refines the removal from the bounded list. -/
theorem get_refines {q : Queue α} {values : List α}
    (represents : Represents q values) :
    (sfQueueGet q).1 = (storeGet q.size values).1 ∧
      (sfQueueGet q).2.size = q.size ∧
      Represents (sfQueueGet q).2 (storeGet q.size values).2 := by
  by_cases full : values.length = q.size
  · cases values with
    | nil =>
        have inside := represents.writeP_lt
        rw [List.length_nil] at full
        omega
    | cons value rest =>
        rw [get_eq_oldest represents full, storeGet, if_pos full]
        exact ⟨rfl, rfl, released_full_represents represents full⟩
  · rcases List.eq_nil_or_concat' values with rfl | ⟨front, value, rfl⟩
    · rw [get_eq_empty represents, storeGet, if_neg full]
      exact ⟨rfl, rfl, represents⟩
    · have fits := represents.fits
      have free : (front ++ [value]).length < q.size := by omega
      rw [get_eq_newest represents free, storeGet, if_neg full]
      refine ⟨by simp, rfl, ?_⟩
      simpa using released_partial_represents represents

/-! ## The stored values without their order -/

/-- The values in the occupied slots. -/
def Queue.contents (q : Queue α) : List α :=
  q.dataQueue.filterMap id

/-- The ring holds some list. -/
def Queue.WellFormed (q : Queue α) : Prop :=
  ∃ values, Represents q values

theorem Represents.contents_perm {q : Queue α} {values : List α}
    (represents : Represents q values) : q.contents.Perm values := by
  have moved := (List.rotate_perm q.dataQueue q.writeP).filterMap id
  rw [represents.reading] at moved
  have read :
      (List.replicate (q.size - values.length) none ++
        values.map some).filterMap id = values := by
    simp [List.filterMap_append, List.filterMap_map]
  rw [read] at moved
  exact moved.symm

/-- An accepted value is stored; a value is refused only by a full ring. -/
theorem add_contents {q : Queue α} (formed : q.WellFormed) (value : α) :
    (sfQueueAdd q (some value)).2.WellFormed ∧
      ((sfQueueAdd q (some value)).1 = 0 ∧
          (sfQueueAdd q (some value)).2.contents.Perm (value :: q.contents) ∨
        sfQueueAdd q (some value) = (1, q) ∧ q.contents ≠ []) := by
  rcases formed with ⟨values, represents⟩
  by_cases free : values.length < q.size
  · have stored := stored_represents represents value free
    rw [add_eq_stored represents value free]
    have appended : (values ++ [value]).Perm (value :: values) :=
      List.perm_append_comm
    exact
      ⟨⟨_, stored⟩, .inl ⟨rfl, stored.contents_perm.trans
        (appended.trans (represents.contents_perm.symm.cons value))⟩⟩
  · have refused := add_eq_refused represents (some value) free
    have inside := represents.writeP_lt
    have stored : values ≠ [] := by
      rintro rfl
      simp only [List.length_nil] at free
      omega
    refine ⟨?_, .inr ⟨refused, ?_⟩⟩
    · rw [refused]
      exact ⟨values, represents⟩
    · intro empty
      have none := represents.contents_perm
      rw [empty] at none
      exact stored none.nil_eq.symm

/-- A value that is handed out was stored; nothing is handed out of an empty ring. -/
theorem get_contents {q : Queue α} (formed : q.WellFormed) :
    (sfQueueGet q).2.WellFormed ∧
      (sfQueueGet q = (none, q) ∧ q.contents = [] ∨
        ∃ value, (sfQueueGet q).1 = some value ∧
          q.contents.Perm (value :: (sfQueueGet q).2.contents)) := by
  rcases formed with ⟨values, represents⟩
  rcases get_refines represents with ⟨taken, _, left⟩
  refine ⟨⟨_, left⟩, ?_⟩
  cases nonempty : values with
  | nil =>
      subst nonempty
      exact .inl
        ⟨get_eq_empty represents, represents.contents_perm.eq_nil⟩
  | cons first rest =>
      right
      have removed : ∃ value,
          (storeGet q.size values).1 = some value ∧
            values.Perm (value :: (storeGet q.size values).2) := by
        unfold storeGet
        split
        · exact ⟨first, by simp [nonempty], by simp [nonempty]⟩
        · rcases (List.eq_nil_or_concat' values).resolve_left
            (by simp [nonempty]) with ⟨front, last, rfl⟩
          refine ⟨last, by simp, ?_⟩
          rw [List.dropLast_concat]
          exact List.perm_append_comm
      rcases removed with ⟨value, isTaken, perm⟩
      exact
        ⟨value, taken.trans isTaken,
          represents.contents_perm.trans
            (perm.trans (left.contents_perm.symm.cons value))⟩

end SmartFridge.QueueRing
