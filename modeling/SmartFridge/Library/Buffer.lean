import SmartFridge.Library.CString

/-!
# Buffers and the indices used on them

The memory from the first byte of an array on.  It goes on behind the array, so
that an operation that leaves the array reads or writes what is there.  The
operations of C on a pointer into the array have the results that they have on
strings, and each of them records the indices it has used.

The scans of strings stop at a zero byte at the latest: behind a terminator
they use nothing.
-/

namespace SmartFridge.Library

/-- The memory from an array of `size` bytes on, and the indices used so far. -/
structure Buffer (size : Nat) where
  cells : List UInt8
  used : List Nat
  declared : size ≤ cells.length

namespace Buffer

/-! ## Scans -/

/-- The indices that a scan reads, up to the first byte at which it stops. -/
def scan (stops : UInt8 → Bool) : List UInt8 → Nat → List Nat
  | [], index => [index]
  | byte :: rest, index =>
      index :: if stops byte then [] else scan stops rest (index + 1)

/-- The indices that `strncmp` reads, up to the first difference. -/
def compared : List UInt8 → List UInt8 → Nat → List Nat
  | [], _, _ => []
  | _ :: _, [], index => [index]
  | expected :: others, byte :: rest, index =>
      index :: if byte = expected then compared others rest (index + 1) else []

/-- The indices that `strtol` reads, up to the first byte behind the number. -/
def converted : List UInt8 → Nat → List Nat
  | [], index => [index]
  | byte :: rest, index =>
      if CString.isSpace byte then
        index :: converted rest (index + 1)
      else if byte = 45 ∨ byte = 43 then
        index :: scan (fun digit => !CString.isDigit digit) rest (index + 1)
      else
        scan (fun digit => !CString.isDigit digit) (byte :: rest) index

/-- A scan reads nothing behind a zero byte. -/
def StopsAtZero (reads : List UInt8 → Nat → List Nat) : Prop :=
  ∀ cells bound index, cells[bound]? = some 0 →
    ∀ place ∈ reads cells index, place ≤ index + bound

theorem scan_stopsAtZero {stops : UInt8 → Bool} (atZero : stops 0 = true) :
    StopsAtZero (scan stops) := by
  intro cells
  induction cells with
  | nil =>
      intro bound index terminated
      cases terminated
  | cons byte rest ih =>
      intro bound index terminated place member
      rcases List.mem_cons.mp member with rfl | later
      · exact Nat.le_add_right _ _
      · cases bound with
        | zero =>
            have isZero : byte = 0 := Option.some.inj terminated
            rw [isZero, if_pos atZero] at later
            cases later
        | succ bound =>
            split at later
            · cases later
            · have within := ih bound (index + 1) terminated place later
              omega

theorem compared_stopsAtZero {expected : List UInt8} (nulFree : 0 ∉ expected) :
    StopsAtZero (compared expected) := by
  intro cells
  induction cells generalizing expected with
  | nil =>
      intro bound index terminated
      cases terminated
  | cons byte rest ih =>
      intro bound index terminated place member
      cases expected with
      | nil => cases member
      | cons first others =>
          rw [List.mem_cons, not_or] at nulFree
          rcases List.mem_cons.mp member with rfl | later
          · exact Nat.le_add_right _ _
          · split at later
            · next same =>
                cases bound with
                | zero =>
                    have isZero : byte = 0 := Option.some.inj terminated
                    exact absurd (isZero.symm.trans same) nulFree.1
                | succ bound =>
                    have within :=
                      ih nulFree.2 bound (index + 1) terminated place later
                    omega
            · cases later

theorem converted_stopsAtZero : StopsAtZero converted := by
  have digits : StopsAtZero (scan fun digit => !CString.isDigit digit) :=
    scan_stopsAtZero (by decide)
  intro cells
  induction cells with
  | nil =>
      intro bound index terminated
      cases terminated
  | cons byte rest ih =>
      intro bound index terminated place member
      -- Blanks and signs are not zero, so that the terminator is behind them.
      have behind (passed : byte ≠ 0) : ∃ before, bound = before + 1 ∧
          rest[before]? = some 0 := by
        cases bound with
        | zero => exact absurd (Option.some.inj terminated) passed
        | succ before => exact ⟨before, rfl, terminated⟩
      unfold converted at member
      split at member
      · next space =>
          have passed : byte ≠ 0 := by
            rintro rfl
            revert space
            decide
          rcases behind passed with ⟨before, rfl, later⟩
          rcases List.mem_cons.mp member with rfl | member
          · exact Nat.le_add_right _ _
          · have within := ih before (index + 1) later place member
            omega
      · split at member
        · next sign =>
            have passed : byte ≠ 0 := by
              rintro rfl
              revert sign
              decide
            rcases behind passed with ⟨before, rfl, later⟩
            rcases List.mem_cons.mp member with rfl | member
            · exact Nat.le_add_right _ _
            · have within := digits rest before (index + 1) later place member
              omega
        · exact digits _ bound index terminated place member

/-- A string ends at a zero byte at the latest. -/
theorem ofBuffer_length_le_of_zero {cells : List UInt8} {bound : Nat}
    (terminated : cells[bound]? = some 0) :
    (CString.ofBuffer cells).bytes.length ≤ bound := by
  induction cells generalizing bound with
  | nil => cases terminated
  | cons byte rest ih =>
      change ((byte :: rest).takeWhile (· ≠ 0)).length ≤ bound
      rw [List.takeWhile_cons]
      split
      · next nonzero =>
          cases bound with
          | zero =>
              have isZero : byte = 0 := Option.some.inj terminated
              simp [isZero] at nonzero
          | succ bound =>
              have later : rest[bound]? = some 0 := terminated
              exact Nat.succ_le_succ (ih later)
      · exact Nat.zero_le bound

/-! ## Operations -/

section Operations

variable {size : Nat}

/-- No index outside of the array was used. -/
def InBounds (buffer : Buffer size) : Prop :=
  ∀ index ∈ buffer.used, index < size

/-- The same memory, of which nothing was used yet. -/
def fresh (buffer : Buffer size) : Buffer size :=
  { buffer with used := [] }

/-- The string that starts at an index. -/
def text (buffer : Buffer size) (start : Nat) : CString :=
  CString.ofBuffer (buffer.cells.drop start)

/-- A record of some more indices. -/
def use (buffer : Buffer size) (indices : List Nat) : Buffer size :=
  { buffer with used := buffer.used ++ indices }

/-- A record of what a scan from an index reads. -/
def read (reads : List UInt8 → Nat → List Nat) (start : Nat)
    (buffer : Buffer size) : Buffer size :=
  buffer.use (reads (buffer.cells.drop start) start)

/-- Bytes from outside are put at the start. -/
def fill (bytes : List UInt8) (buffer : Buffer size) : Buffer size where
  cells := bytes ++ buffer.cells.drop bytes.length
  used := buffer.used ++ List.range bytes.length
  declared := by
    have declared := buffer.declared
    rw [List.length_append, List.length_drop]
    omega

/-- A byte is written. -/
def store (index : Nat) (byte : UInt8) (buffer : Buffer size) :
    Buffer size where
  cells := buffer.cells.set index byte
  used := buffer.used ++ [index]
  declared := by
    rw [List.length_set]
    exact buffer.declared

/-- A byte is read. -/
def load (index : Nat) (buffer : Buffer size) :
    Option UInt8 × Buffer size :=
  (buffer.cells[index]?, buffer.use [index])

/-- A string is read up to its terminator. -/
def readString (start : Nat) (buffer : Buffer size) : Buffer size :=
  buffer.read (scan (· = 0)) start

/-- `strdup`. -/
def strdup (start : Nat) (buffer : Buffer size) : CString × Buffer size :=
  (buffer.text start, buffer.readString start)

/-- `strchr`, with the index of the byte as its result. -/
def strchr (start : Nat) (byte : UInt8) (buffer : Buffer size) :
    Option Nat × Buffer size :=
  (((buffer.text start).offset byte).map (start + ·),
    buffer.read (scan fun other => other = 0 || other = byte) start)

/-- `strncmp` with the length of the expected string. -/
def strncmp (start : Nat) (expected : CString) (buffer : Buffer size) :
    Bool × Buffer size :=
  (expected.bytes <+: (buffer.text start).bytes,
    buffer.read (compared expected.bytes) start)

/-- `strtol` with the base 10. -/
def strtol (start : Nat) (buffer : Buffer size) : Int × Buffer size :=
  ((buffer.text start).strtol, buffer.read converted start)

/-- An index that was used stays recorded. -/
theorem mem_used_use {buffer : Buffer size} {indices : List Nat} {index : Nat}
    (used : index ∈ buffer.used) : index ∈ (buffer.use indices).used :=
  List.mem_append_left _ used

theorem mem_used_read {buffer : Buffer size}
    {reads : List UInt8 → Nat → List Nat} {start index : Nat}
    (used : index ∈ buffer.used) : index ∈ (buffer.read reads start).used :=
  mem_used_use used

theorem mem_used_store {buffer : Buffer size} {place index : Nat} {byte : UInt8}
    (used : index ∈ buffer.used) : index ∈ (buffer.store place byte).used :=
  List.mem_append_left _ used

/-! ## Bounds -/

/-- What is used on the way from a buffer to a later one, which is terminated at
an index, lies at or before that index. -/
structure Within (bound : Nat) (before after : Buffer size) : Prop where
  terminated : after.cells[bound]? = some 0
  bounded : ∀ index ∈ after.used, index ∈ before.used ∨ index ≤ bound

variable {bound start : Nat} {buffer : Buffer size}

theorem Within.trans {before between after : Buffer size}
    (first : Within bound before between)
    (second : Within bound between after) : Within bound before after where
  terminated := second.terminated
  bounded := by
    intro index member
    rcases second.bounded index member with earlier | small
    · exact first.bounded index earlier
    · exact .inr small

/-- Indices in a terminated string may be recorded. -/
theorem use_within (terminated : buffer.cells[bound]? = some 0)
    {indices : List Nat} (small : ∀ index ∈ indices, index ≤ bound) :
    Within bound buffer (buffer.use indices) where
  terminated := terminated
  bounded := by
    intro index member
    rcases List.mem_append.mp member with earlier | new
    · exact .inl earlier
    · exact .inr (small index new)

theorem load_within (terminated : buffer.cells[bound]? = some 0)
    (inside : start ≤ bound) : Within bound buffer (buffer.load start).2 := by
  apply use_within terminated
  intro index member
  rw [List.mem_singleton.mp member]
  exact inside

theorem drop_terminated (terminated : buffer.cells[bound]? = some 0)
    (inside : start ≤ bound) :
    (buffer.cells.drop start)[bound - start]? = some 0 := by
  rw [List.getElem?_drop, Nat.add_sub_cancel' inside]
  exact terminated

/-- Every scan from within a terminated string stays there. -/
theorem read_within {reads : List UInt8 → Nat → List Nat}
    (stops : StopsAtZero reads) (terminated : buffer.cells[bound]? = some 0)
    (inside : start ≤ bound) : Within bound buffer (buffer.read reads start) := by
  apply use_within terminated
  intro index member
  have small := stops _ _ start (drop_terminated terminated inside) index member
  omega

theorem readString_within (terminated : buffer.cells[bound]? = some 0)
    (inside : start ≤ bound) : Within bound buffer (buffer.readString start) :=
  read_within (scan_stopsAtZero rfl) terminated inside

theorem strchr_within (byte : UInt8)
    (terminated : buffer.cells[bound]? = some 0) (inside : start ≤ bound) :
    Within bound buffer (buffer.strchr start byte).2 :=
  read_within (scan_stopsAtZero rfl) terminated inside

theorem strncmp_within (expected : CString)
    (terminated : buffer.cells[bound]? = some 0) (inside : start ≤ bound) :
    Within bound buffer (buffer.strncmp start expected).2 :=
  read_within (compared_stopsAtZero expected.nulFree) terminated inside

theorem strtol_within (terminated : buffer.cells[bound]? = some 0)
    (inside : start ≤ bound) : Within bound buffer (buffer.strtol start).2 :=
  read_within converted_stopsAtZero terminated inside

/-- A zero byte may be written anywhere in a terminated string. -/
theorem store_within (terminated : buffer.cells[bound]? = some 0)
    (inside : start ≤ bound) : Within bound buffer (buffer.store start 0) where
  terminated := by
    rcases List.getElem?_eq_some_iff.mp terminated with ⟨short, isZero⟩
    change (buffer.cells.set start 0)[bound]? = some 0
    rw [List.getElem?_set]
    split
    · next same => rw [if_pos (by omega)]
    · exact terminated
  bounded := by
    intro index member
    rcases List.mem_append.mp member with earlier | new
    · exact .inl earlier
    · rw [List.mem_singleton.mp new]
      exact .inr inside

/-- The string at an index ends at the terminator at the latest. -/
theorem text_length_le (terminated : buffer.cells[bound]? = some 0)
    (inside : start ≤ bound) :
    start + (buffer.text start).bytes.length ≤ bound := by
  have short := ofBuffer_length_le_of_zero (drop_terminated terminated inside)
  change (buffer.text start).bytes.length ≤ bound - start at short
  omega

/-- What `strchr` finds lies before the terminator. -/
theorem strchr_lt {byte : UInt8} {found : Nat}
    (terminated : buffer.cells[bound]? = some 0) (inside : start ≤ bound)
    (isFound : (buffer.strchr start byte).1 = some found) : found < bound := by
  rcases Option.map_eq_some_iff.mp isFound with ⟨offset, isOffset, rfl⟩
  rcases List.idxOf?_eq_some_iff.mp isOffset with ⟨short, _, _⟩
  have length := text_length_le terminated inside
  omega

/-- What `strncmp` has recognised ends at the terminator at the latest. -/
theorem strncmp_le {expected : CString}
    (terminated : buffer.cells[bound]? = some 0) (inside : start ≤ bound)
    (same : (buffer.strncmp start expected).1 = true) :
    start + expected.bytes.length ≤ bound := by
  have begins : expected.bytes <+: (buffer.text start).bytes :=
    of_decide_eq_true same
  have shorter := begins.length_le
  have length := text_length_le terminated inside
  omega

end Operations

/-! ## Strings -/

section Strings

variable {size : Nat} (buffer : Buffer size)

/-- A message in the memory: bytes from outside and their terminator. -/
theorem cells_terminated {bytes : List UInt8}
    (short : bytes.length < buffer.cells.length) :
    ((buffer.fill bytes).store bytes.length 0).cells =
      bytes ++ 0 :: buffer.cells.drop (bytes.length + 1) := by
  change (bytes ++ buffer.cells.drop bytes.length).set bytes.length 0 = _
  rw [List.set_append_right _ _ (Nat.le_refl _), Nat.sub_self,
    List.drop_eq_getElem_cons short, List.set_cons_zero]

theorem fill_terminated {bytes : List UInt8}
    (short : bytes.length < buffer.cells.length) :
    ((buffer.fill bytes).store bytes.length 0).cells[bytes.length]? =
      some 0 := by
  rw [cells_terminated buffer short, List.getElem?_append_right (Nat.le_refl _),
    Nat.sub_self, List.getElem?_cons_zero]

/-- Receiving and terminating a message uses nothing behind its terminator. -/
theorem message_within {bytes : List UInt8}
    (short : bytes.length < buffer.cells.length) :
    Within bytes.length buffer
      ((buffer.fill bytes).store bytes.length 0) where
  terminated := fill_terminated buffer short
  bounded := by
    intro index member
    rcases List.mem_append.mp member with filled | last
    · rcases List.mem_append.mp filled with earlier | received
      · exact .inl earlier
      · exact .inr (List.mem_range.mp received).le
    · exact .inr (List.mem_singleton.mp last).le

/-- The string of a message is the one that was received. -/
theorem text_terminated {bytes : List UInt8}
    (short : bytes.length < buffer.cells.length) :
    ((buffer.fill bytes).store bytes.length 0).text 0 =
      CString.ofBuffer bytes := by
  rw [text, cells_terminated buffer short, List.drop_zero]
  apply CString.ext
  change (bytes ++ _).takeWhile (· ≠ 0) = bytes.takeWhile (· ≠ 0)
  rw [List.takeWhile_append]
  split
  · next whole =>
      rw [(List.takeWhile_prefix _).eq_of_length whole]
      simp
  · rfl

/-- The string behind the first byte of a string. -/
theorem text_succ {start : Nat} (nonempty : buffer.text start ≠ .empty) :
    buffer.text (start + 1) = (buffer.text start).tail := by
  have rest : buffer.cells.drop (start + 1) = (buffer.cells.drop start).tail := by
    rw [List.tail_drop]
  unfold text at nonempty ⊢
  rw [rest]
  cases cells : buffer.cells.drop start with
  | nil =>
      rw [cells] at nonempty
      exact absurd rfl nonempty
  | cons byte others =>
      rw [cells] at nonempty
      apply CString.ext
      change others.takeWhile (· ≠ 0) =
        ((byte :: others).takeWhile (· ≠ 0)).tail
      rw [List.takeWhile_cons]
      split
      · rfl
      · next zero =>
          refine absurd (CString.ext ?_) nonempty
          change (byte :: others).takeWhile (· ≠ 0) = []
          rw [List.takeWhile_cons, if_neg zero]

/-- A byte that is not zero stands in the memory if it stands in the string. -/
theorem head_text {byte : UInt8} (nonzero : byte ≠ 0) :
    (buffer.text 0).bytes.head? = some byte ↔
      (buffer.load 0).1 = some byte := by
  change (buffer.cells.takeWhile (· ≠ 0)).head? = some byte ↔
    buffer.cells[0]? = some byte
  cases buffer.cells with
  | nil => simp
  | cons first rest =>
      rw [List.takeWhile_cons]
      split
      · rfl
      · next zero =>
          have isZero : first = 0 := by simpa using zero
          simp [isZero, nonzero.symm]

/-- What `strchr` finds is not at the start if another byte is there. -/
theorem strchr_ne_zero {byte other : UInt8} {found : Nat}
    (isFound : (buffer.strchr 0 byte).1 = some found)
    (starts : (buffer.text 0).bytes.head? = some other)
    (different : other ≠ byte) : found ≠ 0 := by
  rintro rfl
  rcases Option.map_eq_some_iff.mp isFound with ⟨offset, isOffset, same⟩
  rw [Nat.zero_add] at same
  subst same
  rcases List.idxOf?_eq_some_iff.mp isOffset with ⟨inside, isByte, _⟩
  rw [List.head?_eq_getElem?, List.getElem?_eq_getElem inside, isByte] at starts
  exact different (Option.some.inj starts).symm

theorem cut_of_strchr_none {byte : UInt8}
    (absent : (buffer.strchr 0 byte).1 = none) :
    (buffer.text 0).cut byte = none := by
  apply CString.cut_of_not_mem
  exact List.idxOf?_eq_none_iff.mp (Option.map_eq_none_iff.mp absent)

/-- Writing a zero over the byte that `strchr` finds cuts the string there. -/
theorem cut_of_strchr_some {byte : UInt8} {found : Nat}
    (isFound : (buffer.strchr 0 byte).1 = some found) :
    (buffer.text 0).cut byte =
      some ((buffer.store found 0).text 0,
        (buffer.store found 0).text (found + 1)) := by
  rcases Option.map_eq_some_iff.mp isFound with ⟨offset, isOffset, same⟩
  rw [Nat.zero_add] at same
  subst same
  rcases List.idxOf?_eq_some_iff.mp isOffset with ⟨inside, isByte, _⟩
  have present : byte ∈ (buffer.text 0).bytes :=
    List.mem_of_getElem isByte
  rcases CString.exists_cut present with ⟨first, second, bytes, absent⟩
  have length : first.bytes.length = offset := by
    have there :=
      (CString.offset_eq_length_iff bytes).mpr ⟨absent, rfl⟩
    exact Option.some.inj (there.symm.trans isOffset)
  subst length
  rcases List.takeWhile_prefix (p := fun byte => byte ≠ 0)
    (l := buffer.cells) with ⟨behind, cells⟩
  change (buffer.text 0).bytes ++ behind = buffer.cells at cells
  have parts : buffer.cells =
      (first.bytes ++ [byte]) ++ (second.bytes ++ behind) := by
    rw [← cells, bytes]
    simp
  have nulFree : 0 ∉ first.bytes ++ [byte] := by
    have free := (buffer.text 0).nulFree
    rw [bytes, List.append_cons] at free
    exact fun member => free (List.mem_append_left _ member)
  have stored : (buffer.store first.bytes.length 0).cells =
      first.bytes ++ 0 :: (second.bytes ++ behind) := by
    change buffer.cells.set first.bytes.length 0 = _
    rw [parts, List.append_assoc, List.set_append_right _ _ (Nat.le_refl _),
      Nat.sub_self]
    rfl
  have before : (buffer.store first.bytes.length 0).text 0 = first := by
    rw [text, stored, List.drop_zero]
    exact CString.ext (CString.ofBuffer_terminated first.nulFree _)
  have after :
      (buffer.store first.bytes.length 0).text (first.bytes.length + 1) =
        second := by
    have whole : (buffer.text 0).bytes =
        (first.bytes ++ [byte]) ++
          (CString.ofBuffer (second.bytes ++ behind)).bytes := by
      rw [text, List.drop_zero, parts, CString.ofBuffer_append nulFree]
    rw [bytes, List.append_cons] at whole
    rw [text, stored, List.drop_length_add_append, List.drop_one,
      List.tail_cons]
    exact CString.ext (List.append_cancel_left whole).symm
  rw [before, after]
  exact CString.cut_of_append bytes absent

end Strings

end Buffer

end SmartFridge.Library
