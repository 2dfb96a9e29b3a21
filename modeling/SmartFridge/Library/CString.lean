import Mathlib.Algebra.Group.Int.Defs
import Mathlib.Data.List.TakeWhile

/-!
# Byte strings of C

A C string is a list of bytes without a zero byte.  The operations are the ones
a C program performs on its terminated buffers: reading a buffer up to its
terminator, formatting into a buffer of fixed size, cutting a string in place
at a separator, comparing without regard to case, and converting decimal text.
-/

namespace SmartFridge.Library

/-- The characters before the terminating zero byte. -/
structure CString where
  bytes : List UInt8
  nulFree : 0 ∉ bytes
deriving DecidableEq

namespace CString

@[ext]
theorem ext {left right : CString} (equal : left.bytes = right.bytes) :
    left = right := by
  cases left
  cases right
  cases equal
  rfl

/-- A byte that does not occur in a string differs from all its bytes. -/
theorem ne_of_not_mem {bytes : List UInt8} {byte : UInt8}
    (absent : byte ∉ bytes) :
    ∀ other ∈ bytes, decide (other ≠ byte) = true := by
  intro other present
  apply decide_eq_true
  rintro rfl
  exact absent present

/-- The string that a buffer holds: its bytes up to the first zero. -/
def ofBuffer (buffer : List UInt8) : CString where
  bytes := buffer.takeWhile (· ≠ 0)
  nulFree := by
    intro member
    have nonzero := List.mem_takeWhile_imp member
    simp at nonzero

theorem ofBuffer_of_nulFree {buffer : List UInt8} (nulFree : 0 ∉ buffer) :
    (ofBuffer buffer).bytes = buffer := by
  rw [ofBuffer, List.takeWhile_eq_self_iff]
  exact ne_of_not_mem nulFree

/-- Bytes without a zero in front of a buffer are in front of its string. -/
theorem ofBuffer_append {bytes : List UInt8} (nulFree : 0 ∉ bytes)
    (rest : List UInt8) :
    (ofBuffer (bytes ++ rest)).bytes = bytes ++ (ofBuffer rest).bytes :=
  List.takeWhile_append_of_pos (ne_of_not_mem nulFree)

/-- A buffer holds the string up to its first terminator. -/
theorem ofBuffer_terminated {bytes : List UInt8} (nulFree : 0 ∉ bytes)
    (rest : List UInt8) : (ofBuffer (bytes ++ 0 :: rest)).bytes = bytes := by
  rw [ofBuffer_append nulFree]
  exact List.append_nil _

@[simp]
theorem ofBuffer_bytes (text : CString) : ofBuffer text.bytes = text :=
  ext (ofBuffer_of_nulFree text.nulFree)

theorem ofBuffer_length_le (buffer : List UInt8) :
    (ofBuffer buffer).bytes.length ≤ buffer.length :=
  (List.takeWhile_prefix _).length_le

/-- A string literal of the program text. -/
def lit (text : String) : CString :=
  ofBuffer (text.toList.map fun char => char.toNat.toUInt8)

/-- The empty string. -/
def empty : CString :=
  ⟨[], by simp⟩

/-- `strcat`: the second string behind the first. -/
def append (first second : CString) : CString where
  bytes := first.bytes ++ second.bytes
  nulFree := by
    rw [List.mem_append]
    exact not_or.mpr ⟨first.nulFree, second.nulFree⟩

instance : Append CString :=
  ⟨append⟩

@[simp]
theorem bytes_append (first second : CString) :
    (first ++ second).bytes = first.bytes ++ second.bytes :=
  rfl

/-- What `snprintf` leaves of a text in a buffer of `size` bytes. -/
def snprintf (size : Nat) (text : CString) : CString where
  bytes := text.bytes.take (size - 1)
  nulFree := fun member => text.nulFree (List.mem_of_mem_take member)

/-- `strchr`: the string that starts at the first occurrence of a byte. -/
def strchr (text : CString) (byte : UInt8) : Option CString :=
  if byte ∈ text.bytes then
    some
      { bytes := text.bytes.dropWhile (· ≠ byte)
        nulFree := fun member =>
          text.nulFree ((List.dropWhile_sublist _).subset member) }
  else
    none

/-- The text before the first occurrence of a byte, or all of it. -/
def before (text : CString) (byte : UInt8) : CString where
  bytes := text.bytes.takeWhile (· ≠ byte)
  nulFree := fun member =>
    text.nulFree ((List.takeWhile_prefix _).subset member)

/-- The text behind its first byte. -/
def tail (text : CString) : CString where
  bytes := text.bytes.tail
  nulFree := fun member => text.nulFree (List.mem_of_mem_tail member)

/-- The text behind its first bytes. -/
def drop (text : CString) (count : Nat) : CString where
  bytes := text.bytes.drop count
  nulFree := fun member => text.nulFree (List.mem_of_mem_drop member)

@[simp]
theorem append_drop (first second : CString) :
    (first ++ second).drop first.bytes.length = second :=
  ext List.drop_left

/-- A string that begins with another one is that and what is behind it. -/
theorem eq_append_drop {first text : CString}
    (begins : first.bytes <+: text.bytes) :
    text = first ++ text.drop first.bytes.length := by
  apply ext
  rcases begins with ⟨rest, bytes⟩
  simp [drop, ← bytes]

/--
Cutting a string in place: `found = strchr(s, byte)` and `*(found++) = 0`.  The
result is the part before the separator and the part behind it.
-/
def cut (text : CString) (byte : UInt8) : Option (CString × CString) :=
  (text.strchr byte).map fun found => (text.before byte, found.tail)

theorem cut_of_not_mem {text : CString} {byte : UInt8}
    (absent : byte ∉ text.bytes) : text.cut byte = none := by
  rw [cut, strchr, if_neg absent, Option.map_none]

theorem before_of_not_mem {text : CString} {byte : UInt8}
    (absent : byte ∉ text.bytes) : text.before byte = text :=
  ext (List.takeWhile_eq_self_iff.mpr (ne_of_not_mem absent))

theorem before_of_append {text first : CString} {byte : UInt8}
    {rest : List UInt8} (bytes : text.bytes = first.bytes ++ byte :: rest)
    (absent : byte ∉ first.bytes) : text.before byte = first := by
  apply ext
  change text.bytes.takeWhile (· ≠ byte) = first.bytes
  rw [bytes, List.takeWhile_append_of_pos (ne_of_not_mem absent)]
  simp

/-- A string is cut at the first separator. -/
theorem cut_of_append {text first second : CString} {byte : UInt8}
    (bytes : text.bytes = first.bytes ++ byte :: second.bytes)
    (absent : byte ∉ first.bytes) : text.cut byte = some (first, second) := by
  have member : byte ∈ text.bytes := by
    rw [bytes]
    exact List.mem_append_right _ List.mem_cons_self
  rw [cut, strchr, if_pos member, Option.map_some,
    before_of_append bytes absent]
  congr 2
  apply ext
  change (text.bytes.dropWhile (· ≠ byte)).tail = second.bytes
  rw [bytes, List.dropWhile_append_of_pos (ne_of_not_mem absent)]
  simp

/-- Where a separator occurs, a string has a part before and one behind it. -/
theorem exists_cut {text : CString} {byte : UInt8}
    (present : byte ∈ text.bytes) :
    ∃ first second : CString,
      text.bytes = first.bytes ++ byte :: second.bytes ∧
        byte ∉ first.bytes := by
  rcases List.eq_append_cons_of_mem present with ⟨first, second, bytes, absent⟩
  have nulFree := text.nulFree
  rw [bytes, List.mem_append, List.mem_cons, not_or, not_or] at nulFree
  exact ⟨⟨first, nulFree.1⟩, ⟨second, nulFree.2.2⟩, bytes, absent⟩

/-- How far behind the start of a string `strchr` finds a byte. -/
def offset (text : CString) (byte : UInt8) : Option Nat :=
  text.bytes.idxOf? byte

theorem strchr_eq_drop (text : CString) (byte : UInt8) :
    text.strchr byte = (text.offset byte).map text.drop := by
  unfold strchr offset
  split
  · next present =>
      have found := List.isSome_idxOf?.mpr present
      rcases Option.isSome_iff_exists.mp found with ⟨index, isIndex⟩
      rcases List.idxOf?_eq_some_iff.mp isIndex with ⟨bound, here, earlier⟩
      rw [isIndex, Option.map_some, Option.some.injEq]
      apply ext
      change text.bytes.dropWhile (· ≠ byte) = text.bytes.drop index
      have skipped : ∀ other ∈ text.bytes.take index,
          decide (other ≠ byte) = true := by
        intro other member
        rcases List.mem_take_iff_getElem.mp member with ⟨place, before, rfl⟩
        exact decide_eq_true (earlier place (by omega))
      calc text.bytes.dropWhile (· ≠ byte)
          = (text.bytes.take index ++ text.bytes.drop index).dropWhile
              (· ≠ byte) := by rw [List.take_append_drop]
        _ = (text.bytes.drop index).dropWhile (· ≠ byte) :=
              List.dropWhile_append_of_pos skipped
        _ = text.bytes.drop index := by
              rw [List.drop_eq_getElem_cons bound, here]
              simp
  · next absent =>
      rw [List.idxOf?_eq_none_iff.mpr absent, Option.map_none]

/-- The first occurrence of a byte is behind a given part of a string. -/
theorem offset_eq_length_iff {text : CString} {byte : UInt8}
    {first second : List UInt8} (bytes : text.bytes = first ++ second) :
    text.offset byte = some first.length ↔
      byte ∉ first ∧ second.head? = some byte := by
  rw [offset, bytes]
  clear bytes
  induction first with
  | nil =>
      cases second with
      | nil => simp
      | cons head tail => simp [List.idxOf?_cons]
  | cons head tail ih =>
      rw [List.cons_append, List.idxOf?_cons, List.length_cons, List.mem_cons,
        not_or, and_assoc, ← ih]
      by_cases same : head = byte
      · simp [same]
      · have other : byte ≠ head := fun equal => same equal.symm
        simp [same, other]

/-- `tolower` in the C locale. -/
def toLower (byte : UInt8) : UInt8 :=
  if 65 ≤ byte ∧ byte ≤ 90 then byte + 32 else byte

/-- Equality without regard to case. -/
def caseEq (left right : CString) : Bool :=
  left.bytes.map toLower = right.bytes.map toLower

@[simp]
theorem caseEq_refl (text : CString) : text.caseEq text = true := by
  simp [caseEq]

/-- `isspace` in the C locale. -/
def isSpace (byte : UInt8) : Bool :=
  byte = 32 ∨ (9 ≤ byte ∧ byte ≤ 13)

/-- A decimal digit. -/
def isDigit (byte : UInt8) : Bool :=
  48 ≤ byte ∧ byte ≤ 57

/-- The number that a list of decimal digits denotes. -/
def digitsValue (digits : List UInt8) : Nat :=
  digits.foldl (fun value digit => 10 * value + (digit.toNat - 48)) 0

/--
`strtol(text, NULL, 10)` with a 64-bit `long`: blanks, an optional sign and the
longest run of digits, saturating at the ends of the range.
-/
def strtol (text : CString) : Int :=
  let unspaced := text.bytes.dropWhile isSpace
  let negative := unspaced.head? = some 45
  let unsigned :=
    if unspaced.head? = some 45 ∨ unspaced.head? = some 43 then
      unspaced.tail
    else
      unspaced
  let magnitude : Int := digitsValue (unsigned.takeWhile isDigit)
  if negative then
    max (-magnitude) (-(2 ^ 63))
  else
    min magnitude (2 ^ 63 - 1)

end CString

end SmartFridge.Library
