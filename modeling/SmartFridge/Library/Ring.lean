import Mathlib.Data.List.Rotate
import Mathlib.Data.Nat.ModEq

/-!
# Circular arrays read from a moving position

A list `cells` of length `n` is read as a ring: `cells.rotate start` lists the
cells in the order in which a reader meets them from position `start`.  The
lemmas say how this reading changes when one cell is written and when the
starting position moves by one in either direction.
-/

namespace SmartFridge.Library.Ring

variable {β : Type*}

/-- Two offsets below `n` reach the same cell only if they are equal. -/
theorem offset_injective {n start first second : Nat}
    (firstLt : first < n) (secondLt : second < n)
    (same : (start + first) % n = (start + second) % n) :
    first = second := by
  have congruent : first ≡ second [MOD n] :=
    Nat.ModEq.add_left_cancel' start same
  exact Nat.ModEq.eq_of_lt_of_lt congruent firstLt secondLt

/-- The cell met after `offset` steps from `start`. -/
theorem rotate_getElem? (cells : List β) (start offset : Nat)
    (inside : offset < cells.length) :
    (cells.rotate start)[offset]? =
      cells[(start + offset) % cells.length]? := by
  rw [List.getElem?_rotate inside, Nat.add_comm]

/-- Writing the cell met after `offset` steps writes that place of the reading. -/
theorem rotate_set (cells : List β) (start offset : Nat) (value : β)
    (inside : offset < cells.length) :
    (cells.set ((start + offset) % cells.length) value).rotate start =
      (cells.rotate start).set offset value := by
  apply List.ext_getElem
  · simp
  · intro index leftLt rightLt
    have indexLt : index < cells.length := by simpa using rightLt
    by_cases same : offset = index
    · subst same
      simp [List.getElem_rotate, Nat.add_comm]
    · have different :
          (start + offset) % cells.length ≠
            (index + start) % cells.length := by
        intro equal
        rw [Nat.add_comm index start] at equal
        exact same (offset_injective inside indexLt equal)
      simp [List.getElem_rotate, same, different]

/-- Writing the cell at `start` writes the head of the reading. -/
theorem rotate_set_start (cells : List β) (start : Nat) (value : β)
    (startLt : start < cells.length) :
    (cells.set start value).rotate start =
      (cells.rotate start).set 0 value := by
  have placed := rotate_set cells start 0 value (by omega)
  rwa [Nat.add_zero, Nat.mod_eq_of_lt startLt] at placed

/-- Starting one position later moves the head of the reading to its end. -/
theorem rotate_next {cells rest : List β} {start : Nat} {head : β}
    (reading : cells.rotate start = head :: rest) :
    cells.rotate ((start + 1) % cells.length) = rest ++ [head] := by
  rw [List.rotate_mod, ← List.rotate_rotate, reading,
    List.rotate_cons_succ, List.rotate_zero]

/-- Starting one position earlier moves the last cell of the reading first. -/
theorem rotate_previous {cells front : List β} {start : Nat} {last : β}
    (reading : cells.rotate start = front ++ [last]) :
    cells.rotate ((start + (cells.length - 1)) % cells.length) =
      last :: front := by
  have lengthEq : cells.length = front.length + 1 := by
    have lengths := congrArg List.length reading
    simpa using lengths
  have before : cells.length - 1 = front.length := by omega
  rw [List.rotate_mod, before, ← List.rotate_rotate, reading,
    List.rotate_append_length_eq]
  rfl

end SmartFridge.Library.Ring
