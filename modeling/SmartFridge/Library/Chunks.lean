import Mathlib.Data.List.Basic

/-!
# Chunks of a stream

A stream keeps its elements and their order, and hands them over in chunks that
need not be those in which they were written.  Where a delimiter occurs in no
chunk behind its first element, the parts that it delimits fall into chunks of
their own.
-/

namespace SmartFridge.Library

variable {α : Type*}

/-- A division of a stream into chunks of a limited size that are not empty. -/
structure Chunking (limit : Nat) (stream : List α) (chunks : List (List α)) :
    Prop where
  flatten : chunks.flatten = stream
  nonempty : [] ∉ chunks
  bounded : ∀ chunk ∈ chunks, chunk.length ≤ limit

namespace Chunking

variable {limit : Nat} {stream : List α} {chunks : List (List α)}
  (chunking : Chunking limit stream chunks)
include chunking

/-- What a chunk holds comes from the stream. -/
theorem mem_stream {chunk : List α} (present : chunk ∈ chunks) {element : α}
    (member : element ∈ chunk) : element ∈ stream := by
  rw [← chunking.flatten]
  exact List.mem_flatten.mpr ⟨chunk, present, member⟩

theorem length_le {chunk : List α} (present : chunk ∈ chunks) :
    chunk.length ≤ stream.length := by
  rw [← chunking.flatten]
  exact (List.sublist_flatten_of_mem present).length_le

/-- Some chunks of a stream are a part of it that is not empty. -/
theorem flatten_ne_nil {part : List (List α)} (within : part ⊆ chunks)
    (some_ : part ≠ []) : part.flatten ≠ [] := by
  rcases List.exists_cons_of_ne_nil some_ with ⟨chunk, rest, rfl⟩
  intro empty
  have nothing := List.flatten_eq_nil_iff.mp empty chunk List.mem_cons_self
  apply chunking.nonempty
  rw [← nothing]
  exact within List.mem_cons_self

end Chunking

/--
If the delimiter occurs in no chunk behind its first element, then the chunks
can be parted wherever a delimited part begins.
-/
theorem split_of_aligned {delimiter : α} {chunks : List (List α)}
    (nonempty : [] ∉ chunks)
    (aligned : ∀ chunk ∈ chunks, delimiter ∉ chunk.tail)
    {left right : List α} (flat : chunks.flatten = left ++ right)
    (starts : ∀ element ∈ right.head?, element = delimiter) :
    ∃ before behind, chunks = before ++ behind ∧
      before.flatten = left ∧ behind.flatten = right := by
  induction chunks generalizing left with
  | nil =>
      rcases List.append_eq_nil_iff.mp flat.symm with ⟨rfl, rfl⟩
      exact ⟨[], [], rfl, rfl, rfl⟩
  | cons chunk rest ih =>
      rcases left with _ | ⟨first, others⟩
      · exact ⟨[], chunk :: rest, rfl, rfl, flat⟩
      · rw [List.flatten_cons] at flat
        rcases List.append_eq_append_iff.mp flat with
          ⟨later, whole, behind⟩ | ⟨beyond, whole, behind⟩
        · rcases ih (fun member => nonempty (List.mem_cons_of_mem _ member))
            (fun other member => aligned other (List.mem_cons_of_mem _ member))
            behind with ⟨before, after, rfl, flatBefore, flatAfter⟩
          exact ⟨chunk :: before, after, rfl,
            by rw [List.flatten_cons, flatBefore, whole], flatAfter⟩
        · cases beyond with
          | nil =>
              rw [List.append_nil] at whole
              exact ⟨[chunk], rest, rfl, by simp [whole], behind.symm⟩
          | cons element more =>
              -- The chunk runs over into the next part, which it must not.
              have start : element = delimiter :=
                starts element (by rw [behind]; rfl)
              refine absurd ?_ (aligned chunk List.mem_cons_self)
              rw [whole, start]
              exact List.mem_append_right others List.mem_cons_self

end SmartFridge.Library
