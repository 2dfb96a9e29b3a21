import Mathlib.Data.Finset.Basic

/-!
# Blocks of a heap

A heap as the set of the blocks that are allocated, and the accesses that were
not as they should be: a read or a release of a block that is not allocated, or
an allocation under a name that is taken.
-/

namespace SmartFridge.Library.Allocation

variable {ι : Type*}

/-- What a program does with a block. -/
inductive Access (ι : Type*) where
  | alloc (block : ι)
  | read (block : ι)
  | free (block : ι)
deriving DecidableEq

/-- The access is one that the live blocks allow. -/
def Access.Sound (live : Finset ι) : Access ι → Prop
  | .alloc block => block ∉ live
  | .read block => block ∈ live
  | .free block => block ∈ live

/-- A heap and the accesses that were faults. -/
structure Heap (ι : Type*) where
  live : Finset ι
  faults : List (Access ι)

/-- The heap of a program that has just been started. -/
def Heap.empty : Heap ι :=
  ⟨∅, []⟩

section Sound

variable {live : Finset ι} {block : ι}

@[simp]
theorem sound_alloc : (Access.alloc block).Sound live ↔ block ∉ live :=
  Iff.rfl

@[simp]
theorem sound_read : (Access.read block).Sound live ↔ block ∈ live :=
  Iff.rfl

@[simp]
theorem sound_free : (Access.free block).Sound live ↔ block ∈ live :=
  Iff.rfl

end Sound

variable [DecidableEq ι]

instance Access.decidableSound (live : Finset ι) :
    (access : Access ι) → Decidable (access.Sound live)
  | .alloc block => inferInstanceAs (Decidable (block ∉ live))
  | .read block => inferInstanceAs (Decidable (block ∈ live))
  | .free block => inferInstanceAs (Decidable (block ∈ live))

/-- The live blocks behind an access. -/
def Access.after (live : Finset ι) : Access ι → Finset ι
  | .alloc block => insert block live
  | .read _ => live
  | .free block => live.erase block

/-- An access, which is a fault if it is not sound. -/
def Heap.access (heap : Heap ι) (access : Access ι) : Heap ι where
  live := access.after heap.live
  faults :=
    if access.Sound heap.live then heap.faults else heap.faults ++ [access]

/-- Accesses one after another. -/
def Heap.accesses (heap : Heap ι) (accesses : List (Access ι)) : Heap ι :=
  accesses.foldl Heap.access heap

/-- The live blocks behind some accesses. -/
def liveAfter (live : Finset ι) (accesses : List (Access ι)) : Finset ι :=
  accesses.foldl Access.after live

/-- Each access is sound when its turn comes. -/
def AllSound (live : Finset ι) : List (Access ι) → Prop
  | [] => True
  | access :: rest => access.Sound live ∧ AllSound (access.after live) rest

section After

variable {live : Finset ι} {block : ι}

@[simp]
theorem after_alloc : (Access.alloc block).after live = insert block live :=
  rfl

@[simp]
theorem after_read : (Access.read block).after live = live :=
  rfl

@[simp]
theorem after_free : (Access.free block).after live = live.erase block :=
  rfl

end After

section Accesses

variable {live : Finset ι} {accesses : List (Access ι)}

@[simp]
theorem liveAfter_nil : liveAfter live [] = live :=
  rfl

@[simp]
theorem liveAfter_cons {access : Access ι} :
    liveAfter live (access :: accesses) =
      liveAfter (access.after live) accesses :=
  rfl

@[simp]
theorem allSound_nil : AllSound live [] :=
  trivial

@[simp]
theorem allSound_cons {access : Access ι} :
    AllSound live (access :: accesses) ↔
      access.Sound live ∧ AllSound (access.after live) accesses :=
  Iff.rfl

theorem Heap.accesses_live (heap : Heap ι) (accesses : List (Access ι)) :
    (heap.accesses accesses).live = liveAfter heap.live accesses := by
  induction accesses generalizing heap with
  | nil => rfl
  | cons access rest ih => exact ih (heap.access access)

/-- Faults stay, and what is added are accesses that were not sound. -/
theorem Heap.accesses_faults (heap : Heap ι) (accesses : List (Access ι)) :
    ∃ faults, faults.Sublist accesses ∧
      (heap.accesses accesses).faults = heap.faults ++ faults ∧
        (faults = [] ↔ AllSound heap.live accesses) := by
  induction accesses generalizing heap with
  | nil => exact ⟨[], List.Sublist.refl [], (List.append_nil _).symm, by simp⟩
  | cons access rest ih =>
      obtain ⟨faults, among, later, none⟩ := ih (heap.access access)
      by_cases sound : access.Sound heap.live
      · have same : (heap.access access).faults = heap.faults := if_pos sound
        refine ⟨faults, among.cons access, ?_, ?_⟩
        · exact later.trans (by rw [same])
        · rw [allSound_cons, none]
          exact (and_iff_right sound).symm
      · have fault : (heap.access access).faults = heap.faults ++ [access] :=
          if_neg sound
        refine ⟨access :: faults, among.cons_cons access, ?_, ?_⟩
        · exact later.trans (by rw [fault, List.append_assoc]; rfl)
        · rw [allSound_cons]
          exact iff_of_false (List.cons_ne_nil _ _) fun all => sound all.1

theorem Heap.faults_of_allSound {heap : Heap ι}
    (sound : AllSound heap.live accesses) :
    (heap.accesses accesses).faults = heap.faults := by
  obtain ⟨faults, _, same, none⟩ := heap.accesses_faults accesses
  rw [same, none.mpr sound, List.append_nil]

/-- A heap without faults stays so exactly through sound accesses. -/
theorem Heap.faults_eq_nil_iff {heap : Heap ι} (clean : heap.faults = []) :
    (heap.accesses accesses).faults = [] ↔ AllSound heap.live accesses := by
  obtain ⟨faults, _, same, none⟩ := heap.accesses_faults accesses
  rw [same, clean, List.nil_append, none]

end Accesses

end SmartFridge.Library.Allocation
