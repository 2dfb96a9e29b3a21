import Mathlib.Data.List.Nodup

/-!
# Tables with a key

The rows of a table whose key some of them may lack.  As in SQL, two rows that
have a key have different ones, while rows without a key conflict with nothing.
A table carries this fact, and its operations are the four statements that keep
it: insertion of a row, an update that leaves the key alone, and deletion and
lookup of rows.
-/

namespace SmartFridge.Library

variable {ρ κ : Type*}

/-- Some rows of which no two have the same key. -/
structure Table (key : ρ → Option κ) where
  rows : List ρ
  keyed : (rows.filterMap key).Nodup

namespace Table

variable {key : ρ → Option κ}

@[ext]
theorem ext {left right : Table key} (equal : left.rows = right.rows) :
    left = right := by
  cases left
  cases right
  cases equal
  rfl

instance : Membership ρ (Table key) :=
  ⟨fun table row => row ∈ table.rows⟩

theorem mem_rows {table : Table key} {row : ρ} :
    row ∈ table.rows ↔ row ∈ table :=
  Iff.rfl

/-- The table without rows. -/
def empty : Table key :=
  ⟨[], List.nodup_nil⟩

@[simp]
theorem not_mem_empty (row : ρ) : row ∉ (empty : Table key) :=
  List.not_mem_nil

/-- A row that has a key is the only one that has it. -/
theorem eq_of_key_eq (table : Table key) {left right : ρ} {value : κ}
    (leftMem : left ∈ table) (rightMem : right ∈ table)
    (leftKey : key left = some value) (rightKey : key right = some value) :
    left = right := by
  rcases table with ⟨rows, keyed⟩
  change left ∈ rows at leftMem
  change right ∈ rows at rightMem
  induction rows with
  | nil => cases leftMem
  | cons head rest ih =>
      cases headKey : key head with
      | none =>
          rw [List.filterMap_cons_none headKey] at keyed
          rcases List.mem_cons.mp leftMem with rfl | leftRest
          · cases headKey.symm.trans leftKey
          · rcases List.mem_cons.mp rightMem with rfl | rightRest
            · cases headKey.symm.trans rightKey
            · exact ih keyed leftRest rightRest
      | some headValue =>
          rw [List.filterMap_cons_some headKey, List.nodup_cons] at keyed
          rcases List.mem_cons.mp leftMem with rfl | leftRest
          · rcases List.mem_cons.mp rightMem with rfl | rightRest
            · rfl
            · cases headKey.symm.trans leftKey
              exact absurd
                (List.mem_filterMap.mpr ⟨right, rightRest, rightKey⟩) keyed.1
          · rcases List.mem_cons.mp rightMem with rfl | rightRest
            · cases headKey.symm.trans rightKey
              exact absurd
                (List.mem_filterMap.mpr ⟨left, leftRest, leftKey⟩) keyed.1
            · exact ih keyed.2 leftRest rightRest

/-! ## Insertion -/

/-- Whether a row with the key of this one is stored. -/
def Conflicts (table : Table key) (row : ρ) : Prop :=
  ∃ value, key row = some value ∧ value ∈ table.rows.filterMap key

theorem conflicts_iff {table : Table key} {row : ρ} :
    table.Conflicts row ↔
      ∃ stored ∈ table, ∃ value,
        key stored = some value ∧ key row = some value := by
  constructor
  · rintro ⟨value, same, member⟩
    rcases List.mem_filterMap.mp member with ⟨stored, present, storedKey⟩
    exact ⟨stored, present, value, storedKey, same⟩
  · rintro ⟨stored, present, value, storedKey, same⟩
    exact ⟨value, same, List.mem_filterMap.mpr ⟨stored, present, storedKey⟩⟩

section Insert

variable [DecidableEq κ]

instance (table : Table key) (row : ρ) : Decidable (table.Conflicts row) :=
  match found : key row with
  | none => .isFalse fun ⟨_, same, _⟩ => nomatch found.symm.trans same
  | some value =>
      decidable_of_iff (value ∈ table.rows.filterMap key)
        ⟨fun member => ⟨value, found, member⟩,
          fun ⟨_, same, member⟩ =>
            Option.some.inj (found.symm.trans same) ▸ member⟩

/-- The table with one more row, unless its key is taken. -/
def insert (table : Table key) (row : ρ) : Option (Table key) :=
  if conflict : table.Conflicts row then
    none
  else
    some
      { rows := table.rows ++ [row]
        keyed := by
          rw [List.filterMap_append, List.nodup_append]
          refine ⟨table.keyed, ?_, ?_⟩
          · cases found : key row with
            | none => simp [found]
            | some value => simp [found]
          · rintro value member other otherMember rfl
            rcases List.mem_filterMap.mp otherMember with
              ⟨inserted, insertedMember, insertedKey⟩
            cases List.mem_singleton.mp insertedMember
            exact conflict ⟨value, insertedKey, member⟩ }

theorem insert_eq_none {table : Table key} {row : ρ} :
    table.insert row = none ↔ table.Conflicts row := by
  simp [insert]

theorem rows_of_insert {table next : Table key} {row : ρ}
    (inserted : table.insert row = some next) :
    next.rows = table.rows ++ [row] := by
  unfold insert at inserted
  split at inserted
  · cases inserted
  · cases inserted
    rfl

theorem mem_of_insert {table next : Table key} {row stored : ρ}
    (inserted : table.insert row = some next) :
    stored ∈ next ↔ stored ∈ table ∨ stored = row := by
  rw [← mem_rows, rows_of_insert inserted, List.mem_append,
    List.mem_singleton, mem_rows]

/-- Insertion whose failure is tolerated. -/
def tryInsert (table : Table key) (row : ρ) : Table key :=
  (table.insert row).getD table

theorem mem_tryInsert {table : Table key} {row stored : ρ} :
    stored ∈ table.tryInsert row ↔
      stored ∈ table ∨ (¬ table.Conflicts row ∧ stored = row) := by
  unfold tryInsert
  cases inserted : table.insert row with
  | none =>
      have conflict := insert_eq_none.mp inserted
      simp [conflict]
  | some next =>
      have free : ¬ table.Conflicts row := by
        intro conflict
        cases inserted.symm.trans (insert_eq_none.mpr conflict)
      simp [free, mem_of_insert inserted]

/-- A row that conflicts with no other one is added. -/
theorem tryInsert_eq_self_iff {table : Table key} {row : ρ} :
    table.tryInsert row = table ↔ table.Conflicts row := by
  unfold tryInsert
  cases inserted : table.insert row with
  | none => exact iff_of_true rfl (insert_eq_none.mp inserted)
  | some next =>
      refine iff_of_false ?_ ?_
      · intro same
        have longer := congrArg (List.length ∘ Table.rows) same
        simp [rows_of_insert inserted] at longer
      · intro conflict
        cases inserted.symm.trans (insert_eq_none.mpr conflict)

end Insert

/-! ## Update and deletion -/

/-- Every row replaced by one with the same key. -/
def update (table : Table key) (change : ρ → ρ)
    (keeps : ∀ row, key (change row) = key row) : Table key where
  rows := table.rows.map change
  keyed := by
    have same : key ∘ change = key := funext keeps
    rw [List.filterMap_map, same]
    exact table.keyed

theorem mem_update {table : Table key} {change : ρ → ρ}
    {keeps : ∀ row, key (change row) = key row} {row : ρ} :
    row ∈ table.update change keeps ↔
      ∃ stored ∈ table, change stored = row :=
  List.mem_map

theorem update_eq_self_iff {table : Table key} {change : ρ → ρ}
    {keeps : ∀ row, key (change row) = key row} :
    table.update change keeps = table ↔ ∀ row ∈ table, change row = row := by
  have whole : table.rows.map id = table.rows := List.map_id table.rows
  rw [Table.ext_iff]
  constructor
  · intro same
    exact List.map_inj_left.mp (same.trans whole.symm)
  · intro fixed
    exact (List.map_inj_left.mpr fixed).trans whole

/-- The table without the rows that satisfy a condition. -/
def delete (table : Table key) (condition : ρ → Bool) : Table key where
  rows := table.rows.filter fun row => !condition row
  keyed :=
    table.keyed.sublist (List.filter_sublist.filterMap key)

theorem mem_delete {table : Table key} {condition : ρ → Bool} {row : ρ} :
    row ∈ table.delete condition ↔
      row ∈ table ∧ condition row = false := by
  rw [← mem_rows, delete, List.mem_filter, mem_rows, Bool.not_eq_true']

theorem delete_eq_self_iff {table : Table key} {condition : ρ → Bool} :
    table.delete condition = table ↔ ∀ row ∈ table, condition row = false := by
  rw [Table.ext_iff, delete, List.filter_eq_self]
  simp only [mem_rows, Bool.not_eq_true']

/-! ## Lookup -/

section Lookup

variable [DecidableEq κ]

/-- The row that has a key. -/
def find (table : Table key) (value : κ) : Option ρ :=
  table.rows.find? fun row => key row = some value

theorem find_eq_some {table : Table key} {value : κ} {row : ρ} :
    table.find value = some row ↔ row ∈ table ∧ key row = some value := by
  constructor
  · intro found
    exact ⟨List.mem_of_find?_eq_some found,
      by simpa using List.find?_some found⟩
  · rintro ⟨member, rowKey⟩
    cases found : table.find value with
    | none =>
        have absent := List.find?_eq_none.mp found row member
        exact absurd (decide_eq_true rowKey) absent
    | some other =>
        have otherMember := List.mem_of_find?_eq_some found
        have otherKey : key other = some value := by
          simpa using List.find?_some found
        rw [table.eq_of_key_eq otherMember member otherKey rowKey]

theorem find_eq_none {table : Table key} {value : κ} :
    table.find value = none ↔ ∀ row ∈ table, key row ≠ some value := by
  simp [find, mem_rows]

theorem find_of_insert {table next : Table key} {row : ρ}
    (inserted : table.insert row = some next) (value : κ) :
    next.find value =
      if key row = some value then some row else table.find value := by
  ext found
  rw [find_eq_some, mem_of_insert inserted]
  split
  · next rowKey =>
      constructor
      · rintro ⟨_, foundKey⟩
        have rowMem : row ∈ next := (mem_of_insert inserted).mpr (.inr rfl)
        have foundMem : found ∈ next := by
          rw [mem_of_insert inserted]
          assumption
        exact congrArg some (next.eq_of_key_eq rowMem foundMem rowKey foundKey)
      · rintro ⟨⟩
        exact ⟨.inr rfl, rowKey⟩
  · next rowKey =>
      rw [find_eq_some]
      constructor
      · rintro ⟨present | rfl, foundKey⟩
        · exact ⟨present, foundKey⟩
        · exact absurd foundKey rowKey
      · rintro ⟨present, foundKey⟩
        exact ⟨.inl present, foundKey⟩

theorem find_update (table : Table key) (change : ρ → ρ)
    (keeps : ∀ row, key (change row) = key row) (value : κ) :
    (table.update change keeps).find value = (table.find value).map change := by
  ext found
  rw [find_eq_some, mem_update, Option.map_eq_some_iff]
  constructor
  · rintro ⟨⟨stored, present, rfl⟩, foundKey⟩
    exact ⟨stored, find_eq_some.mpr ⟨present, keeps stored ▸ foundKey⟩, rfl⟩
  · rintro ⟨stored, storedFound, rfl⟩
    rcases find_eq_some.mp storedFound with ⟨present, storedKey⟩
    exact ⟨⟨stored, present, rfl⟩, (keeps stored).trans storedKey⟩

theorem find_delete (table : Table key) (condition : ρ → Bool) (value : κ) :
    (table.delete condition).find value =
      (table.find value).filter fun row => !condition row := by
  ext found
  rw [find_eq_some, mem_delete, Option.filter_eq_some_iff, find_eq_some,
    Bool.not_eq_true']
  exact and_right_comm

end Lookup

/-! ## The same rows -/

/-- The rows of both tables are the same, in some order. -/
def Similar (left right : Table key) : Prop :=
  left.rows.Perm right.rows

theorem Similar.refl (table : Table key) : table.Similar table :=
  List.Perm.refl _

theorem Similar.symm {left right : Table key} (similar : left.Similar right) :
    right.Similar left :=
  List.Perm.symm similar

theorem Similar.trans {first second third : Table key}
    (left : first.Similar second) (right : second.Similar third) :
    first.Similar third :=
  List.Perm.trans left right

theorem Similar.conflicts_iff {left right : Table key}
    (similar : left.Similar right) (row : ρ) :
    left.Conflicts row ↔ right.Conflicts row := by
  have keys : ∀ value : κ,
      value ∈ left.rows.filterMap key ↔ value ∈ right.rows.filterMap key :=
    fun value => (List.Perm.filterMap key similar).mem_iff
  simp only [Conflicts, keys]

/-- If every row has a key, no row occurs twice. -/
theorem rows_nodup (table : Table key) (total : ∀ row, key row ≠ none) :
    table.rows.Nodup := by
  apply (List.pairwise_filterMap.mp table.keyed).imp
  rintro row _ distinct rfl
  rcases Option.ne_none_iff_exists'.mp (total row) with ⟨value, rowKey⟩
  exact distinct value rowKey value rowKey rfl

/-- If every row has a key, lookups determine the rows. -/
theorem similar_of_find [DecidableEq κ] {left right : Table key}
    (total : ∀ row, key row ≠ none)
    (same : ∀ value, left.find value = right.find value) :
    left.Similar right := by
  apply (List.perm_ext_iff_of_nodup (left.rows_nodup total)
    (right.rows_nodup total)).mpr
  intro row
  rcases Option.ne_none_iff_exists'.mp (total row) with ⟨value, rowKey⟩
  have found (table : Table key) :
      row ∈ table.rows ↔ table.find value = some row := by
    rw [find_eq_some, mem_rows]
    exact (and_iff_left rowKey).symm
  rw [found, found, same]

/-- The two rows do not have the same key. -/
def Apart (key : ρ → Option κ) (left right : ρ) : Prop :=
  ∀ value, key left = some value → key right ≠ some value

theorem Apart.symm {left right : ρ} (apart : Apart key left right) :
    Apart key right left :=
  fun value rightKey leftKey => apart value leftKey rightKey

section Orders

variable [DecidableEq κ]

theorem rows_tryInsert (table : Table key) (row : ρ) :
    (table.tryInsert row).rows =
      if table.Conflicts row then table.rows else table.rows ++ [row] := by
  unfold tryInsert
  cases inserted : table.insert row with
  | none => rw [if_pos (insert_eq_none.mp inserted), Option.getD_none]
  | some next =>
      have free : ¬ table.Conflicts row := by
        intro conflict
        cases inserted.symm.trans (insert_eq_none.mpr conflict)
      rw [if_neg free, Option.getD_some, rows_of_insert inserted]

theorem Similar.tryInsert {left right : Table key}
    (similar : left.Similar right) (row : ρ) :
    (left.tryInsert row).Similar (right.tryInsert row) := by
  unfold Similar
  simp only [rows_tryInsert, similar.conflicts_iff]
  split
  · exact similar
  · exact similar.append_right [row]

/-- An insertion does not hinder one of a row with another key. -/
theorem conflicts_tryInsert {table : Table key} {row other : ρ}
    (apart : Apart key row other) :
    (table.tryInsert row).Conflicts other ↔ table.Conflicts other := by
  rw [conflicts_iff, conflicts_iff]
  constructor
  · rintro ⟨stored, present, value, storedKey, otherKey⟩
    rcases mem_tryInsert.mp present with old | ⟨_, rfl⟩
    · exact ⟨stored, old, value, storedKey, otherKey⟩
    · exact absurd otherKey (apart value storedKey)
  · rintro ⟨stored, present, keys⟩
    exact ⟨stored, mem_tryInsert.mpr (.inl present), keys⟩

theorem tryInsert_comm (table : Table key) {left right : ρ}
    (apart : Apart key left right) :
    ((table.tryInsert left).tryInsert right).Similar
      ((table.tryInsert right).tryInsert left) := by
  unfold Similar
  simp only [rows_tryInsert, conflicts_tryInsert apart,
    conflicts_tryInsert apart.symm]
  split
  · exact List.Perm.refl _
  · split
    · exact List.Perm.refl _
    · rw [List.append_assoc, List.append_assoc]
      exact (List.Perm.swap right left []).append_left table.rows

/-- Insertions in turn whose failures are tolerated. -/
def insertAll (table : Table key) (rows : List ρ) : Table key :=
  rows.foldl tryInsert table

theorem insertAll_nil (table : Table key) : table.insertAll [] = table :=
  rfl

theorem insertAll_cons (table : Table key) (row : ρ) (rows : List ρ) :
    table.insertAll (row :: rows) = (table.tryInsert row).insertAll rows :=
  rfl

theorem insertAll_append (table : Table key) (first second : List ρ) :
    table.insertAll (first ++ second) =
      (table.insertAll first).insertAll second :=
  List.foldl_append

/-- Insertions append some of their rows and leave those that are there. -/
theorem rows_insertAll (table : Table key) (rows : List ρ) :
    ∃ added, added.Sublist rows ∧
      (table.insertAll rows).rows = table.rows ++ added := by
  induction rows generalizing table with
  | nil => exact ⟨[], List.Sublist.slnil, (List.append_nil _).symm⟩
  | cons row rest ih =>
      rcases ih (table.tryInsert row) with ⟨added, within, appended⟩
      rw [insertAll_cons, appended, rows_tryInsert]
      split
      · exact ⟨added, within.cons row, rfl⟩
      · exact ⟨row :: added, within.cons_cons row, List.append_assoc _ _ _⟩

theorem Similar.insertAll {left right : Table key}
    (similar : left.Similar right) (rows : List ρ) :
    (left.insertAll rows).Similar (right.insertAll rows) := by
  induction rows generalizing left right with
  | nil => exact similar
  | cons row rest ih => exact ih (similar.tryInsert row)

theorem insertAll_tryInsert (table : Table key) {row : ρ} {rows : List ρ}
    (apart : ∀ other ∈ rows, Apart key row other) :
    ((table.insertAll rows).tryInsert row).Similar
      ((table.tryInsert row).insertAll rows) := by
  induction rows generalizing table with
  | nil => exact Similar.refl _
  | cons other rest ih =>
      have swapped :=
        (tryInsert_comm table (apart other List.mem_cons_self)).symm
      exact (ih (table.tryInsert other) fun later member =>
        apart later (List.mem_cons_of_mem _ member)).trans
          (swapped.insertAll rest)

/-- Insertions of rows with different keys may be exchanged. -/
theorem insertAll_comm (table : Table key) {left right : List ρ}
    (apart : ∀ row ∈ left, ∀ other ∈ right, Apart key row other) :
    ((table.insertAll left).insertAll right).Similar
      ((table.insertAll right).insertAll left) := by
  induction left generalizing table with
  | nil => exact Similar.refl _
  | cons row rest ih =>
      have first := insertAll_tryInsert table (apart row List.mem_cons_self)
      exact (ih (table.tryInsert row) fun later member =>
        apart later (List.mem_cons_of_mem _ member)).trans
          (first.symm.insertAll rest)

end Orders

/-! ## Repeated insertions -/

/-- Rows with the same key are the same. -/
def Faithful (key : ρ → Option κ) : Prop :=
  ∀ left right value, key left = some value → key right = some value →
    left = right

theorem not_conflicts_of_keyless (table : Table key) {row : ρ}
    (keyless : key row = none) : ¬ table.Conflicts row := by
  rintro ⟨value, rowKey, _⟩
  cases keyless.symm.trans rowKey

theorem conflicts_of_mem {table : Table key} {row : ρ} (present : row ∈ table)
    (keyed : key row ≠ none) : table.Conflicts row := by
  rcases Option.ne_none_iff_exists'.mp keyed with ⟨value, rowKey⟩
  exact conflicts_iff.mpr ⟨row, present, value, rowKey, rowKey⟩

/-- Where the key is all of a row, a conflict is with the row itself. -/
theorem mem_of_conflicts (faithful : Faithful key) {table : Table key}
    {row : ρ} (conflict : table.Conflicts row) : row ∈ table := by
  rcases conflicts_iff.mp conflict with
    ⟨stored, present, value, storedKey, rowKey⟩
  rwa [faithful row stored value rowKey storedKey]

section Repeats

variable [DecidableEq κ]

theorem mem_insertAll (faithful : Faithful key) {table : Table key}
    {rows : List ρ} {stored : ρ} :
    stored ∈ table.insertAll rows ↔ stored ∈ table ∨ stored ∈ rows := by
  induction rows generalizing table with
  | nil => simp [insertAll_nil]
  | cons row rest ih =>
      rw [insertAll_cons, ih, mem_tryInsert, List.mem_cons, or_assoc]
      constructor
      · rintro (old | ⟨_, rfl⟩ | later)
        · exact .inl old
        · exact .inr (.inl rfl)
        · exact .inr (.inr later)
      · rintro (old | rfl | later)
        · exact .inl old
        · by_cases conflict : table.Conflicts stored
          · exact .inl (mem_of_conflicts faithful conflict)
          · exact .inr (.inl ⟨conflict, rfl⟩)
        · exact .inr (.inr later)

/-- Rows that are stored with a key are not stored again. -/
theorem insertAll_of_mem {table : Table key} {rows : List ρ}
    (present : ∀ row ∈ rows, row ∈ table)
    (keyed : ∀ row ∈ rows, key row ≠ none) : table.insertAll rows = table := by
  induction rows with
  | nil => rfl
  | cons row rest ih =>
      rcases List.forall_mem_cons.mp present with ⟨rowPresent, restPresent⟩
      rcases List.forall_mem_cons.mp keyed with ⟨rowKeyed, restKeyed⟩
      have conflict := conflicts_of_mem rowPresent rowKeyed
      have same : table.tryInsert row = table := by
        rw [tryInsert, insert_eq_none.mpr conflict, Option.getD_none]
      rw [insertAll_cons, same, ih restPresent restKeyed]

theorem find_tryInsert (table : Table key) (row : ρ) (value : κ) :
    (table.tryInsert row).find value =
      (table.find value).or (if key row = some value then some row else none) := by
  ext found
  rw [find_eq_some, mem_tryInsert, Option.or_eq_some_iff, find_eq_some,
    find_eq_none]
  constructor
  · rintro ⟨present | ⟨free, rfl⟩, foundKey⟩
    · exact .inl ⟨present, foundKey⟩
    · refine .inr ⟨?_, if_pos foundKey⟩
      intro stored storedPresent storedKey
      exact free
        (conflicts_iff.mpr ⟨stored, storedPresent, value, storedKey, foundKey⟩)
  · rintro (⟨present, foundKey⟩ | ⟨absent, inserted⟩)
    · exact ⟨.inl present, foundKey⟩
    · by_cases rowKey : key row = some value
      · rw [if_pos rowKey] at inserted
        cases inserted
        refine ⟨.inr ⟨?_, rfl⟩, rowKey⟩
        intro conflict
        rcases conflicts_iff.mp conflict with
          ⟨stored, present, other, storedKey, otherKey⟩
        cases otherKey.symm.trans rowKey
        exact absent stored present storedKey
      · rw [if_neg rowKey] at inserted
        cases inserted

/-- The first row with a key stays. -/
theorem find_insertAll (table : Table key) (rows : List ρ) (value : κ) :
    (table.insertAll rows).find value =
      (table.find value).or (rows.find? fun row => key row = some value) := by
  induction rows generalizing table with
  | nil => rw [insertAll_nil, List.find?_nil, Option.or_none]
  | cons row rest ih =>
      rw [insertAll_cons, ih, find_tryInsert, Option.or_assoc,
        List.find?_cons]
      by_cases rowKey : key row = some value
      · simp [rowKey]
      · simp [rowKey]

variable [DecidableEq ρ]

/-- A row without a key is stored once for each time that it is inserted. -/
theorem count_insertAll_of_keyless (table : Table key) (rows : List ρ)
    {row : ρ} (keyless : key row = none) :
    (table.insertAll rows).rows.count row =
      table.rows.count row + rows.count row := by
  induction rows generalizing table with
  | nil => rfl
  | cons other rest ih =>
      rw [insertAll_cons, ih, rows_tryInsert]
      by_cases same : other = row
      · subst same
        rw [if_neg (table.not_conflicts_of_keyless keyless),
          List.count_append, List.count_singleton_self, List.count_cons_self]
        omega
      · rw [List.count_cons_of_ne same]
        split
        · rfl
        · have absent : row ∉ [other] := by simpa using Ne.symm same
          rw [List.count_append, List.count_eq_zero_of_not_mem absent,
            Nat.add_zero]

/-- A row with a key is stored at most once. -/
theorem count_le_one (table : Table key) {row : ρ} (keyed : key row ≠ none) :
    table.rows.count row ≤ 1 := by
  rcases Option.ne_none_iff_exists'.mp keyed with ⟨value, rowKey⟩
  have once := List.nodup_iff_count_le_one.mp table.keyed value
  have keys : table.rows.count row ≤ (table.rows.filterMap key).count value := by
    generalize table.rows = rows
    induction rows with
    | nil => exact Nat.le_refl _
    | cons head rest ih =>
        by_cases same : head = row
        · subst same
          rw [List.filterMap_cons_some rowKey, List.count_cons_self,
            List.count_cons_self]
          exact Nat.succ_le_succ ih
        · rw [List.count_cons_of_ne same]
          exact Nat.le_trans ih
            (((List.sublist_cons_self head rest).filterMap key).count_le value)
  exact Nat.le_trans keys once

/-- A row with a key is stored once or not at all. -/
theorem count_of_keyed (table : Table key) {row : ρ} (keyed : key row ≠ none) :
    table.rows.count row = if row ∈ table.rows then 1 else 0 := by
  have bound := count_le_one table keyed
  by_cases present : row ∈ table.rows
  · have positive := List.count_pos_iff.mpr present
    rw [if_pos present]
    omega
  · rw [if_neg present]
    exact List.count_eq_zero_of_not_mem present

/--
Behind some insertions, the rows that satisfy a condition are those that the
insertions alone would give, exactly if no others were there before.
-/
theorem filter_insertAll_perm_iff (faithful : Faithful key)
    {condition : ρ → Bool} {rows : List ρ}
    (own : ∀ row ∈ rows, condition row = true) (table : Table key) :
    ((table.insertAll rows).rows.filter condition).Perm
        ((empty : Table key).insertAll rows).rows ↔
      ∀ row ∈ table, condition row = true → key row ≠ none ∧ row ∈ rows := by
  have alone : ∀ row, condition row = false →
      ((empty : Table key).insertAll rows).rows.count row = 0 := by
    intro row foreign
    apply List.count_eq_zero_of_not_mem
    intro member
    rcases (mem_insertAll faithful).mp member with old | inserted
    · exact not_mem_empty row old
    · rw [own row inserted] at foreign
      cases foreign
  rw [List.perm_iff_count]
  constructor
  · intro counts row present holds
    have same := counts row
    rw [List.count_filter holds] at same
    have stored := List.count_pos_iff.mpr present
    by_cases keyless : key row = none
    · rw [count_insertAll_of_keyless _ _ keyless,
        count_insertAll_of_keyless _ _ keyless] at same
      have nothing : (empty : Table key).rows.count row = 0 := rfl
      omega
    · refine ⟨keyless, ?_⟩
      by_contra foreign
      have here : row ∈ (table.insertAll rows).rows :=
        (mem_insertAll faithful).mpr (.inl present)
      have absent : row ∉ ((empty : Table key).insertAll rows).rows := by
        intro member
        rcases (mem_insertAll faithful).mp member with old | inserted
        · exact not_mem_empty row old
        · exact foreign inserted
      rw [count_of_keyed _ keyless, if_pos here, count_of_keyed _ keyless,
        if_neg absent] at same
      cases same
  · intro nothingElse row
    by_cases holds : condition row = true
    · rw [List.count_filter holds]
      by_cases keyless : key row = none
      · have absent : row ∉ table.rows :=
          fun present => (nothingElse row present holds).1 keyless
        rw [count_insertAll_of_keyless _ _ keyless,
          count_insertAll_of_keyless _ _ keyless,
          List.count_eq_zero_of_not_mem absent]
        rfl
      · have same : row ∈ (table.insertAll rows).rows ↔
            row ∈ ((empty : Table key).insertAll rows).rows := by
          rw [mem_rows, mem_rows, mem_insertAll faithful,
            mem_insertAll faithful]
          constructor
          · rintro (present | inserted)
            · exact .inr (nothingElse row present holds).2
            · exact .inr inserted
          · rintro (nothing | inserted)
            · exact absurd nothing (not_mem_empty row)
            · exact .inr inserted
        rw [count_of_keyed _ keyless, count_of_keyed _ keyless]
        simp only [same]
    · have foreign : condition row = false := by simpa using holds
      rw [alone row foreign]
      apply List.count_eq_zero_of_not_mem
      intro member
      exact holds (List.mem_filter.mp member).2

end Repeats

end Table

end SmartFridge.Library
