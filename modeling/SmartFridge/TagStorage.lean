import SmartFridge.Commutation

/-!
# The stored tags

What `insert_tags` leaves in a tag table: a row for each tag up to the first
call that fails.  A row can be read back as the tag it came from.  The primary
key keeps a tag from being stored twice only if the tag has a language.
-/

namespace SmartFridge.TagStorage

open SmartFridge.Library
open SmartFridge.Schema
open SmartFridge.Daemon
open SmartFridge.Atomicity
open SmartFridge.Commutation

/-! ## Tags and their rows -/

/-- The row of a tag. -/
def tagRow (code tag : CString) : TagRow :=
  { code, name := (splitTag tag).1, language := (splitTag tag).2 }

/-- The tag that a row was made from. -/
def originalTag (row : TagRow) : CString :=
  row.language.elim row.name fun language => language ++ .lit ":" ++ row.name

/-- The tag has a language, which is what stands before its first colon. -/
def HasLanguage (tag : CString) : Prop :=
  Json.colon ∈ tag.bytes

instance (tag : CString) : Decidable (HasLanguage tag) :=
  inferInstanceAs (Decidable (Json.colon ∈ tag.bytes))

theorem splitTag_of_language {tag language name : CString}
    (bytes : tag.bytes = language.bytes ++ Json.colon :: name.bytes)
    (first : Json.colon ∉ language.bytes) :
    splitTag tag = (name, some language) := by
  rw [splitTag, CString.cut_of_append bytes first]

theorem splitTag_of_no_language {tag : CString} (plain : ¬ HasLanguage tag) :
    splitTag tag = (tag, none) := by
  rw [splitTag, CString.cut_of_not_mem plain]

theorem language_eq_none {code tag : CString} :
    (tagRow code tag).language = none ↔ ¬ HasLanguage tag := by
  by_cases has : HasLanguage tag
  · rcases CString.exists_cut has with ⟨language, name, bytes, first⟩
    rw [tagRow, splitTag_of_language bytes first]
    simp [has]
  · rw [tagRow, splitTag_of_no_language has]
    simp [has]

/-- Nothing of a tag is lost when it is split. -/
theorem originalTag_tagRow (code tag : CString) :
    originalTag (tagRow code tag) = tag := by
  by_cases has : HasLanguage tag
  · rcases CString.exists_cut has with ⟨language, name, bytes, first⟩
    rw [originalTag, tagRow, splitTag_of_language bytes first]
    apply CString.ext
    have colon : (CString.lit ":").bytes = [Json.colon] := by decide
    rw [Option.elim_some, CString.bytes_append, CString.bytes_append, colon,
      bytes, List.append_assoc, List.singleton_append]
  · rw [originalTag, tagRow, splitTag_of_no_language has]
    rfl

theorem tagRow_injective (code : CString) : (tagRow code).Injective := by
  intro left right same
  have tags := congrArg originalTag same
  rwa [originalTag_tagRow, originalTag_tagRow] at tags

theorem key_tagRow_eq_none {code tag : CString} :
    (tagRow code tag).key = none ↔ ¬ HasLanguage tag := by
  rw [TagRow.key, Option.map_eq_none_iff, language_eq_none]

/-- The key of a tag row is all of it. -/
theorem faithful_key : Table.Faithful TagRow.key := by
  rintro ⟨code, name, language⟩ ⟨otherCode, otherName, otherLanguage⟩ value
    leftKey rightKey
  rcases Option.map_eq_some_iff.mp leftKey with ⟨first, rfl, rfl⟩
  rcases Option.map_eq_some_iff.mp rightKey with ⟨second, rfl, same⟩
  cases same
  rfl

theorem tagRows_eq (tags : List CString) (code : CString) :
    tagRows (some tags) (some code) = tags.map (tagRow code) := by
  unfold tagRows
  rw [Option.getD_some, List.map_eq_flatMap]
  rfl

/-! ## The loop of `insert_tags` -/

/-- The tags whose calls, and those before, do not fail. -/
def executedTags : List Bool → List CString → List CString
  | _, [] => []
  | script, tag :: rest =>
      if true ∈ script.take 2 then
        []
      else
        tag :: executedTags (script.drop 2) rest

theorem executedTags_begins (script : List Bool) (tags : List CString) :
    executedTags script tags <+: tags := by
  induction tags generalizing script with
  | nil => exact List.prefix_refl _
  | cons tag rest ih =>
      rw [executedTags]
      split
      · exact List.nil_prefix
      · exact List.cons_prefix_cons.mpr ⟨rfl, ih _⟩

/-- A frame after some calls that did not fail. -/
structure Follows (frame next : Frame) (calls : Nat) (tables : Tables) :
    Prop where
  db : next.db = true
  script : next.state.script = frame.state.script.drop calls
  tables : next.state.tables = tables

/-- The preparation of a query. -/
theorem prepareV2_cases {frame : Frame} (opened : frame.db = true)
    (statement : Statement) :
    (frame.state.fails = true ∧
        ∃ stopped, frame.prepareV2 statement = .error stopped ∧
          stopped.state.tables = frame.state.tables) ∨
      (frame.state.fails = false ∧
        ∃ next, frame.prepareV2 statement = .ok next ∧
          next.stmt.map Handle.statement = some statement ∧
          Follows frame next 1 frame.state.tables) := by
  unfold Frame.prepareV2
  rw [if_neg (by simp [opened])]
  cases fails : frame.state.fails with
  | true =>
      rw [if_pos rfl]
      exact .inl ⟨rfl, _, rfl, rfl⟩
  | false =>
      rw [if_neg Bool.false_ne_true]
      exact .inr ⟨rfl, _, rfl, rfl, opened, List.drop_one.symm, rfl⟩

/-- The step of a query that may violate a constraint. -/
theorem stepTolerant_cases {frame : Frame} (opened : frame.db = true)
    {change : Change}
    (prepared : frame.stmt.map Handle.statement = some (.change change)) :
    (frame.state.fails = true ∧
        ∃ stopped, frame.stepTolerant = .error stopped ∧
          stopped.state.tables = frame.state.tables) ∨
      (frame.state.fails = false ∧
        ∃ next, frame.stepTolerant = .ok next ∧
          Follows frame next 1 (change.attempt frame.state.tables)) := by
  rcases Option.map_eq_some_iff.mp prepared with ⟨handle, held, same⟩
  unfold Frame.stepTolerant Frame.step
  rw [held]
  cases fails : frame.state.fails with
  | true => exact .inl ⟨rfl, _, rfl, rfl⟩
  | false =>
      refine .inr ⟨rfl, ?_⟩
      have proceeded : frame.state.proceed.tables = frame.state.tables := rfl
      simp only [same, State.execute, proceeded, Bool.false_eq_true, if_false]
      cases executed : change.exec frame.state.tables with
      | none =>
          refine ⟨_, rfl, opened, List.drop_one.symm, ?_⟩
          rw [Change.attempt, executed]
          rfl
      | some changed =>
          refine ⟨_, rfl, opened, List.drop_one.symm, ?_⟩
          rw [Change.attempt, executed]
          rfl

theorem tables_finalize (frame : Frame) :
    frame.finalize.state.tables = frame.state.tables := by
  unfold Frame.finalize
  cases frame.stmt with
  | none => rfl
  | some handle => rfl

theorem finalizeClear_follows {frame next : Frame} {calls : Nat}
    {tables : Tables} (follows : Follows frame next calls tables) :
    Follows frame next.finalize.clear calls tables := by
  unfold Frame.finalize
  cases next.stmt with
  | none => exact ⟨follows.db, follows.script, follows.tables⟩
  | some handle => exact ⟨follows.db, follows.script, follows.tables⟩

theorem mem_take_two {script : List Bool} :
    true ∈ script.take 2 ↔
      script.headD false = true ∨ (script.drop 1).headD false = true := by
  rcases script with _ | ⟨first, _ | ⟨second, rest⟩⟩
  · simp
  · simp [eq_comm]
  · simp [eq_comm]

/-- One tag is stored, or one of its two calls fails. -/
theorem insertTag_cases (kind : TagTable) (productCode : Option CString)
    {frame : Frame} (opened : frame.db = true) (tag : CString) :
    (true ∈ frame.state.script.take 2 ∧
        ∃ stopped, insertTag kind productCode frame tag = .error stopped ∧
          stopped.state.tables = frame.state.tables) ∨
      (true ∉ frame.state.script.take 2 ∧
        ∃ next, insertTag kind productCode frame tag = .ok next ∧
          Follows frame next 2
            ((insertTagChange kind productCode tag).attempt
              frame.state.tables)) := by
  unfold insertTag
  rw [mem_take_two]
  rcases prepareV2_cases opened
      (.change (insertTagChange kind productCode tag)) with
    ⟨fails, stopped, ran, tables⟩ | ⟨goes, prepared, ran, holds, behind⟩
  · rw [ran]
    exact .inl ⟨.inl fails, stopped, rfl, tables⟩
  · have notFirst : ¬ frame.state.script.headD false = true := by
      simpa [State.fails] using goes
    have fate : prepared.state.fails =
        (frame.state.script.drop 1).headD false := by
      rw [State.fails, behind.script]
    rw [ran, or_iff_right notFirst, ← fate]
    rcases stepTolerant_cases behind.db holds with
      ⟨fails, stopped, stepped, tables⟩ | ⟨goes, next, stepped, later⟩
    · rw [behind.tables] at tables
      refine .inl ⟨fails, stopped, ?_, tables⟩
      change (prepared.stepTolerant >>= fun frame => _) = _
      rw [stepped]
      rfl
    · refine .inr ⟨by simp [goes], next.finalize.clear, ?_, ?_⟩
      · change (prepared.stepTolerant >>= fun frame => _) = _
        rw [stepped]
        rfl
      · apply finalizeClear_follows
        refine ⟨later.db, ?_, ?_⟩
        · rw [later.script, behind.script, List.drop_drop]
        · rw [later.tables, behind.tables]

/-- The tags are stored in turn, by induction on them. -/
theorem insertTags_loop_cases (kind : TagTable) (productCode : Option CString)
    (tags : List CString) {frame : Frame} (opened : frame.db = true) :
    ∃ last,
      tags.foldlM (insertTag kind productCode) frame =
          (if executedTags frame.state.script tags = tags then
            .ok last
          else
            .error last) ∧
        last.state.tables =
          storeTags kind (some (executedTags frame.state.script tags))
            productCode frame.state.tables := by
  induction tags generalizing frame with
  | nil => exact ⟨frame, rfl, rfl⟩
  | cons tag rest ih =>
      rw [List.foldlM_cons, executedTags]
      rcases insertTag_cases kind productCode opened tag with
        ⟨fails, stopped, ran, tables⟩ | ⟨goes, next, ran, behind⟩
      · have unfinished : [] ≠ tag :: rest := (List.cons_ne_nil _ _).symm
        rw [ran, if_pos fails]
        refine ⟨stopped, ?_, tables⟩
        rw [if_neg unfinished]
        rfl
      · rcases ih behind.db with ⟨last, later, tables⟩
        rw [behind.script] at later tables
        rw [behind.tables] at tables
        refine ⟨last, ?_, ?_⟩
        · rw [ran, if_neg goes]
          simp only [List.cons.injEq, true_and]
          exact later
        · rw [if_neg goes]
          exact tables

/-- What `insert_tags` returns, and the tables it leaves. -/
theorem insertTags_result (kind : TagTable) (array : Option (List CString))
    (productCode : Option CString) (state : State) :
    (insertTags kind array productCode true state).1 =
        (if executedTags state.script (array.getD []) = array.getD [] then 0
          else 1) ∧
      (insertTags kind array productCode true state).2.tables =
        storeTags kind (some (executedTags state.script (array.getD [])))
          productCode state.tables := by
  unfold insertTags
  have opened : (⟨state, true, none⟩ : Frame).db = true := rfl
  rcases insertTags_loop_cases kind productCode (array.getD []) opened with
    ⟨last, ran, tables⟩
  rw [ran]
  split
  · exact ⟨rfl, (tables_finalize last).trans tables⟩
  · exact ⟨rfl, (tables_finalize last).trans tables⟩

/-- If not all tags are executed, a call of the first other one fails. -/
theorem executedTags_of_stopped {script : List Bool} {tags : List CString}
    (stopped : executedTags script tags ≠ tags) :
    ∃ call later, script = List.replicate call false ++ true :: later ∧
      call / 2 < tags.length ∧
        executedTags script tags = tags.take (call / 2) := by
  induction tags generalizing script with
  | nil => exact absurd rfl stopped
  | cons tag rest ih =>
      rw [executedTags] at stopped
      by_cases fails : true ∈ script.take 2
      · rw [executedTags, if_pos fails]
        rcases script with _ | ⟨_ | _, _ | ⟨_ | _, later⟩⟩
        · simp at fails
        · simp at fails
        · simp at fails
        · exact ⟨1, later, rfl, Nat.succ_pos _, rfl⟩
        · exact ⟨0, [], rfl, Nat.succ_pos _, rfl⟩
        · exact ⟨0, _, rfl, Nat.succ_pos _, rfl⟩
        · exact ⟨0, _, rfl, Nat.succ_pos _, rfl⟩
      · rw [if_neg fails] at stopped
        have rest_stopped : executedTags (script.drop 2) rest ≠ rest :=
          fun all => stopped (congrArg (tag :: ·) all)
        rcases ih rest_stopped with ⟨call, later, fates, within, executed⟩
        have half : (call + 2) / 2 = call / 2 + 1 := by omega
        refine ⟨call + 2, later, ?_, ?_, ?_⟩
        · rcases script with _ | ⟨_ | _, _ | ⟨_ | _, others⟩⟩
          · simp at fates
          · simp at fates
          · have same : others = List.replicate call false ++ true :: later :=
              fates
            rw [same, List.replicate_succ, List.replicate_succ]
            rfl
          · simp at fails
          · simp at fails
          · simp at fails
          · simp at fails
        · rw [half, List.length_cons]
          exact Nat.succ_lt_succ within
        · rw [executedTags, if_neg fails, half, List.take_succ_cons, executed]

/-! ## What is stored -/

section Stored

variable (kind : TagTable) (array : Option (List CString)) (code : CString)
  (state : State)

theorem tags_after :
    (insertTags kind array (some code) true state).2.tables.tags kind =
      (state.tables.tags kind).insertAll
        ((executedTags state.script (array.getD [])).map (tagRow code)) := by
  rw [(insertTags_result kind array (some code) state).2, storeTags_self,
    tagRows_eq]

theorem executed_of_returned
    (returned : (insertTags kind array (some code) true state).1 = 0) :
    executedTags state.script (array.getD []) = array.getD [] := by
  rw [(insertTags_result kind array (some code) state).1] at returned
  by_contra stopped
  rw [if_neg stopped] at returned
  cases returned

end Stored

/-- As sets, the later rows are the earlier ones and those of some tags. -/
def Adds (code : CString) (tags : List CString)
    (before after : Table TagRow.key) : Prop :=
  ∀ row, row ∈ after ↔ row ∈ before ∨ ∃ tag ∈ tags, row = tagRow code tag

/-- The rows of all codes but one are the same. -/
def KeepsOthers (code : CString) (before after : Table TagRow.key) : Prop :=
  after.rows.filter (fun row => row.code ≠ code) =
    before.rows.filter fun row => row.code ≠ code

theorem adds_insertAll (code : CString) (tags : List CString)
    (table : Table TagRow.key) :
    Adds code tags table (table.insertAll (tags.map (tagRow code))) := by
  intro row
  rw [Table.mem_insertAll faithful_key, List.mem_map]
  simp only [eq_comm]

theorem keepsOthers_insertAll (code : CString) (tags : List CString)
    (table : Table TagRow.key) :
    KeepsOthers code table (table.insertAll (tags.map (tagRow code))) := by
  induction tags generalizing table with
  | nil => rfl
  | cons tag rest ih =>
      refine (ih (table.tryInsert (tagRow code tag))).trans ?_
      rw [Table.rows_tryInsert]
      split
      · rfl
      · simp [tagRow]

/-- What a call of `insert_tags` on some tags does to their table. -/
structure StoresTags (code : CString) (tags : List CString) (script : List Bool)
    (before : Table TagRow.key) (returned : Int) (after : Table TagRow.key) :
    Prop where
  complete : returned = 0 → Adds code tags before after
  /-- The first call that fails is the preparation or the step of the tag. -/
  stopped : returned ≠ 0 → returned = 1 ∧
    ∃ call later, script = List.replicate call false ++ true :: later ∧
      call / 2 < tags.length ∧ Adds code (tags.take (call / 2)) before after
  others : KeepsOthers code before after

/-- The tags are stored up to the call that fails, and can be read back. -/
theorem tags_stored_exactly (kind : TagTable)
    (array : Option (List CString)) (code : CString) (state : State) :
    StoresTags code (array.getD []) state.script (state.tables.tags kind)
        (insertTags kind array (some code) true state).1
        ((insertTags kind array (some code) true state).2.tables.tags kind) ∧
      (∀ tag, originalTag (tagRow code tag) = tag) ∧
        (tagRow code).Injective := by
  refine ⟨?_, originalTag_tagRow code, tagRow_injective code⟩
  rw [tags_after]
  refine ⟨?_, ?_, keepsOthers_insertAll code _ _⟩
  · intro returned
    rw [executed_of_returned kind array code state returned]
    exact adds_insertAll code _ _
  · intro failed
    rw [(insertTags_result kind array (some code) state).1] at failed ⊢
    by_cases all : executedTags state.script (array.getD []) = array.getD []
    · exact absurd (if_pos all) failed
    · rcases executedTags_of_stopped all with
        ⟨call, later, fates, within, executed⟩
      rw [if_neg all, executed]
      exact ⟨rfl, call, later, fates, within, adds_insertAll code _ _⟩

/-! ## The same tags again -/

/-- Each tag is stored at most once more than it was. -/
def StoresOnce (code : CString) (before after : Table TagRow.key) : Prop :=
  ∀ tag, after.rows.count (tagRow code tag) ≤
    before.rows.count (tagRow code tag) + 1

theorem count_insertAll_plain {tag : CString} (plain : ¬ HasLanguage tag)
    (code : CString) (tags : List CString) (table : Table TagRow.key) :
    (table.insertAll (tags.map (tagRow code))).rows.count (tagRow code tag) =
      table.rows.count (tagRow code tag) + tags.count tag := by
  rw [table.count_insertAll_of_keyless _ (key_tagRow_eq_none.mpr plain),
    List.count_map_of_injective _ _ (tagRow_injective code)]

theorem storesOnce_iff (code : CString) (tags : List CString)
    (table : Table TagRow.key) :
    StoresOnce code table (table.insertAll (tags.map (tagRow code))) ↔
      (tags.filter (¬ HasLanguage ·)).Nodup := by
  rw [List.nodup_iff_count_le_one]
  constructor
  · intro once tag
    by_cases has : HasLanguage tag
    · rw [List.count_eq_zero_of_not_mem (by simp [has])]
      exact Nat.zero_le 1
    · have bound := once tag
      rw [count_insertAll_plain has] at bound
      rw [List.count_filter (by simpa using has)]
      exact Nat.add_le_add_iff_left.mp bound
  · intro distinct tag
    by_cases has : HasLanguage tag
    · have keyed : (tagRow code tag).key ≠ none :=
        fun keyless => key_tagRow_eq_none.mp keyless has
      exact (Table.count_le_one _ keyed).trans (Nat.le_add_left _ _)
    · have single := distinct tag
      rw [List.count_filter (by simpa using has)] at single
      rw [count_insertAll_plain has]
      exact Nat.add_le_add_left single _

theorem again_similar_iff (code : CString) {tags repeated : List CString}
    (within : repeated ⊆ tags) {before table : Table TagRow.key}
    (stored : table = before.insertAll (tags.map (tagRow code))) :
    (table.insertAll (repeated.map (tagRow code))).Similar table ↔
      ∀ tag ∈ repeated, HasLanguage tag := by
  constructor
  · intro similar tag member
    by_contra plain
    have same := similar.count_eq (tagRow code tag)
    rw [count_insertAll_plain plain] at same
    have more := List.count_pos_iff.mpr member
    omega
  · intro languages
    have unchanged : table.insertAll (repeated.map (tagRow code)) = table := by
      apply Table.insertAll_of_mem
      · intro row member
        rcases List.mem_map.mp member with ⟨tag, present, rfl⟩
        rw [stored, Table.mem_insertAll faithful_key]
        exact .inr (List.mem_map_of_mem (within present))
      · intro row member keyless
        rcases List.mem_map.mp member with ⟨tag, present, rfl⟩
        exact key_tagRow_eq_none.mp keyless (languages tag present)
    rw [unchanged]
    exact Table.Similar.refl table

/--
The tags can be stored again without a change, and none twice at first, exactly
if the second run executes only tags with a language and no tag without one
occurs twice.
-/
theorem insertTags_again_iff {kind : TagTable} {array : Option (List CString)}
    {code : CString} {state again : State}
    (returned : (insertTags kind array (some code) true state).1 = 0)
    (same : again.tables =
      (insertTags kind array (some code) true state).2.tables) :
    StoresOnce code (state.tables.tags kind) (again.tables.tags kind) ∧
        ((insertTags kind array (some code) true again).2.tables.tags
          kind).Similar (again.tables.tags kind) ↔
      ((array.getD []).filter (¬ HasLanguage ·)).Nodup ∧
        ∀ tag ∈ executedTags again.script (array.getD []), HasLanguage tag := by
  have first : again.tables.tags kind =
      (state.tables.tags kind).insertAll
        ((array.getD []).map (tagRow code)) := by
    rw [same, tags_after, executed_of_returned kind array code state returned]
  rw [tags_after kind array code again,
    again_similar_iff code (executedTags_begins _ _).subset first, first,
    storesOnce_iff]

/-- Whole milk and sugar. -/
def wholeMilk : List CString :=
  [.lit "en:whole-milk", .lit "en:sugar"]

theorem wholeMilk_returned :
    (insertTags .ingredients (some wholeMilk) (some (.lit "8480017439482")) true
      .start).1 = 0 := by
  rw [(insertTags_result _ _ _ _).1]
  rfl

theorem insertTags_again_iff_wholeMilk :
    StoresOnce (.lit "8480017439482") (State.start.tables.tags .ingredients)
          ((insertTags .ingredients (some wholeMilk)
            (some (.lit "8480017439482")) true .start).2.tables.tags
              .ingredients) ∧
        ((insertTags .ingredients (some wholeMilk)
            (some (.lit "8480017439482")) true
            (insertTags .ingredients (some wholeMilk)
              (some (.lit "8480017439482")) true .start).2).2.tables.tags
                .ingredients).Similar
          ((insertTags .ingredients (some wholeMilk)
            (some (.lit "8480017439482")) true .start).2.tables.tags
              .ingredients) ↔
      (wholeMilk.filter (¬ HasLanguage ·)).Nodup ∧
        ∀ tag ∈ executedTags
            (insertTags .ingredients (some wholeMilk)
              (some (.lit "8480017439482")) true .start).2.script wholeMilk,
          HasLanguage tag :=
  insertTags_again_iff wholeMilk_returned rfl

/-- A tag without a language is stored a second time. -/
theorem plain_tag_repeated :
    ¬ ∀ (kind : TagTable) (array : Option (List CString)) (code : CString)
        (state : State),
        (insertTags kind array (some code) true state).1 = 0 →
          StoresOnce code (state.tables.tags kind)
              ((insertTags kind array (some code) true state).2.tables.tags
                kind) ∧
            ((insertTags kind array (some code) true
                (insertTags kind array (some code) true state).2).2.tables.tags
                  kind).Similar
              ((insertTags kind array (some code) true state).2.tables.tags
                kind) := by
  intro always
  let code : CString := .lit "8480017439482"
  let milk : CString := .lit "milk"
  have plain : ¬ HasLanguage milk := by decide
  let first := insertTags .ingredients (some [milk]) (some code) true .start
  have returned : first.1 = 0 := by
    rw [(insertTags_result _ _ _ _).1]
    rfl
  have similar := (always .ingredients (some [milk]) code .start returned).2
  rw [tags_after .ingredients (some [milk]) code first.2] at similar
  have executed : executedTags first.2.script [milk] = [milk] := rfl
  have languages := (again_similar_iff code (List.Subset.refl [milk])
    (tags_after .ingredients (some [milk]) code .start)).mp
  rw [Option.getD_some, executed] at similar
  exact plain (languages similar milk (List.mem_singleton_self milk))

end SmartFridge.TagStorage
