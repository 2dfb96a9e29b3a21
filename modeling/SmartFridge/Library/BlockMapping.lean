import SmartFridge.Library.Numeral
import Mathlib.Logic.Function.Basic

/-!
# Block mappings as token streams

The token stream that a YAML scanner delivers for nested block mappings, loops
over such a stream, and files that set some fields of a record: each field
belongs to a section of a block and has a key there.
-/

namespace SmartFridge.Library.BlockMapping

/-- The tokens of a scanner; those that no loop looks at are `other`. -/
inductive Token where
  | streamStart
  | streamEnd
  | blockMappingStart
  | blockEnd
  | key
  | value
  | scalar (text : CString)
  | other

/-! ## Loops over tokens -/

/-- Where a token takes a loop: on, to its end, or to its error exit. -/
inductive Progress (σ : Type*) where
  | continues (state : σ)
  | finishes (state : σ)
  | fails (state : σ)

section Loops

variable {σ : Type*} (step : Token → σ → Option (Progress σ))

/--
`while (!out && yaml_parser_scan(parser, &token))` with 1 as the result of its
error exit and 0 as the result of its end.  The scan fails behind the given
tokens; nothing is the result where a step has none.
-/
def scanLoop : List Token → σ → Option (Int × σ)
  | [], state => some (0, state)
  | token :: rest, state =>
      match step token state with
      | none => none
      | some (.continues next) => scanLoop rest next
      | some (.finishes next) => some (0, next)
      | some (.fails next) => some (1, next)

/-- The state behind some tokens none of which ends the loop. -/
def advance : List Token → σ → Option σ
  | [], state => some state
  | token :: rest, state =>
      match step token state with
      | some (.continues next) => advance rest next
      | _ => none

variable {step}

theorem advance_cons {token : Token} {state next : σ}
    (continues : step token state = some (.continues next))
    (rest : List Token) :
    advance step (token :: rest) state = advance step rest next := by
  rw [advance, continues]

theorem advance_append (first second : List Token) (state : σ) :
    advance step (first ++ second) state =
      (advance step first state).bind (advance step second) := by
  induction first generalizing state with
  | nil => rfl
  | cons token rest ih =>
      rw [List.cons_append, advance, advance]
      cases step token state with
      | none => rfl
      | some progress =>
          cases progress with
          | continues next => exact ih next
          | finishes next => rfl
          | fails next => rfl

theorem scanLoop_append {first : List Token} {state next : σ}
    (advances : advance step first state = some next) (second : List Token) :
    scanLoop step (first ++ second) state = scanLoop step second next := by
  induction first generalizing state with
  | nil =>
      cases advances
      rfl
  | cons token rest ih =>
      rw [advance] at advances
      rw [List.cons_append, scanLoop]
      cases stepped : step token state with
      | none =>
          rw [stepped] at advances
          cases advances
      | some progress =>
          rw [stepped] at advances
          cases progress with
          | continues later => exact ih advances
          | finishes later => cases advances
          | fails later => cases advances

theorem scanLoop_finishes {token : Token} {state next : σ}
    (finishes : step token state = some (.finishes next)) (rest : List Token) :
    scanLoop step (token :: rest) state = some (0, next) := by
  rw [scanLoop, finishes]

/-- Items whose tokens change a content one by one change it as a fold does. -/
theorem advance_items {ι γ : Type*} {tokens : ι → List Token}
    {holds : σ → γ → Prop} {change : γ → ι → γ} {items : List ι}
    (each : ∀ item ∈ items, ∀ state content, holds state content →
      ∃ next, advance step (tokens item) state = some next ∧
        holds next (change content item))
    {state : σ} {content : γ} (start : holds state content) :
    ∃ next, advance step (items.map tokens).flatten state = some next ∧
      holds next (items.foldl change content) := by
  induction items generalizing state content with
  | nil => exact ⟨state, rfl, start⟩
  | cons item rest ih =>
      rcases each item List.mem_cons_self state content start with
        ⟨middle, first, held⟩
      rcases ih (fun later member => each later (List.mem_cons_of_mem _ member))
          held with ⟨next, behind, heldToo⟩
      refine ⟨next, ?_, heldToo⟩
      rw [List.map_cons, List.flatten_cons, advance_append, first,
        Option.bind_some, behind]

end Loops

/-! ## The tokens of a mapping -/

/-- A pair of a key and what it is mapped to. -/
def pairTokens (key : CString) (content : List Token) : List Token :=
  .key :: .scalar key :: .value :: content

/-- A block mapping of some pairs. -/
def mappingTokens (pairs : List (List Token)) : List Token :=
  .blockMappingStart :: (pairs.flatten ++ [.blockEnd])

/-! ## Settings of fields -/

/-- A field of a record: a number, or a text that may be NULL. -/
inductive Setting where
  | number (value : Int)
  | text (value : Option CString)

/-- A scalar that a file gives to a field. -/
inductive Value where
  | number (numeral : Numeral)
  | text (text : CString)

/-- The text of a value. -/
def Value.scalar : Value → CString
  | .number numeral => numeral.text
  | .text content => content

/-- What a value means. -/
def Value.setting : Value → Setting
  | .number numeral => .number numeral.value
  | .text content => .text (some content)

/-- Which sections a block has, which keys these have, and with what values. -/
structure Grammar where
  Sect : Type
  Field : Type
  sectName : Sect → CString
  sect : Field → Sect
  key : Field → CString
  Valid : Field → Value → Prop

/-- A field and its value. -/
structure Entry (grammar : Grammar) where
  field : grammar.Field
  value : Value
  valid : grammar.Valid field value

/-- A section with some of its keys, each of them once. -/
structure Section (grammar : Grammar) where
  sect : grammar.Sect
  entries : List (Entry grammar)
  nonempty : entries ≠ []
  own : ∀ entry ∈ entries, grammar.sect entry.field = sect
  distinct : (entries.map Entry.field).Nodup

/-- A block with some of its sections, each of them once. -/
structure Block (grammar : Grammar) where
  sections : List (Section grammar)
  nonempty : sections ≠ []
  distinct : (sections.map Section.sect).Nodup

section Files

variable {grammar : Grammar}

/-- The tokens of an entry. -/
def Entry.tokens (entry : Entry grammar) : List Token :=
  pairTokens (grammar.key entry.field) [.scalar entry.value.scalar]

/-- The tokens of a section. -/
def Section.tokens (section_ : Section grammar) : List Token :=
  pairTokens (grammar.sectName section_.sect)
    (mappingTokens (section_.entries.map Entry.tokens))

/-- The tokens of a block, without its name. -/
def Block.tokens (block : Block grammar) : List Token :=
  mappingTokens (block.sections.map Section.tokens)

/-- All the entries of a block. -/
def Block.entries (block : Block grammar) : List (Entry grammar) :=
  block.sections.flatMap Section.entries

theorem Block.entries_distinct (block : Block grammar) :
    (block.entries.map Entry.field).Nodup := by
  have apart := block.distinct
  unfold Block.entries
  generalize block.sections = sections at apart
  induction sections with
  | nil => exact List.nodup_nil
  | cons first rest ih =>
      rw [List.map_cons, List.nodup_cons] at apart
      rw [List.flatMap_cons, List.map_append, List.nodup_append]
      refine ⟨first.distinct, ih apart.2, ?_⟩
      rintro field inFirst other inRest rfl
      rcases List.mem_map.mp inFirst with ⟨entry, member, rfl⟩
      rcases List.mem_map.mp inRest with ⟨later, laterMember, same⟩
      rcases List.mem_flatMap.mp laterMember with
        ⟨section_, sectionMember, laterOwn⟩
      refine apart.1 (List.mem_map.mpr ⟨section_, sectionMember, ?_⟩)
      rw [← section_.own later laterOwn, same, first.own entry member]

variable [DecidableEq grammar.Field]

/-- The value that some entries give to a field. -/
def valueIn (entries : List (Entry grammar)) (field : grammar.Field) :
    Option Value :=
  (entries.find? fun entry => entry.field = field).map Entry.value

/-- The value that a block gives to a field. -/
def Block.value (block : Block grammar) (field : grammar.Field) :
    Option Value :=
  valueIn block.entries field

/-- A value that a block gives to a field is valid for it. -/
theorem Block.valid_of_value (block : Block grammar) {field : grammar.Field}
    {value : Value} (given : block.value field = some value) :
    grammar.Valid field value := by
  rcases Option.map_eq_some_iff.mp given with ⟨entry, found, rfl⟩
  have isField : entry.field = field := by
    simpa using List.find?_some found
  exact isField ▸ entry.valid

/-- Settings with one of them replaced. -/
def assign (settings : grammar.Field → Setting) (entry : Entry grammar) :
    grammar.Field → Setting :=
  Function.update settings entry.field entry.value.setting

/-- Entries for different fields set each field to its value. -/
theorem foldl_assign {entries : List (Entry grammar)}
    (distinct : (entries.map Entry.field).Nodup)
    (settings : grammar.Field → Setting) (field : grammar.Field) :
    entries.foldl assign settings field =
      (valueIn entries field).elim (settings field) Value.setting := by
  induction entries generalizing settings with
  | nil => rfl
  | cons entry rest ih =>
      rw [List.map_cons, List.nodup_cons] at distinct
      rw [List.foldl_cons, ih distinct.2, assign, valueIn, valueIn]
      by_cases same : entry.field = field
      · subst same
        have later : rest.find? (fun other => other.field = entry.field) =
            none := by
          rw [List.find?_eq_none]
          intro other member named
          exact distinct.1
            (List.mem_map.mpr ⟨other, member, of_decide_eq_true named⟩)
        simp [later]
      · rw [List.find?_cons_of_neg (by simpa using same),
          Function.update_of_ne (Ne.symm same)]

/--
A loop over a block whose sections set the settings of their entries leaves
each field with the value that the block gives to it.
-/
theorem scanLoop_block {σ : Type*}
    {step : Token → σ → Option (Progress σ)}
    {holds : σ → (grammar.Field → Setting) → Prop} {closed : σ → Prop}
    (sections : ∀ (section_ : Section grammar) state settings,
      holds state settings →
        ∃ next, advance step section_.tokens state = some next ∧
          holds next (section_.entries.foldl assign settings) ∧ closed next)
    (ends : ∀ state, closed state →
      step .blockEnd state = some (.finishes state))
    (block : Block grammar) {start opened : σ}
    {settings : grammar.Field → Setting}
    (opens : advance step [.value, .blockMappingStart] start = some opened)
    (held : holds opened settings) (rest : List Token) :
    ∃ next, scanLoop step (.value :: block.tokens ++ rest) start =
        some (0, next) ∧
      holds next fun field =>
        (block.value field).elim (settings field) Value.setting := by
  have behind :
      ∃ next, advance step (block.sections.map Section.tokens).flatten opened =
          some next ∧
        (holds next (block.entries.foldl assign settings) ∧ closed next) := by
    rw [Block.entries, List.foldl_flatMap]
    cases parts : block.sections with
    | nil => exact absurd parts block.nonempty
    | cons first others =>
        rcases sections first opened settings held with
          ⟨middle, firstRan, middleHolds⟩
        have each : ∀ section_ ∈ others, ∀ state content,
            holds state content ∧ closed state →
              ∃ next, advance step section_.tokens state = some next ∧
                (holds next (section_.entries.foldl assign content) ∧
                  closed next) :=
          fun section_ _ state content inside =>
            sections section_ state content inside.1
        rcases advance_items each middleHolds with ⟨next, ran, nextHolds⟩
        refine ⟨next, ?_, nextHolds⟩
        rw [List.map_cons, List.flatten_cons, advance_append, firstRan,
          Option.bind_some, ran]
  rcases behind with ⟨next, ran, nextHolds, nextClosed⟩
  refine ⟨next, ?_, ?_⟩
  · have tokens : .value :: block.tokens ++ rest =
        [.value, .blockMappingStart] ++
          ((block.sections.map Section.tokens).flatten ++
            .blockEnd :: rest) := by
      simp [Block.tokens, mappingTokens]
    rw [tokens, scanLoop_append opens, scanLoop_append ran,
      scanLoop_finishes (ends next nextClosed)]
  · have settled : block.entries.foldl assign settings = fun field =>
        (block.value field).elim (settings field) Value.setting :=
      funext fun field => foldl_assign block.entries_distinct settings field
    rwa [settled] at nextHolds

end Files

end SmartFridge.Library.BlockMapping
