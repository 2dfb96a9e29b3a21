import SmartFridge.Library.Runs
import SmartFridge.ReaderRequests

/-!
# Referential integrity

The schema declares that the codes of tags and images occur among the products.
SQLite does not enforce this, and the operations break it in two places: the
clean-up deletes a product and leaves its images, and an insertion that is
refused for a NULL column still stores tags and images.  Since every product
has a row of images, these are the only places, and each of them does break it.
-/

namespace SmartFridge.Integrity

open SmartFridge.Library
open SmartFridge.Library.Runs
open SmartFridge.ProductDecoder
open SmartFridge.Schema
open SmartFridge.Daemon
open SmartFridge.ReaderRequests

/-- The REFERENCES clauses: the codes of the side tables are product codes. -/
structure References (tables : Tables) : Prop where
  tags : ∀ kind, ∀ row ∈ tables.tags kind, tables.Stores row.code
  images : ∀ row ∈ tables.images, tables.Stores row.code

/--
The condition under which a request keeps them: an insertion without a code,
of a stored code or of a complete product, and a removal that leaves no number
at zero.
-/
def KeepsReferences (tables : Tables) : Request → Prop
  | .insert product =>
      ∀ code, product.code = some code →
        tables.Stores code ∨ Complete product
  | .remove code =>
      ∀ row ∈ tables.products,
        row.elements.value ≠ if code = some row.code then 1 else 0
  | .nothing => True

/-- Every product has a row of images. -/
def Pictured (tables : Tables) : Prop :=
  ∀ code, tables.Stores code → ∃ row ∈ tables.images, row.code = code

/-! ## Insertions -/

theorem pictured_store {tables : Tables} (pictured : Pictured tables)
    (product : Product) : Pictured (store product tables) := by
  intro code stored
  rcases stores_store.mp stored with old | ⟨_, coded⟩
  · rcases pictured code old with ⟨row, present, same⟩
    exact ⟨row, mem_store_images.mpr (.inl present), same⟩
  · exact store_hasImages coded tables

theorem references_store_iff {tables : Tables}
    (references : References tables) (product : Product) :
    References (store product tables) ↔
      KeepsReferences tables (.insert product) := by
  constructor
  · intro kept code coded
    rcases store_hasImages coded tables with ⟨row, present, rfl⟩
    rcases stores_store.mp (kept.images row present) with old | ⟨accepted, _⟩
    · exact .inl old
    · exact .inr accepted.1
  · intro keeps
    have codeStored :
        ∀ code, product.code = some code →
          (store product tables).Stores code := by
      intro code coded
      by_cases old : tables.Stores code
      · exact stores_store.mpr (.inl old)
      · have complete := (keeps code coded).resolve_left old
        refine stores_store.mpr (.inr ⟨⟨complete, ?_⟩, coded⟩)
        intro other same
        cases coded.symm.trans same
        exact old
    constructor
    · intro kind row present
      rcases mem_store_tags present with old | coded
      · exact stores_store.mpr (.inl (references.tags kind row old))
      · exact codeStored row.code coded
    · intro row present
      rcases mem_store_images.mp present with old | ⟨made, _⟩
      · exact stores_store.mpr (.inl (references.images row old))
      · exact codeStored row.code (ofImages_eq_some.mp made).1

/-! ## Removals -/

theorem pictured_discard {tables : Tables} (pictured : Pictured tables)
    (code : Option CString) : Pictured (discard code tables) := by
  rintro other ⟨row, present, rfl⟩
  rcases (mem_discard.mp present).1 with ⟨stored, old, rfl⟩
  rw [ProductRow.code_decrement]
  exact pictured stored.code ⟨stored, old, rfl⟩

theorem references_discard_iff {tables : Tables}
    (pictured : Pictured tables) (whole : WholeNumbers tables)
    (references : References tables) (code : Option CString) :
    References (discard code tables) ↔
      KeepsReferences tables (.remove code) := by
  constructor
  · intro kept row present zero
    rcases pictured row.code ⟨row, present, rfl⟩ with
      ⟨image, imagePresent, same⟩
    rcases kept.images image imagePresent with ⟨left, leftPresent, leftCode⟩
    rcases mem_discard.mp leftPresent with
      ⟨⟨stored, storedPresent, rfl⟩, nonzero⟩
    rw [ProductRow.code_decrement] at leftCode
    have equal : stored = row :=
      tables.products.eq_of_key_eq storedPresent present rfl
        (congrArg some (leftCode.trans same).symm)
    subst equal
    exact nonzero ((decrement_eq_zero (whole stored present) code).mpr zero)
  · intro keeps
    have codeStored :
        ∀ other, tables.Stores other → (discard code tables).Stores other := by
      rintro _ ⟨row, present, rfl⟩
      refine ⟨row.decrement code, ?_, ProductRow.code_decrement code row⟩
      refine mem_discard.mpr ⟨⟨row, present, rfl⟩, ?_⟩
      intro zero
      exact keeps row present
        ((decrement_eq_zero (whole row present) code).mp zero)
    exact
      { tags := fun kind row present =>
          codeStored row.code (references.tags kind row present)
        images := fun row present =>
          codeStored row.code (references.images row present) }

/-! ## Runs -/

/-- What holds of the tables at any time, whether or not references do. -/
structure Sound (tables : Tables) : Prop where
  pictured : Pictured tables
  whole : WholeNumbers tables

theorem sound_fresh : Sound .fresh :=
  { pictured := by
      rintro code ⟨row, present, _⟩
      exact absurd present (Table.not_mem_empty row)
    whole := fun row present => absurd present (Table.not_mem_empty row) }

theorem references_fresh : References .fresh :=
  { tags := fun _ row present => absurd present (Table.not_mem_empty row)
    images := fun row present => absurd present (Table.not_mem_empty row) }

theorem Sound.effect {tables : Tables} (sound : Sound tables)
    (request : Request) : Sound (request.effect tables) where
  pictured := by
    cases request with
    | insert product => exact pictured_store sound.pictured product
    | remove code => exact pictured_discard sound.pictured code
    | nothing => exact sound.pictured
  whole := whole_effect sound.whole request

theorem references_effect_iff {tables : Tables} (sound : Sound tables)
    (references : References tables) (request : Request) :
    References (request.effect tables) ↔ KeepsReferences tables request := by
  cases request with
  | insert product => exact references_store_iff references product
  | remove code =>
      exact references_discard_iff sound.pictured sound.whole references code
  | nothing => exact iff_of_true references trivial

/--
Over any sequence of messages the references stay intact exactly if each
message that the daemon handles asks for something that keeps them.
-/
theorem references_iff (internalHeader : CString)
    (parse : CString → Option Json) (deliveries : List Delivery) :
    StatesSatisfy (handle internalHeader parse)
        (fun state => References state.tables) .start deliveries ↔
      StepsMeet (handle internalHeader parse)
        (fun state delivery => ∀ request,
          requested internalHeader parse delivery.msg = some request →
            KeepsReferences state.tables request)
        .start deliveries := by
  apply statesSatisfy_iff_requestsMeet internalHeader parse
    Sound References KeepsReferences
  · intro tables request sound
    exact sound.effect request
  · intro tables request sound references
    exact references_effect_iff sound references request
  · rfl
  · exact sound_fresh
  · exact references_fresh

/-- One carton of milk is stored and removed, and leaves its images behind. -/
theorem references_lost :
    ¬ ∀ deliveries : List Delivery,
        StatesSatisfy (handle (.lit "!#+") (Json.parse Json.standardRaw))
          (fun state => References state.tables) .start deliveries := by
  intro always
  have script : State.start.script = [] := rfl
  rcases handle_of_requested script (milk_requested 1) with
    ⟨stocked, stored, script, tables⟩
  rcases handle_of_requested script milkRemoval_requested with
    ⟨emptied, removed, _, remaining⟩
  have kept := always [milkDelivery 1, milkRemoval]
  have references : References emptied.tables :=
    (kept.2 stocked stored).2 emptied removed
  rw [remaining, tables] at references
  have keeps :=
    (references_discard_iff
      (pictured_store sound_fresh.pictured (milk 1))
      (whole_store sound_fresh.whole (milk 1))
      ((references_store_iff references_fresh (milk 1)).mpr
        fun _ _ => .inr (milk_complete 1)) _).mp references
  rcases mem_store_of_accepts (accepts_fresh (milk_complete 1)) with
    ⟨row, present, coded, _, single⟩
  refine keeps row present ?_
  rw [single, Elements.value_ofInt, ← coded]
  rfl

end SmartFridge.Integrity
