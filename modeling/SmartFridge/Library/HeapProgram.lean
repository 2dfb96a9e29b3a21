import SmartFridge.Library.Allocation
import Mathlib.Data.Finset.Dedup
import Mathlib.Data.Finset.Disjoint
import Mathlib.Data.Finset.Image
import Mathlib.Data.Finset.Lattice.Basic
import Mathlib.Data.Finset.SDiff

/-!
# Programs that work on a heap

A program computes a value or stops before it has one, and what it has done to
the heap by then stays done.  Some programs allocate stage by stage, each stage
under names of its own; where such a program stops, the stages before that
point have left their blocks.
-/

namespace SmartFridge.Library.Allocation

/-- The accesses of a program, and the value or the reason of its end. -/
structure Program (ι ε α : Type) where
  accesses : List (Access ι)
  result : Except ε α

namespace Program

variable {ι ε α β : Type}

instance : Monad (Program ι ε) where
  pure value := ⟨[], .ok value⟩
  bind first next :=
    match first.result with
    | .error stop => ⟨first.accesses, .error stop⟩
    | .ok value =>
        ⟨first.accesses ++ (next value).accesses, (next value).result⟩

/-- A computation that does not touch the heap. -/
def compute (result : Except ε α) : Program ι ε α :=
  ⟨[], result⟩

/-- Accesses one after another. -/
def perform (accesses : List (Access ι)) : Program ι ε Unit :=
  ⟨accesses, .ok ()⟩

/-! ## Results -/

@[simp]
theorem result_pure (value : α) :
    (pure value : Program ι ε α).result = pure value :=
  rfl

@[simp]
theorem result_compute (result : Except ε α) :
    (compute result : Program ι ε α).result = result :=
  rfl

@[simp]
theorem result_perform (accesses : List (Access ι)) :
    (perform accesses : Program ι ε Unit).result = pure () :=
  rfl

/-- The result does not depend on the heap. -/
@[simp]
theorem result_bind (first : Program ι ε α) (next : α → Program ι ε β) :
    (first >>= next).result =
      first.result >>= fun value => (next value).result := by
  obtain ⟨accesses, result⟩ := first
  cases result with
  | error stop => rfl
  | ok value => rfl

end Program

/-! ## Accesses one after another -/

section Accesses

variable {ι : Type*} [DecidableEq ι] {live : Finset ι}

instance decidableAllSound (live : Finset ι) :
    (accesses : List (Access ι)) → Decidable (AllSound live accesses)
  | [] => inferInstanceAs (Decidable True)
  | access :: rest =>
      have := decidableAllSound (access.after live) rest
      inferInstanceAs (Decidable (_ ∧ _))

theorem liveAfter_append (first later : List (Access ι)) :
    liveAfter live (first ++ later) = liveAfter (liveAfter live first) later :=
  List.foldl_append

theorem allSound_append {first later : List (Access ι)} :
    AllSound live (first ++ later) ↔
      AllSound live first ∧ AllSound (liveAfter live first) later := by
  induction first generalizing live with
  | nil => exact (and_iff_right trivial).symm
  | cons access rest ih =>
      rw [List.cons_append, allSound_cons, allSound_cons, ih, and_assoc]
      rfl

/-- Blocks that are not live can be allocated one after another. -/
theorem allocs_sound {blocks : List ι} (distinct : blocks.Nodup)
    (fresh : ∀ block ∈ blocks, block ∉ live) :
    AllSound live (blocks.map .alloc) ∧
      liveAfter live (blocks.map .alloc) = live ∪ blocks.toFinset := by
  induction blocks generalizing live with
  | nil => exact ⟨trivial, (Finset.union_empty live).symm⟩
  | cons block rest ih =>
      rcases List.nodup_cons.mp distinct with ⟨apart, others⟩
      rcases List.forall_mem_cons.mp fresh with ⟨here, freshOthers⟩
      have freshLater : ∀ other ∈ rest, other ∉ insert block live := by
        intro other member
        rw [Finset.mem_insert, not_or]
        exact
          ⟨fun same => apart (same ▸ member), freshOthers other member⟩
      obtain ⟨sound, after⟩ := ih others freshLater
      refine ⟨⟨here, sound⟩, ?_⟩
      rw [List.map_cons, liveAfter_cons, after_alloc, after,
        List.toFinset_cons, Finset.insert_union, Finset.union_insert]

/-- Reads of live blocks are sound and change nothing. -/
theorem reads_sound {blocks : List ι}
    (allLive : ∀ block ∈ blocks, block ∈ live) :
    AllSound live (blocks.map .read) ∧
      liveAfter live (blocks.map .read) = live := by
  induction blocks with
  | nil => exact ⟨trivial, rfl⟩
  | cons block rest ih =>
      rcases List.forall_mem_cons.mp allLive with ⟨here, others⟩
      exact ⟨⟨here, (ih others).1⟩, (ih others).2⟩

end Accesses

/-! ## What a program meets -/

section Meets

variable {ι ε α β : Type} [DecidableEq ι] {live : Finset ι}
  {post : Except ε α → Finset ι → Prop}

/-- From these live blocks every access is sound, and the postcondition holds
of the result and of the blocks that are live then. -/
def Program.Meets (program : Program ι ε α) (live : Finset ι)
    (post : Except ε α → Finset ι → Prop) : Prop :=
  AllSound live program.accesses ∧
    post program.result (liveAfter live program.accesses)

theorem meets_pure {value : α} (holds : post (.ok value) live) :
    (pure value : Program ι ε α).Meets live post :=
  ⟨trivial, holds⟩

/-- A program is met if its first part leads to what the second one needs. -/
theorem Program.Meets.bind {first : Program ι ε β} {next : β → Program ι ε α}
    {middle : Except ε β → Finset ι → Prop} (met : first.Meets live middle)
    (stops : ∀ stop after, first.result = .error stop →
      middle (.error stop) after → post (.error stop) after)
    (goesOn : ∀ value after, first.result = .ok value →
      middle (.ok value) after → (next value).Meets after post) :
    (first >>= next).Meets live post := by
  obtain ⟨accesses, result⟩ := first
  cases result with
  | error stop => exact ⟨met.1, stops stop _ rfl met.2⟩
  | ok value =>
      obtain ⟨sound, holds⟩ := goesOn value _ rfl met.2
      constructor
      · exact allSound_append.mpr ⟨met.1, sound⟩
      · change post _ (liveAfter live (accesses ++ (next value).accesses))
        rw [liveAfter_append]
        exact holds

theorem meets_perform {accesses : List (Access ι)} {next : Unit → Program ι ε α}
    (sound : AllSound live accesses)
    (met : (next ()).Meets (liveAfter live accesses) post) :
    (Program.perform accesses >>= next).Meets live post := by
  have performed :
      (Program.perform accesses : Program ι ε Unit).Meets live fun _ after =>
        after = liveAfter live accesses :=
    ⟨sound, rfl⟩
  refine performed.bind ?_ ?_
  · intro stop after impossible
    cases impossible
  · rintro value after - rfl
    exact met

theorem meets_compute_bind {reading : Except ε β} {next : β → Program ι ε α}
    (stops : ∀ stop, reading = .error stop → post (.error stop) live)
    (goesOn : ∀ value, reading = .ok value → (next value).Meets live post) :
    (Program.compute reading >>= next).Meets live post := by
  cases reading with
  | error stop => exact ⟨trivial, stops stop rfl⟩
  | ok value => exact goesOn value rfl

end Meets

/-! ## Stages -/

section Stages

variable {ι ε α β κ : Type} [DecidableEq ι] (owner : ι → κ) (fault : ε)
  (kept : Finset ι)

/-- What a stage leaves: its blocks if it comes to its value, and nothing if it
stops without a fault. -/
def Leaves (fault : ε) (live : Finset ι) (blocks : α → Finset ι) :
    Except ε α → Finset ι → Prop
  | .ok value, after => after = live ∪ blocks value
  | .error stop, after => stop ≠ fault → after = live

/-- A program with this result that allocates blocks of one name. -/
structure Program.Stage (program : Program ι ε α) (reading : Except ε α)
    (name : κ) (blocks : α → Finset ι) : Prop where
  reads : program.result = reading
  named : ∀ value, ∀ block ∈ blocks value, owner block = name
  met : ∀ live, kept ⊆ live → (∀ block ∈ live, owner block ≠ name) →
    program.Meets live (Leaves fault live blocks)

/-- What the stages leave up to the first that stops. -/
def allocated : List (κ × Except ε (Finset ι)) → Finset ι
  | [] => ∅
  | (_, .error _) :: _ => ∅
  | (_, .ok blocks) :: rest => blocks ∪ allocated rest

/--
Where the stages have names of their own, the program leaves what they allocate
and what was live before, unless it ends in a fault.
-/
structure Program.Allocates (program : Program ι ε α)
    (stages : List (κ × Except ε (Finset ι))) : Prop where
  named : ∀ block ∈ allocated stages, owner block ∈ stages.map Prod.fst
  met : (stages.map Prod.fst).Nodup → ∀ live, kept ⊆ live →
    (∀ block ∈ live, owner block ∉ stages.map Prod.fst) →
      program.Meets live fun result after =>
        result ≠ .error fault → after = live ∪ allocated stages

variable {owner fault kept}

theorem allocates_pure {value : α} :
    (pure value : Program ι ε α).Allocates owner fault kept [] where
  named := fun _ impossible => absurd impossible (Finset.notMem_empty _)
  met := by
    intro _ live _ _
    exact meets_pure fun _ => (Finset.union_empty live).symm

/-- The first stage of a program and what follows it. -/
theorem Program.Stage.bind {first : Program ι ε β} {reading : Except ε β}
    {next : β → Program ι ε α} {name : κ} {blocks : β → Finset ι}
    {stages : List (κ × Except ε (Finset ι))}
    (stage : first.Stage owner fault kept reading name blocks)
    (rest : ∀ value, (next value).Allocates owner fault kept stages) :
    (first >>= next).Allocates owner fault kept
      ((name, reading.map blocks) :: stages) where
  named := by
    intro block member
    cases reading with
    | error stop => exact absurd member (Finset.notMem_empty block)
    | ok value =>
        rcases Finset.mem_union.mp member with here | later
        · rw [stage.named value block here]
          exact List.mem_cons_self
        · exact List.mem_cons_of_mem name ((rest value).named block later)
  met := by
    intro distinct live holds fresh
    rw [List.map_cons, List.nodup_cons] at distinct
    have apart : ∀ block ∈ live,
        owner block ≠ name ∧ owner block ∉ stages.map Prod.fst := by
      intro block member
      rw [← not_or, ← List.mem_cons]
      exact fresh block member
    have alone := stage.met live holds fun block member =>
      (apart block member).1
    have reads := stage.reads
    refine alone.bind ?_ ?_
    · intro stop after stopped ends tidy
      rw [ends fun same => tidy (congrArg Except.error same), ← reads, stopped]
      exact (Finset.union_empty live).symm
    · rintro value after returned rfl
      have later := (rest value).met distinct.2 (live ∪ blocks value)
        (holds.trans Finset.subset_union_left) (by
          intro block member
          rcases Finset.mem_union.mp member with before | here
          · exact (apart block before).2
          · rw [stage.named value block here]
            exact distinct.1)
      refine ⟨later.1, ?_⟩
      intro tidy
      rw [later.2 tidy, ← reads, returned, Finset.union_assoc]
      rfl

end Stages

/-! ## Releases -/

section Releases

variable {ι : Type*} [DecidableEq ι]

/-- The blocks of some sets. -/
def unions (sets : List (Finset ι)) : Finset ι :=
  sets.foldr (· ∪ ·) ∅

@[simp]
theorem mem_unions {sets : List (Finset ι)} {block : ι} :
    block ∈ unions sets ↔ ∃ set ∈ sets, block ∈ set := by
  induction sets with
  | nil => simp [unions]
  | cons set rest ih =>
      change block ∈ set ∪ unions rest ↔ _
      rw [Finset.mem_union, ih, List.exists_mem_cons_iff]

/-- The accesses release these blocks, and need no others but the kept ones. -/
def Releases (kept : Finset ι) (accesses : List (Access ι))
    (blocks : Finset ι) : Prop :=
  ∀ live, kept ⊆ live → blocks ⊆ live →
    AllSound live accesses ∧ liveAfter live accesses = live \ blocks

variable {kept blocks later : Finset ι} {accesses others : List (Access ι)}

theorem releases_nil : Releases kept [] ∅ :=
  fun _ _ _ => ⟨trivial, Finset.sdiff_empty.symm⟩

theorem Releases.append (first : Releases kept accesses blocks)
    (second : Releases kept others later) (apart : Disjoint blocks later)
    (spared : Disjoint blocks kept) :
    Releases kept (accesses ++ others) (blocks ∪ later) := by
  intro live holds inside
  rw [Finset.union_subset_iff] at inside
  obtain ⟨sound, left⟩ := first live holds inside.1
  have stillHolds : kept ⊆ live \ blocks :=
    Finset.subset_sdiff.mpr ⟨holds, spared.symm⟩
  have stillInside : later ⊆ live \ blocks :=
    Finset.subset_sdiff.mpr ⟨inside.2, apart.symm⟩
  obtain ⟨soundLater, leftLater⟩ := second _ stillHolds stillInside
  constructor
  · exact allSound_append.mpr ⟨sound, left.symm ▸ soundLater⟩
  · rw [liveAfter_append, left, leftLater, sdiff_sdiff]
    rfl

/-- Releases for the items of a list, by induction on it. -/
theorem releases_flatMap {α : Type*} {items : List α}
    {accessesOf : α → List (Access ι)} {blocksOf : α → Finset ι}
    (each : ∀ item ∈ items, Releases kept (accessesOf item) (blocksOf item))
    (apart : items.Pairwise fun one other =>
      Disjoint (blocksOf one) (blocksOf other))
    (spared : ∀ item ∈ items, Disjoint (blocksOf item) kept) :
    Releases kept (items.flatMap accessesOf) (unions (items.map blocksOf)) := by
  induction items with
  | nil => exact releases_nil
  | cons item rest ih =>
      rcases List.forall_mem_cons.mp each with ⟨here, others⟩
      rcases List.pairwise_cons.mp apart with ⟨apartHere, apartOthers⟩
      rcases List.forall_mem_cons.mp spared with ⟨sparedHere, sparedOthers⟩
      have disjoint :
          Disjoint (blocksOf item) (unions (rest.map blocksOf)) := by
        rw [Finset.disjoint_left]
        intro block mine theirs
        obtain ⟨set, member, other⟩ := mem_unions.mp theirs
        obtain ⟨one, among, rfl⟩ := List.mem_map.mp member
        exact Finset.disjoint_left.mp (apartHere one among) mine other
      exact
        here.append (ih others apartOthers sparedOthers) disjoint sparedHere

end Releases

/-! ## Names of another heap -/

section Renaming

variable {ι κ : Type*}

/-- The access under another name. -/
def Access.map (name : ι → κ) : Access ι → Access κ
  | .alloc block => .alloc (name block)
  | .read block => .read (name block)
  | .free block => .free (name block)

variable [DecidableEq κ] {name : ι → κ} {others : Finset κ}

theorem mem_union_image (injective : Function.Injective name)
    (fresh : ∀ block, name block ∉ others) {live : Finset ι} {block : ι} :
    name block ∈ others ∪ live.image name ↔ block ∈ live := by
  rw [Finset.mem_union, injective.mem_finset_image]
  exact or_iff_right (fresh block)

theorem sound_map (injective : Function.Injective name)
    (fresh : ∀ block, name block ∉ others) {live : Finset ι}
    (access : Access ι) :
    (access.map name).Sound (others ∪ live.image name) ↔ access.Sound live := by
  cases access with
  | alloc block => exact not_congr (mem_union_image injective fresh)
  | read block => exact mem_union_image injective fresh
  | free block => exact mem_union_image injective fresh

variable [DecidableEq ι]

theorem after_map (injective : Function.Injective name)
    (fresh : ∀ block, name block ∉ others) {live : Finset ι}
    (access : Access ι) :
    (access.map name).after (others ∪ live.image name) =
      others ∪ (access.after live).image name := by
  cases access with
  | alloc block =>
      change insert (name block) _ = others ∪ (insert block live).image name
      rw [Finset.image_insert, Finset.union_insert]
  | read block => rfl
  | free block =>
      change (others ∪ live.image name).erase (name block) =
        others ∪ (live.erase block).image name
      rw [Finset.erase_union_distrib, Finset.image_erase injective,
        Finset.erase_eq_of_notMem (fresh block)]

/-- Among other blocks a program does what it does alone. -/
theorem accesses_map (injective : Function.Injective name)
    (fresh : ∀ block, name block ∉ others) (live : Finset ι)
    (accesses : List (Access ι)) :
    (AllSound (others ∪ live.image name) (accesses.map (Access.map name)) ↔
        AllSound live accesses) ∧
      liveAfter (others ∪ live.image name) (accesses.map (Access.map name)) =
        others ∪ (liveAfter live accesses).image name := by
  induction accesses generalizing live with
  | nil => exact ⟨Iff.rfl, rfl⟩
  | cons access rest ih =>
      have later := ih (access.after live)
      rw [← after_map injective fresh access] at later
      exact
        ⟨and_congr (sound_map injective fresh access) later.1, later.2⟩

end Renaming

end SmartFridge.Library.Allocation
