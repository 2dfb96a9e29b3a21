import SmartFridge.Library.CString

/-!
# Command lines

What `getopt` returns for the words of a command line, one call after another:
the options in their order, with their arguments, and a question mark for what
the option string does not know.  Words that are no options are passed over.
-/

namespace SmartFridge.Library.Options

/-- What a call of `getopt` returns. -/
inductive Returned where
  | option (name : UInt8) (argument : Option CString)
  | unknown
deriving DecidableEq

/--
Whether a character is an option, and if so whether it takes an argument: then a
colon stands behind it in the option string.
-/
def takesArgument (optstring : CString) (name : UInt8) : Option Bool :=
  if name = 58 ∨ name = 59 then
    none
  else
    match optstring.bytes.dropWhile (· ≠ name) with
    | [] => none
    | _ :: next => some (next.head? = some 58)

/--
The options in a word behind its dash, and the one that still needs the next
word as its argument.
-/
def cluster (optstring : CString) :
    List UInt8 → List Returned × Option UInt8
  | [] => ([], none)
  | name :: rest =>
      match takesArgument optstring name with
      | none =>
          (.unknown :: (cluster optstring rest).1, (cluster optstring rest).2)
      | some false =>
          (.option name none :: (cluster optstring rest).1,
            (cluster optstring rest).2)
      | some true =>
          if rest = [] then
            ([], some name)
          else
            ([.option name (some (CString.ofBuffer rest))], none)

/-- The options of a word, which are none if it is no option. -/
def word (optstring text : CString) : List Returned × Option UInt8 :=
  match text.bytes with
  | 45 :: name :: rest => cluster optstring (name :: rest)
  | _ => ([], none)

/--
The calls of `getopt` on some words, where an option may wait for its argument;
two dashes end the options.
-/
def getoptFrom (optstring : CString) :
    Option UInt8 → List CString → List Returned
  | none, [] => []
  | some _, [] => [.unknown]
  | some name, text :: rest =>
      .option name (some text) :: getoptFrom optstring none rest
  | none, text :: rest =>
      if text = .lit "--" then
        []
      else
        (word optstring text).1 ++
          getoptFrom optstring (word optstring text).2 rest

/-- The calls of `getopt` until it returns -1. -/
def getopt (optstring : CString) (words : List CString) : List Returned :=
  getoptFrom optstring none words

example :
    getopt (.lit "ddfst:p:")
        [.lit "-df", .lit "codes", .lit "-tfile", .lit "-p", .lit "--"] =
      [.option 100 none, .option 102 none, .option 116 (some (.lit "file")),
        .option 112 (some (.lit "--"))] := by
  decide

/-! ## What is returned -/

section Returns

variable {optstring : CString}

theorem mem_of_takesArgument {name : UInt8} {takes : Bool}
    (option : takesArgument optstring name = some takes) :
    name ∈ optstring.bytes ∧ name ≠ 58 := by
  unfold takesArgument at option
  split at option
  · cases option
  · next regular =>
      refine ⟨?_, fun colon => regular (.inl colon)⟩
      split at option
      · cases option
      · next first rest behind =>
          by_contra absent
          have all : optstring.bytes.dropWhile (· ≠ name) = [] :=
            List.dropWhile_eq_nil_iff.mpr (CString.ne_of_not_mem absent)
          cases all.symm.trans behind

/-- What is returned is unknown, or an option with an argument as it has one. -/
def Proper (optstring : CString) : Returned → Prop
  | .unknown => True
  | .option name argument =>
      takesArgument optstring name = some argument.isSome

theorem proper_cluster (bytes : List UInt8) :
    (∀ returned ∈ (cluster optstring bytes).1, Proper optstring returned) ∧
      ∀ name, (cluster optstring bytes).2 = some name →
        takesArgument optstring name = some true := by
  induction bytes with
  | nil => simp [cluster]
  | cons name rest ih =>
      cases takes : takesArgument optstring name with
      | none =>
          simp only [cluster, takes]
          exact ⟨List.forall_mem_cons.mpr ⟨trivial, ih.1⟩, ih.2⟩
      | some argument =>
          cases argument with
          | false =>
              simp only [cluster, takes]
              exact ⟨List.forall_mem_cons.mpr ⟨takes, ih.1⟩, ih.2⟩
          | true =>
              simp only [cluster, takes]
              by_cases last : rest = []
              · rw [if_pos last]
                refine ⟨fun _ member => absurd member List.not_mem_nil, ?_⟩
                rintro _ ⟨⟩
                exact takes
              · rw [if_neg last]
                refine ⟨List.forall_mem_cons.mpr ⟨takes, ?_⟩, by simp⟩
                exact fun _ member => absurd member List.not_mem_nil

theorem proper_word (text : CString) :
    (∀ returned ∈ (word optstring text).1, Proper optstring returned) ∧
      ∀ name, (word optstring text).2 = some name →
        takesArgument optstring name = some true := by
  unfold word
  split
  · exact proper_cluster _
  · exact ⟨fun _ member => absurd member List.not_mem_nil, by simp⟩

/-- By induction on the words; an option that waits does take an argument. -/
theorem proper_getoptFrom (words : List CString) {waiting : Option UInt8}
    (waits : ∀ name, waiting = some name →
      takesArgument optstring name = some true) :
    ∀ returned ∈ getoptFrom optstring waiting words,
      Proper optstring returned := by
  induction words generalizing waiting with
  | nil =>
      cases waiting with
      | none => exact fun _ member => absurd member List.not_mem_nil
      | some name =>
          intro returned member
          cases List.mem_singleton.mp member
          trivial
  | cons text rest ih =>
      cases waiting with
      | some name =>
          exact List.forall_mem_cons.mpr
            ⟨waits name rfl, ih (by simp)⟩
      | none =>
          rw [getoptFrom]
          split
          · exact fun _ member => absurd member List.not_mem_nil
          · intro returned member
            rcases List.mem_append.mp member with here | later
            · exact (proper_word text).1 returned here
            · exact ih (proper_word text).2 returned later

theorem proper_getopt {words : List CString} {returned : Returned}
    (member : returned ∈ getopt optstring words) : Proper optstring returned :=
  proper_getoptFrom words (by simp) returned member

end Returns

/-! ## Reading the options -/

/--
If each option takes the variables from what some options make of them to what
one more makes of them, and what is unknown ends the loop, then the loop over
the options has this result.
-/
theorem foldlM_returned {σ : Type} {choose : σ → Returned → Option σ}
    {chosen : List Returned → σ} {known : Returned → Prop}
    (unknown : ∀ state, choose state .unknown = none)
    (option : ∀ before returned, known returned →
      choose (chosen before) returned = some (chosen (before ++ [returned])))
    {results : List Returned}
    (proper : ∀ returned ∈ results, returned = .unknown ∨ known returned) :
    results.foldlM choose (chosen []) =
      if .unknown ∈ results then none else some (chosen results) := by
  suffices general : ∀ before,
      results.foldlM choose (chosen before) =
        if .unknown ∈ results then none
        else some (chosen (before ++ results)) from general []
  induction results with
  | nil =>
      intro before
      simp
  | cons returned rest ih =>
      intro before
      rcases List.forall_mem_cons.mp proper with ⟨first, others⟩
      rw [List.foldlM_cons]
      by_cases ends : returned = .unknown
      · subst ends
        rw [unknown, if_pos List.mem_cons_self]
        rfl
      · rw [option before returned (first.resolve_left ends),
          Option.bind_eq_bind, Option.bind_some, ih others, List.append_assoc]
        simp [Ne.symm ends]

end SmartFridge.Library.Options
