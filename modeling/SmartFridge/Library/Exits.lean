import Mathlib.Init

/-!
# Normal and abrupt exits

A function of the source that returns `Except` leaves through its normal end or
through a `goto`.  This module supplies the rules by which what holds at either
exit is composed along a body and a loop.
-/

namespace SmartFridge.Library

universe u v

variable {ε : Type v} {α β : Type u} {normal : α → Prop} {abrupt : ε → Prop}

/-- What holds of a result, at its normal and at its abrupt exit. -/
inductive Exits (normal : α → Prop) (abrupt : ε → Prop) : Except ε α → Prop
  | normally {value : α} (holds : normal value) :
      Exits normal abrupt (.ok value)
  | abruptly {value : ε} (holds : abrupt value) :
      Exits normal abrupt (.error value)

theorem Exits.mono {weaker : α → Prop} {other : ε → Prop}
    {result : Except ε α} (exits : Exits normal abrupt result)
    (normally : ∀ value, normal value → weaker value)
    (abruptly : ∀ value, abrupt value → other value) :
    Exits weaker other result := by
  cases exits with
  | normally holds => exact .normally (normally _ holds)
  | abruptly holds => exact .abruptly (abruptly _ holds)

/-- Behind a normal exit the rest follows, and an abrupt one skips it. -/
theorem Exits.bind {later : β → Prop} {result : Except ε α}
    {next : α → Except ε β} (first : Exits normal abrupt result)
    (second : ∀ value, normal value → Exits later abrupt (next value)) :
    Exits later abrupt (result >>= next) := by
  cases first with
  | normally holds => exact second _ holds
  | abruptly holds => exact .abruptly holds

/-- The loop rule: each turn keeps the invariant, by induction on the items. -/
theorem Exits.foldlM {body : α → β → Except ε α} (items : List β)
    (turn : ∀ value, ∀ item ∈ items, normal value →
      Exits normal abrupt (body value item))
    {value : α} (initial : normal value) :
    Exits normal abrupt (items.foldlM body value) := by
  induction items generalizing value with
  | nil => exact .normally initial
  | cons item rest ih =>
      rw [List.foldlM_cons]
      apply (turn value item List.mem_cons_self initial).bind
      intro next holds
      exact ih (fun value item member =>
        turn value item (List.mem_cons_of_mem _ member)) holds

end SmartFridge.Library
