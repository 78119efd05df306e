/-
# `GridBuchi.Components` — reading a row of words by position

Propositions look at a state only through the class `Components`: how many
components there are, and the component at a position.  Anything that holds
a row of words can be read this way, and a proposition cannot tell which of
them it was given.

There are two readers over the one class.  `Components.read` trusts its
caller: a position outside the row is a breach.  `Components.read?` looks at
the count first and answers `none` instead.  The two laws of the class are
what makes them agree: below the count there is something to read, and from
the count on the breach names the count and the position.
-/
import GridBuchi.Comparison

namespace GridBuchi

/-- A value whose components can be read by position. -/
class Components (α : Type) where
  /-- The number of readable components. -/
  count : α → Nat
  /-- The component at a position the caller vouches for. -/
  read : α → Nat → Except Breach Word
  read_of_lt : ∀ (a : α) {i : Nat}, i < count a → ∃ w, read a i = .ok w
  read_of_le : ∀ (a : α) {i : Nat}, count a ≤ i → read a i = .error (.readOutside (count a) i)

namespace Components

/-- The component at a position, or `none` outside the row. -/
def read? {α : Type} [Components α] (a : α) (i : Nat) : Option Word :=
  if i < count a then (read a i).toOption else none

/-! ## Lists, arrays and vectors of words -/

instance : Components (List Word) where
  count row := row.length
  read row i :=
    match row[i]? with
    | some w => .ok w
    | none => .error (.readOutside row.length i)
  read_of_lt row i h := ⟨row[i], by rw [List.getElem?_eq_getElem h]⟩
  read_of_le row i h := by rw [List.getElem?_eq_none h]

instance : Components (Array Word) where
  count row := row.size
  read row i :=
    match row[i]? with
    | some w => .ok w
    | none => .error (.readOutside row.size i)
  read_of_lt row i h := ⟨row[i], by rw [Array.getElem?_eq_getElem h]⟩
  read_of_le row i h := by rw [Array.getElem?_eq_none h]

instance {n : Nat} : Components (Vector Word n) where
  count _ := n
  read row i :=
    match row[i]? with
    | some w => .ok w
    | none => .error (.readOutside n i)
  read_of_lt row i h := ⟨row[i], by rw [Vector.getElem?_eq_getElem h]⟩
  read_of_le row i h := by rw [Vector.getElem?_eq_none h]

end Components
end GridBuchi
