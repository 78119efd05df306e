/-
# `GridBuchi.Row` — the carriers a state can be read through

A proposition may be given a state itself or a bare row of its species, held
as a list, an array or a vector.  `Row` is the sum of the four, so that one
evaluation can be asked for through any of them; each is read by its own
instance.
-/
import GridBuchi.State

namespace GridBuchi

/-- The four ways of holding components. -/
inductive Carrier where
  | state
  | list
  | array
  | vector
deriving DecidableEq

/-- Components held in one of the four ways. -/
inductive Row where
  | state (s : State)
  | list (row : List Word)
  | array (row : Array Word)
  | vector {n : Nat} (row : Vector Word n)

namespace Row

def count : Row → Nat
  | .state s => Components.count s
  | .list row => Components.count row
  | .array row => Components.count row
  | .vector row => Components.count row

def read : Row → Nat → Except Breach Word
  | .state s, i => Components.read s i
  | .list row, i => Components.read row i
  | .array row, i => Components.read row i
  | .vector row, i => Components.read row i

instance : Components Row where
  count := count
  read := read
  read_of_lt row _ h := by
    cases row <;> exact Components.read_of_lt _ h
  read_of_le row _ h := by
    cases row <;> exact Components.read_of_le _ h

/-- The components, however they are held. -/
def species : Row → List Word
  | .state s => s.species
  | .list row => row
  | .array row => row.toList
  | .vector row => row.toList

end Row

/-- A state, or its species in a carrier of their own. -/
def State.through (s : State) : Carrier → Row
  | .state => .state s
  | .list => .list s.species
  | .array => .array s.species.toArray
  | .vector => .vector (Vector.mk s.species.toArray rfl)

theorem State.species_through (s : State) (c : Carrier) : (s.through c).species = s.species := by
  cases c <;> rfl

end GridBuchi
