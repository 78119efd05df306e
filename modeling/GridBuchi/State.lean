/-
# `GridBuchi.State` — plain states and product states in one row of words

An explorer keeps millions of states and compares them all the time, so a
state is one flat row: the species first, and behind them, if the state is
paired with a property automaton, one more word for the current location.
Whether that slot is there is decided when the state is made and never
changes.

The price of the flat row is that the location word lies where a component
with index `dim` would be.  Everything that reads or writes species stops at
`dim`; the slot is reached only through `location?` and `place?`.  The two
proof fields say what the row looks like, and the last section that reading
it back as a pair of species and location loses nothing.
-/
import GridBuchi.Components

namespace GridBuchi

/-- A location of a property automaton, by id. -/
abbrev LocationId := UInt32

/-- A state: `dim` species words, and one word for the location if there is
a slot for it. -/
structure State where
  dim : Nat
  words : List Word
  layout : words.length = dim ∨ words.length = dim + 1
  slot_lt : ∀ w ∈ words.drop dim, w.toNat < UInt32.size
deriving DecidableEq

namespace State

/-! ## The two views -/

/-- The species words, in order. -/
def species (s : State) : List Word := s.words.take s.dim

/-- The location, for a product state. -/
def location? (s : State) : Option LocationId := s.words[s.dim]?.map UInt64.toUInt32

theorem length_species (s : State) : s.species.length = s.dim := by
  have h := s.layout
  simp only [species, List.length_take]
  omega

/-! ## Construction -/

/-- A plain state with the given species. -/
def ofSpecies (row : List Word) : State where
  dim := row.length
  words := row
  layout := .inl rfl
  slot_lt := by simp

/-- The plain state whose `dim` species all lie in the lowest cell. -/
def zeros (dim : Nat) : State := ofSpecies (List.replicate dim 0)

/-- No row has this many words, which is `2 ^ 60`: memory is asked for in
requests of less than half of all addresses, and a word has eight bytes. -/
def capacity : Nat := UInt64.size / 2 / 8

/-- Makes the plain state whose `dim` species all lie in the lowest cell, by
asking for all its words at once.  A request that can be made at all is taken
to be granted. -/
def lowest (dim : Nat) : Except Breach State :=
  if dim < capacity then .ok (zeros dim) else .error .capacityOverflow

/-- A product state. -/
def product (row : List Word) (location : LocationId) : State where
  dim := row.length
  words := row ++ [location.toUInt64]
  layout := .inr (by simp)
  slot_lt := by simpa using location.toNat_lt_size

/-! ## Reading and writing -/

/-- A state is read through its species: the slot is not a component. -/
instance : Components State where
  count s := s.dim
  read s i := Components.read s.species i
  read_of_lt s _ h := Components.read_of_lt s.species (Nat.lt_of_lt_of_eq h s.length_species.symm)
  read_of_le s i h := by
    have hr := Components.read_of_le s.species (Nat.le_trans (Nat.le_of_eq s.length_species) h)
    rw [hr]
    exact congrArg (fun n => Except.error (Breach.readOutside n i)) s.length_species

/-- Overwrites one species; a position outside the state is a breach. -/
def set (s : State) (i : Nat) (value : Word) : Except Breach State :=
  if h : i < s.dim then
    .ok {
      dim := s.dim
      words := s.words.set i value
      layout := by simpa using s.layout
      slot_lt := by simpa [List.drop_set_of_lt h] using s.slot_lt }
  else .error (.writeOutside i s.dim)

/-- Overwrites the location, if there is a slot for it. -/
def place? (s : State) (location : LocationId) : Option State :=
  if h : s.dim < s.words.length then
    some {
      dim := s.dim
      words := s.words.set s.dim location.toUInt64
      layout := by simpa using s.layout
      slot_lt := by
        have hd : (s.words.drop s.dim).length = 1 := by
          have := s.layout
          simp only [List.length_drop]
          omega
        match hw : s.words.drop s.dim, hd with
        | [_], _ => simpa [List.drop_set, hw] using location.toNat_lt_size }
  else none

/-! ## A state is its species and its location -/

theorem words_eq (s : State) :
    s.words = s.species ++ (s.location?.map UInt32.toUInt64).toList := by
  have hs := s.slot_lt
  have hl := s.layout
  rw [species, location?]
  rcases hl with hl | hl
  · simp [List.getElem?_eq_none (Nat.le_of_eq hl), List.take_of_length_le (Nat.le_of_eq hl)]
  · have hd : s.dim < s.words.length := by omega
    have hdrop : s.words.drop s.dim = [s.words[s.dim]] := by
      rw [List.drop_eq_getElem_cons hd, List.drop_eq_nil_of_le (by omega)]
    have hw : s.words[s.dim].toUInt32.toUInt64 = s.words[s.dim] := by
      apply UInt64.toNat_inj.mp
      have hlt := hs s.words[s.dim] (by simp [hdrop])
      rw [UInt32.toNat_toUInt64, UInt64.toNat_toUInt32]
      exact Nat.mod_eq_of_lt hlt
    conv => lhs; rw [← List.take_append_drop s.dim s.words, hdrop]
    simp [List.getElem?_eq_getElem hd, hw]

/-- Two states are equal when their views are: the row holds nothing else. -/
theorem eq_of_views {s t : State} (hs : s.species = t.species) (hl : s.location? = t.location?) :
    s = t := by
  have hd : s.dim = t.dim := by rw [← s.length_species, ← t.length_species, hs]
  have hw : s.words = t.words := by rw [s.words_eq, t.words_eq, hs, hl]
  cases s; cases t
  cases hd; cases hw
  rfl

end State
end GridBuchi
