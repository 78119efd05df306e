/-
# `GridBuchi.Names` — 32-bit ids by order of first occurrence

Species and locations are both addressed by small numbers: the id of a name
is its place in a list that holds each name once, in the order in which the
names first came up.  Ids have 32 bits.  A list longer than that goes on
being extended and its later ids wrap, so an id determines its name only up
to `2 ^ 32` names; every statement that needs more says so.
-/

namespace GridBuchi.Names

/-- The id of the name at place `i`. -/
def idAt (i : Nat) : UInt32 := UInt32.ofNat i

/-- The id of a name, if the list has it. -/
def id? (names : List String) (name : String) : Option UInt32 :=
  (names.idxOf? name).map idAt

theorem id?_eq_none_iff {names : List String} {name : String} :
    id? names name = none ↔ name ∉ names := by
  simp [id?, List.idxOf?_eq_none_iff]

/-- The name an id addresses.  The id is taken as a place as it stands, so
this is the inverse of `id?` where no id has wrapped. -/
def nameAt? (names : List String) (id : UInt32) : Option String :=
  names[id.toNat]?

end GridBuchi.Names
