/-
# `GridBuchi.Names.Table` — names and their ids in two tables

The name of an id is an entry in a list of names.  The id of a name could be
searched for there, but it is kept in a second table, by name.  A name is
entered in both at once, and nothing else keeps the two in step.

A registry is stored as such a pair of tables.  That it answers like
`GridBuchi.Registry`, which has one table and searches it, is shown in
`GridBuchi.Proofs.Tables`.
-/
import GridBuchi.Names
import GridBuchi.Session.Slots

namespace GridBuchi

/-- The names by id, and the ids by name. -/
structure NameTable where
  names : List String
  ids : Slots UInt32

namespace NameTable

def empty : NameTable := ⟨[], .empty⟩

/-- Enters a new name, with the next id. -/
def push (t : NameTable) (name : String) : NameTable where
  names := t.names ++ [name]
  ids := t.ids.put name (Names.idAt t.names.length)

def id? (t : NameTable) (name : String) : Option UInt32 := t.ids.get? name

def name? (t : NameTable) (id : UInt32) : Option String := t.names[id.toNat]?

def size (t : NameTable) : Nat := t.names.length

/-- The ids with their names, by id. -/
def entries (t : NameTable) : List (UInt32 × String) :=
  t.names.mapIdx fun i name => (Names.idAt i, name)

/-- Answers with the id of a name, old or new. -/
def register (t : NameTable) (name : String) : UInt32 × NameTable :=
  match t.id? name with
  | some id => (id, t)
  | none => (Names.idAt t.size, t.push name)

def ofNames (names : List String) : NameTable :=
  names.foldl (fun t name => (t.register name).2) empty

end NameTable
end GridBuchi
