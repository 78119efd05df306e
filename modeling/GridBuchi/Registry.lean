/-
# `GridBuchi.Registry` — the names of the species

A model names its species once, when it is loaded; afterwards the species
are positions in a state and the registry is consulted only to show them.
Registering a name again gives back the id it has.

Ids are searched for among the names here.  `GridBuchi.NameTable` keeps them in
a table of their own.
-/
import GridBuchi.Names

namespace GridBuchi

/-- The position of a species, as the registry counts. -/
abbrev SpeciesId := UInt32

/-- The registered species names, in order of first registration. -/
structure Registry where
  names : List String
deriving DecidableEq

namespace Registry

def empty : Registry := ⟨[]⟩

/-- The id of a registered species. -/
def id? (r : Registry) (name : String) : Option SpeciesId := Names.id? r.names name

/-- The name of a registered species. -/
def name? (r : Registry) (id : SpeciesId) : Option String := Names.nameAt? r.names id

def size (r : Registry) : Nat := r.names.length

def isEmpty (r : Registry) : Bool := r.names.isEmpty

/-- Registers a species and answers with its id, old or new. -/
def register (r : Registry) (name : String) : SpeciesId × Registry :=
  match r.id? name with
  | some id => (id, r)
  | none => (Names.idAt r.size, ⟨r.names ++ [name]⟩)

/-- Registers a list of names, one after the other. -/
def registerAll (r : Registry) (names : List String) : Registry :=
  names.foldl (fun r name => (r.register name).2) r

def ofNames (names : List String) : Registry := empty.registerAll names

/-- The ids with their names, in registration order. -/
def entries (r : Registry) : List (SpeciesId × String) :=
  r.names.mapIdx (fun i name => (Names.idAt i, name))

/-! ## Registration appends a new name and nothing else -/

theorem names_register (r : Registry) (name : String) :
    (r.register name).2.names = if name ∈ r.names then r.names else r.names ++ [name] := by
  unfold register
  split
  · next id h =>
      have hmem : name ∈ r.names := by
        refine Classical.byContradiction fun hn => ?_
        rw [id?, Names.id?_eq_none_iff.mpr hn] at h
        exact nomatch h
      rw [if_pos hmem]
  · next h => rw [if_neg (Names.id?_eq_none_iff.mp h)]

theorem nodup_register {r : Registry} (h : r.names.Nodup) (name : String) :
    (r.register name).2.names.Nodup := by
  rw [names_register]
  split
  · exact h
  · next hn =>
      refine List.nodup_append.mpr ⟨h, by simp, fun a ha b hb => ?_⟩
      rw [List.mem_singleton.mp hb]
      exact fun he => hn (he ▸ ha)

end Registry
end GridBuchi
