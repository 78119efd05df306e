/-
# `GridBuchi.Automaton.Tables` — an automaton as it is stored

Stored, an automaton is a set of tables that run side by side: the names by
id, the ids by name, and the marks by id.  An id that comes from outside is
compared with the number of names, once.  After that, and without that if the
automaton gave the id out itself, it is an index into whatever table is
asked, and nobody looks whether it lies inside.  With tables out of step, or
with an id too large, such an access is a breach.

In `GridBuchi.Automaton` the name of a location and its mark stand in one
place, an id is searched for among the names, and no access can go astray.
`GridBuchi.Proofs.Tables` shows the two to be one automaton, call by call and
answer by answer, so none goes astray here either.
-/
import GridBuchi.Automaton.Product
import GridBuchi.Automaton.Text
import GridBuchi.Names.Table

namespace GridBuchi.Automaton

/-- The tables of an automaton.  There is a mark for each name, and ids are
indices into both lists, as long as the builder keeps it that way. -/
structure Tables extends NameTable where
  accepting : List Bool
  initial : Option LocationId
  transitions : List Transition

namespace Tables

def empty : Tables := ⟨.empty, [], none, []⟩

/-! ## Accesses that are not checked -/

section Access

variable {α : Type}

/-- The entry at an index that is taken to lie in the table. -/
def entry (table : List α) (i : Nat) : Except Breach α :=
  match table[i]? with
  | some a => .ok a
  | none => .error (.readOutside table.length i)

/-- Another entry at an index that is taken to lie in the table. -/
def overwrite (table : List α) (i : Nat) (a : α) : Except Breach (List α) :=
  if i < table.length then .ok (table.set i a) else .error (.readOutside table.length i)

end Access

/-! ## Locations by name and by id -/

def resolve (T : Tables) (name : String) : Except AutomatonError LocationId :=
  match T.id? name with
  | some id => .ok id
  | none => .error (.unknownLocation name)

/-- Compares an id from outside with the number of names. -/
def check (T : Tables) (id : LocationId) : Except AutomatonError Unit :=
  if id.toNat < T.size then .ok () else .error (.invalidLocation id T.size)

def nameOf (T : Tables) (id : LocationId) : Except (Failure AutomatonError) String := do
  (T.check id).mapError .reported
  (entry T.names id.toNat).mapError .breach

def isAccepting (T : Tables) (id : LocationId) : Except (Failure AutomatonError) Bool := do
  (T.check id).mapError .reported
  (entry T.accepting id.toNat).mapError .breach

/-! ## Building -/

def addLocation (T : Tables) (name : String) : LocationId × Tables :=
  match T.id? name with
  | some id => (id, T)
  | none =>
      (Names.idAt T.size,
        { T with toNameTable := T.push name, accepting := T.accepting ++ [false] })

def setInitial (T : Tables) (name : String) : Except AutomatonError (LocationId × Tables) := do
  let id ← T.resolve name
  return (id, { T with initial := some id })

/-- Marks a location under the id it has by name. -/
def setAccepting (T : Tables) (name : String) :
    Except (Failure AutomatonError) (LocationId × Tables) := do
  let id ← (T.resolve name).mapError .reported
  let accepting ← (overwrite T.accepting id.toNat true).mapError .breach
  return (id, { T with accepting })

/-- Adds a transition with its names resolved, the source first, and logs
it. -/
def addTransition (T : Tables) (t : Transition) : Logged AutomatonError (Nat × Tables) := do
  let sourceId ← Logged.silent (T.resolve t.source)
  let targetId ← Logged.silent (T.resolve t.target)
  let t := { t with sourceId, targetId }
  Logged.emit (.transitionAdded t.text)
  let transitions := T.transitions ++ [t]
  return (transitions.length - 1, { T with transitions })

/-! ## Stepping -/

def successors {α : Type} [Components α] (T : Tables) (cfg : Config) (id : LocationId) (a : α) :
    Except (Failure AutomatonError) (List LocationId) := do
  (T.check id).mapError .reported
  enabledTargets cfg a (T.transitions.filter fun t => t.sourceId = id)

/-! ## As text -/

/-- The order of names, and of indices under one name. -/
def before (x y : String × Nat) : Bool :=
  if x.1 = y.1 then x.2 ≤ y.2 else ByteOrder.le x.1 y.1

/-- The names in order, each with its index. -/
def byName (T : Tables) : List (String × Nat) := T.names.zipIdx.mergeSort before

/-- The names of a list whose indices are marked. -/
def markedNames (T : Tables) : List (String × Nat) → Except Breach (List String)
  | [] => return []
  | (name, i) :: rest => do
      let accepting ← entry T.accepting i
      let others ← T.markedNames rest
      return if accepting then name :: others else others

/-- The name of the initial location, or nothing. -/
def initialName (T : Tables) : Except Breach String :=
  match T.initial with
  | none => return ""
  | some id => entry T.names id.toNat

def text (T : Tables) : Except Breach String := do
  let initial ← T.initialName
  let accepting ← T.markedNames T.byName
  return "process LTL_property \x7b\n"
    ++ "state " ++ ", ".intercalate (T.byName.map Prod.fst) ++ ";\n"
    ++ "init " ++ initial ++ ";\n"
    ++ "accept " ++ ", ".intercalate accepting ++ ";\n"
    ++ "trans\n"
    ++ ",\n".intercalate (T.transitions.map fun t => "   " ++ t.text) ++ ";\n"
    ++ "\x7d\n"

end Tables
end GridBuchi.Automaton
