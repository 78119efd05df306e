/-
# `GridBuchi.Automaton` — property automata and how they are built

A Büchi automaton over named locations, with guarded transitions.  It is
built one call at a time: locations first, then an initial location, the
accepting ones and the transitions between them.  A location is named by the
caller and addressed by its id, its place among the locations; adding a name
again gives the id it has.

The name of a location and its mark stand in one place here, and ids are
searched for.  How the same automaton is stored in tables, which are accessed
by ids that nobody checks, is in `GridBuchi.Automaton.Tables`.

A call that names a location the automaton does not have is refused and
changes nothing.  A transition brings its own ids along, of whatever
automaton it came from; `addTransition` replaces both by the ids of its two
names here.
-/
import GridBuchi.Names
import GridBuchi.Transition
import GridBuchi.Logged

namespace GridBuchi

structure Location where
  name : String
  accepting : Bool := false
deriving DecidableEq

/-- A property automaton: its locations in id order, the initial one if any
was marked, and its transitions in the order in which they were added. -/
structure Automaton where
  locations : List Location
  initial : Option LocationId
  transitions : List Transition
deriving DecidableEq

namespace Automaton

def empty : Automaton := ⟨[], none, []⟩

/-! ## Locations by name and by id -/

def names (A : Automaton) : List String := A.locations.map Location.name

def locationCount (A : Automaton) : Nat := A.locations.length

/-- The id of a location. -/
def id? (A : Automaton) (name : String) : Option LocationId := Names.id? A.names name

/-- The id of a location the caller expects to be there. -/
def resolve (A : Automaton) (name : String) : Except AutomatonError LocationId :=
  match A.id? name with
  | some id => .ok id
  | none => .error (.unknownLocation name)

/-- The location with an id the caller expects to be in range. -/
def location (A : Automaton) (id : LocationId) : Except AutomatonError Location :=
  match A.locations[id.toNat]? with
  | some l => .ok l
  | none => .error (.invalidLocation id A.locationCount)

def nameOf (A : Automaton) (id : LocationId) : Except AutomatonError String :=
  (A.location id).map Location.name

def isAccepting (A : Automaton) (id : LocationId) : Except AutomatonError Bool :=
  (A.location id).map Location.accepting

/-! ## Building -/

/-- Adds a location, not accepting, unless the name is there already.  The
answer is the id of the name. -/
def addLocation (A : Automaton) (name : String) : LocationId × Automaton :=
  match A.id? name with
  | some id => (id, A)
  | none => (Names.idAt A.locationCount, { A with locations := A.locations ++ [{ name }] })

/-- Marks a location as the initial one. -/
def setInitial (A : Automaton) (name : String) :
    Except AutomatonError (LocationId × Automaton) := do
  let id ← A.resolve name
  return (id, { A with initial := some id })

/-- Marks a location as accepting. -/
def setAccepting (A : Automaton) (name : String) :
    Except AutomatonError (LocationId × Automaton) := do
  let id ← A.resolve name
  return (id,
    { A with locations := A.locations.modify id.toNat (fun l => { l with accepting := true }) })

/-- A transition with its names resolved here, the source first. -/
def resolveTransition (A : Automaton) (t : Transition) : Except AutomatonError Transition := do
  let sourceId ← A.resolve t.source
  let targetId ← A.resolve t.target
  return { t with sourceId, targetId }

/-- Adds a transition between two locations, and logs it.  The answer is its
place among the transitions. -/
def addTransition (A : Automaton) (t : Transition) : Logged AutomatonError (Nat × Automaton) := do
  let t ← Logged.silent (A.resolveTransition t)
  Logged.emit (.transitionAdded t.text)
  return (A.transitions.length, { A with transitions := A.transitions ++ [t] })

end Automaton
end GridBuchi
