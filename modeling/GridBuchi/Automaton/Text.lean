/-
# `GridBuchi.Automaton.Text` — automata as text

An automaton is written as a process with its locations, its initial
location, its accepting locations and its transitions, each on lines of
their own.  Locations are listed by name in byte order, transitions in the
order in which they were added.  The order of declaration, and with it the
ids, do not show.
-/
import GridBuchi.Automaton
import GridBuchi.ByteOrder

namespace GridBuchi.Automaton

/-- The locations in the order of their names. -/
def byName (A : Automaton) : List Location :=
  A.locations.mergeSort (fun l m => ByteOrder.le l.name m.name)

/-- The name of the initial location, or nothing.  The initial location is
there if it is marked; `GridBuchi.Proofs.Tables` has the lookup that relies on
it. -/
def initialName (A : Automaton) : String :=
  match A.initial with
  | none => ""
  | some id =>
      match A.locations[id.toNat]? with
      | none => ""
      | some l => l.name

/-- The accepting locations, in the order of their names. -/
def acceptingByName (A : Automaton) : List Location := A.byName.filter Location.accepting

/-- The names of a list of locations, separated by commas. -/
def nameList (ls : List Location) : String := ", ".intercalate (ls.map Location.name)

/-- The transitions, each indented, one a line, with a comma between two. -/
def transitionLines (A : Automaton) : String :=
  ",\n".intercalate (A.transitions.map (fun t => "   " ++ t.text))

/-- The automaton as text. -/
def text (A : Automaton) : String :=
  "process LTL_property \x7b\n"
    ++ "state " ++ nameList A.byName ++ ";\n"
    ++ "init " ++ A.initialName ++ ";\n"
    ++ "accept " ++ nameList A.acceptingByName ++ ";\n"
    ++ "trans\n"
    ++ A.transitionLines ++ ";\n"
    ++ "\x7d\n"

end GridBuchi.Automaton
