/-
# `GridBuchi.Automaton.Exploration` — following a path of the system

The system's side of an exploration is a start state and a list of
candidates, one for each step.  The automaton's side may branch, so what is
carried along is a *frontier*: the product states reached so far, each once,
in the order in which they were first reached.  Each candidate turns one
frontier into the next and adds a row to the answer, which shows the states
of the new frontier and whether their locations are accepting.
-/
import GridBuchi.Automaton.Product

namespace GridBuchi.Automaton

/-- Adds the states that are new, in order, each once. -/
def collect (seen : List State) : List State → List State
  | [] => seen
  | s :: rest => if s ∈ seen then collect seen rest else collect (seen ++ [s]) rest

/-- Pairs every state of a frontier with a candidate and collects the
results behind those already seen. -/
def advance (A : Automaton) (cfg : Config) (candidate : State) (seen : List State) :
    List State → Logged (Failure AutomatonError) (List State)
  | [] => return seen
  | s :: rest => do
      let found ← A.synchronize cfg s candidate
      A.advance cfg candidate (collect seen found) rest

/-- Whether the location of a product state is accepting. -/
def accepts (A : Automaton) (s : State) : Except AutomatonError Bool :=
  match s.location? with
  | none => .error .missingLocation
  | some id => A.isAccepting id

/-- A frontier with its accepting marks. -/
def row (A : Automaton) : List State → Except AutomatonError (List (State × Bool))
  | [] => return []
  | s :: rest => do
      let accepting ← A.accepts s
      let others ← A.row rest
      return (s, accepting) :: others

/-- The rows reached from a frontier along a list of candidates. -/
def explore (A : Automaton) (cfg : Config) (frontier : List State) :
    List State → Logged (Failure AutomatonError) (List (List (State × Bool)))
  | [] => return []
  | candidate :: rest => do
      let next ← A.advance cfg candidate [] frontier
      let first ← Logged.silent ((A.row next).mapError .reported)
      let others ← A.explore cfg next rest
      return first :: others

end GridBuchi.Automaton
