/-
# `GridBuchi.Session.Command` — what a session can be told to do

One type of command for each kind of value, and the sum of them.  A command
values its arguments in the order in which they stand, so of two arguments
that fail the first decides what is reported.
-/
import GridBuchi.Session.Literal
import GridBuchi.Config
import GridBuchi.Row

namespace GridBuchi

inductive ComparisonCommand where
  | ofCode (code : Int)
  | describe (c : Comparison)
  | holds (c : Comparison) (value threshold : Word)

inductive PropositionCommand where
  | put (p : PropositionLiteral) (name : String)
  | inspect (p : PropositionLiteral)
  /-- Arms the proposition of a slot anew. -/
  | arm (name : String) (test : Test) (text : String)
  /-- Makes the proposition of a slot trivial, under the default caption
  unless one is given. -/
  | disarm (name : String) (caption : Option String)
  | evalTrusted (p : PropositionLiteral) (s : StateLiteral) (c : Carrier)
  | evalChecked (p : PropositionLiteral) (s : StateLiteral) (c : Carrier)
  | same (p q : PropositionLiteral)
  | countDistinct (ps : List PropositionLiteral)

inductive StateCommand where
  | put (s : StateLiteral) (name : String)
  | inspect (s : StateLiteral)
  | get (s : StateLiteral) (id : SpeciesId)
  | set (name : String) (id : SpeciesId) (value : Word)
  /-- Moves the state of a slot to a location, if it has one. -/
  | place (name : String) (location : LocationId)
  | read (s : StateLiteral) (index : Nat) (c : Carrier)
  | read? (s : StateLiteral) (index : Nat) (c : Carrier)
  | count (s : StateLiteral) (c : Carrier)
  | display (s : StateLiteral) (registry : String)
  | same (s t : StateLiteral)
  | countDistinct (ss : List StateLiteral)

inductive RegistryCommand where
  | create (name : String) (species : List String)
  | copy (source name : String)
  | register (name species : String)
  | id? (name species : String)
  | name? (name : String) (id : SpeciesId)
  | inspect (name : String)

inductive TransitionCommand where
  | put (t : TransitionLiteral) (name : String)
  | inspect (t : TransitionLiteral)
  | enabledTrusted (t : TransitionLiteral) (s : StateLiteral) (c : Carrier)
  | enabledChecked (t : TransitionLiteral) (s : StateLiteral) (c : Carrier)
  | same (t u : TransitionLiteral)

inductive AutomatonCommand where
  | create (name : String)
  | copy (source name : String)
  | inspect (name : String)
  | addLocation (name location : String)
  | id? (name location : String)
  | nameOf (name : String) (id : LocationId)
  | setInitial (name location : String)
  | setAccepting (name location : String)
  | isAccepting (name : String) (id : LocationId)
  | addTransition (t : TransitionLiteral) (name : String)
  /-- Shows a transition and, if there is one and a slot is given, copies it
  there. -/
  | transition (name : String) (index : Nat) (into : Option String)
  | successors (s : StateLiteral) (name : String) (id : LocationId) (cfg : Config) (c : Carrier)
  /-- One product step.  With `into`, the results fill the slots of that
  name followed by their number. -/
  | synchronize (s candidate : StateLiteral) (name : String) (cfg : Config) (into : Option String)
  | explore (s : StateLiteral) (candidates : List StateLiteral) (name : String) (cfg : Config)

inductive Command where
  | comparison (c : ComparisonCommand)
  | proposition (c : PropositionCommand)
  | state (c : StateCommand)
  | registry (c : RegistryCommand)
  | transition (c : TransitionCommand)
  | automaton (c : AutomatonCommand)
  | showConfig (cfg : Config)
  /-- Hands over the log and empties it. -/
  | takeEvents

/-- What a session answers to a command that succeeds. -/
inductive Answer where
  | nothing
  | flag (b : Bool)
  | word (w : Word)
  | id (i : UInt32)
  | ids (is : List LocationId)
  | count (n : Nat)
  | text (s : String)
  | comparison (c : Comparison)
  /-- A comparison with its code and symbol. -/
  | described (c : Comparison)
  | proposition (p : Proposition)
  | state (s : State)
  | states (ss : List State)
  /-- Whether a state was moved, and the state as it is now. -/
  | placed (done : Bool) (s : State)
  | registry (r : Registry)
  | transition (t : Transition)
  | automaton (A : Automaton)
  | rows (rs : List (List (State × Bool)))
  | config (cfg : Config)
  | events (es : List Event)

/-- An answer that may be missing. -/
def Answer.ofOption {α : Type} (f : α → Answer) : Option α → Answer
  | none => .nothing
  | some a => f a

end GridBuchi
