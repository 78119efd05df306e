/-
# `GridBuchi.Session` — a workbench of named values and a log

A session holds propositions, states, transitions, registries and automata
in slots, five name spaces of their own, together with the log of what has
happened and not yet been asked for.  What it is told to do is a `Command`
(`GridBuchi.Session.Command`), and how it does it is `GridBuchi.Session.Run`.

Commands run in `SessionM`.  There a failure does not undo anything: what was
changed before it stays changed.  That a failing command leaves every slot
alone is therefore a fact about the commands, which change slots only as
their last act, and not something the monad sees to.
-/
import GridBuchi.Session.Slots
import GridBuchi.Registry
import GridBuchi.Automaton

namespace GridBuchi

/-- Why a session reports an error. -/
inductive SessionError where
  /-- A slot was named that was never filled. -/
  | noSlot (name : String)
  | proposition (e : PropositionError)
  | automaton (e : AutomatonError)
deriving DecidableEq

def SessionError.message : SessionError → String
  | .noSlot name => name
  | .proposition e => e.message
  | .automaton e => e.message

/-- What a session holds: five families of slots and the log. -/
structure Session where
  propositions : Slots Proposition
  states : Slots State
  transitions : Slots Transition
  registries : Slots Registry
  automata : Slots Automaton
  log : List Event

/-- A session in which nothing has happened yet. -/
def Session.fresh : Session where
  propositions := .empty
  states := .empty
  transitions := .empty
  registries := .empty
  automata := .empty
  log := []

/-- What commands run in. -/
abbrev SessionM := EStateM (Failure SessionError) Session

namespace SessionM

variable {ε α : Type}

/-! ## Outcomes of the operations, as outcomes of a session -/

/-- Takes an outcome over; `f` says how its errors read in a session. -/
def attempt (f : ε → Failure SessionError) : Except ε α → SessionM α
  | .ok a => pure a
  | .error e => throw (f e)

/-- Takes a logged outcome over; its events go to the log either way. -/
def record (f : ε → Failure SessionError) (x : Logged ε α) : SessionM α := do
  modify (fun σ => { σ with log := σ.log ++ x.events })
  attempt f x.result

/-- How a proposition's error reads. -/
def ofProposition (e : PropositionError) : Failure SessionError := .reported (.proposition e)

/-- How an automaton's error reads. -/
def ofAutomaton (e : AutomatonError) : Failure SessionError := .reported (.automaton e)

/-! ## Slots -/

/-- The value of a slot that has to be filled. -/
def slot (family : Session → Slots α) (name : String) : SessionM α := do
  match (family (← get)).get? name with
  | some a => return a
  | none => throw (.reported (.noSlot name))

def putProposition (name : String) (p : Proposition) : SessionM Unit :=
  modify (fun σ => { σ with propositions := σ.propositions.put name p })

def putState (name : String) (s : State) : SessionM Unit :=
  modify (fun σ => { σ with states := σ.states.put name s })

def putTransition (name : String) (t : Transition) : SessionM Unit :=
  modify (fun σ => { σ with transitions := σ.transitions.put name t })

def putRegistry (name : String) (r : Registry) : SessionM Unit :=
  modify (fun σ => { σ with registries := σ.registries.put name r })

def putAutomaton (name : String) (A : Automaton) : SessionM Unit :=
  modify (fun σ => { σ with automata := σ.automata.put name A })

end SessionM
end GridBuchi
