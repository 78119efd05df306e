/-
# `GridBuchi.Logged` — results with the events logged on the way

Building and exploring an automaton leaves a log.  An operation that logs
answers with a `Logged` value: the events it logged, in order, and its
result.  The events are there whether it succeeds or fails, and running one
operation after another appends their events; nothing can take back what
has been logged.
-/
import GridBuchi.State

namespace GridBuchi

/-- An entry of the log. -/
inductive Event where
  /-- An automaton took in a transition, shown by its text. -/
  | transitionAdded (transition : String)
  /-- A product step from one location to another, with the text of the
  state it leads to. -/
  | productStep (source target : LocationId) (state : String)
deriving DecidableEq

namespace Event

def level : Event → String
  | .transitionAdded _ => "DEBUG"
  | .productStep .. => "TRACE"

def message : Event → String
  | .transitionAdded _ => "property transition added"
  | .productStep .. => "property step"

end Event

/-- A result of type `α`, or a failure of type `ε`, with the events logged. -/
structure Logged (ε α : Type) where
  events : List Event
  result : Except ε α

namespace Logged

variable {ε α β : Type}

/-- A result that logs nothing. -/
def silent (r : Except ε α) : Logged ε α := ⟨[], r⟩

/-- Logs one event. -/
def emit (e : Event) : Logged ε Unit := ⟨[e], .ok ()⟩

/-- One operation after another: a failure ends the sequence, the events of
both stay. -/
def bind (x : Logged ε α) (f : α → Logged ε β) : Logged ε β :=
  match x.result with
  | .error e => ⟨x.events, .error e⟩
  | .ok a => ⟨x.events ++ (f a).events, (f a).result⟩

instance : Monad (Logged ε) where
  pure a := silent (.ok a)
  bind := bind

/-! ## Sequencing, by the result of the first part -/

theorem bind_of_error {x : Logged ε α} {e : ε} (h : x.result = .error e) (f : α → Logged ε β) :
    x >>= f = ⟨x.events, .error e⟩ := by
  show bind x f = _
  simp only [bind, h]

theorem bind_of_ok {x : Logged ε α} {a : α} (h : x.result = .ok a) (f : α → Logged ε β) :
    x >>= f = ⟨x.events ++ (f a).events, (f a).result⟩ := by
  show bind x f = _
  simp only [bind, h]

end Logged
end GridBuchi
