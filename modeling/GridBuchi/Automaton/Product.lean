/-
# `GridBuchi.Automaton.Product` — the automaton in step with the system

The automaton runs in lockstep with the system it watches.  One product step
takes the state the system leaves and a candidate for the state it enters:
the guards are evaluated on the state that is *left*, and for every enabled
transition from its location the candidate is taken over with the
transition's target as its location.  Two transitions to one target give two
results, in the order of the transitions.
-/
import GridBuchi.Automaton
import GridBuchi.Config
import GridBuchi.State.Text

namespace GridBuchi

/-- Whether a transition is enabled, by the evaluator that is asked for. -/
def Transition.enabled {α : Type} [Components α] (cfg : Config) (a : α) (t : Transition) :
    Except (Failure AutomatonError) Bool :=
  if cfg.checkIndices then (t.enabledChecked a).mapError (fun e => .reported (.proposition e))
  else (t.enabledTrusted a).mapError .breach

namespace Automaton

/-! ## Successors of a location -/

/-- The targets of the enabled transitions of a list, up to the first that
cannot be evaluated. -/
def enabledTargets {α : Type} [Components α] (cfg : Config) (a : α) :
    List Transition → Except (Failure AutomatonError) (List LocationId)
  | [] => .ok []
  | t :: rest =>
      match t.enabled cfg a with
      | .error e => .error e
      | .ok true => (enabledTargets cfg a rest).map (t.targetId :: ·)
      | .ok false => enabledTargets cfg a rest

/-- The transitions that leave a location, in order. -/
def leaving (A : Automaton) (id : LocationId) : List Transition :=
  A.transitions.filter (fun t => t.sourceId = id)

/-- The locations a state allows next, one for each enabled transition. -/
def successors {α : Type} [Components α] (A : Automaton) (cfg : Config) (id : LocationId) (a : α) :
    Except (Failure AutomatonError) (List LocationId) :=
  match A.location id with
  | .error e => .error (.reported e)
  | .ok _ => enabledTargets cfg a (A.leaving id)

/-! ## One product step -/

/-- Takes a candidate over once for each target, logging each result if the
steps are traced. -/
def pairWith (cfg : Config) (source : LocationId) (candidate : State) :
    List LocationId → Logged (Failure AutomatonError) (List State)
  | [] => return []
  | target :: rest =>
      match candidate.place? target with
      | none => Logged.silent (.error (.reported .missingLocation))
      | some next => do
          if cfg.trace then Logged.emit (.productStep source target next.text)
          let others ← pairWith cfg source candidate rest
          return next :: others

/-- One product step from a state to a candidate. -/
def synchronize (A : Automaton) (cfg : Config) (state candidate : State) :
    Logged (Failure AutomatonError) (List State) :=
  match state.location? with
  | none => Logged.silent (.error (.reported .missingLocation))
  | some source => do
      let targets ← Logged.silent (A.successors cfg source state)
      pairWith cfg source candidate targets

end Automaton
end GridBuchi
