/-
# `GridBuchi.Transition` — guarded transitions of a property automaton

A transition leads from one named location to another and is enabled in a
state in which all its positive guards hold and none of its negative guards
does.  Guards are looked at in order, positive before negative, and the
first that decides ends the evaluation; with guards that may lie outside the
state this order is part of the meaning.

The two evaluators follow the two evaluators of propositions and are written
independently of each other.  `enabledTrusted` is the plain Boolean
expression; `enabledChecked` walks the two lists and stops at a guard that
cannot be read.
-/
import GridBuchi.Proposition
import GridBuchi.State

namespace GridBuchi

/-- A guarded transition.  The two ids mean something only once an automaton
has resolved the two names; until then they are 0. -/
structure Transition where
  source : String
  target : String
  positive : List Proposition
  negative : List Proposition
  sourceId : LocationId := 0
  targetId : LocationId := 0
deriving DecidableEq

namespace Transition

/-- The transition whose only guard is the trivial one. -/
def unconditional (source target : String) : Transition where
  source := source
  target := target
  positive := [Proposition.truth]
  negative := []

/-! ## Evaluation -/

variable {α : Type} [Components α]

/-- Whether the transition is enabled in a state whose layout the caller
vouches for. -/
def enabledTrusted (t : Transition) (a : α) : Except Breach Bool := do
  if ← t.positive.allM (Proposition.evalTrusted a) then
    return !(← t.negative.anyM (Proposition.evalTrusted a))
  else
    return false

/-- Whether all propositions hold, up to the first that does not. -/
def allHold (a : α) : List Proposition → Except PropositionError Bool
  | [] => .ok true
  | p :: rest =>
      match p.evalChecked a with
      | .error e => .error e
      | .ok false => .ok false
      | .ok true => allHold a rest

/-- Whether no proposition holds, up to the first that does. -/
def noneHold (a : α) : List Proposition → Except PropositionError Bool
  | [] => .ok true
  | p :: rest =>
      match p.evalChecked a with
      | .error e => .error e
      | .ok true => .ok false
      | .ok false => noneHold a rest

/-- Whether the transition is enabled in a state; the first guard that is
needed and cannot be read is reported. -/
def enabledChecked (t : Transition) (a : α) : Except PropositionError Bool :=
  match allHold a t.positive with
  | .error e => .error e
  | .ok false => .ok false
  | .ok true => noneHold a t.negative

/-! ## Text -/

/-- The guards as they are shown, positive before negative. -/
def guardTexts (t : Transition) : List String :=
  t.positive.map (fun p => "(" ++ p.display ++ ")")
    ++ t.negative.map (fun p => "(not " ++ p.display ++ ")")

/-- What stands between the braces: nothing without guards. -/
def guardText (t : Transition) : String :=
  match t.guardTexts with
  | [] => ""
  | texts => "guard " ++ " && ".intercalate texts ++ ";"

/-- A transition as text: the two names joined by an arrow, then the guards
in braces. -/
def text (t : Transition) : String :=
  t.source ++ "->" ++ t.target ++ " \x7b" ++ t.guardText ++ "\x7d"

end Transition
end GridBuchi
