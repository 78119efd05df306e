/-
# `GridBuchi.Session.Literal` — values as a command writes them down

A command says which value it means either by naming a slot, which stands
for a copy of what the slot holds, or by writing the value out.  Writing a
proposition or a state out can fail like making one can.  Literals are valued
left to right, the positive guards of a transition before the negative ones,
and the first failure ends it; valuing changes nothing.
-/
import GridBuchi.Session

namespace GridBuchi

inductive PropositionLiteral where
  | slot (name : String)
  | truth
  | caption (text : String)
  | compare (test : Test) (text : String)
  | code (index : Nat) (code : Int) (threshold : Word) (text : String)

inductive StateLiteral where
  | slot (name : String)
  | lowest (dim : Nat)
  | plain (row : List Word)
  | product (row : List Word) (location : LocationId)

inductive TransitionLiteral where
  | slot (name : String)
  | unconditional (source target : String)
  | guarded (source target : String) (positive negative : List PropositionLiteral)

open SessionM

def PropositionLiteral.value : PropositionLiteral → SessionM Proposition
  | .slot name => SessionM.slot Session.propositions name
  | .truth => return Proposition.truth
  | .caption text => return .trivial text
  | .compare test text => attempt .breach (Proposition.compare test text)
  | .code index n threshold text =>
      attempt (Failure.map .proposition) (Proposition.ofCode index n threshold text)

/-- The values of a list of literals, in order. -/
def PropositionLiteral.values : List PropositionLiteral → SessionM (List Proposition)
  | [] => return []
  | l :: rest => do
      let p ← l.value
      let ps ← PropositionLiteral.values rest
      return p :: ps

def StateLiteral.value : StateLiteral → SessionM State
  | .slot name => SessionM.slot Session.states name
  | .lowest dim => attempt .breach (State.lowest dim)
  | .plain row => return State.ofSpecies row
  | .product row location => return State.product row location

/-- The values of a list of literals, in order. -/
def StateLiteral.values : List StateLiteral → SessionM (List State)
  | [] => return []
  | l :: rest => do
      let s ← l.value
      let ss ← StateLiteral.values rest
      return s :: ss

def TransitionLiteral.value : TransitionLiteral → SessionM Transition
  | .slot name => SessionM.slot Session.transitions name
  | .unconditional source target => return Transition.unconditional source target
  | .guarded source target positive negative => do
      let positive ← PropositionLiteral.values positive
      let negative ← PropositionLiteral.values negative
      return { source, target, positive, negative }

end GridBuchi
