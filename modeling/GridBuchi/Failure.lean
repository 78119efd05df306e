/-
# `GridBuchi.Failure` — what can go wrong, named by its cause

An operation of this library can be turned down in two different ways, and
the difference is who is to blame.

* It **reports** an error: the arguments were anticipated and refused, and
  the caller is told why.  `PropositionError` and `AutomatonError` are the
  causes.
* It meets a **breach**: the caller had vouched for something that does not
  hold — that an index lies inside a state, that a text is not empty, that
  there can be a state of the size asked for.  The operation was entitled not
  to look.

Keeping the two apart in the types is what lets the trusting and the
checking evaluators be compared: they differ in nothing but the side on
which a read outside the state comes out.  The wording stands in the
`message` functions of this module and nowhere else.
-/

namespace GridBuchi

/-- Why a proposition is refused. -/
inductive PropositionError where
  /-- No comparison has this operator code. -/
  | unsupportedOperator (code : Int)
  /-- A checked read met a component index outside the state. -/
  | indexOutOfBounds (index len : Nat)
  /-- An armed proposition needs a text to be shown by. -/
  | emptyText
deriving DecidableEq

/-- Why an operation on an automaton is refused. -/
inductive AutomatonError where
  /-- No location has this name. -/
  | unknownLocation (name : String)
  /-- The id lies beyond the `count` locations there are. -/
  | invalidLocation (id : UInt32) (count : Nat)
  /-- A plain state stands where a product state is needed. -/
  | missingLocation
  /-- A guard could not be evaluated. -/
  | proposition (e : PropositionError)
deriving DecidableEq

/-- A promise of the caller that does not hold. -/
inductive Breach where
  /-- A trusted read at `index` of a row of `len` components. -/
  | readOutside (len index : Nat)
  /-- A write at `index` of a state with `dim` species. -/
  | writeOutside (index dim : Nat)
  /-- A proposition armed with an empty text. -/
  | emptyText
  /-- A state with more species than memory can be addressed for. -/
  | capacityOverflow
deriving DecidableEq

/-- The two ways of being turned down: an error of kind `ε` is reported, or
a promise of the caller turns out to be broken. -/
inductive Failure (ε : Type) where
  | reported (e : ε)
  | breach (b : Breach)
deriving DecidableEq

/-- Re-labels a reported error; a breach carries over as it is. -/
def Failure.map {ε ε' : Type} (f : ε → ε') : Failure ε → Failure ε'
  | .reported e => .reported (f e)
  | .breach b => .breach b

/-! ## Wording -/

def PropositionError.message : PropositionError → String
  | .unsupportedOperator code =>
      "unsupported comparison operator code " ++ toString code
  | .indexOutOfBounds index len =>
      "component index " ++ index.repr ++ " out of bounds for state of length " ++ len.repr
  | .emptyText => "atomic proposition text must not be empty"

/-- A guard's error keeps its own wording. -/
def AutomatonError.message : AutomatonError → String
  | .unknownLocation name => "unknown property location '" ++ name ++ "'"
  | .invalidLocation id count =>
      "property location id " ++ id.toNat.repr ++ " out of range (" ++ count.repr ++ " locations)"
  | .missingLocation => "state has no property location"
  | .proposition e => e.message

def Breach.message : Breach → String
  | .readOutside len index =>
      "index out of bounds: the len is " ++ len.repr ++ " but the index is " ++ index.repr
  | .writeOutside index dim =>
      "species index " ++ index.repr ++ " out of range (" ++ dim.repr ++ ")"
  | .emptyText => "atomic proposition text must not be empty"
  | .capacityOverflow => "capacity overflow"

end GridBuchi
