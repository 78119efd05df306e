/-
# `GridBuchi.Proposition` — atomic propositions over threshold grids

An atomic proposition is either trivially true or *armed* with a test of one
component against a threshold.  The text an armed proposition is shown by
comes from whoever compiled it and is kept as given; it is never rebuilt from
the test, and it is never empty, which the type records.  A trivial
proposition carries a caption, any text at all, and is shown as `true`
whatever that caption says.

There are two evaluators.  `evalTrusted` reads the component at once and
breaches when it lies outside the state; `evalChecked` asks first and reports
the index.
-/
import GridBuchi.Components

namespace GridBuchi

/-- A comparison of the component at `index` with a threshold. -/
structure Test where
  index : Nat
  comparison : Comparison
  threshold : Word
deriving DecidableEq

/-- An atomic proposition. -/
inductive Proposition where
  /-- Holds everywhere; the caption is kept but not shown. -/
  | trivial (caption : String)
  /-- Holds where the test does. -/
  | armed (test : Test) (text : String) (text_ne : text ≠ "")
deriving DecidableEq

namespace Proposition

/-! ## Construction -/

/-- The trivial proposition with the caption it has by default. -/
def truth : Proposition := .trivial "true"

/-- An armed proposition.  The caller vouches that the text is not empty. -/
def compare (test : Test) (text : String) : Except Breach Proposition :=
  if h : text = "" then .error .emptyText else .ok (.armed test text h)

/-- An armed proposition from an operator code.  The code is looked at before
the text, and an empty text is reported, so `compare` is never handed one. -/
def ofCode (index : Nat) (code : Int) (threshold : Word) (text : String) :
    Except (Failure PropositionError) Proposition :=
  match Comparison.ofCode code with
  | .error e => .error (.reported e)
  | .ok c =>
      if text = "" then .error (.reported .emptyText)
      else (compare ⟨index, c, threshold⟩ text).mapError .breach

/-! ## Views -/

/-- The test of an armed proposition. -/
def test? : Proposition → Option Test
  | .trivial _ => none
  | .armed t _ _ => some t

def isTrivial : Proposition → Bool
  | .trivial _ => true
  | .armed _ _ _ => false

/-- The stored text: the caption of a trivial proposition, the text of an
armed one. -/
def text : Proposition → String
  | .trivial caption => caption
  | .armed _ text _ => text

/-- What a proposition is shown as. -/
def display : Proposition → String
  | .trivial _ => "true"
  | .armed _ text _ => text

/-! ## Evaluation -/

variable {α : Type} [Components α]

/-- Evaluates at a state whose layout the caller vouches for. -/
def evalTrusted (a : α) : Proposition → Except Breach Bool
  | .trivial _ => .ok true
  | .armed t _ _ =>
      match Components.read a t.index with
      | .ok w => .ok (t.comparison.holds w t.threshold)
      | .error b => .error b

/-- Evaluates at any state; a component that is not there is reported. -/
def evalChecked (a : α) : Proposition → Except PropositionError Bool
  | .trivial _ => .ok true
  | .armed t _ _ =>
      match Components.read? a t.index with
      | some w => .ok (t.comparison.holds w t.threshold)
      | none => .error (.indexOutOfBounds t.index (Components.count a))

end Proposition
end GridBuchi
