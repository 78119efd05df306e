/-
# `GridBuchi.Comparison` — comparing a grid value with a threshold

A state records, for each species, which cell of a threshold grid it lies
in, and a cell never lies *on* a threshold.  The strict and the non-strict
comparison therefore say the same of it: both `<` and `<=` hold below the
threshold, both `>` and `>=` from the threshold upwards.  They stay four
constructors because their codes and symbols differ.
-/
import GridBuchi.Failure

namespace GridBuchi

/-- One component of a state. -/
abbrev Word := UInt64

/-- How an armed proposition compares a component with its threshold. -/
inductive Comparison where
  | less
  | lessEqual
  | greater
  | greaterEqual
deriving DecidableEq

namespace Comparison

/-- Whether a grid value satisfies the comparison against a threshold. -/
def holds : Comparison → Word → Word → Bool
  | .less, value, threshold => value < threshold
  | .lessEqual, value, threshold => value < threshold
  | .greater, value, threshold => threshold ≤ value
  | .greaterEqual, value, threshold => threshold ≤ value

/-- How the comparison is written. -/
def symbol : Comparison → String
  | .less => "<"
  | .lessEqual => "<="
  | .greater => ">"
  | .greaterEqual => ">="

/-! ## Operator codes

Equality and inequality own the codes 114 and 117 but have no meaning on
cells, so these two codes decode to nothing, like any unknown one. -/

/-- The code a comparison has in compiled formulas. -/
def code : Comparison → Int
  | .less => 112
  | .lessEqual => 113
  | .greater => 115
  | .greaterEqual => 116

/-- The comparison with a given code. -/
def ofCode? (code : Int) : Option Comparison :=
  if code = 112 then some .less
  else if code = 113 then some .lessEqual
  else if code = 115 then some .greater
  else if code = 116 then some .greaterEqual
  else none

/-- Decoding finds exactly the comparison whose code it is given. -/
theorem ofCode?_eq_some_iff {n : Int} {c : Comparison} : ofCode? n = some c ↔ n = c.code := by
  constructor
  · intro h
    unfold ofCode? at h
    repeat' split at h
    all_goals simp_all
    all_goals subst h; rfl
  · rintro rfl
    cases c <;> rfl

/-- Decoding, with the code reported when it has no comparison. -/
def ofCode (n : Int) : Except PropositionError Comparison :=
  match ofCode? n with
  | some c => .ok c
  | none => .error (.unsupportedOperator n)

/-- The comparison that holds exactly where `c` does not.  Strictness does
not matter on cells, so the two ways down share one complement and so do the
two ways up. -/
def complement : Comparison → Comparison
  | .less => .greaterEqual
  | .lessEqual => .greaterEqual
  | .greater => .less
  | .greaterEqual => .less

theorem holds_complement (c : Comparison) (value threshold : Word) :
    c.complement.holds value threshold = !c.holds value threshold := by
  cases c <;> simp [complement, holds, ← UInt64.not_lt]

end Comparison
end GridBuchi
