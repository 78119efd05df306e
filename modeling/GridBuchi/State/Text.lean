/-
# `GridBuchi.State.Text` — states as text

Two renderings.  `State.text` lists the species in brackets; `State.display`
labels each with its registered name, or with `#` and its position where
the registry has no name for it.  Both end in ` @` and the location for a
product state, and in nothing for a plain one.
-/
import GridBuchi.State
import GridBuchi.Registry

namespace GridBuchi.State

/-- The ending that tells a product state from a plain one. -/
def locationText : Option LocationId → String
  | none => ""
  | some l => " @" ++ l.toNat.repr

/-- For example `[2, 0, 1] @1`. -/
def text (s : State) : String :=
  "[" ++ ", ".intercalate (s.species.map (fun w => w.toNat.repr)) ++ "]"
    ++ locationText s.location?

/-- One species with its label.  The registry is asked by id, the bare label
shows the position itself. -/
def entryText (r : Registry) (i : Nat) (w : Word) : String :=
  (match r.name? (Names.idAt i) with
    | some name => name
    | none => "#" ++ i.repr) ++ "=" ++ w.toNat.repr

/-- For example `cI=2, cro=0, #2=1 @1`. -/
def display (r : Registry) (s : State) : String :=
  ", ".intercalate (s.species.mapIdx (entryText r)) ++ locationText s.location?

end GridBuchi.State
