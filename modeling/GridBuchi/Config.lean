/-
# `GridBuchi.Config` — how a step is evaluated

`checkIndices` chooses between the two evaluators, `trace` whether product
steps are logged.  Both are off unless asked for.
-/

namespace GridBuchi

structure Config where
  checkIndices : Bool := false
  trace : Bool := false
deriving DecidableEq

end GridBuchi
