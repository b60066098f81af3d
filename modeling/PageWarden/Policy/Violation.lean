import PageWarden.Rights
import PageWarden.Text.Hex
/-!
# Policy — violations and denials

A request can break one of four rules. A denial names the rule and says
whether the process must end because of it.
-/

namespace PageWarden

/-- The rule a request broke. -/
inductive Violation where
  /-- Writing and executing asked for together. -/
  | writeExecute
  /-- An address chosen by the caller. -/
  | staticAddress (address : Nat)
  /-- Executing asked for on memory that was writable at some time. -/
  | transitionToExecute
  /-- Writing asked for on memory that was executable at some time. -/
  | transitionFromExecute
deriving DecidableEq, Repr

/-- The violation in words, with the address written by `address`. -/
def Violation.messageWith (address : Nat → String) : Violation → String
  | .writeExecute => "write+execute memory is disallowed"
  | .staticAddress a => "mapping at static address " ++ address a ++ " is disallowed"
  | .transitionToExecute => "memory that was writable cannot become executable"
  | .transitionFromExecute => "memory that was executable cannot become writable"

/-- The violation in words. -/
def Violation.message (v : Violation) : String := v.messageWith Text.hex

/-- A negative decision of the policy. -/
structure Denial where
  violation : Violation
  /-- The outermost caller must end the process. -/
  fatal : Bool
deriving DecidableEq, Repr

/-- What the policy knows of a mapping that is tracked already. -/
structure History where
  /-- The union of every protection the mapping was ever given. -/
  granted : Rights
  /-- Execute-only mappings are exempt from the transition rules. -/
  executeOnly : Bool
deriving DecidableEq, Repr

end PageWarden
