import PageWarden.Warden.ExecuteOnly
import PageWarden.Warden.Request
/-!
# The warden — operations

Everything that can be asked of a warden, as one type, so that a run is a
list of operations. An operation answers the address it is about, or
nothing, or the failure.
-/

namespace PageWarden

/-- What can be asked of a warden. -/
inductive Operation where
  | create (request : MapRequest)
  | remove (address length : Nat)
  | reprotect (address length : Nat) (rights : Rights)
  | relocate (request : MoveRequest)
  | makeExecuteOnly (size : Nat) (code : List UInt8)
  | releaseExecuteOnly (address length : Nat)
  | teardown
deriving DecidableEq, Repr

/-- The answer to an operation: an address if it makes or moves memory. -/
abbrev Reply := Except Failure (Option Nat)

namespace Warden

/-- An address as a reply. -/
def located (a : Except Failure Nat × Warden) : Reply × Warden := (a.1.map some, a.2)

/-- The absence of an address as a reply. -/
def completed (a : Except Failure Unit × Warden) : Reply × Warden :=
  (a.1.map fun _ => none, a.2)

/-- Does one operation. -/
def perform (w : Warden) : Operation → Reply × Warden
  | .create q => located (w.create q)
  | .remove a l => completed (w.remove a l)
  | .reprotect a l r => completed (w.reprotect a l r)
  | .relocate q => located (w.relocate q)
  | .makeExecuteOnly s c => located (w.makeExecuteOnly s c)
  | .releaseExecuteOnly a l => completed (w.releaseExecuteOnly a l)
  | .teardown => (.ok none, w.teardown)

/-- Does operations one after another. -/
def run (w : Warden) (ops : List Operation) : Warden :=
  ops.foldl (fun w op => (w.perform op).2) w

@[simp] theorem run_nil (w : Warden) : w.run [] = w := rfl

@[simp] theorem run_cons (w : Warden) (op : Operation) (ops : List Operation) :
    w.run (op :: ops) = (w.perform op).2.run ops := rfl

/-- A run is cut anywhere. -/
theorem run_append (w : Warden) (ops more : List Operation) :
    w.run (ops ++ more) = (w.run ops).run more := by
  simp [run, List.foldl_append]

end Warden

end PageWarden
