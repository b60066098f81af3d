/-!
# Telemetry — levels

An event has a level and a listener a threshold; the listener hears the
events whose level does not exceed it. A listener without a threshold
hears nothing.
-/

namespace PageWarden

/-- How much an event matters, the gravest first. -/
inductive Level where
  | error
  | warn
  | info
  | debug
  | trace
deriving DecidableEq, Repr

namespace Level

/-- The place of a level in the order. -/
def rank : Level → Nat
  | error => 1
  | warn => 2
  | info => 3
  | debug => 4
  | trace => 5

/-- The level's name. -/
def name : Level → String
  | error => "error"
  | warn => "warn"
  | info => "info"
  | debug => "debug"
  | trace => "trace"

/-- The level's name at the start of a line. -/
def capitals : Level → String
  | error => "ERROR"
  | warn => "WARN"
  | info => "INFO"
  | debug => "DEBUG"
  | trace => "TRACE"

/-- The levels, the gravest first. -/
def all : List Level := [error, warn, info, debug, trace]

end Level

/-- The least grave level a listener hears; without one it hears nothing. -/
abbrev Threshold := Option Level

/-- Whether an event of the level is heard. -/
def Threshold.hears (t : Threshold) (l : Level) : Bool :=
  match t with
  | none => false
  | some least => l.rank ≤ least.rank

end PageWarden
