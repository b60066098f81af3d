import PageWarden.Record
/-!
# Scenarios — one record

Questions to a single record, and the two changes that need no machine.
A question about pages of size zero has no answer, and ends the run.
-/

namespace PageWarden

/-- A step with one record. -/
inductive RecordStep where
  | contains (address : Nat)
  | span (size : Nat)
  | stop (size : Nat)
  | protect (rights : Rights)
  | history
  | forgetWithin (start stop : Nat)

/-- What a step with one record answers. -/
inductive RecordAnswer where
  | nothing
  | truth (b : Bool)
  | number (n : Nat)
  | history (h : History)

/-- Does a step, unless it has no answer. -/
def Record.step (r : Record) : RecordStep → Option (RecordAnswer × Record)
  | .contains a => some (.truth (r.contains a), r)
  | .span size => (r.span? size).map fun n => (.number n, r)
  | .stop size => (r.stop? size).map fun n => (.number n, r)
  | .protect rights => some (.nothing, r.protect rights)
  | .history => some (.history r.history, r)
  | .forgetWithin start stop => some (.nothing, r.forgetWithin start stop)

/-- Does steps until one has no answer. -/
def Record.runSteps (r : Record) : List RecordStep → List (Option (RecordAnswer × Record))
  | [] => []
  | next :: rest =>
    match r.step next with
    | none => [none]
    | some done => some done :: done.2.runSteps rest

end PageWarden
