import PageWarden.Guard
import PageWarden.Scenario.Raw
import PageWarden.Space.Runs
/-!
# Scenarios — guard pages

Guard pages of loose records: the records are in no store and need not be
mapped, and steps name them by the order they were added in.
-/

namespace PageWarden

/-- A step with guard pages. -/
inductive GuardStep where
  | record (r : Record)
  | placeBelow (nth : Nat)
  | placeAbove (nth : Nat)
  | placeAll (nth : Nat)
  | removeBelow (nth : Nat)
  | removeAbove (nth : Nat)
  | removeAll (nth : Nat)
  | rehome (nth base length : Nat) (guarded : Bool)
  | forgetWithin (nth start stop : Nat)
  | raw (step : RawStep Nat)

/-- A machine with loose records. -/
structure GuardRun where
  machine : Machine
  records : List Record := []

namespace GuardRun

/-- Changes a record and the machine together. -/
def change (g : GuardRun) (nth : Nat) (f : Machine → Record → Record × Machine) : GuardRun :=
  match g.records[nth]? with
  | none => g
  | some r =>
    let done := f g.machine r
    { machine := done.2, records := g.records.set nth done.1 }

/-- Does a step. -/
def step (g : GuardRun) : GuardStep → RawAnswer × GuardRun
  | .record r => (.done, { g with records := g.records ++ [r] })
  | .placeBelow n => (.done, g.change n Guard.placeBelow)
  | .placeAbove n => (.done, g.change n Guard.placeAbove)
  | .placeAll n => (.done, g.change n Guard.placeAll)
  | .removeBelow n => (.done, g.change n Guard.removeBelow)
  | .removeAbove n => (.done, g.change n Guard.removeAbove)
  | .removeAll n => (.done, g.change n Guard.removeAll)
  | .rehome n b l guarded => (.done, g.change n fun m r => Guard.rehome m r b l guarded)
  | .forgetWithin n start stop => (.done, g.change n fun m r => (r.forgetWithin start stop, m))
  | .raw s =>
    let done := g.machine.raw s
    (done.1, { g with machine := done.2 })

/-- What one step brings to light. -/
structure Report where
  answer : RawAnswer
  calls : List Call
  events : List Event
  pages : List PageRun
  records : List Record

/-- Does steps until one reads or writes a byte that is not mapped. -/
def run (g : GuardRun) : List GuardStep → List (Option Report)
  | [] => []
  | next :: rest =>
    let done := { g with machine := g.machine.withoutJournal }.step next
    let m := done.2.machine
    if m.space.crashed || done.1.isUnmapped then [none]
    else
      some
        { answer := done.1
          calls := m.calls
          events := m.events
          pages := m.space.table.runs
          records := done.2.records } :: done.2.run rest

end GuardRun

end PageWarden
