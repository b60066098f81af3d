import PageWarden.Scenario.Session
/-!
# Scenarios — the arena

Where the system chooses addresses, an address says little. The arena is
a stretch of memory whose addresses are named as they are; an address
outside it is named by its distance from one that an earlier step
answered. `References.resolve` turns names into addresses and
`References.render` addresses into names.
-/

namespace PageWarden

/-- An address by name. -/
inductive Location where
  | number (address : Nat)
  /-- `offset` bytes past what the step answered. -/
  | reference (step offset : Nat)
deriving DecidableEq, Repr

namespace Location

/-- Whether the address is named by a step. -/
def isReference : Location → Bool
  | number _ => false
  | reference .. => true

/-- Numbers come first, then references by step and distance. -/
def before : Location → Location → Bool
  | number a, number b => a ≤ b
  | number _, reference .. => true
  | reference .., number _ => false
  | reference s a, reference t b => s < t || (s == t && a ≤ b)

end Location

namespace Arena

/-- The first address of the arena proper. -/
def base : Nat := 0x1000000000

/-- The number of the arena's first page, sixteen below its base. -/
def firstPage : Nat := base / pageSize - 16

/-- How many pages the arena has. -/
def pageCount : Nat := 16 + 512

/-- The first address past the arena. -/
def limit : Nat := (firstPage + pageCount) * pageSize

/-- Whether an address lies in the arena. -/
def holds (address : Nat) : Bool := firstPage * pageSize ≤ address && address < limit

/-- The mapped pages of the arena as runs of equal protection. -/
def pages (t : PageTable) : List PageRun :=
  (t.restrict firstPage pageCount).runsBy fun p => (p.rights, none)

end Arena

/-- The addresses outside the arena that steps answered, with their steps,
the newest first. -/
structure References where
  answered : List (Nat × Nat) := []

namespace References

/-- The address a name stands for. A step that answered no such address
stands for the end of the arena. -/
def resolve (rs : References) : Location → Nat
  | .number a => a
  | .reference step offset => (rs.answered.lookup step).getD Arena.limit + offset

/-- The distance below which an address belongs to a reference. -/
def reach : Nat := 64 * pageSize

/-- The nearer of two references below an address; of equal ones the first. -/
def nearer (r s : Nat × Nat) : Nat × Nat := if r.2 < s.2 then s else r

/-- The reference an address belongs to: the highest that is not above it
and not too far below, the newest of equal ones. -/
def owner? (rs : References) (address : Nat) : Option (Nat × Nat) :=
  match rs.answered.filter fun r => r.2 ≤ address && address < r.2 + reach with
  | [] => none
  | r :: rest => some (rest.foldl nearer r)

/-- The name of an address. -/
def render (rs : References) (address : Nat) : Location :=
  if Arena.holds address then .number address
  else
    match rs.owner? address with
    | none => .number address
    | some (step, start) => .reference step (address - start)

/-- Notes what a step answered, if that lies outside the arena and is not
an address the step was given. -/
def note (rs : References) (step : Nat) (given : List Nat) (answer : Option Nat) :
    References :=
  match answer with
  | none => rs
  | some a =>
    if Arena.holds a || given.contains a then rs else ⟨(step, a) :: rs.answered⟩

end References

/-- The addresses a step names. -/
def RawStep.addresses {α : Type} : RawStep α → List α
  | .map a .. => [a]
  | .unmap a _ => [a]
  | .protect a .. => [a]
  | .move a _ _ _ b => [a, b]
  | .fill a .. => [a]
  | .copy a _ => [a]
  | .keyProtect a .. => [a]
  | .read a _ => [a]
  | _ => []

/-- The addresses a step names, the one it is about first. -/
def SessionStep.addresses {α : Type} : SessionStep α → List α
  | .create a .. => [a]
  | .remove a _ => [a]
  | .reprotect a .. => [a]
  | .relocate a _ _ _ b => [a, b]
  | .releaseExecuteOnly a _ => [a]
  | .lookup a => [a]
  | .raw s => s.addresses
  | _ => []

/-- The address an answer consists of. -/
def SessionAnswer.address? : SessionAnswer → Option Nat
  | .reply (.ok a) => a
  | .raw (.address a) => some a
  | _ => none

/-- A warden whose memory is seen through the arena. -/
structure ArenaRun where
  warden : Warden
  references : References := {}
  /-- The number of the next step. -/
  next : Nat := 0

namespace ArenaRun

/-- What one step brings to light. -/
structure Report where
  answer : SessionAnswer
  /-- The step named the address it is about by a reference. -/
  byReference : Bool
  events : List Event
  tracked : Nat
  records : List Record
  pages : List PageRun
  /-- The names that addresses have after the step. -/
  references : References

/-- The addresses that are looked up: every page of the arena, and sixteen
pages from each reference on. -/
def looked (rs : References) : List Nat :=
  (List.range' Arena.firstPage Arena.pageCount).map (· * pageSize) ++
    rs.answered.flatMap fun r => (List.range 16).map fun i => r.2 + i * pageSize

/-- The records found, by the names of their bases. -/
def found (w : Warden) (rs : References) : List Record :=
  (w.survey (looked rs)).mergeSort fun r s => (rs.render r.base).before (rs.render s.base)

/-- Does a step and looks around. -/
def step (a : ArenaRun) (s : SessionStep Location) : Report × ArenaRun :=
  let given := s.addresses.map a.references.resolve
  let done := { a.warden with machine := a.warden.machine.withoutJournal }.step
    (s.mapAddress a.references.resolve)
  let w := done.2
  let references := a.references.note a.next given done.1.address?
  ({ answer := done.1
     byReference := s.addresses.head?.any Location.isReference
     events := w.machine.events
     tracked := w.tracked
     records := found w references
     pages := Arena.pages w.machine.space.table
     references },
    { warden := w, references, next := a.next + 1 })

/-- Does steps one after another. -/
def run (a : ArenaRun) : List (SessionStep Location) → List Report
  | [] => []
  | s :: rest =>
    let done := a.step s
    done.1 :: done.2.run rest

/-- How an address is written in the words of a failure: not at all, if
the step named it by a reference. -/
def addressText (byReference : Bool) (address : Nat) : String :=
  if byReference then "<addr>" else Text.hex address

end ArenaRun

end PageWarden
