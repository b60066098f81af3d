import PageWarden.Process
import PageWarden.Scenario.Arena
/-!
# Scenarios — a process from start to end

A process makes some calls before the warden is loaded and some after.
Its memory is seen through the arena, and a step may come with calls that
are made when a source of code turns out not to be mapped. A fatal denial
ends the process: the step and those after it have no answer. A filter cut
inside a character ends it while the warden is loaded.
-/

namespace PageWarden

namespace CodeSource

/-- The source with its address changed by `f`. -/
def mapAddress {α β : Type} (f : α → β) : CodeSource α → CodeSource β
  | bytes bs => .bytes bs
  | memory a l => .memory (f a) l

end CodeSource

namespace ProcessCall

/-- The call with every address changed by `f`. -/
def mapAddress {α β : Type} (f : α → β) : ProcessCall α → ProcessCall β
  | .map a l r fl d o => .map (f a) l r fl d o
  | .unmap a l => .unmap (f a) l
  | .protect a l r => .protect (f a) l r
  | .move a l n fl b => .move (f a) l n fl (f b)
  | .makeExecuteOnly size source => .makeExecuteOnly size (source.mapAddress f)
  | .releaseExecuteOnly a l => .releaseExecuteOnly (f a) l
  | .read a l => .read (f a) l

/-- The addresses a call names as places for memory. -/
def addresses {α : Type} : ProcessCall α → List α
  | .map a .. => [a]
  | .unmap a _ => [a]
  | .protect a .. => [a]
  | .move a _ _ _ b => [a, b]
  | .releaseExecuteOnly a _ => [a]
  | .read a _ => [a]
  | .makeExecuteOnly .. => []

end ProcessCall

/-- A call, with the calls made when its source is not mapped. -/
structure ProcessStep where
  call : ProcessCall Location
  handler : Option (List (ProcessCall Location)) := none

/-- What a process does. -/
structure ProcessPlan where
  environment : List (String × ByteArray)
  early : List ProcessStep
  steps : List ProcessStep

/-- A process under way. -/
structure ProcessRun where
  warden : Warden
  loaded : Bool := false
  references : References := {}
  /-- The number of the next step. -/
  next : Nat := 0

namespace ProcessRun

/-- What one step brings to light. -/
structure Report where
  answer : ProcessAnswer
  pages : List PageRun
  /-- The answers to nested calls, if the step provides for them. -/
  nested : Option (List (ProcessAnswer × List PageRun))
  /-- The names that addresses have after the step. -/
  references : References

/-- What a whole process brings to light. -/
structure Outcome where
  early : List Report
  steps : List Report
  /-- The process ended before it was through. -/
  aborted : Bool
  lines : List String

/-- Makes a call, through the warden if it is loaded. -/
def call (p : ProcessRun) (handler : List (ProcessCall Nat)) (c : ProcessCall Nat) : Hooked :=
  if p.loaded then p.warden.hooked handler c
  else
    let done := p.warden.machine.direct c
    { answer := done.1, warden := { p.warden with machine := done.2 } }

/-- Does a step, and answers nothing if it ends the process. -/
def step (p : ProcessRun) (s : ProcessStep) : Option Report × ProcessRun :=
  let resolve := p.references.resolve
  let given := s.call.addresses.map resolve
  let handler := (s.handler.getD []).map (ProcessCall.mapAddress resolve)
  let done := p.call handler (s.call.mapAddress resolve)
  let references := p.references.note p.next given done.answer.address?
  let after := { p with warden := done.warden, references, next := p.next + 1 }
  match done.answer.failure?.filter Failure.isFatal with
  | some f => (none, { after with warden := done.warden.tell (.aborting f) })
  | none =>
    (some
      { answer := done.answer
        pages := Arena.pages done.warden.machine.space.table
        nested := s.handler.map fun _ => done.nested.map fun n => (n.1, Arena.pages n.2)
        references }, after)

/-- Does steps until one ends the process, and says whether one did. -/
def advance (p : ProcessRun) : List ProcessStep → List Report × Bool × ProcessRun
  | [] => ([], false, p)
  | s :: rest =>
    match p.step s with
    | (none, p) => ([], true, p)
    | (some r, p) =>
      let after := p.advance rest
      (r :: after.1, after.2)

/-- The machine a process runs on: one without keys, where one file is open. -/
def machine : Machine :=
  { space := .empty, platform := { hasKeyCalls := false, openFiles := some [100] } }

/-- Runs a process from start to end. One that is to tell of events but
can have no filter ends while the warden is loaded. -/
def run (plan : ProcessPlan) : Outcome :=
  let config := Config.ofEnvironment plan.environment
  let filter :=
    Filter.forProcess? ((plan.environment.lookup "MAPGUARD_LOG").bind String.fromUTF8?)
  let start : ProcessRun := { warden := { config, machine } }
  let early := start.advance plan.early
  if config.enableTelemetry && filter.isNone then
    { early := early.1, steps := [], aborted := true, lines := [] }
  else
    let before := early.2.2
    let loaded := { before with warden := .load before.warden.machine config, loaded := true }
    let steps := loaded.advance plan.steps
    { early := early.1
      steps := steps.1
      aborted := steps.2.1
      lines := config.lines (filter.getD .standard) steps.2.2.warden.machine.events }

end ProcessRun

end PageWarden
