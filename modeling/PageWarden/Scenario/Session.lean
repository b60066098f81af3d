import PageWarden.Scenario.Raw
import PageWarden.Space.Runs
import PageWarden.Warden.Operation
/-!
# Scenarios — a session with a warden

A session is a warden over an address space of its own, asked one thing
after another. After each step one can see the answer, the calls and the
events the step brought about, and the state: how many mappings are
tracked, which pages are mapped, which keys are allocated, and the records
one finds by looking up every page that was ever handed out.
-/

namespace PageWarden

/-- A step of a session, with addresses of type `α`. -/
inductive SessionStep (α : Type) where
  | create (address : α) (length : Nat) (rights : Rights) (flags : MapFlags)
      (descriptor offset : Int)
  | remove (address : α) (length : Nat)
  | reprotect (address : α) (length : Nat) (rights : Rights)
  | relocate (address : α) (length newLength : Nat) (flags : MoveFlags) (newAddress : α)
  | makeExecuteOnly (size : Nat) (code : List UInt8)
  | releaseExecuteOnly (address : α) (length : Nat)
  | teardown
  | lookup (address : α)
  | policy
  | pageSize
  | raw (step : RawStep α)

/-- What a step of a session answers. -/
inductive SessionAnswer where
  | reply (r : Reply)
  | record (r : Option Record)
  | policy (c : Config)
  | number (n : Nat)
  | raw (a : RawAnswer)

/-- Whether the answer is that a byte to be read is not mapped. -/
def SessionAnswer.isUnmapped : SessionAnswer → Bool
  | .raw a => a.isUnmapped
  | _ => false

namespace SessionStep

/-- The step with every address changed by `f`. -/
def mapAddress {α β : Type} (f : α → β) : SessionStep α → SessionStep β
  | .create a l r fl d o => .create (f a) l r fl d o
  | .remove a l => .remove (f a) l
  | .reprotect a l r => .reprotect (f a) l r
  | .relocate a l n fl b => .relocate (f a) l n fl (f b)
  | .makeExecuteOnly s c => .makeExecuteOnly s c
  | .releaseExecuteOnly a l => .releaseExecuteOnly (f a) l
  | .teardown => .teardown
  | .lookup a => .lookup (f a)
  | .policy => .policy
  | .pageSize => .pageSize
  | .raw s => .raw (s.mapAddress f)

end SessionStep

/-- Does an operation, as a step. -/
def Warden.answer (w : Warden) (op : Operation) : SessionAnswer × Warden :=
  let done := w.perform op
  (.reply done.1, done.2)

/-- Does a step. -/
def Warden.step (w : Warden) : SessionStep Nat → SessionAnswer × Warden
  | .create a l r fl d o => w.answer (.create ⟨a, l, r, fl, d, o⟩)
  | .remove a l => w.answer (.remove a l)
  | .reprotect a l r => w.answer (.reprotect a l r)
  | .relocate a l n fl b => w.answer (.relocate ⟨a, l, n, fl, b⟩)
  | .makeExecuteOnly s c => w.answer (.makeExecuteOnly s c)
  | .releaseExecuteOnly a l => w.answer (.releaseExecuteOnly a l)
  | .teardown => w.answer .teardown
  | .lookup a => (.record (w.lookup a), w)
  | .policy => (.policy w.config, w)
  | .pageSize => (.number PageWarden.pageSize, w)
  | .raw s =>
    let done := w.machine.raw s
    (.raw done.1, { w with machine := done.2 })

/-- The records found at the given addresses, by ascending base. Of two
with the same base the one found first counts. -/
def Warden.survey (w : Warden) (addresses : List Nat) : List Record :=
  let found := addresses.filterMap w.lookup
  let bases := (found.map Record.base).eraseDups.mergeSort
  bases.filterMap fun b => found.find? (·.base = b)

/-- The range a successful call handed out, as first page and count. -/
def Call.handedOut : Call → Option (Nat × Nat)
  | .map q (.ok address) => some (pageOf address, pagesFor q.length)
  | .move q (.ok address) => some (pageOf address, pagesFor q.newLength)
  | _ => none

/-- A warden with a memory of every page that was handed out. -/
structure Session where
  warden : Warden
  /-- The numbers of the pages handed out so far, ascending. -/
  seen : List Nat := []

namespace Session

/-- What one step brings to light. -/
structure Report where
  answer : SessionAnswer
  calls : List Call
  events : List Event
  tracked : Nat
  pages : List PageRun
  keys : List Nat
  records : List Record

/-- Does a step and looks around. Nothing is reported of a step that read
or wrote a byte that is not mapped: the program stopped there. -/
def step (s : Session) (next : SessionStep Nat) : Option Report × Session :=
  let done := { s.warden with machine := s.warden.machine.withoutJournal }.step next
  let w := done.2
  let handed := w.machine.calls.filterMap Call.handedOut
  let fresh := handed.flatMap fun r => List.range' r.1 r.2
  let seen :=
    if fresh.isEmpty then s.seen else (fresh ++ s.seen).eraseDups.mergeSort
  (if w.machine.space.crashed || done.1.isUnmapped then none
    else some
      { answer := done.1
        calls := w.machine.calls
        events := w.machine.events
        tracked := w.tracked
        pages := w.machine.space.table.runs
        keys := w.machine.space.keys.map Prod.fst
        records := w.survey (seen.map (· * pageSize)) },
    { warden := w, seen })

/-- Does steps until one stops the program. -/
def run (s : Session) : List (SessionStep Nat) → List (Option Report)
  | [] => []
  | next :: rest =>
    match s.step next with
    | (none, _) => [none]
    | (some report, s) => some report :: s.run rest

end Session

end PageWarden
