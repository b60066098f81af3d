import PageWarden.Telemetry.Filter
import PageWarden.Warden.Operation
/-!
# A process with the warden in it

A program's calls go through the warden from the moment it is loaded.
Calls made before that, and calls made while another call is under way,
go to the system directly: they see no policy and no record, and
execute-only memory cannot be had or released that way.

A program sees of a failure only its error number. A fatal denial is told
and ends the process instead.
-/

namespace PageWarden

/-- Where the code for execute-only memory comes from. -/
inductive CodeSource (α : Type) where
  /-- Bytes of the program. -/
  | bytes (bs : List UInt8)
  /-- Memory that is read when the code is copied. The address 0 is no memory. -/
  | memory (address : α) (length : Nat)

/-- A call of a program, with addresses of type `α`. -/
inductive ProcessCall (α : Type) where
  | map (address : α) (length : Nat) (rights : Rights) (flags : MapFlags)
      (descriptor offset : Int)
  | unmap (address : α) (length : Nat)
  | protect (address : α) (length : Nat) (rights : Rights)
  | move (address : α) (length newLength : Nat) (flags : MoveFlags) (newAddress : α)
  | makeExecuteOnly (size : Nat) (source : CodeSource α)
  | releaseExecuteOnly (address : α) (length : Nat)
  /-- Reads bytes past any protection. -/
  | read (address : α) (length : Nat)

/-- What comes of a call. -/
inductive ProcessAnswer where
  | address (a : Except Failure Nat)
  | status (s : Except Failure Unit)
  | bytes (bs : Option (List UInt8))

namespace ProcessAnswer

/-- The failure in an answer. -/
def failure? : ProcessAnswer → Option Failure
  | address (.error f) => some f
  | status (.error f) => some f
  | _ => none

/-- The address in an answer. -/
def address? : ProcessAnswer → Option Nat
  | address (.ok a) => some a
  | _ => none

end ProcessAnswer

namespace ProcessCall

/-- The new address of a move, which is read only if it is binding. -/
def bindingAddress (flags : MoveFlags) (address : Nat) : Nat :=
  if flags.fixed then address else 0

/-- The failure of a call that names no memory as its source. -/
def nullSource : Failure := .invalidRequest "null source"

/-- The outcome of a primitive as that of a call. -/
def failed {α : Type} (call : String) (o : Except Errno α × Machine) :
    Except Failure α × Machine :=
  (o.1.mapError (Failure.callFailed call), o.2)

end ProcessCall

/-- A call that goes to the system directly. -/
def Machine.direct (m : Machine) : ProcessCall Nat → ProcessAnswer × Machine
  | .map a l r fl d o =>
    let done := ProcessCall.failed "mmap" (m.map ⟨a, l, r, fl, d, o⟩)
    (.address done.1, done.2)
  | .unmap a l =>
    let done := ProcessCall.failed "munmap" (m.unmap a l)
    (.status done.1, done.2)
  | .protect a l r =>
    let done := ProcessCall.failed "mprotect" (m.protect a l r)
    (.status done.1, done.2)
  | .move a l n fl b =>
    let request := ⟨a, l, n, fl, ProcessCall.bindingAddress fl b⟩
    let done := ProcessCall.failed "mremap" (m.move request)
    (.address done.1, done.2)
  | .makeExecuteOnly _ (.memory 0 _) => (.address (.error ProcessCall.nullSource), m)
  | .makeExecuteOnly _ _ => (.address (.error .cacheDisabled), m)
  | .releaseExecuteOnly a _ => (.status (.error (.notTracked a)), m)
  | .read a l => (.bytes (m.space.read? a l), m)

/-- Direct calls one after another, with the memory each one leaves. -/
def Machine.directs (m : Machine) :
    List (ProcessCall Nat) → List (ProcessAnswer × PageTable) × Machine
  | [] => ([], m)
  | call :: rest =>
    let done := m.direct call
    let after := done.2.directs rest
    ((done.1, done.2.space.table) :: after.1, after.2)

/-- What comes of a call through the warden: the answer, the answers to
the calls made while it was under way, and the warden. -/
structure Hooked where
  answer : ProcessAnswer
  nested : List (ProcessAnswer × PageTable) := []
  warden : Warden

/-- Makes execute-only memory out of memory. If the source is not mapped
when the code is to be copied, the program handles that by calls of its
own, which go to the system directly; without the source even then, the
program stops. -/
def Warden.copyExecuteOnly (w : Warden) (size address length : Nat)
    (handler : List (ProcessCall Nat)) : Hooked :=
  match w.reserve size length with
  | (.error f, w) => { answer := .address (.error f), warden := w }
  | (.ok target, w) =>
    let handled :=
      if (w.machine.space.read? address length).isSome then ([], w.machine)
      else w.machine.directs handler
    let w := { w with machine := handled.2 }
    match w.machine.space.read? address length with
    | none =>
      let space := { w.machine.space with crashed := true }
      { answer := .address (.error (.callFailed "memcpy" Errno.fault))
        nested := handled.1
        warden := { w with machine := { w.machine with space } } }
    | some code =>
      let done := w.enclose target size code
      { answer := .address done.1, nested := handled.1, warden := done.2 }

/-- A call through the warden. The handler is for sources that are not mapped. -/
def Warden.hooked (w : Warden) (handler : List (ProcessCall Nat)) : ProcessCall Nat → Hooked
  | .map a l r fl d o =>
    let done := w.create ⟨a, l, r, fl, d, o⟩
    { answer := .address done.1, warden := done.2 }
  | .unmap a l =>
    let done := w.remove a l
    { answer := .status done.1, warden := done.2 }
  | .protect a l r =>
    let done := w.reprotect a l r
    { answer := .status done.1, warden := done.2 }
  | .move a l n fl b =>
    let done := w.relocate ⟨a, l, n, fl, ProcessCall.bindingAddress fl b⟩
    { answer := .address done.1, warden := done.2 }
  | .makeExecuteOnly _ (.memory 0 _) =>
    { answer := .address (.error ProcessCall.nullSource), warden := w }
  | .makeExecuteOnly size (.bytes code) =>
    let done := w.makeExecuteOnly size code
    { answer := .address done.1, warden := done.2 }
  | .makeExecuteOnly size (.memory a l) => w.copyExecuteOnly size a l handler
  | .releaseExecuteOnly a l =>
    let done := w.releaseExecuteOnly a l
    { answer := .status done.1, warden := done.2 }
  | .read a l => { answer := .bytes (w.machine.space.read? a l), warden := w }

/-- The warden as it is loaded into a process: configured by the
environment, and telling of switches that are on in vain. -/
def Warden.load (m : Machine) (config : Config) : Warden :=
  let m := config.warnings.foldl (fun m words => m.tell (.warning words)) m
  { config, machine := m.tell (.loaded config) }

/-- The lines a process writes about events: none without telemetry, and
else those its filter lets through. -/
def Config.lines (c : Config) (f : Filter) (es : List Event) : List String :=
  if c.enableTelemetry then (es.filter f.hears).map Event.line else []

end PageWarden
