import PageWarden.Space.Basic
import PageWarden.Telemetry.Event
/-!
# The machine

A machine is an address space on a platform, with what may go wrong and
what has been done. Every primitive is called through it:

* the platform decides how much of a request the system understands
  (`Platform`);
* a scheduled fault makes a call fail without effect (`Faults`);
* each call is written to the journal with its outcome, and so are the
  events told in between, in the order they happened.

Without key calls the platform answers requests for keys itself, as one
that has none. Such answers are no calls: they leave no entry, and the
faults scheduled for them never come due.
-/

namespace PageWarden

/-- What the system understands of a request. -/
structure Platform where
  /-- A binding address that must not replace anything is honoured; else it is a hint. -/
  honoursNoReplace : Bool := true
  /-- There are calls for protection keys. -/
  hasKeyCalls : Bool := true
  /-- The open files, if mapping a file looks at them. -/
  openFiles : Option (List Int) := none
deriving DecidableEq, Repr

/-- The primitives that can be made to fail. -/
inductive Primitive where
  | map
  | unmap
  | protect
  | move
  | keyAlloc
  | keyProtect
deriving DecidableEq, Repr

/-- For each primitive what its next calls come to: an error number, or
nothing out of the ordinary. Calls past the end of a schedule pass. -/
def Faults := Primitive → List (Option Errno)

namespace Faults

/-- Nothing fails. -/
def never : Faults := fun _ => []

/-- The schedule with another list for one primitive. -/
def set (f : Faults) (p : Primitive) (calls : List (Option Errno)) : Faults :=
  fun q => if q = p then calls else f q

/-- The next `skip` calls of `p` pass and the `count` calls after them
fail; what was scheduled for `p` before is dropped. -/
def schedule (f : Faults) (p : Primitive) (errno : Errno) (skip count : Nat) : Faults :=
  f.set p (List.replicate skip none ++ List.replicate (max 1 count) (some errno))

/-- What the next call of `p` comes to, and the schedule after it. -/
def next (f : Faults) (p : Primitive) : Option Errno × Faults :=
  match f p with
  | [] => (none, f)
  | fault :: rest => (fault, f.set p rest)

end Faults

/-- A call of a primitive with its outcome. -/
inductive Call where
  | map (request : MapRequest) (outcome : Except Errno Nat)
  | unmap (address length : Nat) (outcome : Except Errno Unit)
  | protect (address length : Nat) (rights : Rights) (outcome : Except Errno Unit)
  | move (request : MoveRequest) (outcome : Except Errno Nat)
  | fill (address length : Nat) (byte : UInt8)
  | copy (address : Nat) (bytes : List UInt8)
  | keyAlloc (rights : KeyRights) (outcome : Except Errno Nat)
  | keyProtect (address length : Nat) (rights : Rights) (key : Nat)
      (outcome : Except Errno Unit)
  | keyRights (key : Nat) (answer : Option KeyRights)
  | keyFree (key : Nat)

/-- What the journal holds: calls, and events told between them. -/
inductive Entry where
  | call (c : Call)
  | event (e : Event)

/-- An address space on a platform, with its faults and its journal. -/
structure Machine where
  space : Space
  platform : Platform := {}
  faults : Faults := .never
  journal : List Entry := []

namespace Machine

/-- The calls of the journal, in order. -/
def calls (m : Machine) : List Call :=
  m.journal.filterMap fun | .call c => some c | .event _ => none

/-- The events of the journal, in order. -/
def events (m : Machine) : List Event :=
  m.journal.filterMap fun | .call _ => none | .event e => some e

/-- The machine with an empty journal. -/
def withoutJournal (m : Machine) : Machine := { m with journal := [] }

/-- Tells an event. -/
def tell (m : Machine) (e : Event) : Machine := { m with journal := m.journal ++ [.event e] }

/-- Calls a primitive that can be made to fail: if a fault is due the call
fails without effect, and either way it is written down. -/
def perform {α : Type} (m : Machine) (p : Primitive) (act : Space → Except Errno α × Space)
    (entry : Except Errno α → Call) : Except Errno α × Machine :=
  let due := m.faults.next p
  let done : Except Errno α × Space := match due.1 with
    | some errno => (.error errno, m.space)
    | none => act m.space
  (done.1,
    { m with
      space := done.2
      faults := due.2
      journal := m.journal ++ [.call (entry done.1)] })

/-- What is wrong with the file of a request, on a platform that looks at files. -/
def fileError (m : Machine) (q : MapRequest) : Option Errno :=
  match m.platform.openFiles with
  | none => none
  | some files =>
    if q.isAnonymous then none
    else if q.offset % pageSize ≠ 0 then some Errno.inval
    else if files.contains q.descriptor then none
    else some Errno.badf

/-- The flags of a request as the system sees them. -/
def seenFlags (m : Machine) (flags : MapFlags) : MapFlags :=
  if m.platform.honoursNoReplace then flags else flags.withoutNoReplace

/-- Maps pages. -/
def map (m : Machine) (q : MapRequest) : Except Errno Nat × Machine :=
  m.perform .map
    (fun s =>
      match m.fileError q with
      | some errno => (.error errno, s)
      | none => s.map q.address q.length q.rights (m.seenFlags q.flags))
    (.map q)

/-- Unmaps pages. -/
def unmap (m : Machine) (address length : Nat) : Except Errno Unit × Machine :=
  m.perform .unmap (fun s => s.unmap address length) (.unmap address length)

/-- Changes the protection of pages. -/
def protect (m : Machine) (address length : Nat) (rights : Rights) :
    Except Errno Unit × Machine :=
  m.perform .protect (fun s => s.protect address length rights) (.protect address length rights)

/-- Moves or resizes a mapping. -/
def move (m : Machine) (q : MoveRequest) : Except Errno Nat × Machine :=
  m.perform .move (fun s => s.move q) (.move q)

/-- Overwrites a range with one byte. -/
def fill (m : Machine) (address length : Nat) (byte : UInt8) : Machine :=
  { m with
    space := m.space.fill address length byte
    journal := m.journal ++ [.call (.fill address length byte)] }

/-- Copies bytes to an address. -/
def copy (m : Machine) (address : Nat) (bytes : List UInt8) : Machine :=
  { m with
    space := m.space.copy address bytes
    journal := m.journal ++ [.call (.copy address bytes)] }

/-- Allocates a key. -/
def keyAlloc (m : Machine) (rights : KeyRights) : Except Errno Nat × Machine :=
  if m.platform.hasKeyCalls then
    m.perform .keyAlloc (fun s => s.keyAlloc rights) (.keyAlloc rights)
  else (.error Errno.nosys, m)

/-- Changes the protection of pages and tags them with a key. -/
def keyProtect (m : Machine) (address length : Nat) (rights : Rights) (key : Nat) :
    Except Errno Unit × Machine :=
  if m.platform.hasKeyCalls then
    m.perform .keyProtect (fun s => s.keyProtect address length rights key)
      (.keyProtect address length rights key)
  else (.error Errno.nosys, m)

/-- The rights of a key, when the platform can tell. -/
def keyRights (m : Machine) (key : Nat) : Option KeyRights × Machine :=
  if m.platform.hasKeyCalls then
    let answer := m.space.keyRights key
    (answer, { m with journal := m.journal ++ [.call (.keyRights key answer)] })
  else (none, m)

/-- Gives a key back. -/
def keyFree (m : Machine) (key : Nat) : Machine :=
  if m.platform.hasKeyCalls then
    { m with space := m.space.keyFree key, journal := m.journal ++ [.call (.keyFree key)] }
  else m

end Machine

end PageWarden
