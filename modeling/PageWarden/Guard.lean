import PageWarden.Machine
import PageWarden.Record
/-!
# Guard pages

A guard is an inaccessible page right below or right above a mapping.
Placement is best effort: the page is asked for at exactly its address,
without replacing anything, and if something lives there already the
record goes without. A system that does not know the binding flag may put
the page elsewhere; such a page is dropped at once.

A guard field of a record is an address of a page that is mapped as its
guard. Removing a guard clears the field and unmaps the page.
-/

namespace PageWarden

namespace Guard

/-- The request for a guard at an address. -/
def request (address : Nat) : MapRequest :=
  ⟨address, pageSize, .noAccess, .guardPage, -1, 0⟩

/-- Maps a guard at an address, and answers the address if it lies there. -/
def place (m : Machine) (address : Nat) : Option Nat × Machine :=
  match m.map (request address) with
  | (.ok got, m) =>
    if got = address then (some got, m.tell (.guardMapped got))
    else (none, (m.unmap got pageSize).2.tell (.guardElsewhere address got))
  | (.error errno, m) => (none, m.tell (.guardRefused address errno))

/-- Unmaps the guard at an address. -/
def lift (m : Machine) (address : Nat) : Machine :=
  match m.unmap address pageSize with
  | (.ok (), m) => m.tell (.guardUnmapped address)
  | (.error errno, m) => m.tell (.guardStuck address errno)

/-! ## The guards of a record -/

/-- Guards the page below the record, unless one is there or there is no
page below. -/
def placeBelow (m : Machine) (r : Record) : Record × Machine :=
  if r.guardBelow.isSome || r.base < pageSize then (r, m)
  else
    let placed := place m (pageFloor (r.base - 1) pageSize)
    ({ r with guardBelow := placed.1 }, placed.2)

/-- Guards the first page past the record, unless one is there. -/
def placeAbove (m : Machine) (r : Record) : Record × Machine :=
  if r.guardAbove.isSome then (r, m)
  else
    let placed := place m (r.stop pageSize)
    ({ r with guardAbove := placed.1 }, placed.2)

/-- Guards the record on both sides, below first. -/
def placeAll (m : Machine) (r : Record) : Record × Machine :=
  let below := placeBelow m r
  placeAbove below.2 below.1

/-- Removes the guard below the record. -/
def removeBelow (m : Machine) (r : Record) : Record × Machine :=
  match r.guardBelow with
  | some address => ({ r with guardBelow := none }, lift m address)
  | none => (r, m)

/-- Removes the guard above the record. -/
def removeAbove (m : Machine) (r : Record) : Record × Machine :=
  match r.guardAbove with
  | some address => ({ r with guardAbove := none }, lift m address)
  | none => (r, m)

/-- Removes both guards, below first. -/
def removeAll (m : Machine) (r : Record) : Record × Machine :=
  let below := removeBelow m r
  removeAbove below.2 below.1

/-- Moves the record to another range. The old guards go before the range
changes, so the fields never mix old and new places. -/
def rehome (m : Machine) (r : Record) (base length : Nat) (guarded : Bool) :
    Record × Machine :=
  let bare := removeAll m r
  let moved := { bare.1 with base, length }
  if guarded then placeAll bare.2 moved else (moved, bare.2)

end Guard

end PageWarden
