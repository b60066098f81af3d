import PageWarden.Failure
import PageWarden.KeyRights
import PageWarden.Space.Placement
import PageWarden.Space.Request
/-!
# The address space — its primitives

An address space is a page table with, where the platform has them,
protection keys. This file gives the primitives the system offers on it:
map, unmap, protect, move, allocate and use keys, and read and write
bytes.

Each primitive checks its arguments in a fixed order and answers with the
first error; what it does otherwise is one change of the table. One
primitive can fail after it has changed something: a move that finds no
room has taken its pages out already.

Reading or writing a byte that is not mapped stops the program. The space
records that in `Space.crashed`, and nothing it says afterwards counts.
-/

namespace PageWarden

/-- A process's memory. -/
structure Space where
  table : PageTable := .empty
  /-- Whether the platform has protection keys. -/
  hasKeys : Bool := false
  /-- The number of the next key. -/
  nextKey : Nat := 0
  /-- The allocated keys with the rights they were made with, ascending. -/
  keys : List (Nat × KeyRights) := []
  /-- A byte that is not mapped was read or written. -/
  crashed : Bool := false

namespace Space

/-- An empty space on a platform without keys. -/
def empty : Space := {}

/-- An empty space on a platform with keys, which are numbered from 1. -/
def emptyWithKeys : Space := { hasKeys := true, nextKey := 1 }

/-- How many keys can be allocated at a time. -/
def keyLimit : Nat := 15

/-! ## Mapping and unmapping -/

/-- The page a mapping of `count` pages starts on. An address is a mere
hint unless a flag makes it binding, and a hint that is not aligned or not
free is ignored. -/
def choosePage (s : Space) (address count : Nat) (flags : MapFlags) : Except Errno Nat :=
  if flags.noReplace then
    if ¬ Aligned address then .error Errno.inval
    else if s.table.isFree (pageOf address) count then .ok (pageOf address)
    else .error Errno.exist
  else if flags.fixed then
    if Aligned address then .ok (pageOf address) else .error Errno.inval
  else if address ≠ 0 ∧ Aligned address ∧ s.table.isFree (pageOf address) count then
    .ok (pageOf address)
  else
    match s.table.topmostGap count with
    | some first => .ok first
    | none => .error Errno.nomem

/-- Maps zeroed pages and answers their address. -/
def map (s : Space) (address length : Nat) (rights : Rights) (flags : MapFlags) :
    Except Errno Nat × Space :=
  if length = 0 then (.error Errno.inval, s)
  else
    match s.choosePage address (pagesFor length) flags with
    | .error e => (.error e, s)
    | .ok first =>
      (.ok (first * pageSize),
        { s with table := s.table.fill first (pagesFor length) (.fresh rights) })

/-- Unmaps whatever is mapped in a range. -/
def unmap (s : Space) (address length : Nat) : Except Errno Unit × Space :=
  if ¬ Aligned address ∨ length = 0 then (.error Errno.inval, s)
  else (.ok (), { s with table := s.table.erase (pageOf address) (pagesFor length) })

/-- Changes the protection of a range that is mapped throughout. -/
def protect (s : Space) (address length : Nat) (rights : Rights) : Except Errno Unit × Space :=
  if ¬ Aligned address then (.error Errno.inval, s)
  else if ¬ s.table.allMapped (pageOf address) (pagesFor length) then (.error Errno.nomem, s)
  else
    (.ok (),
      { s with
        table := s.table.update (pageOf address) (pagesFor length) fun _ p => { p with rights } })

/-! ## Moving -/

/-- The pages of a moved mapping: the old ones as far as they reach, then
untagged zeroed ones with the protection of the last. -/
def movedBlock (pages : List Page) (newCount : Nat) : List Page :=
  let rights := (pages.getLast?.map Page.rights).getD .noAccess
  pages.take newCount ++ List.replicate (newCount - pages.length) (.fresh rights)

/-- The space after the `count` pages from `first` on have become the
`newCount` pages from `target` on, over whatever was mapped there. -/
def carry (s : Space) (first count newCount target : Nat) : Space :=
  { s with
    table := (s.table.erase first count).splice target
      (movedBlock (s.table.slice first count) newCount) }

/-- Moves or resizes a mapping of one protection and one key. Without a
binding new address it stays in place if it shrinks or if the pages behind
it are free; a new page has the protection of the last old one and no key. -/
def move (s : Space) (q : MoveRequest) : Except Errno Nat × Space :=
  let first := pageOf q.address
  let count := pagesFor q.length
  let newCount := pagesFor q.newLength
  if ¬ Aligned q.address ∨ q.newLength = 0 then (.error Errno.inval, s)
  else if ¬ (s.table.allMapped first count ∧ s.table.isUniform first count) then
    (.error Errno.fault, s)
  else if q.flags.fixed then
    if ¬ q.flags.mayMove ∨ ¬ Aligned q.newAddress then (.error Errno.inval, s)
    else (.ok q.newAddress, s.carry first count newCount (pageOf q.newAddress))
  else if newCount ≤ count then
    (.ok q.address, { s with table := s.table.erase (first + newCount) (count - newCount) })
  else if s.table.isFree (first + count) (newCount - count) then
    match s.table.get? (first + count - 1) with
    | some last =>
      (.ok q.address,
        { s with table := s.table.fill (first + count) (newCount - count) (.fresh last.rights) })
    | none => (.error Errno.fault, { s with crashed := true })
  else if ¬ q.flags.mayMove then (.error Errno.nomem, s)
  else
    let bare := s.table.erase first count
    match bare.topmostGap newCount with
    | none => (.error Errno.nomem, { s with table := bare })
    | some target => (.ok (target * pageSize), s.carry first count newCount target)

/-! ## Keys -/

/-- Allocates the next key with the given rights. -/
def keyAlloc (s : Space) (rights : KeyRights) : Except Errno Nat × Space :=
  if ¬ s.hasKeys then (.error Errno.nosys, s)
  else if keyLimit ≤ s.keys.length then (.error Errno.nospc, s)
  else (.ok s.nextKey, { s with nextKey := s.nextKey + 1, keys := s.keys ++ [(s.nextKey, rights)] })

/-- The rights an allocated key was made with. -/
def keyRights (s : Space) (key : Nat) : Option KeyRights := s.keys.lookup key

/-- Gives a key back; one that is not allocated is ignored. -/
def keyFree (s : Space) (key : Nat) : Space :=
  { s with keys := s.keys.filter fun k => k.1 ≠ key }

/-- Changes the protection of a range and tags its pages with an allocated
key. A range that does not start on a page is not mapped, unless it is
empty. -/
def keyProtect (s : Space) (address length : Nat) (rights : Rights) (key : Nat) :
    Except Errno Unit × Space :=
  if s.keyRights key = none then (.error Errno.inval, s)
  else if length = 0 then (.ok (), s)
  else if ¬ Aligned address ∨ ¬ s.table.allMapped (pageOf address) (pagesFor length) then
    (.error Errno.nomem, s)
  else
    (.ok (),
      { s with
        table := s.table.update (pageOf address) (pagesFor length)
          fun _ p => { p with rights, key := some key } })

/-! ## Bytes -/

/-- How many pages the bytes of a range touch. -/
def touched (address length : Nat) : Nat :=
  if length = 0 then 0 else pageOf (address + length - 1) + 1 - pageOf address

/-- Writes `length` bytes at `address`, the byte at distance `i` being
`source i`. -/
def write (s : Space) (address length : Nat) (source : Nat → UInt8) : Space :=
  if s.table.allMapped (pageOf address) (touched address length) then
    { s with
      table := s.table.update (pageOf address) (touched address length) fun n p =>
        { p with bytes := fun i =>
            let a := n * pageSize + i
            if address ≤ a ∧ a < address + length then source (a - address) else p.bytes i } }
  else { s with crashed := true }

/-- Overwrites a range with one byte. -/
def fill (s : Space) (address length : Nat) (byte : UInt8) : Space :=
  s.write address length fun _ => byte

/-- Copies bytes to an address. -/
def copy (s : Space) (address : Nat) (bytes : List UInt8) : Space :=
  s.write address bytes.length fun i => bytes[i]?.getD 0

/-- The byte at an address, if it is mapped. -/
def byte? (s : Space) (address : Nat) : Option UInt8 :=
  (s.table.get? (pageOf address)).map fun p =>
    p.bytes ⟨address % pageSize, Nat.mod_lt _ pageSize_pos⟩

/-- The bytes of a range, if all of them are mapped. -/
def read? (s : Space) (address length : Nat) : Option (List UInt8) :=
  (List.range length).mapM fun i => s.byte? (address + i)

end Space

end PageWarden
