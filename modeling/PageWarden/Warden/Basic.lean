import PageWarden.Guard
import PageWarden.Policy.Check
import PageWarden.Store
/-!
# The warden

A warden stands before the machine's primitives. It vets each request by
its configuration, passes it on and, with the mapping cache on, keeps its
store of records and their guards in step with what the machine did. The
store is touched only after the primitive has succeeded.
-/

namespace PageWarden

/-- The configuration, the tracked mappings and the machine behind them. -/
structure Warden where
  config : Config
  store : Store := .empty
  machine : Machine

/-- The byte that fresh writable memory is overwritten with. -/
def poisonByte : UInt8 := 0xde

namespace Warden

/-- Tells an event. -/
def tell (w : Warden) (e : Event) : Warden := { w with machine := w.machine.tell e }

/-- A copy of the record that covers an address. -/
def lookup (w : Warden) (address : Nat) : Option Record := w.store.lookup address

/-- How many mappings are tracked. -/
def tracked (w : Warden) : Nat := w.store.size

/-- Refuses a request, and tells. -/
def refuse {α : Type} (w : Warden) (operation : String) (address length : Nat)
    (rights : Rights) (d : Denial) : Except Failure α × Warden :=
  (.error (.ofDenial d), w.tell (.denied operation address length rights d.violation d.fatal))

/-- Gives back the key of a record that has left the store and whose pages
are gone, unless a record of the store holds it as well. -/
def releaseKey (w : Warden) (r : Record) : Warden :=
  match r.key with
  | none => w
  | some key =>
    if w.store.records.any (·.key = some key) then w.tell (.keyShared key)
    else { w with machine := (w.machine.keyFree key).tell (.keyFreed key) }

end Warden

end PageWarden
