import PageWarden.KeyRights
import PageWarden.Pages
import PageWarden.Policy.Violation
/-!
# Mapping records

What is remembered of one tracked mapping: where it lies, every
protection it was ever given, its present one, its two guard pages and,
for execute-only memory, the key its pages are tagged with.

A record knows its length in bytes, while the system maps whole pages:
`Record.span` and `Record.stop` round up, `Record.contains` does not.
-/

namespace PageWarden

/-- How execute-only memory is isolated. -/
structure ExecuteOnly where
  /-- The key its pages carry, if there was one to be had. -/
  key : Option Nat
  rights : KeyRights
deriving DecidableEq, Repr

/-- One tracked mapping. -/
structure Record where
  base : Nat
  length : Nat
  /-- The union of every protection ever applied. -/
  granted : Rights
  current : Rights
  guardBelow : Option Nat := none
  guardAbove : Option Nat := none
  executeOnly : Option ExecuteOnly := none
deriving DecidableEq, Repr

namespace Record

/-- A fresh mapping, whose history is the protection it was made with. -/
def fresh (base length : Nat) (rights : Rights) : Record :=
  { base, length, granted := rights, current := rights }

/-- The first address past the bytes asked for. -/
def limit (r : Record) : Nat := r.base + r.length

/-- Whether `address` is the base or a byte of the mapping. An empty
mapping still contains its base. -/
def contains (r : Record) (address : Nat) : Bool :=
  address == r.base || (r.base < address && address < r.limit)

/-- The length in whole pages of the given size. -/
def span (r : Record) (size : Nat) : Nat := roundUp r.length size

/-- The first address past the whole pages of the given size. -/
def stop (r : Record) (size : Nat) : Nat := r.base + r.span size

/-- The length in whole pages, if there are pages of that size at all. -/
def span? (r : Record) (size : Nat) : Option Nat :=
  if size = 0 then none else some (r.span size)

/-- The first address past the whole pages, if there are pages of that size at all. -/
def stop? (r : Record) (size : Nat) : Option Nat :=
  if size = 0 then none else some (r.stop size)

/-- The record after a successful change of protection. -/
def protect (r : Record) (rights : Rights) : Record :=
  { r with current := rights, granted := r.granted.union rights }

/-- What the policy may know of the mapping. -/
def history (r : Record) : History := ⟨r.granted, r.executeOnly.isSome⟩

/-- The key the mapping's pages carry. -/
def key (r : Record) : Option Nat := r.executeOnly.bind (·.key)

/-- Whether a guard page lies in `[start, stop)`. -/
def guardWithin (guard : Option Nat) (start stop : Nat) : Bool :=
  guard.any fun g => start ≤ g && g < stop

/-- The record without the guards that lie in `[start, stop)`: the range
was replaced or released, and the guards went with it. -/
def forgetWithin (r : Record) (start stop : Nat) : Record :=
  { r with
    guardBelow := if guardWithin r.guardBelow start stop then none else r.guardBelow
    guardAbove := if guardWithin r.guardAbove start stop then none else r.guardAbove }

/-! ## What a change leaves alone -/

/-- A change of protection loses no bit of the history. -/
theorem granted_protect_has (r : Record) (rights : Rights) :
    (r.protect rights).granted.has r.granted = true :=
  Rights.union_has_left _ _

@[simp] theorem base_forgetWithin (r : Record) (start stop : Nat) :
    (r.forgetWithin start stop).base = r.base := rfl

end Record

end PageWarden
