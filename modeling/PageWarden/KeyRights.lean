/-!
# Key rights

A protection key tags pages, and each thread holds two bits for it: one
disables every data access, the other disables writing. Only the pair
without the first bit lets anything through, so three rights suffice.

A key is owned by whoever must give it back; ownership passes on as the
key's number.
-/

namespace PageWarden

/-- What a thread may do with the data of pages tagged by a key. -/
inductive KeyRights where
  /-- Reading and writing. -/
  | enableAccessWrite
  /-- Neither. -/
  | disableAccess
  /-- Reading only. -/
  | disableWrite
deriving DecidableEq, Repr

namespace KeyRights

/-- The value the rights are passed as. -/
def value : KeyRights → Nat
  | enableAccessWrite => 0
  | disableAccess => 1
  | disableWrite => 2

/-- The rights as a reader sees them. -/
def display : KeyRights → String
  | enableAccessWrite => "Enable Access and Write"
  | disableAccess => "Disable Access"
  | disableWrite => "Disable Write"

/-- Reads the two lowest bits of a register word: a set access bit
outweighs the write bit, and the bits of other keys are ignored. -/
def ofRegister (word : Nat) : KeyRights :=
  match word % 4 with
  | 0 => enableAccessWrite
  | 2 => disableWrite
  | _ => disableAccess

end KeyRights

/-- A key that someone owns and must give back. -/
structure ProtectionKey where
  number : Nat
deriving DecidableEq, Repr

namespace ProtectionKey

/-- Takes over a key by its number. -/
def ofRaw (number : Nat) : ProtectionKey := ⟨number⟩

/-- Hands the key on as its number. -/
def toRaw (k : ProtectionKey) : Nat := k.number

end ProtectionKey

end PageWarden
