import PageWarden.Scenario.Arena
/-!
# Scenarios — a trial of protection keys

What must hold of protection keys whether or not the machine has any. A
mapping is protected twice with a key of its own, which is given back in
between; where there is no key, it is protected without one. The report
says what was seen, and where no key was had a statement about it holds
of nothing.
-/

namespace PageWarden

namespace KeyTrial

/-- A key that no machine has. -/
def strayKey : ProtectionKey := .ofRaw 4096

/-- One protection of a range: the key, the rights it was seen to have,
and what became of it. -/
structure Pass where
  key : Option Nat
  seen : Option KeyRights
  outcome : Except Errno Unit

/-- Protects a range with a fresh key, which is given back, or without. -/
def protect (m : Machine) (address length : Nat) (rights : Rights) (held : KeyRights) :
    Pass × Machine :=
  match m.keyAlloc held with
  | (.ok key, m) =>
    let seen := m.keyRights key
    let done := seen.2.keyProtect address length rights key
    (⟨some key, seen.1, done.1⟩, done.2.keyFree key)
  | (.error _, m) =>
    let done := m.protect address length rights
    (⟨none, none, done.1⟩, done.2)

/-- Whether a pass had no key, or saw it with the rights it was made with. -/
def Pass.sound (p : Pass) (rights : KeyRights) : Bool :=
  p.key.isNone || p.seen.isNone || p.seen = some rights

/-- Whether two outcomes are of one kind. -/
def sameOutcome : Except Errno Unit → Except Errno Unit → Bool
  | .ok _, .ok _ => true
  | .error e, .error f => e = f
  | _, _ => false

/-- Allocates keys until there are none left or `bound` were had, and
counts them. -/
def exhaust (m : Machine) : Nat → Nat
  | 0 => 0
  | bound + 1 =>
    match m.keyAlloc .disableAccess with
    | (.ok _, m) => exhaust m bound + 1
    | (.error _, _) => 0

/-- What was seen of the keys. -/
structure Report where
  mapped : Except Errno Nat
  outcome : Except Errno Unit
  pages : List PageRun
  /-- Handing a key on and taking it over keeps its number. -/
  roundTrip : Bool
  /-- Each pass saw its key with the rights it was made with. -/
  rightsMatch : Bool
  /-- The second pass had the number of the first and the same outcome. -/
  reused : Bool
  /-- Protecting memory that is not mapped fails as it does without keys. -/
  unmappedFails : Bool
  /-- There are fewer than sixteen keys. -/
  exhausts : Bool
  /-- Protecting with a key nobody has fails. -/
  strayFails : Bool

/-- The trial on a machine: a range at the arena's base, protected once
with a key of each of the two rights. -/
def run (m : Machine) (first again : KeyRights) (length : Nat) (rights : Rights) : Report :=
  let flags := MapFlags.privateAnonymous.union .fixedAddress
  let mapped := m.map ⟨Arena.base, length, .readWrite, flags, -1, 0⟩
  let one := protect mapped.2 Arena.base length rights first
  let two := protect one.2 Arena.base length rights again
  let m := two.2
  let past := protect m Arena.limit length rights first
  { mapped := mapped.1
    outcome := one.1.outcome
    pages := Arena.pages m.space.table
    roundTrip := one.1.key.all fun k =>
      (ProtectionKey.ofRaw (ProtectionKey.ofRaw k).toRaw).number = k
    rightsMatch := one.1.sound first && two.1.sound again
    reused := one.1.key = two.1.key && sameOutcome one.1.outcome two.1.outcome
    unmappedFails := sameOutcome past.1.outcome (.error Errno.nomem)
    exhausts := exhaust m 16 < 16
    strayFails :=
      match (m.keyProtect Arena.base length rights strayKey.number).1 with
      | .ok _ => false
      | .error _ => true }

end KeyTrial

end PageWarden
