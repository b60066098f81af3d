import PageWarden.Rights
/-!
# The address space — requests

What a mapping call asks for. Of the flags of a mapping only three
matter here: whether the address is binding, whether it is binding but
must not replace anything, and whether the memory has no file behind it.
A move has two flags of its own.
-/

namespace PageWarden

/-- The flags of a mapping call. -/
structure MapFlags where
  bits : BitVec 32
deriving DecidableEq, Repr

namespace MapFlags

/-- The flags a signed word stands for. -/
def ofInt (word : Int) : MapFlags := ⟨BitVec.ofInt 32 word⟩

/-- The signed word the flags are passed as. -/
def toInt (f : MapFlags) : Int := f.bits.toInt

/-- What either side sets. -/
def union (f g : MapFlags) : MapFlags := ⟨f.bits ||| g.bits⟩

/-- A private mapping of a file. -/
def privateFile : MapFlags := ⟨0x2⟩

/-- A private mapping without a file. -/
def privateAnonymous : MapFlags := ⟨0x22⟩

/-- The address is binding. -/
def fixedAddress : MapFlags := ⟨0x10⟩

/-- A private mapping without a file at exactly the address, if it is free. -/
def guardPage : MapFlags := ⟨0x100022⟩

/-- The address is binding and what is there is replaced. -/
def fixed (f : MapFlags) : Bool := f.bits &&& 0x10 != 0

/-- The memory has no file behind it. -/
def anonymous (f : MapFlags) : Bool := f.bits &&& 0x20 != 0

/-- The address is binding and nothing is replaced. -/
def noReplace (f : MapFlags) : Bool := f.bits &&& 0x100000 != 0

/-- The flags as a system sees them that does not know `noReplace`. -/
def withoutNoReplace (f : MapFlags) : MapFlags := ⟨f.bits &&& ~~~0x100000⟩

end MapFlags

/-- The flags of a move. -/
structure MoveFlags where
  bits : BitVec 32
deriving DecidableEq, Repr

namespace MoveFlags

/-- The flags a signed word stands for. -/
def ofInt (word : Int) : MoveFlags := ⟨BitVec.ofInt 32 word⟩

/-- The signed word the flags are passed as. -/
def toInt (f : MoveFlags) : Int := f.bits.toInt

/-- The mapping may end up elsewhere. -/
def mayMove (f : MoveFlags) : Bool := f.bits &&& 0x1 != 0

/-- The new address is binding. -/
def fixed (f : MoveFlags) : Bool := f.bits &&& 0x2 != 0

end MoveFlags

/-- The arguments of a mapping call. -/
structure MapRequest where
  address : Nat
  length : Nat
  rights : Rights
  flags : MapFlags
  /-- The file behind the memory, read only if there is one. -/
  descriptor : Int
  offset : Int
deriving DecidableEq, Repr

namespace MapRequest

/-- A private mapping without a file, wherever the system likes. -/
def ofLength (length : Nat) (rights : Rights) : MapRequest :=
  ⟨0, length, rights, .privateAnonymous, -1, 0⟩

/-- A private mapping of a file, wherever the system likes. -/
def ofFile (descriptor offset : Int) (length : Nat) (rights : Rights) : MapRequest :=
  ⟨0, length, rights, .privateFile, descriptor, offset⟩

/-- The request at another address. -/
def atAddress (q : MapRequest) (address : Nat) : MapRequest := { q with address }

/-- The request with more flags. -/
def withFlags (q : MapRequest) (flags : MapFlags) : MapRequest :=
  { q with flags := q.flags.union flags }

/-- Whether the memory has no file behind it. -/
def isAnonymous (q : MapRequest) : Bool := q.flags.anonymous

end MapRequest

/-- The arguments of a move: the old range, the new length, and the new
address, which is read only with the flag that makes it binding. -/
structure MoveRequest where
  address : Nat
  length : Nat
  newLength : Nat
  flags : MoveFlags
  newAddress : Nat
deriving DecidableEq, Repr

end PageWarden
