import PageWarden.Machine
/-!
# Scenarios — raw calls

A raw call goes to the machine past every policy and every record. It is
written to the journal and can be made to fail like any other call. Two
raw steps are no calls: reading bytes, and scheduling faults.

Steps name addresses by a type of their own, so that the same steps serve
where addresses are numbers and where they are references.
-/

namespace PageWarden

/-- A raw step, with addresses of type `α`. -/
inductive RawStep (α : Type) where
  | map (address : α) (length : Nat) (rights : Rights) (flags : MapFlags)
      (descriptor offset : Int)
  | unmap (address : α) (length : Nat)
  | protect (address : α) (length : Nat) (rights : Rights)
  | move (address : α) (length newLength : Nat) (flags : MoveFlags) (newAddress : α)
  | fill (address : α) (length : Nat) (byte : UInt8)
  | copy (address : α) (bytes : List UInt8)
  | keyAlloc (rights : KeyRights)
  | keyProtect (address : α) (length : Nat) (rights : Rights) (key : Nat)
  | keyRights (key : Nat)
  | keyFree (key : Nat)
  | read (address : α) (length : Nat)
  | fault (call : Primitive) (errno : Errno) (skip count : Nat)

/-- What a raw step answers. -/
inductive RawAnswer where
  /-- The step is done. -/
  | done
  | address (a : Nat)
  | key (k : Nat)
  | rights (r : Option KeyRights)
  /-- The bytes read, or nothing if one of them is not mapped. -/
  | bytes (bs : Option (List UInt8))
  | errno (e : Errno)

namespace RawStep

/-- The step with every address changed by `f`. -/
def mapAddress {α β : Type} (f : α → β) : RawStep α → RawStep β
  | .map a l r fl d o => .map (f a) l r fl d o
  | .unmap a l => .unmap (f a) l
  | .protect a l r => .protect (f a) l r
  | .move a l n fl b => .move (f a) l n fl (f b)
  | .fill a l b => .fill (f a) l b
  | .copy a bs => .copy (f a) bs
  | .keyAlloc r => .keyAlloc r
  | .keyProtect a l r k => .keyProtect (f a) l r k
  | .keyRights k => .keyRights k
  | .keyFree k => .keyFree k
  | .read a l => .read (f a) l
  | .fault c e s n => .fault c e s n

end RawStep

namespace RawAnswer

/-- Whether the answer is that a byte to be read is not mapped. -/
def isUnmapped : RawAnswer → Bool
  | .bytes none => true
  | _ => false

/-- What comes of a call that answers something. -/
def ofOutcome {β : Type} (f : β → RawAnswer) (o : Except Errno β × Machine) :
    RawAnswer × Machine :=
  match o.1 with
  | .ok b => (f b, o.2)
  | .error e => (.errno e, o.2)

end RawAnswer

/-- Does a raw step. -/
def Machine.raw (m : Machine) : RawStep Nat → RawAnswer × Machine
  | .map a l r fl d o => RawAnswer.ofOutcome .address (m.map ⟨a, l, r, fl, d, o⟩)
  | .unmap a l => RawAnswer.ofOutcome (fun _ => .done) (m.unmap a l)
  | .protect a l r => RawAnswer.ofOutcome (fun _ => .done) (m.protect a l r)
  | .move a l n fl b => RawAnswer.ofOutcome .address (m.move ⟨a, l, n, fl, b⟩)
  | .fill a l b => (.done, m.fill a l b)
  | .copy a bs => (.done, m.copy a bs)
  | .keyAlloc r => RawAnswer.ofOutcome .key (m.keyAlloc r)
  | .keyProtect a l r k => RawAnswer.ofOutcome (fun _ => .done) (m.keyProtect a l r k)
  | .keyRights k =>
    let answer := m.keyRights k
    (.rights answer.1, answer.2)
  | .keyFree k => (.done, m.keyFree k)
  | .read a l => (.bytes (m.space.read? a l), m)
  | .fault c e s n => (.done, { m with faults := m.faults.schedule c e s n })

end PageWarden
