import PageWarden.Warden.Basic
/-!
# The warden — execute-only memory

Code is copied into a fresh writable mapping, which then loses every
right but executing. Where there are keys, its pages are tagged with one
that disables data access, so that not even their owner reads them back;
otherwise the protection alone must do.

Making such memory has two stages: `Warden.reserve` checks the request and
maps the pages, `Warden.enclose` copies the code and seals them. Between
the two the code may still be produced. Releasing it has two as well: the
memory is given up by `Warden.surrender`, and only then its key.
-/

namespace PageWarden

namespace Warden

/-- Checks a request for execute-only memory and maps it writable. -/
def reserve (w : Warden) (size codeLength : Nat) : Except Failure Nat × Warden :=
  if ¬ w.config.useMappingCache then (.error .cacheDisabled, w)
  else if codeLength = 0 then (.error (.invalidRequest "empty source"), w)
  else if size < codeLength then
    (.error (.invalidRequest "source is larger than the mapping"), w)
  else
    match w.machine.map (.ofLength size .readWrite) with
    | (.error errno, machine) => (.error (.callFailed "mmap" errno), { w with machine })
    | (.ok address, machine) => (.ok address, { w with machine })

/-- Whether an error of key allocation means that there is no key to be had. -/
def keyless (errno : Errno) : Bool :=
  errno = Errno.nosys || errno = Errno.inval || errno = Errno.nospc

/-- Takes reading and writing from a fresh mapping, and answers the key
that now isolates it, if there is one. -/
def sealPages (m : Machine) (address size : Nat) : Except Failure (Option Nat) × Machine :=
  match m.keyAlloc .disableAccess with
  | (.ok key, m) =>
    match m.keyProtect address size .exec key with
    | (.ok (), m) => (.ok (some key), m)
    | (.error errno, m) => (.error (.keyProtectFailed errno), m.keyFree key)
  | (.error errno, m) =>
    if keyless errno then
      match m.protect address size .exec with
      | (.ok (), m) => (.ok none, m)
      | (.error errno, m) => (.error (.callFailed "mprotect" errno), m)
    else (.error (.keyAllocFailed errno), m)

/-- The rights a key isolates with, as far as the machine can tell. -/
def isolation (m : Machine) (key : Option Nat) : KeyRights × Machine :=
  match key with
  | none => (.disableAccess, m)
  | some k =>
    let answer := m.keyRights k
    (answer.1.getD .disableAccess, answer.2)

/-- Copies code into a reserved mapping, seals it and tracks it. If it
cannot be sealed it is unmapped again. -/
def enclose (w : Warden) (address size : Nat) (code : List UInt8) :
    Except Failure Nat × Warden :=
  match sealPages (w.machine.copy address code) address size with
  | (.error f, m) => (.error f, { w with machine := (m.unmap address size).2 })
  | (.ok key, m) =>
    let isolated := isolation m key
    let r := { Record.fresh address size .exec with executeOnly := some ⟨key, isolated.1⟩ }
    let done :=
      if w.config.guardPagesActive then Guard.placeAll isolated.2 r else (r, isolated.2)
    let told :=
      { w with machine := done.2 }.tell (.executeOnlyCreated address size code.length key)
    (.ok address, { told with store := (told.store.insert done.1).2 })

/-- Makes `size` bytes of execute-only memory that begin with `code`. -/
def makeExecuteOnly (w : Warden) (size : Nat) (code : List UInt8) :
    Except Failure Nat × Warden :=
  match w.reserve size code.length with
  | (.error f, w) => (.error f, w)
  | (.ok address, w) => w.enclose address size code

/-- Gives execute-only memory up as a whole, whatever length is named: guards,
record and pages. It answers the record, whose key is still to be given
back. -/
def surrender (w : Warden) (address length : Nat) : Except Failure Record × Warden :=
  if ¬ w.config.useMappingCache then (.error .cacheDisabled, w)
  else
    match w.store.find? address with
    | none => (.error (.notTracked address), w)
    | some h =>
      match w.store.remove h with
      | none => (.error (.notTracked address), w)
      | some (r, store) =>
        if r.executeOnly.isNone then
          (.error (.invalidRequest "not an execute-only mapping"), w)
        else
          let bare := Guard.removeAll w.machine r
          let w := { w with store, machine := bare.2 }
          let w :=
            if length = r.length then w
            else w.tell (.releasingWhole address length r.length)
          match w.machine.unmap r.base r.length with
          | (.error errno, machine) =>
            (.error (.callFailed "munmap" errno), { w with machine })
          | (.ok (), machine) => (.ok r, { w with machine })

/-- Releases execute-only memory, and then its key unless another part holds
it. A key stays if the pages could not be unmapped. -/
def releaseExecuteOnly (w : Warden) (address length : Nat) : Except Failure Unit × Warden :=
  match w.surrender address length with
  | (.error f, w) => (.error f, w)
  | (.ok r, w) => (.ok (), w.releaseKey r)

end Warden

end PageWarden
