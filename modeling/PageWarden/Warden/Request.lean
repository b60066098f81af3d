import PageWarden.Warden.Carve
/-!
# The warden — mapping requests

The four requests a program makes of its memory. Each is vetted where the
policy has a say, passed to the machine, and followed up in the store if
the machine agreed. Without the mapping cache there is nothing to follow
up.
-/

namespace PageWarden

namespace Warden

/-- Starts tracking a mapping that was just made. -/
def track (w : Warden) (address length : Nat) (rights : Rights) : Warden :=
  let w := w.carve address (address + roundUp length pageSize) none
  let r := Record.fresh address length rights
  let done := if w.config.guardPagesActive then Guard.placeAll w.machine r else (r, w.machine)
  let told := { w with machine := done.2 }.tell (.tracking address length rights)
  { told with store := (told.store.insert done.1).2 }

/-- Passes a mapping request to the machine. -/
def pass (w : Warden) (q : MapRequest) : Except Failure Nat × Warden :=
  match w.machine.map q with
  | (.ok address, machine) => (.ok address, { w with machine })
  | (.error errno, machine) => (.error (.callFailed "mmap" errno), { w with machine })

/-- Makes a mapping. One with a file behind it is neither vetted nor
tracked, though tracked memory it replaces is given up. Any other is
vetted, tracked, guarded and overwritten as the configuration says. -/
def create (w : Warden) (q : MapRequest) : Except Failure Nat × Warden :=
  if q.isAnonymous then
    match w.config.checkCreate q.address q.rights with
    | .error d => w.refuse "mmap" q.address q.length q.rights d
    | .ok () =>
      match w.pass q with
      | (.error f, w) => (.error f, w)
      | (.ok address, w) =>
        let w := if w.config.useMappingCache then w.track address q.length q.rights else w
        let w :=
          if w.config.poisons q.rights then
            { w with machine := w.machine.fill address q.length poisonByte }
          else w
        (.ok address, w)
  else
    match w.pass q with
    | (.error f, w) => (.error f, w)
    | (.ok address, w) =>
      (.ok address,
        if w.config.useMappingCache then
          w.carve address (address + roundUp q.length pageSize) none
        else w)

/-- Releases a range. The record at its start may be dropped, trimmed or
split, and its guards follow the new edges; other records lose what they
have in the range. -/
def remove (w : Warden) (address length : Nat) : Except Failure Unit × Warden :=
  match w.machine.unmap address length with
  | (.error errno, machine) => (.error (.callFailed "munmap" errno), { w with machine })
  | (.ok (), machine) =>
    let w := { w with machine }
    if w.config.useMappingCache then
      let stop := address + roundUp length pageSize
      let covering := w.store.find? address
      let carved := w.carve address stop covering
      match covering with
      | none => (.ok (), carved)
      | some h => (.ok (), carved.cut h address stop w.config.guardPagesActive)
    else (.ok (), w)

/-- Notes a successful protection change in a record, for the whole of it
even if only a part was changed. -/
def noteProtection (w : Warden) (h : Handle) (address length : Nat) (rights : Rights) :
    Warden :=
  match w.store.get? h with
  | none => w
  | some r =>
    let w :=
      if roundUp length pageSize = r.span pageSize then w
      else w.tell (.partialProtection address length r.length)
    let noted := r.protect rights
    { w with store := w.store.modify h fun _ => noted }.tell
      (.protectionUpdated r.base rights noted.granted)

/-- Changes the protection of a range. What is known of the record at its
start decides whether the transition rules allow it. -/
def reprotect (w : Warden) (address length : Nat) (rights : Rights) :
    Except Failure Unit × Warden :=
  let handle := if w.config.useMappingCache then w.store.find? address else none
  let history := (handle.bind w.store.get?).map Record.history
  match w.config.checkReprotect rights history with
  | .error d => w.refuse "mprotect" address length rights d
  | .ok () =>
    match w.machine.protect address length rights with
    | (.error errno, machine) => (.error (.callFailed "mprotect" errno), { w with machine })
    | (.ok (), machine) =>
      let w := { w with machine }
      match handle with
      | none => (.ok (), w)
      | some h => (.ok (), w.noteProtection h address length rights)

/-- Removes the guards of a record, so that they cannot stop it growing. -/
def liftGuards (w : Warden) (h : Handle) : Warden :=
  match w.store.get? h with
  | none => w
  | some r =>
    let bare := Guard.removeAll w.machine r
    { w with store := w.store.modify h fun _ => bare.1, machine := bare.2 }

/-- Puts back the guards a record had, where it still lies. -/
def restoreGuards (w : Warden) (h : Handle) (below above : Bool) : Warden :=
  match w.store.get? h with
  | none => w
  | some r =>
    let lower := if below then Guard.placeBelow w.machine r else (r, w.machine)
    let both := if above then Guard.placeAbove lower.2 lower.1 else lower
    { w with store := w.store.modify h fun _ => both.1, machine := both.2 }

/-- Takes a record along to where its mapping moved. -/
def follow (w : Warden) (h : Handle) (q : MoveRequest) (moved : Nat) : Warden :=
  match w.store.get? h with
  | none => w
  | some r =>
    let w :=
      if r.base = q.address ∧ r.span pageSize = roundUp q.length pageSize then w
      else w.tell (.partialMove q.address q.length r.base r.length)
    let homed := Guard.rehome w.machine r moved q.newLength w.config.guardPagesActive
    { w with store := w.store.modify h fun _ => homed.1, machine := homed.2 }.tell
      (.relocated q.address moved q.newLength)

/-- Moves or resizes a mapping while tracking: the guards of the record
at its start are lifted first, and put back if the move fails. -/
def relocateTracked (w : Warden) (q : MoveRequest) : Except Failure Nat × Warden :=
  let handle := w.store.find? q.address
  let record := handle.bind w.store.get?
  let lifted := match handle with
    | none => w
    | some h => w.liftGuards h
  match lifted.machine.move q with
  | (.error errno, machine) =>
    let w := { lifted with machine }
    (.error (.callFailed "mremap" errno),
      match handle with
      | none => w
      | some h =>
        w.restoreGuards h (record.any (·.guardBelow.isSome)) (record.any (·.guardAbove.isSome)))
  | (.ok moved, machine) =>
    let w :=
      { lifted with machine }.carve moved (moved + roundUp q.newLength pageSize) handle
    (.ok moved,
      match handle with
      | none => w
      | some h => w.follow h q moved)

/-- Moves or resizes a mapping. -/
def relocate (w : Warden) (q : MoveRequest) : Except Failure Nat × Warden :=
  if w.config.useMappingCache then w.relocateTracked q
  else
    match w.machine.move q with
    | (.error errno, machine) => (.error (.callFailed "mremap" errno), { w with machine })
    | (.ok moved, machine) => (.ok moved, { w with machine })

/-- Gives up every record and every key a record holds, ascending. Pages
and guards stay. -/
def teardown (w : Warden) : Warden :=
  let cleared := w.store.clear
  let keys := (cleared.1.filterMap Record.key).eraseDups.mergeSort
  let machine := keys.foldl Machine.keyFree w.machine
  { w with store := cleared.2, machine }.tell (.tornDown w.store.size)

end Warden

end PageWarden
