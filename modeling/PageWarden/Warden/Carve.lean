import PageWarden.Warden.Basic
/-!
# The warden — taking ranges out of records

When pages are released or replaced, the records that cover them lose
them. A record that lies in the range is dropped, one that reaches out of
it on one side is trimmed, and one that reaches out on both sides is
split; both parts then share the key, which goes with the last of them.

`Warden.cut` does this to one record, `Warden.carve` to every record that
meets the range, except the one its caller sees to.
-/

namespace PageWarden

namespace Warden

/-- Drops a record: guards, key, and the record itself. -/
def dropRecord (w : Warden) (h : Handle) (r : Record) : Warden :=
  match w.store.remove h with
  | none => w
  | some (_, store) =>
    let bare := Guard.removeAll w.machine r
    ({ w with store, machine := bare.2 }.releaseKey bare.1).tell (.untracked r.base)

/-- Moves the start of a record up to `stop`. -/
def trimHead (w : Warden) (h : Handle) (r : Record) (stop : Nat) (guarded : Bool) : Warden :=
  let bare := Guard.removeBelow w.machine r
  let rest := { bare.1 with base := stop, length := r.limit - stop }
  let done := if guarded then Guard.placeBelow bare.2 rest else (rest, bare.2)
  { w with store := w.store.modify h fun _ => done.1, machine := done.2 }.tell
    (.trimmedHead stop rest.length)

/-- Moves the end of a record down to `start`. -/
def trimTail (w : Warden) (h : Handle) (r : Record) (start : Nat) (guarded : Bool) : Warden :=
  let bare := Guard.removeAbove w.machine r
  let rest := { bare.1 with length := start - r.base }
  let done := if guarded then Guard.placeAbove bare.2 rest else (rest, bare.2)
  { w with store := w.store.modify h fun _ => done.1, machine := done.2 }.tell
    (.trimmedTail r.base rest.length)

/-- Takes `[start, stop)` out of the middle of a record. The guard above
goes to the upper part; the hole gets guards of its own if it has room
for two. -/
def splitRecord (w : Warden) (h : Handle) (r : Record) (start stop : Nat) (guarded : Bool) :
    Warden :=
  let lower := { r with length := start - r.base, guardAbove := none }
  let upper := { r with base := stop, length := r.limit - stop, guardBelow := none }
  let roomy := guarded && decide (2 * pageSize ≤ stop - start)
  let below := if roomy then Guard.placeAbove w.machine lower else (lower, w.machine)
  let above := if roomy then Guard.placeBelow below.2 upper else (upper, below.2)
  let store := w.store.modify h fun _ => below.1
  let told := { w with store, machine := above.2 }.tell (.split r.base stop)
  { told with store := (store.insert above.1).2 }

/-- Takes `[start, stop)` out of the record under `h`. Guards in the range
are forgotten: their pages are gone already. -/
def cut (w : Warden) (h : Handle) (start stop : Nat) (guarded : Bool) : Warden :=
  match w.store.get? h with
  | none => w
  | some found =>
    let r := found.forgetWithin start stop
    if start ≤ r.base then
      if r.stop pageSize ≤ stop then w.dropRecord h r else w.trimHead h r stop guarded
    else if r.stop pageSize ≤ stop then w.trimTail h r start guarded
    else w.splitRecord h r start stop guarded

/-- Takes `[start, stop)` out of a record whose pages someone else's
request took, and tells. -/
def cutForeign (w : Warden) (start stop : Nat) (h : Handle) : Warden :=
  match w.store.get? h with
  | none => w
  | some r => (w.tell (.changedBehind r.base r.length)).cut h start stop false

/-- Forgets every guard in `[start, stop)`. -/
def forgetGuards (w : Warden) (start stop : Nat) : Warden :=
  { w with
    store := (w.store.guardedWithin start stop).foldl
      (fun s h => s.modify h fun r => r.forgetWithin start stop) w.store }

/-- Takes `[start, stop)`, which was replaced or released, out of every
record but the one under `keep`. -/
def carve (w : Warden) (start stop : Nat) (keep : Option Handle) : Warden :=
  let w := w.forgetGuards start stop
  ((w.store.overlapping start stop pageSize).filter fun h => some h ≠ keep).foldl
    (fun w h => w.cutForeign start stop h) w

end Warden

end PageWarden
