import PageWarden.Space.Table
/-!
# The address space — top-down placement

A mapping whose address is left to the system goes into the highest gap
that holds it, as high in that gap as it fits, below a fixed ceiling.
The mapped pages are walked downward once: each either leaves enough room
above it, or becomes the new ceiling.
-/

namespace PageWarden

/-- The number of the first page that is never chosen. -/
def topPage : Nat := 0x7f0000000

/-- The highest start of `count` free pages below `ceiling`, where the
mapped pages are listed in descending order. -/
def highestFit (count : Nat) : Nat → List Nat → Option Nat
  | ceiling, [] => if count ≤ ceiling then some (ceiling - count) else none
  | ceiling, n :: below =>
    if ceiling ≤ n then highestFit count ceiling below
    else if n + count < ceiling then some (ceiling - count)
    else highestFit count n below

/-- The highest start of `count` free pages below the ceiling. -/
def PageTable.topmostGap (t : PageTable) (count : Nat) : Option Nat :=
  highestFit count topPage t.numbers.reverse

end PageWarden
