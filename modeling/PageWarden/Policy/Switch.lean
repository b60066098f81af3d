import PageWarden.Text.Blank
import PageWarden.Text.Number
/-!
# Policy — the text of a switch

A switch is on when its text, read as a number with an optional sign and
base mark, is not zero. No number is computed for that: the number is
zero exactly when the run of digits it is made of holds no digit but
`0`, whatever its length, its sign and its base.

The base is sixteen after `0x` or `0X` when a hexadecimal digit follows,
eight when a `0` is followed by anything else, and ten otherwise. Only
the digits of ASCII are digits.
-/

namespace PageWarden

namespace Switch

/-- Whether `c` is a digit of the base. -/
def isDigit (base : Nat) (c : Char) : Bool := (Text.digitValue? c).any (· < base)

/-- The text after its leading blanks and at most one sign. -/
def unsigned (cs : List Char) : List Char := Text.unsigned (cs.dropWhile Text.isBlank)

/-- The base of an unsigned text, with what follows the base mark. A `0`
that marks base eight is dropped, which no digit after it depends on. -/
def baseAndDigits : List Char → Nat × List Char
  | '0' :: x :: d :: rest =>
    if (x = 'x' ∨ x = 'X') ∧ isDigit 16 d then (16, d :: rest) else (8, x :: d :: rest)
  | '0' :: d :: rest => (8, d :: rest)
  | cs => (10, cs)

/-- Whether the longest run of digits of the base holds one that is not `0`. -/
def hasNonzeroDigit (base : Nat) (cs : List Char) : Bool :=
  (cs.takeWhile (isDigit base)).any (· ≠ '0')

/-- Whether the text switches its rule on. -/
def isOn (text : String) : Bool :=
  let (base, digits) := baseAndDigits (unsigned text.toList)
  hasNonzeroDigit base digits

end Switch

end PageWarden
