/-!
# Text — written numbers

Digits are those of ASCII. A natural number is a run of digits after at
most one plus sign, of any length and with any number of zeros in front.
A number at large has either sign, a point with digits on at least one
side of it and an exponent, or is one of the words for infinity and for
no number.
-/

namespace PageWarden

namespace Text

/-- The value of a digit of any base up to sixteen. -/
def digitValue? (c : Char) : Option Nat :=
  if '0' ≤ c ∧ c ≤ '9' then some (c.toNat - '0'.toNat)
  else if 'a' ≤ c ∧ c ≤ 'f' then some (c.toNat - 'a'.toNat + 10)
  else if 'A' ≤ c ∧ c ≤ 'F' then some (c.toNat - 'A'.toNat + 10)
  else none

/-- The ASCII letters of a text in lower case. -/
def lower (cs : List Char) : List Char := cs.map Char.toLower

/-- The number that digits stand for in base ten. -/
def ofDigits (cs : List Char) : Nat :=
  cs.foldl (fun n c => 10 * n + (c.toNat - '0'.toNat)) 0

/-- The natural number a text stands for. -/
def natural? (cs : List Char) : Option Nat :=
  let digits := match cs with
    | '+' :: rest => rest
    | _ => cs
  if !digits.isEmpty && digits.all Char.isDigit then some (ofDigits digits) else none

/-- The text after at most one sign. -/
def unsigned : List Char → List Char
  | '+' :: rest => rest
  | '-' :: rest => rest
  | cs => cs

/-- Whether a text is an exponent, or nothing in its place. -/
def isExponent : List Char → Bool
  | [] => true
  | e :: rest =>
    (e == 'e' || e == 'E') && !(unsigned rest).isEmpty && (unsigned rest).all Char.isDigit

/-- Whether a text is a number. -/
def isNumber (cs : List Char) : Bool :=
  let body := unsigned cs
  let whole := body.takeWhile Char.isDigit
  let rest := body.dropWhile Char.isDigit
  let (part, rest) := match rest with
    | '.' :: rest => (rest.takeWhile Char.isDigit, rest.dropWhile Char.isDigit)
    | _ => ([], rest)
  lower body ∈ ["inf".toList, "infinity".toList, "nan".toList] ||
    (!(whole ++ part).isEmpty && isExponent rest)

end Text

end PageWarden
