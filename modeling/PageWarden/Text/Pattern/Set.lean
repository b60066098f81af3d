import PageWarden.Text.Blank
import PageWarden.Text.Number
import PageWarden.Text.Pattern.Basic
/-!
# Text — reading sets of characters

The syntax of sets is that of the engine for patterns, which is not part
of the program, and follows what it documents.

A set stands between square brackets and may hold others. Its members
are characters, ranges, escapes, named classes and sets; `&&`, `--` and
`~~` join what stands left of them with what stands right. A bracket that
closes is a member where it stands first, and so are the dashes a set
begins with and the dash at its end.

A pattern may be verbose. Then blanks and comments, from a number sign
to the end of the line, count for nothing, inside of sets too.
-/

namespace PageWarden

namespace Text

namespace Pattern

/-- The text after blanks and comments, or inside of a comment after its end. -/
def skipComments : Bool → List Char → List Char
  | _, [] => []
  | true, c :: cs => skipComments (c ≠ '\n') cs
  | false, c :: cs =>
    if isBlank c then skipComments false cs
    else if c = '#' then skipComments true cs
    else c :: cs

/-- The text without what counts for nothing in front. -/
def skip (verbose : Bool) (cs : List Char) : List Char :=
  if verbose then skipComments false cs else cs

/-- The character behind a dash, by which the dash makes a range or does
not. In a verbose pattern it is looked for behind blanks and the sign of
a comment, but in the comment itself. -/
def behindDash? (verbose : Bool) (cs : List Char) : Option Char :=
  if verbose then
    match cs.dropWhile isBlank with
    | '#' :: rest => (rest.dropWhile isBlank).head?
    | rest => rest.head?
  else cs.head?

/-- The control characters that have letters. -/
def controls : List (Char × Char) :=
  [('a', '\x07'), ('t', '\t'), ('n', '\n'), ('v', '\x0b'), ('f', '\x0c'), ('r', '\r')]

/-- Reads a number of hexadecimal digits, after the digits of `value`. -/
def hexDigits? (verbose : Bool) : Nat → Nat → List Char → Option (Nat × List Char)
  | 0, value, cs => some (value, cs)
  | n + 1, value, cs =>
    match skip verbose cs with
    | [] => none
    | c :: rest => (digitValue? c).bind fun d => hexDigits? verbose n (16 * value + d) rest

/-- Reads the number of a character in so many digits. Two digits are a byte. -/
def number? (verbose : Bool) (digits : Nat) (cs : List Char) : Option (Atom × List Char) := do
  let (value, rest) ← hexDigits? verbose digits 0 cs
  if value.isValidChar then some (.literal (Char.ofNat value) (digits = 2), rest) else none

/-- Reads what follows a backslash. Properties of Unicode have no tables
here, and are refused with the escapes that mean nothing. -/
def escape? (verbose : Bool) : List Char → Option (Atom × List Char)
  | [] => none
  | c :: cs =>
    match c with
    | 'x' => number? verbose 2 cs
    | 'u' => number? verbose 4 cs
    | 'U' => number? verbose 8 cs
    | 'd' | 's' | 'w' => some (.shorthand false, cs)
    | 'D' | 'S' | 'W' => some (.shorthand true, cs)
    | 'A' | 'z' => some (.anchor, cs)
    | 'b' | 'B' | '<' | '>' => some (.boundary, cs)
    | _ =>
      if c.toNat < 0x80 && !c.isAlphanum then some (.literal c false, cs)
      else (controls.lookup c).map fun d => (.literal d false, cs)

/-- Reads one end of a range. -/
def bound? (verbose : Bool) : List Char → Option (Atom × List Char)
  | [] => none
  | '\\' :: cs => escape? verbose cs
  | c :: cs => some (.literal c false, cs)

/-- The member of a set an atom is, if it stands for characters. -/
def member? : Atom → Option CharSet
  | .literal c isByte => some (.atom (.literal c isByte))
  | .shorthand negated => some (.atom (.shorthand negated))
  | _ => none

/-- The range between two atoms, which are characters in order. -/
def range? : Atom → Atom → Option CharSet
  | .literal first _, .literal last _ => if first ≤ last then some (.range first last) else none
  | _, _ => none

/-- Reads a character, an escape or a range. -/
def item? (verbose : Bool) (cs : List Char) : Option (CharSet × List Char) := do
  let (first, cs) ← bound? verbose cs
  match skip verbose cs with
  | '-' :: rest =>
    if behindDash? verbose rest ∈ [some ']', some '-'] then
      (member? first).map fun m => (m, '-' :: rest)
    else
      let (last, rest) ← bound? verbose (skip verbose rest)
      (range? first last).map fun m => (m, rest)
  | rest => (member? first).map fun m => (m, rest)

/-- The names of classes. -/
def classNames : List String :=
  ["alnum", "alpha", "ascii", "blank", "cntrl", "digit", "graph", "lower", "print", "punct",
    "space", "upper", "word", "xdigit"]

/-- Reads a named class behind its first bracket. -/
def named? : List Char → Option (CharSet × List Char)
  | ':' :: cs =>
    let negated := cs.head? = some '^'
    let cs := if negated then cs.drop 1 else cs
    let name := cs.takeWhile (· ≠ ':')
    match cs.drop name.length with
    | ':' :: ']' :: rest =>
      if String.ofList name ∈ classNames then some (.named negated, rest) else none
    | _ => none
  | _ => none

/-- A set under way. -/
structure OpenSet where
  negated : Bool := false
  /-- Nothing but dashes were read. -/
  fresh : Bool := true
  /-- The members since the last operator, the last first. -/
  members : List CharSet := []
  /-- What stands left of the last operator. -/
  left : Option CharSet := none

namespace OpenSet

/-- A set at its start, with what follows. -/
def start (verbose : Bool) (cs : List Char) : OpenSet × List Char :=
  match skip verbose cs with
  | '^' :: rest => ({ negated := true }, rest)
  | rest => ({}, rest)

/-- The set with one more member. -/
def add (s : OpenSet) (m : CharSet) : OpenSet :=
  { s with fresh := false, members := m :: s.members }

/-- The set with a dash it begins with. -/
def addDash (s : OpenSet) : OpenSet :=
  { s with members := .atom (.literal '-' false) :: s.members }

/-- What was read of a set so far. -/
def body (s : OpenSet) : CharSet :=
  match s.left with
  | none => .ofMembers s.members.reverse
  | some left => .operation left (.ofMembers s.members.reverse)

/-- The set after an operator. -/
def operator (s : OpenSet) : OpenSet :=
  { s with fresh := false, members := [], left := some s.body }

/-- The set at its end. -/
def close (s : OpenSet) : CharSet := .bracketed s.negated s.body

/-- Reads a set to its end, with the sets around it, the innermost first.
Each step reads a character, so as many steps do as there are. -/
def finish? (verbose : Bool) :
    Nat → OpenSet → List OpenSet → List Char → Option (CharSet × List Char)
  | 0, _, _, _ => none
  | n + 1, s, around, cs =>
    match skip verbose cs with
    | [] => none
    | ']' :: rest =>
      if s.fresh && s.members.isEmpty then
        finish? verbose n (s.add (.atom (.literal ']' false))) around rest
      else
        match around with
        | [] => some (s.close, rest)
        | outer :: around => finish? verbose n (outer.add s.close) around rest
    | '[' :: rest =>
      match named? rest with
      | some (m, rest) => finish? verbose n (s.add m) around rest
      | none =>
        let (inner, rest) := start verbose rest
        finish? verbose n inner (s :: around) rest
    | c :: rest =>
      if s.fresh && c = '-' then finish? verbose n s.addDash around rest
      else if c ∈ ['&', '-', '~'] && rest.head? = some c then
        finish? verbose n s.operator around (rest.drop 1)
      else
        (item? verbose (c :: rest)).bind fun (m, rest) => finish? verbose n (s.add m) around rest

end OpenSet

/-- Reads a set behind its first bracket. -/
def set? (verbose : Bool) (cs : List Char) : Option (CharSet × List Char) :=
  let (s, rest) := OpenSet.start verbose cs
  s.finish? verbose (rest.length + 1) [] rest

end Pattern

end Text

end PageWarden
