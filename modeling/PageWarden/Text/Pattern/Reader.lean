import PageWarden.Text.Alphanumeric
import PageWarden.Text.Pattern.Set
/-!
# Text — reading patterns

The syntax of patterns is that of their engine, which is not part of the
program, and follows what it documents; whether a text can be used as a
pattern (`isPattern`) is all that is asked of it.

A pattern is a choice of sequences, separated by bars. A part is a
character, an escape, the dot, an anchor, a set or a group, and may be
followed by signs of repetition, each with a question mark behind it or
not. A group may have a name, which no other group has, or flags; flags
alone between parentheses hold up to the end of the group around them and
cannot be repeated. There are no counted repetitions, so an open brace
outside of a set is refused.
-/

namespace PageWarden

namespace Text

namespace Pattern

/-- Reads the letters of flags, each at most once. A minus, after which
something follows, switches off the flags behind it. -/
def Switches.ofText? (cs : List Char) : Option Switches :=
  let on := cs.takeWhile (· ≠ '-')
  let off := (cs.dropWhile (· ≠ '-')).drop 1
  let state (c : Char) : Option Bool :=
    if c ∈ on then some true else if c ∈ off then some false else none
  let letters := on ++ off
  if letters.all (· ∈ ['i', 'm', 's', 'U', 'u', 'R', 'x']) && letters.eraseDups = letters &&
      cs.getLast? ≠ some '-' then
    some { fold := state 'i', unicode := state 'u', verbose := state 'x' }
  else none

/-- Whether a text can name a group. -/
def isName : List Char → Bool
  | [] => false
  | c :: cs =>
    (c = '_' || isAlphabetic c) &&
      cs.all fun d => d ∈ ['_', '.', '[', ']'] || isAlphanumeric d

/-- What begins with a parenthesis. -/
inductive Head where
  | group (s : Switches) (name : Option String)
  | switch (s : Switches)
deriving DecidableEq, Repr

/-- Reads what follows the parenthesis of a group up to its parts. -/
def head? (verbose : Bool) (cs : List Char) : Option (Head × List Char) :=
  let named (cs : List Char) : Option (Head × List Char) :=
    let name := cs.takeWhile (· ≠ '>')
    match cs.drop name.length with
    | _ :: rest => if isName name then some (.group {} (String.ofList name), rest) else none
    | [] => none
  match skip verbose cs with
  | '?' :: 'P' :: '<' :: rest => named rest
  | '?' :: '<' :: rest => named rest
  | '?' :: rest =>
    let letters := rest.takeWhile fun c => c ≠ ':' && c ≠ ')'
    (Switches.ofText? letters).bind fun s =>
      match rest.drop letters.length with
      | ':' :: rest => some (.group s none, rest)
      | ')' :: rest => if letters.isEmpty then none else some (.switch s, rest)
      | _ => none
  | rest => some (.group {} none, rest)

/-- A group under way, with what stands before it in the group around it. -/
structure OpenGroup where
  switches : Switches
  /-- Whether the pattern is verbose around the group. -/
  verbose : Bool
  alternatives : List Pattern
  parts : List Pattern

/-- A pattern under way, where lists have the last first. -/
structure Reading where
  verbose : Bool := false
  /-- The names of groups so far. -/
  names : List String := []
  groups : List OpenGroup := []
  /-- The choices before the last bar of the group. -/
  alternatives : List Pattern := []
  /-- The parts behind the last bar of the group. -/
  parts : List Pattern := []

namespace Reading

/-- The reading after one more part. -/
def add (r : Reading) (p : Pattern) : Reading := { r with parts := p :: r.parts }

/-- The reading after a bar. -/
def bar (r : Reading) : Reading :=
  { r with alternatives := ofSequence r.parts.reverse :: r.alternatives, parts := [] }

/-- What was read of the innermost group. -/
def body (r : Reading) : Pattern := ofChoice r.bar.alternatives.reverse

/-- The reading after the head of a group, or after flags alone. -/
def enter (r : Reading) : Head → Option Reading
  | .switch s => some { r.add (.switch s) with verbose := s.verbose.getD r.verbose }
  | .group s name =>
    if name.any (· ∈ r.names) then none
    else
      some
        { verbose := s.verbose.getD r.verbose
          names := name.toList ++ r.names
          groups := ⟨s, r.verbose, r.alternatives, r.parts⟩ :: r.groups }

/-- The reading after the end of a group. -/
def leave (r : Reading) : Option Reading :=
  match r.groups with
  | [] => none
  | g :: groups =>
    some
      { r with
        verbose := g.verbose
        groups
        alternatives := g.alternatives
        parts := .group g.switches r.body :: g.parts }

/-- The reading after a sign of repetition. -/
def again (r : Reading) : Option Reading :=
  match r.parts with
  | [] => none
  | .switch _ :: _ => none
  | p :: parts => some { r with parts := .repetition p :: parts }

/-- The reading after a character, with what follows it. -/
def step (r : Reading) (c : Char) (cs : List Char) : Option (Reading × List Char) :=
  match c with
  | '(' => (head? r.verbose cs).bind fun (h, rest) => (r.enter h).map (·, rest)
  | ')' => r.leave.map (·, cs)
  | '|' => some (r.bar, cs)
  | '[' => (set? r.verbose cs).map fun (s, rest) => (r.add (.set s), rest)
  | '?' | '*' | '+' => r.again.map (·, if cs.head? = some '?' then cs.drop 1 else cs)
  | '{' => none
  | '\\' => (escape? r.verbose cs).map fun (a, rest) => (r.add (.atom a), rest)
  | '.' => some (r.add (.atom .dot), cs)
  | '^' | '$' => some (r.add (.atom .anchor), cs)
  | _ => some (r.add (.atom (.literal c false)), cs)

/-- Reads a pattern to its end. Each step reads a character, so as many
steps do as there are, and one for the end. -/
def finish? : Nat → Reading → List Char → Option Pattern
  | 0, _, _ => none
  | n + 1, r, cs =>
    match skip r.verbose cs with
    | [] => if r.groups.isEmpty then some r.body else none
    | c :: rest => (r.step c rest).bind fun (r, rest) => r.finish? n rest

end Reading

/-- Reads a pattern. -/
def ofText? (cs : List Char) : Option Pattern := Reading.finish? (cs.length + 1) {} cs

end Pattern

/-- Whether a text is a pattern that can be used. -/
def isPattern (cs : List Char) : Bool := (Pattern.ofText? cs).any (·.isUsable)

end Text

end PageWarden
