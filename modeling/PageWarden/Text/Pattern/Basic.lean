/-!
# Text — patterns

A directive may ask for the value of a field by a pattern, and where the
pattern cannot be used there is no directive (`FieldTest.ofText?`). Which
patterns can be used is not for the program to say: it is up to the engine
by which `tracing-subscriber` matches values, built without the tables of
Unicode. What that engine documents of its syntax and its limits is
followed here and in the modules that read patterns, up to the one
question that a run comes to, whether a text is a pattern of use
(`isPattern`). Nothing is searched here.

Two things decide. A pattern is not
deeper than `maxDepth`, where each group, repetition, sequence, choice
and set is one level (`Pattern.depth`). And its parts can be matched
under the flags that hold where they stand (`Pattern.after?`).

The classes and the case tables of Unicode are not known here. So while
classes are those of Unicode, as at the start, the shorthands for classes
and the boundaries of words cannot be used, and where case counts for
nothing no character can. With the classes of ASCII no part may match a
single byte of a longer character: not the dot, no negated set or
shorthand, no byte above ASCII.
-/

namespace PageWarden

namespace Text

namespace Pattern

/-- What holds of the parts of a pattern: whether case counts for
nothing, and whether classes are those of Unicode. -/
structure Flags where
  fold : Bool := false
  unicode : Bool := true
deriving DecidableEq, Repr

/-- Whether characters would have to be matched by the case tables of Unicode. -/
def Flags.needsCaseTables (f : Flags) : Bool := f.fold && f.unicode

/-- What a group changes. `verbose` skips blanks and comments in reading. -/
structure Switches where
  fold : Option Bool := none
  unicode : Option Bool := none
  verbose : Option Bool := none
deriving DecidableEq, Repr

/-- The flags after a change. -/
def Flags.switch (f : Flags) (s : Switches) : Flags :=
  { fold := s.fold.getD f.fold, unicode := s.unicode.getD f.unicode }

/-- A part of a pattern that holds no other part. -/
inductive Atom where
  /-- A character, which may have been written as a byte. -/
  | literal (c : Char) (isByte : Bool)
  /-- Any character but the end of a line. -/
  | dot
  /-- The start or the end of a line or of the text. -/
  | anchor
  /-- A place between a word and what is none, or any other place. -/
  | boundary
  /-- A class of characters by one letter: digits, blanks or words. -/
  | shorthand (negated : Bool)
deriving DecidableEq, Repr

/-- Whether an atom can be matched, in a set or outside. -/
def Atom.isUsable (f : Flags) (inSet : Bool) : Atom → Bool
  | literal c isByte =>
    !f.needsCaseTables && (f.unicode || c.toNat < 0x80 || (!inSet && !isByte))
  | dot => f.unicode
  | anchor => true
  | boundary => !f.unicode
  | shorthand negated => !f.unicode && !negated

/-- What stands between square brackets. -/
inductive CharSet where
  | empty
  | atom (a : Atom)
  | range (first last : Char)
  /-- A class of ASCII by its name. -/
  | named (negated : Bool)
  | bracketed (negated : Bool) (body : CharSet)
  | union (parts : List CharSet)
  /-- What two sets have in common, or in which they differ. -/
  | operation (left right : CharSet)
deriving Repr

namespace CharSet

/-- The set that members stand for when written one after the other. -/
def ofMembers : List CharSet → CharSet
  | [] => empty
  | [s] => s
  | parts => union parts

mutual

/-- How deep sets lie in a set. -/
def depth : CharSet → Nat
  | bracketed _ body => body.depth + 1
  | union parts => depths parts + 1
  | operation left right => max left.depth right.depth + 1
  | _ => 0

/-- The depth of the deepest of some sets. -/
def depths : List CharSet → Nat
  | [] => 0
  | s :: parts => max s.depth (depths parts)

end

mutual

/-- Whether a set can be matched. -/
def isUsable (f : Flags) : CharSet → Bool
  | empty => true
  | atom a => a.isUsable f true
  | range first last =>
    (Atom.literal first false).isUsable f true && (Atom.literal last false).isUsable f true
  | named negated => !f.needsCaseTables && (f.unicode || !negated)
  | bracketed negated body => (f.unicode || !negated) && body.isUsable f
  | union parts => areUsable f parts
  | operation left right => left.isUsable f && right.isUsable f

/-- Whether all of some sets can be matched. -/
def areUsable (f : Flags) : List CharSet → Bool
  | [] => true
  | s :: parts => s.isUsable f && areUsable f parts

end

end CharSet

end Pattern

/-- A pattern. -/
inductive Pattern where
  | empty
  | atom (a : Pattern.Atom)
  | set (s : Pattern.CharSet)
  /-- A change of flags up to the end of the group around it. -/
  | switch (s : Pattern.Switches)
  | group (s : Pattern.Switches) (body : Pattern)
  | repetition (body : Pattern)
  | sequence (parts : List Pattern)
  | choice (parts : List Pattern)
deriving Repr

namespace Pattern

/-- The pattern that parts stand for when written one after the other. -/
def ofSequence : List Pattern → Pattern
  | [] => empty
  | [p] => p
  | parts => sequence parts

/-- The pattern that is one of some patterns. -/
def ofChoice : List Pattern → Pattern
  | [p] => p
  | parts => choice parts

mutual

/-- How deep patterns lie in a pattern. -/
def depth : Pattern → Nat
  | set s => s.depth
  | group _ body => body.depth + 1
  | repetition body => body.depth + 1
  | sequence parts => depths parts + 1
  | choice parts => depths parts + 1
  | _ => 0

/-- The depth of the deepest of some patterns. -/
def depths : List Pattern → Nat
  | [] => 0
  | p :: parts => max p.depth (depths parts)

end

mutual

/-- The flags that hold after a pattern, if it can be matched. -/
def after? (f : Flags) : Pattern → Option Flags
  | empty => some f
  | atom a => if a.isUsable f false then some f else none
  | set s => if s.isUsable f then some f else none
  | switch s => some (f.switch s)
  | group s body => (body.after? (f.switch s)).map fun _ => f
  | repetition body => body.after? f
  | sequence parts => afterAll? f parts
  | choice parts => afterAll? f parts

/-- The flags that hold after some patterns, one written after the other. -/
def afterAll? (f : Flags) : List Pattern → Option Flags
  | [] => some f
  | p :: parts => (p.after? f).bind fun f => afterAll? f parts

end

/-- How deep a pattern may be. -/
def maxDepth : Nat := 250

/-- Whether a pattern can be used. -/
def isUsable (p : Pattern) : Bool := p.depth ≤ maxDepth && (p.after? {}).isSome

end Pattern

end Text

end PageWarden
