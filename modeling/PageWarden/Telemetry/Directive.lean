import PageWarden.Telemetry.Event
import PageWarden.Text.Alphanumeric
import PageWarden.Text.Blank
import PageWarden.Text.Cut
import PageWarden.Text.Number
import PageWarden.Text.Pattern.Reader
/-!
# Telemetry — directives

What is heard of a process is up to the `EnvFilter` of the package
`tracing-subscriber`. The package is not part of the program, so the
directives that such a filter is written in follow what it documents of
them: their syntax (`Directive.ofText`), which events they apply to
(`Directive.applies`), and which of two takes precedence
(`Directive.isSharper`). The events of the program stand in no span. So of
a span, or of the value of a field, there is only whether it can be read.

A directive grants a threshold to what it names: a target, which stands
for every source whose name begins with it, a span in square brackets, a
field in braces within them. It is written `target[span{field}]=level`,
where each part may be missing, or as a level or a target alone; where no
level is written, every level is meant. A level goes by its name or its
number. A target that reads as a level is a target only before the
equals sign or the bracket.

The marks of a directive are searched between the blanks around it, but
its parts are cut out of the whole text, at the bytes so counted. So a
blank in front moves every part by its own length, and a blank at the
end belongs to the last part. A cut inside a character is a fault of its
own kind, which comes to light only where the reading gets to it.
-/

namespace PageWarden

namespace Threshold

/-- The threshold with a number: none is zero, and a level has its rank. -/
def ofNumber? (n : Nat) : Option Threshold :=
  if n = 0 then some none else (Level.all.find? fun l => l.rank = n).map some

/-- The threshold with a name, in any case. -/
def ofName? (word : List Char) : Option Threshold :=
  if Text.lower word = "off".toList then some none
  else (Level.all.find? fun l => l.name.toList = Text.lower word).map some

/-- The threshold a word stands for. -/
def ofWord? (word : List Char) : Option Threshold :=
  ((Text.natural? word).bind ofNumber?).or (ofName? word)

end Threshold

/-- A field by its name, and by its value where one is asked for. -/
structure FieldTest where
  name : String
  value : Option String := none
deriving DecidableEq, Repr

/-- Reads a field. A value, up to a second equals sign, is a number or a pattern. -/
def FieldTest.ofText? (cs : List Char) : Option FieldTest :=
  let name := String.ofList (cs.takeWhile (· ≠ '='))
  match cs.dropWhile (· ≠ '=') with
  | [] => some { name }
  | _ :: rest =>
    let value := rest.takeWhile (· ≠ '=')
    if Text.isNumber value || Text.isPattern value then
      some { name, value := some (String.ofList value) }
    else none

/-- What a directive names, and the least grave level it lets be heard. -/
structure Directive where
  target : Option String := none
  span : Option String := none
  field : Option FieldTest := none
  threshold : Threshold := some .trace
deriving DecidableEq, Repr

namespace Directive

/-- Why there is no directive in a text. -/
inductive Fault where
  /-- The text is none. -/
  | unreadable
  /-- A part of it begins or ends inside a character. -/
  | brokenCharacter
deriving DecidableEq, Repr

/-- A value that is missing where the text is no directive. -/
def orUnreadable {α : Type} (o : Option α) : Except Fault α :=
  o.elim (.error .unreadable) .ok

/-- The part of a text between two bytes. -/
def part (text : List Char) (start stop : Nat) : Except Fault (List Char) :=
  (Text.cut? start stop text).elim (.error .brokenCharacter) .ok

/-- The threshold written from a byte on, where nothing stands for every level. -/
def thresholdFrom (text : List Char) (start : Nat) : Except Fault Threshold := do
  let word ← part text start (Text.byteLength text)
  if word.isEmpty then return some .trace else orUnreadable (Threshold.ofWord? word)

/-- Reads on behind the bracket that closes, where only an equals sign and
a level may follow. -/
def closed (text : List Char) (d : Directive) (start : Nat) :
    List Char → Except Fault Directive
  | [] => .ok d
  | '=' :: _ => (thresholdFrom text (start + 1)).map fun threshold => { d with threshold }
  | _ :: _ => .error .unreadable

/-- Reads on behind the brace that opens. A field is not empty. -/
def braced (text : List Char) (d : Directive) (start : Nat) (cs : List Char) :
    Except Fault Directive := do
  let inside := cs.takeWhile (· ≠ '}')
  let stop := start + Text.byteLength inside
  match cs.drop inside.length with
  | [] => .error .unreadable
  | _ :: rest =>
    let word ← part text start stop
    if word.isEmpty then .error .unreadable
    else
      let field ← orUnreadable (FieldTest.ofText? word)
      match rest with
      | ']' :: rest => closed text { d with field := some field } (stop + 2) rest
      | _ => .error .unreadable

/-- Reads on behind the bracket that opens. Before a field, a span
without a name is no span. -/
def opened (text : List Char) (d : Directive) (start : Nat) (cs : List Char) :
    Except Fault Directive := do
  let inside := cs.takeWhile fun c => c ≠ ']' && c ≠ '{'
  let stop := start + Text.byteLength inside
  match cs.drop inside.length with
  | ']' :: rest =>
    let span ← part text start stop
    closed text { d with span := some (String.ofList span) } (stop + 1) rest
  | '{' :: rest =>
    let span ← part text start stop
    let span := if span.isEmpty then none else some (String.ofList span)
    braced text { d with span } (stop + 1) rest
  | _ => .error .unreadable

/-- Whether a directive may begin with a character other than a bracket. -/
def isFirst (c : Char) : Bool := Text.isAlphanumeric c || c ∈ ['-', ':', '_']

/-- The directive that is a level or a target alone. -/
def ofWord (word : List Char) : Directive :=
  match Threshold.ofWord? word with
  | some threshold => { threshold }
  | none => { target := some (String.ofList word) }

/-- Reads a directive. -/
def ofText (text : List Char) : Except Fault Directive :=
  match Text.trim text with
  | [] => .error .unreadable
  | '[' :: rest => opened text {} 1 rest
  | c :: cs =>
    if !isFirst c then .error .unreadable
    else do
      let word := (c :: cs).takeWhile fun c => c ≠ '=' && c ≠ '['
      let stop := Text.byteLength word
      match (c :: cs).drop word.length with
      | [] => return ofWord text
      | mark :: rest =>
        let target ← part text 0 stop
        let d : Directive := { target := some (String.ofList target) }
        if mark = '=' then
          return { d with threshold := ← thresholdFrom text (stop + 1) }
        else opened text d (stop + 1) rest

/-- Whether a directive concerns events at all: one that names a span, or
asks for the value of a field, concerns spans alone. -/
def concernsEvents (d : Directive) : Bool :=
  d.span.isNone && d.field.all fun f => f.value.isNone

/-- Whether a directive applies to an event. -/
def applies (d : Directive) (e : Event) : Bool :=
  d.concernsEvents && (d.target.all fun t => e.source.target.startsWith t) &&
    d.field.all fun f => e.carries f.name

/-- How much a directive says of the target. -/
def reach (d : Directive) : Nat := d.target.elim 0 fun t => t.utf8ByteSize + 1

/-- The name of the field of a directive, empty without a field. -/
def fieldName (d : Directive) : String := d.field.elim "" (·.name)

/-- Whether a directive is sharper than another: by its target, and for
targets of one length by the name of its field, of which the one later in
order is the sharper and none is the least. -/
def isSharper (d e : Directive) : Bool :=
  e.reach < d.reach || (e.reach = d.reach && e.fieldName < d.fieldName)

end Directive

end PageWarden
