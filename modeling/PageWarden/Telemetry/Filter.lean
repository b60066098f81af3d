import PageWarden.Telemetry.Directive
/-!
# Telemetry — filters

How directives make up a filter, and which of them decides about an event,
follows the documented behaviour of `EnvFilter`, as the directives do
(`Directive`). The filter that holds where none can be had is the
program's own (`Filter.standard`, `Filter.forProcess?`).

A filter is written as directives separated by commas, where nothing
between two commas counts for nothing. Of the directives that apply to
an event the sharpest decides, of equally sharp ones the last, and where
none applies the event is not heard.

One directive that cannot be read makes the whole text no filter at all,
by the first fault in it. Text without any directive is the filter that
hears errors only.
-/

namespace PageWarden

/-- Directives in the order they were written. -/
structure Filter where
  directives : List Directive
deriving DecidableEq, Repr

namespace Filter

/-- The filter that holds when none is given. -/
def standard : Filter := ⟨[{ target := some "mapguard", threshold := some .warn }]⟩

/-- The filter that hears the errors of every source. -/
def errors : Filter := ⟨[{ threshold := some .error }]⟩

/-- Reads a filter. -/
def ofText (text : String) : Except Directive.Fault Filter :=
  match (text.splitOn ",").filter (!·.isEmpty) with
  | [] => .ok errors
  | parts => (parts.mapM fun part => Directive.ofText part.toList).map Filter.mk

/-- The filter a process goes by, the standard one where there is no text
or it cannot be read. A text cut inside a character has none: the process
does not live to use one. -/
def forProcess? (text : Option String) : Option Filter :=
  match text.map ofText with
  | none | some (.error .unreadable) => some standard
  | some (.error .brokenCharacter) => none
  | some (.ok f) => some f

/-- The sharper of two directives, of equally sharp ones the second. -/
def sharper (d e : Directive) : Directive := if d.isSharper e then d else e

/-- The directive that decides about an event. -/
def decisive? (f : Filter) (e : Event) : Option Directive :=
  match f.directives.filter (·.applies e) with
  | [] => none
  | d :: rest => some (rest.foldl sharper d)

/-- Whether an event is heard. -/
def hears (f : Filter) (e : Event) : Bool :=
  (f.decisive? e).any fun d => d.threshold.hears e.level

end Filter

end PageWarden
