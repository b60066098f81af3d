import PageWarden.Failure
import PageWarden.Policy.Config
import PageWarden.Telemetry.Level
/-!
# Telemetry — events

What is worth telling, one constructor per kind of event with what the
event is about. From it follow the level, the words, the part of the
library that speaks (`Event.source`) and the fields, in the order they
are told.
-/

namespace PageWarden

/-- A value an event carries. -/
inductive FieldValue where
  /-- Text, quoted on a line. -/
  | text (s : String)
  /-- Text that stands on a line as it is. -/
  | words (s : String)
  | address (a : Nat)
  | number (n : Int)
  | flag (b : Bool)
  | rights (r : Rights)
deriving DecidableEq, Repr

namespace FieldValue

/-- The value as text. -/
def display : FieldValue → String
  | text s => s
  | words s => s
  | address a => Text.hex a
  | number n => toString n
  | flag b => if b then "true" else "false"
  | rights r => r.display

/-- The value as it stands on a line. -/
def onLine : FieldValue → String
  | text s => "\"" ++ s ++ "\""
  | v => v.display

end FieldValue

/-- The part of the library that speaks. -/
inductive Source where
  /-- Requests and the mappings they concern. -/
  | requests
  /-- Guard pages. -/
  | guards
  /-- Execute-only memory. -/
  | executeOnly
  /-- The library as loaded into a process. -/
  | process
deriving DecidableEq, Repr

/-- The name a source is filtered by. -/
def Source.target : Source → String
  | requests => "mapguard::intercept"
  | guards => "mapguard::guard"
  | executeOnly => "mapguard::xom"
  | process => "mapguard"

/-- Something worth telling. -/
inductive Event where
  /-- A request broke a rule. -/
  | denied (operation : String) (address length : Nat) (rights : Rights)
      (violation : Violation) (fatal : Bool)
  /-- A new mapping is tracked. -/
  | tracking (address length : Nat) (rights : Rights)
  /-- A protection change did not cover exactly the tracked pages. -/
  | partialProtection (address length tracked : Nat)
  /-- A protection change was recorded. -/
  | protectionUpdated (base : Nat) (rights granted : Rights)
  /-- A move did not take exactly the tracked pages. -/
  | partialMove (address length trackedBase tracked : Nat)
  /-- A tracked mapping moved. -/
  | relocated (origin target length : Nat)
  /-- Every record was released. -/
  | tornDown (released : Nat)
  /-- A key stays because another record holds it. -/
  | keyShared (key : Nat)
  /-- A key was given back. -/
  | keyFreed (key : Nat)
  /-- A tracked mapping lost pages to another request. -/
  | changedBehind (base length : Nat)
  /-- A record is gone. -/
  | untracked (base : Nat)
  /-- A record lost its lower part. -/
  | trimmedHead (base length : Nat)
  /-- A record lost its upper part. -/
  | trimmedTail (base length : Nat)
  /-- A record lost its middle. -/
  | split (lower upper : Nat)
  /-- A guard page is in place. -/
  | guardMapped (address : Nat)
  /-- A guard page is gone. -/
  | guardUnmapped (address : Nat)
  /-- A guard page came to lie elsewhere and was dropped. -/
  | guardElsewhere (wanted got : Nat)
  /-- A guard page could not be mapped. -/
  | guardRefused (address : Nat) (errno : Errno)
  /-- A guard page could not be unmapped. -/
  | guardStuck (address : Nat) (errno : Errno)
  /-- Execute-only memory was made. -/
  | executeOnlyCreated (address size copied : Nat) (key : Option Nat)
  /-- A release names another length than the tracked one, which goes as a whole. -/
  | releasingWhole (address length tracked : Nat)
  /-- A switch is on in vain. -/
  | warning (words : String)
  /-- The library is loaded. -/
  | loaded (config : Config)
  /-- The process ends over a denial. -/
  | aborting (failure : Failure)
deriving DecidableEq, Repr

namespace Event

def level : Event → Level
  | denied .. => .warn
  | tracking .. => .debug
  | partialProtection .. => .warn
  | protectionUpdated .. => .debug
  | partialMove .. => .warn
  | relocated .. => .debug
  | tornDown .. => .debug
  | keyShared .. => .debug
  | keyFreed .. => .debug
  | changedBehind .. => .warn
  | untracked .. => .debug
  | trimmedHead .. => .debug
  | trimmedTail .. => .debug
  | split .. => .debug
  | guardMapped .. => .trace
  | guardUnmapped .. => .trace
  | guardElsewhere .. => .warn
  | guardRefused .. => .warn
  | guardStuck .. => .warn
  | executeOnlyCreated .. => .debug
  | releasingWhole .. => .debug
  | warning .. => .warn
  | loaded .. => .debug
  | aborting .. => .warn

def source : Event → Source
  | guardMapped .. | guardUnmapped .. | guardElsewhere .. | guardRefused .. | guardStuck .. =>
    .guards
  | executeOnlyCreated .. | releasingWhole .. => .executeOnly
  | warning .. | loaded .. | aborting .. => .process
  | _ => .requests

/-- The event in words. -/
def message : Event → String
  | denied .. => "request denied"
  | tracking .. => "tracking mapping"
  | partialProtection .. => "protection change covers part of a tracked mapping"
  | protectionUpdated .. => "updated protection"
  | partialMove .. => "remap covers part of a tracked mapping"
  | relocated .. => "relocated mapping"
  | tornDown .. => "mapping cache torn down"
  | keyShared .. => "isolation key still held by another fragment"
  | keyFreed .. => "freed isolation key"
  | changedBehind .. => "tracked mapping changed behind the cache"
  | untracked .. => "untracked mapping"
  | trimmedHead .. => "trimmed mapping head"
  | trimmedTail .. => "trimmed mapping tail"
  | split .. => "split mapping"
  | guardMapped .. => "mapped guard page"
  | guardUnmapped .. => "unmapped guard page"
  | guardElsewhere .. => "guard page landed elsewhere, dropped it"
  | guardRefused .. => "could not place guard page"
  | guardStuck .. => "could not unmap guard page"
  | executeOnlyCreated .. => "created execute-only mapping"
  | releasingWhole .. => "releasing the whole execute-only mapping"
  | warning words => words
  | loaded .. => "mapguard loaded"
  | aborting .. => "aborting on policy violation"

/-- A number of bytes, pages or keys as a field. -/
def count (name : String) (n : Nat) : String × Option FieldValue := (name, some (.number n))

/-- An address as a field. -/
def address (name : String) (a : Nat) : String × Option FieldValue := (name, some (.address a))

/-- Rights as a field. -/
def rights (name : String) (r : Rights) : String × Option FieldValue := (name, some (.rights r))

/-- The fields of an event, in order. The key of execute-only memory is
declared whether or not there is one. -/
def declared : Event → List (String × Option FieldValue)
  | denied op a l r v f =>
    [("op", some (.text op)), address "addr" a, count "length" l, rights "prot" r,
      ("violation", some (.words v.message)), ("fatal", some (.flag f))]
  | tracking a l r => [address "addr" a, count "length" l, rights "prot" r]
  | partialProtection a l t => [address "addr" a, count "length" l, count "tracked" t]
  | protectionUpdated a r g => [address "addr" a, rights "prot" r, rights "granted_ever" g]
  | partialMove a l b t =>
    [address "addr" a, count "length" l, address "tracked_base" b, count "tracked" t]
  | relocated o t l => [address "from" o, address "to" t, count "length" l]
  | tornDown n => [count "released" n]
  | keyShared k => [count "key" k]
  | keyFreed k => [count "key" k]
  | changedBehind a l => [address "addr" a, count "length" l]
  | untracked a => [address "addr" a]
  | trimmedHead a l => [address "addr" a, count "length" l]
  | trimmedTail a l => [address "addr" a, count "length" l]
  | split l u => [address "lower" l, address "upper" u]
  | guardMapped a => [address "addr" a]
  | guardUnmapped a => [address "addr" a]
  | guardElsewhere w g => [address "wanted" w, address "got" g]
  | guardRefused a e => [address "addr" a, ("errno", some (.number e))]
  | guardStuck a e => [address "addr" a, ("errno", some (.number e))]
  | executeOnlyCreated a s c k =>
    [address "addr" a, count "size" s, count "copied" c, ("pkey", k.map fun k => .number k)]
  | releasingWhole a l t => [address "addr" a, count "length" l, count "tracked" t]
  | warning _ => []
  | loaded c => [("config", some (.words c.display))]
  | aborting f => [("error", some (.words f.message))]

/-- The named values, in order. A field without a value is left out. -/
def fields (e : Event) : List (String × FieldValue) :=
  e.declared.filterMap fun f => f.2.map (f.1, ·)

/-- Whether an event has a field of a name, with or without a value. The
words of an event are a field of their own. -/
def carries (e : Event) (name : String) : Bool :=
  name = "message" || e.declared.any fun f => f.1 = name

/-- The event on a line: level, target, words, values. -/
def line (e : Event) : String :=
  e.level.capitals ++ " " ++ e.source.target ++ ": " ++ e.message ++
    String.join (e.fields.map fun f => " " ++ f.1 ++ "=" ++ f.2.onLine)

end Event

end PageWarden
