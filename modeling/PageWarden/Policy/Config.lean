import PageWarden.Policy.Switch
/-!
# Policy — the configuration

Nine switches, all off unless a variable turns them on. Telemetry has
two variables, of which either will do. The guard pages hang off tracked
mappings and the transition rules read their history, so both need the
mapping cache; `Config.warnings` names what is switched on in vain.
-/

namespace PageWarden

/-- The set of enforcement switches. -/
structure Config where
  /-- Memory must not be writable and executable at once. -/
  disallowRwx : Bool := false
  /-- Memory that was ever writable must not become executable. -/
  disallowTransitionToX : Bool := false
  /-- Memory that was ever executable must not become writable. -/
  disallowTransitionFromX : Bool := false
  /-- Callers must not choose addresses. -/
  disallowStaticAddress : Bool := false
  /-- Tracked mappings are flanked by inaccessible pages. -/
  enableGuardPages : Bool := false
  /-- A denial ends the process. -/
  panicOnViolation : Bool := false
  /-- New writable memory is overwritten. -/
  poisonOnAllocation : Bool := false
  /-- Mappings are tracked. -/
  useMappingCache : Bool := false
  /-- Events are written out. -/
  enableTelemetry : Bool := false
deriving DecidableEq, Repr

namespace Config

/-- The configuration a lookup of variables describes. -/
def ofLookup (lookup : String → Option String) : Config :=
  let on (name : String) : Bool := (lookup name).any Switch.isOn
  { disallowRwx := on "MG_DISALLOW_RWX"
    disallowTransitionToX := on "MG_DISALLOW_TRANSITION_TO_X"
    disallowTransitionFromX := on "MG_DISALLOW_TRANSITION_FROM_X"
    disallowStaticAddress := on "MG_DISALLOW_STATIC_ADDRESS"
    enableGuardPages := on "MG_ENABLE_GUARD_PAGES"
    panicOnViolation := on "MG_PANIC_ON_VIOLATION"
    poisonOnAllocation := on "MG_POISON_ON_ALLOCATION"
    useMappingCache := on "MG_USE_MAPPING_CACHE"
    enableTelemetry := on "MG_ENABLE_TELEMETRY" || on "MG_ENABLE_SYSLOG" }

/-- The configuration of an environment. A value that is not UTF-8 has
no text, and its variable counts as unset. -/
def ofEnvironment (assignments : List (String × ByteArray)) : Config :=
  ofLookup fun name => (assignments.lookup name).bind String.fromUTF8?

/-- Guard pages take effect only with the mapping cache. -/
def guardPagesActive (c : Config) : Bool := c.enableGuardPages && c.useMappingCache

/-- What is switched on without any effect, in words. -/
def warnings (c : Config) : List String :=
  (if c.enableGuardPages && !c.useMappingCache then
    ["MG_ENABLE_GUARD_PAGES has no effect without MG_USE_MAPPING_CACHE"] else []) ++
  (if (c.disallowTransitionToX || c.disallowTransitionFromX) && !c.useMappingCache then
    ["transition rules need MG_USE_MAPPING_CACHE to see mapping history"] else [])

/-- The switches by name, in the order they are listed to a reader. -/
def switches (c : Config) : List (String × Bool) :=
  [("disallow_rwx", c.disallowRwx),
   ("disallow_transition_to_x", c.disallowTransitionToX),
   ("disallow_transition_from_x", c.disallowTransitionFromX),
   ("disallow_static_address", c.disallowStaticAddress),
   ("enable_guard_pages", c.enableGuardPages),
   ("panic_on_violation", c.panicOnViolation),
   ("poison_on_allocation", c.poisonOnAllocation),
   ("use_mapping_cache", c.useMappingCache),
   ("enable_telemetry", c.enableTelemetry)]

/-- The configuration on one line, as the event of loading shows it. -/
def display (c : Config) : String :=
  let shown := c.switches.map fun s => s.1 ++ ": " ++ (if s.2 then "true" else "false")
  "PolicyConfig \x7b " ++ String.intercalate ", " shown ++ " \x7d"

end Config

end PageWarden
