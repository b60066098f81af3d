import PageWarden.Policy.Config
import PageWarden.Policy.Violation
/-!
# Policy — the checks

Pure decisions: a check looks at the configuration, at the request and at
the history it is handed, and at nothing else. Writing together with
executing is refused first, so a request that breaks two rules is denied
for that one.
-/

namespace PageWarden

namespace Config

/-- A denial for `violation`, fatal if the configuration says so. -/
def deny (c : Config) (violation : Violation) : Denial := ⟨violation, c.panicOnViolation⟩

/-- No protection may write and execute while the rule is on. -/
def checkWriteExec (c : Config) (rights : Rights) : Except Denial Unit :=
  if c.disallowRwx && rights.isWriteExec then .error (c.deny .writeExecute) else .ok ()

/-- Vets a new anonymous mapping at `address`, where 0 leaves the choice
to the system. -/
def checkCreate (c : Config) (address : Nat) (rights : Rights) : Except Denial Unit :=
  match c.checkWriteExec rights with
  | .error d => .error d
  | .ok () =>
    if c.disallowStaticAddress && address ≠ 0 then .error (c.deny (.staticAddress address))
    else .ok ()

/-- Vets a change of protection. Memory that is not tracked has no
history, and execute-only memory is exempt from the transition rules. -/
def checkReprotect (c : Config) (rights : Rights) (history : Option History) :
    Except Denial Unit :=
  match c.checkWriteExec rights with
  | .error d => .error d
  | .ok () =>
    match history.filter (!·.executeOnly) with
    | none => .ok ()
    | some h =>
      if c.disallowTransitionToX && rights.has .exec && h.granted.has .write then
        .error (c.deny .transitionToExecute)
      else if c.disallowTransitionFromX && rights.has .write && h.granted.has .exec then
        .error (c.deny .transitionFromExecute)
      else .ok ()

/-- Whether a fresh mapping with these rights is overwritten. -/
def poisons (c : Config) (rights : Rights) : Bool :=
  c.poisonOnAllocation && rights.has .write

end Config

end PageWarden
