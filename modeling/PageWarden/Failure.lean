import PageWarden.Policy.Violation
/-!
# Failures

Why an operation did not happen. Each cause has one text and one error
number: the number of the primitive that failed, or `EINVAL` for what was
refused before any primitive was called.
-/

namespace PageWarden

/-- An error number of the system, kept as it came. -/
abbrev Errno := Int

namespace Errno

def nomem : Errno := 12
def badf : Errno := 9
def fault : Errno := 14
def exist : Errno := 17
def inval : Errno := 22
def nospc : Errno := 28
def nosys : Errno := 38

end Errno

/-- Why an operation did not happen. -/
inductive Failure where
  /-- The request breaks a rule that is on. -/
  | policyViolation (violation : Violation) (fatal : Bool)
  /-- The primitive `call` failed on its own. -/
  | callFailed (call : String) (errno : Errno)
  /-- The request makes no sense, for the stated reason. -/
  | invalidRequest (reason : String)
  /-- The request needs tracked mappings, and none are tracked. -/
  | cacheDisabled
  /-- No tracked mapping covers the address. -/
  | notTracked (address : Nat)
  /-- No key could be had, for a reason other than there being none. -/
  | keyAllocFailed (errno : Errno)
  /-- The pages could not be tagged with the key. -/
  | keyProtectFailed (errno : Errno)
deriving DecidableEq, Repr

namespace Failure

/-- The failure of a denied request. -/
def ofDenial (d : Denial) : Failure := .policyViolation d.violation d.fatal

/-- The failure in words, with the address written by `address`. -/
def messageWith (address : Nat → String) : Failure → String
  | .policyViolation v _ => "policy violation: " ++ v.messageWith address
  | .callFailed call errno => call ++ " failed with errno " ++ toString errno
  | .invalidRequest reason => "invalid execute-only request: " ++ reason
  | .cacheDisabled => "the mapping cache is disabled"
  | .notTracked a => "no tracked mapping covers " ++ address a
  | .keyAllocFailed errno => "pkey_alloc failed with errno " ++ toString errno
  | .keyProtectFailed errno => "pkey_mprotect failed with errno " ++ toString errno

/-- The failure in words. -/
def message (f : Failure) : String := f.messageWith Text.hex

/-- The error number an unsuspecting caller is shown. -/
def errno : Failure → Errno
  | .callFailed _ e => e
  | .keyAllocFailed e => e
  | .keyProtectFailed e => e
  | _ => Errno.inval

/-- Whether the process must end once the failure is reported. -/
def isFatal : Failure → Bool
  | .policyViolation _ fatal => fatal
  | _ => false

end Failure

end PageWarden
