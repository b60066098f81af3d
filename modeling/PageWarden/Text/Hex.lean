/-!
# Text — addresses in hexadecimal

Every address a reader sees is printed one way: `0x` and the lowercase
hexadecimal digits, without padding. The digits come from
`Nat.toDigits`, so no address is too large to print.
-/

namespace PageWarden

namespace Text

/-- The written form of an address. -/
def hex (address : Nat) : String :=
  "0x" ++ String.ofList (Nat.toDigits 16 address)

end Text

end PageWarden
