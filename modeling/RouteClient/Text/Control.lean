/-!
# Control characters

The control characters are the code points of the two control blocks.
-/

namespace RouteClient

namespace Text

/-- Whether a character is a control character. -/
def isControl (c : Char) : Bool :=
  c.toNat < 0x20 || (0x7f ≤ c.toNat && c.toNat ≤ 0x9f)

end Text

end RouteClient
