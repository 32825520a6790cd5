/-!
# Lengths in bytes

Sizes and places are counted in the bytes of UTF-8.
-/

namespace RouteClient

namespace Text

/-- The number of bytes of a text in UTF-8. -/
def byteCount : List Char → Nat
  | [] => 0
  | c :: cs => c.utf8Size + byteCount cs

end Text

end RouteClient
