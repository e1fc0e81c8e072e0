import Courier.Text.Unprintable

/-!
# Blank characters

The Unicode property White_Space, and trimming by it.
-/

namespace Courier.Text

/-- The blank code points, as ascending closed ranges. -/
def blankRanges : List (Nat × Nat) :=
  [(0x09, 0x0D), (0x20, 0x20), (0x85, 0x85), (0xA0, 0xA0), (0x1680, 0x1680), (0x2000, 0x200A),
   (0x2028, 0x2029), (0x202F, 0x202F), (0x205F, 0x205F), (0x3000, 0x3000)]

/-- Whether the character is blank. -/
def isBlank (c : Char) : Bool := inRanges blankRanges c.toNat

/-- Drops the blank characters at both ends. -/
def trimChars (s : List Char) : List Char :=
  (((s.dropWhile isBlank).reverse).dropWhile isBlank).reverse

/-- Drops the blank characters at both ends of a text. -/
def trim (s : String) : String := String.ofList (trimChars s.toList)

end Courier.Text
