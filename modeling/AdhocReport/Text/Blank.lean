import AdhocReport.Text.Range
set_option autoImplicit false

/-!
# Text: blanks and trimming

Blank characters separate tokens and are trimmed from ids and values.  The set is Unicode white
space together with the four information separators U+001C to U+001F.
-/

namespace AdhocReport.Text

/-- Closed ranges of the blank code points. -/
def blankRanges : List (Nat × Nat) :=
  [(0x09, 0x0D), (0x1C, 0x20), (0x85, 0x85), (0xA0, 0xA0), (0x1680, 0x1680), (0x2000, 0x200A),
   (0x2028, 0x2029), (0x202F, 0x202F), (0x205F, 0x205F), (0x3000, 0x3000)]

/-- The character separates tokens and is trimmed. -/
def isBlank (c : Char) : Bool := inRanges blankRanges c.toNat

/-- Drop the blanks at the end. -/
def trimEnd (cs : List Char) : List Char := (cs.reverse.dropWhile isBlank).reverse

/-- Drop the blanks at both ends. -/
def trimChars (cs : List Char) : List Char := trimEnd (cs.dropWhile isBlank)

/-- Drop the blanks at both ends of a text. -/
def trim (s : String) : String := String.ofList (trimChars s.toList)

/-- The text holds nothing but blanks. -/
def isBlankText (s : String) : Bool := s.toList.all isBlank

end AdhocReport.Text
