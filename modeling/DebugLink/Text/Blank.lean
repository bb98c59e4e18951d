/-!
# Blank characters

Every rule of this library that ignores surrounding space ignores the characters
with the Unicode property White_Space, and no others: the information separators
U+001C to U+001F and the zero width space U+200B are ordinary characters.
-/

namespace DebugLink.Text.Blank

/-- The characters with the Unicode property White_Space. -/
def isBlank (c : Char) : Bool :=
  let n := c.toNat
  (9 ≤ n && n ≤ 13) || n == 0x20 || n == 0x85 || n == 0xA0 || n == 0x1680 ||
    (0x2000 ≤ n && n ≤ 0x200A) || n == 0x2028 || n == 0x2029 || n == 0x202F ||
    n == 0x205F || n == 0x3000

/-- The text without its leading blanks. -/
def trimStart (cs : List Char) : List Char := cs.dropWhile isBlank

/-- The text without its trailing blanks. -/
def trimEnd (cs : List Char) : List Char := (cs.reverse.dropWhile isBlank).reverse

/-- The text without its leading and trailing blanks. -/
def trim (cs : List Char) : List Char := trimEnd (trimStart cs)

/-- A text of blanks alone, which includes the empty text. -/
def isAllBlank (cs : List Char) : Bool := cs.all isBlank

/-- Trimming leaves nothing of the empty text. -/
@[simp] theorem trim_nil : trim [] = [] := rfl

end DebugLink.Text.Blank
