/-!
# Blanks

The characters that count as white space at the ends of a line.

* `isBlank`: the white space characters of Unicode.
* `trim`: a text without the blanks at its two ends.
-/

namespace RiscvListing

/-- Whether a character is white space: the controls tab to carriage return, the space, the next
line control, and the separators of Unicode. -/
def isBlank (c : Char) : Bool :=
  let code := c.toNat
  (0x09 ≤ code && code ≤ 0x0D) || code == 0x20 || code == 0x85 || code == 0xA0 ||
    code == 0x1680 || (0x2000 ≤ code && code ≤ 0x200A) || code == 0x2028 || code == 0x2029 ||
    code == 0x202F || code == 0x205F || code == 0x3000

/-- A text without the blanks at its start and at its end. -/
def trim (text : List Char) : List Char :=
  ((text.dropWhile isBlank).reverse.dropWhile isBlank).reverse

/-- Trimming nothing leaves nothing. -/
@[simp] theorem trim_nil : trim [] = [] := rfl

end RiscvListing
