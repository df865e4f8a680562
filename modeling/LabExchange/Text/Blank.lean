/-!
# Blank characters

The characters with the Unicode property `White_Space`.
-/
namespace LabExchange.Text

def isBlank (c : Char) : Bool :=
  let n := c.toNat
  (0x09 ≤ n && n ≤ 0x0D) || n == 0x20 || n == 0x85 || n == 0xA0 || n == 0x1680 ||
    (0x2000 ≤ n && n ≤ 0x200A) || n == 0x2028 || n == 0x2029 || n == 0x202F || n == 0x205F ||
    n == 0x3000

/-- The text without the blanks at its front. -/
def trimStart (text : List Char) : List Char := text.dropWhile isBlank

/-- The text without the blanks at its front and at its end. -/
def trim (text : List Char) : List Char := (trimStart (trimStart text).reverse).reverse

end LabExchange.Text
