/-!
# Blanks and letter case

The characters that trimming removes, which are exactly those with the Unicode
property `White_Space`, and the comparison of names that ignores the case of
ASCII letters and of nothing else.
-/

namespace ClusterLink.Text

/-- The characters with the property `White_Space`. -/
def isBlank (c : Char) : Bool :=
  let n := c.toNat
  (0x09 ≤ n && n ≤ 0x0D) || n == 0x20 || n == 0x85 || n == 0xA0 || n == 0x1680
    || (0x2000 ≤ n && n ≤ 0x200A) || n == 0x2028 || n == 0x2029 || n == 0x202F
    || n == 0x205F || n == 0x3000

/-- A text without the blanks at its two ends. -/
def trim (cs : List Char) : List Char :=
  ((cs.dropWhile isBlank).reverse.dropWhile isBlank).reverse

/-- Whether two names differ at most in the case of ASCII letters. -/
def sameName (a b : List Char) : Bool :=
  a.map Char.toLower == b.map Char.toLower

/-- Nothing is left to trim in an empty text. -/
@[simp] theorem trim_nil : trim [] = [] := rfl

end ClusterLink.Text
