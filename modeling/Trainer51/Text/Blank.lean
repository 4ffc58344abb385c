/-!
# Blank characters

The characters that Unicode gives the property White_Space, and text without them at its ends.
-/

namespace Trainer51

/-- Whether Unicode counts `c` as white space. -/
def isBlank (c : Char) : Bool :=
  let n := c.toNat
  (9 ≤ n && n ≤ 13) || n == 0x20 || n == 0x85 || n == 0xA0 || n == 0x1680
    || (0x2000 ≤ n && n ≤ 0x200A) || n == 0x2028 || n == 0x2029 || n == 0x202F || n == 0x205F
    || n == 0x3000

/-- `cs` without the blanks at its start and its end. -/
def trimBlanks (cs : List Char) : List Char :=
  ((cs.dropWhile isBlank).reverse.dropWhile isBlank).reverse

/-- `s` without the blanks at its start and its end. -/
def trimText (s : String) : String := String.ofList (trimBlanks s.toList)

end Trainer51
