/-!
Blank characters, and text without the blanks around it.
-/

namespace ExpiringCache.Text

def isBlank (c : Char) : Bool :=
  let n := c.toNat
  (0x09 ≤ n && n ≤ 0x0D) || n == 0x20 || n == 0x85 || n == 0xA0 || n == 0x1680 ||
    (0x2000 ≤ n && n ≤ 0x200A) || n == 0x2028 || n == 0x2029 || n == 0x202F || n == 0x205F ||
    n == 0x3000

def dropFront (p : Char → Bool) (cs : List Char) : List Char := cs.dropWhile p

def dropBack (p : Char → Bool) (cs : List Char) : List Char := (cs.reverse.dropWhile p).reverse

def trim (cs : List Char) : List Char := dropBack isBlank (dropFront isBlank cs)

end ExpiringCache.Text
