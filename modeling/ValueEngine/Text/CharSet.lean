import ValueEngine.Text.Escaped
import ValueEngine.Text.Word

/-! Sets of characters. A large set is an ascending list of boundaries, and a
character belongs to it when an odd number of boundaries lie at or below it. -/

namespace ValueEngine.Text

/-- Membership in the set that changes at each boundary, starting outside. -/
def within (boundaries : List Nat) (c : Char) : Bool :=
  (boundaries.takeWhile (· ≤ c.toNat)).length % 2 = 1

/-- White space: the ASCII blanks, next line, and the Unicode spaces and separators. -/
def isBlank (c : Char) : Bool :=
  let n := c.toNat
  (9 ≤ n && n ≤ 13) || n == 0x20 || n == 0x85 || n == 0xA0 || n == 0x1680 ||
  (0x2000 ≤ n && n ≤ 0x200A) || n == 0x2028 || n == 0x2029 || n == 0x202F ||
  n == 0x205F || n == 0x3000

def isWord (c : Char) : Bool := within Word.boundaries c

/-- Characters that quoted text shows by number. -/
def isEscaped (c : Char) : Bool :=
  if 0x20 ≤ c.toNat ∧ c.toNat < 0x7F then false else within Escaped.boundaries c

def trimmed (cs : List Char) : List Char :=
  ((cs.dropWhile isBlank).reverse.dropWhile isBlank).reverse

end ValueEngine.Text
