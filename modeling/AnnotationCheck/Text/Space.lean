import AnnotationCheck.Text.Basic

/-!
White space in the sense of Unicode: the characters with the property `White_Space`.
-/

namespace AnnotationCheck.Text

/-- The code points of Unicode's property `White_Space`, as ranges. -/
def spaceRanges : List (Nat × Nat) :=
  [(0x09, 0x0d), (0x20, 0x20), (0x85, 0x85), (0xa0, 0xa0), (0x1680, 0x1680), (0x2000, 0x200a),
    (0x2028, 0x2029), (0x202f, 0x202f), (0x205f, 0x205f), (0x3000, 0x3000)]

/-- A white space character. -/
def isSpace (c : Char) : Bool := spaceRanges.any fun (first, last) => first ≤ c.toNat && c.toNat ≤ last

end AnnotationCheck.Text
