import AnnotationCheck.Php.Program
import AnnotationCheck.Text.Offset

/-!
The docblock that belongs to a place in a script: the last one before it, if nothing but blanks and
comments lies between.
-/

namespace AnnotationCheck.Docblock

/-- The blanks of ASCII text, as bytes. -/
def isBlankByte (byte : UInt8) : Bool :=
  byte == 32 || byte == 9 || byte == 10 || byte == 12 || byte == 13

/-- The last docblock among `earlier`, the trivia before `boundary` from the last one back, with
nothing but blanks and other trivia behind it. -/
def search (script : Text) : Nat → List Php.Trivia → Option Text
  | _, [] => none
  | boundary, last :: earlier =>
    if (Text.bytesBetween script last.stop boundary).all isBlankByte then
      if last.kind = .docblock then some last.text else search script last.start earlier
    else none

/-- The docblock that belongs to the byte offset `place` of a script with the given trivia. -/
def before? (script : Text) (trivia : List Php.Trivia) (place : Nat) : Option Text :=
  search script place ((trivia.takeWhile fun piece => piece.start < place).reverse)

end AnnotationCheck.Docblock
