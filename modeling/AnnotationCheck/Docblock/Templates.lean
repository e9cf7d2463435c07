import AnnotationCheck.Text.Space

/-!
The template parameters that a docblock declares.

Each line of the docblock that is a `template` tag, of whichever vendor and variance, declares the
first word behind the tag, if a letter or `_` begins it. `Docblock.templates` lists these names.
-/

namespace AnnotationCheck.Docblock

/-- The vendors' marks that may stand before the word of a template tag. -/
def vendorMarks : List Text := ["phpstan-", "psalm-", "phan-"].map String.toList

/-- The word of a template tag. -/
def templateWord : Text := "template".toList

/-- The variances that may follow the word of a template tag. -/
def variances : List Text := ["-covariant", "-contravariant"].map String.toList

/-- What follows the first of `beginnings` that the text has, or the whole text when it has none. -/
def behindFirst (beginnings : List Text) (text : Text) : Text :=
  (beginnings.findSome? (·.isPrefixOf? text)).getD text

/-- The text between the marks of a docblock; without both marks it is the whole docblock. -/
def inner (docblock : Text) : Text :=
  let opened := (("/**".toList).isPrefixOf? (Text.trim Text.isSpace docblock)).getD docblock
  (Text.beforeSuffix? "*/".toList opened).getD docblock

/-- A line without the white space and the stars that lead it, and without the space around it. -/
def content (line : Text) : Text :=
  Text.trim Text.isSpace ((Text.trim Text.isSpace line).dropWhile (· == '*'))

/-- A template's name begins with an ASCII letter or `_`. -/
def isNameStart (c : Char) : Bool := c.isAlpha || c == '_'

/-- The first word of what follows a tag; white space must separate the two. -/
def wordBehind? (rest : Text) : Option Text :=
  match rest with
  | c :: more =>
    if Text.isSpace c then
      some ((more.dropWhile Text.isSpace).takeWhile fun d => !Text.isSpace d)
    else none
  | [] => none

/-- The name that a line declares, if the line is a template tag. -/
def templateOfLine? (line : Text) : Option Text := do
  let tag ← ['@'].isPrefixOf? (content line)
  let rest ← templateWord.isPrefixOf? (behindFirst vendorMarks tag)
  let name ← wordBehind? (behindFirst variances rest)
  if name.head?.any isNameStart then some name else none

/-- The names of the template parameters, in the order of their lines. -/
def templates (docblock : Text) : List Text :=
  (Text.fields '\n' (inner docblock)).filterMap templateOfLine?

end AnnotationCheck.Docblock
