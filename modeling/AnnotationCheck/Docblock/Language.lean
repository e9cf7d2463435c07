import AnnotationCheck.Docblock.Templates

/-!
The language of template tags, stated without reference to any scan.

`Declares` says that a line is a template tag for a name: the tag stands behind a margin of white space and
stars, and the name is a word of its own behind it. `Docblock.written` puts the lines of a docblock together.
-/

namespace AnnotationCheck.Docblock

/-- White space alone. -/
def IsSpaces (text : Text) : Prop := ∀ c ∈ text, Text.isSpace c = true

instance (text : Text) : Decidable (IsSpaces text) := List.decidableBAll _ text

/-- What may stand before a tag on its line: stars, with white space on both sides. -/
def IsMargin (margin : Text) : Prop :=
  ∃ before stars behind : Text, IsSpaces before ∧ (∀ c ∈ stars, c = '*') ∧ IsSpaces behind ∧
    margin = before ++ (stars ++ behind)

/-- The name of a template: a word that a letter or `_` begins. -/
structure IsTemplateName (name : Text) : Prop where
  begins : name.head?.any isNameStart = true
  isWord : ∀ c ∈ name, Text.isSpace c = false

instance (name : Text) : Decidable (IsTemplateName name) :=
  decidable_of_iff (name.head?.any isNameStart = true ∧ name.all (fun c => !Text.isSpace c) = true)
    ⟨fun parts => ⟨parts.1, by simpa using parts.2⟩, fun isName => ⟨isName.begins, by simpa using isName.isWord⟩⟩

/-- A template tag with its name: any of the vendors' marks or none, any of the variances or none. -/
def IsTemplateTag (tag name : Text) : Prop :=
  ∃ vendor ∈ [] :: vendorMarks, ∃ variance ∈ [] :: variances, ∃ gap : Text, gap ≠ [] ∧ IsSpaces gap ∧
    tag = '@' :: (vendor ++ (templateWord ++ (variance ++ (gap ++ name))))

/-- A line declares a template of the given name: it is a template tag behind a margin, and the name ends with
the line or before white space. -/
def Declares (line name : Text) : Prop :=
  ∃ margin tag rest : Text, IsMargin margin ∧ IsTemplateTag tag name ∧ IsTemplateName name ∧
    (∀ c ∈ rest.head?, Text.isSpace c = true) ∧ line = margin ++ (tag ++ rest)

/-- The names that lines declare, in the order of the lines. -/
inductive Lists : List Text → List Text → Prop
  | nil : Lists [] []
  | tag {line name : Text} {lines names : List Text} : Declares line name → Lists lines names →
      Lists (line :: lines) (name :: names)
  | other {line : Text} {lines names : List Text} : (∀ name, ¬ Declares line name) → Lists lines names →
      Lists (line :: lines) names

/-! ### Docblocks as they are written -/

/-- What ends a line. -/
inductive LineEnd where
  | lineFeed
  | returnAndLineFeed
  deriving DecidableEq, Repr

/-- What stands before the line feed at the end of a line. -/
def LineEnd.mark : LineEnd → Text
  | lineFeed => []
  | returnAndLineFeed => ['\r']

/-- Lines with their ends between them; behind the last one there is none. -/
def joined : List (Text × LineEnd) → Text
  | [] => []
  | [(line, _)] => line
  | (line, ending) :: next :: rest => line ++ (ending.mark ++ '\n' :: joined (next :: rest))

/-- The docblock of some lines, with the given text around it. -/
def written (lead : Text) (lines : List (Text × LineEnd)) (trail : Text) : Text :=
  lead ++ ("/**".toList ++ (joined lines ++ "*/".toList) ++ trail)

/-- A template tag on a line, in one of its spellings and with a remark behind the name. -/
structure TagLine where
  margin : Text
  vendor : Text
  variance : Text
  name : Text
  remark : Text
  isMargin : IsMargin margin
  isVendor : vendor ∈ [] :: vendorMarks
  isVariance : variance ∈ [] :: variances
  isName : IsTemplateName name

/-- The text of a line with a template tag. -/
def TagLine.text (tag : TagLine) : Text :=
  tag.margin ++
    (('@' :: (tag.vendor ++ (templateWord ++ (tag.variance ++ ([' '] ++ tag.name))))) ++ ' ' :: tag.remark)

/-- A line of a docblock. -/
inductive Row where
  | tag (row : TagLine)
  /-- Any line that is no template tag. -/
  | other (line : Text) (ordinary : ∀ name, ¬ Declares line name)

namespace Row

/-- The text of a line. -/
def text : Row → Text
  | .tag row => row.text
  | .other line _ => line

/-- The name that a line was written for. -/
def name? : Row → Option Text
  | .tag row => some row.name
  | .other _ _ => none

end Row

end AnnotationCheck.Docblock
