import AnnotationCheck.Union.Language
import AnnotationCheck.VarTag

/-!
The language of annotations, stated without reference to any scan.

`IsDivided` says that what stands behind an `@` can be divided into the parts of an annotation. It asks
for no longest match, so that one text may be divided in several ways: the name of the variable may end
anywhere in a run of word characters.
-/

namespace AnnotationCheck.VarTag

/-- One gap character or more. -/
def IsGap (text : Text) : Prop := text ≠ [] ∧ ∀ c ∈ text, Text.isGap c = true

/-- The name of a variable: one word character or more. -/
def IsSubject (text : Text) : Prop := text ≠ [] ∧ ∀ c ∈ text, Text.isWord c = true

/-- The tag of an annotation behind its `@`, with or without the vendor's mark. -/
def IsTagText (text : Text) : Prop := text = tagWord ∨ text = vendorMark ++ tagWord

/-- What stands behind an `@` is an annotation of the given type and variable, and a rest. -/
def IsDivided (behind type subject rest : Text) : Prop :=
  ∃ tag before between : Text,
    IsTagText tag ∧ IsGap before ∧ Union.IsUnion type ∧ IsGap between ∧ IsSubject subject ∧
      behind = tag ++ before ++ type ++ between ++ '$' :: subject ++ rest

end AnnotationCheck.VarTag
