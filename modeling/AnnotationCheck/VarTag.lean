import AnnotationCheck.Union.Basic

/-!
Inline `var` annotations.

An annotation is `@var` or `@phan-var`, gaps, a union type, gaps and the variable that has this type.
`VarTag.behindAt?` reads one behind an `@`, and `VarTag.ofText` lists those of a text from left to right,
each one beginning behind the end of the one before.
-/

namespace AnnotationCheck

/-- The type that a comment gives to a variable. -/
structure VarTag where
  /-- The union type, as written. -/
  type : Text
  /-- The name of the variable, without its `$`. -/
  subject : Text
  /-- The line of the comment that holds the annotation. -/
  line : Nat
  deriving DecidableEq, Repr

namespace VarTag

/-- The word at the beginning of an annotation, and the vendor's mark that may stand before it. -/
def tagWord : Text := "var".toList

@[inherit_doc tagWord]
def vendorMark : Text := "phan-".toList

/-- What follows at least one gap character. -/
def behindGap? (text : Text) : Option Text :=
  match text with
  | c :: rest => if Text.isGap c then some (rest.dropWhile Text.isGap) else none
  | [] => none

/-- What follows the tag of an annotation; the tag is a whole word. -/
def behindTag? (text : Text) : Option Text :=
  match tagWord.isPrefixOf? (Text.dropPrefix vendorMark text) with
  | none => none
  | some rest => if rest.head?.any Text.isWord then none else some rest

/-- The union type at the beginning of a text, and what follows it. -/
def typeAt? (text : Text) : Option (Text × Text) :=
  if Union.length text = 0 then none
  else some (text.take (Union.length text), text.drop (Union.length text))

/-- The variable at the beginning of a text, without its `$`, and what follows it. -/
def subjectAt? : Text → Option (Text × Text)
  | '$' :: rest =>
    if rest.takeWhile Text.isWord = [] then none
    else some (rest.takeWhile Text.isWord, rest.dropWhile Text.isWord)
  | _ => none

/-- The type and the variable of the annotation that stands behind an `@`, and what follows it. -/
def behindAt? (text : Text) : Option (Text × Text × Text) := do
  let behindTag ← behindTag? text
  let atType ← behindGap? behindTag
  let (type, behindType) ← typeAt? atType
  let atSubject ← behindGap? behindType
  let (subject, rest) ← subjectAt? atSubject
  return (type, subject, rest)

/-- The annotations of a text of which the first `skipped` characters are done with. -/
def scan (line : Nat) : Nat → Text → List VarTag
  | _, [] => []
  | skipped + 1, _ :: rest => scan line skipped rest
  | 0, c :: rest =>
    if c = '@' then
      match behindAt? rest with
      | some (type, subject, behind) => ⟨type, subject, line⟩ :: scan line (rest.length - behind.length) rest
      | none => scan line 0 rest
    else scan line 0 rest

/-- The annotations of the text of a comment that begins on `line`, from left to right. -/
def ofText (line : Nat) (text : Text) : List VarTag := scan line 0 text

end VarTag

end AnnotationCheck
