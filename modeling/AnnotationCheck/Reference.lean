import AnnotationCheck.Union.Basic

/-!
What a name in a union type refers to.

`Reference.ofName?` sorts a name into built-in types, the class at hand, template parameters and
class-likes; `Reference.ofUnion` does so for every member of a union, without its `[]`.
-/

namespace AnnotationCheck

/-- What a name in a type refers to. -/
inductive Reference where
  /-- A built-in type, spelled in small letters. -/
  | native (name : Text)
  /-- `self` or `static`. -/
  | ownClass
  /-- A template parameter of the class at hand. -/
  | template (name : Text)
  /-- A class-like, as it was written. -/
  | classLike (name : Text)
  deriving DecidableEq, Repr

namespace Reference

/-- The names of the built-in types. -/
def nativeNames : List Text :=
  ["int", "integer", "float", "double", "string", "bool", "boolean", "array", "list", "iterable",
    "callable", "object", "mixed", "null", "void", "never", "resource", "scalar", "numeric", "true",
    "false"].map String.toList

/-- The names that stand for the class at hand. -/
def ownNames : List Text := ["self", "static"].map String.toList

/-- A built-in type, in any case. -/
def isNative (name : Text) : Bool := nativeNames.any (Text.sameIgnoringCase · name)

/-- `self` or `static`, in any case. -/
def isOwnClass (name : Text) : Bool := ownNames.any (Text.sameIgnoringCase · name)

/-- The name without the separators it begins with. -/
def bare (name : Text) : Text := name.dropWhile (· == Union.separator)

/-- What a name refers to, where `templates` are the template parameters; nothing for separators alone. -/
def ofName? (templates : List Text) (name : Text) : Option Reference :=
  if bare name = [] then none
  else if isNative (bare name) then some (native (Text.lower (bare name)))
  else if isOwnClass (bare name) then some ownClass
  else if name ∈ templates then some (template name)
  else some (classLike name)

/-- The references of a union type, in the order of its members. -/
def ofUnion (templates : List Text) (union : Text) : List Reference :=
  (Union.members union).filterMap fun member => ofName? templates (Union.element member)

end Reference

end AnnotationCheck
