import AnnotationCheck.Scope

/-!
The class-likes that are known, and the references that name none of them.

Class names are compared without regard to ASCII case and to the separators they begin with. Of a full
name a table only evens out the case, for one separator is to stand before it already.
`missing` lists the full names in a union type that a table does not know.
-/

namespace AnnotationCheck

/-- A full name with exactly one separator before it. -/
def canonical (name : Text) : Text := Union.separator :: Reference.bare name

/-- What counts of a name when class names are compared. -/
def classKey (name : Text) : Text := Text.lower (canonical name)

/-- The class-likes that are known. -/
structure Symbols where
  /-- The keys of their names. -/
  keys : List Text
  deriving Repr

namespace Symbols

/-- The table of the given names. -/
def ofNames (names : List Text) : Symbols := ⟨names.map classKey⟩

/-- The table of the given full names. -/
def ofFullNames (names : List Text) : Symbols := ⟨names.map Text.lower⟩

/-- The table with one more name. -/
def insert (symbols : Symbols) (name : Text) : Symbols := ⟨classKey name :: symbols.keys⟩

/-- The table with one more full name. -/
def insertFull (symbols : Symbols) (name : Text) : Symbols := ⟨Text.lower name :: symbols.keys⟩

/-- Whether a name is known. -/
def has (symbols : Symbols) (name : Text) : Bool := symbols.keys.contains (classKey name)

end Symbols

/-- The full name of a reference to a class-like that `known` does not hold. -/
def Scope.missing? (scope : Scope) (known : Text → Bool) : Reference → Option Text
  | .classLike name => if known (scope.resolve name) then none else some (scope.resolve name)
  | _ => none

/-- The full names in a union type that `known` does not hold, in the order of its members. -/
def Scope.missing (scope : Scope) (known : Text → Bool) (union : Text) : List Text :=
  (Reference.ofUnion scope.templates union).filterMap (scope.missing? known)

end AnnotationCheck
