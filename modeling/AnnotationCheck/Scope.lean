import AnnotationCheck.Path.Basic
import AnnotationCheck.Reference

/-!
Where a type name is read: the file, the class at hand, its namespace, imports and template parameters.

Imports are asked for a name in its own spelling first, and then for one that differs from it in case alone. If
several do, the first one counts, in an order that nothing fixes: an `Imports.Order` stands for it.

`Scope.resolve` turns a name as written into the name of a class-like: a leading separator is taken as
it is, else the first segment is looked up among the imports, else the namespace is put before it.
-/

namespace AnnotationCheck

/-- The imports of a file: the name each one is used under, and the class-like it stands for. -/
structure Imports where
  entries : List (Text × Text)
  deriving DecidableEq, Repr

namespace Imports

/-- No imports. -/
def empty : Imports := ⟨[]⟩

/-- The entries with `name` standing for `target` alone. -/
def put (name target : Text) : List (Text × Text) → List (Text × Text)
  | [] => [(name, target)]
  | entry :: rest => if entry.1 = name then (name, target) :: rest else entry :: put name target rest

/-- The imports with `name` standing for `target`, whatever it stood for. -/
def insert (imports : Imports) (name target : Text) : Imports := ⟨put name target imports.entries⟩

/-- What a name stands for, in this very spelling. -/
def find? (imports : Imports) (name : Text) : Option Text :=
  (imports.entries.find? (·.1 == name)).map (·.2)

/-- What a name stands for, in any case; its own spelling goes first, and then the entries in their order. -/
def lookup? (imports : Imports) (name : Text) : Option Text :=
  (imports.find? name).or ((imports.entries.find? fun entry => Text.sameIgnoringCase entry.1 name).map (·.2))

/-- An order in which imports are asked. Which one it is, is left open. -/
structure Order where
  /-- The entries in that order. -/
  arrange : List (Text × Text) → List (Text × Text)
  isPerm : ∀ entries, (arrange entries).Perm entries

/-- The order in which imports were put in. -/
def Order.inserted : Order := ⟨id, .refl⟩

/-- The imports with their entries in the given order. -/
def arranged (imports : Imports) (order : Order) : Imports := ⟨order.arrange imports.entries⟩

end Imports

/-- Where a type name is read. -/
structure Scope where
  /-- The file that declares the class at hand. -/
  file : Path := ⟨[]⟩
  /-- The line at which findings are reported. -/
  line : Nat := 1
  /-- The full name of the class at hand. -/
  owner : Text := []
  /-- The namespace, if there is one. -/
  home : Option Text := none
  /-- The imports of the file. -/
  imports : Imports := .empty
  /-- The template parameters of the class at hand. -/
  templates : List Text := []
  deriving DecidableEq, Repr

namespace Scope

/-- The scope in the given namespace; an empty name is none. -/
def withHome (scope : Scope) (name : Text) : Scope :=
  { scope with home := if name = [] then none else some name }

/-- The scope with one more import; one separator at the beginning of its target does not count. -/
def withImport (scope : Scope) (name target : Text) : Scope :=
  { scope with imports := scope.imports.insert name (Text.dropPrefix [Union.separator] target) }

/-- The first segment of a name, and the rest of it from its first separator on. -/
def splitFirst (name : Text) : Text × Text :=
  (name.takeWhile (· != Union.separator), name.dropWhile (· != Union.separator))

/-- The full name of a class-like from its namespace and its own name. -/
def qualify (home : Option Text) (name : Text) : Text :=
  match home with
  | some space => Union.separator :: space ++ Union.separator :: name
  | none => Union.separator :: name

/-- The full name that a name as written stands for. -/
def resolve (scope : Scope) (name : Text) : Text :=
  if name.head? = some Union.separator then name
  else
    match scope.imports.lookup? (splitFirst name).1 with
    | some target => Union.separator :: target ++ (splitFirst name).2
    | none => qualify scope.home name

end Scope

end AnnotationCheck
