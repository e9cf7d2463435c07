import AnnotationCheck.Docblock.Placement
import AnnotationCheck.Docblock.Templates
import AnnotationCheck.Scope

/-!
What a script declares: its namespace, its imports and its class-likes.

The namespace of a file is that of its first namespace statement that has a name. Imports of functions
and constants do not count. A class-like is known by its full name, by the line of its first token and
by the template parameters of its docblock.
-/

namespace AnnotationCheck

/-- A class-like that a script declares. -/
structure Declaration where
  /-- The full name. -/
  name : Text
  line : Nat
  templates : List Text
  deriving DecidableEq, Repr

/-- What a script declares. -/
structure Declarations where
  /-- The namespace of the file. -/
  home : Option Text := none
  imports : Imports := .empty
  classes : List Declaration := []
  deriving DecidableEq, Repr

namespace Declarations

/-- The last segment of a name. -/
def lastSegment (name : Text) : Text := (Text.fields Union.separator name).getLastD name

/-- The name without the separators at both ends. -/
def trimSeparators (name : Text) : Text := Text.trim (· == Union.separator) name

/-- The full name of an imported class-like, without a leading separator. -/
def importTarget (base : Option Text) (name : Text) : Text :=
  match base with
  | some space => trimSeparators space ++ Union.separator :: Reference.bare name
  | none => Reference.bare name

/-- The name that an imported class-like is used under. -/
def importKey (base : Option Text) (item : Php.ImportItem) : Text :=
  item.shortName.getD (lastSegment (importTarget base item.name))

/-- The imports with those of one item. -/
def addImport (base : Option Text) (imports : Imports) (item : Php.ImportItem) : Imports :=
  imports.insert (importKey base item) (importTarget base item.name)

/-- The imports with those of a `use`. -/
def addImports (imports : Imports) : Php.ImportList → Imports
  | .names items => items.foldl (addImport none) imports
  | .group base items =>
    ((items.filter fun item => !item.1).map (·.2)).foldl (addImport (some base)) imports
  | .others => imports

/-- The name of a namespace without the separators it begins with; an empty name is none. -/
def spaceName (name : Option Text) : Option Text :=
  (name.map Reference.bare).filter (· != [])

/-- A class-like that is declared in a namespace. -/
def declaration (script : Text) (trivia : List Php.Trivia) (home : Option Text) (classLike : Php.ClassLike) :
    Declaration :=
  ⟨Scope.qualify home classLike.name, Text.lineAt script classLike.start,
    ((Docblock.before? script trivia classLike.start).map Docblock.templates).getD []⟩

mutual

/-- What is declared, with what one statement in the given namespace adds. -/
def add (script : Text) (trivia : List Php.Trivia) (home : Option Text) (found : Declarations) :
    Php.Statement → Declarations
  | .space name body =>
    addAll script trivia (spaceName name) { found with home := found.home.or (spaceName name) } body
  | .imports list => { found with imports := addImports found.imports list }
  | .declares classLike =>
    { found with classes := found.classes ++ [declaration script trivia home classLike] }
  | .other => found

/-- What is declared, with what statements in the given namespace add. -/
def addAll (script : Text) (trivia : List Php.Trivia) (home : Option Text) (found : Declarations) :
    List Php.Statement → Declarations
  | [] => found
  | statement :: rest => addAll script trivia home (add script trivia home found statement) rest

end

/-- What is declared, with the imports in the given order. -/
def arranged (declared : Declarations) (order : Imports.Order) : Declarations :=
  { declared with imports := declared.imports.arranged order }

/-- What a script declares of which a parser made the given program. -/
def ofProgram (script : Text) (program : Php.Program) : Declarations :=
  addAll script program.trivia none {} program.statements

variable [Php.Parser]

/-- What a script declares; nothing where the parser gives up. -/
def ofScript? (script : Text) : Option Declarations := (Php.parse? script).map (ofProgram script)

/-- What a script declares, with no declarations where the parser gives up. -/
def ofScript (script : Text) : Declarations := (ofScript? script).getD {}

end Declarations

end AnnotationCheck
