import AnnotationCheck.Analysis.Basic
import AnnotationCheck.Builtins
import AnnotationCheck.Config.Basic
import AnnotationCheck.Declarations
import AnnotationCheck.Disk.Basic

/-!
A code base whose files have been indexed.

`Project.new` knows the built-in class-likes and those of the settings; `Project.addSource` adds what a
script declares, and nothing where the parser gives the script up. `Project.declarations` are the scopes of all
class-likes, in the order of their files.
-/

namespace AnnotationCheck

/-- A file to be indexed, with the order in which its imports will be asked. -/
structure Source where
  path : Path
  content : Text
  order : Imports.Order := .inserted

/-- A file of a project. -/
structure IndexedFile where
  path : Path
  declared : Declarations
  deriving DecidableEq, Repr

/-- A code base whose files have been indexed. -/
structure Project where
  root : Path
  config : Config
  files : List IndexedFile := []
  /-- The class-likes that are known. -/
  symbols : Symbols
  deriving Repr

namespace Project

/-- A project without files, which knows the built-in class-likes and those of the settings. -/
def new (root : Path) (config : Config) : Project :=
  { root := root, config := config,
    symbols := config.knownClasses.foldl Symbols.insert (.ofFullNames builtinClasses) }

/-- The project with a file that declares what is given. -/
def addDeclared (project : Project) (path : Path) (declared : Declarations) : Project :=
  { project with
    files := project.files ++ [⟨path, declared⟩]
    symbols :=
      declared.classes.foldl (fun symbols declaration => symbols.insertFull declaration.name) project.symbols }

section Parser

variable [Php.Parser]

/-- The project with a file of the given text, whose imports are asked in the given order; a file that the parser
gives up is passed by. -/
def addSource (project : Project) (path : Path) (content : Text) (order : Imports.Order := .inserted) : Project :=
  match Declarations.ofScript? content with
  | some declared => project.addDeclared path (declared.arranged order)
  | none => project

/-- The project with some files, one after the other. -/
def addSources (project : Project) (sources : List Source) : Project :=
  sources.foldl (fun project source => project.addSource source.path source.content source.order) project

@[simp] theorem addSources_nil (project : Project) : project.addSources [] = project := rfl

@[simp] theorem addSources_cons (project : Project) (source : Source) (rest : List Source) :
    project.addSources (source :: rest)
      = (project.addSource source.path source.content source.order).addSources rest := rfl

end Parser

/-- The scope of a class-like that a file declares. -/
def scopeOf (file : IndexedFile) (declaration : Declaration) : Scope :=
  { file := file.path, line := declaration.line, owner := declaration.name, home := file.declared.home,
    imports := file.declared.imports, templates := declaration.templates }

/-- The scopes of the class-likes of a project; the file of each one is that of its scope. -/
def declarations (project : Project) : List Scope :=
  project.files.flatMap fun file => file.declared.classes.map (scopeOf file)

/-- Whether a file is not checked. -/
def isExcluded (project : Project) (path : Path) : Bool :=
  project.config.excludes (path.relativeTo project.root)

/-- Whether a class-like of this full name is known. -/
def hasClass (project : Project) (name : Text) : Bool := project.symbols.has name

/-- The text of a file on a disk, or the wording of the reason why it cannot be read. -/
def readFrom (disk : Disk) (path : Path) : Except Text Text :=
  match disk.read path with
  | .ok content => .ok content
  | .error reason => .error reason.message

/-- The project as an analysis sees it, where its files lie on a disk. -/
def host (project : Project) (disk : Disk) : Host := ⟨project.hasClass, project.isExcluded, readFrom disk⟩

end Project

end AnnotationCheck
