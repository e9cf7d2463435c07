import AnnotationCheck.Disk.Walk
import AnnotationCheck.Project.Basic

/-!
Indexing the files of a project, and finding its settings.

The files are those that a walker comes upon below the directories of the settings, whose extension is `php` and
that hold text. The settings lie in a file of the root, unless another file is named.
-/

namespace AnnotationCheck

namespace Config

/-- The name of the file with the settings in the root of a project. -/
def fileName : Text := ".phpantom-inline-var.toml".toList

/-- The settings in a file. -/
def readFile (disk : Disk) (file : Path) : Except ConfigError Config :=
  match disk.read file with
  | .ok document => ofToml file document
  | .error reason => .error (.unreadable file reason.message)

/-- The settings of the project at a root; a file that is named must exist, and without one the file in
the root need not. -/
def load (disk : Disk) (root : Path) (named : Option Path) : Except ConfigError Config :=
  match named with
  | some file => readFile disk file
  | none => if disk.isFile (root.join ⟨fileName⟩) then readFile disk (root.join ⟨fileName⟩) else .ok {}

end Config

namespace Project

/-- The extension of the files that are indexed. -/
def sourceExtension : Path.Name := Text.bytes "php".toList

/-- What is indexed of what a walker came upon: the text of a file, if it can be read. -/
def source? (disk : Disk) (walked : Disk.Walked) : Option (Path × Text) :=
  if walked.isFile ∧ walked.path.extension? = some sourceExtension then
    match disk.read walked.path with
    | .ok content => some (walked.path, content)
    | .error _ => none
  else none

/-- Where the files of a project lie. -/
def starts (root : Path) (config : Config) : List Path :=
  config.directories.map fun directory => (root.join directory).tidy

/-- The files of a project with their texts; the imports of each file are asked in the order that goes with its
number. -/
def sources [Disk.Walker] (disk : Disk) (root : Path) (config : Config) (orders : Nat → Imports.Order) : List Source :=
  (((starts root config).flatMap (Disk.Walker.walk disk)).filterMap (source? disk)).zipIdx.map
    fun (found, number) => ⟨found.1, found.2, orders number⟩

/-- The project with its files indexed. -/
def load [Disk.Walker] [Php.Parser] (disk : Disk) (root : Path) (config : Config)
    (orders : Nat → Imports.Order := fun _ => .inserted) : Project :=
  (new root config).addSources (sources disk root config orders)

end Project

end AnnotationCheck
