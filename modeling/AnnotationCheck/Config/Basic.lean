import AnnotationCheck.Comment
import AnnotationCheck.Path.Basic
import AnnotationCheck.Toml.Document

/-!
The settings of a project.

`Config.ofToml` reads them from a TOML document; a key that does not exist, or a value of another kind
than its key asks for, makes the whole document invalid. `Config.excludes` says which files are read for
their declarations but not checked.
-/

namespace AnnotationCheck

/-- The settings of a project. -/
structure Config where
  /-- Where the files of the project lie, taken from its root. -/
  directories : List Path := [⟨Path.dot⟩]
  /-- What is not checked, taken from the root. -/
  excluded : List Path := [.ofString "vendor/"]
  /-- Names of class-likes that count as declared. -/
  knownClasses : List Text := []
  strategy : Strategy := .tokens
  deriving DecidableEq, Repr

/-- What is wrong with a file of settings. -/
inductive ConfigError where
  /-- The file cannot be read. -/
  | unreadable (file : Path) (reason : Text)
  /-- The file does not hold settings. -/
  | invalid (file : Path)
  deriving DecidableEq, Repr

namespace ConfigError

/-- The message for an error. -/
def message : ConfigError → Text
  | unreadable file reason => "could not read ".toList ++ file.text ++ ": ".toList ++ reason
  | invalid file => "invalid configuration in ".toList ++ file.text

end ConfigError

/-- The name of a way to find comments. -/
def Strategy.name : Strategy → Text
  | tokens => "tokenizer".toList
  | wholeFile => "whole-file".toList

/-- The way to find comments that has the given name. -/
def Strategy.ofName? (name : Text) : Option Strategy := [tokens, wholeFile].find? (·.name == name)

namespace Config

open Toml (Value Entries)

/-- The text of a value that is a string. -/
def text? : Value → Option Text
  | .string text => some text
  | _ => none

/-- The texts of a value that is a list of strings. -/
def texts? : Value → Option (List Text)
  | .list items => items.mapM text?
  | _ => none

/-- Whether nothing is in a list or table. -/
def isEmptyGroup : Value → Bool
  | .list [] => true
  | .table _ [] => true
  | _ => false

/-- The way to find comments that a value names, as a string or as the only key of a table with
nothing behind it. -/
def strategy? : Value → Option Strategy
  | .string name => Strategy.ofName? name
  | .table _ [(name, inner)] => if isEmptyGroup inner then Strategy.ofName? name else none
  | _ => none

/-- The settings with the one that an entry makes. -/
def set? (config : Config) (entry : Text × Value) : Option Config :=
  if entry.1 = "directories".toList then
    (texts? entry.2).map fun texts => { config with directories := texts.map Path.mk }
  else if entry.1 = "exclude_analysis".toList then
    (texts? entry.2).map fun texts => { config with excluded := texts.map Path.mk }
  else if entry.1 = "known_classes".toList then
    (texts? entry.2).map fun texts => { config with knownClasses := texts }
  else if entry.1 = "scan_strategy".toList then
    (strategy? entry.2).map fun strategy => { config with strategy := strategy }
  else none

/-- The settings that the entries of a document make. -/
def ofEntries? (entries : Entries) : Option Config := entries.foldlM set? {}

/-- The settings in a document from the given file. -/
def ofToml (file : Path) (document : Text) : Except ConfigError Config :=
  match (Toml.entries? document).bind ofEntries? with
  | some config => .ok config
  | none => .error (.invalid file)

/-! ### Exclusion -/

/-- The components without a leading `.`. -/
def behindCurrent : List Path.Component → List Path.Component
  | .current :: rest => rest
  | components => components

/-- Whether an entry of the list of exclusions covers a path from the root: the entry is not empty and
the path begins with it. -/
def covers (entry path : Path) : Bool :=
  behindCurrent entry.components != []
    && (behindCurrent entry.components).isPrefixOf (behindCurrent path.components)

/-- Whether a path from the root is not checked. -/
def excludes (config : Config) (path : Path) : Bool := config.excluded.any (covers · path)

end Config

end AnnotationCheck
