import AnnotationCheck.CommandLine.Options
import AnnotationCheck.Disk.Listing
import AnnotationCheck.Php.Statement
import AnnotationCheck.Project.Check
import AnnotationCheck.Project.Load

/-!
What the program does for its arguments, on a given disk: the report it prints, the lines it warns with
and its exit code, which is 0 without issues, 1 with some and 2 where nothing could be checked. It takes the parser
and the walker of this library.
-/

namespace AnnotationCheck.CommandLine

/-- What a run of the program leaves. -/
structure Outcome where
  code : Nat
  /-- What is printed. -/
  output : Text := []
  /-- The lines of the error output. -/
  warnings : List Text := []
  deriving DecidableEq, Repr

/-- The name and version of the program. -/
def versionLine : Text := "phpantom-inline-var 0.1.0\n".toList

/-- How the program is called. -/
def usage : Text :=
  ("Usage: phpantom-inline-var [--config FILE] [--format text|json] [--no-tokenizer] " ++
    "[--exclude PATH]... [ROOT]\n").toList

/-- The root of the project, the place one is at unless it is given. -/
def Options.projectRoot (options : Options) : Path := options.root.getD ⟨Path.dot⟩

/-- The settings with those of the arguments. -/
def Options.apply (options : Options) (config : Config) : Config :=
  { config with
    excluded := config.excluded ++ options.excluded
    strategy := if options.wholeFile then .wholeFile else config.strategy }

/-- The message for settings that could not be loaded; the reason why a file cannot be read stands in
it twice, with the message of the error and as its cause. -/
def configMessage (root : Path) (error : ConfigError) : Text :=
  let cause := match error with
    | .unreadable _ reason => ": ".toList ++ reason
    | .invalid _ => []
  "error: loading configuration for ".toList ++ root.text ++ ": ".toList ++ error.message ++ cause

/-- The report of sorted issues as it is printed. -/
def printed (format : Report.Format) (root : Path) (issues : List Issue) : Text :=
  match format with
  | .text => Report.render .text root issues
  | .json => Report.render .json root issues ++ ['\n']

/-- What checking a project with the given settings leaves. -/
def check (disk : Disk) (options : Options) (config : Config) : Outcome :=
  let result := (Project.load disk options.projectRoot config).check disk config.strategy {}
  { code := if result.issues = [] then 0 else 1
    output := printed (options.format.getD .text) options.projectRoot (Issue.sort result.issues)
    warnings := result.errors.map fun error => "warning: ".toList ++ error.message }

/-- What a request leaves. -/
def answer (disk : Disk) : Request → Outcome
  | .version => { code := 0, output := versionLine }
  | .help => { code := 0, output := usage }
  | .check options =>
    match Config.load disk options.projectRoot options.config with
    | .error error => { code := 2, warnings := [configMessage options.projectRoot error] }
    | .ok config => check disk options (options.apply config)

/-- What the program leaves for its arguments. -/
def run (disk : Disk) (arguments : List Text) : Outcome :=
  match request? arguments with
  | none => { code := 2, warnings := [usage] }
  | some request => answer disk request

end AnnotationCheck.CommandLine
