import AnnotationCheck.Path.Basic
import AnnotationCheck.Report.Basic

/-!
The arguments of a command line.

`CommandLine.request?` reads them from left to right, so that what asks for the version or for help
counts only where nothing before it is wrong. An option with a value takes it behind a `=` or from the
next argument, which must not look like an option; behind `--` there are no options.
-/

namespace AnnotationCheck.CommandLine

/-- What a check is asked to do. -/
structure Options where
  /-- The root of the project, if it is given. -/
  root : Option Path := none
  /-- The file with the settings, if it is given. -/
  config : Option Path := none
  /-- The form of the report, if it is given. -/
  format : Option Report.Format := none
  /-- Whether a whole file is taken for one comment. -/
  wholeFile : Bool := false
  /-- What is not checked, besides what the settings exclude. -/
  excluded : List Path := []
  deriving DecidableEq, Repr

/-- What the arguments ask for. -/
inductive Request where
  | check (options : Options)
  | version
  | help
  deriving DecidableEq, Repr

/-- The name of a form of report. -/
def formatName : Report.Format → Text
  | .text => "text".toList
  | .json => "json".toList

/-- The form of report that has the given name. -/
def formatOf? (name : Text) : Option Report.Format :=
  [Report.Format.text, Report.Format.json].find? (formatName · == name)

/-- A value put where none was given before. -/
def putOnce {α : Type} (given : Option α) (value : α) : Option α :=
  match given with
  | none => some value
  | some _ => none

/-- The path that a text spells; the empty text spells none. -/
def path? (text : Text) : Option Path := if text = [] then none else some ⟨text⟩

/-! ### Options -/

/-- The options that take a value. -/
inductive Valued where
  | config
  | format
  | exclude
  deriving DecidableEq, Repr

/-- The option with a value that has the given name. -/
def valued? (name : Text) : Option Valued :=
  if name = "config".toList then some .config
  else if name = "format".toList then some .format
  else if name = "exclude".toList then some .exclude
  else none

/-- The options with one more; only exclusions may be given several times. -/
def set? (options : Options) (option : Valued) (value : Text) : Option Options :=
  match option with
  | .config => do
    let file ← putOnce options.config (← path? value)
    return { options with config := some file }
  | .format => do
    let format ← putOnce options.format (← formatOf? value)
    return { options with format := some format }
  | .exclude => some { options with excluded := options.excluded ++ [⟨value⟩] }

/-- The options with the root of the project. -/
def setRoot? (options : Options) (value : Text) : Option Options := do
  let root ← putOnce options.root (← path? value)
  return { options with root := some root }

/-- The options with whole files taken for comments. -/
def setWholeFile? (options : Options) : Option Options :=
  if options.wholeFile then none else some { options with wholeFile := true }

/-! ### Arguments -/

/-- An argument by its form. -/
inductive Argument where
  /-- `--` and a name, and a value if there is a `=` behind the name. -/
  | long (name : Text) (value : Option Text)
  /-- `-` and letters. -/
  | short (letters : Text)
  /-- `--` alone. -/
  | divider
  /-- Any other argument. -/
  | plain (text : Text)
  deriving DecidableEq, Repr

/-- The form of an argument. -/
def Argument.of : Text → Argument
  | ['-', '-'] => .divider
  | '-' :: '-' :: rest =>
    .long (rest.takeWhile (· != '='))
      (match rest.dropWhile (· != '=') with
        | _ :: value => some value
        | [] => none)
  | '-' :: c :: letters => .short (c :: letters)
  | text => .plain text

/-- What an option without a value asks for, where it stands behind the given options. -/
inductive Effect where
  | goOn (options : Options)
  | stop (request : Request)

/-- The effect of an option without a value. -/
def flag? (options : Options) (name : Text) : Option Effect :=
  if name = "no-tokenizer".toList then (setWholeFile? options).map .goOn
  else if name = "help".toList then some (.stop .help)
  else if name = "version".toList then some (.stop .version)
  else none

/-- What the first of some letters asks for. -/
def letter? : Text → Option Request
  | 'h' :: _ => some .help
  | 'V' :: _ => some .version
  | _ => none

/-- What the arguments ask for behind those that gave the options; nothing if they are wrong. -/
def requestFrom (options : Options) : List Text → Option Request
  | [] => some (.check options)
  | argument :: rest =>
    match Argument.of argument with
    | .divider => (rest.foldlM setRoot? options).map .check
    | .plain text => (setRoot? options text).bind fun options => requestFrom options rest
    | .short letters => letter? letters
    | .long name given =>
      match valued? name, given with
      | some option, some value => (set? options option value).bind fun options => requestFrom options rest
      | some option, none =>
        match rest with
        | [] => none
        | next :: more =>
          match Argument.of next with
          | .plain value => (set? options option value).bind fun options => requestFrom options more
          | _ => none
      | none, some _ => none
      | none, none =>
        match flag? options name with
        | some (.goOn options) => requestFrom options rest
        | some (.stop request) => some request
        | none => none

/-- What the arguments ask for; nothing if they are wrong. -/
def request? (arguments : List Text) : Option Request := requestFrom {} arguments

end AnnotationCheck.CommandLine
