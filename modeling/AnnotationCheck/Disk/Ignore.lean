import AnnotationCheck.Disk.Basic
import AnnotationCheck.Disk.Glob
import AnnotationCheck.Text.Space

/-!
Lists of files that are to be left out, as directories hold them.

Each line of such a list is a pattern; `!` before it takes files back in, a slash at its end restricts
it to directories, and a slash elsewhere ties it to the directory of the list. The last line that holds
decides. `Ignore.verdict?` asks the lists from the nearest directory up to the top: those named
`.ignore` first, then those of the repository that the nearest `.git` marks, if there is one.
-/

namespace AnnotationCheck.Disk

/-- A line of a list. -/
structure IgnoreRule where
  pattern : Glob
  onlyDirectories : Bool
  /-- Whether files are taken back in. -/
  keeps : Bool
  deriving DecidableEq, Repr

namespace IgnoreRule

/-- The line without the white space at its end, unless a backslash protects it. -/
def trimLine (line : Text) : Text :=
  if (Text.beforeSuffix? "\\ ".toList line).isSome then line else Text.trimEnd Text.isSpace line

/-- What the marks at the beginning of a line say: whether files are taken back in, whether the pattern
is tied to the directory, and the rest. -/
def marks (line : Text) : Bool × Bool × Text :=
  match line with
  | '\\' :: c :: rest =>
    if c = '!' ∨ c = '#' then (false, false, c :: rest) else (false, false, line)
  | '!' :: '/' :: rest => (true, true, rest)
  | '!' :: rest => (true, false, rest)
  | '/' :: rest => (false, true, rest)
  | _ => (false, false, line)

/-- The pattern for a line without its marks, which holds at any depth if it has no slash. -/
def spread (tied : Bool) (text : Text) : Text :=
  if tied ∨ '/' ∈ text ∨ text = "**".toList then text else "**/".toList ++ text

/-- The pattern that stands for what is below a directory alone where it ends in `**`. -/
def onlyBelow (text : Text) : Text :=
  if (Text.beforeSuffix? "/**".toList text).isSome then text ++ "/*".toList else text

/-- The rule of a line; a comment, a blank line or a line that spells no pattern is none. -/
def ofLine? (line : Text) : Option IgnoreRule :=
  if line.head? = some '#' ∨ trimLine line = [] then none
  else
    let (keeps, tied, body) := marks (trimLine line)
    let (onlyDirectories, text) := match Text.beforeSuffix? ['/'] body with
      | some inner => (true, (Text.beforeSuffix? ['\\'] inner).getD inner)
      | none => (false, body)
    (Glob.parse? (onlyBelow (spread tied text))).map (⟨·, onlyDirectories, keeps⟩)

/-- The line without a carriage return at its end. -/
def dropReturn (line : Text) : Text := (Text.beforeSuffix? ['\r'] line).getD line

/-- The rules of a list. -/
def ofText (text : Text) : List IgnoreRule :=
  ((Text.fields '\n' (text.dropWhile (· == '\uFEFF'))).map dropReturn).filterMap ofLine?

/-- Whether a rule speaks of the file or directory at a path from its own directory. -/
def holds (rule : IgnoreRule) (path : Text) (isDirectory : Bool) : Bool :=
  (isDirectory || !rule.onlyDirectories) && rule.pattern.holds path

/-- Whether a list of rules keeps a path; nothing if it does not speak of it. -/
def keeps? (rules : List IgnoreRule) (path : Text) (isDirectory : Bool) : Option Bool :=
  (rules.reverse.find? (·.holds path isDirectory)).map (·.keeps)

end IgnoreRule

/-- The lists of a directory. -/
structure Ignore where
  /-- The number of names from the top to the directory. -/
  depth : Nat
  /-- The rules of its `.ignore`. -/
  always : List IgnoreRule
  /-- The rules of its `.gitignore`. -/
  tracked : List IgnoreRule
  /-- The rules of the repository's own list. -/
  privately : List IgnoreRule
  /-- Whether it is the top of a repository. -/
  isRepository : Bool
  deriving Repr

namespace Ignore

/-- The rules of the list that names lead to from a directory; a file that cannot be read has none. -/
def rulesAt (names : List Text) (entries : Entries) : List IgnoreRule :=
  match entryAt? (names.map Text.bytes) entries with
  | some (.file (.text content)) => IgnoreRule.ofText content
  | _ => []

/-- The directory that marks the top of a repository. -/
def repositoryMark : Text := ".git".toList

/-- The lists of a directory with the given entries. -/
def ofEntries (depth : Nat) (entries : Entries) : Ignore where
  depth := depth
  always := rulesAt [".ignore".toList] entries
  tracked := rulesAt [".gitignore".toList] entries
  privately := rulesAt [repositoryMark, "info".toList, "exclude".toList] entries
  isRepository := (Entries.find? entries repositoryMark).isSome

/-- The path to a place from the directory of a list, as a text with slashes between the names. -/
def pathFrom (ignore : Ignore) (place : Place) : Text :=
  Text.ofBytes ([Path.slash].intercalate (place.drop ignore.depth))

/-- The verdict of the nearest list that speaks of a place. -/
def nearest? (rules : Ignore → List IgnoreRule) (levels : List Ignore) (place : Place) (isDirectory : Bool) :
    Option Bool :=
  levels.findSome? fun level => IgnoreRule.keeps? (rules level) (level.pathFrom place) isDirectory

/-- The directories from the nearest one up to the top of the repository; none outside of one. -/
def repository (levels : List Ignore) : List Ignore :=
  if levels.any (·.isRepository) then
    levels.takeWhile (!·.isRepository) ++ (levels.find? (·.isRepository)).toList
  else []

/-- Whether the lists of the directories above a place, nearest first, keep it; nothing if none of
them speaks of it. -/
def verdict? (levels : List Ignore) (place : Place) (isDirectory : Bool) : Option Bool :=
  (nearest? always levels place isDirectory).or
    ((nearest? tracked (repository levels) place isDirectory).or
      (nearest? privately (repository levels) place isDirectory))

/-- Whether a name is hidden. -/
def isHidden (name : Path.Name) : Bool := name.head? == Path.dot.head?

/-- Whether a place is left out: the lists say so, or they say nothing and its name is hidden. -/
def omits (levels : List Ignore) (place : Place) (isDirectory : Bool) : Bool :=
  match verdict? levels place isDirectory with
  | some keeps => !keeps
  | none => (place.getLast?.map isHidden).getD false

end Ignore

end AnnotationCheck.Disk
