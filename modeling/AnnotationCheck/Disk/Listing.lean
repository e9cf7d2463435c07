import AnnotationCheck.Disk.Ignore
import AnnotationCheck.Disk.Walk

/-!
The walker of this library.

`Disk.filesBelow` lists the files below a starting point in the order of the directories' entries, without what
the lists of `Disk.Ignore` or a hidden name leave out. The starting point itself is never left out, and may be a
file; `-` is no place of the disk. Lists that a user keeps for all directories are not asked, and there are no links
to follow.
-/

namespace AnnotationCheck.Disk

mutual

/-- The files at a place, below directories with the given lists, by the names that lead to them from there. -/
def filesOf (levels : List Ignore) (place : Place) : Entry → List Place
  | .file _ => [[]]
  | .directory entries => filesAmong (Ignore.ofEntries place.length entries :: levels) place entries

/-- The files of a directory at a place with the given entries. -/
def filesAmong (levels : List Ignore) (place : Place) : List (Path.Name × Entry) → List Place
  | [] => []
  | entry :: rest => filesIn levels place entry ++ filesAmong levels place rest

/-- The files of one entry of a directory at a place. -/
def filesIn (levels : List Ignore) (place : Place) : Path.Name × Entry → List Place
  | (name, entry) =>
    if Ignore.omits levels (place ++ [name]) entry.isDirectory then []
    else (filesOf levels (place ++ [name]) entry).map (name :: ·)

end

/-- The lists of the directories on the way from one at some depth down to a place, the last of
which is left out, nearest first. -/
def levelsAbove (depth : Nat) (entries : Entries) : Place → List Ignore
  | [] => []
  | name :: rest =>
    (match Entries.find? entries name with
      | some (.directory inner) => levelsAbove (depth + 1) inner rest
      | _ => []) ++ [Ignore.ofEntries depth entries]

/-- The starting point that stands for the standard input, whatever bears its name on the disk. -/
def standardInput : Path := .ofString "-"

/-- The files below a starting point; the standard input is no file. -/
def filesBelow (disk : Disk) (start : Path) : List Path :=
  if start.Same standardInput then []
  else
    match disk.place? start with
    | .error _ => []
    | .ok place =>
      match disk.at? place with
      | none => []
      | some entry => (filesOf (levelsAbove 0 disk.top place) place entry).map start.joinNames

/-- The walker of this library reports files alone. -/
instance : Walker := ⟨fun disk start => (filesBelow disk start).map (⟨·, true⟩)⟩

end AnnotationCheck.Disk
