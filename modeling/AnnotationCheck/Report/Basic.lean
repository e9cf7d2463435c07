import AnnotationCheck.Issue.Basic
import AnnotationCheck.Report.Json

/-!
Reports: the issues of a check as lines of text or as a JSON list.

Files are shown relative to the root of the project where they lie below it, with slashes between the names and
in place of backslashes. Bytes that spell no character are shown by a mark.
-/

namespace AnnotationCheck.Report

/-- The form of a report. -/
inductive Format where
  /-- One line for each issue. -/
  | text
  /-- A JSON list with one record for each issue. -/
  | json
  deriving DecidableEq, Repr

/-- A file as a report shows it. -/
def shownPath (root file : Path) : Text :=
  (file.relativeTo root).text.map fun c => if c = '\\' then '/' else c

/-- The record of an issue. -/
def toJson (root : Path) (issue : Issue) : Json :=
  .record [("kind".toList, .string issue.kind), ("message".toList, .string issue.message),
    ("class".toList, .string issue.className), ("file".toList, .string (shownPath root issue.file)),
    ("line".toList, .number issue.line), ("context".toList, .string issue.owner)]

/-- The issues in the given form, with files relative to `root`. -/
def render (format : Format) (root : Path) (issues : List Issue) : Text :=
  match format with
  | .text => issues.flatMap fun issue => issue.lineFor (shownPath root issue.file) ++ ['\n']
  | .json => (Json.list (issues.map (toJson root))).pretty

end AnnotationCheck.Report
