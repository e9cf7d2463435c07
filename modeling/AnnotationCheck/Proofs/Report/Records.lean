import AnnotationCheck.Proofs.Report.Json
import AnnotationCheck.Report.Basic

/-!
What a JSON report says.

* `Entry` — the six values that a report gives for an issue, its file as reports show it; `Entry.toJson` is the
  record that holds them and nothing else, and different entries have different records.
* **`parse?_render_json`** — a JSON report is read as the records of its issues, one for each issue and in their
  order. So the entries of the issues can be told from the report; the file of an issue cannot, where its path has
  a backslash (`relative_path_counterexample`).
-/

namespace AnnotationCheck

/-- The value of a field of a record. -/
def Json.field? (value : Json) (name : Text) : Option Json :=
  match value with
  | .record fields => fields.lookup name
  | _ => none

namespace Report

/-- What a report says of an issue. -/
structure Entry where
  kind : Text
  message : Text
  className : Text
  /-- The file as reports show it. -/
  path : Text
  line : Nat
  owner : Text
  deriving DecidableEq, Repr

namespace Entry

/-- What a report says of an issue in a project with the given root. -/
def ofIssue (root : Path) (issue : Issue) : Entry :=
  ⟨issue.kind, issue.message, issue.className, shownPath root issue.file, issue.line, issue.owner⟩

/-- The record with the values of an entry. -/
def toJson (entry : Entry) : Json :=
  .record [("kind".toList, .string entry.kind), ("message".toList, .string entry.message),
    ("class".toList, .string entry.className), ("file".toList, .string entry.path),
    ("line".toList, .number entry.line), ("context".toList, .string entry.owner)]

theorem toJson_injective : Function.Injective toJson := by
  rintro ⟨kind, message, className, path, line, owner⟩ ⟨kind', message', className', path', line', owner'⟩ same
  simp only [toJson, Json.record.injEq, List.cons.injEq, Prod.mk.injEq, Json.string.injEq, Json.number.injEq,
    true_and, and_true] at same
  obtain ⟨rfl, rfl, rfl, rfl, rfl, rfl⟩ := same
  rfl

end Entry

theorem render_json (root : Path) (issues : List Issue) :
    render .json root issues = (Json.list ((issues.map (Entry.ofIssue root)).map Entry.toJson)).pretty := by
  rw [List.map_map]
  rfl

/-- **A JSON report is read as a list with one record for each issue**, in the order of the issues. A record has
six fields: the kind, the message, the name of the class-like, the file as it is shown relative to the root, the
line and the class at hand. So two reports are the same exactly if they have issues with the same values. -/
theorem parse?_render_json (root : Path) (issues : List Issue) :
    Json.parse? (render .json root issues)
        = some (.list (issues.map fun issue => .record [("kind".toList, .string issue.kind),
            ("message".toList, .string issue.message), ("class".toList, .string issue.className),
            ("file".toList, .string (shownPath root issue.file)), ("line".toList, .number issue.line),
            ("context".toList, .string issue.owner)]))
      ∧ ∀ (otherRoot : Path) (others : List Issue),
          render .json root issues = render .json otherRoot others
            ↔ issues.map (Entry.ofIssue root) = others.map (Entry.ofIssue otherRoot) := by
  refine ⟨Json.parse?_pretty _, fun otherRoot others => ?_⟩
  rw [render_json, render_json, Json.pretty_injective.eq_iff, Json.list.injEq,
    (List.map_injective_iff.mpr Entry.toJson_injective).eq_iff]

/-- **The file of a record is not the path relative to the root** where that has a backslash: two issues in files
with different relative paths have the same report. -/
theorem relative_path_counterexample :
    let root := Path.ofString "/work"
    let file := Path.ofString "/work/a\\b.php"
    let other := Path.ofString "/work/a/b.php"
    let issueIn (file : Path) : Issue := { arguments := ["\\X".toList], file := file, line := 1, owner := "\\A".toList }
    (file.relativeTo root).text = "a\\b.php".toList ∧ (other.relativeTo root).text = "a/b.php".toList
      ∧ (∃ record, Json.parse? (render .json root [issueIn file]) = some (.list [record])
          ∧ record.field? "file".toList = some (.string "a/b.php".toList))
      ∧ render .json root [issueIn file] = render .json root [issueIn other] := by
  intro root file other issueIn
  refine ⟨by decide +kernel, by decide +kernel, ⟨_, Json.parse?_pretty _, ?_⟩, by decide +kernel⟩
  have shown : shownPath root file = "a/b.php".toList := by decide +kernel
  exact congrArg (fun path => some (Json.string path)) shown

end Report

end AnnotationCheck
