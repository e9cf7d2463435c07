import AnnotationCheck.Proofs.Path.Join
import AnnotationCheck.Proofs.Report.Records
import AnnotationCheck.Proofs.Text.Bytes

/-!
The paths in reports, and the files that they lead to.

* `exists_entry_of_mem`, `mem_bytes_of_entry` — the bytes of a path other than its slashes and dots are those of the
  entries on its way. So a relative path has no others (`mem_bytes_of_mem_relativeTo`).
* `IsPlain` — bytes that spell a text without backslashes; a path is plain if all its pieces are (`isPlain_iff_pieces`).
* `shownPath_of_spelled` — a path that spells a text without backslashes is shown as it is relative to the root.
* **`same_join_shownPath_iff`** — what is shown leads back from the root to the file exactly if the path relative to
  the root is plain.
* **`shown_paths_lead_back`** — so it is for all files of a report below the root, in either form.
-/

namespace AnnotationCheck

namespace Path

/-! ### Bytes on the way -/

/-- A byte other than that of a slash or a dot stands in the name of an entry. -/
theorem exists_entry_of_mem {path : Path} {byte : UInt8} (notSlash : byte ≠ slash) (notDot : byte ≠ '.'.toUInt8)
    (there : byte ∈ path.bytes) : ∃ name, .entry name ∈ path.components ∧ byte ∈ name := by
  obtain ⟨piece, isPiece, inPiece⟩ := (Text.mem_iff_exists_mem_fields notSlash path.bytes).mp there
  have moves : isIdle piece = false := by
    rw [← Bool.not_eq_true]
    intro idle
    rcases (by simpa [isIdle] using idle : piece = [] ∨ piece = dot) with rfl | rfl
    · cases inPiece
    · exact notDot (List.mem_singleton.mp inPiece)
  have notUp : piece ≠ dots := by
    rintro rfl
    simp [dots, notDot] at inPiece
  have step : step? piece = some (.entry piece) := by simp [step?, moves, notUp]
  exact ⟨piece, List.mem_append_right _ (List.mem_filterMap.mpr ⟨piece, isPiece, step⟩), inPiece⟩

/-- The name of an entry is a piece of the path. -/
theorem mem_pieces_of_entry {path : Path} {name : Name} (there : .entry name ∈ path.components) :
    name ∈ pieces path.bytes := by
  have isStep : .entry name ∈ (pieces path.bytes).filterMap step? := by
    rw [components, List.mem_append, start_eq] at there
    rcases there with atStart | behind
    · rcases startOf_cases (pieces path.bytes) with start | start | start <;> simp [start] at atStart
    · exact behind
  obtain ⟨piece, isPiece, makes⟩ := List.mem_filterMap.mp isStep
  unfold step? at makes
  split at makes
  · cases makes
  · split at makes <;> cases makes
    exact isPiece

/-- The name of an entry stands in the path. -/
theorem mem_bytes_of_entry {path : Path} {name : Name} (there : .entry name ∈ path.components) {byte : UInt8}
    (inName : byte ∈ name) : byte ∈ path.bytes := by
  have isPiece : name ∈ pieces path.bytes := mem_pieces_of_entry there
  have notSlash : byte ≠ slash := by
    rintro rfl
    exact not_mem_of_mem_pieces isPiece inName
  exact (Text.mem_iff_exists_mem_fields notSlash path.bytes).mpr ⟨name, isPiece, inName⟩

/-- Relative to another path, a path has no bytes but its own. -/
theorem mem_bytes_of_mem_relativeTo {path base : Path} {byte : UInt8} (notSlash : byte ≠ slash)
    (notDot : byte ≠ '.'.toUInt8) (there : byte ∈ (path.relativeTo base).bytes) : byte ∈ path.bytes := by
  obtain ⟨name, isEntry, inName⟩ := exists_entry_of_mem notSlash notDot there
  rw [components_relativeTo] at isEntry
  have onWay : .entry name ∈ path.components := by
    split at isEntry
    · exact List.mem_of_mem_drop isEntry
    · exact isEntry
  exact mem_bytes_of_entry onWay inName

/-! ### Plain paths -/

/-- Bytes that spell a text without backslashes. -/
def IsPlain (bytes : Name) : Prop := ∃ text : Text, bytes = Text.bytes text ∧ '\\' ∉ text

/-- A piece makes a step to the entry of its name, or it is plain. -/
theorem isPlain_or_step? (piece : Name) : IsPlain piece ∨ step? piece = some (.entry piece) := by
  unfold step?
  split
  · rename_i idle
    rcases (by simpa [isIdle] using idle : piece = [] ∨ piece = dot) with rfl | rfl
    · exact .inl ⟨[], rfl, by decide⟩
    · exact .inl ⟨['.'], by decide, by decide⟩
  · split
    · rename_i up
      exact .inl ⟨['.', '.'], by rw [up]; decide, by decide⟩
    · exact .inr rfl

/-- **A path is plain** exactly if all its pieces are: no character runs over a slash. -/
theorem isPlain_iff_pieces {bytes : Name} : IsPlain bytes ↔ ∀ piece ∈ pieces bytes, IsPlain piece := by
  have slashIsAscii : slash.toNat ≤ 127 := by decide
  have backslashIsAscii : '\\'.toUInt8.toNat ≤ 127 := by decide
  have notSlash : '\\'.toUInt8 ≠ slash := by decide
  constructor
  · rintro ⟨text, rfl, clear⟩ piece there
    rw [pieces, Text.fields_bytes slashIsAscii] at there
    obtain ⟨field, isField, rfl⟩ := List.mem_map.mp there
    refine ⟨field, rfl, fun inField => clear ?_⟩
    exact (Text.mem_iff_exists_mem_fields (by decide) text).mpr ⟨field, isField, inField⟩
  · intro each
    choose! spelled isSpelled clear using each
    have whole : bytes = Text.bytes ([Char.ofUInt8 slash].intercalate ((pieces bytes).map spelled)) := by
      rw [Text.bytes_intercalate slashIsAscii, List.map_map]
      refine (Text.intercalate_fields slash bytes).symm.trans ?_
      congr 1
      exact (List.map_id _).symm.trans (List.map_congr_left isSpelled)
    refine ⟨_, whole, fun there => ?_⟩
    -- a backslash stands in one of the pieces
    have isByte : '\\'.toUInt8 ∈ bytes := whole ▸ (Text.mem_bytes_iff backslashIsAscii).mpr there
    obtain ⟨piece, isPiece, inPiece⟩ := (Text.mem_iff_exists_mem_fields notSlash bytes).mp isByte
    rw [isSpelled piece isPiece] at inPiece
    exact clear piece isPiece ((Text.mem_bytes_iff backslashIsAscii).mp inPiece)

end Path

namespace Report

open AnnotationCheck.Path (IsPlain)

/-! ### One path -/

theorem backslash_not_mem_shownPath (root file : Path) : '\\' ∉ shownPath root file := by
  intro there
  obtain ⟨c, _, shown⟩ := List.mem_map.mp there
  split at shown
  · cases shown
  · rename_i other
    exact other shown

/-- A path that spells a text without backslashes is shown as it is relative to the root. -/
theorem shownPath_of_spelled {root file : Path} {text : Text} (spelled : (file.relativeTo root).bytes = Text.bytes text)
    (clear : '\\' ∉ text) : shownPath root file = text := by
  have stays : ∀ c ∈ text, (if c = '\\' then '/' else c) = c := by
    intro c there
    refine if_neg ?_
    rintro rfl
    exact clear there
  rw [shownPath, Path.text, spelled, Text.ofBytes_bytes, List.map_congr_left stays, List.map_id']

section Below

variable {root file : Path} (below : root.components <+: file.components)
include below

/-- **What is shown of a file leads back to it** from the root exactly if the path of the file relative to the root is
a text without backslashes. -/
theorem same_join_shownPath_iff :
    (root.join (.mk (shownPath root file))).Same file ↔ IsPlain (file.relativeTo root).bytes := by
  constructor
  · intro same
    have shown : IsPlain (Path.mk (shownPath root file)).bytes := ⟨_, rfl, backslash_not_mem_shownPath root file⟩
    refine Path.isPlain_iff_pieces.mpr fun piece isPiece => ?_
    rcases Path.isPlain_or_step? piece with plain | makes
    · exact plain
    · -- the entry is on the way that is shown, where all names are plain
      have isEntry : .entry piece ∈ (file.relativeTo root).components :=
        List.mem_append_right _ (List.mem_filterMap.mpr ⟨piece, isPiece, makes⟩)
      rw [Path.components_relativeTo, if_pos below, ← (show _ = file.components from same)] at isEntry
      exact Path.isPlain_iff_pieces.mp shown piece (Path.mem_pieces_of_entry (Path.mem_components_of_mem_join isEntry))
  · rintro ⟨text, spelled, clear⟩
    rw [shownPath_of_spelled spelled clear]
    have own : Path.mk text = file.relativeTo root := congrArg Path.ofBytes spelled.symm
    rw [own]
    exact Path.same_join_relativeTo below

/-- Files below the root that are shown alike are the same, where their paths below the root are plain. -/
theorem same_of_shownPath_eq {other : Path} (otherBelow : root.components <+: other.components)
    (plain : IsPlain (file.relativeTo root).bytes) (otherPlain : IsPlain (other.relativeTo root).bytes)
    (alike : shownPath root file = shownPath root other) : file.Same other := by
  have back : (root.join (.mk (shownPath root file))).Same file := (same_join_shownPath_iff below).mpr plain
  have otherBack : (root.join (.mk (shownPath root other))).Same other :=
    (same_join_shownPath_iff otherBelow).mpr otherPlain
  rw [alike] at back
  exact back.symm.trans otherBack

end Below

/-! ### The paths of a report -/

/-- **The paths in a report lead back to the files**, be it a text or a JSON list: from the root, what is shown of
a file below the root leads to that file exactly if the path relative to the root is a text without backslashes,
whatever bytes the names of files are made of. Two different files below the root with such paths are not shown
alike. -/
theorem shown_paths_lead_back (root : Path) (issues : List Issue) :
    render .text root issues
        = issues.flatMap (fun issue => issue.lineFor (shownPath root issue.file) ++ ['\n'])
      ∧ (∃ records, Json.parse? (render .json root issues) = some (.list records)
          ∧ records.map (·.field? "file".toList) = issues.map fun issue => some (.string (shownPath root issue.file)))
      ∧ (∀ issue ∈ issues, root.components <+: issue.file.components →
          ((root.join (.mk (shownPath root issue.file))).Same issue.file
            ↔ IsPlain (issue.file.relativeTo root).bytes))
      ∧ ∀ issue ∈ issues, ∀ other ∈ issues,
          root.components <+: issue.file.components → root.components <+: other.file.components →
          IsPlain (issue.file.relativeTo root).bytes → IsPlain (other.file.relativeTo root).bytes →
          shownPath root issue.file = shownPath root other.file → issue.file.Same other.file := by
  refine ⟨rfl, ⟨issues.map (toJson root), Json.parse?_pretty _, ?files⟩, ?back, ?apart⟩
  case files =>
    rw [List.map_map]
    rfl
  case back => exact fun issue _ below => same_join_shownPath_iff below
  case apart =>
    exact fun issue _ other _ below otherBelow plain otherPlain =>
      same_of_shownPath_eq below otherBelow plain otherPlain

/-- Two spellings of one file below a root that is written with a slash at its end. -/
theorem shown_paths_of_two_spellings :
    let root := Path.ofString "/work/./"
    let issue : Issue := { arguments := ["\\A".toList], file := .ofString "/work//src/é c.php", line := 7, owner := [] }
    let other : Issue :=
      { arguments := ["\\B".toList], file := .ofString "/./work/src/é c.php", line := 1, owner := [] }
    root.components <+: issue.file.components ∧ IsPlain (issue.file.relativeTo root).bytes
      ∧ root.components <+: other.file.components ∧ IsPlain (other.file.relativeTo root).bytes
      ∧ shownPath root issue.file = shownPath root other.file
      ∧ (root.join (.mk (shownPath root issue.file))).Same issue.file ∧ issue.file.Same other.file := by
  intro root issue other
  obtain ⟨below, spelled, otherBelow, otherSpelled, alike⟩ : root.components <+: issue.file.components
      ∧ (issue.file.relativeTo root).bytes = Text.bytes "src/é c.php".toList
      ∧ root.components <+: other.file.components
      ∧ (other.file.relativeTo root).bytes = Text.bytes "src/é c.php".toList
      ∧ shownPath root issue.file = shownPath root other.file := by decide +kernel
  have plain : IsPlain (issue.file.relativeTo root).bytes := ⟨_, spelled, by decide⟩
  have otherPlain : IsPlain (other.file.relativeTo root).bytes := ⟨_, otherSpelled, by decide⟩
  obtain ⟨-, -, back, apart⟩ := shown_paths_lead_back root [issue, other]
  exact ⟨below, plain, otherBelow, otherPlain, alike, (back issue (by simp) below).mpr plain,
    apart issue (by simp) other (by simp) below otherBelow plain otherPlain alike⟩

/-- **A backslash in a name is shown as a slash, and bytes that spell no character as a mark**: the reports of issues
in two different files are the same, and what they show does not lead back to the file. -/
theorem backslash_counterexample :
    let root := Path.ofString "/work"
    let issueIn (file : Path) : Issue := { arguments := ["\\A".toList], file := file, line := 1, owner := [] }
    let areTakenForAnother (file other : Path) : Prop :=
      root.components <+: file.components ∧ root.components <+: other.components ∧ ¬ file.Same other
        ∧ render .text root [issueIn file] = render .text root [issueIn other]
        ∧ render .json root [issueIn file] = render .json root [issueIn other]
        ∧ ¬ (root.join (.mk (shownPath root file))).Same file
    areTakenForAnother (.ofString "/work/a\\b.php") (.ofString "/work/a/b.php")
      ∧ areTakenForAnother ((Path.ofString "/work").join ⟨[0xFE]⟩) ((Path.ofString "/work").join ⟨[0xFF]⟩) := by
  decide +kernel

end Report

end AnnotationCheck
