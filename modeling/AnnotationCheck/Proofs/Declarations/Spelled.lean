import AnnotationCheck.Php.Statement
import AnnotationCheck.Proofs.Declarations.Unbroken
import AnnotationCheck.Proofs.Php.Statements

/-!
The names in the programs that the parser of this library gives.

* `isPlainName_of_mem_placedIn` — every class-like is declared under one word.
* `isNameText_of_mem_spacesIn` — a name that is written for a namespace is spelled as one.
* **`isWritten_of_mem_importedIn`** — the names of imports do not end in a separator, so that each of them has a
  segment for its key.
* **`areUnbroken_of_parsed`** — there are no line breaks in the names of namespaces and imports.
-/

namespace AnnotationCheck.Declarations

open Php (IsNameText IsWordText IsLettered isNamePart)

/-! ### Words and names -/

theorem ne_separator_of_isNamePart {c : Char} (isPart : isNamePart c = true) : c ≠ Union.separator := by
  rintro rfl
  revert isPart
  decide

theorem isSegment_of_isWordText {name : Text} (isWord : IsWordText name) : IsSegment name :=
  ⟨isWord.1, fun there => ne_separator_of_isNamePart (isWord.2 _ there) rfl⟩

theorem isPlainName_of_isWordText {name : Text} (isWord : IsWordText name) : IsPlainName name := by
  have foreign : (typeMarks.all fun mark => !isNamePart mark) = true := by decide
  have not_isPart : ∀ mark ∈ typeMarks, isNamePart mark ≠ true := by simpa using foreign
  exact ⟨isWord.1, fun c there isMark => not_isPart c isMark (isWord.2 c there)⟩

theorem endsInSegment_of_isNameText {name : Text} (isName : IsNameText name) : EndsInSegment name := by
  obtain ⟨front, c, ends, isPart⟩ := isName.ends
  exact ⟨front, c, ends, ne_separator_of_isNamePart isPart⟩

theorem newline_not_mem_of_isNameText {name : Text} (isName : IsNameText name) : '\n' ∉ name := by
  intro there
  have isLetter : '\n' = '\\' ∨ isNamePart '\n' = true := isName.letters '\n' there
  revert isLetter
  decide

/-! ### Class-likes -/

mutual

theorem isWordText_of_mem_placed {home : Option Text} {statement : Php.Statement} (spelled : statement.IsSpelled) :
    ∀ place ∈ placed home statement, IsWordText place.2.name := by
  cases spelled with
  | @space name body areSpelled =>
    rw [placed]
    exact isWordText_of_mem_placedAll areSpelled
  | declares isWord => simpa [placed] using isWord
  | imports | other => simp [placed]

theorem isWordText_of_mem_placedAll {home : Option Text} {statements : List Php.Statement}
    (spelled : ∀ statement ∈ statements, statement.IsSpelled) :
    ∀ place ∈ placedAll home statements, IsWordText place.2.name := by
  cases statements with
  | nil => simp [placedAll]
  | cons statement rest =>
    obtain ⟨isSpelled, areSpelled⟩ := List.forall_mem_cons.mp spelled
    intro place there
    rw [placedAll, List.mem_append] at there
    exact there.elim (isWordText_of_mem_placed isSpelled place) (isWordText_of_mem_placedAll areSpelled place)

end

/-- Every class-like is declared under one word. -/
theorem isPlainName_of_mem_placedIn {script : Text} : ∀ place ∈ placedIn script, IsPlainName place.2.name :=
  fun place there => isPlainName_of_isWordText
    (isWordText_of_mem_placedAll Php.isSpelled_of_mem_statements place there)

/-! ### Imports -/

/-- The names of an import are spelled as such. -/
structure Import.IsSpelled (entry : Import) : Prop where
  base : ∀ name ∈ entry.base, IsNameText name
  item : entry.item.IsSpelled

theorem Import.IsSpelled.isWritten {entry : Import} (spelled : entry.IsSpelled) : entry.IsWritten where
  base name there := endsInSegment_of_isNameText (spelled.base name there)
  name := endsInSegment_of_isNameText spelled.item.name
  shortName name there := isSegment_of_isWordText (spelled.item.shortName name there)

theorem isSpelled_of_mem_importsOf {list : Php.ImportList} (spelled : list.IsSpelled) :
    ∀ entry ∈ importsOf list, entry.IsSpelled := by
  intro entry there
  cases spelled with
  | names areSpelled =>
    obtain ⟨item, isItem, rfl⟩ := List.mem_map.mp there
    exact ⟨nofun, areSpelled item isItem⟩
  | group isBase areSpelled =>
    obtain ⟨item, isItem, rfl⟩ := List.mem_map.mp there
    refine ⟨fun name same => ?_, areSpelled item (List.mem_filter.mp isItem).1⟩
    cases same
    exact isBase
  | others => cases there

mutual

theorem isSpelled_of_mem_imported {statement : Php.Statement} (spelled : statement.IsSpelled) :
    ∀ entry ∈ imported statement, entry.IsSpelled := by
  cases spelled with
  | space areSpelled =>
    rw [imported]
    exact isSpelled_of_mem_importedAll areSpelled
  | imports isSpelled =>
    rw [imported]
    exact isSpelled_of_mem_importsOf isSpelled
  | declares | other => simp [imported]

theorem isSpelled_of_mem_importedAll {statements : List Php.Statement}
    (spelled : ∀ statement ∈ statements, statement.IsSpelled) :
    ∀ entry ∈ importedAll statements, entry.IsSpelled := by
  cases statements with
  | nil => simp [importedAll]
  | cons statement rest =>
    obtain ⟨isSpelled, areSpelled⟩ := List.forall_mem_cons.mp spelled
    intro entry there
    rw [importedAll, List.mem_append] at there
    exact there.elim (isSpelled_of_mem_imported isSpelled entry) (isSpelled_of_mem_importedAll areSpelled entry)

end

theorem isSpelled_of_mem_importedIn {script : Text} : ∀ entry ∈ importedIn script, entry.IsSpelled :=
  isSpelled_of_mem_importedAll Php.isSpelled_of_mem_statements

/-- **The names of imports do not end in a separator**, and the names given to them are segments. -/
theorem isWritten_of_mem_importedIn {script : Text} (entry : Import) (there : entry ∈ importedIn script) :
    entry.IsWritten := (isSpelled_of_mem_importedIn entry there).isWritten

/-! ### Namespaces -/

theorem exists_of_mem_spacesAll {statements : List Php.Statement} {name : Option Text}
    (there : name ∈ spacesAll statements) : ∃ statement ∈ statements, name ∈ spaces statement := by
  induction statements with
  | nil => simp [spacesAll] at there
  | cons statement rest ih =>
    rw [spacesAll, List.mem_append] at there
    rcases there with here | later
    · exact ⟨statement, List.mem_cons_self, here⟩
    · obtain ⟨inRest, isLater, inIt⟩ := ih later
      exact ⟨inRest, List.mem_cons_of_mem statement isLater, inIt⟩

/-- A statement that a rule reads is no namespace. -/
theorem spaces_statementOf (limit : Nat) (tokens : List Php.Token) : spaces (Php.statementOf limit tokens) = [] := by
  unfold Php.statementOf
  split
  · rfl
  · split
    · rfl
    · split <;> rfl

/-- The name of a namespace is spelled as one. -/
theorem isNameText_of_mem_spacesIn {script : Text} {name : Text} (there : some name ∈ spacesIn script) :
    IsNameText name := by
  have spelled : ∀ statement ∈ Php.statements script, ∀ name, some name ∈ spaces statement → IsNameText name := by
    refine Php.forall_mem_statementsUntil ?space ?single _ _ _ Php.isSpelled_of_mem_code
    case space =>
      intro head body isHead inBody name there
      rw [spaces, List.mem_cons] at there
      rcases there with here | there
      · exact isHead name here.symm
      · obtain ⟨statement, isInner, inStatement⟩ := exists_of_mem_spacesAll there
        exact inBody statement isInner name inStatement
    case single =>
      intro tokens left _ _ name there
      rw [spaces_statementOf] at there
      cases there
  obtain ⟨statement, isStatement, inStatement⟩ := exists_of_mem_spacesAll there
  exact spelled statement isStatement name inStatement

/-- **There are no line breaks in the names of namespaces and imports.** -/
theorem areUnbroken_of_parsed (script : Text) : AreUnbroken script where
  spaces _ there := newline_not_mem_of_isNameText (isNameText_of_mem_spacesIn there)
  bases entry there base given :=
    newline_not_mem_of_isNameText ((isSpelled_of_mem_importedIn entry there).base base given)
  imports entry there := newline_not_mem_of_isNameText (isSpelled_of_mem_importedIn entry there).item.name

end AnnotationCheck.Declarations
