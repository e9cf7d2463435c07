import Mathlib.Data.List.DropRight
import AnnotationCheck.Proofs.Declarations.Names

/-!
The imports of a script.

* `Import` — an imported class-like as a script spells it, with the full name that it stands for and the key
  that it is used under.
* `importedIn` — the class-likes that a script imports, at any place in it.
* `Import.IsWritten` — names that do not end in a separator, so that the key is one segment of a name
  (`IsWritten.isSegment_key`) and the full name is the one that is put into the table (`IsWritten.importTarget_eq`).
* `mem_entries_ofScript` — every entry of a table of imports is that of one of them.
* **`entries_ofScript`** — where their keys differ by more than case, the table has one entry for each of them.
-/

namespace AnnotationCheck

/-! ### Entries -/

namespace Imports

theorem put_of_not_mem {name : Text} {entries : List (Text × Text)} (fresh : ∀ entry ∈ entries, entry.1 ≠ name)
    (target : Text) : put name target entries = entries ++ [(name, target)] := by
  induction entries with
  | nil => rfl
  | cons entry rest ih =>
    obtain ⟨different, fresh⟩ := List.forall_mem_cons.mp fresh
    rw [put, if_neg different, ih fresh, List.cons_append]

theorem mem_put {name target : Text} {entries : List (Text × Text)} {entry : Text × Text}
    (there : entry ∈ put name target entries) : entry = (name, target) ∨ entry ∈ entries := by
  induction entries with
  | nil => exact .inl (List.mem_singleton.mp there)
  | cons first rest ih =>
    rw [put] at there
    split at there
    · exact (List.mem_cons.mp there).imp_right (List.mem_cons_of_mem first)
    · rcases List.mem_cons.mp there with rfl | there
      · exact .inr List.mem_cons_self
      · exact (ih there).imp_right (List.mem_cons_of_mem first)

end Imports

namespace Declarations

/-! ### Imports as they are spelled -/

/-- An imported class-like, as a script spells it. -/
structure Import where
  /-- The common name of the group that it stands in, if it stands in one. -/
  base : Option Text
  item : Php.ImportItem
  deriving DecidableEq, Repr

/-- The full name that is imported: that of the group, if there is one, and that of the item, each without the
separators it begins with. -/
def Import.fullName (entry : Import) : Text :=
  match entry.base with
  | some base => Reference.bare base ++ Union.separator :: Reference.bare entry.item.name
  | none => Reference.bare entry.item.name

/-- The name that it is used under: the one given, or what stands behind the last separator. -/
def Import.key (entry : Import) : Text :=
  entry.item.shortName.getD (entry.fullName.rtakeWhile (· != Union.separator))

/-- The class-likes of one `use`. -/
def importsOf : Php.ImportList → List Import
  | .names items => items.map fun item => ⟨none, item⟩
  | .group base items => (items.filter fun item => !item.1).map fun item => ⟨some base, item.2⟩
  | .others => []

mutual

/-- The class-likes that a statement imports. -/
def imported : Php.Statement → List Import
  | .space _ body => importedAll body
  | .imports list => importsOf list
  | .declares _ => []
  | .other => []

/-- The class-likes that statements import. -/
def importedAll : List Php.Statement → List Import
  | [] => []
  | statement :: rest => imported statement ++ importedAll rest

end

/-! ### Names -/

/-- A name that is not empty and has no separator in it. -/
def IsSegment (name : Text) : Prop := name ≠ [] ∧ Union.separator ∉ name

/-- A name that is not empty and does not end in a separator. -/
def EndsInSegment (name : Text) : Prop := ∃ front c, name = front ++ [c] ∧ c ≠ Union.separator

theorem EndsInSegment.append {name : Text} (ends : EndsInSegment name) (front : Text) :
    EndsInSegment (front ++ name) := by
  obtain ⟨inner, c, rfl, free⟩ := ends
  exact ⟨front ++ inner, c, by simp, free⟩

/-- A name without the separators it begins with still ends in a segment. -/
theorem EndsInSegment.bare {name : Text} (ends : EndsInSegment name) : EndsInSegment (Reference.bare name) := by
  obtain ⟨front, c, rfl, free⟩ := ends
  have free' : (c == Union.separator) = false := beq_false_of_ne free
  refine ⟨front.dropWhile (· == Union.separator), c, ?_, free⟩
  rw [Reference.bare, List.dropWhile_append]
  split
  · rename_i nothing
    rw [List.isEmpty_iff.mp nothing]
    simp [free']
  · rfl

/-- Behind such a name there is no separator to trim. -/
theorem EndsInSegment.trimSeparators_eq {name : Text} (ends : EndsInSegment name) :
    trimSeparators name = Reference.bare name := by
  obtain ⟨front, c, bare, free⟩ := ends.bare
  have free' : (c == Union.separator) = false := beq_false_of_ne free
  show Text.trimEnd (· == Union.separator) (Reference.bare name) = Reference.bare name
  rw [bare, Text.trimEnd, List.reverse_append]
  simp [free']

theorem EndsInSegment.isSegment_rtakeWhile {name : Text} (ends : EndsInSegment name) :
    IsSegment (name.rtakeWhile (· != Union.separator)) := by
  obtain ⟨front, c, rfl, free⟩ := ends
  refine ⟨?_, fun there => ?_⟩
  · rw [List.rtakeWhile_concat_pos (· != Union.separator) front c (bne_iff_ne.mpr free)]
    simp
  · simpa using List.mem_rtakeWhile_imp there

/-- The last segment of a name is what stands behind its last separator. -/
theorem lastSegment_eq (name : Text) : lastSegment name = name.rtakeWhile (· != Union.separator) := by
  induction name using List.reverseRecOn with
  | nil => rfl
  | append_singleton front c ih =>
    by_cases here : c = Union.separator
    · rw [here, lastSegment, Text.fields_append_separator, List.rtakeWhile_concat_neg _ _ _ (by simp)]
      simp [Text.fields]
    · obtain ⟨fields, last, cut, longer⟩ :=
        Text.fields_append (by simpa using Ne.symm here : Union.separator ∉ [c]) front
      rw [lastSegment, cut] at ih
      rw [lastSegment, longer, List.rtakeWhile_concat_pos _ _ _ (by simpa using here), ← ih]
      simp

/-- What stands ahead of a separator is no part of the last segment. -/
theorem rtakeWhile_append_separator (front name : Text) :
    (front ++ Union.separator :: name).rtakeWhile (· != Union.separator) = name.rtakeWhile (· != Union.separator) := by
  induction name using List.reverseRecOn with
  | nil => simp [List.rtakeWhile]
  | append_singleton name c ih =>
    rw [← List.cons_append, ← List.append_assoc]
    by_cases here : c = Union.separator
    · rw [here, List.rtakeWhile_concat_neg _ _ _ (by simp), List.rtakeWhile_concat_neg _ _ _ (by simp)]
    · rw [List.rtakeWhile_concat_pos _ _ _ (by simpa using here),
        List.rtakeWhile_concat_pos _ _ _ (by simpa using here), ih]

namespace Import

/-- The names of an import do not end in a separator, and the name that is given to it, if there is one, is one
segment. -/
structure IsWritten (entry : Import) : Prop where
  base : ∀ name ∈ entry.base, EndsInSegment name
  name : EndsInSegment entry.item.name
  shortName : ∀ name ∈ entry.item.shortName, IsSegment name

variable {entry : Import}

/-- The key of an import is the one in the table, whatever its names are. -/
theorem importKey_eq (entry : Import) : importKey entry.base entry.item = entry.key := by
  rw [importKey, lastSegment_eq, key]
  congr 1
  unfold importTarget fullName
  cases entry.base with
  | none => rfl
  | some base => simp only [rtakeWhile_append_separator]

/-- A key is one segment of a name. -/
theorem IsWritten.isSegment_key (written : entry.IsWritten) : IsSegment entry.key := by
  unfold key
  cases given : entry.item.shortName with
  | some shortName => exact written.shortName shortName given
  | none =>
    refine EndsInSegment.isSegment_rtakeWhile ?_
    unfold fullName
    cases entry.base with
    | none => exact written.name.bare
    | some base =>
      have whole := written.name.bare.append (Reference.bare base ++ [Union.separator])
      rwa [List.append_assoc, List.singleton_append] at whole

theorem IsWritten.importTarget_eq (written : entry.IsWritten) :
    importTarget entry.base entry.item.name = entry.fullName := by
  unfold importTarget fullName
  cases given : entry.base with
  | none => rfl
  | some base => simp only [(written.base base given).trimSeparators_eq]

end Import

/-! ### The table of imports -/

/-- The imports with one more. -/
def insertImport (imports : Imports) (entry : Import) : Imports := addImport entry.base imports entry.item

theorem addImports_eq_foldl (imports : Imports) (list : Php.ImportList) :
    addImports imports list = (importsOf list).foldl insertImport imports := by
  cases list with
  | names items => rw [addImports, importsOf, List.foldl_map]; rfl
  | group base items => rw [addImports, importsOf, List.foldl_map, List.foldl_map]; rfl
  | others => rfl

section Reading

variable (script : Text) (trivia : List Php.Trivia)

mutual

theorem imports_add (home : Option Text) (found : Declarations) (statement : Php.Statement) :
    (add script trivia home found statement).imports
      = (imported statement).foldl insertImport found.imports := by
  cases statement with
  | space name body =>
    rw [add, imported]
    exact imports_addAll (spaceName name) { found with home := found.home.or (spaceName name) } body
  | imports list =>
    rw [add, imported]
    exact addImports_eq_foldl found.imports list
  | declares classLike => simp [add, imported]
  | other => simp [add, imported]

/-- Reading statements adds what they import, in the order of the script. -/
theorem imports_addAll (home : Option Text) (found : Declarations) (statements : List Php.Statement) :
    (addAll script trivia home found statements).imports
      = (importedAll statements).foldl insertImport found.imports := by
  cases statements with
  | nil => simp [addAll, importedAll]
  | cons statement rest =>
    rw [addAll, imports_addAll home (add script trivia home found statement) rest,
      imports_add home found statement, importedAll, List.foldl_append]

end

end Reading

theorem entries_insertImport (imports : Imports) (entry : Import) :
    (insertImport imports entry).entries
      = Imports.put entry.key (importTarget entry.base entry.item.name) imports.entries := by
  rw [← entry.importKey_eq]
  rfl

/-- Every entry is that of an import. -/
theorem mem_entries_foldl {items : List Import} {imports : Imports} {entry : Text × Text}
    (there : entry ∈ (items.foldl insertImport imports).entries) :
    entry ∈ imports.entries ∨ ∃ item ∈ items, entry = (item.key, importTarget item.base item.item.name) := by
  induction items generalizing imports with
  | nil => exact .inl there
  | cons item rest ih =>
    rcases ih there with there | ⟨other, isOther, same⟩
    · rw [entries_insertImport] at there
      exact (Imports.mem_put there).symm.imp_right fun same => ⟨item, List.mem_cons_self, same⟩
    · exact .inr ⟨other, List.mem_cons_of_mem item isOther, same⟩

/-- Imports with different keys have one entry each. -/
theorem entries_foldl {items : List Import} (different : items.Pairwise fun first second => first.key ≠ second.key)
    {imports : Imports} (fresh : ∀ entry ∈ imports.entries, ∀ item ∈ items, entry.1 ≠ item.key) :
    (items.foldl insertImport imports).entries
      = imports.entries ++ items.map fun item => (item.key, importTarget item.base item.item.name) := by
  induction items generalizing imports with
  | nil => simp
  | cons item rest ih =>
    obtain ⟨differs, different⟩ := List.pairwise_cons.mp different
    have inserted : (insertImport imports item).entries
        = imports.entries ++ [(item.key, importTarget item.base item.item.name)] := by
      rw [entries_insertImport]
      exact Imports.put_of_not_mem (fun entry there => fresh entry there item List.mem_cons_self) _
    have freshStill : ∀ entry ∈ (insertImport imports item).entries, ∀ other ∈ rest, entry.1 ≠ other.key := by
      rw [inserted]
      intro entry there other isOther
      rcases List.mem_append.mp there with there | there
      · exact fresh entry there other (List.mem_cons_of_mem item isOther)
      · rw [List.mem_singleton.mp there]
        exact differs other isOther
    rw [List.foldl_cons, ih different freshStill, inserted, List.map_cons, List.append_assoc]
    rfl

/-! ### Scripts -/

section Scripts

variable [Php.Parser]

/-- The class-likes that a script imports. -/
def importedIn (script : Text) : List Import := importedAll (Php.programOf script).statements

/-- The keys of the imports of a script differ by more than the case of letters. -/
def KeysDiffer (script : Text) : Prop :=
  (importedIn script).Pairwise fun first second => Text.sameIgnoringCase first.key second.key = false

instance (script : Text) : Decidable (KeysDiffer script) :=
  inferInstanceAs (Decidable ((importedIn script).Pairwise _))

theorem imports_ofScript (script : Text) :
    (ofScript script).imports = (importedIn script).foldl insertImport .empty := by
  rw [ofScript_eq_ofProgram]
  exact imports_addAll script _ none {} _

variable {script : Text}

/-- Every entry in the table of a script is that of an import in it. -/
theorem mem_entries_ofScript {entry : Text × Text} (there : entry ∈ (ofScript script).imports.entries) :
    ∃ item ∈ importedIn script, entry = (item.key, importTarget item.base item.item.name) := by
  rw [imports_ofScript] at there
  exact (mem_entries_foldl there).resolve_left (by simp [Imports.empty])

/-- **A script whose imports have different keys has one entry for each of them.** -/
theorem entries_ofScript (differ : KeysDiffer script) :
    (ofScript script).imports.entries
      = (importedIn script).map fun item => (item.key, importTarget item.base item.item.name) := by
  rw [imports_ofScript, entries_foldl]
  · rfl
  · refine List.Pairwise.imp (fun differ same => ?_) differ
    rw [same, Text.sameIgnoringCase, beq_self_eq_true] at differ
    cases differ
  · nofun

theorem distinct_ofScript (differ : KeysDiffer script) : (ofScript script).imports.Distinct := by
  rw [Imports.Distinct, entries_ofScript differ, List.pairwise_map]
  exact differ

end Scripts

end Declarations

end AnnotationCheck
