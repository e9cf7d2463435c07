import AnnotationCheck.Proofs.Union.Element
import AnnotationCheck.Proofs.Union.Tail
import AnnotationCheck.Reference
import Mathlib.Data.List.Forall2
import Mathlib.Data.List.TakeWhile

/-!
The members of a union and the references they stand for.

* `fields_eq_splitOn`, `distinct_eq_eraseDups` — a text is cut into fields, and its fields are taken once, as
  lists are in general.
* `mem_members_iff`, `members_intercalate` — the members of a text are its `|`-fields, if it is a union; what
  members come to with `|` between them has just those members.
* **`members_and_references`** — a text has members exactly if it is a union as a whole, and one reference for
  each of them whose element is more than separators.
-/

namespace AnnotationCheck

/-! ### Fields and first places -/

namespace Text

theorem fields_eq_splitOn (separator : Char) (text : Text) : fields separator text = text.splitOn separator := by
  have clear : ∀ field ∈ fields separator text, separator ∉ field := fun _ there => not_mem_of_mem_fields there
  have cut := List.splitOn_intercalate separator clear (fields_ne_nil separator text)
  rw [intercalate_fields] at cut
  exact cut.symm

theorem distinct_filter (keep : Text → Bool) (texts : List Text) :
    distinct (texts.filter keep) = (distinct texts).filter keep := by
  induction texts with
  | nil => rfl
  | cons text rest ih =>
    by_cases kept : keep text = true
    · rw [List.filter_cons_of_pos kept, distinct, distinct, List.filter_cons_of_pos kept, ih, List.filter_comm]
    · have others : ∀ other ∈ distinct rest, (keep other && other != text) = keep other := by
        intro other _
        cases keeps : keep other with
        | false => rfl
        | true => simpa using fun same : other = text => kept (same ▸ keeps)
      rw [List.filter_cons_of_neg kept, distinct, List.filter_cons_of_neg kept, List.filter_filter, ih]
      exact (List.filter_congr others).symm

theorem distinct_eq_eraseDups (texts : List Text) : distinct texts = texts.eraseDups := by
  -- by the number of texts, since those that differ from the first are fewer
  match texts with
  | [] => rfl
  | text :: rest =>
    rw [distinct, ← distinct_filter, List.eraseDups_cons, distinct_eq_eraseDups]
    rfl
termination_by texts.length
decreasing_by exact Nat.lt_succ_of_le (List.length_filter_le _ _)

theorem distinct_of_nodup {texts : List Text} (different : texts.Nodup) : distinct texts = texts := by
  induction different with
  | nil => rfl
  | @cons text rest others _ ih =>
    rw [distinct, ih]
    exact congrArg _ (List.filter_eq_self.mpr fun other there => by simpa using (others other there).symm)

end Text

/-! ### Members -/

namespace Union

theorem members_of_not_isUnion {text : Text} (malformed : ¬ IsUnion text) : members text = [] := by
  refine if_neg fun whole => malformed ?_
  have taken : IsUnion (text.take (length text)) := isUnion_take_length (by rw [whole.2]; simpa using whole.1)
  rwa [whole.2, List.take_length] at taken

/-- The members of a text are its `|`-fields, if it is a union; any other text has none. -/
theorem mem_members_iff {text member : Text} :
    member ∈ members text ↔ IsUnion text ∧ member ∈ Text.fields '|' text := by
  by_cases union : IsUnion text
  · rw [members_of_isUnion union, Text.mem_distinct]
    simp [union]
  · simp [members_of_not_isUnion union, union]

theorem members_ne_nil_iff {text : Text} : members text ≠ [] ↔ IsUnion text := by
  constructor
  · intro some
    obtain ⟨member, there⟩ := List.exists_mem_of_ne_nil _ some
    exact (mem_members_iff.mp there).1
  · intro union
    obtain ⟨field, there⟩ := List.exists_mem_of_ne_nil _ (Text.fields_ne_nil '|' text)
    exact List.ne_nil_of_mem (mem_members_iff.mpr ⟨union, there⟩)

/-- Different members with `|` between them have just these members. -/
theorem members_intercalate {atoms : List Text} (different : atoms.Nodup)
    (each : ∀ atom ∈ atoms, IsMember atom) : members (['|'].intercalate atoms) = atoms := by
  cases atoms with
  | nil => rfl
  | cons first rest =>
    have clear : ∀ atom ∈ first :: rest, '|' ∉ atom := fun atom there =>
      bar_not_mem_of_isMember (each atom there)
    rw [members_of_isUnion (isUnion_intercalate each), Text.fields_intercalate (List.cons_ne_nil _ _) clear,
      Text.distinct_of_nodup different]

end Union

/-! ### References -/

namespace Reference

theorem bare_eq_nil_iff {name : Text} : bare name = [] ↔ ∀ c ∈ name, c = Union.separator := by
  simp [bare, List.dropWhile_eq_nil_iff]

theorem isSome_ofName? (templates : List Text) (name : Text) :
    (ofName? templates name).isSome = name.any (· != Union.separator) := by
  have named : name.any (· != Union.separator) = true ↔ bare name ≠ [] := by simp [bare_eq_nil_iff]
  rw [Bool.eq_iff_iff, named, ofName?]
  split
  · rename_i none
    simp [none]
  · rename_i some
    -- whatever a name is sorted into, it is sorted into something
    refine iff_of_true ?_ some
    split
    · rfl
    · split
      · rfl
      · split <;> rfl

end Reference

theorem forall₂_filterMap {α β : Type} {f : α → Option β} {keep : α → Bool}
    (kept : ∀ item, (f item).isSome = keep item) (items : List α) :
    List.Forall₂ (fun item found => f item = some found) (items.filter keep) (items.filterMap f) := by
  induction items with
  | nil => exact .nil
  | cons item items ih =>
    cases found : f item with
    | none =>
      have left : ¬ keep item = true := by rw [← kept, found]; exact Bool.false_ne_true
      rw [List.filter_cons_of_neg left, List.filterMap_cons_none found]
      exact ih
    | some result =>
      have taken : keep item = true := by rw [← kept, found]; rfl
      rw [List.filter_cons_of_pos taken, List.filterMap_cons_some found]
      exact .cons found ih

/-- **A text has members exactly if it is a union as a whole.** They are then its parts between the `|`, each
one taken at its first place, and each a member of the grammar; and different members with `|` between them are
what the text they come to is cut into. Each member gives one reference, but for those that stand for
separators alone, and a text outside of the grammar gives none. -/
theorem Union.members_and_references (templates : List Text) (text : Text) :
    (members text ≠ [] ↔ IsUnion text)
      ∧ (IsUnion text →
          members text = (text.splitOn '|').eraseDups ∧ ∀ member ∈ members text, IsMember member)
      ∧ (∀ atoms : List Text, atoms.Nodup → (∀ atom ∈ atoms, IsMember atom) →
          members (['|'].intercalate atoms) = atoms)
      ∧ List.Forall₂
          (fun member reference =>
            ∃ name, IsElement member name ∧ Reference.ofName? templates name = some reference)
          ((members text).filter fun member => (element member).any (· != separator))
          (Reference.ofUnion templates text)
      ∧ (¬ IsUnion text → Reference.ofUnion templates text = []) := by
  refine ⟨members_ne_nil_iff, fun union => ⟨?_, fun member there => ?_⟩, fun atoms => members_intercalate, ?_,
    fun malformed => ?_⟩
  · rw [members_of_isUnion union, Text.distinct_eq_eraseDups, Text.fields_eq_splitOn]
  · exact isUnion_iff_fields.mp union member (mem_members_iff.mp there).2
  · refine (forall₂_filterMap (fun member => ?_) (members text)).imp fun member reference found => ?_
    · exact Reference.isSome_ofName? templates (element member)
    · exact ⟨element member, isElement_element member, found⟩
  · rw [Reference.ofUnion, members_of_not_isUnion malformed, List.filterMap_nil]

/-- Spellings are told apart before the `[]` are taken off, and a half `[]` leaves no member at all. -/
example : Reference.ofUnion [] "A|A[]|\\|A".toList = [.classLike "A".toList, .classLike "A".toList]
    ∧ Reference.ofUnion [] "A|B[".toList = [] := by
  decide

end AnnotationCheck
