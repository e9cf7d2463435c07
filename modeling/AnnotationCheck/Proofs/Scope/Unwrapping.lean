import AnnotationCheck.Proofs.Scope.Excuses

/-!
The `[]` at the end of a text, and those behind the members of a union.

* `Union.Unwraps` — the loop that takes one `[]` after the other off the end of a text.
* `Union.unwraps_iff` — from every text this loop comes to an end, and `Union.innermost` says where and after how
  many rounds; `innermost_append_marks`: further `[]` mean so many rounds more.
* `Union.withMarks` — a text with further `[]` behind its members. It is a union if the text is one, and its
  members stand for the same (`isUnion_withMarks_iff`, `elements_withMarks`).
* **`Union.innermost_and_missing`** — so the class-likes that a type misses do not hang on the `[]` in it.
-/

namespace AnnotationCheck

namespace Union

/-! ### The loop -/

theorem item?_eq_some_iff {text inner : Text} : item? text = some inner ↔ text = inner ++ arrayMark := by
  have mark : "[]".toList.reverse = arrayMark.reverse := rfl
  rw [item?, Text.beforeSuffix?, Option.map_eq_some_iff, mark]
  constructor
  · rintro ⟨front, found, rfl⟩
    have reversed := List.isPrefixOf?_eq_some_iff_append_eq.mp found
    rw [← List.reverse_inj, ← reversed, List.reverse_append, List.reverse_reverse]
  · rintro rfl
    refine ⟨inner.reverse, List.isPrefixOf?_eq_some_iff_append_eq.mpr ?_, List.reverse_reverse inner⟩
    rw [List.reverse_append]

theorem item?_eq_none_iff {text : Text} : item? text = none ↔ ¬ arrayMark <:+ text := by
  rw [Option.eq_none_iff_forall_ne_some, ← not_exists]
  refine not_congr ⟨?_, ?_⟩
  · rintro ⟨inner, found⟩
    exact ⟨inner, (item?_eq_some_iff.mp found).symm⟩
  · rintro ⟨inner, marked⟩
    exact ⟨inner, item?_eq_some_iff.mpr marked.symm⟩

/-- The loop that takes a `[]` off the end of a text as long as there is one: from the first text it comes to an
end at the second one, after so many rounds. -/
inductive Unwraps : Text → Text → Nat → Prop
  | done {text : Text} : item? text = none → Unwraps text text 0
  | round {text inner last : Text} {rounds : Nat} : item? text = some inner → Unwraps inner last rounds →
      Unwraps text last (rounds + 1)

/-- The loop comes to an end from every text. -/
theorem unwraps_innermost (text : Text) : Unwraps text (innermost text).1 (innermost text).2 := by
  -- by the number of characters, which every round makes smaller
  cases found : item? text with
  | none =>
    rw [innermost_of_not_isSuffix (item?_eq_none_iff.mp found)]
    exact .done found
  | some inner =>
    have marked := item?_eq_some_iff.mp found
    have rest := unwraps_innermost inner
    rw [marked, innermost_append]
    exact .round (marked ▸ found) rest
termination_by text.length
decreasing_by
  rw [marked, List.length_append]
  exact Nat.lt_add_of_pos_right (by decide)

/-- **The loop comes to one end from every text**, and that is `Union.innermost`. -/
theorem unwraps_iff {text last : Text} {rounds : Nat} :
    Unwraps text last rounds ↔ (last, rounds) = innermost text := by
  constructor
  · intro unwraps
    induction unwraps with
    | done plain => exact (innermost_of_not_isSuffix (item?_eq_none_iff.mp plain)).symm
    | round found _ ih => rw [item?_eq_some_iff.mp found, innermost_append, ← ih]
  · intro same
    have unwraps := unwraps_innermost text
    rwa [← same] at unwraps

/-- Where the loop ends there is no `[]`, and what it took off is a `[]` for each round. -/
theorem Unwraps.eq_append {text last : Text} {rounds : Nat} (unwraps : Unwraps text last rounds) :
    ¬ arrayMark <:+ last ∧ text = last ++ marks rounds := by
  induction unwraps with
  | done plain => exact ⟨item?_eq_none_iff.mp plain, (List.append_nil _).symm⟩
  | @round text inner last rounds found _ ih =>
    obtain ⟨plain, rest⟩ := ih
    refine ⟨plain, ?_⟩
    rw [item?_eq_some_iff.mp found, rest, List.append_assoc, marks, marks, List.replicate_succ',
      List.flatten_concat]

/-- Each further `[]` means one more round. -/
theorem innermost_append_marks (text : Text) (count : Nat) :
    innermost (text ++ marks count) = ((innermost text).1, (innermost text).2 + count) := by
  induction count generalizing text with
  | zero => rw [marks, List.replicate_zero, List.flatten_nil, List.append_nil, Nat.add_zero]
  | succ count ih =>
    rw [marks, List.replicate_succ, List.flatten_cons, ← List.append_assoc]
    refine (ih (text ++ arrayMark)).trans ?_
    rw [innermost_append, Nat.add_assoc, Nat.add_comm 1 count]

/-! ### Marks behind members -/

/-- The text with further `[]` behind each of its parts between the `|`, at the given number for each place. -/
def withMarks (counts : Nat → Nat) (text : Text) : Text :=
  ['|'].intercalate ((Text.fields '|' text).mapIdx fun place part => part ++ marks (counts place))

theorem bar_not_mem_marks (count : Nat) : '|' ∉ marks count := by
  intro there
  obtain ⟨mark, isMark, inMark⟩ := List.mem_flatten.mp there
  rw [List.eq_of_mem_replicate isMark] at inMark
  revert inMark
  decide

/-- The parts of the text are those of the one before with their marks. -/
theorem fields_withMarks (counts : Nat → Nat) (text : Text) :
    Text.fields '|' (withMarks counts text)
      = (Text.fields '|' text).mapIdx fun place part => part ++ marks (counts place) := by
  refine Text.fields_intercalate ?_ fun part there => ?_
  · rw [ne_eq, List.mapIdx_eq_nil_iff]
    exact Text.fields_ne_nil '|' text
  · obtain ⟨place, inside, rfl⟩ := List.mem_mapIdx.mp there
    rw [List.mem_append, not_or]
    exact ⟨Text.not_mem_of_mem_fields (List.getElem_mem inside), bar_not_mem_marks _⟩

theorem isMember_append_mark_iff {text : Text} : IsMember (text ++ arrayMark) ↔ IsMember text := by
  refine ⟨fun member => ?_, .items⟩
  generalize marked : text ++ arrayMark = whole at member
  cases member with
  | name isName => exact absurd ⟨text, marked⟩ isName.not_isSuffix
  | items member =>
    rw [List.append_cancel_right marked]
    exact member

theorem isMember_append_marks_iff {text : Text} (count : Nat) : IsMember (text ++ marks count) ↔ IsMember text := by
  induction count generalizing text with
  | zero => rw [marks, List.replicate_zero, List.flatten_nil, List.append_nil]
  | succ count ih =>
    rw [marks, List.replicate_succ, List.flatten_cons, ← List.append_assoc]
    exact ih.trans isMember_append_mark_iff

/-- A text with marks behind its members is a union exactly if the text is one. -/
theorem isUnion_withMarks_iff (counts : Nat → Nat) (text : Text) : IsUnion (withMarks counts text) ↔ IsUnion text := by
  simp only [isUnion_iff_fields, fields_withMarks, List.forall_mem_iff_getElem, List.getElem_mapIdx,
    isMember_append_marks_iff, List.length_mapIdx]

/-- The members with their marks stand for what they stood for. -/
theorem elements_withMarks (counts : Nat → Nat) (text : Text) : elements (withMarks counts text) = elements text := by
  rw [elements, elements, fields_withMarks]
  refine List.ext_getElem (by simp) fun place _ _ => ?_
  simp only [List.getElem_map, List.getElem_mapIdx, element, innermost_append_marks]

end Union

/-! ### Missing class-likes -/

/-- What is missing of a type hangs on its elements alone, if it is a union; else nothing is missing. -/
theorem Scope.mem_missing_iff_elements {scope : Scope} {known : Text → Bool} {type name : Text} :
    name ∈ scope.missing known type
      ↔ Union.IsUnion type ∧ ∃ element ∈ Union.elements type,
        (Reference.ofName? scope.templates element).bind (scope.missing? known) = some name := by
  rw [missing, Reference.ofUnion, List.filterMap_filterMap, List.mem_filterMap, Union.elements]
  simp only [Union.mem_members_iff, and_assoc, exists_and_left, List.mem_map, exists_exists_and_eq_and]

/-- **Taking the `[]` off the end of a text comes to an end**, whatever the text is: it leaves a text that does not
end in `[]`, with one round for each `[]` that stood behind it, and further `[]` mean so many rounds more. So a type
with any number of `[]` behind any of its members misses the class-likes that it misses without them, though members
that were the same may then differ, and different ones may be the same. -/
theorem Union.innermost_and_missing (text : Text) :
    let inner := (innermost text).1
    let depth := (innermost text).2
    (∀ last rounds, Unwraps text last rounds ↔ last = inner ∧ rounds = depth)
      ∧ text = inner ++ (List.replicate depth arrayMark).flatten
      ∧ ¬ arrayMark <:+ inner
      ∧ (∀ count, innermost (text ++ (List.replicate count arrayMark).flatten) = (inner, depth + count))
      ∧ ∀ counts : Nat → Nat, (IsUnion (withMarks counts text) ↔ IsUnion text)
        ∧ ∀ (scope : Scope) (known : Text → Bool) (name : Text),
          name ∈ scope.missing known (withMarks counts text) ↔ name ∈ scope.missing known text := by
  intro inner depth
  obtain ⟨plain, whole⟩ := (unwraps_innermost text).eq_append
  refine ⟨fun last rounds => ?loop, whole, plain, innermost_append_marks text, fun counts =>
    ⟨isUnion_withMarks_iff counts text, fun scope known name => ?missing⟩⟩
  case loop => rw [unwraps_iff, Prod.ext_iff]
  case missing =>
    rw [Scope.mem_missing_iff_elements, Scope.mem_missing_iff_elements, isUnion_withMarks_iff, elements_withMarks]

/-- Nothing but marks, and members that differ in their marks alone. -/
example : Union.innermost "[][]".toList = ([], 2)
    ∧ Union.withMarks (fun place => place) "A|A|B[]".toList = "A|A[]|B[][][]".toList := by decide

end AnnotationCheck
