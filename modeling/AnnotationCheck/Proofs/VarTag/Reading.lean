import AnnotationCheck.Proofs.Text.Runs
import AnnotationCheck.Proofs.Union.Tail
import AnnotationCheck.VarTag.Language
import Mathlib.Data.List.Infix

/-!
The annotations of a text, read off its language.

* `behindAt?_eq_some_iff`, `behindAt?_of_any_division` — what is read behind an `@` is a division of the text
  there whose variable is as long as it can be; it is read wherever there is a division.
* `isTagChar`, `IsDivided.exists_word` — the characters that may stand in an annotation behind its `@`.
* `IsReading line text tags` — one annotation for each `@` behind which the text can be divided.
* **`isReading_iff`** — the scan, which goes on behind the end of an annotation, leaves none out.
-/

namespace AnnotationCheck.VarTag

open Text (Stops stops_dropWhile dropWhile_run takeWhile_run all_of_mem_takeWhile)

/-! ### The parts of an annotation -/

/-- A gap is read to its end. -/
theorem behindGap?_eq_some_iff {text rest : Text} :
    behindGap? text = some rest ↔ ∃ gap, IsGap gap ∧ Stops Text.isGap rest ∧ text = gap ++ rest := by
  constructor
  · intro found
    cases text with
    | nil => cases found
    | cons c more =>
      simp only [behindGap?] at found
      split at found
      · rename_i isGap
        cases found
        refine ⟨c :: more.takeWhile Text.isGap, ⟨by simp, fun d there => ?_⟩, stops_dropWhile more, ?_⟩
        · rcases List.mem_cons.mp there with rfl | there
          · exact isGap
          · exact all_of_mem_takeWhile more d there
        · rw [List.cons_append, List.takeWhile_append_dropWhile]
      · cases found
  · rintro ⟨gap, ⟨nonempty, all⟩, stops, rfl⟩
    cases gap with
    | nil => exact absurd rfl nonempty
    | cons c more =>
      have isGap : Text.isGap c = true := all c List.mem_cons_self
      simp only [behindGap?, List.cons_append, isGap, if_true]
      rw [dropWhile_run (fun d there => all d (List.mem_cons_of_mem c there)) stops]

/-- A variable is read to the end of its name. -/
theorem subjectAt?_eq_some_iff {text subject rest : Text} :
    subjectAt? text = some (subject, rest) ↔
      IsSubject subject ∧ Stops Text.isWord rest ∧ text = '$' :: subject ++ rest := by
  constructor
  · intro found
    unfold subjectAt? at found
    split at found
    · rename_i more
      split at found
      · cases found
      · rename_i nonempty
        cases found
        refine ⟨⟨nonempty, all_of_mem_takeWhile more⟩, stops_dropWhile more, ?_⟩
        rw [List.cons_append, List.takeWhile_append_dropWhile]
    · cases found
  · rintro ⟨⟨nonempty, all⟩, stops, rfl⟩
    simp only [subjectAt?, List.cons_append]
    rw [takeWhile_run all stops, dropWhile_run all stops, if_neg nonempty]

/-- The tag is read with or without its mark, as a whole word. -/
theorem behindTag?_eq_some_iff {text rest : Text} :
    behindTag? text = some rest ↔ ∃ tag, IsTagText tag ∧ Stops Text.isWord rest ∧ text = tag ++ rest := by
  have reads : behindTag? text = some rest ↔
      Stops Text.isWord rest ∧ Text.dropPrefix vendorMark text = tagWord ++ rest := by
    unfold behindTag? Stops
    split
    · rename_i absent
      have noPrefix : ∀ rest, Text.dropPrefix vendorMark text ≠ tagWord ++ rest := by
        intro rest same
        rw [List.isPrefixOf?_eq_some_iff_append_eq.mpr same.symm] at absent
        cases absent
      simp [noPrefix]
    · rename_i more found
      rw [List.isPrefixOf?_eq_some_iff_append_eq] at found
      rw [← found, List.append_cancel_left_eq]
      split
      · rename_i isWord
        constructor
        · rintro ⟨⟩
        · rintro ⟨stops, rfl⟩
          rw [isWord] at stops
          cases stops
      · rename_i stops
        constructor
        · rintro ⟨⟩
          exact ⟨by simpa using stops, rfl⟩
        · rintro ⟨_, rfl⟩
          rfl
  rw [reads]
  constructor
  · rintro ⟨stops, behindMark⟩
    cases marked : vendorMark.isPrefixOf? text with
    | none =>
      rw [Text.dropPrefix, marked, Option.getD_none] at behindMark
      exact ⟨tagWord, .inl rfl, stops, behindMark⟩
    | some more =>
      rw [Text.dropPrefix, marked, Option.getD_some] at behindMark
      rw [List.isPrefixOf?_eq_some_iff_append_eq] at marked
      refine ⟨vendorMark ++ tagWord, .inr rfl, stops, ?_⟩
      rw [List.append_assoc, ← behindMark, marked]
  · rintro ⟨tag, isTag, stops, rfl⟩
    refine ⟨stops, ?_⟩
    rcases isTag with rfl | rfl
    · simp [Text.dropPrefix, vendorMark, tagWord, List.isPrefixOf?]
    · simp [Text.dropPrefix, vendorMark, tagWord, List.isPrefixOf?]

/-- The type is the union at the beginning, as far as it reaches. -/
theorem typeAt?_append_cons {type : Text} (union : Union.IsUnion type) {c : Char}
    (foreign : Union.isUnionChar c = false) (rest : Text) :
    typeAt? (type ++ c :: rest) = some (type, c :: rest) := by
  have reach := Union.length_append_cons union foreign rest
  have nonempty : type.length ≠ 0 := fun none => union.ne_nil (List.eq_nil_of_length_eq_zero none)
  rw [typeAt?, reach, if_neg nonempty, List.take_left, List.drop_left]

theorem typeAt?_eq_some {text type rest : Text} (found : typeAt? text = some (type, rest)) :
    Union.IsUnion type ∧ text = type ++ rest := by
  unfold typeAt? at found
  split at found
  · cases found
  · rename_i positive
    cases found
    exact ⟨Union.isUnion_take_length positive, (List.take_append_drop _ _).symm⟩

/-! ### Annotations behind an `@` -/

theorem isUnionChar_of_isGap {c : Char} (gap : Text.isGap c = true) : Union.isUnionChar c = false := by
  simp only [Text.isGap, Text.isBlank, Bool.or_eq_true, beq_iff_eq] at gap
  rcases gap with ((((rfl | rfl) | rfl) | rfl) | rfl) | rfl <;> decide

theorem isWord_of_isGap {c : Char} (gap : Text.isGap c = true) : Text.isWord c = false := by
  simp only [Text.isGap, Text.isBlank, Bool.or_eq_true, beq_iff_eq] at gap
  rcases gap with ((((rfl | rfl) | rfl) | rfl) | rfl) | rfl <;> decide

theorem stops_of_isUnion {type : Text} (union : Union.IsUnion type) (rest : Text) :
    Stops Text.isGap (type ++ rest) := by
  obtain ⟨c, more, rfl, isChar, _⟩ := union.exists_cons
  cases gap : Text.isGap c with
  | false => simpa [Stops] using gap
  | true =>
    have foreign := isUnionChar_of_isGap gap
    simp [Union.isUnionChar, isChar] at foreign

/-- A gap begins with a gap character. -/
theorem IsGap.exists_cons {gap : Text} (isGap : IsGap gap) :
    ∃ c rest, gap = c :: rest ∧ Text.isGap c = true := by
  cases gap with
  | nil => exact absurd rfl isGap.1
  | cons c rest => exact ⟨c, rest, rfl, isGap.2 c List.mem_cons_self⟩

theorem IsGap.stops {gap : Text} (isGap : IsGap gap) (rest : Text) : Stops Text.isWord (gap ++ rest) := by
  obtain ⟨c, more, rfl, isGapChar⟩ := isGap.exists_cons
  simpa [Stops] using isWord_of_isGap isGapChar

/-- A division of the text behind an `@` whose variable is as long as it can be is what is read there. -/
theorem behindAt?_of_isDivided {text type subject rest : Text} (divided : IsDivided text type subject rest)
    (longest : Stops Text.isWord rest) : behindAt? text = some (type, subject, rest) := by
  obtain ⟨tag, before, between, isTag, isBefore, isUnion, isBetween, isSubject, rfl⟩ := divided
  obtain ⟨c, more, rfl, isGapChar⟩ := isBetween.exists_cons
  have readTag : behindTag? (tag ++ before ++ type ++ c :: more ++ '$' :: subject ++ rest)
      = some (before ++ (type ++ c :: (more ++ '$' :: subject ++ rest))) :=
    behindTag?_eq_some_iff.mpr ⟨tag, isTag, isBefore.stops _, by simp⟩
  have readBefore : behindGap? (before ++ (type ++ c :: (more ++ '$' :: subject ++ rest)))
      = some (type ++ c :: (more ++ '$' :: subject ++ rest)) :=
    behindGap?_eq_some_iff.mpr ⟨before, isBefore, stops_of_isUnion isUnion _, rfl⟩
  have readType := typeAt?_append_cons isUnion (isUnionChar_of_isGap isGapChar) (more ++ '$' :: subject ++ rest)
  have readBetween : behindGap? (c :: (more ++ '$' :: subject ++ rest)) = some ('$' :: subject ++ rest) :=
    behindGap?_eq_some_iff.mpr ⟨c :: more, isBetween, by simp [Stops, Text.isGap, Text.isBlank], by simp⟩
  have readSubject : subjectAt? ('$' :: subject ++ rest) = some (subject, rest) :=
    subjectAt?_eq_some_iff.mpr ⟨isSubject, longest, rfl⟩
  simp only [behindAt?, readTag, readBefore, readType, readBetween, readSubject, Option.bind_eq_bind,
    Option.bind_some, Option.pure_def]

/-- **What is read behind an `@`** is a division of the text there whose variable is as long as it can be. -/
theorem behindAt?_eq_some_iff {text type subject rest : Text} :
    behindAt? text = some (type, subject, rest) ↔ IsDivided text type subject rest ∧ Stops Text.isWord rest := by
  constructor
  · intro found
    simp only [behindAt?, Option.bind_eq_bind, Option.bind_eq_some_iff, Option.pure_def, Option.some.injEq,
      Prod.mk.injEq, Prod.exists] at found
    obtain ⟨behindTag, readTag, atType, readBefore, _, behindType, readType, atSubject, readBetween,
      _, _, readSubject, rfl, rfl, rfl⟩ := found
    obtain ⟨tag, isTag, _, rfl⟩ := behindTag?_eq_some_iff.mp readTag
    obtain ⟨before, isBefore, _, rfl⟩ := behindGap?_eq_some_iff.mp readBefore
    obtain ⟨isUnion, rfl⟩ := typeAt?_eq_some readType
    obtain ⟨between, isBetween, _, rfl⟩ := behindGap?_eq_some_iff.mp readBetween
    obtain ⟨isSubject, longest, rfl⟩ := subjectAt?_eq_some_iff.mp readSubject
    exact ⟨⟨tag, before, between, isTag, isBefore, isUnion, isBetween, isSubject, by simp⟩, longest⟩
  · rintro ⟨divided, longest⟩
    exact behindAt?_of_isDivided divided longest

/-- **Wherever the text behind an `@` can be divided, an annotation is read**, with the same type and with all
the word characters behind the same `$`. -/
theorem behindAt?_of_any_division {text type subject rest : Text} (divided : IsDivided text type subject rest) :
    behindAt? text = some (type, (subject ++ rest).takeWhile Text.isWord, rest.dropWhile Text.isWord) := by
  obtain ⟨tag, before, between, isTag, isBefore, isUnion, isBetween, ⟨nonempty, all⟩, rfl⟩ := divided
  rw [List.takeWhile_append_of_pos all]
  refine behindAt?_of_isDivided ⟨tag, before, between, isTag, isBefore, isUnion, isBetween, ⟨?_, ?_⟩, ?_⟩
    (stops_dropWhile rest)
  · exact fun none => nonempty (List.append_eq_nil_iff.mp none).1
  · intro c there
    rcases List.mem_append.mp there with there | there
    · exact all c there
    · exact all_of_mem_takeWhile rest c there
  · simp [List.takeWhile_append_dropWhile]

theorem behindAt?_eq_none_iff {text : Text} :
    behindAt? text = none ↔ ∀ type subject rest, ¬ IsDivided text type subject rest := by
  constructor
  · intro absent type subject rest divided
    rw [behindAt?_of_any_division divided] at absent
    cases absent
  · intro indivisible
    cases found : behindAt? text with
    | none => rfl
    | some parts => exact absurd (behindAt?_eq_some_iff.mp found).1 (indivisible _ _ _)

/-! ### The characters of an annotation -/

/-- The characters that may stand in an annotation behind its `@`. -/
def isTagChar (c : Char) : Bool :=
  Text.isWord c || Text.isGap c || ['-', '$', '|', '[', ']', '\\'].contains c

theorem isTagChar_at : isTagChar '@' = false := by decide

theorem isTagChar_of_isWord {c : Char} (isWord : Text.isWord c = true) : isTagChar c = true := by
  simp [isTagChar, isWord]

theorem isTagChar_of_isGap {c : Char} (isGap : Text.isGap c = true) : isTagChar c = true := by
  simp [isTagChar, isGap]

theorem isTagChar_of_isUnionChar {c : Char} (isUnionChar : Union.isUnionChar c = true) : isTagChar c = true := by
  simp only [Union.isUnionChar, Union.isNameChar, Union.separator, Bool.or_eq_true, beq_iff_eq] at isUnionChar
  rcases isUnionChar with (((isWord | rfl) | rfl) | rfl) | rfl
  · exact isTagChar_of_isWord isWord
  all_goals decide

theorem IsTagText.isTagChar {tag : Text} (isTag : IsTagText tag) : ∀ c ∈ tag, isTagChar c = true := by
  rw [← List.all_eq_true]
  rcases isTag with rfl | rfl <;> decide

/-- An annotation is a word of such characters, which is one whatever follows it. -/
theorem IsDivided.exists_word {text type subject rest : Text} (divided : IsDivided text type subject rest) :
    ∃ word, text = word ++ rest ∧ (∀ c ∈ word, isTagChar c = true)
      ∧ ∀ other, IsDivided (word ++ other) type subject other := by
  obtain ⟨tag, before, between, isTag, isBefore, isUnion, isBetween, isSubject, rfl⟩ := divided
  refine ⟨tag ++ before ++ type ++ between ++ '$' :: subject, by simp, ?chars, fun other => ?again⟩
  case chars =>
    intro c there
    simp only [List.mem_append, List.mem_cons] at there
    rcases there with (((inTag | inGap) | inType) | inGap) | rfl | inSubject
    · exact isTag.isTagChar c inTag
    · exact isTagChar_of_isGap (isBefore.2 c inGap)
    · exact isTagChar_of_isUnionChar (isUnion.isUnionChar inType)
    · exact isTagChar_of_isGap (isBetween.2 c inGap)
    · decide
    · exact isTagChar_of_isWord (isSubject.2 c inSubject)
  case again =>
    exact ⟨tag, before, between, isTag, isBefore, isUnion, isBetween, isSubject, by simp⟩

/-- An annotation holds no `@`. -/
theorem IsDivided.exists_append {text type subject rest : Text} (divided : IsDivided text type subject rest) :
    ∃ word, text = word ++ rest ∧ '@' ∉ word := by
  obtain ⟨word, cut, chars, _⟩ := divided.exists_word
  refine ⟨word, cut, fun there => ?_⟩
  have isChar := chars '@' there
  rw [isTagChar_at] at isChar
  cases isChar

/-! ### Annotations of a text -/

theorem scan_skipped (line skipped : Nat) (text : Text) :
    scan line skipped text = ofText line (text.drop skipped) := by
  induction skipped generalizing text with
  | zero => rfl
  | succ skipped ih =>
    cases text with
    | nil => rfl
    | cons c rest => rw [scan, ih, List.drop_succ_cons]

theorem ofText_cons_of_ne (line : Nat) {c : Char} (other : c ≠ '@') (rest : Text) :
    ofText line (c :: rest) = ofText line rest := by
  rw [ofText, scan, if_neg other, ofText]

theorem ofText_append_of_not_mem (line : Nat) {word : Text} (absent : '@' ∉ word) (rest : Text) :
    ofText line (word ++ rest) = ofText line rest := by
  induction word with
  | nil => rfl
  | cons c more ih =>
    simp only [List.mem_cons, not_or] at absent
    rw [List.cons_append, ofText_cons_of_ne line (Ne.symm absent.1), ih absent.2]

theorem ofText_at_of_none (line : Nat) {rest : Text} (absent : behindAt? rest = none) :
    ofText line ('@' :: rest) = ofText line rest := by
  rw [ofText, scan, if_pos rfl, absent, ofText]

/-- Going on behind the end of an annotation leaves out nothing that going on behind its `@` would find. -/
theorem ofText_at_of_some (line : Nat) {text type subject rest : Text}
    (found : behindAt? text = some (type, subject, rest)) :
    ofText line ('@' :: text) = ⟨type, subject, line⟩ :: ofText line text := by
  obtain ⟨word, rfl, absent⟩ := (behindAt?_eq_some_iff.mp found).1.exists_append
  rw [ofText, scan, if_pos rfl, found]
  simp only [scan_skipped, List.length_append, Nat.add_sub_cancel, List.drop_left,
    ofText_append_of_not_mem line absent]

/-- One annotation for each `@` behind which the text can be divided, from left to right; the variable of
each one is as long as it can be. -/
inductive IsReading (line : Nat) : Text → List VarTag → Prop
  | nil : IsReading line [] []
  | other {c : Char} {rest : Text} {tags : List VarTag} : c ≠ '@' → IsReading line rest tags →
      IsReading line (c :: rest) tags
  | bare {text : Text} {tags : List VarTag} : (∀ type subject rest, ¬ IsDivided text type subject rest) →
      IsReading line text tags → IsReading line ('@' :: text) tags
  | found {text type subject rest : Text} {tags : List VarTag} : IsDivided text type subject rest →
      Stops Text.isWord rest → IsReading line text tags →
      IsReading line ('@' :: text) (⟨type, subject, line⟩ :: tags)

/-- The type of an annotation is a union. -/
theorem IsReading.isUnion {line : Nat} {text : Text} {tags : List VarTag} (reading : IsReading line text tags) :
    ∀ tag ∈ tags, Union.IsUnion tag.type := by
  induction reading with
  | nil => simp
  | other _ _ ih => exact ih
  | bare _ _ ih => exact ih
  | found divided _ _ ih =>
    obtain ⟨_, _, _, _, _, isUnion, _⟩ := divided
    intro tag there
    rcases List.mem_cons.mp there with rfl | there
    · exact isUnion
    · exact ih tag there

theorem isReading_ofText (line : Nat) (text : Text) : IsReading line text (ofText line text) := by
  induction text with
  | nil => exact .nil
  | cons c rest ih =>
    by_cases here : c = '@'
    · subst here
      cases read : behindAt? rest with
      | none =>
        rw [ofText_at_of_none line read]
        exact .bare (behindAt?_eq_none_iff.mp read) ih
      | some parts =>
        obtain ⟨divided, longest⟩ := behindAt?_eq_some_iff.mp read
        rw [ofText_at_of_some line read]
        exact .found divided longest ih
    · rw [ofText_cons_of_ne line here]
      exact .other here ih

/-- **The scan of a text gives one annotation for each `@` behind which it can be divided.** -/
theorem isReading_iff {line : Nat} {text : Text} {tags : List VarTag} :
    IsReading line text tags ↔ tags = ofText line text := by
  constructor
  · intro reading
    induction reading with
    | nil => rfl
    | other here _ ih => rw [ofText_cons_of_ne line here, ih]
    | bare indivisible _ ih => rw [ofText_at_of_none line (behindAt?_eq_none_iff.mpr indivisible), ih]
    | found divided longest _ ih =>
      rw [ofText_at_of_some line (behindAt?_eq_some_iff.mpr ⟨divided, longest⟩), ih]
  · rintro rfl
    exact isReading_ofText line text

end AnnotationCheck.VarTag
