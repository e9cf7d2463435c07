import AnnotationCheck.Comment
import AnnotationCheck.Proofs.VarTag.Reading

/-!
The annotations of a text and the places at which they stand.

* `StandsOn` — an annotation on a range of bytes: from an `@` behind which the text can be divided, up to
  where the word characters of its variable end.
* `Finds` — annotations one behind the other that pass by no `@` behind which the text can be divided;
  `Finds.skip` and `Finds.cons` go back over a character and over an annotation, and the scan, which goes on
  behind the end of an annotation, finds just these (`exists_finds`).
* **`ofText_of_divisions`** — there is one annotation for each `@` behind which a text can be divided in any way
  at all, with the type and the variable that every such division gives.
-/

namespace AnnotationCheck.VarTag

open Text (Stops)

/-- An annotation on a range of a text: from an `@` behind which the text can be divided, up to where the word
characters of its variable end. -/
structure StandsOn (line : Nat) (text : Text) (range : Range) (tag : VarTag) : Prop where
  line_eq : tag.line = line
  divided : ∃ before behind rest, text = before ++ '@' :: behind ∧ IsDivided behind tag.type tag.subject rest ∧
    Stops Text.isWord rest ∧ Text.size before = range.start ∧ range.stop + Text.size rest = Text.size text

theorem StandsOn.start_lt_stop {line : Nat} {text : Text} {range : Range} {tag : VarTag}
    (stands : StandsOn line text range tag) : range.start < range.stop := by
  obtain ⟨before, behind, rest, rfl, divided, _, starts, ends⟩ := stands.divided
  obtain ⟨word, rfl, _⟩ := divided.exists_append
  have one : '@'.utf8Size = 1 := rfl
  simp only [Text.size_append, Text.size_cons] at ends
  omega

/-- A first `@` behind a word without one is behind the whole word. -/
theorem exists_append_of_at {word rest before behind : Text} (absent : '@' ∉ word)
    (same : word ++ rest = before ++ '@' :: behind) :
    ∃ between, before = word ++ between ∧ rest = between ++ '@' :: behind := by
  rcases List.append_eq_append_iff.mp same with ⟨between, rfl, rfl⟩ | ⟨inWord, rfl, cut⟩
  · exact ⟨between, rfl, rfl⟩
  · cases inWord with
    | nil => exact ⟨[], by simp, by simpa using cut.symm⟩
    | cons c more =>
      have atStart : c = '@' := (List.cons.inj cut).1.symm
      subst atStart
      exact absurd (List.mem_append_right before List.mem_cons_self) absent

/-! ### The scan from a place on -/

/-- What is found in a text behind `seen`: annotations one behind the other, and one wherever the text can be
divided behind an `@`. -/
structure Finds (line : Nat) (seen text : Text) (found : List (Range × VarTag)) : Prop where
  tags : found.map (·.2) = ofText line text
  stands : ∀ entry ∈ found, StandsOn line (seen ++ text) entry.1 entry.2 ∧ Text.size seen ≤ entry.1.start
  apart : found.Pairwise fun entry next => entry.1.stop ≤ next.1.start
  every : ∀ before behind type subject rest, text = before ++ '@' :: behind →
    IsDivided behind type subject rest → ∃ entry ∈ found, entry.1.start = Text.size seen + Text.size before ∧
      entry.2.type = type ∧ entry.2.subject = (subject ++ rest).takeWhile Text.isWord

variable {line : Nat}

theorem Finds.nil (seen : Text) : Finds line seen [] [] where
  tags := rfl
  stands := by simp
  apart := .nil
  every := by simp

/-- A character behind which there is no annotation is passed by. -/
theorem Finds.skip {seen rest : Text} {c : Char} {found : List (Range × VarTag)}
    (bare : c = '@' → behindAt? rest = none) (finds : Finds line (seen ++ [c]) rest found) :
    Finds line seen (c :: rest) found where
  tags := by
    rw [finds.tags]
    by_cases here : c = '@'
    · rw [here, ofText_at_of_none line (bare here)]
    · rw [ofText_cons_of_ne line here]
  stands := by
    intro entry there
    obtain ⟨stands, starts⟩ := finds.stands entry there
    rw [List.append_assoc, List.singleton_append] at stands
    rw [Text.size_append] at starts
    exact ⟨stands, by omega⟩
  apart := finds.apart
  every := by
    intro before behind type subject last cut divided
    cases before with
    | nil =>
      cases cut
      have absent := bare rfl
      rw [behindAt?_of_any_division divided] at absent
      cases absent
    | cons d before =>
      cases cut
      obtain ⟨entry, there, starts, isType, isSubject⟩ := finds.every before behind type subject last rfl divided
      refine ⟨entry, there, ?_, isType, isSubject⟩
      rw [starts, Text.size_append, Text.size_cons, Text.size_cons, Text.size_nil]
      omega

/-- Behind an annotation the scan goes on where the annotation ends. -/
theorem Finds.cons {seen word rest type subject : Text} {found : List (Range × VarTag)} (absent : '@' ∉ word)
    (read : behindAt? (word ++ rest) = some (type, subject, rest))
    (finds : Finds line (seen ++ '@' :: word) rest found) :
    Finds line seen ('@' :: (word ++ rest))
      ((⟨Text.size seen, Text.size (seen ++ '@' :: word)⟩, ⟨type, subject, line⟩) :: found) where
  tags := by
    rw [List.map_cons, finds.tags, ofText_at_of_some line read, ofText_append_of_not_mem line absent]
  stands := by
    have whole : seen ++ '@' :: (word ++ rest) = (seen ++ '@' :: word) ++ rest := by simp
    intro entry there
    rcases List.mem_cons.mp there with rfl | there
    · obtain ⟨divided, longest⟩ := behindAt?_eq_some_iff.mp read
      refine ⟨⟨rfl, seen, word ++ rest, rest, rfl, divided, longest, rfl, ?_⟩, Nat.le_refl _⟩
      rw [whole, Text.size_append _ rest]
    · obtain ⟨stands, starts⟩ := finds.stands entry there
      rw [← whole] at stands
      rw [Text.size_append] at starts
      exact ⟨stands, by omega⟩
  apart := List.pairwise_cons.mpr ⟨fun next there => (finds.stands next there).2, finds.apart⟩
  every := by
    intro before behind type' subject' last cut divided
    cases before with
    | nil =>
      cases cut
      have same := read.symm.trans (behindAt?_of_any_division divided)
      cases same
      exact ⟨_, List.mem_cons_self, rfl, rfl, rfl⟩
    | cons d before =>
      obtain ⟨rfl, same⟩ := List.cons.inj cut
      obtain ⟨between, rfl, rfl⟩ := exists_append_of_at absent same
      obtain ⟨entry, there, starts, isType, isSubject⟩ :=
        finds.every between behind type' subject' last rfl divided
      refine ⟨entry, List.mem_cons_of_mem _ there, ?_, isType, isSubject⟩
      rw [starts]
      simp only [Text.size_append, Text.size_cons]
      omega

/-- **The scan finds annotations one behind the other and passes none by.** -/
theorem exists_finds (line : Nat) (seen text : Text) : ∃ found, Finds line seen text found := by
  -- by what is left of the text: a character less, or all that belongs to an annotation
  match text with
  | [] => exact ⟨[], .nil seen⟩
  | c :: rest =>
    cases read : behindAt? rest with
    | none =>
      obtain ⟨found, finds⟩ := exists_finds line (seen ++ [c]) rest
      exact ⟨found, finds.skip fun _ => read⟩
    | some parts =>
      by_cases here : c = '@'
      · obtain ⟨type, subject, behind⟩ := parts
        obtain ⟨word, rfl, absent⟩ := (behindAt?_eq_some_iff.mp read).1.exists_append
        obtain ⟨found, finds⟩ := exists_finds line (seen ++ '@' :: word) behind
        subst here
        exact ⟨_, finds.cons absent read⟩
      · obtain ⟨found, finds⟩ := exists_finds line (seen ++ [c]) rest
        exact ⟨found, finds.skip fun same => absurd same here⟩
termination_by text.length
decreasing_by
  · exact Nat.lt_succ_self _
  · subst_vars
    rw [List.length_cons, List.length_append]
    omega
  · exact Nat.lt_succ_self _

/-- **There is one annotation for each `@` behind which a text can be divided** in any way into a tag, gaps, a
union, gaps and a variable, in the order of these places. All divisions there have the type of the annotation,
and its variable goes on as long as there are word characters behind the `$`. No annotation begins before the
one ahead of it ends. -/
theorem ofText_of_divisions (line : Nat) (text : Text) :
    ∃ found : List (Range × VarTag),
      found.map (·.2) = ofText line text
      ∧ (∀ entry ∈ found, StandsOn line text entry.1 entry.2 ∧ entry.1.start < entry.1.stop)
      ∧ (found.Pairwise fun entry next => entry.1.stop ≤ next.1.start)
      ∧ ∀ before behind type subject rest, text = before ++ '@' :: behind →
          IsDivided behind type subject rest → ∃ entry ∈ found, entry.1.start = Text.size before
            ∧ entry.2.type = type ∧ entry.2.subject = (subject ++ rest).takeWhile Text.isWord := by
  obtain ⟨found, finds⟩ := exists_finds line [] text
  refine ⟨found, finds.tags, fun entry there => ?_, finds.apart, ?_⟩
  · have stands := (finds.stands entry there).1
    exact ⟨stands, stands.start_lt_stop⟩
  · intro before behind type subject rest cut divided
    obtain ⟨entry, there, starts, same⟩ := finds.every before behind type subject rest cut divided
    rw [Text.size_nil, Nat.zero_add] at starts
    exact ⟨entry, there, starts, same⟩

end AnnotationCheck.VarTag
