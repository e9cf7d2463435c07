import AnnotationCheck.Proofs.VarTag.Parts

/-!
The annotations of a text that is cut at a character.

* `behindAt?_append_cons` — before a character that no annotation holds, nothing more and nothing less is read
  behind an `@` than where the text ends there.
* **`annotations_of_cut`** — so a text has the annotations of what stands before such a character and of what
  stands behind it.
-/

namespace AnnotationCheck.VarTag

open Text (Stops)

section Cut

variable {c : Char} (foreign : isTagChar c = false)
include foreign

/-- An annotation before a character that none holds is one where the text ends before that character. -/
theorem IsDivided.before_cut {left right type subject rest : Text}
    (divided : IsDivided (left ++ c :: right) type subject rest) : ∃ rest, IsDivided left type subject rest := by
  obtain ⟨word, cut, chars, divides⟩ := divided.exists_word
  rcases List.append_eq_append_iff.mp cut with ⟨inWord, rfl, behind⟩ | ⟨between, rfl, _⟩
  · -- the word would reach over the cut
    cases inWord with
    | nil => exact ⟨[], by simpa using divides []⟩
    | cons d more =>
      have same : c = d := (List.cons.inj behind).1
      have isChar : isTagChar d = true := chars d (by simp)
      rw [← same, foreign] at isChar
      cases isChar
  · exact ⟨between, divides between⟩

/-- **What is read behind an `@` before a character that no annotation holds** is what is read where the text
ends before that character. -/
theorem behindAt?_append_cons (left right : Text) :
    behindAt? (left ++ c :: right)
      = (behindAt? left).map fun (type, subject, rest) => (type, subject, rest ++ c :: right) := by
  have parted : Parted left (c :: right) := by
    intro _
    cases isWord : Text.isWord c with
    | false => simpa [Stops] using isWord
    | true =>
      rw [isTagChar_of_isWord isWord] at foreign
      cases foreign
  cases found : behindAt? left with
  | some parts =>
    obtain ⟨type, subject, rest⟩ := parts
    exact behindAt?_append parted found
  | none =>
    rw [behindAt?_eq_none_iff] at found
    refine behindAt?_eq_none_iff.mpr fun type subject rest divided => ?_
    obtain ⟨behind, dividedBefore⟩ := divided.before_cut foreign
    exact found type subject behind dividedBefore

/-- The annotations before a character that no annotation holds, and those from that character on. -/
theorem ofText_append_cons (line : Nat) (left right : Text) :
    ofText line (left ++ c :: right) = ofText line left ++ ofText line (c :: right) := by
  induction left with
  | nil => rfl
  | cons d left ih =>
    by_cases here : d = '@'
    · subst here
      have atCut := behindAt?_append_cons foreign left right
      cases found : behindAt? left with
      | none =>
        rw [found] at atCut
        rw [ofText_at_of_none line found, List.cons_append, ofText_at_of_none line atCut, ih]
      | some parts =>
        rw [found] at atCut
        rw [ofText_at_of_some line found, List.cons_append, ofText_at_of_some line atCut, ih, List.cons_append]
    · rw [ofText_cons_of_ne line here, List.cons_append, ofText_cons_of_ne line here, ih]

end Cut

/-- **A cut at a character that no annotation holds** leaves all annotations as they are: the text has those of
what stands before the character and those of what stands behind it. So it is before every `@`. Whatever stands
on the other side of the cut, be it a comment marker or an annotation with a mistake in it, makes no difference. -/
theorem annotations_of_cut (line : Nat) (before behind : Text) :
    (∀ c, c ≠ '@' → isTagChar c = false →
        ofText line (before ++ c :: behind) = ofText line before ++ ofText line behind)
      ∧ ofText line (before ++ '@' :: behind) = ofText line before ++ ofText line ('@' :: behind) := by
  refine ⟨fun c other foreign => ?_, ofText_append_cons isTagChar_at line before behind⟩
  rw [ofText_append_cons foreign, ofText_cons_of_ne line other]

/-- Behind a whole annotation and one that breaks off in its type, the cut is at a letter beyond ASCII. -/
theorem annotations_of_broken_type :
    let before := "@var A $x @phan-var B|".toList
    let behind := "C[] $y @var \\D[]|int\x0b$z".toList
    'é' ≠ '@' ∧ isTagChar 'é' = false
      ∧ ofText 7 (before ++ 'é' :: behind)
        = [⟨"A".toList, "x".toList, 7⟩, ⟨"\\D[]|int".toList, "z".toList, 7⟩] := by
  intro before behind
  have other : 'é' ≠ '@' := by decide
  have foreign : isTagChar 'é' = false := by decide
  refine ⟨other, foreign, ?_⟩
  rw [(annotations_of_cut 7 before behind).1 'é' other foreign]
  decide +kernel

end AnnotationCheck.VarTag
