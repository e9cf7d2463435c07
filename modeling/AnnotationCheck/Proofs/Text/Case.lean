import AnnotationCheck.Union.Basic
import Mathlib

/-!
Texts that differ in the case of ASCII letters.

* `toLower_of_alike` — a function that takes all letters alike does not tell a letter from its small form.
* `fields_lower`, `takeWhile_lower`, `dropWhile_lower` — a text is cut at the same places in either case.
-/

namespace AnnotationCheck.Text

/-! ### Characters -/

/-- A function that takes all letters alike takes a character as its small form. -/
theorem toLower_of_alike {β : Type} {f : Char → β}
    (alike : ∀ c d : Char, c.isAlpha = true → d.isAlpha = true → f c = f d) (c : Char) :
    f c.toLower = f c := by
  by_cases upper : c.isUpper = true
  · have letter : c.isAlpha = true := by simp [Char.isAlpha, upper]
    exact alike _ _ (by rw [Char.isAlpha_toLower_eq_isAlpha, letter]) letter
  · rw [Char.toLower_eq_of_not_isUpper upper]

/-- Only the character itself becomes one that is no letter. -/
theorem toLower_eq_iff {c mark : Char} (plain : mark.isAlpha = false) : c.toLower = mark ↔ c = mark := by
  have alike : ∀ c d : Char, c.isAlpha = true → d.isAlpha = true → (c = mark) = (d = mark) := by
    intro c d isLetter isLetter'
    have apart : ∀ e : Char, e.isAlpha = true → e ≠ mark := by
      rintro e isLetter rfl
      rw [plain] at isLetter
      cases isLetter
    exact propext (iff_of_false (apart c isLetter) (apart d isLetter'))
  exact iff_of_eq (toLower_of_alike alike c)

theorem isNameChar_toLower (c : Char) : Union.isNameChar c.toLower = Union.isNameChar c := by
  refine toLower_of_alike (fun c d isLetter isLetter' => ?_) c
  have isName : ∀ e : Char, e.isAlpha = true → Union.isNameChar e = true := fun e letter => by
    simp [Union.isNameChar, isWord, Char.isAlphanum, letter]
  rw [isName c isLetter, isName d isLetter']

/-! ### Texts -/

/-- Only the text itself becomes one without letters. -/
theorem lower_eq_iff {text marks : Text} (plain : marks.any Char.isAlpha = false) :
    lower text = marks ↔ text = marks := by
  induction marks generalizing text with
  | nil => exact List.map_eq_nil_iff
  | cons mark rest ih =>
    cases text with
    | nil => exact iff_of_false (List.cons_ne_nil _ _).symm (List.cons_ne_nil _ _).symm
    | cons c more =>
      have lowered : lower (c :: more) = c.toLower :: lower more := rfl
      rw [List.any_cons, Bool.or_eq_false_iff] at plain
      rw [lowered, List.cons.injEq, List.cons.injEq, toLower_eq_iff plain.1, ih plain.2]

/-- Texts that are the same but for case have characters of the same class, if case does not matter to it. -/
theorem forall_mem_of_lower_eq {inClass : Char → Bool} (alike : ∀ c : Char, inClass c.toLower = inClass c)
    {left right : Text} (same : lower left = lower right) (all : ∀ c ∈ left, inClass c = true) :
    ∀ c ∈ right, inClass c = true := by
  intro c there
  have lowered : c.toLower ∈ lower left := same ▸ List.mem_map_of_mem there
  obtain ⟨d, inLeft, small⟩ := List.mem_map.mp lowered
  rw [← alike, ← small, alike]
  exact all d inLeft

theorem ne_nil_of_lower_eq {left right : Text} (same : lower left = lower right) (some : left ≠ []) :
    right ≠ [] := by
  rintro rfl
  exact some (List.map_eq_nil_iff.mp same)

theorem takeWhile_lower {inClass : Char → Bool} (alike : ∀ c : Char, inClass c.toLower = inClass c)
    (text : Text) : (lower text).takeWhile inClass = lower (text.takeWhile inClass) := by
  rw [lower, List.takeWhile_map, show inClass ∘ Char.toLower = inClass from funext alike, lower]

theorem dropWhile_lower {inClass : Char → Bool} (alike : ∀ c : Char, inClass c.toLower = inClass c)
    (text : Text) : (lower text).dropWhile inClass = lower (text.dropWhile inClass) := by
  rw [lower, List.dropWhile_map, show inClass ∘ Char.toLower = inClass from funext alike, lower]

/-- A separator that is no letter cuts a text at the same places in either case. -/
theorem fields_lower {separator : Char} (plain : separator.isAlpha = false) (text : Text) :
    fields separator (lower text) = (fields separator text).map lower := by
  induction text with
  | nil => rfl
  | cons c rest ih =>
    have lowered : lower (c :: rest) = c.toLower :: lower rest := rfl
    rw [lowered, fields, ih, fields]
    simp only [toLower_eq_iff plain]
    cases cut : fields separator rest with
    | nil => exact absurd cut (fields_ne_nil separator rest)
    | cons field more => by_cases here : c = separator <;> simp [here, lower]

end AnnotationCheck.Text
