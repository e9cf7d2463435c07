/-!
Text as a list of characters.

This file holds the character classes that the annotation grammar and the name rules use, ASCII case,
the ways of cutting a text: at a separator, at both ends, behind a fixed beginning, and replacing. The main
facts are that cutting at a separator loses nothing (`intercalate_fields`) and that every field is
free of it (`not_mem_of_mem_fields`).
-/

namespace AnnotationCheck

/-- A piece of text, as the list of its characters. -/
abbrev Text := List Char

namespace Text

/-! ### Character classes -/

/-- An ASCII letter, an ASCII digit or `_`. -/
def isWord (c : Char) : Bool := c.isAlphanum || c == '_'

/-- The blanks of ASCII text: space, tab, line feed, form feed and carriage return. -/
def isBlank (c : Char) : Bool := c == ' ' || c == '\t' || c == '\n' || c == '\x0c' || c == '\r'

/-- What separates the parts of an annotation: a blank or a vertical tab. -/
def isGap (c : Char) : Bool := isBlank c || c == '\x0b'

/-! ### ASCII case -/

/-- The text with the letters `A` to `Z` made small; every other character stays. -/
def lower (text : Text) : Text := text.map Char.toLower

/-- Two texts that differ at most in the case of ASCII letters. -/
def sameIgnoringCase (left right : Text) : Bool := lower left == lower right

theorem lower_append (left right : Text) : lower (left ++ right) = lower left ++ lower right :=
  List.map_append

theorem length_lower (text : Text) : (lower text).length = text.length :=
  List.length_map _

/-! ### Cutting -/

section Fields

variable {α : Type} [DecidableEq α]

/-- The pieces between the occurrences of `separator`, at least one; a text is cut at a character, and a
list of bytes at a byte. -/
def fields (separator : α) : List α → List (List α)
  | [] => [[]]
  | c :: rest =>
    match fields separator rest with
    | [] => [[c]]
    | field :: more => if c = separator then [] :: field :: more else (c :: field) :: more

theorem fields_ne_nil (separator : α) (text : List α) : fields separator text ≠ [] := by
  cases text with
  | nil => simp [fields]
  | cons c rest =>
    simp only [fields]
    split
    · simp
    · split <;> simp

/-- Cutting at a separator loses nothing: writing it between the fields gives the text back. -/
theorem intercalate_fields (separator : α) (text : List α) :
    [separator].intercalate (fields separator text) = text := by
  induction text with
  | nil => simp [fields]
  | cons c rest ih =>
    simp only [fields]
    cases cut : fields separator rest with
    | nil => exact absurd cut (fields_ne_nil separator rest)
    | cons field more =>
      rw [cut] at ih
      by_cases here : c = separator
      · simp only [here, if_true]
        rw [List.intercalate_cons_cons, ih]
        rfl
      · simp only [here, if_false]
        cases more with
        | nil => simpa using ih
        | cons next last =>
          rw [List.intercalate_cons_cons] at ih ⊢
          simpa using ih

/-- No field holds the separator. -/
theorem not_mem_of_mem_fields {separator : α} {text field : List α}
    (member : field ∈ fields separator text) : separator ∉ field := by
  induction text generalizing field with
  | nil => simp_all [fields]
  | cons c rest ih =>
    simp only [fields] at member
    cases cut : fields separator rest with
    | nil => exact absurd cut (fields_ne_nil separator rest)
    | cons first more =>
      rw [cut] at member ih
      by_cases here : c = separator
      · simp only [here, if_true, List.mem_cons] at member
        rcases member with rfl | rest'
        · simp
        · exact ih (by simpa using rest')
      · simp only [here, if_false, List.mem_cons] at member
        rcases member with rfl | rest'
        · have clear : separator ∉ first := ih (by simp)
          simp only [List.mem_cons, not_or]
          exact ⟨fun same => here same.symm, clear⟩
        · exact ih (by simp [rest'])

/-- The other characters of a text are those of its fields. -/
theorem mem_iff_exists_mem_fields {separator c : α} (other : c ≠ separator) (text : List α) :
    c ∈ text ↔ ∃ field ∈ fields separator text, c ∈ field := by
  induction text with
  | nil => simp [fields]
  | cons d rest ih =>
    rw [List.mem_cons, ih, fields]
    cases cut : fields separator rest with
    | nil => exact absurd cut (fields_ne_nil separator rest)
    | cons field more =>
      by_cases here : d = separator
      · simp [here, other]
      · simp [here, or_assoc]

/-- A text without the separator is one field. -/
theorem fields_eq_singleton {separator : α} {text : List α} (clear : separator ∉ text) :
    fields separator text = [text] := by
  induction text with
  | nil => rfl
  | cons c rest ih =>
    simp only [List.mem_cons, not_or] at clear
    simp [fields, ih clear.2, Ne.symm clear.1]

/-- A separator cuts a text into the fields of what stands on its two sides. -/
theorem fields_append_separator (separator : α) (first rest : List α) :
    fields separator (first ++ separator :: rest) = fields separator first ++ fields separator rest := by
  induction first with
  | nil =>
    cases cut : fields separator rest with
    | nil => exact absurd cut (fields_ne_nil separator rest)
    | cons field more => simp [fields, cut]
  | cons c more ih =>
    rw [List.cons_append, fields, ih, fields]
    cases cut : fields separator more with
    | nil => exact absurd cut (fields_ne_nil separator more)
    | cons field later => by_cases here : c = separator <;> simp [here]

/-- What is put behind a text goes into its last field. -/
theorem fields_append {separator : α} {ending : List α} (clear : separator ∉ ending) (text : List α) :
    ∃ front last, fields separator text = front ++ [last]
      ∧ fields separator (text ++ ending) = front ++ [last ++ ending] := by
  induction text with
  | nil => exact ⟨[], [], rfl, fields_eq_singleton clear⟩
  | cons c rest ih =>
    obtain ⟨front, last, cut, longer⟩ := ih
    rw [List.cons_append, fields, fields, cut, longer]
    by_cases here : c = separator
    · refine ⟨[] :: front, last, ?_, ?_⟩ <;> cases front <;> simp [here]
    · cases front with
      | nil => exact ⟨[], c :: last, by simp [here], by simp [here]⟩
      | cons field front => exact ⟨(c :: field) :: front, last, by simp [here], by simp [here]⟩

/-- What stands before the first separator is the first field. -/
theorem fields_append_cons {separator : α} {first : List α} (clear : separator ∉ first) (rest : List α) :
    fields separator (first ++ separator :: rest) = first :: fields separator rest := by
  rw [fields_append_separator, fields_eq_singleton clear]
  rfl

/-- Texts without the separator are the fields of what they come to with it between them. -/
theorem fields_intercalate {separator : α} {texts : List (List α)} (some : texts ≠ [])
    (clear : ∀ text ∈ texts, separator ∉ text) : fields separator ([separator].intercalate texts) = texts := by
  induction texts with
  | nil => exact absurd rfl some
  | cons first rest ih =>
    have clearFirst : separator ∉ first := clear first List.mem_cons_self
    cases rest with
    | nil => simpa using fields_eq_singleton clearFirst
    | cons next more =>
      have joined := ih (by simp) fun text there => clear text (List.mem_cons_of_mem first there)
      rw [List.intercalate_cons_cons, List.append_assoc, List.singleton_append, fields_append_cons clearFirst,
        joined]

end Fields

/-! ### Both ends -/

/-- The text without the characters of a class at its end. -/
def trimEnd (inClass : Char → Bool) (text : Text) : Text :=
  (text.reverse.dropWhile inClass).reverse

/-- The text without the characters of a class at both ends. -/
def trim (inClass : Char → Bool) (text : Text) : Text :=
  trimEnd inClass (text.dropWhile inClass)

/-- The rest behind `beginning`, or the whole text when it begins otherwise. -/
def dropPrefix (beginning text : Text) : Text := (beginning.isPrefixOf? text).getD text

/-- The part before `ending`, if the text ends in it. -/
def beforeSuffix? (ending text : Text) : Option Text :=
  (ending.reverse.isPrefixOf? text.reverse).map List.reverse

/-! ### Replacing -/

/-- The text with every occurrence of a non-empty `pattern` replaced, of which the first `skipped`
characters are done with. -/
def replaceFrom (pattern replacement : Text) : Nat → Text → Text
  | _, [] => []
  | skipped + 1, _ :: rest => replaceFrom pattern replacement skipped rest
  | 0, c :: rest =>
    if pattern.isPrefixOf (c :: rest) then
      replacement ++ replaceFrom pattern replacement (pattern.length - 1) rest
    else c :: replaceFrom pattern replacement 0 rest

/-- The text with every occurrence of a non-empty `pattern` replaced, from left to right. -/
def replace (pattern replacement text : Text) : Text := replaceFrom pattern replacement 0 text

/-! ### Lists of texts -/

/-- The first occurrence of each element, in order. -/
def distinct : List Text → List Text
  | [] => []
  | text :: rest => text :: (distinct rest).filter (· != text)

theorem mem_distinct {text : Text} {texts : List Text} : text ∈ distinct texts ↔ text ∈ texts := by
  induction texts with
  | nil => rfl
  | cons first rest ih =>
    rw [distinct, List.mem_cons, List.mem_cons, List.mem_filter, ih]
    by_cases same : text = first <;> simp [same]

end Text

end AnnotationCheck
