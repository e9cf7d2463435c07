import AnnotationCheck.Php.Grammar
import AnnotationCheck.Php.Lexer

/-!
How the names in a script are spelled.

* `IsWordText`, `IsNameText` — the text of a word has characters of a name alone; that of a name has separators
  among them, but not at its end. `IsLettered` says as much without looking at the end.
* `exists_stepCode_of_step` — every token of the code is read where code is, be it within a string or not.
* **`isSpelled_of_mem_code`** — the words and names of a script are spelled that way.
-/

namespace AnnotationCheck.Php

/-- The text of a word: at least one character, each of them one of a name. -/
def IsWordText (text : Text) : Prop := text ≠ [] ∧ ∀ c ∈ text, isNamePart c = true

/-- Characters of names and separators, in any order. -/
def IsLettered (text : Text) : Prop := ∀ c ∈ text, c = '\\' ∨ isNamePart c = true

/-- The text of a name: characters of a name and separators. -/
structure IsNameText (text : Text) : Prop where
  /-- It does not end in a separator. -/
  ends : ∃ front c, text = front ++ [c] ∧ isNamePart c = true
  letters : IsLettered text

theorem IsWordText.isNameText {text : Text} (isWord : IsWordText text) : IsNameText text where
  ends := ⟨text.dropLast, text.getLast isWord.1, (List.dropLast_concat_getLast isWord.1).symm,
    isWord.2 _ (List.getLast_mem isWord.1)⟩
  letters c there := .inr (isWord.2 c there)

/-- A token whose text fits its kind. -/
structure Token.IsSpelled (token : Token) : Prop where
  word : token.kind = .word → IsWordText token.text
  qualified : token.kind = .qualified → IsNameText token.text

/-- A name of one segment or several is spelled as one. -/
theorem Token.IsSpelled.isNameText {token : Token} (spelled : token.IsSpelled)
    (isName : Grammar.isName token = true) : IsNameText token.text := by
  simp only [Grammar.isName, Grammar.isOwnName, Bool.or_eq_true, Bool.and_eq_true, beq_iff_eq] at isName
  rcases isName with qualified | ⟨word, _⟩
  · exact spelled.qualified qualified
  · exact (spelled.word word).isNameText

/-! ### The length of a name -/

theorem isNamePart_of_isNameStart {c : Char} (starts : isNameStart c = true) : isNamePart c = true := by
  rw [isNamePart, starts, Bool.true_or]

/-- What is taken for a name has characters of a name and separators. -/
theorem isNamePart_of_mem_take_nameLength (text : Text) :
    ∀ c ∈ text.take (nameLength text), c = '\\' ∨ isNamePart c = true := by
  fun_induction nameLength text with
  | case1 c rest starts ih =>
    simp only [List.take_succ_cons, List.forall_mem_cons]
    exact ⟨.inl trivial, .inr (isNamePart_of_isNameStart starts), ih⟩
  | case3 c rest _ isPart ih =>
    simp only [List.take_succ_cons, List.forall_mem_cons]
    exact ⟨.inr isPart, ih⟩
  | case2 | case4 | case5 => simp

/-- What is taken for a name does not end in a separator. -/
theorem exists_append_take_nameLength {text : Text} (some : nameLength text ≠ 0) :
    ∃ front c, text.take (nameLength text) = front ++ [c] ∧ isNamePart c = true := by
  fun_induction nameLength text with
  | case1 c rest starts ih =>
    by_cases more : nameLength rest = 0
    · exact ⟨['\\'], c, by simp [more], isNamePart_of_isNameStart starts⟩
    · obtain ⟨front, last, taken, isPart⟩ := ih more
      exact ⟨'\\' :: c :: front, last, by simp [taken], isPart⟩
  | case3 c rest _ isPart ih =>
    by_cases more : nameLength rest = 0
    · exact ⟨[], c, by simp [more], isPart⟩
    · obtain ⟨front, last, taken, isPart'⟩ := ih more
      exact ⟨c :: front, last, by simp [taken], isPart'⟩
  | case2 | case4 | case5 => exact absurd rfl some

theorem nameLength_ne_zero {c : Char} (starts : isNameStart c = true) (rest : Text) :
    nameLength (c :: rest) ≠ 0 := by
  have notSeparator : c ≠ '\\' := by
    rintro rfl
    revert starts
    decide
  rw [nameLength]
  · simp [isNamePart_of_isNameStart starts]
  · grind

/-! ### Where code is read -/

/-- The kinds of tokens outside the code: the text around the tags, the tags that lead into the code, and the
parts of strings. -/
def Kind.isFrame (kind : Kind) : Bool :=
  [outside, openTag, echoTag, fragment, closeQuote].contains kind

theorem exists_stepCode_of_stepInside {position : Nat} {frames : List Frame} {text : Text} {kind : Kind}
    {length : Nat} {behind : Mode} (found : stepInside position frames text = some (kind, length, behind))
    (isCode : kind.isFrame = false) : ∃ frames, stepCode frames text = some (kind, length, behind) := by
  unfold stepInside at found
  split at found
  · split at found
    · split at found
      · cases found
        cases isCode
      · exact ⟨_, found⟩
    · cases found
      cases isCode
  · split at found
    · cases found
      cases isCode
    · exact ⟨_, found⟩
    · cases found
      cases isCode
  · exact ⟨_, found⟩

/-- **Every token of the code is read where code is**, be it within a string or not. -/
theorem exists_stepCode_of_step {mode : Mode} {position : Nat} {text : Text} {kind : Kind} {length : Nat}
    {behind : Mode} (found : step mode position text = some (kind, length, behind))
    (isCode : kind.isFrame = false) : ∃ frames, stepCode frames text = some (kind, length, behind) := by
  cases mode with
  | outside =>
    have outside := Option.some.inj found
    unfold stepOutside at outside
    grind [Kind.isFrame]
  | inside frames => exact exists_stepCode_of_stepInside found isCode
  | halted =>
    cases found
    cases isCode

/-! ### Words and names -/

/-- The kinds and lengths of the words and names that code may begin with. -/
inductive IsNameLength : Kind → Text → Nat → Prop
  | word {c : Char} {rest : Text} : isNameStart c = true → '\\' ∉ (c :: rest).take (nameLength (c :: rest)) →
      IsNameLength .word (c :: rest) (nameLength (c :: rest))
  | qualified {c : Char} {rest : Text} : isNameStart c = true →
      IsNameLength .qualified (c :: rest) (nameLength (c :: rest))
  /-- With a separator before it. -/
  | led {c : Char} {rest : Text} : isNameStart c = true →
      IsNameLength .qualified ('\\' :: c :: rest) (nameLength (c :: rest) + 1)

/-- The word that ends a script has no separator in it. -/
theorem separator_not_mem_of_lower_eq {text : Text} (halts : Text.lower text = haltWord) : '\\' ∉ text := by
  intro there
  have lowered : '\\'.toLower ∈ Text.lower text := List.mem_map_of_mem there
  rw [halts] at lowered
  revert lowered
  decide

theorem isNameLength_of_stepCode {frames : List Frame} {text : Text} {kind : Kind} {length : Nat}
    {behind : Mode} (found : stepCode frames text = some (kind, length, behind))
    (isName : kind = .word ∨ kind = .qualified) : IsNameLength kind text length := by
  unfold stepCode at found
  split at found
  case h_10 c rest _ _ _ _ _ _ _ _ =>
    simp only at found
    by_cases starts : isNameStart c = true
    · by_cases separated : '\\' ∈ (c :: rest).take (nameLength (c :: rest))
      · have same : kind = .qualified ∧ length = nameLength (c :: rest) := by
          grind [separator_not_mem_of_lower_eq, Option.map_eq_some_iff]
        rw [same.1, same.2]
        exact .qualified starts
      · have same : kind = .word ∧ length = nameLength (c :: rest) := by
          grind [Option.map_eq_some_iff]
        rw [same.1, same.2]
        exact .word starts separated
    · by_cases led : c = '\\' ∧ rest.head?.any isNameStart = true
      · have same : kind = .qualified ∧ length = nameLength rest + 1 := by
          grind [Option.map_eq_some_iff]
        rw [same.1, same.2, led.1]
        cases rest with
        | nil => cases led.2
        | cons d rest => exact .led led.2
      · grind [Option.map_eq_some_iff]
  -- every other way of going on gives a token of another kind
  all_goals grind [Option.map_eq_some_iff]

/-- A word or a name that is read has the text that fits it. -/
theorem IsNameLength.isSpelled {kind : Kind} {text : Text} {length : Nat}
    (isLength : IsNameLength kind text length) (position : Nat) :
    Token.IsSpelled ⟨kind, text.take length, position⟩ := by
  cases isLength with
  | @word c rest starts clear =>
    refine ⟨fun _ => ⟨?_, fun d there => ?_⟩, nofun⟩
    · obtain ⟨front, last, taken, _⟩ := exists_append_take_nameLength (nameLength_ne_zero starts rest)
      simp [taken]
    · rcases isNamePart_of_mem_take_nameLength (c :: rest) d there with rfl | isPart
      · exact absurd there clear
      · exact isPart
  | @qualified c rest starts =>
    exact ⟨nofun, fun _ => ⟨exists_append_take_nameLength (nameLength_ne_zero starts rest),
      isNamePart_of_mem_take_nameLength (c :: rest)⟩⟩
  | @led c rest starts =>
    obtain ⟨front, last, taken, isPart⟩ := exists_append_take_nameLength (nameLength_ne_zero starts rest)
    refine ⟨nofun, fun _ => ⟨⟨'\\' :: front, last, by rw [List.take_succ_cons, taken]; rfl, isPart⟩, ?_⟩⟩
    rw [List.take_succ_cons]
    exact List.forall_mem_cons.mpr ⟨.inl rfl, isNamePart_of_mem_take_nameLength (c :: rest)⟩

/-! ### The tokens of a script -/

theorem isSpelled_of_step {mode : Mode} {position : Nat} {text : Text} {kind : Kind} {length : Nat}
    {behind : Mode} (found : step mode position text = some (kind, length, behind)) :
    Token.IsSpelled ⟨kind, text.take length, position⟩ := by
  by_cases isName : kind = .word ∨ kind = .qualified
  · have isCode : kind.isFrame = false := by rcases isName with rfl | rfl <;> rfl
    obtain ⟨frames, coded⟩ := exists_stepCode_of_step found isCode
    exact (isNameLength_of_stepCode coded isName).isSpelled position
  · simp only [not_or] at isName
    exact ⟨fun word => absurd word isName.1, fun qualified => absurd qualified isName.2⟩

theorem isSpelled_of_mem_lex (fuel : Nat) (mode : Mode) (position : Nat) (text : Text) :
    ∀ token ∈ lex fuel mode position text, token.IsSpelled := by
  induction fuel generalizing mode position text with
  | zero => simp [lex]
  | succ fuel ih =>
    rw [lex]
    split
    · simp
    · split
      · simp
      · simp
      · rename_i kind length behind _ found
        intro token there
        rcases List.mem_cons.mp there with rfl | there
        · exact isSpelled_of_step found
        · exact ih _ _ _ token there

/-- **The words and names of a script are spelled as such.** -/
theorem isSpelled_of_mem_code {script : Text} : ∀ token ∈ code script, token.IsSpelled := fun token there =>
  isSpelled_of_mem_lex _ _ _ _ token (List.mem_filter.mp there).1

end AnnotationCheck.Php
