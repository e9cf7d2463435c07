import AnnotationCheck.Php.Statement
import AnnotationCheck.Proofs.Comment.Parted
import AnnotationCheck.Proofs.Php.Spelling
import AnnotationCheck.Proofs.VarTag.Parts

/-!
The comments that the parser of this library gives.

* `IsCommentLength` — the ways in which a comment is read: to the end of its line, or up to the mark that
  closes it. No other token is a comment (`isCommentLength_of_step`).
* `ends_of_isCommentLength` — no word runs on behind a comment.
* `pairwise_of_adjoining`, `isParted_of_mem_lex` — tokens lie apart, and the comments among them are parted from
  what follows them.
* **`areParted_trivia`** — so are the comments of a script.
-/

namespace AnnotationCheck.Php

/-! ### How a comment is read -/

/-- The lengths of the comments that may begin a text. -/
inductive IsCommentLength : Text → Nat → Prop
  /-- From a `#` to the end of the line. -/
  | hash (rest : Text) : IsCommentLength ('#' :: rest) (lengthBefore endsLineComment rest + 1)
  /-- From two slashes to the end of the line. -/
  | slashes (rest : Text) : IsCommentLength ('/' :: '/' :: rest) (lengthBefore endsLineComment rest + 2)
  /-- Up to the mark that closes it. -/
  | block {rest : Text} {length : Nat} : lengthThrough? "*/".toList rest = some length →
      IsCommentLength ('/' :: '*' :: rest) (length + 2)

theorem isCommentLength_of_stepCode {frames : List Frame} {text : Text} {kind : Kind} {length : Nat}
    {behind : Mode} (found : stepCode frames text = some (kind, length, behind))
    (isComment : kind.isComment = true) : IsCommentLength text length := by
  unfold stepCode at found
  split at found
  case h_4 rest _ =>
    cases found
    exact .hash rest
  case h_5 rest =>
    cases found
    exact .slashes rest
  case h_6 rest =>
    obtain ⟨through, closed, same⟩ := Option.map_eq_some_iff.mp found
    cases same
    exact .block closed
  -- every other way of going on gives a token of another kind
  all_goals grind [Kind.isComment, Option.map_eq_some_iff]

theorem isCommentLength_of_step {mode : Mode} {position : Nat} {text : Text} {kind : Kind} {length : Nat}
    {behind : Mode} (found : step mode position text = some (kind, length, behind))
    (isComment : kind.isComment = true) : IsCommentLength text length := by
  have isCode : kind.isFrame = false := by
    revert isComment
    cases kind <;> decide
  obtain ⟨frames, coded⟩ := exists_stepCode_of_step found isCode
  exact isCommentLength_of_stepCode coded isComment

/-! ### What follows a comment -/

theorem drop_lengthBefore (found : Text → Bool) (text : Text) :
    text.drop (lengthBefore found text) = [] ∨ found (text.drop (lengthBefore found text)) = true := by
  induction text with
  | nil => exact .inl rfl
  | cons c rest ih =>
    rw [lengthBefore]
    split
    · rename_i here
      exact .inr here
    · exact ih

theorem exists_cons_of_endsLineComment {text : Text} (ends : endsLineComment text = true) :
    ∃ c rest, text = c :: rest ∧ Text.isWord c = false := by
  unfold endsLineComment at ends
  split at ends
  case h_4 c _ _ _ =>
    have gap : Text.isGap c = true := by rw [Text.isGap, ends, Bool.true_or]
    exact ⟨c, _, rfl, VarTag.isWord_of_isGap gap⟩
  case h_5 => cases ends
  all_goals exact ⟨_, _, rfl, rfl⟩

/-- The end of the line of a comment is the end of the text, or a character that belongs to no word. -/
theorem drop_lengthBefore_endsLineComment (rest : Text) :
    rest.drop (lengthBefore endsLineComment rest) = []
      ∨ ∃ c more, rest.drop (lengthBefore endsLineComment rest) = c :: more ∧ Text.isWord c = false :=
  (drop_lengthBefore endsLineComment rest).imp_right exists_cons_of_endsLineComment

/-- What is read up to the end of a mark ends in it. -/
theorem take_of_lengthThrough? {mark text : Text} {length : Nat}
    (found : lengthThrough? mark text = some length) : mark <:+ text.take length := by
  unfold lengthThrough? at found
  simp only [Option.ite_none_right_eq_some, Option.some.injEq] at found
  obtain ⟨there, rfl⟩ := found
  obtain ⟨rest, behind⟩ := List.isPrefixOf_iff_prefix.mp there
  refine ⟨text.take (lengthBefore mark.isPrefixOf text), ?_⟩
  rw [List.take_add, ← behind, List.take_left]

/-- **No word runs on behind a comment**: the text ends there, another character follows, or the comment ends with
the mark that closes it. -/
theorem ends_of_isCommentLength {text : Text} {length : Nat} (isComment : IsCommentLength text length) :
    text.drop length = [] ∨ (∃ c more, text.drop length = c :: more ∧ Text.isWord c = false)
      ∨ Comment.closing <:+ text.take length := by
  cases isComment with
  | hash rest => exact (drop_lengthBefore_endsLineComment rest).imp_right .inl
  | slashes rest => exact (drop_lengthBefore_endsLineComment rest).imp_right .inl
  | @block rest length closed =>
    obtain ⟨front, taken⟩ := take_of_lengthThrough? closed
    refine .inr (.inr ⟨'/' :: '*' :: front, ?_⟩)
    rw [List.take_succ_cons, List.take_succ_cons, ← taken]
    rfl

/-! ### Tokens one behind the other -/

/-- Tokens that adjoin each other lie apart, between the place of the first one and the end of the last one. -/
theorem pairwise_of_adjoining {position : Nat} {tokens : List Token} (adjoining : Adjoining position tokens) :
    (tokens.Pairwise fun token next => token.stop ≤ next.start)
      ∧ ∀ token ∈ tokens, position ≤ token.start ∧ token.stop ≤ position + Text.size (tokens.flatMap Token.text) := by
  induction tokens generalizing position with
  | nil => exact ⟨.nil, by simp⟩
  | cons token rest ih =>
    obtain ⟨begins, adjoining⟩ := adjoining
    obtain ⟨apart, within⟩ := ih adjoining
    have ends : token.stop = position + Text.size token.text := by rw [Token.stop, begins]
    refine ⟨.cons (fun next there => (within next there).1) apart, fun next there => ?_⟩
    rw [List.flatMap_cons, Text.size_append]
    rcases List.mem_cons.mp there with rfl | later
    · omega
    · have := within next later
      omega

/-- Among the tokens of what is left of a script behind what was `seen`, no word runs on behind a comment. -/
theorem isParted_of_mem_lex (fuel : Nat) (mode : Mode) (seen text : Text) :
    ∀ token ∈ lex fuel mode (Text.size seen) text, token.kind.isComment = true →
      Range.IsParted ⟨token.start, token.stop⟩ (seen ++ text) := by
  induction fuel generalizing mode seen text with
  | zero => simp [lex]
  | succ fuel ih =>
    rw [lex]
    split
    · simp
    · split
      · simp
      · simp
      · rename_i kind length behind _ found
        refine List.forall_mem_cons.mpr ⟨fun isComment => ?_, ?_⟩
        · refine ⟨seen, text.take length, text.drop length, ?_, rfl, rfl, ?_⟩
          · rw [List.take_append_drop]
          · exact ends_of_isCommentLength (isCommentLength_of_step found isComment)
        · have later := ih behind (seen ++ text.take length) (text.drop length)
          rwa [Text.size_append, List.append_assoc, List.take_append_drop] at later

/-! ### The comments of a script -/

/-- A piece of trivia is a token of a kind of trivia. -/
theorem exists_token_of_mem_trivia {script : Text} {piece : Trivia} (there : piece ∈ trivia script) :
    ∃ token ∈ tokens script, ∃ kind, token.trivia? = some kind
      ∧ piece = ⟨kind, token.text, token.start, token.stop⟩ := by
  obtain ⟨token, isToken, found⟩ := List.mem_filterMap.mp there
  obtain ⟨kind, isTrivia, rfl⟩ := Option.map_eq_some_iff.mp found
  exact ⟨token, isToken, kind, isTrivia, rfl⟩

theorem isComment_of_trivia? {token : Token} {kind : TriviaKind} (isTrivia : token.trivia? = some kind) :
    kind.isComment = token.kind.isComment := by
  unfold Token.trivia? at isTrivia
  split at isTrivia <;> cases isTrivia
  case h_2 => split <;> simp_all [TriviaKind.isComment, Kind.isComment]
  all_goals simp_all [TriviaKind.isComment, Kind.isComment]

/-- The trivia of a script are cut from its tokens, in their order. -/
theorem pairwise_trivia (script : Text) : (trivia script).Pairwise fun piece next => piece.stop ≤ next.start := by
  refine List.Pairwise.filterMap _ ?_ (pairwise_of_adjoining (tokens_adjoining script)).1
  intro token next apart piece isPiece other isOther
  obtain ⟨_, -, rfl⟩ := Option.map_eq_some_iff.mp isPiece
  obtain ⟨_, -, rfl⟩ := Option.map_eq_some_iff.mp isOther
  exact apart

/-- **The comments that the parser of this library gives** lie one behind the other, and no word runs on behind any
of them. -/
theorem areParted_trivia (script : Text) : Comment.AreParted script (Comment.ranges (trivia script)) where
  inOrder := List.pairwise_map.mpr ((pairwise_trivia script).sublist List.filter_sublist)
  parted := by
    intro range there
    obtain ⟨piece, isPiece, rfl⟩ := List.mem_map.mp there
    obtain ⟨isPiece, isComment⟩ := List.mem_filter.mp isPiece
    obtain ⟨token, isToken, kind, isTrivia, rfl⟩ := exists_token_of_mem_trivia isPiece
    rw [isComment_of_trivia? isTrivia] at isComment
    exact isParted_of_mem_lex _ _ [] script token isToken isComment

theorem areInOrderIn (script : Text) : Comment.AreInOrderIn script := by
  rintro program ⟨⟩
  exact (areParted_trivia script).inOrder

end AnnotationCheck.Php
