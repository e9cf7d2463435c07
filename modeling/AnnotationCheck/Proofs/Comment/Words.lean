import AnnotationCheck.Comment.Words
import AnnotationCheck.Declarations
import AnnotationCheck.Proofs.Comment.Ranges

/-!
Lines in words of 32 bits.

* `exists_add_newlines`, `exists_lineWord` — in a text of fewer than `2 ^ 32 - 1` bytes every line is a word,
  whether it is counted on from an earlier place or from the beginning.
* `exists_inWordsFrom?` — so the lines of comments are counted on in words as they are in natural numbers.
* **`inWords?_of_size_lt`** — whatever the ranges are, those that count are read, each with its part of the
  text and the line of its first byte; no bytes are asked for that are not there, and no line is too large.
-/

namespace AnnotationCheck

/-! ### Lines in a short text -/

namespace Text

theorem toNat_newlines {bytes : List UInt8} (short : bytes.length < UInt32.size) :
    (newlines bytes).toNat = bytes.count newline :=
  UInt32.toNat_ofNat_of_lt' (Nat.lt_of_le_of_lt List.count_le_length short)

variable {text : Text}

theorem exists_addWords? {left right : UInt32} {sum : Nat} (isSum : left.toNat + right.toNat = sum)
    (fits : sum < UInt32.size) : ∃ word, addWords? left right = some word ∧ word.toNat = sum := by
  subst isSum
  refine ⟨left + right, if_pos fits, ?_⟩
  exact (UInt32.toNat_add left right).trans (Nat.mod_eq_of_lt fits)

/-- In a short text the line of a place is counted on to a later place. -/
theorem exists_add_newlines (short : size text < UInt32.size - 1) {line : UInt32} {start stop : Nat}
    (isLine : line.toNat = lineAt text start) (inOrder : start ≤ stop) (inText : stop ≤ size text) :
    ∃ between word, bytesBetween? text start stop = some between ∧
      addWords? line (newlines between) = some word ∧ word.toNat = lineAt text stop := by
  have fewer : (bytesBetween text start stop).length < UInt32.size := by
    rw [bytesBetween_of_le inOrder inText, List.length_take, List.length_drop, length_bytes]
    omega
  have isSum : line.toNat + (newlines (bytesBetween text start stop)).toNat = lineAt text stop := by
    rw [toNat_newlines fewer, isLine, lineAt_add inOrder inText]
  have fits : lineAt text stop < UInt32.size := by
    have bound := lineAt_le text stop
    omega
  obtain ⟨word, added, isWord⟩ := exists_addWords? isSum fits
  exact ⟨_, word, if_pos ⟨inOrder, inText⟩, added, isWord⟩

/-- In a short text every line is a word. -/
theorem exists_lineWord (short : size text < UInt32.size - 1) (offset : Nat) :
    ∃ word, lineWord? text offset = some word ∧ word.toNat = lineAt text offset := by
  have first : (1 : UInt32).toNat = lineAt text 0 := (lineAt_zero text).symm
  obtain ⟨before, word, found, added, isWord⟩ :=
    exists_add_newlines short first (Nat.zero_le _) (Nat.min_le_right offset (size text))
  refine ⟨word, ?_, ?_⟩
  · rw [lineWord?, found, Option.bind_eq_bind, Option.bind_some, added]
  · rw [isWord, lineAt_eq, lineAt_eq, ← length_bytes, ← List.take_eq_take_min]

end Text

namespace Comment

/-- A comment is the part of the text at a range, and stands on the line of the first byte of it, a word. -/
structure IsRead (text : Text) (range : Range) (comment : WordComment) : Prop where
  denotes : range.Denotes text comment.text
  line_eq : comment.line.toNat = 1 + ((Text.bytes text).take range.start).count Text.newline
  word_eq : Text.lineWord? text range.start = some comment.line

theorem inWordsFrom?_cons (text : Text) (cursor : Nat) (line : UInt32) (range : Range) (rest : List Range) :
    inWordsFrom? text cursor line (range :: rest)
      = if range.start < cursor then inWordsFrom? text cursor line rest
        else
          match Text.slice? text range.start range.stop with
          | none => inWordsFrom? text cursor line rest
          | some part => (advance? text line cursor range.start).bind fun here =>
              (inWordsFrom? text range.start here rest).map (⟨part, here⟩ :: ·) := by
  unfold inWordsFrom?
  rw [readFrom]
  by_cases before : range.start < cursor
  · rw [if_pos before, if_pos before]
  rw [if_neg before, if_neg before]
  cases Text.slice? text range.start range.stop with
  | none => rfl
  | some part =>
    cases advance? text line cursor range.start with
    | none => simp
    | some here => cases later : readFrom (advance? text) text range.start here rest <;> simp [later]

variable {text : Text} {ranges : List Range}

/-- In a short text, a line that is a word is counted on to a later one that is a word. -/
theorem exists_advance? (short : Text.size text < UInt32.size - 1) {line : UInt32} {start stop : Nat}
    (isLine : line.toNat = Text.lineAt text start) (inOrder : start ≤ stop) (inText : stop ≤ Text.size text) :
    ∃ here, advance? text line start stop = some here ∧ advance text line.toNat start stop = here.toNat
      ∧ here.toNat = Text.lineAt text stop := by
  obtain ⟨between, here, cut, added, isHere⟩ := Text.exists_add_newlines short isLine inOrder inText
  refine ⟨here, ?_, ?_, isHere⟩
  · rw [advance?, cut, Option.bind_eq_bind, Option.bind_some, added]
  · rw [isHere, isLine]
    exact Text.lineAt_add inOrder inText

/-- In a short text, lines are counted on in words as they are in natural numbers. -/
theorem exists_inWordsFrom? (short : Text.size text < UInt32.size - 1) (ranges : List Range) {cursor : Nat}
    {line : UInt32} (isLine : line.toNat = Text.lineAt text cursor) :
    ∃ words, inWordsFrom? text cursor line ranges = some words
      ∧ ofRangesFrom text cursor line.toNat ranges = words.map ofWord := by
  induction ranges generalizing cursor line with
  | nil => exact ⟨[], rfl, rfl⟩
  | cons range rest ih =>
    rw [inWordsFrom?_cons, ofRangesFrom_cons]
    by_cases before : range.start < cursor
    · rw [if_pos before, if_pos before]
      exact ih isLine
    rw [if_neg before, if_neg before]
    cases there : Text.slice? text range.start range.stop with
    | none => exact ih isLine
    | some part =>
      obtain ⟨here, advanced, asNumber, isHere⟩ :=
        exists_advance? short isLine (Nat.le_of_not_lt before) (Range.denotes_iff.mpr there).start_le
      obtain ⟨words, found, asNumbers⟩ := ih isHere
      refine ⟨⟨part, here⟩ :: words, ?_, ?_⟩
      · simp only [advanced, found, Option.bind_some, Option.map_some]
      · simp only [asNumber, asNumbers, List.map_cons, ofWord]

/-- In a short text, the line of a comment is the word that is counted from the beginning of the text. -/
theorem isRead_of_isAt (short : Text.size text < UInt32.size - 1) {range : Range} {comment : WordComment}
    (isAt : IsAt text range (ofWord comment)) : IsRead text range comment := by
  obtain ⟨word, counted, isWord⟩ := Text.exists_lineWord short range.start
  have line : comment.line.toNat = Text.lineAt text range.start := isAt.line_eq
  have same : word = comment.line := UInt32.toNat_inj.mp (isWord.trans line.symm)
  exact ⟨isAt.denotes, by rw [line, Text.lineAt_eq], by rw [counted, same]⟩

/-- **Comments are read off any ranges in a text of fewer than `2 ^ 32 - 1` bytes.** Those that count are read
in their order, each with its part of the text and the line of its first byte, and no bytes are asked for that
are not there. Sorted ranges that denote parts of the text all count. Class-likes have their lines in the same
way. -/
theorem inWords?_of_size_lt (text : Text) (ranges : List Range) (short : Text.size text < UInt32.size - 1) :
    ∃ kept words, (∀ others, IsKept text [] ranges others ↔ others = kept)
      ∧ List.Forall₂ (IsRead text) kept words
      ∧ inWords? text ranges = some words
      ∧ ofRanges text ranges = words.map ofWord
      ∧ ((∀ range ∈ ranges, ∃ part, range.Denotes text part) →
          (ranges.Pairwise fun range next => range.start ≤ next.start) → kept = ranges)
      ∧ ∀ trivia home classLike, ∃ word, Text.lineWord? text classLike.start = some word
          ∧ word.toNat = (Declarations.declaration text trivia home classLike).line := by
  have first : (1 : UInt32).toNat = Text.lineAt text 0 := (Text.lineAt_zero text).symm
  obtain ⟨words, found, asNumbers⟩ := exists_inWordsFrom? short ranges first
  obtain ⟨isKept, areAt⟩ := forall₂_counted text ranges
  have asNumbers : ofRanges text ranges = words.map ofWord := asNumbers
  rw [asNumbers, List.forall₂_map_right_iff] at areAt
  refine ⟨counted text ranges, words, fun others => ⟨isKept.unique, fun same => ?_⟩,
    areAt.imp fun _ _ isAt => isRead_of_isAt short isAt, found, asNumbers, ?_, ?_⟩
  · rw [same]
    exact isKept
  · intro denote sorted
    exact (isKept.unique (isKept_of_sorted denote sorted fun _ _ _ absent => by cases absent)).symm
  · intro trivia home classLike
    exact Text.exists_lineWord short classLike.start

/-- Of ranges that stand in no order, cut a character in two, are reversed or reach behind the end, those are
left that count. -/
theorem inWords?_of_mixed_ranges :
    ∃ kept, IsKept "<?php\n/* ä */\n// b\n".toList []
        [⟨6, 14⟩, ⟨10, 12⟩, ⟨0, 5⟩, ⟨14, 6⟩, ⟨15, 40⟩, ⟨15, 19⟩] kept
      ∧ List.Forall₂ (IsRead "<?php\n/* ä */\n// b\n".toList) kept
          [⟨"/* ä */".toList, 2⟩, ⟨"// b".toList, 3⟩] := by
  obtain ⟨kept, words, isKept, areRead, found, -⟩ :=
    inWords?_of_size_lt "<?php\n/* ä */\n// b\n".toList
      [⟨6, 14⟩, ⟨10, 12⟩, ⟨0, 5⟩, ⟨14, 6⟩, ⟨15, 40⟩, ⟨15, 19⟩] (by decide)
  have same : some words = some [⟨"/* ä */".toList, 2⟩, ⟨"// b".toList, 3⟩] := found.symm.trans (by decide)
  cases same
  exact ⟨kept, (isKept kept).mpr rfl, areRead⟩

end Comment

end AnnotationCheck
