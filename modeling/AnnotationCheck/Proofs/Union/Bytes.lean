import AnnotationCheck.Proofs.Text.Bytes
import AnnotationCheck.Proofs.Union.Tail
import AnnotationCheck.Union.Bytes

/-!
The scan of a union over the bytes of a text.

* `nameEnd?_bytes`, `marksEnd?_of_marked`, `joinsAt_bar_cons` — what each of the three loops sees of the text
  that stands at its place.
* `tailEnd?_bytes` — inside of a name or behind one, the loops take as many bytes as the scan over
  characters takes characters.
* **`lengthOfBytes?_eq_longest`** — the scan of any text ends, looks at no byte that is not there, and ends
  between two characters, behind the longest union at the beginning of the text.
-/

namespace AnnotationCheck.Union

open Text (bytes)

theorem isAscii_isAlphanum : Text.IsAscii Char.isAlphanum := by
  intro c isAlphanum
  show c.val.toNat ≤ 127
  rcases (Bool.or_eq_true _ _).mp isAlphanum with isAlpha | isDigit
  · rcases (Bool.or_eq_true _ _).mp isAlpha with isUpper | isLower
    · exact Nat.le_trans (of_decide_eq_true isUpper).2 (by decide)
    · exact Nat.le_trans (of_decide_eq_true ((Bool.and_eq_true _ _).mp isLower).2) (by decide)
  · exact Nat.le_trans (of_decide_eq_true ((Bool.and_eq_true _ _).mp isDigit).2) (by decide)

theorem isAscii_isNameChar : Text.IsAscii isNameChar := by
  intro c isChar
  simp only [isNameChar, separator, Text.isWord, Bool.or_eq_true, beq_iff_eq] at isChar
  rcases isChar with (isAlphanum | rfl) | rfl
  · exact isAscii_isAlphanum c isAlphanum
  · decide
  · decide

/-! ### The loops -/

variable (before : List UInt8)

/-- The loop over a name takes the name characters that stand at its place. -/
theorem nameEnd?_bytes (text : Text) :
    nameEnd? (before ++ bytes text) before.length
      = some (before.length + (text.takeWhile isNameChar).length) := by
  induction text generalizing before with
  | nil => rw [nameEnd?, dif_neg (by simp [bytes])]; rfl
  | cons c rest ih =>
    obtain ⟨byte, more, begins, sameClass, behind⟩ := Text.exists_bytes_cons isAscii_isNameChar c rest
    have inside : before.length < (before ++ byte :: more).length := by simp
    have here : (before ++ byte :: more)[before.length]? = some byte := by simp
    rw [nameEnd?, begins, dif_pos inside, here, Option.bind_eq_bind, Option.bind_some, isNameByte, sameClass,
      List.takeWhile_cons]
    split
    · rename_i isChar
      have onwards := ih (before ++ [byte])
      rw [List.append_assoc, List.singleton_append, List.length_append, List.length_singleton] at onwards
      rw [behind isChar, onwards, List.length_cons]
      congr 1
      omega
    · rfl

theorem nameEnd?_of_not_name {text : Text} (stops : text.head?.any isNameChar = false) :
    nameEnd? (before ++ bytes text) before.length = some before.length := by
  rw [nameEnd?_bytes]
  cases text with
  | nil => rfl
  | cons c rest =>
    have outside : isNameChar c = false := by simpa using stops
    rw [List.takeWhile_cons_of_neg (by simp [outside])]
    rfl

theorem bytesFrom?_append (later : List UInt8) : bytesFrom? (before ++ later) before.length = some later := by
  rw [bytesFrom?, if_pos (by rw [List.length_append]; exact Nat.le_add_right _ _), List.drop_left]

/-- The loop over `[]` goes on as long as there is one. -/
theorem marksEnd?_of_marked (rest : Text) :
    marksEnd? (before ++ bytes ('[' :: ']' :: rest)) before.length
      = marksEnd? (before ++ markBytes ++ bytes rest) (before ++ markBytes).length := by
  have cut : bytes ('[' :: ']' :: rest) = markBytes ++ bytes rest := rfl
  have marked : markBytes.isPrefixOf (markBytes ++ bytes rest) = true :=
    List.isPrefixOf_iff_prefix.mpr (List.prefix_append _ _)
  rw [marksEnd?_eq_bind, cut, bytesFrom?_append, Option.bind_some, if_pos marked,
    List.append_assoc, List.length_append]
  rfl

theorem marksEnd?_of_not_marked {text : Text} (plain : ¬ ['[', ']'] <+: text) :
    marksEnd? (before ++ bytes text) before.length = some before.length := by
  have ascii : ∀ c ∈ ['[', ']'], c.toNat ≤ 127 := by simp
  have noMark : markBytes.isPrefixOf (bytes text) = false := by
    rw [markBytes, Text.isPrefixOf_bytes ascii, Bool.eq_false_iff]
    exact fun found => plain (List.isPrefixOf_iff_prefix.mp found)
  rw [marksEnd?_eq_bind, bytesFrom?_append, Option.bind_some, noMark]
  rfl

theorem joinsAt_append (later : List UInt8) :
    joinsAt (before ++ later) before.length
      = (later[0]? == some barByte && later[1]?.any isNameByte) := by
  rw [joinsAt, List.getElem?_append_right (Nat.le_refl _), List.getElem?_append_right (Nat.le_add_right _ 1),
    Nat.sub_self, Nat.add_sub_cancel_left]

theorem joinsAt_bar_cons (c : Char) (rest : Text) :
    joinsAt (before ++ bytes ('|' :: c :: rest)) before.length = isNameChar c := by
  obtain ⟨byte, more, begins, sameClass, _⟩ := Text.exists_bytes_cons isAscii_isNameChar c rest
  have cut : bytes ('|' :: c :: rest) = barByte :: byte :: more := by
    rw [← begins]
    rfl
  rw [joinsAt_append, cut]
  exact (Bool.and_eq_right_iff_imp.mpr fun _ => beq_self_eq_true _).trans sameClass

theorem joinsAt_bar : joinsAt (before ++ bytes ['|']) before.length = false := by
  rw [joinsAt_append]
  rfl

theorem joinsAt_of_head_ne {text : Text} (plain : text.head? ≠ some '|') :
    joinsAt (before ++ bytes text) before.length = false := by
  rw [joinsAt_append, Bool.and_eq_false_iff]
  refine Or.inl (beq_eq_false_iff_ne.mpr fun found => ?_)
  cases text with
  | nil => cases found
  | cons c rest =>
    have isAscii : Text.IsAscii ('|' == ·) := Text.isAscii_eq (by decide)
    obtain ⟨byte, more, begins, sameClass, _⟩ := Text.exists_bytes_cons isAscii c rest
    rw [begins, List.getElem?_cons_zero, Option.some.injEq] at found
    rw [found] at sameClass
    exact plain (congrArg some (eq_of_beq sameClass.symm).symm)

/-! ### The scan -/

/-- The scan behind a name. -/
def behindName? (bytes : List UInt8) (place : Nat) : Option Nat :=
  (marksEnd? bytes place).bind fun stop =>
    if joinsAt bytes stop then unionEnd? bytes (stop + 1) else some stop

/-- The scan inside of a name, or behind one. -/
def tailEnd? (inName : Bool) (bytes : List UInt8) (place : Nat) : Option Nat :=
  if inName then (nameEnd? bytes place).bind (behindName? bytes) else behindName? bytes place

theorem unionEnd?_of_not_name {text : Text} (stops : text.head?.any isNameChar = false) :
    unionEnd? (before ++ bytes text) before.length = some 0 := by
  rw [unionEnd?_eq_bind, nameEnd?_of_not_name before stops, Option.bind_some, if_pos rfl]

/-- Inside of a name the scan goes on behind the next character of it. -/
theorem exists_tailEnd?_cons {c : Char} (isChar : isNameChar c = true) (rest : Text) :
    ∃ byte, tailEnd? true (before ++ bytes (c :: rest)) before.length
      = tailEnd? true (before ++ [byte] ++ bytes rest) (before ++ [byte]).length := by
  obtain ⟨byte, more, begins, _, behind⟩ := Text.exists_bytes_cons isAscii_isNameChar c rest
  have cut : before ++ bytes (c :: rest) = before ++ [byte] ++ bytes rest := by
    rw [begins, behind isChar, List.append_assoc, List.singleton_append]
  have sameEnd : nameEnd? (before ++ bytes (c :: rest)) before.length
      = nameEnd? (before ++ [byte] ++ bytes rest) (before ++ [byte]).length := by
    rw [nameEnd?_bytes, nameEnd?_bytes, List.takeWhile_cons_of_pos isChar, List.length_cons, List.length_append,
      List.length_singleton, Nat.add_assoc, Nat.add_comm 1]
  exact ⟨byte, by rw [tailEnd?, tailEnd?, if_pos rfl, if_pos rfl, sameEnd, cut]⟩

theorem tailEnd?_of_not_name (inName : Bool) {text : Text} (stops : text.head?.any isNameChar = false) :
    tailEnd? inName (before ++ bytes text) before.length = behindName? (before ++ bytes text) before.length := by
  cases inName with
  | false => rfl
  | true => rw [tailEnd?, if_pos rfl, nameEnd?_of_not_name before stops, Option.bind_some]

/-- The scan of a union is inside of a name behind its first character. -/
theorem unionEnd?_of_name {c : Char} (isChar : isNameChar c = true) (rest : Text) :
    unionEnd? (before ++ bytes (c :: rest)) before.length
      = tailEnd? true (before ++ bytes (c :: rest)) before.length := by
  have ends := nameEnd?_bytes before (c :: rest)
  rw [List.takeWhile_cons_of_pos isChar, List.length_cons] at ends
  rw [unionEnd?_eq_bind, tailEnd?, if_pos rfl, ends, Option.bind_some, Option.bind_some, if_neg (by omega)]
  rfl

/-- The scan ends where there is neither a `[]` nor a `|` with a name behind it. -/
theorem behindName?_of_stops {text : Text} (plain : ¬ ['[', ']'] <+: text)
    (last : joinsAt (before ++ bytes text) before.length = false) :
    behindName? (before ++ bytes text) before.length = some before.length := by
  rw [behindName?, marksEnd?_of_not_marked before plain, Option.bind_some, last]
  rfl

/-- **The loops take from a text what belongs to the tail of a union.** -/
theorem tailEnd?_bytes (inName : Bool) (text : Text) :
    tailEnd? inName (before ++ bytes text) before.length = some (before.length + tailLength inName text) := by
  -- by the cases of the scan over characters; in all but the fourth one no name goes on
  fun_induction tailLength inName text generalizing before with
  | case1 inName rest ih =>
    have cut : before ++ bytes ('[' :: ']' :: rest) = before ++ markBytes ++ bytes rest :=
      (List.append_assoc before markBytes (bytes rest)).symm
    have onwards := ih (before ++ markBytes)
    rw [tailEnd?, if_neg Bool.false_ne_true] at onwards
    rw [tailEnd?_of_not_name _ inName rfl, behindName?, marksEnd?_of_marked, cut]
    refine onwards.trans (congrArg some ?_)
    rw [List.length_append, Nat.add_assoc, Nat.add_comm (tailLength false rest)]
    rfl
  | case2 inName c rest isChar ih =>
    -- behind the `|` a name begins with `c`, and the scan goes on inside of it
    have bar : before ++ bytes ('|' :: c :: rest) = before ++ [barByte] ++ bytes (c :: rest) :=
      (List.append_assoc before [barByte] (bytes (c :: rest))).symm
    obtain ⟨byte, goesOn⟩ := exists_tailEnd?_cons (before ++ [barByte]) isChar rest
    have inNext := unionEnd?_of_name (before ++ [barByte]) isChar rest
    rw [goesOn, ih] at inNext
    simp only [List.length_append, List.length_singleton] at inNext
    rw [tailEnd?_of_not_name before inName rfl, behindName?, marksEnd?_of_not_marked before (by simp),
      Option.bind_some, joinsAt_bar_cons, if_pos isChar, bar, inNext]
    congr 1
    omega
  | case3 inName c rest isChar =>
    rw [tailEnd?_of_not_name before inName rfl]
    refine behindName?_of_stops before (by simp) ?_
    rw [joinsAt_bar_cons]
    exact Bool.eq_false_iff.mpr isChar
  | case4 inName c rest notMarked notBar isChar ih =>
    obtain ⟨rfl, isChar⟩ := (Bool.and_eq_true _ _).mp isChar
    obtain ⟨byte, goesOn⟩ := exists_tailEnd?_cons before isChar rest
    rw [goesOn, ih, List.length_append, List.length_singleton]
    congr 1
    omega
  | case5 inName c rest notMarked notBar isChar =>
    have atEnd : behindName? (before ++ bytes (c :: rest)) before.length = some before.length := by
      refine behindName?_of_stops before ?_ ?_
      · rintro ⟨more, same⟩
        cases same
        exact notMarked more rfl rfl
      · by_cases bar : c = '|'
        · subst bar
          cases rest with
          | nil => exact joinsAt_bar before
          | cons d rest => exact absurd rfl (notBar d rest rfl)
        · exact joinsAt_of_head_ne before (by simpa using bar)
    cases inName with
    | false => exact atEnd
    | true =>
      rw [Bool.true_and, Bool.not_eq_true] at isChar
      rw [tailEnd?_of_not_name before true (by simpa using isChar)]
      exact atEnd
  | case6 inName =>
    rw [tailEnd?_of_not_name before inName rfl]
    exact behindName?_of_stops before (by simp) (joinsAt_of_head_ne before (by simp))

/-- The scan of the bytes of a text ends, and with the length of the union over characters. -/
theorem lengthOfBytes?_bytes (text : Text) : lengthOfBytes? (bytes text) = some (length text) := by
  cases text with
  | nil => exact @unionEnd?_of_not_name [] [] rfl
  | cons c rest =>
    rw [length]
    split
    · rename_i isChar
      have inName := tailEnd?_bytes [] true (c :: rest)
      rw [← unionEnd?_of_name [] isChar rest, tailLength_name isChar, List.length_nil, Nat.zero_add] at inName
      exact inName
    · rename_i isChar
      exact @unionEnd?_of_not_name [] (c :: rest) (by simpa using isChar)

/-! ### The longest union -/

theorem toNat_le_of_isUnion {word : Text} (union : IsUnion word) : ∀ c ∈ word, c.toNat ≤ 127 := by
  intro c there
  have isChar := union.isUnionChar there
  simp only [isUnionChar, Bool.or_eq_true, beq_iff_eq] at isChar
  rcases isChar with ((isChar | rfl) | rfl) | rfl
  · exact isAscii_isNameChar c isChar
  · decide
  · decide
  · decide

theorem length_eq_zero_iff {text : Text} : length text = 0 ↔ ∀ word, word <+: text → ¬ IsUnion word := by
  constructor
  · rintro none word ⟨rest, rfl⟩ union
    have reach := length_le_of_isUnion union rest
    have nonempty := List.length_pos_iff.mpr union.ne_nil
    omega
  · intro none
    by_cases zero : length text = 0
    · exact zero
    · exact absurd (isUnion_take_length zero) (none _ (List.take_prefix _ _))

/-- **The scan of a text takes the longest union at its beginning.** It ends, it looks at no byte that is not
there, and it ends between two characters of the text; it takes nothing only where no union begins. -/
theorem lengthOfBytes?_eq_longest (text : Text) :
    ∃ word rest : Text, text = word ++ rest
      ∧ lengthOfBytes? (bytes text) = some (length text)
      ∧ Text.size word = length text
      ∧ (word = [] ∨ IsUnion word)
      ∧ (∀ other, other <+: text → IsUnion other → other <+: word)
      ∧ (length text = 0 ↔ ∀ other, other <+: text → ¬ IsUnion other) := by
  have whole : text = text.take (length text) ++ text.drop (length text) :=
    (List.take_append_drop (length text) text).symm
  have reach : (text.take (length text)).length = length text :=
    List.length_take_of_le (length_le text)
  have isWord : text.take (length text) = [] ∨ IsUnion (text.take (length text)) := by
    by_cases zero : length text = 0
    · exact Or.inl (by rw [zero, List.take_zero])
    · exact Or.inr (isUnion_take_length zero)
  refine ⟨_, _, whole, lengthOfBytes?_bytes text, ?_, isWord, ?_, length_eq_zero_iff⟩
  · have ascii : ∀ c ∈ text.take (length text), c.toNat ≤ 127 := by
      rcases isWord with none | union
      · rw [none]
        exact fun c there => nomatch there
      · exact toNat_le_of_isUnion union
    rw [Text.size_eq_length ascii, reach]
  · rintro other ⟨rest, rfl⟩ union
    refine List.prefix_of_prefix_length_le (List.prefix_append other rest) (List.take_prefix _ _) ?_
    rw [reach]
    exact length_le_of_isUnion union rest

/-- Neither half a `[]` nor a `|` without a name behind it belongs to a union, wherever the text goes on. -/
example : lengthOfBytes? (bytes "Foo[][|ü".toList) = some 5 ∧ lengthOfBytes? (bytes "A|B|ü".toList) = some 3 := by
  simp only [lengthOfBytes?_bytes]
  decide

end AnnotationCheck.Union
