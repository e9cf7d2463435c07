import AnnotationCheck.Union.Language

/-!
How far a union type reaches in a text.

* `IsTail inName text` — the text goes on with a union, behind a name or behind a `[]`. A text is a
  union exactly if its first character is a name's and the rest is a tail (`isUnion_cons_iff`).
* **`isUnion_take_length`**, **`length_le_of_isUnion`** — `Union.length` measures a union
  at the beginning of a text, and no longer beginning of the text is one.
* `length_append_cons` — a union ends at the first character that no union holds.
-/

namespace AnnotationCheck.Union

/-! ### The language of tails -/

/-- A text that goes on with a union, behind a name (`inName`) or behind a `[]`. -/
inductive IsTail : Bool → Text → Prop
  | done {inName : Bool} : IsTail inName []
  | more {c : Char} {rest : Text} : isNameChar c = true → IsTail true rest → IsTail true (c :: rest)
  | items {inName : Bool} {rest : Text} : IsTail false rest → IsTail inName ('[' :: ']' :: rest)
  | join {inName : Bool} {c : Char} {rest : Text} : isNameChar c = true → IsTail true rest →
      IsTail inName ('|' :: c :: rest)

/-- The texts that a tail may follow: names alone, or any members. -/
def Leads : Bool → Text → Prop
  | true, text => IsName text
  | false, text => IsMember text

theorem Leads.isMember {inName : Bool} {text : Text} (leads : Leads inName text) : IsMember text := by
  cases inName with
  | true => exact .name leads
  | false => exact leads

/-- Behind a tail there may stand any text that is a tail behind names and behind `[]`. -/
theorem IsTail.append {inName : Bool} {text rest : Text} (tail : IsTail inName text)
    (goesOn : ∀ inName, IsTail inName rest) : IsTail inName (text ++ rest) := by
  induction tail with
  | done => exact goesOn _
  | more isChar _ ih => exact .more isChar ih
  | items _ ih => exact .items ih
  | join isChar _ ih => exact .join isChar ih

theorem isTail_of_forall {text : Text} (chars : ∀ c ∈ text, isNameChar c = true) : IsTail true text := by
  induction text with
  | nil => exact .done
  | cons c rest ih =>
    exact .more (chars c List.mem_cons_self) (ih fun d there => chars d (List.mem_cons_of_mem _ there))

/-- A member is a character of a name and a tail. -/
theorem IsMember.exists_cons {text : Text} (member : IsMember text) :
    ∃ c rest, text = c :: rest ∧ isNameChar c = true ∧ IsTail true rest := by
  induction member with
  | @name text isName =>
    cases text with
    | nil => exact absurd rfl isName.1
    | cons c rest =>
      refine ⟨c, rest, rfl, isName.2 c List.mem_cons_self, isTail_of_forall fun d there => ?_⟩
      exact isName.2 d (List.mem_cons_of_mem _ there)
  | items _ ih =>
    obtain ⟨c, rest, rfl, isChar, tail⟩ := ih
    exact ⟨c, rest ++ ['[', ']'], rfl, isChar, tail.append fun _ => .items .done⟩

/-- A union is a character of a name and a tail. -/
theorem IsUnion.exists_cons {text : Text} (union : IsUnion text) :
    ∃ c rest, text = c :: rest ∧ isNameChar c = true ∧ IsTail true rest := by
  induction union with
  | single member => exact member.exists_cons
  | join member _ ih =>
    obtain ⟨c, rest, rfl, isChar, tail⟩ := member.exists_cons
    obtain ⟨d, more, rfl, isChar', tail'⟩ := ih
    exact ⟨c, rest ++ '|' :: d :: more, rfl, isChar, tail.append fun _ => .join isChar' tail'⟩

theorem IsName.append_singleton {text : Text} {c : Char} (name : IsName text)
    (isChar : isNameChar c = true) : IsName (text ++ [c]) := by
  refine ⟨by simp, fun d there => ?_⟩
  rcases List.mem_append.mp there with there | there
  · exact name.2 d there
  · rw [List.mem_singleton.mp there]
    exact isChar

theorem isName_singleton {c : Char} (isChar : isNameChar c = true) : IsName [c] :=
  ⟨by simp, by simpa using isChar⟩

/-- A tail makes a union of every text that it may follow. -/
theorem IsTail.isUnion {inName : Bool} {lead text : Text} (tail : IsTail inName text)
    (leads : Leads inName lead) : IsUnion (lead ++ text) := by
  -- the lead grows by what is read, until a `|` closes it
  induction tail generalizing lead with
  | done => simpa using IsUnion.single leads.isMember
  | @more c rest isChar _ ih =>
    simpa using ih (IsName.append_singleton leads isChar)
  | @items _ rest _ ih =>
    have member : IsMember (lead ++ ['[', ']']) := .items leads.isMember
    simpa using ih member
  | @join _ c rest isChar _ ih =>
    exact .join leads.isMember (ih (isName_singleton isChar))

/-- **A text is a union exactly if it begins with a character of a name and goes on with a tail.** -/
theorem isUnion_cons_iff {c : Char} {rest : Text} :
    IsUnion (c :: rest) ↔ isNameChar c = true ∧ IsTail true rest := by
  constructor
  · intro union
    obtain ⟨d, more, same, isChar, tail⟩ := union.exists_cons
    cases same
    exact ⟨isChar, tail⟩
  · rintro ⟨isChar, tail⟩
    have union : IsUnion ([c] ++ rest) := tail.isUnion (isName_singleton isChar)
    exact union

/-! ### The scan -/

theorem tailLength_items (inName : Bool) (rest : Text) :
    tailLength inName ('[' :: ']' :: rest) = tailLength false rest + 2 := by simp [tailLength]

theorem tailLength_join (inName : Bool) {c : Char} (isChar : isNameChar c = true) (rest : Text) :
    tailLength inName ('|' :: c :: rest) = tailLength true rest + 2 := by simp [tailLength, isChar]

theorem tailLength_name {c : Char} (isChar : isNameChar c = true) (rest : Text) :
    tailLength true (c :: rest) = tailLength true rest + 1 := by
  have notOpening : c ≠ '[' := by rintro rfl; revert isChar; decide
  have notBar : c ≠ '|' := by rintro rfl; revert isChar; decide
  rw [tailLength] <;> simp_all

/-- The characters that a tail's scan takes are a tail. -/
theorem isTail_take_tailLength (inName : Bool) (text : Text) :
    IsTail inName (text.take (tailLength inName text)) := by
  fun_induction tailLength inName text with
  | case1 inName rest ih => simpa using IsTail.items ih
  | case2 inName c rest isChar ih => simpa using IsTail.join isChar ih
  | case3 => exact .done
  | case4 inName c rest _ _ isChar ih =>
    obtain ⟨rfl, isChar⟩ := (Bool.and_eq_true _ _).mp isChar
    simpa using IsTail.more isChar ih
  | case5 => exact .done
  | case6 => exact .done

/-- A tail's scan takes every tail at the beginning of a text. -/
theorem length_le_tailLength {inName : Bool} {word : Text} (tail : IsTail inName word) (rest : Text) :
    word.length ≤ tailLength inName (word ++ rest) := by
  induction tail with
  | done => exact Nat.zero_le _
  | more isChar _ ih =>
    rw [List.cons_append, tailLength_name isChar]
    exact Nat.succ_le_succ ih
  | items _ ih =>
    rw [List.cons_append, List.cons_append, tailLength_items]
    exact Nat.add_le_add_right ih 2
  | join isChar _ ih =>
    rw [List.cons_append, List.cons_append, tailLength_join _ isChar]
    exact Nat.add_le_add_right ih 2

/-- **What the scan takes is a union.** -/
theorem isUnion_take_length {text : Text} (positive : length text ≠ 0) :
    IsUnion (text.take (length text)) := by
  cases text with
  | nil => exact absurd rfl positive
  | cons c rest =>
    simp only [length] at positive ⊢
    split
    · rename_i isChar
      rw [List.take_succ_cons]
      exact isUnion_cons_iff.mpr ⟨isChar, isTail_take_tailLength true rest⟩
    · rename_i isChar
      simp [isChar] at positive

/-- **The scan takes every union at the beginning of a text.** -/
theorem length_le_of_isUnion {word : Text} (union : IsUnion word) (rest : Text) :
    word.length ≤ length (word ++ rest) := by
  obtain ⟨c, more, rfl, isChar, tail⟩ := union.exists_cons
  simp only [List.cons_append, length, isChar, if_true, List.length_cons]
  exact Nat.succ_le_succ (length_le_tailLength tail rest)

theorem tailLength_le (inName : Bool) (text : Text) : tailLength inName text ≤ text.length := by
  fun_induction tailLength inName text <;> simp_all

/-- The scan stays within the text. -/
theorem length_le (text : Text) : length text ≤ text.length := by
  cases text with
  | nil => exact Nat.le_refl _
  | cons c rest =>
    simp only [length]
    split
    · exact Nat.succ_le_succ (tailLength_le true rest)
    · exact Nat.zero_le _

/-- A text that is a union as a whole is taken as a whole. -/
theorem length_eq_of_isUnion {text : Text} (union : IsUnion text) : length text = text.length := by
  have atLeast : text.length ≤ length (text ++ []) := length_le_of_isUnion union []
  rw [List.append_nil] at atLeast
  exact Nat.le_antisymm (length_le text) atLeast

/-! ### Where a union ends -/

/-- The characters that a union may hold. -/
def isUnionChar (c : Char) : Bool := isNameChar c || c == '[' || c == ']' || c == '|'

theorem IsTail.isUnionChar {inName : Bool} {text : Text} (tail : IsTail inName text) {c : Char}
    (there : c ∈ text) : Union.isUnionChar c = true := by
  induction tail with
  | done => cases there
  | more isChar _ ih => grind [Union.isUnionChar]
  | items _ ih => grind [Union.isUnionChar]
  | join isChar _ ih => grind [Union.isUnionChar]

theorem IsUnion.isUnionChar {text : Text} (union : IsUnion text) {c : Char} (there : c ∈ text) :
    Union.isUnionChar c = true := by
  obtain ⟨d, rest, rfl, isChar, tail⟩ := union.exists_cons
  rcases List.mem_cons.mp there with rfl | there
  · simp [Union.isUnionChar, isChar]
  · exact tail.isUnionChar there

/-- **A union ends before a character that no union holds**, whatever follows. -/
theorem length_append_cons {word : Text} (union : IsUnion word) {c : Char}
    (foreign : isUnionChar c = false) (rest : Text) : length (word ++ c :: rest) = word.length := by
  refine Nat.le_antisymm ?_ (length_le_of_isUnion union _)
  -- what the scan takes is a union; a longer one would hold `c`
  by_cases longer : length (word ++ c :: rest) ≤ word.length
  · exact longer
  · have positive : length (word ++ c :: rest) ≠ 0 := by omega
    have taken := isUnion_take_length positive
    have there : c ∈ (word ++ c :: rest).take (length (word ++ c :: rest)) := by
      rw [List.take_append, List.mem_append]
      refine Or.inr ?_
      rw [show length (word ++ c :: rest) - word.length
        = (length (word ++ c :: rest) - word.length - 1) + 1 by omega, List.take_succ_cons]
      exact List.mem_cons_self
    rw [taken.isUnionChar there] at foreign
    cases foreign

/-! ### Members -/

/-- A union has its `|`-fields for members, each at its first place. -/
theorem members_of_isUnion {text : Text} (union : IsUnion text) :
    members text = Text.distinct (Text.fields '|' text) := by
  rw [members, if_pos ⟨union.ne_nil, length_eq_of_isUnion union⟩]

end AnnotationCheck.Union
