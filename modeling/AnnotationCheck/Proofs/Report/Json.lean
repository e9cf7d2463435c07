import AnnotationCheck.Proofs.Text.Runs
import AnnotationCheck.Report.Json.Reader
import Mathlib.Data.List.Basic
import Mathlib.Tactic.SplitIfs

/-!
Reading the text of a JSON value gives the value back.

* `unquote?_flatMap_escape`, `number?_toDigits` — strings and numbers are read up to what follows them.
* `valueAt?_prettyAt` — so is every value, at any depth; the items of lists and the fields of records are read one
  behind the other (`itemsAt?_prettyItems`, `fieldsAt?_prettyFields`).
* **`parse?_pretty`** — the text of a value is read as that value.
-/

namespace AnnotationCheck.Json

open Text (Stops takeWhile_run dropWhile_run)

/-! ### Strings -/

theorem charOf?_toNat (c : Char) : Text.charOf? c.toNat = some c := by
  have valid : c.toNat.isValidChar := c.valid
  rw [Text.charOf?, if_pos valid, Char.ofNat_toNat]

section Characters

variable {c : Char} {text : Text}

/-- A character behind a backslash is read by the table. -/
theorem unquote?_mark {mark : Char} (meaning : escapes.lookup mark = some c) :
    unquote? ('\\' :: mark :: text) = (unquote? text).map fun (read, behind) => (c :: read, behind) := by
  have other : mark ≠ 'u' := by
    rintro rfl
    cases meaning
  rw [unquote?, if_neg (by decide), if_pos rfl, meaning]
  · cases unquote? text <;> rfl
  · exact fun _ _ _ _ _ same _ => other same

/-- A control character is read from its number. -/
theorem unquote?_point (small : c.toNat < 32) :
    unquote? ("\\u00".toList ++ Text.hexDigits c.toNat ++ text)
      = (unquote? text).map fun (read, behind) => (c :: read, behind) := by
  have number : Text.hexNumber? ('0' :: '0' :: Text.hexDigits c.toNat) = some c.toNat :=
    Text.hexNumber?_hexDigits (by omega)
  have spelled : "\\u00".toList ++ Text.hexDigits c.toNat ++ text
      = '\\' :: 'u' :: '0' :: '0' :: Nat.digitChar (c.toNat / 16) :: Nat.digitChar (c.toNat % 16) :: text := rfl
  rw [Text.hexDigits] at number
  rw [spelled, unquote?, if_neg (by decide), if_pos rfl]
  simp only [number, charOf?_toNat, Option.bind_eq_bind, Option.bind_some]
  cases unquote? text <;> rfl

/-- A character that needs no escape is read as it is. -/
theorem unquote?_plain (notQuote : c ≠ '"') (notBackslash : c ≠ '\\') (large : ¬ c.toNat < 32) :
    unquote? (c :: text) = (unquote? text).map fun (read, behind) => (c :: read, behind) := by
  rw [unquote?.eq_def]
  simp only [if_neg notQuote, if_neg notBackslash, if_neg large]

end Characters

/-- Every character is read from its escaped form. -/
theorem unquote?_escape (c : Char) (text : Text) :
    unquote? (escape c ++ text) = (unquote? text).map fun (read, behind) => (c :: read, behind) := by
  unfold escape
  split_ifs with quote backslash lineFeed return' tab backspace formFeed small
  · exact unquote?_mark (by rw [quote]; rfl)
  · exact unquote?_mark (by rw [backslash]; rfl)
  · exact unquote?_mark (by rw [lineFeed]; rfl)
  · exact unquote?_mark (by rw [return']; rfl)
  · exact unquote?_mark (by rw [tab]; rfl)
  · exact unquote?_mark (by rw [backspace]; rfl)
  · exact unquote?_mark (by rw [formFeed]; rfl)
  · exact unquote?_point small
  · exact unquote?_plain quote backslash small

/-- **A string is read from its quoted form**, up to the quote that closes it. -/
theorem unquote?_flatMap_escape (text rest : Text) :
    unquote? (text.flatMap escape ++ '"' :: rest) = some (text, rest) := by
  induction text with
  | nil =>
    unfold unquote?
    rfl
  | cons c text ih => rw [List.flatMap_cons, List.append_assoc, unquote?_escape, ih]; rfl

/-! ### Numbers -/

theorem numberOf_eq (high : Nat) (digits : Text) : numberOf high digits = Nat.ofDigitChars 10 digits high := by
  induction digits generalizing high with
  | nil => rfl
  | cons c rest ih => exact (ih _).trans Nat.ofDigitChars_cons.symm

/-- Only zero is written with a zero in front. -/
theorem toDigits_of_head? {number : Nat} (zero : (Nat.toDigits 10 number).head? = some '0') :
    Nat.toDigits 10 number = ['0'] := by
  induction number using Nat.strongRecOn with
  | ind number ih =>
    by_cases single : number < 10
    · rw [Nat.toDigits_of_lt_base single] at zero ⊢
      rw [Option.some.inj zero]
    · -- what stands before the last digit would be a zero
      have front := ih (number / 10) (by omega)
      rw [Nat.toDigits_of_base_le (by decide) (by omega), List.head?_append_of_ne_nil _ Nat.toDigits_ne_nil] at zero
      have isZero := congrArg (Nat.ofDigitChars 10 · 0) (front zero)
      simp only [Nat.ofDigitChars_ten_toDigits] at isZero
      have : number / 10 = 0 := isZero
      omega

theorem number?_toDigits (number : Nat) {rest : Text} (stops : Stops Char.isDigit rest) :
    number? (Nat.toDigits 10 number ++ rest) = some (number, rest) := by
  have digits : ∀ c ∈ Nat.toDigits 10 number, c.isDigit = true :=
    fun c there => Nat.isDigit_of_mem_toDigits (by decide) (by decide) there
  have plain : ¬ (Nat.toDigits 10 number = [] ∨
      ((Nat.toDigits 10 number).head? = some '0' ∧ Nat.toDigits 10 number ≠ ['0'])) := by
    rintro (none | ⟨zero, longer⟩)
    · exact Nat.toDigits_ne_nil none
    · exact longer (toDigits_of_head? zero)
  simp only [number?, takeWhile_run digits stops, dropWhile_run digits stops, if_neg plain, numberOf_eq,
    Nat.ofDigitChars_ten_toDigits]

/-! ### Blanks -/

theorem isBlank_of_mem_newLine {depth : Nat} : ∀ c ∈ newLine depth, isBlank c = true := by
  intro c there
  rcases List.mem_cons.mp there with rfl | blank
  · rfl
  · rw [List.eq_of_mem_replicate blank]
    rfl

theorem skipBlanks_newLine (depth : Nat) (text : Text) : skipBlanks (newLine depth ++ text) = skipBlanks text :=
  List.dropWhile_append_of_pos isBlank_of_mem_newLine

theorem skipBlanks_cons {c : Char} (solid : isBlank c = false) (text : Text) :
    skipBlanks (c :: text) = c :: text := by
  simp [skipBlanks, solid]

theorem stops_newLine (depth : Nat) (text : Text) : Stops Char.isDigit (newLine depth ++ text) := rfl

/-- A value may stand behind blanks. -/
theorem valueAt?_blanks {blanks : Text} (blank : ∀ c ∈ blanks, isBlank c = true) (limit : Nat) (text : Text) :
    valueAt? limit (blanks ++ text) = valueAt? limit text := by
  have skipped : skipBlanks (blanks ++ text) = skipBlanks text := List.dropWhile_append_of_pos blank
  cases limit with
  | zero => rfl
  | succ limit => rw [valueAt?, valueAt?, skipped]

theorem valueAt?_newLine (limit depth : Nat) (text : Text) :
    valueAt? limit (newLine depth ++ text) = valueAt? limit text :=
  valueAt?_blanks isBlank_of_mem_newLine limit text

theorem valueAt?_blank (limit : Nat) (text : Text) : valueAt? limit (' ' :: text) = valueAt? limit text :=
  valueAt?_blanks (List.forall_mem_singleton.mpr rfl) limit text

theorem itemsAt?_newLine (limit depth : Nat) (text : Text) :
    itemsAt? limit (newLine depth ++ text) = itemsAt? limit text := by
  cases limit with
  | zero => rfl
  | succ limit => rw [itemsAt?, itemsAt?, valueAt?_newLine]

theorem fieldsAt?_newLine (limit depth : Nat) (text : Text) :
    fieldsAt? limit (newLine depth ++ text) = fieldsAt? limit text := by
  cases limit with
  | zero => rfl
  | succ limit => rw [fieldsAt?, fieldsAt?, skipBlanks_newLine]

/-! ### Single values -/

theorem isBlank_of_isDigit {c : Char} (digit : c.isDigit = true) : isBlank c = false := by
  rw [Bool.eq_false_iff]
  intro blank
  simp only [isBlank, Bool.or_eq_true, beq_iff_eq] at blank
  rcases blank with ((rfl | rfl) | rfl) | rfl <;> cases digit

/-- A number begins with a digit. -/
theorem exists_cons_toDigits (number : Nat) :
    ∃ c digits, Nat.toDigits 10 number = c :: digits ∧ c.isDigit = true := by
  obtain ⟨c, digits, written⟩ := List.exists_cons_of_ne_nil (Nat.toDigits_ne_nil : Nat.toDigits 10 number ≠ [])
  have there : c ∈ Nat.toDigits 10 number := by simp [written]
  exact ⟨c, digits, written, Nat.isDigit_of_mem_toDigits (by decide) (by decide) there⟩

theorem valueAt?_quote (limit : Nat) (text rest : Text) :
    valueAt? (limit + 1) (quote text ++ rest) = some (.string text, rest) := by
  have spelled : quote text ++ rest = '"' :: (text.flatMap escape ++ '"' :: rest) := by simp [quote]
  rw [spelled, valueAt?, skipBlanks_cons rfl]
  simp [unquote?_flatMap_escape]

theorem valueAt?_toDigits (limit number : Nat) {rest : Text} (stops : Stops Char.isDigit rest) :
    valueAt? (limit + 1) (Nat.toDigits 10 number ++ rest) = some (.number number, rest) := by
  have read := number?_toDigits number stops
  obtain ⟨c, digits, written, digit⟩ := exists_cons_toDigits number
  rw [written, List.cons_append] at read ⊢
  rw [valueAt?, skipBlanks_cons (isBlank_of_isDigit digit)]
  split
  · rename_i same
    cases same
    cases digit
  · rename_i same
    cases same
    cases digit
  · rename_i same
    cases same
    cases digit
  · rw [read]
    rfl

/-! ### Parts of lists and records -/

/-- The written parts of a list or record, with a comma and a new line between them. -/
def listed (depth : Nat) (parts : List Text) : Text := (',' :: newLine (depth + 1)).intercalate parts

theorem listed_singleton (depth : Nat) (part : Text) : listed depth [part] = part := List.intercalate_singleton

theorem listed_cons_cons (depth : Nat) (part next : Text) (more : List Text) :
    listed depth (part :: next :: more) = part ++ ',' :: (newLine (depth + 1) ++ listed depth (next :: more)) := by
  rw [listed, List.intercalate_cons_cons, List.append_assoc]
  rfl

/-- What is written begins with the first part. -/
theorem exists_append_listed (depth : Nat) (part : Text) (more : List Text) :
    ∃ behind, listed depth (part :: more) = part ++ behind := by
  cases more with
  | nil => exact ⟨[], by rw [listed_singleton, List.append_nil]⟩
  | cons next more => exact ⟨_, listed_cons_cons depth part next more⟩

theorem enclose_cons (opening closing : Char) (depth : Nat) (part : Text) (more : List Text) :
    enclose opening closing depth (part :: more)
      = opening :: (newLine (depth + 1) ++ (listed depth (part :: more) ++ (newLine depth ++ [closing]))) := by
  simp [enclose, listed]

theorem listed_items (depth : Nat) (first next : Json) (more : List Json) :
    listed depth (prettyItems depth (first :: next :: more))
      = prettyAt (depth + 1) first
        ++ ',' :: (newLine (depth + 1) ++ listed depth (prettyItems depth (next :: more))) := by
  rw [prettyItems, prettyItems, listed_cons_cons]

theorem listed_fields (depth : Nat) (name : Text) (value : Json) (next : Text × Json)
    (more : List (Text × Json)) :
    listed depth (prettyFields depth ((name, value) :: next :: more))
      = quote name ++ ": ".toList ++ prettyAt (depth + 1) value
        ++ ',' :: (newLine (depth + 1) ++ listed depth (prettyFields depth (next :: more))) := by
  rw [prettyFields, prettyFields, listed_cons_cons]

theorem prettyAt_list (depth : Nat) (first : Json) (more : List Json) :
    prettyAt depth (.list (first :: more))
      = '[' :: (newLine (depth + 1)
          ++ (listed depth (prettyItems depth (first :: more)) ++ (newLine depth ++ [']']))) := by
  rw [prettyAt, prettyItems, enclose_cons]

theorem prettyAt_record (depth : Nat) (first : Text × Json) (more : List (Text × Json)) :
    prettyAt depth (.record (first :: more))
      = '\x7b' :: (newLine (depth + 1)
        ++ (listed depth (prettyFields depth (first :: more)) ++ (newLine depth ++ ['\x7d']))) := by
  rw [prettyAt, prettyFields, enclose_cons]

/-- The brackets and line breaks of a list come on top of its items. -/
theorem length_list (depth : Nat) (first : Json) (more : List Json) :
    (listed depth (prettyItems depth (first :: more))).length + 4
      ≤ (prettyAt depth (.list (first :: more))).length := by
  rw [prettyAt_list]
  simp only [List.length_cons, List.length_append, newLine]
  omega

/-- The braces and line breaks of a record come on top of its fields. -/
theorem length_record (depth : Nat) (first : Text × Json) (more : List (Text × Json)) :
    (listed depth (prettyFields depth (first :: more))).length + 4
      ≤ (prettyAt depth (.record (first :: more))).length := by
  rw [prettyAt_record]
  simp only [List.length_cons, List.length_append, newLine]
  omega

section Parts

variable {limit depth : Nat} {text more behind name : Text} {value : Json} {values : List Json}
  {fields : List (Text × Json)}

/-- The last item of a list. -/
theorem itemsAt?_last (read : valueAt? limit text = some (value, newLine depth ++ ']' :: behind)) :
    itemsAt? (limit + 1) text = some ([value], behind) := by
  rw [itemsAt?, read]
  simp only [skipBlanks_newLine, skipBlanks_cons (rfl : isBlank ']' = false)]

/-- An item with others behind it. -/
theorem itemsAt?_cons (read : valueAt? limit text = some (value, ',' :: more))
    (readMore : itemsAt? limit more = some (values, behind)) :
    itemsAt? (limit + 1) text = some (value :: values, behind) := by
  rw [itemsAt?, read]
  simp only [skipBlanks_cons (rfl : isBlank ',' = false), readMore, Option.map_some]

/-- What stands before the value of a field. -/
theorem quote_append_colon (name start : Text) :
    quote name ++ ": ".toList ++ start = '"' :: (name.flatMap escape ++ '"' :: ':' :: ' ' :: start) := by
  simp [quote]

/-- The last field of a record. -/
theorem fieldsAt?_last (read : valueAt? limit text = some (value, newLine depth ++ '\x7d' :: behind)) :
    fieldsAt? (limit + 1) (quote name ++ ": ".toList ++ text) = some ([(name, value)], behind) := by
  rw [quote_append_colon, fieldsAt?, skipBlanks_cons rfl]
  simp only [unquote?_flatMap_escape, skipBlanks_cons (rfl : isBlank ':' = false), valueAt?_blank, read,
    skipBlanks_newLine, skipBlanks_cons (rfl : isBlank '\x7d' = false)]

/-- A field with others behind it. -/
theorem fieldsAt?_cons (read : valueAt? limit text = some (value, ',' :: more))
    (readMore : fieldsAt? limit more = some (fields, behind)) :
    fieldsAt? (limit + 1) (quote name ++ ": ".toList ++ text) = some ((name, value) :: fields, behind) := by
  rw [quote_append_colon, fieldsAt?, skipBlanks_cons rfl]
  simp only [unquote?_flatMap_escape, skipBlanks_cons (rfl : isBlank ':' = false), valueAt?_blank, read,
    skipBlanks_cons (rfl : isBlank ',' = false), readMore, Option.map_some]

end Parts

/-! ### Values at any depth -/

/-- A value begins with a character that is no blank and closes no list. -/
theorem exists_cons_prettyAt (depth : Nat) (value : Json) :
    ∃ c text, prettyAt depth value = c :: text ∧ isBlank c = false ∧ c ≠ ']' := by
  cases value with
  | string text => exact ⟨_, _, rfl, rfl, by decide⟩
  | number value =>
    obtain ⟨c, digits, written, digit⟩ := exists_cons_toDigits value
    refine ⟨c, digits, written, isBlank_of_isDigit digit, ?_⟩
    rintro rfl
    cases digit
  | list items =>
    cases items with
    | nil => exact ⟨_, _, rfl, rfl, by decide⟩
    | cons first more => exact ⟨_, _, rfl, rfl, by decide⟩
  | record fields =>
    cases fields with
    | nil => exact ⟨_, _, rfl, rfl, by decide⟩
    | cons first more => exact ⟨_, _, rfl, rfl, by decide⟩

/-- A list is read as its items are. -/
theorem valueAt?_list {limit depth : Nat} {first : Json} {more : List Json} {rest : Text}
    (read : itemsAt? limit (listed depth (prettyItems depth (first :: more)) ++ (newLine depth ++ ']' :: rest))
      = some (first :: more, rest)) :
    valueAt? (limit + 1) (prettyAt depth (.list (first :: more)) ++ rest) = some (.list (first :: more), rest) := by
  obtain ⟨c, text, written, solid, other⟩ := exists_cons_prettyAt (depth + 1) first
  obtain ⟨behind, begins⟩ := exists_append_listed depth (prettyAt (depth + 1) first) (prettyItems depth more)
  rw [← prettyItems, written, List.cons_append] at begins
  have spelled : prettyAt depth (.list (first :: more)) ++ rest
      = '[' :: (newLine (depth + 1)
        ++ (listed depth (prettyItems depth (first :: more)) ++ (newLine depth ++ ']' :: rest))) := by
    rw [prettyAt_list]
    simp
  rw [spelled, valueAt?, skipBlanks_cons rfl]
  simp only [skipBlanks_newLine]
  rw [begins, List.cons_append] at read ⊢
  rw [skipBlanks_cons solid]
  split
  · rename_i same
    exact absurd (List.cons.inj same).1 other
  · rw [read]
    rfl

/-- A record is read as its fields are. -/
theorem valueAt?_record {limit depth : Nat} {first : Text × Json} {more : List (Text × Json)} {rest : Text}
    (read : fieldsAt? limit (listed depth (prettyFields depth (first :: more)) ++ (newLine depth ++ '\x7d' :: rest))
      = some (first :: more, rest)) :
    valueAt? (limit + 1) (prettyAt depth (.record (first :: more)) ++ rest)
      = some (.record (first :: more), rest) := by
  obtain ⟨behind, begins⟩ := exists_append_listed depth
    (quote first.1 ++ ": ".toList ++ prettyAt (depth + 1) first.2) (prettyFields depth more)
  rw [← prettyFields, quote, List.cons_append, List.cons_append, List.cons_append, List.cons_append] at begins
  have spelled : prettyAt depth (.record (first :: more)) ++ rest
      = '\x7b' :: (newLine (depth + 1)
        ++ (listed depth (prettyFields depth (first :: more)) ++ (newLine depth ++ '\x7d' :: rest))) := by
    rw [prettyAt_record]
    simp
  rw [spelled, valueAt?, skipBlanks_cons rfl]
  simp only [skipBlanks_newLine]
  rw [begins, List.cons_append] at read ⊢
  rw [skipBlanks_cons rfl]
  split
  · rename_i same
    cases same
  · rw [read]
    rfl

mutual

/-- **A value is read where it stands**, at any depth, up to what follows it. -/
theorem valueAt?_prettyAt (depth : Nat) (value : Json) {limit : Nat} {rest : Text}
    (enough : (prettyAt depth value).length < limit) (stops : Stops Char.isDigit rest) :
    valueAt? limit (prettyAt depth value ++ rest) = some (value, rest) := by
  obtain ⟨limit, rfl⟩ : ∃ less, limit = less + 1 := ⟨limit - 1, by omega⟩
  cases value with
  | string text => exact valueAt?_quote limit text rest
  | number value => exact valueAt?_toDigits limit value stops
  | list items =>
    cases items with
    | nil => rfl
    | cons first more =>
      refine valueAt?_list (itemsAt?_prettyItems depth first more ?_)
      have longer := length_list depth first more
      omega
  | record fields =>
    cases fields with
    | nil => rfl
    | cons first more =>
      refine valueAt?_record (fieldsAt?_prettyFields depth first more ?_)
      have longer := length_record depth first more
      omega
termination_by limit

/-- The items of a list are read up to its closing bracket. -/
theorem itemsAt?_prettyItems (depth : Nat) (first : Json) (more : List Json) {limit : Nat} {rest : Text}
    (enough : (listed depth (prettyItems depth (first :: more))).length + 1 < limit) :
    itemsAt? limit (listed depth (prettyItems depth (first :: more)) ++ (newLine depth ++ ']' :: rest))
      = some (first :: more, rest) := by
  obtain ⟨limit, rfl⟩ : ∃ less, limit = less + 1 := ⟨limit - 1, by omega⟩
  cases more with
  | nil =>
    rw [prettyItems, prettyItems, listed_singleton] at enough ⊢
    exact itemsAt?_last (valueAt?_prettyAt (depth + 1) first (by omega) (stops_newLine depth _))
  | cons next more =>
    have cut := listed_items depth first next more
    rw [cut] at enough ⊢
    simp only [List.length_append, List.length_cons] at enough
    rw [List.append_assoc, List.cons_append, List.append_assoc]
    refine itemsAt?_cons (valueAt?_prettyAt (depth + 1) first (by omega) rfl) ?_
    rw [itemsAt?_newLine]
    exact itemsAt?_prettyItems depth next more (by omega)
termination_by limit

/-- The fields of a record are read up to its closing brace. -/
theorem fieldsAt?_prettyFields (depth : Nat) (first : Text × Json) (more : List (Text × Json)) {limit : Nat}
    {rest : Text} (enough : (listed depth (prettyFields depth (first :: more))).length + 1 < limit) :
    fieldsAt? limit (listed depth (prettyFields depth (first :: more)) ++ (newLine depth ++ '\x7d' :: rest))
      = some (first :: more, rest) := by
  obtain ⟨limit, rfl⟩ : ∃ less, limit = less + 1 := ⟨limit - 1, by omega⟩
  obtain ⟨name, value⟩ := first
  cases more with
  | nil =>
    rw [prettyFields, prettyFields, listed_singleton] at enough ⊢
    simp only [List.length_append] at enough
    rw [List.append_assoc]
    exact fieldsAt?_last (valueAt?_prettyAt (depth + 1) value (by omega) (stops_newLine depth _))
  | cons next more =>
    have cut := listed_fields depth name value next more
    rw [cut] at enough ⊢
    simp only [List.length_append, List.length_cons] at enough
    rw [List.append_assoc, List.append_assoc, List.cons_append, List.append_assoc (newLine (depth + 1))]
    refine fieldsAt?_cons (valueAt?_prettyAt (depth + 1) value (by omega) rfl) ?_
    rw [fieldsAt?_newLine]
    exact fieldsAt?_prettyFields depth next more (by omega)
termination_by limit

end

/-- **The text of a value is read as that value.** -/
theorem parse?_pretty (value : Json) : parse? value.pretty = some value := by
  have read : valueAt? (2 * value.pretty.length + 2) (value.pretty ++ []) = some (value, []) :=
    valueAt?_prettyAt 0 value (by rw [pretty]; omega) rfl
  rw [List.append_nil] at read
  rw [parse?, read]
  rfl

example : (list [.string "\\A\"\x01".toList, .number 10]).pretty
    = "[\n  \"\\\\A\\\"\\u0001\",\n  10\n]".toList := by decide +kernel

/-- Two values have different texts. -/
theorem pretty_injective : Function.Injective pretty := by
  intro left right same
  have read := parse?_pretty left
  rw [same, parse?_pretty] at read
  exact (Option.some.inj read).symm

end AnnotationCheck.Json
