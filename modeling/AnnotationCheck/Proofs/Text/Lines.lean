import AnnotationCheck.Text.Basic

/-!
Texts that are put together line by line, and templates.

* **`fields_flatMap_ended`** — lines that are ended one by one are cut into themselves.
* **`replace_append_append`** — a mark that stands at one place of a template is replaced there.
-/

namespace AnnotationCheck.Text

/-! ### Lines -/

/-- Lines with an end behind each of them are cut into themselves, with nothing behind the last end. -/
theorem fields_flatMap_ended {separator : Char} {lines : List Text} (unbroken : ∀ line ∈ lines, separator ∉ line) :
    fields separator (lines.flatMap (· ++ [separator])) = lines ++ [[]] := by
  induction lines with
  | nil => rfl
  | cons line rest ih =>
    obtain ⟨clear, unbroken⟩ := List.forall_mem_cons.mp unbroken
    rw [List.flatMap_cons, List.append_assoc, List.singleton_append, fields_append_cons clear, ih unbroken,
      List.cons_append]

/-! ### Marks in a template -/

section Replace

variable (replacement : Text) {first : Char} (more : Text)

theorem replaceFrom_length (pattern front behind : Text) :
    replaceFrom pattern replacement front.length (front ++ behind) = replaceFrom pattern replacement 0 behind := by
  induction front with
  | nil => rfl
  | cons c rest ih => rw [List.length_cons, List.cons_append, replaceFrom, ih]

/-- Nothing is replaced before the first character of the pattern. -/
theorem replaceFrom_append {front : Text} (clear : first ∉ front) (behind : Text) :
    replaceFrom (first :: more) replacement 0 (front ++ behind)
      = front ++ replaceFrom (first :: more) replacement 0 behind := by
  induction front with
  | nil => rfl
  | cons c rest ih =>
    simp only [List.mem_cons, not_or] at clear
    have other : (first :: more).isPrefixOf (c :: (rest ++ behind)) = false := by simp [List.isPrefixOf, clear.1]
    rw [List.cons_append, replaceFrom, other, ih clear.2]
    rfl

/-- A pattern whose first character stands nowhere else is replaced at the one place where it stands, and what is
put there is not searched for it. -/
theorem replace_append_append {front behind : Text} (clear : first ∉ front) (clearBehind : first ∉ behind) :
    replace (first :: more) replacement (front ++ (first :: more) ++ behind) = front ++ replacement ++ behind := by
  have here : (first :: more).isPrefixOf (first :: (more ++ behind)) = true :=
    List.isPrefixOf_iff_prefix.mpr (List.prefix_append (first :: more) behind)
  have stays : replaceFrom (first :: more) replacement 0 behind = behind := by
    simpa [replaceFrom] using replaceFrom_append replacement more clearBehind []
  rw [replace, List.append_assoc, replaceFrom_append replacement more clear, List.cons_append, replaceFrom,
    if_pos here, List.length_cons, Nat.add_sub_cancel, replaceFrom_length, stays, List.append_assoc]

end Replace

end AnnotationCheck.Text
