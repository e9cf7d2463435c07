import AnnotationCheck.Text.Offset

/-!
Places in a text.

* `slice?_append`, `slice?_eq_some_iff` — the text between two places is what stands there between two other
  parts of the whole, and there is nothing else.
* `exists_between` — of two cuts of a text, the later one cuts what stands behind the earlier one.
* `bytesBetween_of_le`, `lineAt_eq` — the bytes between two places, and the line of a place, among the bytes of
  the whole text.
* **`lineAt_add`** — lines are counted on from a place to a later one.
-/

namespace AnnotationCheck.Text

/-! ### Parts -/

theorem size_pos_of_cons (c : Char) (rest : Text) : ∃ offset, size (c :: rest) = offset + 1 :=
  ⟨c.utf8Size - 1 + size rest, by have := c.utf8Size_pos; simp only [size_cons]; omega⟩

theorem dropBytes?_append (before rest : Text) : dropBytes? (size before) (before ++ rest) = some rest := by
  induction before with
  | nil => cases rest <;> rfl
  | cons c before ih =>
    obtain ⟨offset, successor⟩ := size_pos_of_cons c before
    have fits : c.utf8Size ≤ offset + 1 := by rw [← successor, size_cons]; omega
    have left : offset + 1 - c.utf8Size = size before := by rw [← successor, size_cons]; omega
    rw [successor, List.cons_append, dropBytes?, if_pos fits, left, ih]

theorem takeBytes?_append (part rest : Text) : takeBytes? (size part) (part ++ rest) = some part := by
  induction part with
  | nil => cases rest <;> rfl
  | cons c part ih =>
    obtain ⟨offset, successor⟩ := size_pos_of_cons c part
    have fits : c.utf8Size ≤ offset + 1 := by rw [← successor, size_cons]; omega
    have left : offset + 1 - c.utf8Size = size part := by rw [← successor, size_cons]; omega
    rw [successor, List.cons_append, takeBytes?, if_pos fits, left, ih]
    rfl

/-- The part of a text between two others stands where they leave off. -/
theorem slice?_append (before part rest : Text) :
    slice? (before ++ (part ++ rest)) (size before) (size before + size part) = some part := by
  rw [slice?, if_pos (Nat.le_add_right _ _), dropBytes?_append, Option.bind_some, Nat.add_sub_cancel_left,
    takeBytes?_append]

theorem exists_append_of_dropBytes? {offset : Nat} {text rest : Text} (found : dropBytes? offset text = some rest) :
    ∃ before, text = before ++ rest ∧ size before = offset := by
  induction text generalizing offset with
  | nil =>
    cases offset with
    | zero =>
      cases found
      exact ⟨[], rfl, rfl⟩
    | succ => cases found
  | cons c more ih =>
    cases offset with
    | zero =>
      cases found
      exact ⟨[], rfl, rfl⟩
    | succ offset =>
      rw [dropBytes?] at found
      split at found
      · obtain ⟨before, rfl, size⟩ := ih found
        exact ⟨c :: before, rfl, by rw [size_cons, size]; omega⟩
      · cases found

theorem exists_append_of_takeBytes? {offset : Nat} {text part : Text} (found : takeBytes? offset text = some part) :
    ∃ rest, text = part ++ rest ∧ size part = offset := by
  induction text generalizing offset part with
  | nil =>
    cases offset with
    | zero =>
      cases found
      exact ⟨[], rfl, rfl⟩
    | succ => cases found
  | cons c more ih =>
    cases offset with
    | zero =>
      cases found
      exact ⟨c :: more, rfl, rfl⟩
    | succ offset =>
      rw [takeBytes?] at found
      split at found
      · obtain ⟨part, taken, rfl⟩ := Option.map_eq_some_iff.mp found
        obtain ⟨rest, rfl, size⟩ := ih taken
        exact ⟨rest, rfl, by rw [size_cons, size]; omega⟩
      · cases found

/-- The text between two places is the part of the whole that begins at the one and ends at the other. -/
theorem slice?_eq_some_iff {text part : Text} {start stop : Nat} :
    slice? text start stop = some part ↔
      ∃ before rest, text = before ++ (part ++ rest) ∧ size before = start ∧ size before + size part = stop := by
  constructor
  · intro found
    unfold slice? at found
    split at found
    · rename_i inOrder
      obtain ⟨behind, dropped, taken⟩ := Option.bind_eq_some_iff.mp found
      obtain ⟨before, rfl, starts⟩ := exists_append_of_dropBytes? dropped
      obtain ⟨rest, rfl, ends⟩ := exists_append_of_takeBytes? taken
      exact ⟨before, rest, rfl, starts, by omega⟩
    · cases found
  · rintro ⟨before, rest, rfl, rfl, rfl⟩
    exact slice?_append before part rest

theorem eq_nil_of_size {text : Text} (none : size text = 0) : text = [] := by
  cases text with
  | nil => rfl
  | cons c rest =>
    obtain ⟨offset, successor⟩ := size_pos_of_cons c rest
    omega

/-- Of two cuts of one text, the later one cuts what stands behind the earlier one. -/
theorem exists_between {seen remaining before more : Text} (same : seen ++ remaining = before ++ more)
    (inOrder : size seen ≤ size before) : ∃ between, before = seen ++ between ∧ remaining = between ++ more := by
  rcases List.append_eq_append_iff.mp same with found | ⟨back, rfl, rfl⟩
  · exact found
  · have none : back = [] := by
      rw [size_append] at inOrder
      exact eq_nil_of_size (by omega)
    exact ⟨[], by simp [none], by simp [none]⟩

/-! ### Lines -/

theorem bytesBetween_of_le {text : Text} {start stop : Nat} (inOrder : start ≤ stop) (inText : stop ≤ size text) :
    bytesBetween text start stop = ((bytes text).drop start).take (stop - start) := by
  rw [bytesBetween, if_pos ⟨inOrder, inText⟩, bytesBehind_eq]

/-- The line of a place is one more than the number of line feeds ahead of it. -/
theorem lineAt_eq (text : Text) (offset : Nat) :
    lineAt text offset = 1 + ((bytes text).take offset).count newline := by
  rw [lineAt, bytesBehind_eq, List.drop_zero]

@[simp] theorem lineAt_zero (text : Text) : lineAt text 0 = 1 := by rw [lineAt_eq, List.take_zero, List.count_nil]

theorem lineAt_le (text : Text) (offset : Nat) : lineAt text offset ≤ 1 + size text := by
  have counted : ((bytes text).take offset).count newline ≤ ((bytes text).take offset).length :=
    List.count_le_length
  rw [List.length_take, length_bytes] at counted
  rw [lineAt_eq]
  omega

theorem lineAt_mono (text : Text) {start stop : Nat} (inOrder : start ≤ stop) :
    lineAt text start ≤ lineAt text stop := by
  have prefixes : (bytes text).take start <+: (bytes text).take stop := List.take_prefix_take_left inOrder
  rw [lineAt_eq, lineAt_eq]
  exact Nat.add_le_add_left (prefixes.sublist.count_le newline) 1

/-- **Lines are counted on from a place to a later one.** -/
theorem lineAt_add {text : Text} {start stop : Nat} (inOrder : start ≤ stop) (inText : stop ≤ size text) :
    lineAt text start + (bytesBetween text start stop).count newline = lineAt text stop := by
  have parts : (bytes text).take stop
      = (bytes text).take start ++ ((bytes text).drop start).take (stop - start) := by
    rw [← List.take_add, Nat.add_sub_cancel' inOrder]
  rw [lineAt_eq, lineAt_eq, bytesBetween_of_le inOrder inText, parts, List.count_append, Nat.add_assoc]

end AnnotationCheck.Text
