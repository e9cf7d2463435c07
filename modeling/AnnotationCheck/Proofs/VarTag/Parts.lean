import AnnotationCheck.Proofs.VarTag.Reading

/-!
The annotations of a part of a text.

* `Parted` — no word runs across the cut between two texts.
* `behindAt?_append` — what is read behind an `@` before such a cut is read there in the whole text, with
  the same type and the same variable.
* **`ofText_append_sublist`** — the annotations of both parts are among those of the whole text, in their
  order.
-/

namespace AnnotationCheck.VarTag

open Text (Stops)

/-- No word runs across the cut between two texts. -/
def Parted (left right : Text) : Prop := left.getLast?.any Text.isWord = true → Stops Text.isWord right

theorem Parted.of_cons {c : Char} {left right : Text} (parted : Parted (c :: left) right) :
    Parted left right := by
  intro endsInWord
  cases left with
  | nil => cases endsInWord
  | cons d rest => exact parted (by rwa [List.getLast?_cons_cons])

theorem IsDivided.append {text type subject rest : Text} (divided : IsDivided text type subject rest)
    (more : Text) : IsDivided (text ++ more) type subject (rest ++ more) := by
  obtain ⟨tag, before, between, isTag, isBefore, isUnion, isBetween, isSubject, rfl⟩ := divided
  exact ⟨tag, before, between, isTag, isBefore, isUnion, isBetween, isSubject, by simp⟩

/-- An annotation that reaches to the end of a text ends it with a word. -/
theorem IsDivided.endsInWord {text type subject : Text} (divided : IsDivided text type subject []) :
    text.getLast?.any Text.isWord = true := by
  obtain ⟨tag, before, between, _, _, _, _, ⟨some, all⟩, rfl⟩ := divided
  have last : (tag ++ before ++ type ++ between ++ '$' :: subject ++ []).getLast? = subject.getLast? := by
    rw [List.append_nil, ← List.singleton_append, ← List.append_assoc, List.getLast?_append_of_ne_nil _ some]
  rw [last, List.getLast?_eq_some_getLast some]
  exact all _ (List.getLast_mem some)

/-- What is read behind an `@` before a cut is read there in the whole text too. -/
theorem behindAt?_append {left right type subject rest : Text} (parted : Parted left right)
    (found : behindAt? left = some (type, subject, rest)) :
    behindAt? (left ++ right) = some (type, subject, rest ++ right) := by
  obtain ⟨divided, longest⟩ := behindAt?_eq_some_iff.mp found
  refine behindAt?_eq_some_iff.mpr ⟨divided.append right, longest.append fun atEnd => parted ?_⟩
  exact (atEnd ▸ divided).endsInWord

theorem ofText_sublist_cons (line : Nat) (c : Char) (text : Text) :
    (ofText line text).Sublist (ofText line (c :: text)) := by
  by_cases here : c = '@'
  · subst here
    cases found : behindAt? text with
    | none => rw [ofText_at_of_none line found]
    | some parts =>
      rw [ofText_at_of_some line found]
      exact List.sublist_cons_self _ _
  · rw [ofText_cons_of_ne line here]

theorem ofText_sublist_append (line : Nat) (left right : Text) :
    (ofText line right).Sublist (ofText line (left ++ right)) := by
  induction left with
  | nil => exact List.Sublist.refl _
  | cons c left ih => exact ih.trans (ofText_sublist_cons line c (left ++ right))

/-- **The annotations of two texts are among those of the whole**, in their order, if no word runs across
the cut between the texts. -/
theorem ofText_append_sublist (line : Nat) {left right : Text} (parted : Parted left right) :
    (ofText line left ++ ofText line right).Sublist (ofText line (left ++ right)) := by
  induction left with
  | nil => exact List.Sublist.refl _
  | cons c left ih =>
    have behind := ih parted.of_cons
    by_cases here : c = '@'
    · subst here
      cases found : behindAt? left with
      | none =>
        rw [ofText_at_of_none line found]
        exact behind.trans (ofText_sublist_cons line '@' (left ++ right))
      | some parts =>
        have foundInWhole := behindAt?_append parted.of_cons found
        rw [ofText_at_of_some line found, List.cons_append, List.cons_append,
          ofText_at_of_some line foundInWhole]
        exact behind.cons_cons _
    · rw [ofText_cons_of_ne line here, List.cons_append, ofText_cons_of_ne line here]
      exact behind

end AnnotationCheck.VarTag
